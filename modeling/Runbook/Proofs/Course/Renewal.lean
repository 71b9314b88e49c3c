import Runbook.Proofs.Course.Resumption
import Runbook.Proofs.Course.Roots
import Runbook.Proofs.Course.Trail

/-!
What becomes of definitions. An execution follows the definition that it was begun with, whatever is made of
the stored one meanwhile, as long as it is not taken up again. When it is, it is made anew, of the definition
that is stored by then. This holds whatever is refused on the way.
-/
namespace Runbook

/-- An operation of an engine that goes on, or of one that takes its place. -/
def Operation.isFurther : Operation → Bool
  | .restart _ | .resume => true
  | op => op.isOngoing

namespace Storage

/-- Only an execution that has a record can be loaded. -/
theorem ends_loadExecution_read (s : Storage) (id : String) :
    Ends (loadExecution id) s (fun record _ => (id, record.row.workflow) ∈ s.born) fun _ _ => True := by
  refine (ends_query_read s _ _ _).imp (fun record t read => ?_) fun _ _ _ => trivial
  cases found : s.tables.execution? id with
  | none =>
    rw [found] at read
    cases read
  | some row =>
    rw [found] at read
    have own : row.id = id := by simpa using List.find?_some found
    obtain ⟨data, loaded⟩ | ⟨f, refused, -⟩ := load_row row
    · obtain rfl := Except.ok.inj (loaded.symm.trans read)
      exact List.mem_map.2 ⟨row, List.mem_of_find?_eq_some found, congrArg (·, row.workflow) own⟩
    · cases refused.symm.trans read

/-- A workflow that is loaded is the one that is stored. -/
theorem ends_loadWorkflow_read (s : Storage) (id : String) :
    Ends (loadWorkflow id) s (fun w _ => Store.definition? s.tables.workflows id = some w) fun _ _ => True := by
  refine Ends.bind ((ends_query_read s _ _ _).imp (fun row t read => ?_) fun _ _ _ => trivial)
  cases found : s.tables.workflow? id with
  | none =>
    rw [found] at read
    cases read
  | some stored =>
    rw [found] at read
    obtain rfl := Except.ok.inj read
    have there : s.tables.workflows.find? (·.id == id) = some stored := found
    cases parsed : Workflow.parse stored.record with
    | ok w =>
      refine Ends.pure_iff.2 ?_
      unfold Store.definition?
      rw [there, Option.bind_some, parsed]
      rfl
    | error f => exact Ends.throw_iff.2 trivial

end Storage

namespace Engine

/-- The ids to come are in use neither in memory nor in store. -/
structure Free (e : Engine) : Prop where
  vacant : e.Vacant
  unused : ∀ c ∈ e.storage.born, ∀ n, e.storage.nextId ≤ n → c.1 ≠ idText n

variable {α : Type} {e t u : Engine} {id : String} {x : Execution} {rows : List Store.WorkflowRow}
  {I : Engine → Prop}

theorem Free.onward (free : e.Free) (proceeds : e.Proceeds t) : t.Free where
  vacant := proceeds.vacant
  unused c there n late same := by
    rcases proceeds.come c there with before | ⟨m, -, early, name⟩
    · exact free.unused c before n (Nat.le_trans proceeds.later late) same
    · have number : m = n := Scene.idText_inj (name.symm.trans same)
      omega

/-- An execution that is made live again stands under an id that is in use. -/
theorem Free.revive (free : e.Free) (proceeds : e.Proceeds t) {w : String} (stored : (x.id, w) ∈ e.storage.born)
    (live : List String) : ({ t.putExecution x with live } : Engine).Free := by
  refine ⟨fun n late => ?_, (free.onward proceeds).unused⟩
  have early : idText n ≠ x.id := (free.unused _ stored n (Nat.le_trans proceeds.later late)).symm
  exact (execution?_replace t x _).trans ((if_neg early).trans (proceeds.vacant n late))

/-- An engine has proceeded, and the stored workflows are the same. -/
def Sustains (rows : List Store.WorkflowRow) (e t : Engine) : Prop := e.Proceeds t ∧ Stocks rows t

/-- What an errand answers is what it reads. -/
theorem ends_errand_read {y : StorageM α} (vacant : e.Vacant) (stocks : Stocks rows e)
    (errand : Storage.Errand y) {good : α → Prop} (reads : Ends y e.storage (fun a _ => good a) fun _ _ => True) :
    Ends (liftM y : Run α) e (fun a t => Sustains rows e t ∧ good a) fun _ t => Sustains rows e t := by
  have goes := (Storage.heard_errand (s := e.storage) errand).and (errand.stocked e.storage stocks)
  exact ends_storage.2 ((goes.and reads).imp (fun _ _ h => ⟨⟨.serve vacant h.1.1, h.1.2⟩, h.2⟩)
    fun _ _ h => ⟨.serve vacant h.1.1, h.1.2⟩)

/-! Delays are resumed. -/

/-- What an engine that resumes may rely on: it holds on while executions proceed and no workflow changes, and
when an execution that is not live is made live again of its record and of the workflow that is stored. -/
structure Renewable (rows : List Store.WorkflowRow) (still : String → Prop) (I : Engine → Prop) : Prop where
  free {t : Engine} : I t → t.Free
  stocks {t : Engine} : I t → Stocks rows t
  onward {t u : Engine} : I t → Sustains rows t u → I u
  revive {t u : Engine} {x : Execution} {w : String} {live : List String} : I t → Sustains rows t u →
    still x.id → (x.id, w) ∈ t.storage.born → Store.definition? rows w = some x.workflow →
    I { u.putExecution x with live }

namespace Renewable

variable {still : String → Prop} (renewable : Renewable rows still I)

include renewable

theorem keeps {y : Run α} (goes : ∀ e : Engine, Keeps e.Proceeds y) (stocked : Keeps (Stocks rows) y) :
    Keeps I y := fun e holds =>
  ((goes e e (.refl (renewable.free holds).vacant)).and (stocked e (renewable.stocks holds))).imp
    (fun _ _ h => renewable.onward holds h) fun _ _ h => renewable.onward holds h

theorem errand {y : StorageM α} (errand : Storage.Errand y) : Keeps I (liftM y : Run α) :=
  renewable.keeps (fun _ => onward_errand errand) (tables_lift errand.stocked)

theorem note {level : Level} {message : String} : Keeps I (note level logger message []) :=
  renewable.keeps (fun _ => onward_note (by decide)) keeps_stocks_note

/-- An execution is found that has a record. -/
theorem findRecord (holds : I e) (id : String) :
    Ends (findRecord id) e (fun r t => Sustains rows e t ∧
      ∀ record, r = some record → (id, record.row.workflow) ∈ e.storage.born) fun _ t => Sustains rows e t := by
  have loads := ends_errand_read (renewable.free holds).vacant (renewable.stocks holds) (.loadExecution id)
    (Storage.ends_loadExecution_read e.storage id)
  refine Ends.tryCatch_iff.2 (Ends.map_iff.2 (loads.imp ?_ fun f t sustains => ?_))
  · rintro record t ⟨sustains, stored⟩
    refine ⟨sustains, ?_⟩
    rintro _ ⟨⟩
    exact stored
  · cases f with
    | program p =>
      refine Ends.ite_iff.2 ⟨fun _ => Ends.pure_iff.2 ⟨sustains, ?_⟩, fun _ => Ends.throw_iff.2 sustains⟩
      exact fun _ no => by cases no
    | _ => exact Ends.throw_iff.2 sustains

/-- The workflow that is loaded is the one that is stored. -/
theorem tryWorkflow (holds : I e) (workflow : String) :
    Ends (onProgramError (Except.ok <$> (Storage.loadWorkflow workflow : Run Workflow))
        fun p => pure (.error p)) e
      (fun r t => Sustains rows e t ∧ ∀ w, r = .ok w → Store.definition? rows workflow = some w)
      fun _ t => Sustains rows e t := by
  have stocks := renewable.stocks holds
  have loads := ends_errand_read (renewable.free holds).vacant stocks (.loadWorkflow workflow)
    (Storage.ends_loadWorkflow_read e.storage workflow)
  refine Ends.tryCatch_iff.2 (Ends.map_iff.2 (loads.imp ?_ fun f t sustains => ?_))
  · rintro w t ⟨sustains, stored⟩
    refine ⟨sustains, ?_⟩
    rintro _ ⟨⟩
    exact stocks ▸ stored
  · cases f with
    | program p => exact Ends.pure_iff.2 ⟨sustains, fun _ no => by cases no⟩
    | _ => exact Ends.throw_iff.2 sustains

theorem rebuild {id : String} (idle : still id) (first : Store.Marker) (ms : List Store.Marker) :
    Keeps I (rebuild id first ms) := by
  intro e holds
  have discards : Keeps I (do
      let _ ← (Storage.clearMarkers id : Run Nat)
      return (none : Option Execution)) := .bind (renewable.errand (.clearMarkers id)) fun _ => .pure _
  refine Ends.bind ((renewable.findRecord holds id).imp ?_ fun _ _ h => renewable.onward holds h)
  rintro (_ | record) t ⟨sustains, found⟩
  · exact discards t (renewable.onward holds sustains)
  have stored := found record rfl
  have here := renewable.onward holds sustains
  refine Ends.ite_iff.2 ⟨fun _ => discards t here, fun _ => ?_⟩
  refine Ends.bind ((renewable.tryWorkflow here record.row.workflow).imp ?_ fun _ _ h => renewable.onward here h)
  rintro (p | w) u ⟨loaded, defined⟩
  · have fails : Keeps I (do
        let _ ← (do
          let _ ← (Storage.clearMarkers id : Run Nat)
          return (none : Option Execution))
        (Storage.setExecutionStatus id (.text ExecutionStatus.failed.name) (.text p.text) .null : Run Unit)
        return (none : Option Execution)) :=
      .bind discards fun _ => .bind (renewable.errand (.setStatus _ _ _ _)) fun _ => .pure _
    exact Keeps.bind renewable.note (fun _ => fails) u (renewable.onward here loaded)
  · have still' := renewable.onward here loaded
    refine Ends.bind (ends_ofExcept.2 ⟨fun s _ => ?_, fun _ _ => still'⟩)
    refine Ends.bind (ends_ofExcept.2 ⟨fun x absorbed => ?_, fun _ _ => still'⟩)
    refine Ends.bind (Ends.modify_iff.2 (Ends.bind (Ends.modify_iff.2 (Ends.pure_iff.2 ?_))))
    obtain ⟨named, own⟩ := belongs_of_absorbed absorbed
    have named : x.id = id := named
    subst named
    exact renewable.revive holds ⟨sustains.1.trans loaded.1, loaded.2⟩ idle stored (own ▸ defined w rfl)

theorem resumeGroup (now : Instant) {g : String × List Store.Marker} (idle : still g.1) :
    Keeps I (resumeGroup now g) := by
  obtain ⟨id, ms⟩ := g
  cases ms with
  | nil => exact .pure _
  | cons first rest =>
    refine .bind (renewable.rebuild idle first _) fun r => ?_
    cases r with
    | none => exact .pure _
    | some x =>
      have sets : Keeps I ((first :: rest).forM (reschedule now)) := by
        refine renewable.keeps (fun e => .forM _ fun m => ?_) (.forM _ fun m => ?_)
        · exact .bind (onward_aside (r := .restored m.node _) rfl) fun _ =>
            (manner_proceeds e).scheduleContinuation _ _ _ _
        · exact .of_twin (.then_ ((bond_stocks rows).log _ _ _ _) fun _ =>
            (bond_stocks rows).scheduleContinuation _ _ _ _)
      refine .bind sets fun _ => .bind ?_ fun _ => .pure _
      exact renewable.keeps (fun e => (manner_proceeds e).branchFinished trivial)
        (.of_twin ((bond_stocks rows).branchFinished id))

/-- Only executions that were not live are made live again. -/
theorem resume (holds : I e) (idle : ∀ id, e.live.contains id = false → still id) :
    Ends Engine.resume e (fun _ t => I t) fun _ t => I t := by
  have groups (now : Instant) (gs : List (String × List Store.Marker)) (apart : ∀ g ∈ gs, still g.1) :
      Keeps I (gs.mapM (Engine.resumeGroup now)) := by
    induction gs with
    | nil => simpa using Keeps.pure (I := I) []
    | cons g rest ih =>
      rw [List.mapM_cons]
      exact .bind (renewable.resumeGroup now (apart g (.head _))) fun _ =>
        .bind (ih fun k later => apart k (.tail _ later)) fun _ => .pure _
  refine Ends.bind (Ends.get_iff.2 (Ends.bind ((renewable.errand .listMarkers e holds).imp ?_ fun _ _ h => h)))
  intro ms t holds
  have apart : ∀ g ∈ groupMarkers (ms.filter fun m => !e.live.contains m.execution), still g.1 := by
    intro g there
    obtain ⟨own, some⟩ := (groups_groupMarkers _).2.1 g there
    obtain ⟨m, mine⟩ := List.exists_mem_of_ne_nil _ some
    rw [own, List.mem_filter, List.mem_filter, beq_iff_eq, Bool.not_eq_true'] at mine
    exact idle g.1 (mine.2 ▸ mine.1.2)
  refine Keeps.get (fun _ => .bind (.ofExcept _) fun now => .bind (groups now _ apart) fun _ => ?_) t holds
  exact .ite (fun _ => .bind renewable.note fun _ => .pure _) fun _ => .pure _

end Renewable

/-! Definitions. -/

/-- What is known of an execution is made anew, of its workflow as it is stored. -/
def Renews (s : Engine) (id : String) (y : Execution) : Prop :=
  ∃ w, (id, w) ∈ s.storage.born ∧ Store.definition? s.storage.tables.workflows w = some y.workflow

/-- Since some state, what was known has proceeded; or it was not live and was made anew. -/
structure Turns (s t : Engine) : Prop where
  free : t.Free
  stocks : Stocks s.storage.tables.workflows t
  later : s.storage.nextId ≤ t.storage.nextId
  come : ∀ c ∈ t.storage.born, c ∈ s.storage.born ∨ ∃ n, s.storage.nextId ≤ n ∧ c.1 = idText n
  words : ∀ text, s.registry.Says text → t.registry.Says text
  known : ∀ id x, s.execution? id = some x → ∃ y, t.execution? id = some y ∧
    (x.Proceeds t.registry.Says y ∨ s.live.contains id = false ∧ s.Renews id y)

theorem Turns.refl (free : e.Free) : e.Turns e where
  free := free
  stocks := rfl
  later := Nat.le_refl _
  come _ there := .inl there
  words _ said := said
  known _ x known := ⟨x, known, .inl (.refl x)⟩

theorem Turns.onward {s : Engine} (turns : s.Turns t) (sustains : Sustains s.storage.tables.workflows t u) :
    s.Turns u where
  free := turns.free.onward sustains.1
  stocks := sustains.2
  later := Nat.le_trans turns.later sustains.1.later
  come c there := by
    rcases sustains.1.come c there with before | ⟨n, late, -, name⟩
    · exact turns.come c before
    · exact .inr ⟨n, Nat.le_trans turns.later late, name⟩
  words text said := sustains.1.words text (turns.words text said)
  known id x known := by
    obtain ⟨y, there, turned⟩ := turns.known id x known
    obtain ⟨z, after, proceeds⟩ := sustains.1.known id y there
    refine ⟨z, after, turned.imp (fun first => ?_) fun anew => ⟨anew.1, ?_⟩⟩
    · exact (first.mono sustains.1.words).trans proceeds
    · obtain ⟨w, stored, defined⟩ := anew.2
      exact ⟨w, stored, proceeds.workflow ▸ defined⟩

/-- What was not live is made anew of its workflow. -/
theorem renewable_turns {s : Engine} (vacant : s.Vacant) :
    Renewable s.storage.tables.workflows (fun id => s.live.contains id = false) s.Turns where
  free := Turns.free
  stocks := Turns.stocks
  onward := Turns.onward
  revive := by
    intro t u x w live turns sustains idle stored defined
    have here := turns.onward sustains
    refine ⟨turns.free.revive sustains.1 stored live, sustains.2, here.later, here.come, here.words,
      fun id x' known => ?_⟩
    have replaced : ({ u.putExecution x with live } : Engine).execution? id = _ := execution?_replace u x id
    rw [replaced]
    by_cases own : id = x.id
    · subst own
      refine ⟨x, if_pos rfl, .inr ⟨idle, w, ?_, defined⟩⟩
      refine (turns.come _ stored).resolve_right ?_
      rintro ⟨n, late, name⟩
      have unknown := vacant n late
      rw [← name, known] at unknown
      cases unknown
    · rw [if_neg own]
      exact here.known id x' known

theorem onward_restart (now : Float) : Keeps e.Proceeds (restart now) :=
  .bind (manner_proceeds e).shutdown fun _ => .bind
    (onward_modify (fun _ => rfl) (fun _ => rfl) fun _ => rfl) fun _ => onward_note (by decide)

/-- Whatever is done next, what is known proceeds; only when delays are resumed it may be made anew, if it was
not live, and then of its workflow as it is stored. -/
theorem further_after (free : e.Free) {op : Operation} (further : op.isFurther = true) :
    (e.after op).Free ∧ (∀ text, e.registry.Says text → (e.after op).registry.Says text) ∧
    ∀ id x, e.execution? id = some x → ∃ y, (e.after op).execution? id = some y ∧
      (x.Proceeds (e.after op).registry.Says y ∨
        op = .resume ∧ e.live.contains id = false ∧ e.Renews id y) := by
  by_cases resumes : op = .resume
  · subst resumes
    have turns : e.Turns (e.after .resume) := by
      refine after_of_ends (Ends.bind ?_)
      refine ((renewable_turns free.vacant).resume (.refl free) fun _ idle => idle).imp (fun _ _ turns => ?_)
        fun _ _ turns => turns
      exact Ends.pure_iff.2 turns
    refine ⟨turns.free, turns.words, fun id x known => ?_⟩
    obtain ⟨y, there, turned⟩ := turns.known id x known
    exact ⟨y, there, turned.imp_right fun anew => ⟨rfl, anew⟩⟩
  · have goes : Keeps e.Proceeds (carryOut op) := by
      cases op with
      | resume => exact absurd rfl resumes
      | restart now => exact .bind (onward_restart now) fun _ => .pure _
      | _ => exact onward_carryOut further
    have proceeds : e.Proceeds (e.after op) := after_of_ends (goes e (.refl free.vacant))
    refine ⟨free.onward proceeds, proceeds.words, fun id x known => ?_⟩
    obtain ⟨y, there, first⟩ := proceeds.known id x known
    exact ⟨y, there, .inl first⟩

theorem Fresh.free (fresh : e.Fresh) : e.Free where
  vacant := fresh.vacant_afterAll [] nofun
  unused c there := by
    rw [Storage.born, fresh.rows] at there
    cases there

theorem Free.afterAll (free : e.Free) {ops : List Operation} (further : ∀ op ∈ ops, op.isFurther = true) :
    (e.afterAll ops).Free := by
  induction ops generalizing e with
  | nil => exact free
  | cons op rest ih =>
    exact ih (further_after free (further op (.head _))).1 fun k later => further k (.tail _ later)

/-- Whatever is done afterwards, with the same engine or with ones that take its place, what is known of an
execution proceeds, and so all that it goes through is of the definition that it was begun with. The one
exception is an execution that was taken up again when delays were resumed while it was not live: it goes by
its workflow as it was stored at the last such time. -/
theorem Fresh.keeps_version (fresh : e.Fresh) {ops more : List Operation}
    (further : ∀ op ∈ ops ++ more, op.isFurther = true)
    (known : (e.afterAll ops).execution? id = some x) :
    ∃ y, (e.afterAll (ops ++ more)).execution? id = some y ∧
      (x.Proceeds (e.afterAll (ops ++ more)).registry.Says y ∨
        ∃ before after, more = before ++ .resume :: after ∧
          (e.afterAll (ops ++ before)).live.contains id = false ∧
          (e.afterAll (ops ++ before)).Renews id y) := by
  -- Each operation comes after all that was done before it.
  induction more using List.reverseRecOn with
  | nil =>
    rw [List.append_nil]
    exact ⟨x, known, .inl (.refl x)⟩
  | append_singleton more op ih =>
    rw [← List.append_assoc] at further ⊢
    have early : ∀ k ∈ ops ++ more, k.isFurther = true := fun k there =>
      further k (List.mem_append_left _ there)
    obtain ⟨y, there, turned⟩ := ih early
    obtain ⟨-, words, next⟩ := further_after (fresh.free.afterAll early)
      (further op (List.mem_append_right _ (.head _)))
    obtain ⟨z, known', turned'⟩ := next id y there
    rw [afterAll_append]
    refine ⟨z, known', ?_⟩
    rcases turned' with goes | ⟨rfl, idle, anew⟩
    · refine turned.imp (fun first => (first.mono words).trans goes) ?_
      rintro ⟨before, after, rfl, idle, w, stored, defined⟩
      refine ⟨before, after ++ [op], by simp, idle, w, stored, ?_⟩
      exact goes.workflow ▸ defined
    · exact .inr ⟨more, [], rfl, idle, anew⟩

end Engine

end Runbook
