import Runbook.Proofs.Course.Progress
import Runbook.Proofs.Course.Unheard

/-!
How an engine proceeds, whatever is refused meanwhile. The executions that it knows proceed, others
begin under ids that were not in use, and log entries are stored at the end of the log in the order
in which they are made, unless they get lost. Each elementary operation leads on like that.
-/
namespace Runbook

namespace Storage

/-- Log entries are made, and are stored at the end of the log or get lost; executions come in under
ids that were to come. -/
structure Heard (made : List Store.LogRow) (s t : Storage) : Prop where
  later : s.nextId ≤ t.nextId
  come : ∀ c ∈ t.born, c ∈ s.born ∨ ∃ n, s.nextId ≤ n ∧ n < t.nextId ∧ c.1 = idText n
  spoken : t.journal.spoken = s.journal.spoken ++ made.map (·.spoken)
  rows : t.tables.logs = s.tables.logs ∨ t.tables.logs = s.tables.logs ++ made

variable {α : Type} {s t : Storage}

theorem Heard.of_bears (same : t.echo = s.echo) {l : List (String × String)} (bears : Bears l s t) :
    Heard [] s t := by
  have spoken : t.journal.spoken = s.journal.spoken := congrArg Echo.spoken same
  refine ⟨bears.later, fun c there => ?_, by simp [spoken], .inl (congrArg Echo.rows same)⟩
  rw [bears.born] at there
  exact (List.mem_append.1 there).imp id (bears.new c)

theorem Heard.of_eq (same : t = s) : Heard [] s t := same ▸ .of_bears rfl (.refl t)

/-- Nothing is heard of what leaves the log alone. -/
theorem heard_of_near {x : StorageM α} (near : ∀ p q, Twins (Near p q) x x)
    (bears : Ends x s (fun _ t => ∃ l, Bears l s t) fun _ t => ∃ l, Bears l s t) :
    Ends x s (fun _ t => Heard [] s t) fun _ t => Heard [] s t := by
  have met := near s.echo s.echo s s ⟨.refl s, rfl, rfl⟩
  unfold Ends at bears ⊢
  generalize x s = r at met bears ⊢
  cases met with
  | answer _ near =>
    obtain ⟨l, bears⟩ := bears
    exact .of_bears near.right bears
  | failure near =>
    obtain ⟨l, bears⟩ := bears
    exact .of_bears near.right bears

theorem heard_errand {x : StorageM α} (errand : Errand x) :
    Ends x s (fun _ t => Heard [] s t) fun _ t => Heard [] s t :=
  heard_of_near (fun _ _ => errand.near) (errand.bears.imp (fun _ _ h => ⟨[], h⟩) fun _ _ h => ⟨[], h⟩)

theorem heard_quiet {x : StorageM α} (near : ∀ p q, Twins (Near p q) x x) (quiet : Quiet x) :
    Ends x s (fun _ t => Heard [] s t) fun _ t => Heard [] s t :=
  heard_of_near near (quiet.bears.imp (fun _ _ h => ⟨[], h⟩) fun _ _ h => ⟨[], h⟩)

/-- An execution is created under an id that was to come. -/
theorem heard_createExecution (workflow tenant data module item : Value) :
    Ends (createExecution workflow tenant data module item) s
      (fun id t => Heard [] s t ∧ ∃ n, s.nextId ≤ n ∧ n < t.nextId ∧ id = idText n)
      fun _ t => Heard [] s t := by
  have bears := bears_createExecution (s := s) workflow tenant data module item
  have silent := heard_of_near (s := s) (fun _ _ => twins_createExecution workflow tenant data module item)
    (bears.imp (fun _ _ ⟨_, _, born⟩ => ⟨_, born⟩) fun _ _ h => ⟨_, h⟩)
  refine (silent.and bears).imp ?_ fun _ _ h => h.1
  rintro id t ⟨silent, w, -, born⟩
  exact ⟨silent, born.new _ (.head _)⟩

/-- An entry is stored, or it is not. -/
theorem heard_appendLog (execution tenant : String) (entry : LogEntry) :
    Ends (appendLog execution (.text tenant) entry) s
      (fun _ t => t.nextId = s.nextId ∧ t.born = s.born ∧ t.journal.spoken = s.journal.spoken ∧
        t.tables.logs = s.tables.logs ++ [⟨execution, tenant, entry⟩])
      fun _ t => t.nextId = s.nextId ∧ t.born = s.born ∧ t.journal.spoken = s.journal.spoken ∧
        t.tables.logs = s.tables.logs := by
  let kept (t : Storage) : Prop := t.nextId = s.nextId ∧ t.born = s.born ∧
    t.journal.spoken = s.journal.spoken ∧ t.tables.logs = s.tables.logs
  have tried : Ends (appendLog execution (.text tenant) entry) s
      (fun _ t => t.nextId = s.nextId ∧ t.born = s.born ∧ t.journal.spoken = s.journal.spoken ∧
        t.tables.logs = s.tables.logs ++ [⟨execution, tenant, entry⟩])
      fun _ t => kept t ∧ True := by
    refine ends_retrying_of_kept kept (fun _ => True) (fun t u part tables _ holds => ?_) _
      (fun t holds => ?_) ⟨rfl, rfl, rfl, rfl⟩
    · obtain ⟨next, born, spoken, rows⟩ := holds
      refine ⟨(congrArg Part.next part).trans next, ?_, (congrArg Part.spoken part).trans spoken, tables ▸ rows⟩
      unfold Storage.born at born ⊢
      rw [tables, born]
    · obtain ⟨next, born, spoken, rows⟩ := holds
      refine Ends.bind ?_
      unfold Ends
      rw [openSession_eq]
      cases (Store.Outage.strike "append execution log" t.outages).1 with
      | some o => exact ⟨⟨next, born, spoken, rows⟩, trivial⟩
      | none => exact ⟨next, born, spoken, congrArg (· ++ [_]) rows⟩
  exact tried.imp (fun _ _ h => h) fun _ _ h => h.1

end Storage

namespace Engine

/-- Changes the execution with an id. -/
def alter (e : Engine) (id : String) (f : Execution → Execution) : Engine :=
  { e with executions := e.executions.map fun x => if x.id == id then f x else x }

/-- The ids to come are not in use. -/
def Vacant (e : Engine) : Prop := ∀ n, e.storage.nextId ≤ n → e.execution? (idText n) = none

/-- The log of an execution as it is remembered. -/
def remembered (e : Engine) (id : String) : List LogEntry := ((e.execution? id).map (·.logs)).getD []

/-- From one state to another, as many log entries were stored as were made. -/
def LosesNone (e t : Engine) : Prop :=
  t.storage.tables.logs.length + e.storage.journal.spoken.length =
    e.storage.tables.logs.length + t.storage.journal.spoken.length

/-- An engine has proceeded to another state of itself. -/
structure Proceeds (e t : Engine) : Prop where
  words : ∀ text, e.registry.Says text → t.registry.Says text
  later : e.storage.nextId ≤ t.storage.nextId
  come : ∀ c ∈ t.storage.born, c ∈ e.storage.born ∨
    ∃ n, e.storage.nextId ≤ n ∧ n < t.storage.nextId ∧ c.1 = idText n
  vacant : t.Vacant
  known : ∀ k x, e.execution? k = some x →
    ∃ y, t.execution? k = some y ∧ x.Proceeds t.registry.Says y
  /-- What was not known has begun meanwhile. -/
  born : ∀ k y, e.execution? k = none → t.execution? k = some y →
    (∃ n, e.storage.nextId ≤ n ∧ k = idText n) ∧
      ∃ x : Execution, x.path = [] ∧ x.logs = [] ∧ x.Proceeds t.registry.Says y
  stored : e.storage.tables.logs <+: t.storage.tables.logs
  fewer : t.storage.tables.logs.length + e.storage.journal.spoken.length ≤
    e.storage.tables.logs.length + t.storage.journal.spoken.length
  /-- What is made is stored as well, if nothing gets lost. -/
  mirrors : e.LosesNone t → ∀ k, ∃ made, t.remembered k = e.remembered k ++ made ∧
    (t.storedLog k).map (·.entry) = (e.storedLog k).map (·.entry) ++ made

variable {α : Type} {e t u : Engine} {id : String} {x : Execution} {f : Execution → Execution}

theorem execution?_alter (named : ∀ x, (f x).id = x.id) (e : Engine) (id k : String) :
    (e.alter id f).execution? k = if k = id then (e.execution? k).map f else e.execution? k :=
  execution?_modify named e id k

namespace Proceeds

theorem trans (first : e.Proceeds t) (second : t.Proceeds u) : e.Proceeds u where
  words text said := second.words text (first.words text said)
  later := Nat.le_trans first.later second.later
  come c there := by
    rcases second.come c there with before | ⟨n, late, early, same⟩
    · refine (first.come c before).imp id fun ⟨n, late, early, same⟩ => ?_
      exact ⟨n, late, Nat.lt_of_lt_of_le early second.later, same⟩
    · exact .inr ⟨n, Nat.le_trans first.later late, early, same⟩
  vacant := second.vacant
  known k x known := by
    obtain ⟨y, there, onward⟩ := first.known k x known
    obtain ⟨z, there, further⟩ := second.known k y there
    exact ⟨z, there, (onward.mono second.words).trans further⟩
  born k z unknown there := by
    cases before : t.execution? k with
    | none =>
      obtain ⟨⟨n, late, same⟩, begun⟩ := second.born k z before there
      exact ⟨⟨n, Nat.le_trans first.later late, same⟩, begun⟩
    | some y =>
      obtain ⟨new, x, path, logs, onward⟩ := first.born k y unknown before
      obtain ⟨z', there', further⟩ := second.known k y before
      obtain rfl : z' = z := Option.some.inj (there'.symm.trans there)
      exact ⟨new, x, path, logs, (onward.mono second.words).trans further⟩
  stored := first.stored.trans second.stored
  fewer := by
    have := first.fewer
    have := second.fewer
    omega
  mirrors none k := by
    -- What was lost once is not made up for.
    have kept : e.LosesNone t ∧ t.LosesNone u := by
      have := first.fewer
      have := second.fewer
      unfold LosesNone at none ⊢
      omega
    obtain ⟨made, logs, rows⟩ := first.mirrors kept.1 k
    obtain ⟨more, logs', rows'⟩ := second.mirrors kept.2 k
    exact ⟨made ++ more, by rw [logs', logs, List.append_assoc], by rw [rows', rows, List.append_assoc]⟩

/-- No execution begins, and what is heard is what the executions have said. -/
theorem of_heard {made : List Store.LogRow} (vacant : e.Vacant)
    (heard : e.storage.Heard made t.storage) (words : ∀ text, e.registry.Says text → t.registry.Says text)
    (each : ∀ k x, e.execution? k = some x → ∃ y, t.execution? k = some y ∧
      x.Proceeds t.registry.Says y ∧ y.logs = x.logs ++ (made.filter (·.execution == k)).map (·.entry))
    (others : ∀ k, e.execution? k = none → t.execution? k = none ∧ made.filter (·.execution == k) = []) :
    e.Proceeds t where
  words := words
  later := heard.later
  come := heard.come
  vacant n late := (others _ (vacant n (Nat.le_trans heard.later late))).1
  known k x known := by
    obtain ⟨y, there, onward, -⟩ := each k x known
    exact ⟨y, there, onward⟩
  born k y unknown there := by
    rw [(others k unknown).1] at there
    cases there
  stored := by
    rcases heard.rows with lost | stored
    · exact lost ▸ List.prefix_rfl
    · exact stored ▸ List.prefix_append ..
  fewer := by
    have told := congrArg List.length heard.spoken
    rw [List.length_append, List.length_map] at told
    rcases heard.rows with lost | stored
    · rw [lost]; omega
    · rw [stored, List.length_append]; omega
  mirrors none k := by
    have told := congrArg List.length heard.spoken
    rw [List.length_append, List.length_map] at told
    have rows : t.storage.tables.logs = e.storage.tables.logs ++ made := by
      rcases heard.rows with lost | stored
      · unfold LosesNone at none
        rw [lost] at none
        have nothing : made = [] := List.length_eq_zero_iff.1 (by omega)
        rw [lost, nothing, List.append_nil]
      · exact stored
    refine ⟨(made.filter (·.execution == k)).map (·.entry), ?_, ?_⟩
    · unfold remembered
      cases known : e.execution? k with
      | none =>
        obtain ⟨unknown, untold⟩ := others k known
        rw [unknown, untold]
        rfl
      | some x =>
        obtain ⟨y, there, -, logs⟩ := each k x known
        rw [there]
        exact logs
    · unfold storedLog
      rw [rows, List.filter_append, List.map_append]

/-- Nothing happens to any execution. -/
theorem aside (vacant : e.Vacant) (heard : e.storage.Heard [] t.storage)
    (words : ∀ text, e.registry.Says text → t.registry.Says text)
    (same : ∀ k, t.execution? k = e.execution? k) : e.Proceeds t :=
  of_heard vacant heard words (fun k x known => ⟨x, (same k).trans known, .refl x, by simp⟩)
    fun k unknown => ⟨(same k).trans unknown, rfl⟩

theorem refl (vacant : e.Vacant) : e.Proceeds e :=
  aside vacant (.of_eq rfl) (fun _ said => said) fun _ => rfl

/-- Only the storage does something. -/
theorem serve (vacant : e.Vacant) {s : Storage} (heard : e.storage.Heard [] s) :
    e.Proceeds { e with storage := s } :=
  aside vacant heard (fun _ said => said) fun _ => rfl

/-- An execution proceeds without a word. -/
theorem alter (vacant : e.Vacant) (storage : t.storage = e.storage) (registry : t.registry = e.registry)
    (found : ∀ k, t.execution? k = if k = id then (e.execution? k).map f else e.execution? k)
    (onward : ∀ x, e.execution? id = some x → x.Proceeds e.registry.Says (f x) ∧ (f x).logs = x.logs) :
    e.Proceeds t := by
  refine of_heard vacant (.of_eq storage) (registry ▸ fun _ said => said)
    (fun k x known => ?_) fun k unknown => ⟨?_, rfl⟩
  · rw [found, known, registry]
    by_cases own : k = id
    · subst own
      exact ⟨f x, by simp, (onward x known).1, by simp [(onward x known).2]⟩
    · exact ⟨x, by simp [own], .refl x, by simp⟩
  · rw [found, unknown]
    split <;> rfl

/-- A new execution has begun. -/
theorem enrol (vacant : e.Vacant) {s : Storage} (heard : e.storage.Heard [] s) {n : Nat}
    (late : e.storage.nextId ≤ n) (early : n < s.nextId) (named : x.id = idText n) (path : x.path = [])
    (logs : x.logs = []) : e.Proceeds ({ e with storage := s }.putExecution x) := by
  have found (k : String) : ({ e with storage := s }.putExecution x).execution? k =
      if k = idText n then some x else e.execution? k := by
    rw [← named]
    exact execution?_replace ..
  have spoken : s.journal.spoken = e.storage.journal.spoken := by simpa using heard.spoken
  have rows : s.tables.logs = e.storage.tables.logs := by simpa using heard.rows
  refine ⟨fun _ said => said, heard.later, heard.come, fun m last => ?_, fun k y known => ?_,
    fun k y unknown there => ?_, ?_, ?_, fun _ k => ⟨[], ?_, ?_⟩⟩
  · have other : idText m ≠ idText n := fun same => by
      have := Scene.idText_inj same
      have : s.nextId ≤ m := last
      omega
    rw [found, if_neg other]
    exact vacant m (Nat.le_trans heard.later last)
  · have other : k ≠ idText n := by
      rintro rfl
      rw [vacant n late] at known
      cases known
    exact ⟨y, by rw [found, if_neg other, known], .refl y⟩
  · rw [found] at there
    split at there
    · cases there
      exact ⟨⟨n, late, ‹_›⟩, x, path, logs, .refl x⟩
    · rw [unknown] at there
      cases there
  · exact rows ▸ List.prefix_rfl
  · exact Nat.le_of_eq (congrArg₂ (· + ·) (congrArg List.length rows) (congrArg List.length spoken.symm))
  · unfold remembered
    rw [found]
    split
    · rename_i own
      rw [own, vacant n late]
      simp [logs]
    · simp
  · rw [List.append_nil]
    exact congrArg (fun l : List Store.LogRow => (l.filter (·.execution == k)).map (·.entry)) rows

end Proceeds

/-! What leads on from every state keeps what was reached from another one. -/

theorem onward {y : Run α} (each : ∀ t : Engine, t.Vacant →
    Ends y t (fun _ u => t.Proceeds u) fun _ u => t.Proceeds u) : Keeps e.Proceeds y :=
  fun t reached => (each t reached.vacant).imp (fun _ _ more => reached.trans more)
    fun _ _ more => reached.trans more

theorem onward_lift {y : StorageM α}
    (heard : ∀ s, Ends y s (fun _ t => Storage.Heard [] s t) fun _ t => Storage.Heard [] s t) :
    Keeps e.Proceeds (liftM y : Run α) :=
  onward fun t vacant => ends_storage.2 ((heard t.storage).imp (fun _ _ silent => .serve vacant silent)
    fun _ _ silent => .serve vacant silent)

theorem onward_errand {y : StorageM α} (errand : Storage.Errand y) : Keeps e.Proceeds (liftM y : Run α) :=
  onward_lift fun _ => Storage.heard_errand errand

theorem onward_quiet {y : StorageM α} (near : ∀ p q, Twins (Storage.Near p q) y y) (quiet : Storage.Quiet y) :
    Keeps e.Proceeds (liftM y : Run α) :=
  onward_lift fun _ => Storage.heard_quiet near quiet

theorem onward_modifyExecution (id : String) (named : ∀ x, (f x).id = x.id)
    (further : ∀ said (x : Execution), x.Proceeds said (f x)) (silent : ∀ x, (f x).logs = x.logs) :
    Keeps e.Proceeds (modifyExecution id f) :=
  onward fun t vacant => Ends.modify_iff.2 (.alter vacant rfl rfl (execution?_alter named t id)
    fun x _ => ⟨further _ x, silent x⟩)

/-- Something changes that no execution looks like. -/
theorem onward_modify {g : Engine → Engine} (storage : ∀ e, (g e).storage = e.storage)
    (registry : ∀ e, (g e).registry = e.registry) (executions : ∀ e, (g e).executions = e.executions) :
    Keeps e.Proceeds (modify g) := by
  refine onward fun t vacant => Ends.modify_iff.2 (.aside vacant (.of_eq (storage t)) ?_ fun k => ?_)
  · exact fun _ said => registry t ▸ said
  · unfold execution?
    rw [executions]

theorem onward_note {level : Level} {logger message : String} {context : Dict}
    (other : logger ≠ "deskflow.execution") : Keeps e.Proceeds (note level logger message context) := by
  refine onward fun t vacant => Ends.modify_iff.2 (.serve vacant
    (.of_bears ?_ (.of_eq rfl (Nat.le_refl _) rfl)))
  exact congrArg (fun spoken => Storage.Echo.mk t.storage.tables.logs spoken
    (t.storage.outages.filter Store.Outage.hitsLog)) (Journal.spoken_write_of_ne _ _ _ _ _ other)

/-! Log entries. -/

/-- An entry is told, and is stored or lost; nothing else becomes of it, even if that fails. -/
theorem heard_tell (id tenant : String) (workflow : Value) (entry : LogEntry) :
    Ends (tell id tenant workflow entry) e
      (fun _ t => t = { e with storage := t.storage } ∧
        e.storage.Heard [⟨id, tenant, entry⟩] t.storage)
      fun _ t => t = { e with storage := t.storage } ∧
        e.storage.Heard [⟨id, tenant, entry⟩] t.storage := by
  let row : Store.LogRow := ⟨id, tenant, entry⟩
  let s : Storage := { e.storage with
    journal := e.storage.journal.write (processLevel entry.level) "deskflow.execution" entry.message
      [(.text "execution_id", .text id), (.text "workflow_id", workflow),
        (.text "tenant_id", .text tenant), (.text "node_id", .text entry.node)] none }
  have spoken : s.journal.spoken = e.storage.journal.spoken ++ [row.spoken] := Journal.spoken_write_entry ..
  have told {t : Storage} (next : t.nextId = s.nextId) (born : t.born = s.born)
      (same : t.journal.spoken = s.journal.spoken)
      (rows : t.tables.logs = s.tables.logs ∨ t.tables.logs = s.tables.logs ++ [row]) :
      e.storage.Heard [row] t :=
    ⟨Nat.le_of_eq next.symm, fun _ there => .inl (born ▸ there), same.trans spoken, rows⟩
  refine Ends.bind (Ends.modify_iff.2 (Ends.bind (Ends.get_iff.2 ?_)))
  change Ends (if e.storesLog = true then _ else _) { e with storage := s } _ _
  refine Ends.ite_iff.2 ⟨fun _ => ?_, fun _ => Ends.pure_iff.2 ⟨rfl, told rfl rfl rfl (.inl rfl)⟩⟩
  refine ends_onStorageError.2 (ends_storage.2 ((Storage.heard_appendLog (s := s) id tenant entry).imp ?_ ?_))
  · rintro _ t ⟨next, born, same, rows⟩
    exact ⟨rfl, told next born same (.inr rows)⟩
  · rintro f t ⟨next, born, same, rows⟩
    refine ⟨fun p _ _ => Ends.modify_iff.2 ⟨rfl, told next born ?_ (.inl rows)⟩,
      fun _ => ⟨rfl, told next born same (.inl rows)⟩⟩
    exact (Journal.spoken_write_of_ne _ _ _ _ _ (by decide)).trans same

/-- What is said once an execution is looked up. The state before may be one from which the execution
has changed already, if it takes the remark for it to have proceeded. -/
theorem ends_told (vacant : e.Vacant) (known : e.execution? id = some x) {r : Remark}
    (onward : x.Proceeds e.registry.Says ((f x).tell r)) (silent : (f x).logs = x.logs)
    (same : t = { e with executions := t.executions })
    (found : ∀ k, t.execution? k = if k = id then (e.execution? k).map f else e.execution? k) :
    Ends (do
      modifyExecution id fun y => { y with logs := y.logs ++ [r.entry (f x).path] }
      tell id (f x).workflow.tenant (.ofText? (f x).workflow.id) (r.entry (f x).path)) t
      (fun _ u => e.Proceeds u) fun _ u => e.Proceeds u := by
  let row : Store.LogRow := ⟨id, (f x).workflow.tenant, r.entry (f x).path⟩
  have after {u : Engine} {s : Storage} (heard : e.storage.Heard [row] s)
      (changed : u = { e with
        executions := (t.alter id fun y => { y with logs := y.logs ++ [r.entry (f x).path] }).executions
        storage := s }) : e.Proceeds u := by
    have storage : u.storage = s := congrArg (·.storage) changed
    have registry : u.registry = e.registry := congrArg (·.registry) changed
    have lookUp (k : String) : u.execution? k = if k = id then some ((f x).tell r) else e.execution? k := by
      subst changed
      refine (execution?_alter (by intro; rfl) t id k).trans ?_
      rw [found]
      by_cases own : k = id
      · subst own
        simp only [if_true, known, Option.map_some]
        rfl
      · simp only [if_neg own]
    refine .of_heard vacant (storage.symm ▸ heard) (registry ▸ fun _ said => said) (fun k y there => ?_)
      fun k unknown => ?_
    · by_cases own : k = id
      · subst own
        obtain rfl : x = y := Option.some.inj (known.symm.trans there)
        refine ⟨_, (lookUp _).trans (if_pos rfl), registry ▸ onward, ?_⟩
        have mine : [row].filter (·.execution == k) = [row] := by simp [row]
        rw [mine]
        exact congrArg (· ++ [r.entry (f x).path]) silent
      · refine ⟨y, by rw [lookUp, if_neg own, there], .refl y, ?_⟩
        have other : [row].filter (·.execution == k) = [] := by simp [row, Ne.symm own]
        simp [other]
    · have own : k ≠ id := by
        rintro rfl
        rw [known] at unknown
        cases unknown
      exact ⟨by rw [lookUp, if_neg own, unknown], by simp [row, Ne.symm own]⟩
  refine Ends.bind (Ends.modify_iff.2 ((heard_tell ..).imp ?_ ?_)) <;>
  · rintro _ u ⟨rest, heard⟩
    rw [same] at heard rest
    exact after heard rest

/-- A remark that tells of no node that is entered leads on. -/
theorem onward_say {r : Remark} (stays : r.arrival? = none)
    (genuine : ∀ t, e.Proceeds t → ∀ w, r.Genuine t.registry.Says w) :
    Keeps e.Proceeds (log r.level id r.message r.node) := by
  rw [log_eq]
  refine .lookUp fun t x reached known => ?_
  refine (ends_told (f := fun x => x) reached.vacant known (.tell stays (genuine t reached _)) rfl rfl
    fun k => ?_).imp (fun _ _ more => reached.trans more) fun _ _ more => reached.trans more
  split
  · rw [Option.map_id']
  · rfl

theorem onward_aside {r : Remark} (aside : r.isAside = true) :
    Keeps e.Proceeds (log r.level id r.message r.node) :=
  onward_say (by cases r <;> first | rfl | cases aside) fun _ _ _ => by
    cases r <;> first | exact trivial | cases aside

/-- Entering a node leads on once the entry is made that tells of it. -/
theorem ends_arrival (vacant : e.Vacant) (known : e.execution? id = some x) {node : String} {r : Remark}
    (arrival : r.arrival? = some node) (genuine : r.Genuine e.registry.Says x.workflow) :
    Ends (log r.level id r.message r.node) (e.alter id (·.enter node)) (fun _ t => e.Proceeds t)
      fun _ t => e.Proceeds t := by
  have found := execution?_alter (f := (·.enter node)) (fun _ => rfl) e id
  have there := found id
  rw [if_pos rfl, known] at there
  rw [log_eq]
  refine Ends.bind ((Ends.ok_iff (execution_of_known there)).2 ?_)
  exact ends_told (f := (·.enter node)) vacant known (.enter arrival genuine) rfl rfl found

/-- Executions wait and come to their end in no other manner. -/
theorem manner_proceeds (e : Engine) : Manner e.Proceeds fun _ => True where
  alter outer := onward_modifyExecution _ outer.id (fun _ => .of_outer outer) outer.logs
  clock _ := onward_modify (fun _ => rfl) (fun _ => rfl) fun _ => rfl
  retire _ := onward_modify (fun _ => rfl) (fun _ => rfl) fun _ => rfl
  close := onward_modify (fun _ => rfl) (fun _ => rfl) fun _ => rfl
  note := onward_note
  bind _ := onward fun _ vacant => Ends.modify_iff.2 (.serve vacant
    (.of_bears rfl (.of_eq rfl (Nat.le_refl _) rfl)))
  say _ _ aside := onward_aside aside
  saveMarker _ _ _ reached _ _ _ := onward_errand (.saveMarker _ _ _ _) _ reached
  clearMarkers id := onward_errand (.clearMarkers id)
  setStatus _ _ _ _ := onward_errand (.setStatus _ _ _ _)

end Engine

end Runbook
