import Runbook.Proofs.Course.Bond
import Runbook.Proofs.Course.Echo
import Runbook.Proofs.Course.Lifecycle

/-!
What becomes of log entries is not heard of. Engines are abreast when nothing differs in them but the
stored log, the outages that hit it, and whether log entries are stored at all. Every operation ends
alike in engines that are abreast: an entry that cannot be stored is reported and lost, and nothing
looks at the stored log but its readers.
-/
namespace Runbook

open Storage (Echo)

/-- A tie between what became of the log entries of two engines, of which the first stores them or not
and the second, bears that the same entry is made in both. -/
def Storage.Echo.Hears (a b : Bool) (F : Echo → Echo → Prop) : Prop :=
  ∀ p q row p' q', F p q → p.Told a row p' → q.Told b row q' → F p' q'

/-- What the engine asks of the storage, besides creating executions and telling what they do, leaves
the log alone. -/
theorem Storage.Errand.near {α : Type} {x : StorageM α} {p q : Echo} (errand : Storage.Errand x) :
    Twins (Storage.Near p q) x x := by
  cases errand with
  | loadWorkflow => exact Storage.twins_loadWorkflow _
  | activeWorkflows => exact Storage.twins_activeWorkflows _
  | loadExecution => exact Storage.twins_loadExecution _
  | listMarkers => exact Storage.twins_listMarkers none
  | setStatus => exact Storage.twins_setExecutionStatus _ _ _ _
  | saveMarker => exact Storage.twins_saveMarker _ _ _ _
  | clearMarker => exact Storage.twins_clearMarker _
  | clearMarkers => exact Storage.twins_clearMarkers _
  | createTicket => exact Storage.twins_createTicket _
  | updateTicket => exact Storage.twins_updateTicket _ _
  | assignTicket => exact Storage.twins_assignTicket _ _
  | notify => exact Storage.twins_notify _
  | createArticle => exact Storage.twins_createArticle _

namespace Engine

/-- Engines that differ in nothing but what became of log entries, and that is tied together. -/
structure Abreast (a b : Bool) (F : Echo → Echo → Prop) (e d : Engine) : Prop where
  same : d = { e with storage := d.storage, storesLog := b }
  stores : e.storesLog = a
  matched : e.storage.Matched F d.storage

variable {α : Type} {a b : Bool} {F : Echo → Echo → Prop} {e d : Engine}

namespace Abreast

variable (abreast : e.Abreast a b F d)

include abreast

theorem executions : d.executions = e.executions := congrArg (·.executions) abreast.same

theorem live : d.live = e.live := congrArg (·.live) abreast.same

theorem clock : d.clock = e.clock := congrArg (·.clock) abreast.same

theorem accepting : d.accepting = e.accepting := congrArg (·.accepting) abreast.same

theorem loopLimit : d.loopLimit = e.loopLimit := congrArg (·.loopLimit) abreast.same

theorem registry : d.registry = e.registry := congrArg (·.registry) abreast.same

theorem network : d.network = e.network := congrArg (·.network) abreast.same

end Abreast

/-- An engine by which every entry is stored, beside itself. -/
theorem Abreast.alone (stores : e.storesLog = true) (faultless : e.storage.echo.faults = [])
    (tied : F e.storage.echo e.storage.echo) : e.Abreast true true F e := by
  have mild : e.storage.echo.Mild := fun o there => by
    rw [faultless] at there
    cases there
  exact ⟨by rw [← stores], stores, .refl _, ⟨mild, mild⟩, tied⟩

/-! The elementary operations. -/

theorem twins_lift {x : StorageM α} (twins : Twins (Storage.Matched F) x x) :
    Twins (Abreast a b F) (liftM x : Run α) (liftM x : Run α) := by
  intro e d abreast
  have met := twins e.storage d.storage abreast.matched
  have kept {s u : Storage} (matched : Storage.Matched F s u) :
      Abreast a b F { e with storage := s } { d with storage := u } :=
    ⟨congrArg (fun d : Engine => { d with storage := u }) abreast.same, abreast.stores, matched⟩
  change Meets _ _ (onStorage x e) (onStorage x d)
  unfold onStorage
  generalize x e.storage = r at met ⊢
  generalize x d.storage = r' at met ⊢
  cases met with
  | answer same matched => exact .answer same (kept matched)
  | failure matched => exact .failure (kept matched)

/-- An operation on the storage that leaves the log alone. -/
theorem twins_near {x : StorageM α} (each : ∀ p q, Twins (Storage.Near p q) x x) :
    Twins (Abreast a b F) (liftM x : Run α) (liftM x : Run α) := twins_lift (Storage.twins_matched each)

/-- Something else than the storage changes. -/
theorem Abreast.change {f : Engine → Engine}
    (apart : ∀ (e : Engine) s b, f { e with storage := s, storesLog := b } =
      { f e with storage := s, storesLog := b }) (abreast : e.Abreast a b F d) :
    (f e).Abreast a b F (f d) := by
  have left : f e = { f e with storage := e.storage, storesLog := e.storesLog } :=
    apart e e.storage e.storesLog
  have right : f d = { f e with storage := d.storage, storesLog := b } :=
    (congrArg f abreast.same).trans (apart e d.storage b)
  refine ⟨?_, (congrArg (·.storesLog) left).trans abreast.stores, ?_⟩
  · rw [right]
  · have storage : (f e).storage = e.storage := congrArg (·.storage) left
    have other : (f d).storage = d.storage := congrArg (·.storage) right
    rw [storage, other]
    exact abreast.matched

theorem twins_change {f : Engine → Engine}
    (apart : ∀ (e : Engine) s b, f { e with storage := s, storesLog := b } =
      { f e with storage := s, storesLog := b }) : Twins (Abreast a b F) (modify f) (modify f) :=
  .modify fun _ _ abreast => abreast.change apart

/-- A record of the process log that tells of no execution. -/
theorem twins_note {level : Level} {logger message : String} {context : Dict}
    (other : logger ≠ "deskflow.execution") :
    Twins (Abreast a b F) (note level logger message context) (note level logger message context) :=
  twins_near (x := modify fun s => { s with
    journal := s.journal.write level logger message context none }) fun _ _ =>
    Storage.twins_aside (fun _ => rfl) (fun _ => rfl) (fun _ => rfl)
      fun _ => Journal.spoken_write_of_ne _ _ _ _ _ other

/-! Log entries. -/

/-- An entry is told, and is stored or lost. -/
theorem ends_tell (mild : e.storage.echo.Mild) (id tenant : String) (workflow : Value) (entry : LogEntry) :
    Ends (tell id tenant workflow entry) e
      (fun _ t => t = { e with storage := t.storage } ∧ e.storage.Akin t.storage ∧
        e.storage.echo.Told e.storesLog ⟨id, tenant, entry⟩ t.storage.echo) never := by
  refine Ends.bind (Ends.modify_iff.2 (Ends.bind (Ends.get_iff.2 ?_)))
  let s : Storage := { e.storage with
    journal := e.storage.journal.write (processLevel entry.level) "deskflow.execution" entry.message
      [(.text "execution_id", .text id), (.text "workflow_id", workflow),
        (.text "tenant_id", .text tenant), (.text "node_id", .text entry.node)] none }
  have spoken : s.journal.spoken = e.storage.journal.spoken ++
      [Store.LogRow.spoken ⟨id, tenant, entry⟩] := Journal.spoken_write_entry ..
  have begun : e.storage.Akin s := ⟨rfl, rfl, rfl⟩
  have told (t : Storage) (worn : s.Worn t) (lost : e.storesLog = false ∨ s.echo.faults ≠ []) :
      e.storage.echo.Told e.storesLog ⟨id, tenant, entry⟩ t.echo :=
    ⟨worn.spoken.trans spoken, .inr ⟨lost, worn.rows⟩, worn.faultless, worn.mild⟩
  change Ends (if e.storesLog = true then _ else _) { e with storage := s } _ _
  cases stores : e.storesLog with
  | false => exact ⟨rfl, begun, stores ▸ told s (.refl s) (.inl stores)⟩
  | true =>
    refine ends_onStorageError.2 (ends_storage.2 ((Storage.ends_appendLog_worn (s := s) mild id tenant
      entry).imp ?_ ?_))
    · rintro _ t ⟨worn, tables⟩
      have akin : e.storage.Akin t :=
        ⟨by rw [tables]; rfl, worn.akin.next, worn.akin.outages⟩
      have rows : t.tables.logs = e.storage.tables.logs ++ [⟨id, tenant, entry⟩] := by
        rw [tables]
      exact ⟨rfl, akin, worn.spoken.trans spoken, .inl ⟨rfl, rows⟩, worn.faultless, worn.mild⟩
    · rintro f t ⟨worn, ⟨p, rfl, kind⟩, faults⟩
      refine ⟨fun q same isStorage => ?_, fun other => absurd kind (other p rfl)⟩
      have noted := worn.noted (t.journal.spoken_write_of_ne .error
        ("Failed to persist log entry for execution " ++ id ++ ": " ++ q.text) [] none
        (by decide : "deskflow.core.context" ≠ _))
      exact Ends.modify_iff.2 ⟨rfl, begun.trans noted.akin, stores ▸ told _ noted (.inr faults)⟩

theorem twins_tell (hears : Echo.Hears a b F) (id tenant : String) (workflow : Value)
    (entry : LogEntry) :
    Twins (Abreast a b F) (tell id tenant workflow entry) (tell id tenant workflow entry) := by
  refine .of_ends fun e d abreast => (ends_tell abreast.matched.mild.1 ..).imp ?_ fun _ _ h => h
  rintro _ t ⟨same, akin, told⟩
  refine (ends_tell abreast.matched.mild.2 ..).imp ?_ fun _ _ h => h
  rintro _ u ⟨same', akin', told'⟩
  have stores : d.storesLog = b := congrArg (·.storesLog) abreast.same
  refine ⟨rfl, ⟨?_, ?_, ?_⟩⟩
  · rw [same', same, abreast.same]
  · rw [same]; exact abreast.stores
  · rw [abreast.stores] at told
    rw [stores] at told'
    exact ⟨akin.symm.trans (abreast.matched.akin.trans akin'),
      ⟨told.mild abreast.matched.mild.1, told'.mild abreast.matched.mild.2⟩,
      hears _ _ _ _ _ abreast.matched.tied told told'⟩

theorem twins_errand {x : StorageM α} (errand : Storage.Errand x) :
    Twins (Abreast a b F) (liftM x : Run α) (liftM x : Run α) := twins_near fun _ _ => errand.near

/-- Engines that are abreast stay so, whatever their executions do. -/
theorem bond_abreast (hears : Echo.Hears a b F) : Bond (fun _ => True) (Abreast a b F) where
  executions := Abreast.executions
  live := Abreast.live
  clock := Abreast.clock
  accepting := Abreast.accepting
  loopLimit := Abreast.loopLimit
  registry := Abreast.registry
  network := Abreast.network
  starts _ _ _ := trivial
  change apart _ _ _ abreast := abreast.change apart
  bind fields _ d _ _ _ abreast := by
    refine ⟨?_, abreast.stores, ⟨?_, abreast.matched.mild, abreast.matched.tied⟩⟩
    · exact congrArg (fun v : Engine => { v with storage := { v.storage with
        journal := { v.storage.journal with bound := fields d.storage.journal.bound } } }) abreast.same
    · exact ⟨abreast.matched.akin.tables, abreast.matched.akin.next, abreast.matched.akin.outages⟩
  note := twins_note
  tell := twins_tell hears
  errand := twins_errand

theorem twins_create (workflow tenant data module item : Value) : Twins (Abreast a b F)
    (liftM (Storage.createExecution workflow tenant data module item) : Run String)
    (liftM (Storage.createExecution workflow tenant data module item) : Run String) :=
  twins_near fun _ _ => Storage.twins_createExecution _ _ _ _ _

theorem twins_statusOf (bond : Bond (fun _ => True) (Abreast a b F)) (id : String) :
    Twins (Abreast a b F) (statusOf id) (statusOf id) := by
  refine .bind .get fun e d abreast => ?_
  rw [bond.liveExecution? abreast]
  cases e.liveExecution? id with
  | some x => exact .pure rfl
  | none => exact .then_ (bond.errand (.loadExecution id)) fun _ => .pure rfl

theorem twins_notifyFields (fields : Dict) :
    Twins (Abreast a b F) (notifyFields fields) (notifyFields fields) := by
  refine .then_ (.ofExcept _) fun announcement => ?_
  cases Announcement.items? (Dict.getD fields "recipients") with
  | some recipients => exact twins_near fun _ _ => Storage.twins_notify _
  | none =>
    exact .then_ (twins_near fun _ _ => Storage.twins_openSession _ (by decide) (by decide) _)
      fun _ => .throw _

theorem twins_register (name : Value) (candidate : Action.Candidate) (description : Value) :
    Twins (Abreast a b F) (register name candidate description) (register name candidate description) := by
  refine .bind .get fun e d abreast => ?_
  rw [abreast.registry]
  exact .then_ (twins_change fun _ _ _ => rfl) fun _ => .ofExcept _

theorem twins_outage {o : Store.Outage} (other : o.hitsLog = false) :
    Twins (Abreast a b F)
      (modify fun e => { e with storage := { e.storage with outages := o.plan e.storage.outages } })
      (modify fun e => { e with storage := { e.storage with outages := o.plan e.storage.outages } }) := by
  refine .modify fun e d abreast => ?_
  have near := Storage.Near.plan ⟨abreast.matched.akin, rfl, rfl⟩ other
  refine ⟨?_, abreast.stores, near.akin, ?_, ?_⟩
  · exact congrArg (fun t : Engine => { t with storage := { d.storage with
      outages := o.plan d.storage.outages } }) abreast.same
  · rw [near.left, near.right]
    exact abreast.matched.mild
  · rw [near.left, near.right]
    exact abreast.matched.tied

/-! Every operation. -/

end Engine

/-- It is about the stored log: it reads it, or stores an entry that no execution has made. -/
def Operation.isOnLog : Operation → Bool
  | .appendLog _ _ _ | .listLogs _ | .logs _ => true
  | _ => false

/-- It plans no further outage of the storing of log entries. -/
def Operation.sparesLog : Operation → Bool
  | .outage o => !o.hitsLog
  | _ => true

/-- What an operation does to stored log entries, other than storing what executions say, bears a
tie. -/
def Operation.Bears (F : Echo → Echo → Prop) : Operation → Prop
  | .delete _ => ∀ p q wanted, F p q → F (p.keep wanted) (q.keep wanted)
  | .appendLog _ _ _ => ∀ p q, F p q
  | .outage o => o.hitsLog = false
  | _ => True

theorem Operation.bears_outage {F : Echo → Echo → Prop} {o : Store.Outage}
    (spares : (Operation.outage o).sparesLog = true) : (Operation.outage o).Bears F :=
  show o.hitsLog = false from by simpa [Operation.sparesLog] using spares

/-- However two runs from related states end, they end in related states. -/
def Lands {σ α β : Type} (R : σ → σ → Prop) (x : EStateM Failure σ α) (y : EStateM Failure σ β) : Prop :=
  ∀ e d, R e d → Ends x e (fun _ t => Ends y d (fun _ u => R t u) fun _ u => R t u)
    fun _ t => Ends y d (fun _ u => R t u) fun _ u => R t u

namespace Lands

variable {σ α β γ δ : Type} {R : σ → σ → Prop}

theorem of_leads {x : EStateM Failure σ α} {y : EStateM Failure σ β} {same : α → β → Prop}
    (leads : Twin R x y same) : Lands R x y := by
  intro e d related
  have met := leads e d related
  generalize left : x e = r at met
  generalize right : y d = q at met
  cases met with
  | answer _ related => exact (Ends.ok_iff left).2 ((Ends.ok_iff right).2 related)
  | failure related => exact (Ends.error_iff left).2 ((Ends.error_iff right).2 related)

theorem then_ {x y : EStateM Failure σ α} {k : α → EStateM Failure σ γ} {l : α → EStateM Failure σ δ}
    (first : Twins R x y) (next : ∀ a, Lands R (k a) (l a)) : Lands R (x >>= k) (y >>= l) := by
  intro e d related
  have met := first e d related
  refine Ends.bind ?_
  generalize left : x e = r at met
  generalize right : y d = q at met
  cases met with
  | @answer a b t u same related =>
    subst same
    exact (Ends.ok_iff left).2 ((next a t u related).imp
      (fun _ _ known => Ends.bind ((Ends.ok_iff right).2 known))
      fun _ _ known => Ends.bind ((Ends.ok_iff right).2 known))
  | failure related =>
    exact (Ends.error_iff left).2 (Ends.bind ((Ends.error_iff right).2 related))

/-- What is answered in the end makes no difference. -/
theorem answering {x : EStateM Failure σ α} {y : EStateM Failure σ β} {f : α → γ} {g : β → δ}
    (lands : Lands R x y) :
    Lands R (x >>= fun a => pure (f a)) (y >>= fun b => pure (g b)) := by
  intro e d related
  refine Ends.bind ((lands e d related).imp ?_ ?_)
  · intro a t known
    exact Ends.bind (known.imp (fun _ _ h => h) fun _ _ h => h)
  · intro f t known
    exact Ends.bind (known.imp (fun _ _ h => h) fun _ _ h => h)

/-- Two runs each of which is known to leave a state that is as good. -/
theorem of_kept {x : EStateM Failure σ α} {y : EStateM Failure σ β} {S S' : σ → σ → Prop}
    (left : ∀ e d, R e d → Ends x e (fun _ t => S e t) fun _ t => S e t)
    (right : ∀ e d, R e d → Ends y d (fun _ u => S' d u) fun _ u => S' d u)
    (both : ∀ e d t u, R e d → S e t → S' d u → R t u) : Lands R x y := by
  intro e d related
  have after (t : σ) (known : S e t) : Ends y d (fun _ u => R t u) fun _ u => R t u :=
    (right e d related).imp (fun _ u h => both e d t u related known h)
      fun _ u h => both e d t u related known h
  exact (left e d related).imp (fun _ t h => after t h) fun _ t h => after t h

end Lands

namespace Engine

variable {α : Type} {a b : Bool} {F : Echo → Echo → Prop} {e d : Engine}

theorem twins_carryOut (hears : Echo.Hears a b F) (op : Operation) (bears : op.Bears F)
    (apart : op.isOnLog = false) : Twins (Abreast a b F) (carryOut op) (carryOut op) := by
  have bond := bond_abreast hears
  cases op with
  | save definition =>
    exact .then_ (.ofExcept _) fun w => .then_ (twins_near fun _ _ => Storage.twins_saveWorkflow w)
      fun _ => .pure rfl
  | saveRaw row => exact twins_near fun _ _ => Storage.twins_saveRaw row
  | load id => exact .then_ (twins_near fun _ _ => Storage.twins_loadWorkflow id) fun _ => .pure rfl
  | update id definition =>
    exact .then_ (.ofExcept _) fun w => twins_near fun _ _ => Storage.twins_updateWorkflow id w
  | delete id =>
    exact .then_ (twins_lift (Storage.twins_deleteWorkflow bears id)) fun _ => .pure rfl
  | clone id name =>
    exact .then_ (twins_near fun _ _ => Storage.twins_cloneWorkflow id name) fun _ => .pure rfl
  | «exists» id => exact .then_ (twins_near fun _ _ => Storage.twins_workflowExists id) fun _ => .pure rfl
  | activeWorkflows module =>
    exact .then_ (twins_near fun _ _ => Storage.twins_activeWorkflows module) fun _ => .pure rfl
  | listWorkflows module tenant =>
    exact .then_ (twins_near fun _ _ => Storage.twins_listWorkflows module tenant) fun _ => .pure rfl
  | setStatus id status =>
    exact .then_ (twins_near fun _ _ => Storage.twins_setWorkflowStatus id status) fun _ => .pure rfl
  | createExecution workflow tenant module triggerData item =>
    exact .then_ (twins_near fun _ _ => Storage.twins_createExecution _ _ _ _ _) fun _ => .pure rfl
  | loadExecution id =>
    exact .then_ (twins_near fun _ _ => Storage.twins_loadExecution id) fun _ => .pure rfl
  | listExecutions workflow limit offset =>
    exact .then_ (twins_near fun _ _ => Storage.twins_listExecutions workflow limit offset)
      fun _ => .pure rfl
  | setExecutionStatus id status error time =>
    exact .then_ (twins_near fun _ _ => Storage.twins_setExecutionStatus id status error time)
      fun _ => .pure rfl
  | saveMarker id node resumeAt context =>
    exact .then_ (twins_near fun _ _ => Storage.twins_saveMarker id node resumeAt context)
      fun _ => .pure rfl
  | clearMarker id =>
    exact .then_ (twins_near fun _ _ => Storage.twins_clearMarker id) fun _ => .pure rfl
  | clearMarkers id =>
    exact .then_ (twins_near fun _ _ => Storage.twins_clearMarkers id) fun _ => .pure rfl
  | listMarkers id =>
    exact .then_ (twins_near fun _ _ => Storage.twins_listMarkers id) fun _ => .pure rfl
  | createTicket fields =>
    exact .then_ (.ofExcept _) fun t => .then_ (twins_near fun _ _ => Storage.twins_createTicket t)
      fun _ => .pure rfl
  | findTicket id => exact twins_near fun _ _ => Storage.twins_findTicket id
  | updateTicket id updates =>
    exact .then_ (twins_near fun _ _ => Storage.twins_updateTicket id updates) fun _ => .pure rfl
  | assignTicket id assignee =>
    exact .then_ (twins_near fun _ _ => Storage.twins_assignTicket id assignee) fun _ => .pure rfl
  | notify fields => exact .then_ (twins_notifyFields fields) fun _ => .pure rfl
  | createArticle fields =>
    exact .then_ (.ofExcept _) fun t => .then_ (twins_near fun _ _ => Storage.twins_createArticle t)
      fun _ => .pure rfl
  | register name candidate description =>
    exact .then_ (twins_register name candidate description) fun _ => .pure rfl
  | actionTypes =>
    refine .bind .get fun e d abreast => ?_
    rw [abreast.registry]
    exact .pure rfl
  | dispatch execution actionType config =>
    exact bond.dispatch (fun w _ => bond.launch twins_create w) execution actionType config
  | execute workflow payload module item =>
    exact .then_ (bond.execute twins_create workflow payload module item) fun _ => .pure rfl
  | trigger module event payload item =>
    exact .then_ (bond.trigger twins_create module event payload item) fun _ => .pure rfl
  | cancel id => exact .then_ (bond.cancel id) fun _ => .pure rfl
  | cancelAll workflow => exact .then_ (bond.cancelAll workflow) fun _ => .pure rfl
  | status id => exact .then_ (twins_statusOf bond id) fun _ => .pure rfl
  | active =>
    refine .bind .get fun e d abreast => .pure ?_
    rw [bond.activeIds abreast]
  | advance seconds => exact .then_ (bond.advance twins_create seconds) fun _ => .pure rfl
  | restart now => exact .then_ (bond.restart now) fun _ => .pure rfl
  | resume => exact .then_ bond.resume fun _ => .pure rfl
  | shutdown => exact .then_ bond.shutdown fun _ => .pure rfl
  | outage o =>
    exact .then_ (twins_outage bears) fun _ => .pure rfl
  | appendLog id tenant entry => cases apart
  | listLogs id => cases apart
  | logs id => cases apart

/-- An entry that is stored by hand is kept or lost, and nothing else becomes of it. -/
theorem lands_appendLog (free : ∀ p q, F p q) (id : String) (tenant : Value) (entry : LogEntry) :
    Lands (Abreast a b F) (liftM (Storage.appendLog id tenant entry) : Run Unit)
      (liftM (Storage.appendLog id tenant entry) : Run Unit) := by
  let S (e t : Engine) : Prop :=
    t = { e with storage := t.storage } ∧ e.storage.Akin t.storage ∧ t.storage.echo.Mild
  have done (e : Engine) (mild : e.storage.echo.Mild) :
      Ends (liftM (Storage.appendLog id tenant entry) : Run Unit) e (fun _ t => S e t)
        fun _ t => S e t :=
    ends_storage.2 ((Storage.ends_appendLog_akin mild id tenant entry).imp
      (fun _ _ h => ⟨rfl, h⟩) fun _ _ h => ⟨rfl, h⟩)
  refine .of_kept (fun e _ abreast => done e abreast.matched.mild.1)
    (fun _ d abreast => done d abreast.matched.mild.2) ?_
  rintro e d t u abreast ⟨left, akin, mild⟩ ⟨right, akin', mild'⟩
  refine ⟨?_, ?_, akin.symm.trans (abreast.matched.akin.trans akin'), ⟨mild, mild'⟩, free _ _⟩
  · rw [right, left, abreast.same]
  · rw [left]; exact abreast.stores

/-- Nothing but sessions on the log is used up. -/
structure Browsed (e t : Engine) : Prop where
  same : t = { e with storage := t.storage }
  akin : e.storage.Akin t.storage
  echo : t.storage.echo = e.storage.echo

theorem Browsed.refl (e : Engine) : e.Browsed e := ⟨rfl, .refl _, rfl⟩

theorem ends_listLogs_browsed (e : Engine) (id : String) :
    Ends (liftM (Storage.listLogs id) : Run (List LogEntry)) e (fun _ t => e.Browsed t)
      fun _ t => e.Browsed t :=
  ends_storage.2 ((Storage.ends_listLogs id).imp (fun _ _ h => ⟨rfl, h.1, h.2⟩)
    fun _ _ h => ⟨rfl, h.1, h.2⟩)

/-- The readers of the stored log change nothing that is heard of. -/
theorem lands_browsed {x y : Run α} (left : ∀ e, Ends x e (fun _ t => e.Browsed t) fun _ t => e.Browsed t)
    (right : ∀ e, Ends y e (fun _ t => e.Browsed t) fun _ t => e.Browsed t) : Lands (Abreast a b F) x y := by
  refine .of_kept (fun e _ _ => left e) (fun _ d _ => right d) ?_
  rintro e d t u abreast ⟨same, akin, echo⟩ ⟨same', akin', echo'⟩
  refine ⟨?_, ?_, akin.symm.trans (abreast.matched.akin.trans akin'), ?_, ?_⟩
  · rw [same', same, abreast.same]
  · rw [same]; exact abreast.stores
  · rw [echo, echo']; exact abreast.matched.mild
  · rw [echo, echo']; exact abreast.matched.tied

theorem lands_carryOut (hears : Echo.Hears a b F) (op : Operation) (bears : op.Bears F) :
    Lands (Abreast a b F) (carryOut op) (carryOut op) := by
  cases apart : op.isOnLog with
  | false => exact .of_leads (twins_carryOut hears op bears apart)
  | true =>
    cases op with
    | appendLog id tenant entry =>
      exact .then_ (.ofExcept _) fun read => (lands_appendLog bears id tenant read).answering
    | listLogs id => exact (lands_browsed (ends_listLogs_browsed · id) (ends_listLogs_browsed · id)).answering
    | logs id =>
      refine Lands.answering (.then_ (twins_near fun _ _ => Storage.twins_loadExecution id) fun _ => ?_)
      have read (e : Engine) : Ends (do
          let e ← get
          if e.storesLog then Storage.listLogs id
          else return ((e.liveExecution? id).map (·.logs)).getD [] : Run (List LogEntry)) e
          (fun _ t => e.Browsed t) fun _ t => e.Browsed t := by
        refine Ends.bind (Ends.get_iff.2 ?_)
        cases e.storesLog with
        | true => exact ends_listLogs_browsed e id
        | false => exact Ends.pure_iff.2 (.refl e)
      exact lands_browsed read read
    | _ => cases apart

theorem Abreast.after (hears : Echo.Hears a b F) {op : Operation} (bears : op.Bears F)
    (abreast : e.Abreast a b F d) : (e.after op).Abreast a b F (d.after op) := by
  have lands := lands_carryOut hears op bears e d abreast
  unfold Ends at lands
  unfold Engine.after
  cases left : carryOut op e <;> cases right : carryOut op d <;> rw [left, right] at lands <;>
    exact lands

theorem Abreast.afterAll (hears : Echo.Hears a b F) {ops : List Operation}
    (bear : ∀ op ∈ ops, op.Bears F) (abreast : e.Abreast a b F d) :
    (e.afterAll ops).Abreast a b F (d.afterAll ops) := by
  induction ops generalizing e d with
  | nil => exact abreast
  | cons op rest ih =>
    exact ih (fun op later => bear op (.tail _ later)) (abreast.after hears (bear op (.head _)))

end Engine

namespace Storage.Echo

theorem hears_any (a b : Bool) : Hears a b fun _ _ => True := fun _ _ _ _ _ _ _ _ => trivial

/-- The entries that are stored have been told, in this order, each as often as it was told at most. -/
theorem hears_told (a b : Bool) : Hears a b fun p _ => List.Sublist (p.rows.map (·.spoken)) p.spoken := by
  intro p _ row p' _ told left _
  rw [left.spoken]
  obtain ⟨-, rows⟩ | ⟨-, rows⟩ := left.rows
  · rw [rows, List.map_append]
    exact told.append (.refl _)
  · rw [rows]
    exact told.trans (List.sublist_append_left _ _)

/-- Where no entry gets lost, all the entries are stored that are stored where some do. -/
theorem hears_whole (a : Bool) :
    Hears a true fun p q => q.faults = [] ∧ List.Sublist p.rows q.rows := by
  rintro p q row p' q' ⟨none, whole⟩ left right
  refine ⟨right.faultless none, ?_⟩
  obtain ⟨-, rows'⟩ | ⟨impossible | some, -⟩ := right.rows
  · rw [rows']
    obtain ⟨-, rows⟩ | ⟨-, rows⟩ := left.rows
    · rw [rows]
      exact whole.append (.refl _)
    · rw [rows]
      exact whole.trans (List.sublist_append_left _ _)
  · cases impossible
  · exact absurd none some

/-- Where no entry gets lost, just what is told is stored. -/
theorem hears_all : Hears true true fun p _ => p.faults = [] ∧ p.rows.map (·.spoken) = p.spoken := by
  rintro p _ row p' _ ⟨none, all⟩ left _
  refine ⟨left.faultless none, ?_⟩
  obtain ⟨-, rows⟩ | ⟨impossible | some, -⟩ := left.rows
  · rw [rows, left.spoken, List.map_append, all]
    rfl
  · cases impossible
  · exact absurd none some

end Storage.Echo

namespace Engine

/-- The entries of an execution in the stored log. -/
def storedLog (e : Engine) (id : String) : List Store.LogRow :=
  e.storage.tables.logs.filter (·.execution == id)

/-- What an operation answers. -/
def answer (e : Engine) (op : Operation) : Except Failure Value :=
  match carryOut op e with
  | .ok v _ => .ok v
  | .error f _ => .error f

/-- Engines that differ in nothing but what is done about log entries: whether they are stored, by
which outages, all of them storage errors, they get lost, and which ones have been stored. -/
structure EqualButLog (e d : Engine) : Prop where
  same : d = { e with storage := d.storage, storesLog := d.storesLog }
  akin : e.storage.Akin d.storage
  mild : e.storage.echo.Mild ∧ d.storage.echo.Mild

theorem Abreast.answer {a b : Bool} {F : Echo → Echo → Prop} {e d : Engine} (hears : Echo.Hears a b F)
    {op : Operation} (bears : op.Bears F) (apart : op.isOnLog = false)
    (abreast : e.Abreast a b F d) : d.answer op = e.answer op := by
  have met := twins_carryOut hears op bears apart e d abreast
  unfold Engine.answer
  generalize carryOut op e = r at met ⊢
  generalize carryOut op d = q at met ⊢
  cases met with
  | answer same _ => rw [same]
  | failure _ => rfl

namespace EqualButLog

variable {e d : Engine}

theorem abreast (equal : e.EqualButLog d) {F : Echo → Echo → Prop}
    (tied : F e.storage.echo d.storage.echo) : e.Abreast e.storesLog d.storesLog F d :=
  ⟨equal.same, rfl, equal.akin, equal.mild, tied⟩

/-- What becomes of log entries makes no difference to anything else: whether they are stored or not,
and whichever sessions that store them are refused, at each point of any sequence of operations every
execution is the same in memory, the same timers are set and the same executions live, the same has
been sent, all tables but the stored log are the same, and every operation that is not about the stored
log answers the same. The entries of an execution that are stored are among those it made, in the same
order and each of them once; where no entry gets lost, all of them are stored that are stored where
some do. -/
theorem log_unheard (equal : e.EqualButLog d) (ops : List Operation)
    (spare : ∀ op ∈ ops, op.sparesLog = true) :
    let t := e.afterAll ops
    let u := d.afterAll ops
    (u.executions = t.executions ∧ u.live = t.live ∧ u.clock = t.clock ∧ u.network = t.network ∧
      u.storage.tables.sansLogs = t.storage.tables.sansLogs) ∧
    (∀ op : Operation, op.sparesLog = true → op.isOnLog = false → u.answer op = t.answer op) ∧
    (e.storage.tables.logs = [] → (∀ id tenant entry, .appendLog id tenant entry ∉ ops) → ∀ id,
      List.Sublist ((t.storedLog id).map (·.spoken)) (t.wordsOf id) ∧
      (d.storesLog = true → d.storage.echo.faults = [] →
        List.Sublist (t.storedLog id) (u.storedLog id))) := by
  intro t u
  have hears := Echo.hears_any e.storesLog d.storesLog
  have any {op : Operation} (spares : op.sparesLog = true) : op.Bears fun _ _ => True := by
    cases op with
    | delete => exact fun _ _ _ _ => trivial
    | appendLog => exact fun _ _ => trivial
    | outage o => exact Operation.bears_outage spares
    | _ => trivial
  have abreast : t.Abreast _ _ _ u :=
    (equal.abreast trivial).afterAll hears fun op there => any (spare op there)
  refine ⟨⟨abreast.executions, abreast.live, abreast.clock, abreast.network,
    abreast.matched.akin.tables⟩, fun op spares apart => abreast.answer hears (any spares) apart,
    fun empty noneByHand id => ?_⟩
  have bear {F : Echo → Echo → Prop} (keep : ∀ p q wanted, F p q → F (p.keep wanted) (q.keep wanted)) :
      ∀ op ∈ ops, op.Bears F := by
    intro op there
    cases op with
    | delete => exact keep
    | appendLog i tenant entry => exact absurd there (noneByHand i tenant entry)
    | outage o => exact Operation.bears_outage (spare _ there)
    | _ => trivial
  have none (l : List Store.LogRow) : List.Sublist e.storage.echo.rows l := by
    change List.Sublist e.storage.tables.logs l
    rw [empty]
    exact List.nil_sublist _
  refine ⟨?_, fun stores faultless => ?_⟩
  · have begun : List.Sublist (e.storage.echo.rows.map (·.spoken)) e.storage.echo.spoken :=
      ((none []).map _).trans (List.nil_sublist _)
    have told := ((equal.abreast begun).afterAll (Echo.hears_told _ _)
      (bear fun _ _ _ told => (List.filter_sublist.map _).trans told)).matched.tied
    have own := told.filter (·.execution == id)
    rw [List.filter_map] at own
    exact own
  · have begun := stores ▸ equal.abreast (F := fun p q => q.faults = [] ∧ List.Sublist p.rows q.rows)
      ⟨faultless, none d.storage.echo.rows⟩
    have whole := (begun.afterAll (Echo.hears_whole _)
      (bear fun _ _ wanted ⟨faultless, whole⟩ => ⟨faultless, whole.filter wanted⟩)).matched.tied
    exact whole.2.filter _

end EqualButLog

/-- An engine that stores no log entries. -/
def mute : Engine := { bare with storesLog := false }

/-- An engine that loses every second log entry or so, though each is tried three times. -/
def lossy : Engine := { bare with storage := { bare.storage with
  outages := [⟨"append execution log", 1, 3, .storage, [(2, 4), (0, 3)]⟩] } }

theorem equalButLog_lossy {d : Engine} (other : d = bare ∨ d = mute) : lossy.EqualButLog d := by
  have mild : lossy.storage.echo.Mild ∧ bare.storage.echo.Mild := by
    unfold Echo.Mild
    decide
  rcases other with rfl | rfl
  · exact ⟨rfl, ⟨rfl, rfl, by decide⟩, mild⟩
  · exact ⟨rfl, ⟨rfl, rfl, by decide⟩, mild⟩

set_option maxRecDepth 100000 in
theorem log_unheard_resumedPair :
    (mute.afterAll resumedPair).executions = (lossy.afterAll resumedPair).executions ∧
    (bare.afterAll resumedPair).answer (.advance 5.0) = (lossy.afterAll resumedPair).answer (.advance 5.0) ∧
    ((lossy.afterAll resumedPair).wordsOf "id-1").length = 9 ∧
    ((lossy.afterAll resumedPair).storedLog "id-1").length = 6 ∧
    List.Sublist ((lossy.afterAll resumedPair).storedLog "id-1")
      ((bare.afterAll resumedPair).storedLog "id-1") := by
  have spare : ∀ op ∈ resumedPair, op.sparesLog = true := by
    simp [resumedPair, Operation.sparesLog]
  have noneByHand (id tenant entry) : Operation.appendLog id tenant entry ∉ resumedPair := by
    simp [resumedPair]
  obtain ⟨⟨executions, -⟩, -⟩ := (equalButLog_lossy (.inr rfl)).log_unheard resumedPair spare
  obtain ⟨-, answers, stored⟩ := (equalButLog_lossy (.inl rfl)).log_unheard resumedPair spare
  refine ⟨executions, answers _ rfl rfl, by decide +kernel, by decide +kernel, ?_⟩
  exact (stored rfl noneByHand "id-1").2 rfl rfl

end Engine

end Runbook
