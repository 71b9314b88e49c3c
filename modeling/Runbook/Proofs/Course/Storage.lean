import Runbook.Proofs.Course.Work
import Runbook.Proofs.Outcome

/-!
What the operations of the storage do to the part of it that is followed, while no session is
refused. An operation is quiet when it takes new ids at most.
-/
namespace Runbook

/-- A look-up by a key after the items under one key were changed. -/
theorem find?_map_where {α : Type} (key : α → String) {f : α → α} (keeps : ∀ a, key (f a) = key a)
    (items : List α) (id k : String) :
    (items.map fun a => if key a == id then f a else a).find? (fun a => key a == k) =
      if k = id then (items.find? fun a => key a == k).map f
      else items.find? fun a => key a == k := by
  induction items with
  | nil => simp
  | cons a rest ih =>
    rw [List.map_cons, List.find?_cons, List.find?_cons, ih]
    have same : key (if key a == id then f a else a) = key a := by
      split
      · exact keeps a
      · rfl
    rw [same]
    by_cases wanted : key a = k
    · subst wanted
      by_cases changed : key a = id <;> simp [changed]
    · have other : (key a == k) = false := by simpa using wanted
      simp only [other]

namespace Store

theorem execution?_updateExecution {f : ExecutionRow → ExecutionRow} (keeps : ∀ r, (f r).id = r.id)
    (s : Store) (id k : String) :
    (s.updateExecution id f).execution? k =
      if k = id then (s.execution? k).map f else s.execution? k :=
  find?_map_where ExecutionRow.id keeps s.executions id k

theorem ExecutionRow.opens_of_opening {id : String} {workflow tenant triggerData module item : Value}
    {row : ExecutionRow}
    (opening : ExecutionRow.opening id workflow tenant triggerData module item = .ok row) :
    row.Opens id := by
  unfold ExecutionRow.opening at opening
  obtain ⟨_, -, opening⟩ := bind_eq_ok opening
  obtain ⟨_, -, opening⟩ := bind_eq_ok opening
  obtain ⟨_, -, opening⟩ := bind_eq_ok opening
  obtain ⟨_, -, opening⟩ := bind_eq_ok opening
  obtain ⟨_, -, opening⟩ := bind_eq_ok opening
  obtain ⟨_, -, opening⟩ := bind_eq_ok opening
  obtain ⟨_, -, opening⟩ := bind_eq_ok opening
  cases opening
  exact ⟨rfl, rfl, rfl, rfl⟩

/-- Nothing but the id of a new row hangs on the id. -/
theorem ExecutionRow.opening_rename (id k : String) (workflow tenant triggerData module item : Value) :
    ExecutionRow.opening id workflow tenant triggerData module item =
      (ExecutionRow.opening k workflow tenant triggerData module item).map fun r => { r with id } := by
  unfold ExecutionRow.opening
  cases textCell workflow with
  | error r => rfl
  | ok w => cases textCell tenant with
    | error r => rfl
    | ok t => cases textCell module with
      | error r => rfl
      | ok m => cases textCell item with
        | error r => rfl
        | ok i => cases w <;> cases t <;> cases m <;> rfl

end Store

namespace Journal

/-- Records of other loggers say nothing about executions. -/
theorem spoken_write_of_ne (j : Journal) (level : Level) {logger : String} (message : String)
    (context : Dict) (incident : Option Incident) (other : logger ≠ "deskflow.execution") :
    (j.write level logger message context incident).spoken = j.spoken := by
  simp [spoken, write, Spoken.ofRecord?, other]

/-- The record of a log entry. -/
theorem spoken_write_entry (j : Journal) (level : Level) (message id node : String)
    (workflow tenant : Value) :
    (j.write level "deskflow.execution" message [(.text "execution_id", .text id),
      (.text "workflow_id", workflow), (.text "tenant_id", tenant), (.text "node_id", .text node)]
      none).spoken = j.spoken ++ [⟨id, level, message, node⟩] := by
  have execution : Dict.get? (Dict.set (Dict.set (Dict.set (Dict.set j.bound "execution_id"
      (.text id)) "workflow_id" workflow) "tenant_id" tenant) "node_id" (.text node))
      "execution_id" = some (.text id) := by
    rw [Dict.get?_set_of_ne _ _ (by decide), Dict.get?_set_of_ne _ _ (by decide),
      Dict.get?_set_of_ne _ _ (by decide), Dict.get?_set_self]
  have place := Dict.get?_set_self (Dict.set (Dict.set (Dict.set j.bound "execution_id"
      (.text id)) "workflow_id" workflow) "tenant_id" tenant) "node_id" (.text node)
  simp only [Dict.set] at execution place
  simp [spoken, write, Spoken.ofRecord?, Dict.merge, execution, place]

end Journal

namespace Storage

variable {α : Type} {s : Storage}

theorem outages_of_part (steady : s.part.faulty = false) : s.outages = [] := by
  simpa [part] using steady

theorem ends_openSession (steady : s.part.faulty = false) (operation table : String) :
    Ends (openSession operation table) s (fun _ t => t = s) never := by
  have none := outages_of_part steady
  refine Ends.bind (Ends.get_iff.2 ?_)
  refine Ends.bind (Ends.modify_iff.2 ?_)
  simp only [none, Store.Outage.strike]
  refine Ends.pure_iff.2 ?_
  cases s
  simp_all

/-- A session whose work succeeds puts its tables in place. -/
theorem ends_session {work : Store → Except Store.Refusal (α × Store)} {a : α} {t : Store}
    (steady : s.part.faulty = false) (operation table : String)
    (done : work s.tables = .ok (a, t)) :
    Ends (session operation table work) s (fun b u => b = a ∧ u = { s with tables := t }) never := by
  refine Ends.bind ((ends_openSession steady operation table).imp ?_ fun _ _ h => h)
  rintro _ _ rfl
  refine Ends.bind (Ends.get_iff.2 ?_)
  simp only [done]
  exact Ends.bind (Ends.modify_iff.2 (Ends.pure_iff.2 ⟨rfl, rfl⟩))

/-- What succeeds at once is not tried again. -/
theorem ends_retrying {call : StorageM α} {good : α → Storage → Prop} (name : String)
    (known : Ends call s good never) : Ends (retrying name call) s good never := by
  refine Ends.tryCatch_iff.2 (known.imp (fun _ _ h => h) ?_)
  intro _ _ impossible
  exact impossible.elim

/-- A note of a part of the storage says nothing about executions. -/
theorem ends_note {level : Level} {logger message : String} (other : logger ≠ "deskflow.execution") :
    Ends (note level logger message) s (fun _ t => t.part = s.part) never := by
  refine Ends.modify_iff.2 ?_
  simp [part, Journal.spoken_write_of_ne _ _ _ _ _ other]

/-- A session that only reads answers what it has read. -/
theorem ends_query (steady : s.part.faulty = false) (operation table : String)
    (read : Store → Except Store.Refusal α) :
    Ends (query operation table read) s (fun a t => read s.tables = .ok a ∧ t.part = s.part)
      (fun f t => (read s.tables = .error .rejected ∨ read s.tables = .error (.raised f)) ∧
        t.part = s.part) := by
  unfold query session transact
  refine Ends.bind ((ends_openSession steady operation table).imp ?_ fun _ _ h => h.elim)
  rintro _ t rfl
  rw [Ends.bind_iff, Ends.get_iff]
  dsimp only
  cases read t.tables with
  | ok a => exact ⟨rfl, rfl⟩
  | error r =>
    cases r with
    | rejected =>
      have noted : Ends (note .error logger ("Database error during " ++ operation)) t _ _ :=
        ends_note (by decide)
      exact Ends.bind (noted.imp (fun _ _ same => Ends.throw_iff.2 ⟨.inl rfl, same⟩)
        fun _ _ h => h.elim)
    | raised f => exact ⟨.inr rfl, rfl⟩

theorem ends_appendLog (steady : s.part.faulty = false) (execution tenant : String)
    (entry : LogEntry) :
    Ends (appendLog execution (.text tenant) entry) s (fun _ t => t.part = s.part) never := by
  refine ends_retrying _ ((ends_session steady _ _ (by rfl)).imp ?_ fun _ _ h => h)
  rintro _ _ ⟨-, rfl⟩
  rfl

theorem ends_clearMarkers (steady : s.part.faulty = false) (id : String) :
    Ends (clearMarkers id) s
      (fun _ t => t.part = s.part.keep (·.execution != id)) never := by
  refine (ends_session steady _ _ (by rfl)).imp ?_ fun _ _ h => h
  rintro _ _ ⟨-, rfl⟩
  rfl

theorem ends_clearMarker (steady : s.part.faulty = false) (id : Nat) :
    Ends (clearMarker id) s
      (fun _ t => Store.fits id = true ∧
        t.part = s.part.keep fun m => (m.id : Int) != id)
      (fun f t => Store.fits id = false ∧ Store.tooLarge = .raised f ∧ t.part = s.part) := by
  unfold clearMarker session transact
  refine Ends.bind ((ends_openSession steady _ _).imp ?_ fun _ _ h => h.elim)
  rintro _ _ rfl
  rw [Ends.bind_iff, Ends.get_iff]
  cases fits : Store.fits (id : Int) with
  | true => exact Ends.bind (Ends.modify_iff.2 (Ends.pure_iff.2 ⟨rfl, rfl⟩))
  | false => exact Ends.throw_iff.2 ⟨rfl, rfl, rfl⟩

theorem ends_saveMarker (steady : s.part.faulty = false) (execution node : String)
    (resumeAt : Instant) (context : Value) :
    Ends (saveMarker execution node resumeAt context) s
      (fun m t => m = s.part.nextMarker ∧
        t.part = { s.part with
          markers := s.part.markers ++ [⟨m, execution, node, resumeAt, context.stored⟩] })
      never := by
  refine ends_retrying _ ((ends_session steady _ _ (by rfl)).imp ?_ fun _ _ h => h)
  rintro _ _ ⟨rfl, rfl⟩
  exact ⟨rfl, rfl⟩

theorem retryLogger_ne (component : String) : "deskflow.retry." ++ component ≠ "deskflow.execution" := by
  intro same
  have letters := congrArg (fun s => s.toList[9]?) same
  simp at letters

/-- The waits after the first and the second attempt can be computed. -/
theorem isOk_delay :
    ((writePolicy.delay 0.0 1).isOk && (writePolicy.delay 0.0 2).isOk) = true := by
  decide +kernel

/-- Waiting for another attempt changes nothing that is followed. -/
theorem ends_awaitRetry (name : String) {attempt : Nat} (early : attempt = 1 ∨ attempt = 2)
    (f : Failure) :
    Ends (awaitRetry name attempt f) s
      (fun _ t => t.part = s.part ∧ t.tables = s.tables ∧ t.outages = s.outages) never := by
  have reported : ∀ j : Journal,
      (Retry.reportFailed j name name attempt writePolicy.maxAttempts f).spoken = j.spoken :=
    fun j => Journal.spoken_write_of_ne _ _ _ _ _ (retryLogger_ne name)
  have waits : (writePolicy.delay 0.0 attempt).isOk = true := by
    obtain ⟨first, second⟩ := Bool.and_eq_true_iff.1 isOk_delay
    rcases early with rfl | rfl
    · exact first
    · exact second
  refine Ends.bind (Ends.modify_iff.2 ?_)
  cases length : writePolicy.delay 0.0 attempt with
  | ok d => exact Ends.modify_iff.2 ⟨by simp [part, reported], rfl, rfl⟩
  | error g => rw [length] at waits; cases waits

/-- Attempts that fail without leaving a trace, until one succeeds or none is left. The last failure
is the one of the last attempt. -/
theorem ends_attempts {call : StorageM α} {good : α → Storage → Prop} (kept : Storage → Prop)
    (failing : Failure → Prop)
    (lasting : ∀ t u : Storage, u.part = t.part → u.tables = t.tables → u.outages = t.outages →
      kept t → kept u)
    (name : String)
    (each : ∀ t : Storage, kept t → Ends call t good fun f u => kept u ∧ failing f)
    (left attempt : Nat) (first : 1 ≤ attempt) (few : attempt + left = 3) (t : Storage)
    (start : kept t) :
    Ends (writePolicy.attempts {
      failed := awaitRetry name
      gaveUp := fun used f => modify fun s => { s with
        journal := Retry.reportGaveUp s.journal name name used f } } call left attempt) t good
      (fun f u => kept u ∧ failing f) := by
  induction left generalizing attempt t with
  | zero =>
    refine Ends.tryCatch_iff.2 ((each t start).imp (fun _ _ h => h) fun f u ⟨still, why⟩ => ?_)
    split
    · refine Ends.bind (Ends.modify_iff.2 (Ends.throw_iff.2 ⟨lasting u _ ?_ rfl rfl still, why⟩))
      have same : ∀ j : Journal, (Retry.reportGaveUp j name name attempt f).spoken = j.spoken :=
        fun j => Journal.spoken_write_of_ne _ _ _ _ _ (retryLogger_ne name)
      simp [part, same]
    · exact Ends.throw_iff.2 ⟨still, why⟩
  | succ left ih =>
    refine Ends.tryCatch_iff.2 ((each t start).imp (fun _ _ h => h) fun f u ⟨still, why⟩ => ?_)
    split
    · refine Ends.bind ((ends_awaitRetry name (by omega) f).imp ?_ fun _ _ h => h.elim)
      rintro _ w ⟨part, tables, outages⟩
      exact ih (attempt + 1) (by omega) (by omega) w (lasting u w part tables outages still)
    · exact Ends.throw_iff.2 ⟨still, why⟩

theorem ends_retrying_of_kept {call : StorageM α} {good : α → Storage → Prop}
    (kept : Storage → Prop) (failing : Failure → Prop)
    (lasting : ∀ t u : Storage, u.part = t.part → u.tables = t.tables → u.outages = t.outages →
      kept t → kept u)
    (name : String)
    (each : ∀ t : Storage, kept t → Ends call t good fun f u => kept u ∧ failing f) (start : kept s) :
    Ends (retrying name call) s good fun f u => kept u ∧ failing f :=
  ends_attempts kept failing lasting name each 2 1 (Nat.le_refl _) rfl s start

theorem ends_freshId : Ends freshId s
    (fun id t => id = idText s.part.next ∧ t.part = { s.part with next := s.part.next + 1 } ∧
      t.tables = s.tables) never :=
  Ends.bind (Ends.get_iff.2 (Ends.bind (Ends.modify_iff.2 (Ends.pure_iff.2 ⟨rfl, rfl, rfl⟩))))

/-- A new row is found under its id. -/
theorem part_addExecution {row : Store.ExecutionRow} (absent : s.part.row? row.id = none) :
    { s with tables := { s.tables with executions := s.tables.executions ++ [row] } }.part =
      { s.part with row? := fun k => if k = row.id then some row else s.part.row? k } := by
  unfold Storage.part
  congr 1
  funext k
  simp only [Storage.part, Store.execution?] at absent ⊢
  rw [List.find?_append]
  by_cases wanted : k = row.id
  · subst wanted
    simp [absent]
  · simp [wanted, Ne.symm wanted]

/-- What can be opened is created at the first attempt, under the next id. -/
theorem ends_createExecution_ok {workflow tenant triggerData module item : Value} {row : Store.ExecutionRow}
    (steady : s.part.faulty = false) (absent : s.part.row? (idText s.part.next) = none)
    (opening : Store.ExecutionRow.opening (idText s.part.next) workflow tenant triggerData module item =
      .ok row) :
    Ends (createExecution workflow tenant triggerData module item) s
      (fun id t => id = idText s.part.next ∧ t.part = { s.part with
        row? := fun k => if k = id then some row else s.part.row? k, next := s.part.next + 1 })
      never := by
  have opens := Store.ExecutionRow.opens_of_opening opening
  refine ends_retrying _ (Ends.bind (ends_freshId.imp ?_ fun _ _ h => h))
  rintro _ u ⟨rfl, part, -⟩
  have uSteady : u.part.faulty = false := by rw [part]; exact steady
  refine Ends.bind ((ends_session uSteady "create execution" "workflow_executions" (a := ())
    (t := { u.tables with executions := u.tables.executions ++ [row] }) (by rw [opening]; rfl)).imp ?_
    fun _ _ h => h)
  rintro _ _ ⟨-, rfl⟩
  refine Ends.pure_iff.2 ⟨rfl, ?_⟩
  rw [part_addExecution (by rw [part, opens.id]; exact absent), part, opens.id]

/-- What cannot be opened under any id is never created; every attempt takes a new one. -/
theorem ends_createExecution_refused {workflow tenant triggerData module item : Value}
    (steady : s.part.faulty = false) (refused : ∀ id, ∃ r,
      Store.ExecutionRow.opening id workflow tenant triggerData module item = .error r) :
    Ends (createExecution workflow tenant triggerData module item) s (fun _ _ => False)
      (fun _ t => ∃ n, s.part.next ≤ n ∧ t.part = { s.part with next := n }) := by
  refine (ends_retrying_of_kept
    (fun t => ∃ n, s.part.next ≤ n ∧ t.part = { s.part with next := n }) (fun _ => True)
    (fun t u same _ _ ⟨n, later, here⟩ => ⟨n, later, same.trans here⟩) _ ?_
    ⟨_, Nat.le_refl _, rfl⟩).imp (fun _ _ h => h) fun _ _ h => h.1
  rintro t ⟨n, later, here⟩
  refine Ends.bind (ends_freshId.imp ?_ fun _ _ h => h.elim)
  rintro id u ⟨-, part, -⟩
  have uPart : u.part = { s.part with next := n + 1 } := by rw [part, here]
  have uSteady : u.part.faulty = false := by rw [uPart]; exact steady
  obtain ⟨r, opening⟩ := refused id
  refine Ends.bind ?_
  unfold session transact
  refine Ends.bind ((ends_openSession uSteady _ _).imp ?_ fun _ _ h => h.elim)
  rintro _ _ rfl
  rw [Ends.bind_iff, Ends.get_iff]
  dsimp only
  rw [opening]
  cases r with
  | rejected =>
    refine Ends.bind ((ends_note (by decide)).imp ?_ fun _ _ h => h.elim)
    rintro _ w same
    exact Ends.throw_iff.2 ⟨⟨n + 1, Nat.le_succ_of_le later, same.trans uPart⟩, trivial⟩
  | raised f => exact Ends.throw_iff.2 ⟨⟨n + 1, Nat.le_succ_of_le later, uPart⟩, trivial⟩

/-- Creating an execution takes new ids only; a refused one leaves nothing behind. -/
theorem ends_createExecution (steady : s.part.faulty = false)
    (fresh : ∀ n, s.part.next ≤ n → s.part.row? (idText n) = none)
    (workflow tenant triggerData module item : Value) :
    Ends (createExecution workflow tenant triggerData module item) s
      (fun id t => ∃ n row, s.part.next ≤ n ∧ id = idText n ∧ row.Opens id ∧
        t.part = { s.part with
          row? := fun k => if k = id then some row else s.part.row? k, next := n + 1 })
      (fun _ t => ∃ n, s.part.next ≤ n ∧ t.part = { s.part with next := n }) := by
  cases opening : Store.ExecutionRow.opening (idText s.part.next) workflow tenant triggerData module item with
  | ok row =>
    refine (ends_createExecution_ok steady (fresh _ (Nat.le_refl _)) opening).imp ?_ fun _ _ h => h.elim
    rintro _ t ⟨rfl, part⟩
    exact ⟨_, row, Nat.le_refl _, rfl, Store.ExecutionRow.opens_of_opening opening, part⟩
  | error r =>
    refine (ends_createExecution_refused steady fun id => ⟨r, ?_⟩).imp (fun _ _ h => h.elim) fun _ _ h => h
    rw [Store.ExecutionRow.opening_rename id (idText s.part.next), opening]
    rfl

/-- A status is written, with what its row makes of an error and a time. -/
theorem ends_writeStatus {id : String} {row : Store.ExecutionRow} {error time : Value}
    (steady : s.part.faulty = false) (stored : s.part.row? id = some row)
    (status : ExecutionStatus) (text : Option String) (cell : Value)
    (asText : (if error.isNull then .ok row.error else Store.textCell error) = .ok text)
    (asTime : (if time.isNull then .ok row.time else Store.wholeCell time) = .ok cell) :
    Ends (setExecutionStatus id (.text status.name) error time) s
      (fun _ t => t.part = { s.part with
        row? := fun k =>
          if k = id then some { row with
            status, error := text, time := cell, ended := row.ended || status.isTerminal }
          else s.part.row? k }) never := by
  have read : ExecutionStatus.read (.text status.name) = .ok status := by cases status <;> rfl
  refine ends_retrying _ ?_
  simp only [read]
  refine Ends.bind (Ends.pure_iff.2 ?_)
  have here : s.tables.execution? id = some row := stored
  refine (ends_session (a := ()) (t := s.tables.updateExecution id fun r =>
    { r with status, error := text, time := cell, ended := r.ended || status.isTerminal })
    steady _ _ ?_).imp ?_ fun _ _ h => h
  · simp only [here]
    cases noError : error.isNull <;> cases noTime : time.isNull <;>
    · simp only [noError, noTime, if_true, Bool.false_eq_true, if_false] at asText asTime ⊢
      rw [asText, asTime]
      rfl
  · rintro _ _ ⟨-, rfl⟩
    simp only [part]
    congr 1
    funext k
    rw [Store.execution?_updateExecution (by intro r; rfl)]
    by_cases wanted : k = id
    · subst wanted
      simp [here]
    · simp [wanted]

/-- Storing how an execution ended. -/
theorem ends_setExecutionStatus {id : String} (steady : s.part.faulty = false)
    (stored : (s.part.row? id).isSome) (status : ExecutionStatus) (error : Option String) :
    Ends (setExecutionStatus id (.text status.name) (.ofText? error) (.int 0)) s
      (fun _ t => t.part = s.part.close id status error) never := by
  obtain ⟨row, found⟩ := Option.isSome_iff_exists.1 stored
  refine (ends_writeStatus steady found status (error.or row.error) (.int 0)
    (by cases error <;> rfl) rfl).imp (fun _ t here => ?_) fun _ _ h => h
  rw [here, Part.close, Part.mk.injEq]
  refine ⟨funext fun k => ?_, rfl, rfl, rfl, rfl⟩
  by_cases wanted : k = id
  · subst wanted
    simp [found, Store.ExecutionRow.close]
  · simp [wanted]

/-- Nothing is followed of an operation but the ids that it takes: it is put together from notes and
from sessions that leave the executions and the markers as they are. -/
inductive Quiet : {α : Type} → StorageM α → Prop where
  | pure {α : Type} (a : α) : Quiet (Pure.pure a : StorageM α)
  | throw {α : Type} (f : Failure) : Quiet (MonadExcept.throw f : StorageM α)
  | bind {α β : Type} {x : StorageM α} {f : α → StorageM β} (first : Quiet x)
      (next : ∀ a, Quiet (f a)) : Quiet (x >>= f)
  | freshId : Quiet Storage.freshId
  | note {level : Level} {logger message : String} (other : logger ≠ "deskflow.execution") :
      Quiet (Storage.note level logger message)
  | openSession (operation table : String) : Quiet (Storage.openSession operation table)
  /-- Work on tables that are not followed. -/
  | transact {α : Type} {operation table : String}
      {work : Store → Except Store.Refusal (α × Store)}
      (aside : ∀ s a t, work s = .ok (a, t) → t.executions = s.executions ∧ t.markers = s.markers) :
      Quiet (Storage.transact operation table work)

namespace Quiet

theorem freshIds (n : Nat) : Quiet (Storage.freshIds n) := by
  induction n with
  | zero => exact pure _
  | succ n ih => exact bind freshId fun _ => bind ih fun _ => pure _

theorem session {operation table : String} {work : Store → Except Store.Refusal (α × Store)}
    (aside : ∀ s a t, work s = .ok (a, t) → t.executions = s.executions ∧ t.markers = s.markers) :
    Quiet (Storage.session operation table work) :=
  bind (openSession operation table) fun _ => transact aside

theorem query (operation table : String) (read : Store → Except Store.Refusal α) :
    Quiet (Storage.query operation table read) := by
  refine session fun s a t done => ?_
  obtain ⟨b, -, done⟩ := bind_eq_ok done
  cases done
  exact ⟨rfl, rfl⟩

/-- What is followed of the storage stays as it was, while no session is refused. -/
theorem ends {α : Type} {x : StorageM α} (quiet : Quiet x) {s : Storage}
    (steady : s.part.faulty = false) :
    Ends x s (fun _ t => ∃ n, s.part.next ≤ n ∧ t.part = { s.part with next := n })
      (fun _ t => ∃ n, s.part.next ≤ n ∧ t.part = { s.part with next := n }) := by
  induction quiet generalizing s with
  | pure a => exact ⟨_, Nat.le_refl _, rfl⟩
  | throw f => exact ⟨_, Nat.le_refl _, rfl⟩
  | bind first next ih ihNext =>
    refine Ends.bind ((ih steady).imp ?_ fun _ _ h => h)
    rintro a t ⟨n, later, here⟩
    have tSteady : t.part.faulty = false := by rw [here]; exact steady
    have number : t.part.next = n := by rw [here]
    refine (ihNext a tSteady).imp ?_ ?_ <;>
    · rintro _ u ⟨m, more, there⟩
      exact ⟨m, Nat.le_trans later (number ▸ more), by rw [there, here]⟩
  | freshId => exact ends_freshId.imp (fun _ _ h => ⟨_, Nat.le_succ _, h.2.1⟩) fun _ _ h => h.elim
  | note other =>
    exact (ends_note other).imp (fun _ _ h => ⟨_, Nat.le_refl _, h⟩) fun _ _ h => h.elim
  | openSession operation table =>
    exact (ends_openSession steady operation table).imp (fun _ _ h => ⟨_, Nat.le_refl _, h ▸ rfl⟩)
      fun _ _ h => h.elim
  | @transact _ operation _ work aside =>
    unfold Storage.transact
    rw [Ends.bind_iff, Ends.get_iff]
    cases outcome : work s.tables with
    | ok done =>
      obtain ⟨a, t⟩ := done
      obtain ⟨executions, markers⟩ := aside _ _ _ outcome
      refine Ends.bind (Ends.modify_iff.2 (Ends.pure_iff.2 ⟨_, Nat.le_refl _, ?_⟩))
      have rows : t.execution? = s.tables.execution? := by
        funext k
        unfold Store.execution?
        rw [executions]
      simp [part, rows, markers]
    | error r =>
      cases r with
      | rejected =>
        refine Ends.bind ((ends_note (by decide)).imp ?_ fun _ _ h => h.elim)
        exact fun _ _ same => Ends.throw_iff.2 ⟨_, Nat.le_refl _, same⟩
      | raised f => exact Ends.throw_iff.2 ⟨_, Nat.le_refl _, rfl⟩

end Quiet

theorem serviceLogger_ne (service : String) : serviceLogger service ≠ "deskflow.execution" := by
  unfold serviceLogger
  intro same
  have letters := congrArg (fun s => s.toList[9]?) same
  simp at letters

theorem quiet_createTicket (t : TicketDraft) : Quiet (createTicket t) := by
  refine .bind .freshId fun id => .bind (.session fun s a u done => ?_) fun _ =>
    .bind (.note (serviceLogger_ne _)) fun _ => .pure _
  obtain ⟨row, -, done⟩ := bind_eq_ok done
  cases done
  exact ⟨rfl, rfl⟩

theorem quiet_updateTicket (id : String) (updates : Dict) : Quiet (updateTicket id updates) := by
  refine .bind (.session fun s a u done => ?_) fun _ => ?_
  · split at done
    · cases done
    · obtain ⟨row, -, done⟩ := bind_eq_ok done
      cases done
      exact ⟨rfl, rfl⟩
  · split
    · exact .note (serviceLogger_ne _)
    · exact .throw _

theorem quiet_assignTicket (id : String) (assignee : Value) : Quiet (assignTicket id assignee) := by
  refine .bind (.session fun s a u done => ?_) fun _ => .note (serviceLogger_ne "tickets")
  split at done
  · cases done
  · obtain ⟨row, -, done⟩ := bind_eq_ok done
    cases done
    exact ⟨rfl, rfl⟩

theorem quiet_notify (a : Announcement) : Quiet (notify a) := by
  refine .bind (.openSession _ _) fun _ => .bind (.freshIds _) fun ids => .bind
    (.transact fun s b u done => ?_) fun _ =>
    .bind (.note (serviceLogger_ne "notifications")) fun _ => .pure _
  obtain ⟨rows, -, done⟩ := bind_eq_ok done
  cases done
  exact ⟨rfl, rfl⟩

theorem quiet_createArticle (a : ArticleDraft) : Quiet (createArticle a) := by
  refine .bind .freshId fun id => .bind (.session fun s b u done => ?_) fun _ =>
    .bind (.note (serviceLogger_ne _)) fun _ => .pure _
  obtain ⟨row, -, done⟩ := bind_eq_ok done
  cases done
  exact ⟨rfl, rfl⟩

theorem quiet_loadWorkflow (id : String) : Quiet (loadWorkflow id) := by
  refine .bind (.query _ _ _) fun row => ?_
  split
  · exact .pure _
  · exact .throw _

/-- What is loaded was read from its row. -/
theorem sound_loadWorkflow (id : String) (s : Storage) :
    Ends (loadWorkflow id) s (fun w _ => w.Sound) fun _ _ => True := by
  refine Ends.bind ((?_ : Ends _ s (fun _ _ => True) fun _ _ => True).imp (fun row t _ => ?_)
    fun _ _ _ => trivial)
  · unfold Ends
    split <;> trivial
  · split
    · rename_i parsed
      exact Ends.pure_iff.2 (Workflow.sound_of_parse parsed)
    · exact Ends.throw_iff.2 trivial

end Storage

end Runbook
