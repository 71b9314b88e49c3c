import Runbook.Action.Samples
import Runbook.Proofs.Summary
import Runbook.Proofs.Course.Moves

/-!
The life of an execution. In store an execution is running until it is completed, failed or cancelled,
and what it is then it stays; it is told as completed or as cancelled once, and when it is over nothing
of it is processed any more.
-/
namespace Runbook

namespace Spoken

/-- It tells that an execution was cancelled. -/
def cancels (s : Spoken) : Bool := s.level == .warning && s.message == "Workflow execution cancelled"

/-- It tells that an execution was completed. -/
def completes (s : Spoken) : Bool := s.message == "Workflow execution completed"

end Spoken

namespace Remark

variable {r : Remark}

theorem cancels_spoken (r : Remark) (id : String) (path : List String) : (r.spoken id path).cancels =
    (Engine.processLevel r.level == .warning && r.message == "Workflow execution cancelled") := rfl

theorem completes_spoken (r : Remark) (id : String) (path : List String) :
    (r.spoken id path).completes = (r.message == "Workflow execution completed") := rfl

theorem message_completed : completed.message = "Workflow execution completed" := rfl

theorem message_cancelled : cancelled.message = "Workflow execution cancelled" := rfl

theorem message_summary (node text : String) : (summary node text).message = text := rfl

theorem message_ne (plain : r.isPlain = true) {head : String} (known : head ∈ distinctive)
    (other : r.head ≠ head) : r.message ≠ head := by
  intro same
  have wordy : r.head ≠ "" := by
    cases r with
    | summary => cases plain
    | _ => simp [Remark.head]
  have tells := tells_entry known wordy []
  have own : (r.entry []).tells head = true := by
    change head.toList.isPrefixOf r.message.toList = true
    rw [same]
    exact List.isPrefixOf_iff_prefix.2 List.prefix_rfl
  rw [own, decide_eq_false other] at tells
  cases tells

/-- Only the end of an execution is told as one. -/
theorem silent_of_plain (plain : r.isPlain = true) (id : String) (path : List String) :
    (r.spoken id path).cancels = false ∧ (r.spoken id path).completes = false := by
  have other : r.head ≠ "Workflow execution cancelled" ∧ r.head ≠ "Workflow execution completed" := by
    cases r with
    | completed | cancelled => cases plain
    | _ => simp [Remark.head]
  have cancelled := message_ne plain (by simp [distinctive]) other.1
  have completed := message_ne plain (by simp [distinctive]) other.2
  rw [cancels_spoken, completes_spoken]
  exact ⟨by simp [cancelled], by simp [completed]⟩

/-- How an execution ends is told by what closes it. -/
theorem told_of_closes {s : ExecutionStatus} (closes : r.Closes s) (id : String)
    (path : List String) : (r.spoken id path).cancels = decide (s = .cancelled) ∧
      (r.spoken id path).completes = decide (s = .completed) := by
  rw [cancels_spoken, completes_spoken]
  cases s with
  | running => cases closes
  | completed =>
    obtain rfl : r = .completed := closes
    simp [message_completed]
  | cancelled =>
    obtain rfl : r = .cancelled := closes
    simp [message_cancelled, level, Engine.processLevel]
  | failed =>
    obtain ⟨plain, -⟩ := closes
    exact r.silent_of_plain plain id path

end Remark

/-- An execution is over: its log tells how it ended, where it stood then, and after that nothing but
what actions said that were on the way. -/
def Execution.Ended (x : Execution) (registry : Action.Registry) : Prop :=
  ∃ (before : List LogEntry) (r : Remark) (after : List LogEntry),
    x.logs = before ++ r.entry x.path :: after ∧ r.Closes x.status ∧
      ∀ e ∈ after, ∃ node text, registry.Says text ∧ e = (Remark.summary node text).entry x.path

namespace Scene

/-- The status of an execution in store. -/
def status? (v : Scene) (id : String) : Option ExecutionStatus := (v.row? id).map (·.status)

/-- What the process log tells of an execution is in keeping with its status. -/
structure Lawful (v : Scene) (id : String) : Prop where
  cancelled : (v.spoken.filter (·.execution == id)).countP Spoken.cancels =
    if v.status? id = some .cancelled then 1 else 0
  completed : ¬v.registry.Says "Workflow execution completed" →
    (v.spoken.filter (·.execution == id)).countP Spoken.completes =
      if v.status? id = some .completed then 1 else 0
  ended : ∀ x, v.execution? id = some x → x.isActive = false →
    x.Ended v.registry ∧ v.status? id = some x.status

variable (v : Scene) (id k error : String)

@[simp] theorem execution?_fail : (v.fail id error).execution? k =
    if k = id then (v.execution? k).map fun x => { x with
      status := .failed, error := some error, timers := [], done := true }
    else v.execution? k := by
  by_cases same : k = id <;> simp [fail, halt, same, Function.comp_def]

@[simp] theorem execution?_cancel : (v.cancel id).execution? k =
    if k = id then (v.execution? k).map fun x => { x with
      status := .cancelled, error := some cancelText, timers := []
      logs := x.logs ++ [Remark.cancelled.entry x.path], done := true }
    else v.execution? k := by
  by_cases same : k = id <;> simp [cancel, halt, same, Function.comp_def]

@[simp] theorem execution?_complete : (v.complete id).execution? k =
    if k = id then (v.execution? k).map fun x => { x with
      branches := x.branches - 1, status := .completed
      logs := x.logs ++ [Remark.completed.entry x.path], done := true }
    else v.execution? k := by
  by_cases same : k = id <;> simp [complete, same, Function.comp_def]

theorem row?_fail : (v.fail id error).row? k =
    if k = id then (v.row? k).map (·.close .failed (some error)) else v.row? k := rfl

theorem row?_cancel : (v.cancel id).row? k =
    if k = id then (v.row? k).map (·.close .cancelled (some cancelText)) else v.row? k := rfl

theorem row?_complete : (v.complete id).row? k =
    if k = id then (v.row? k).map (·.close .completed none) else v.row? k := rfl

theorem row?_abandon : (v.abandon id error).row? k =
    if k = id then (v.row? k).map fun r =>
      { r with status := .failed, error := some error, ended := true }
    else v.row? k := rfl

/-- The status that a row gets which is changed for one execution. -/
theorem status?_of_row? {w : Scene} {f : Store.ExecutionRow → Store.ExecutionRow}
    {s : ExecutionStatus} (rows : w.row? k = if k = id then (v.row? k).map f else v.row? k)
    (status : ∀ r, (f r).status = s) :
    w.status? k = if k = id then (v.status? k).map fun _ => s else v.status? k := by
  rw [status?, status?, rows]
  split <;> simp [status, Function.comp_def]

theorem spoken_cancel {v : Scene} {id : String} {x : Execution} (known : v.execution? id = some x) :
    (v.cancel id).spoken = v.spoken ++ [Remark.cancelled.spoken id x.path] := by
  have there : (v.halt id .cancelled cancelText).execution? id =
      some { x with status := .cancelled, error := some cancelText, timers := [] } := by
    simp [halt, known]
  change (v.halt id .cancelled cancelText).spoken ++ (((v.halt id .cancelled cancelText).execution?
    id).map fun x => Remark.cancelled.spoken id x.path).toList = _
  rw [there]
  rfl

theorem spoken_complete {v : Scene} {id : String} {x : Execution} (known : v.execution? id = some x) :
    (v.complete id).spoken = v.spoken ++ [Remark.completed.spoken id x.path] := by
  simp [complete, record, retire, alter, say, Storage.Part.close, known]

end Scene

namespace Execution.Ended

variable {x y : Execution} {registry : Action.Registry}

theorem congr (ended : x.Ended registry) (logs : y.logs = x.logs) (path : y.path = x.path)
    (status : y.status = x.status) : y.Ended registry := by
  unfold Ended
  rw [logs, path, status]
  exact ended

/-- An action that was on the way may still say something. -/
theorem summarize (ended : x.Ended registry) {node text : String} (said : registry.Says text) :
    { x with logs := x.logs ++ [(Remark.summary node text).entry x.path] }.Ended registry := by
  obtain ⟨before, r, after, logs, closes, echoes⟩ := ended
  refine ⟨before, r, after ++ [(Remark.summary node text).entry x.path], ?_, closes, ?_⟩
  · change x.logs ++ _ = _
    rw [logs, List.append_assoc, List.cons_append]
  · intro e there
    rcases List.mem_append.1 there with old | new
    · exact echoes e old
    · obtain rfl := List.mem_singleton.1 new
      exact ⟨node, text, said, rfl⟩

/-- What ends an execution is the last that is told of it at first. -/
theorem of_remark {r : Remark} (logs : y.logs = x.logs ++ [r.entry x.path]) (path : y.path = x.path)
    (closes : r.Closes y.status) : y.Ended registry :=
  ⟨x.logs, r, [], by rw [logs, path], closes, by simp⟩

end Execution.Ended

namespace Scene

variable {own : String → Prop} {v w : Scene} {id k : String} {x : Execution}

theorem Running.status? (running : v.Running id x) : v.status? id = some .running := by
  obtain ⟨row, stored, status⟩ := running.row
  rw [Scene.status?, stored, Option.map_some, status]

/-- What tells of no end leaves a lawful scene lawful. -/
theorem Lawful.keep {l : List Spoken} (lawful : v.Lawful k) (registry : w.registry = v.registry)
    (spoken : w.spoken = v.spoken ++ l)
    (silent : ∀ s ∈ l, s.execution = k → s.cancels = false ∧
      (¬v.registry.Says "Workflow execution completed" → s.completes = false))
    (status : w.status? k = v.status? k ∨
      (v.status? k = none ∨ v.status? k = some .running) ∧
        (w.status? k = some .running ∨ w.status? k = some .failed))
    (ended : ∀ x, w.execution? k = some x → x.isActive = false →
      x.Ended v.registry ∧ w.status? k = some x.status) : w.Lawful k := by
  have none (p : Spoken → Bool) (no : ∀ s ∈ l, s.execution = k → p s = false) :
      (w.spoken.filter (·.execution == k)).countP p = (v.spoken.filter (·.execution == k)).countP p := by
    have nothing : (l.filter (·.execution == k)).countP p = 0 :=
      List.countP_eq_zero.2 fun s there => by
        obtain ⟨member, whose⟩ := List.mem_filter.1 there
        simp [no s member (by simpa using whose)]
    rw [spoken, List.filter_append, List.countP_append, nothing, Nat.add_zero]
  have same : (w.status? k = some .cancelled ↔ v.status? k = some .cancelled) ∧
      (w.status? k = some .completed ↔ v.status? k = some .completed) := by
    rcases status with same | ⟨before | before, after | after⟩
    · rw [same]; exact ⟨Iff.rfl, Iff.rfl⟩
    all_goals rw [before, after]; simp
  refine ⟨?_, fun discreet => ?_, fun x known past => ?_⟩
  · rw [none _ fun s there whose => (silent s there whose).1, lawful.cancelled]
    simp only [same.1]
  · rw [registry] at discreet
    rw [none _ fun s there whose => (silent s there whose).2 discreet, lawful.completed discreet]
    simp only [same.2]
  · rw [registry]
    exact ended x known past

/-- A running execution that goes on running is not over. -/
theorem Running.older {f : Execution → Execution} (running : v.Running id x)
    (active : (f x).isActive = true) {y : Execution} (there : (v.alter id f).execution? k = some y)
    (past : y.isActive = false) : v.execution? k = some y := by
  rw [execution?_alter] at there
  split at there
  · rename_i same
    rw [same, running.known] at there
    cases there
    exact absurd (active.symm.trans past) (by decide)
  · exact there

theorem silent_of_plain (v : Scene) {r : Remark} (plain : r.isPlain = true) :
    ∀ s ∈ ((v.execution? id).map fun x => r.spoken id x.path).toList, s.execution = k →
      s.cancels = false ∧ (¬v.registry.Says "Workflow execution completed" → s.completes = false) := by
  intro s there _
  obtain ⟨x, -, rfl⟩ := Option.map_eq_some_iff.1 (Option.mem_toList.1 there)
  have silent := r.silent_of_plain plain id x.path
  exact ⟨silent.1, fun _ => silent.2⟩

theorem Lawful.besides (lawful : v.Lawful k) (executions : w.execution? = v.execution?)
    (rows : w.row? = v.row?) (spoken : w.spoken = v.spoken) (registry : w.registry = v.registry) :
    w.Lawful k := by
  have status : w.status? k = v.status? k := by rw [status?, status?, rows]
  refine lawful.keep (l := []) registry (by simp [spoken]) (by simp) (.inl status) ?_
  rw [executions, status]
  exact lawful.ended

theorem Lawful.alter {f : Execution → Execution} (lawful : v.Lawful k) (minor : Execution.Minor f) :
    (v.alter id f).Lawful k := by
  refine lawful.keep (l := []) rfl (List.append_nil _).symm (by simp) (.inl rfl) fun y there past => ?_
  rw [execution?_alter] at there
  split at there
  · obtain ⟨x, known, rfl⟩ := Option.map_eq_some_iff.1 there
    have status := minor.status x
    obtain ⟨ended, stored⟩ := lawful.ended x known (by simpa [Execution.isActive, status] using past)
    exact ⟨ended.congr (minor.logs x) (minor.path x) status, stored.trans (congrArg some status.symm)⟩
  · exact lawful.ended y there past

theorem Lawful.say {r : Remark} (lawful : v.Lawful k) (running : v.Running id x)
    (plain : r.isPlain = true) : (v.say id r).Lawful k :=
  lawful.keep rfl rfl (silent_of_plain v plain) (.inl rfl) fun y there past =>
    lawful.ended y (running.older (f := fun x => { x with logs := x.logs ++ [r.entry x.path] })
      running.active there past) past

theorem Lawful.enter {node : String} (lawful : v.Lawful k) (running : v.Running id x) :
    (v.alter id (·.enter node)).Lawful k :=
  lawful.keep (l := []) rfl (List.append_nil _).symm (by simp) (.inl rfl) fun y there past =>
    lawful.ended y (running.older running.active there past) past

theorem Lawful.summarize {node text : String} (lawful : v.Lawful k) (said : v.registry.Says text) :
    (v.say id (.summary node text)).Lawful k := by
  refine lawful.keep (l := ((v.execution? id).map fun x =>
    (Remark.summary node text).spoken id x.path).toList) rfl rfl ?_ (.inl rfl) fun y there past => ?_
  · intro s there _
    obtain ⟨x, -, rfl⟩ := Option.map_eq_some_iff.1 (Option.mem_toList.1 there)
    rw [Remark.cancels_spoken, Remark.completes_spoken, Remark.message_summary]
    refine ⟨by simp [Remark.level, Engine.processLevel], fun discreet => ?_⟩
    have other : text ≠ "Workflow execution completed" := fun same => discreet (same ▸ said)
    simp [other]
  · rw [execution?_say] at there
    split at there
    · obtain ⟨x, known, rfl⟩ := Option.map_eq_some_iff.1 there
      obtain ⟨ended, stored⟩ := lawful.ended x known past
      exact ⟨ended.summarize said, stored⟩
    · exact lawful.ended y there past

/-- A running execution comes to its end, for a reason that is told. -/
theorem Lawful.close {r : Remark} {s : ExecutionStatus} {y : Execution} (lawful : v.Lawful k)
    (running : v.Running id x) (registry : w.registry = v.registry)
    (spoken : w.spoken = v.spoken ++ [r.spoken id x.path])
    (executions : w.execution? k = if k = id then some y else v.execution? k)
    (rows : w.status? k = if k = id then some s else v.status? k)
    (logs : y.logs = x.logs ++ [r.entry x.path]) (path : y.path = x.path) (closed : y.status = s)
    (closes : r.Closes s) : w.Lawful k := by
  by_cases same : k = id
  · subst same
    rw [if_pos rfl] at executions rows
    have before := running.status?
    have own : w.spoken.filter (·.execution == k) =
        v.spoken.filter (·.execution == k) ++ [r.spoken k x.path] := by
      rw [spoken, List.filter_append, List.filter_cons_of_pos (by simp [Remark.spoken]), List.filter_nil]
    have count (p : Spoken → Bool) (none : (v.spoken.filter (·.execution == k)).countP p = 0) :
        (w.spoken.filter (·.execution == k)).countP p = if p (r.spoken k x.path) then 1 else 0 := by
      rw [own, List.countP_append, none, Nat.zero_add, List.countP_singleton]
    have quiet := lawful.cancelled
    rw [before, if_neg (by simp)] at quiet
    have told := r.told_of_closes closes k x.path
    refine ⟨?_, fun discreet => ?_, fun z there past => ?_⟩
    · rw [count _ quiet, rows, told.1]
      simp
    · rw [registry] at discreet
      have silent := lawful.completed discreet
      rw [before, if_neg (by simp)] at silent
      rw [count _ silent, rows, told.2]
      simp
    · obtain rfl := Option.some.inj (executions.symm.trans there)
      exact ⟨.of_remark logs path (closed ▸ closes), rows.trans (congrArg some closed.symm)⟩
  · rw [if_neg same] at executions rows
    refine lawful.keep registry spoken (fun t there whose => ?_) (.inl rows) ?_
    · obtain rfl := List.mem_singleton.1 there
      exact absurd whose.symm same
    · rw [executions, rows]
      exact lawful.ended

theorem Lawful.fail {r : Remark} {error : String} (lawful : v.Lawful k) (running : v.Running id x)
    (closes : r.Closes .failed) : ((v.say id r).fail id error).Lawful k := by
  refine lawful.close (r := r) (s := .failed) (y := { x with
    logs := x.logs ++ [r.entry x.path], status := .failed, error := some error, timers := []
    done := true }) running rfl ?_ ?_ ?_ rfl rfl rfl closes
  · change v.spoken ++ ((v.execution? id).map fun x => r.spoken id x.path).toList = _
    rw [running.known]
    rfl
  · by_cases same : k = id <;> simp [same, running.known]
  · rw [(v.say id r).status?_of_row? id k (row?_fail ..) fun _ => rfl,
      show (v.say id r).status? k = v.status? k from rfl]
    by_cases same : k = id <;> simp [same, running.status?]

theorem Lawful.cancel (lawful : v.Lawful k) (running : v.Running id x) : (v.cancel id).Lawful k := by
  refine lawful.close (r := .cancelled) (s := .cancelled) (y := { x with
    status := .cancelled, error := some cancelText, timers := []
    logs := x.logs ++ [Remark.cancelled.entry x.path], done := true }) running rfl
    (spoken_cancel running.known) ?_ ?_ rfl rfl rfl rfl
  · by_cases same : k = id <;> simp [same, running.known]
  · rw [v.status?_of_row? id k (row?_cancel ..) fun _ => rfl]
    by_cases same : k = id <;> simp [same, running.status?]

theorem Lawful.complete (lawful : v.Lawful k) (running : v.Running id x) :
    (v.complete id).Lawful k := by
  refine lawful.close (r := .completed) (s := .completed) (y := { x with
    branches := x.branches - 1, status := .completed
    logs := x.logs ++ [Remark.completed.entry x.path], done := true }) running rfl
    (spoken_complete running.known) ?_ ?_ rfl rfl rfl rfl
  · by_cases same : k = id <;> simp [same, running.known]
  · rw [v.status?_of_row? id k (row?_complete ..) fun _ => rfl]
    by_cases same : k = id <;> simp [same, running.status?]

theorem Lawful.enrol {row : Store.ExecutionRow} {next : Nat} (lawful : v.Lawful k)
    (unstored : v.row? x.id = none) (active : x.isActive = true) (running : row.status = .running) :
    (v.enrol x row next).Lawful k := by
  have rows : (v.enrol x row next).status? k = if k = x.id then some .running else v.status? k := by
    unfold status? Scene.enrol
    dsimp only
    split <;> simp [running]
  refine lawful.keep (l := []) rfl (List.append_nil _).symm (by simp) ?_ fun y there past => ?_
  · rw [rows]
    split
    · rename_i same
      exact .inr ⟨.inl (by simp [status?, same, unstored]), .inl rfl⟩
    · exact .inl rfl
  · rw [rows]
    rw [execution?_enrol] at there
    split at there
    · cases there
      exact absurd (active.symm.trans past) (by decide)
    · rename_i other
      rw [if_neg other]
      exact lawful.ended y there past

theorem Lawful.revive (lawful : v.Lawful k) (active : x.isActive = true) : (v.revive x).Lawful k := by
  refine lawful.keep (l := []) rfl (List.append_nil _).symm (by simp) (.inl rfl) fun y there past => ?_
  simp only [Scene.revive] at there
  split at there
  · cases there
    exact absurd (active.symm.trans past) (by decide)
  · exact lawful.ended y there past

theorem Lawful.abandon {error : String} (lawful : v.Lawful k) (stored : v.status? id = some .running) :
    (v.abandon id error).Lawful k := by
  have rows := v.status?_of_row? id k (row?_abandon v id k error) fun _ => rfl
  refine lawful.keep (l := []) rfl (List.append_nil _).symm (by simp) ?_ fun y there past => ?_
  · rw [rows]
    split
    · rename_i same
      exact .inr ⟨.inr (same ▸ stored), .inr (by simp [same, stored])⟩
    · exact .inl rfl
  · obtain ⟨ended, status⟩ := lawful.ended y there past
    refine ⟨ended, ?_⟩
    rw [rows]
    split
    · rename_i same
      rw [same, stored] at status
      have running : y.status = .running := (Option.some.inj status).symm
      simp [Execution.isActive, running] at past
    · exact status

end Scene

/-- Every move leaves a lawful scene lawful. -/
theorem Move.lawful {own : String → Prop} {v w : Scene} {k : String} (move : Move own v w)
    (lawful : v.Lawful k) : w.Lawful k := by
  cases move with
  | besides executions rows spoken registry => exact lawful.besides executions rows spoken registry
  | alter minor => exact lawful.alter minor
  | say running plain => exact lawful.say running plain
  | summarize mine said => exact lawful.summarize said
  | enter running => exact lawful.enter running
  | @mark id node x seconds resumeAt running =>
    have marked : (v.mark id node resumeAt).Lawful k := lawful.besides rfl rfl rfl rfl
    exact marked.say (running.mark node resumeAt) rfl
  | fail running cause => exact lawful.fail running cause.closes
  | cancel running => exact lawful.cancel running
  | complete running => exact lawful.complete running
  | enrol unknown unstored active running => exact lawful.enrol unstored active running
  | revive stored running active => exact lawful.revive active
  | abandon stored running => exact lawful.abandon (by rw [Scene.status?, stored, Option.map_some, running])

/-- What is left of an execution in memory when it is over. -/
def Execution.remains (x : Execution) : ExecutionStatus × Option String × List String × List LogEntry :=
  (x.status, x.error, x.path, x.logs)

namespace Scene

variable {v w : Scene} {id k : String} {x : Execution} {row : Store.ExecutionRow}

/-- An execution that is over in store is none that is running. -/
theorem Running.ne (running : v.Running id x) (stored : v.row? k = some row)
    (past : row.status ≠ .running) : k ≠ id := by
  rintro rfl
  obtain ⟨r, there, status⟩ := running.row
  obtain rfl := Option.some.inj (there.symm.trans stored)
  exact past status

/-- What is said of one execution is not said of another. -/
theorem filter_spoken_of_ne (v : Scene) (r : Remark) (other : k ≠ id) :
    (v.say id r).spoken.filter (·.execution == k) = v.spoken.filter (·.execution == k) := by
  have none : (((v.execution? id).map fun x => r.spoken id x.path).toList.filter
      fun s => s.execution == k) = [] := by
    refine List.filter_eq_nil_iff.2 fun s there => ?_
    obtain ⟨x, -, rfl⟩ := Option.map_eq_some_iff.1 (Option.mem_toList.1 there)
    simpa [Remark.spoken] using Ne.symm other
  change (v.spoken ++ _).filter _ = _
  rw [List.filter_append, none, List.append_nil]

end Scene

namespace Move

open Scene

variable {own : String → Prop} {v w : Scene} {k : String} {row : Store.ExecutionRow}

/-- No row is lost, and no word. -/
theorem grows (move : Move own v w) : w.registry = v.registry ∧ v.spoken <+: w.spoken ∧
    ((v.row? k).isSome → (w.row? k).isSome) := by
  have kept (id : String) (f : Store.ExecutionRow → Store.ExecutionRow) (stored : (v.row? k).isSome) :
      (if k = id then (v.row? k).map f else v.row? k).isSome := by
    split
    · rwa [Option.isSome_map]
    · exact stored
  cases move with
  | besides executions rows spoken registry => exact ⟨registry, spoken ▸ List.prefix_rfl, rows ▸ id⟩
  | alter | enter | revive => exact ⟨rfl, List.prefix_rfl, id⟩
  | say | summarize | mark => exact ⟨rfl, List.prefix_append _ _, id⟩
  | fail running closes => exact ⟨rfl, List.prefix_append _ _, kept _ _⟩
  | cancel running =>
    exact ⟨rfl, spoken_cancel running.known ▸ List.prefix_append _ _, kept _ _⟩
  | complete running =>
    exact ⟨rfl, spoken_complete running.known ▸ List.prefix_append _ _, kept _ _⟩
  | @enrol x r next unknown unstored active running =>
    refine ⟨rfl, List.prefix_rfl, fun stored => ?_⟩
    change (if k = x.id then some r else v.row? k).isSome
    split
    · rfl
    · exact stored
  | abandon stored running => exact ⟨rfl, List.prefix_rfl, kept _ _⟩

/-- The row of an execution that is over stays as it is. -/
theorem keeps (move : Move own v w) (stored : v.row? k = some row) (past : row.status ≠ .running) :
    w.row? k = some row := by
  cases move with
  | besides executions rows => rw [rows]; exact stored
  | alter | enter | say | mark | summarize | revive => exact stored
  | fail running closes =>
    rw [row?_fail, if_neg (running.ne stored past)]
    exact stored
  | cancel running =>
    rw [row?_cancel, if_neg (running.ne stored past)]
    exact stored
  | complete running =>
    rw [row?_complete, if_neg (running.ne stored past)]
    exact stored
  | @enrol x r next unknown unstored =>
    have other : k ≠ x.id := fun same => by simp [← same, stored] at unstored
    exact (if_neg other).trans stored
  | @abandon id error r there running =>
    have other : k ≠ id := fun same => past (by
      obtain rfl := Option.some.inj (stored.symm.trans (same ▸ there))
      exact running)
    rw [row?_abandon, if_neg other]
    exact stored

/-- Of an execution that is over nothing is told any more, and nothing of it changes in memory, as long
as none of its branches is on the way. -/
theorem silent (move : Move own v w) (stored : v.row? k = some row) (past : row.status ≠ .running)
    (strange : ¬own k) :
    w.spoken.filter (·.execution == k) = v.spoken.filter (·.execution == k) ∧
      (w.execution? k).map Execution.remains = (v.execution? k).map Execution.remains := by
  cases move with
  | besides executions rows spoken => rw [executions, spoken]; exact ⟨rfl, rfl⟩
  | @alter id f minor =>
    refine ⟨rfl, ?_⟩
    rw [execution?_alter]
    split
    · rw [Option.map_map]
      congr 1
      funext x
      simp [Execution.remains, minor.status, minor.error, minor.path, minor.logs]
    · rfl
  | say running =>
    have other := running.ne stored past
    exact ⟨filter_spoken_of_ne v _ other, by rw [execution?_say, if_neg other]⟩
  | @mark id node x seconds resumeAt running =>
    have other := running.ne stored past
    exact ⟨filter_spoken_of_ne (v.mark id node resumeAt) _ other, by
      rw [execution?_say, if_neg other]; rfl⟩
  | @summarize id node text x mine =>
    have other : k ≠ id := fun same => strange (same ▸ mine)
    exact ⟨filter_spoken_of_ne v _ other, by rw [execution?_say, if_neg other]⟩
  | enter running =>
    exact ⟨rfl, by rw [execution?_alter, if_neg (running.ne stored past)]⟩
  | fail running closes =>
    have other := running.ne stored past
    exact ⟨filter_spoken_of_ne v _ other, by
      rw [execution?_fail, if_neg other, execution?_say, if_neg other]⟩
  | @cancel id x running =>
    have other := running.ne stored past
    rw [spoken_cancel running.known, execution?_cancel, if_neg other, List.filter_append]
    simp [Remark.spoken, Ne.symm other]
  | @complete id x running =>
    have other := running.ne stored past
    rw [spoken_complete running.known, execution?_complete, if_neg other, List.filter_append]
    simp [Remark.spoken, Ne.symm other]
  | @enrol x r next unknown unstored =>
    have other : k ≠ x.id := fun same => by simp [← same, stored] at unstored
    exact ⟨rfl, by rw [execution?_enrol, if_neg other]⟩
  | @revive x r there running =>
    have other : k ≠ x.id := fun same => past (by
      obtain rfl := Option.some.inj (stored.symm.trans (same ▸ there))
      exact running)
    exact ⟨rfl, by simp [Scene.revive, other]⟩
  | abandon => exact ⟨rfl, rfl⟩

end Move

namespace Moves

variable {own : String → Prop} {v w : Scene} {k : String} {row : Store.ExecutionRow}

theorem grows (moves : Moves own v w) : w.registry = v.registry ∧ v.spoken <+: w.spoken ∧
    ((v.row? k).isSome → (w.row? k).isSome) := by
  induction moves with
  | refl => exact ⟨rfl, List.prefix_rfl, id⟩
  | tail _ move ih =>
    obtain ⟨registry, spoken, stored⟩ := move.grows (k := k)
    exact ⟨registry.trans ih.1, ih.2.1.trans spoken, fun there => stored (ih.2.2 there)⟩

theorem lawful (moves : Moves own v w) (lawful : v.Lawful k) : w.Lawful k := by
  induction moves with
  | refl => exact lawful
  | tail _ move ih => exact move.lawful ih

theorem silent (moves : Moves own v w) (stored : v.row? k = some row) (past : row.status ≠ .running)
    (strange : ¬own k) : w.row? k = some row ∧
      w.spoken.filter (·.execution == k) = v.spoken.filter (·.execution == k) ∧
      (w.execution? k).map Execution.remains = (v.execution? k).map Execution.remains := by
  induction moves with
  | refl => exact ⟨stored, rfl, rfl⟩
  | tail _ move ih =>
    obtain ⟨there, spoken, remains⟩ := ih
    obtain ⟨told, left⟩ := move.silent there past strange
    exact ⟨move.keeps there past, told.trans spoken, left.trans remains⟩

end Moves

namespace Events

open Scene

variable {v w : Scene} {k : String} {row : Store.ExecutionRow}

/-- An event finds nothing of an execution that is over to go on with. -/
theorem silent (events : Events v w) (orderly : v.Orderly) (stored : v.row? k = some row)
    (past : row.status ≠ .running) : w.row? k = some row ∧
      w.spoken.filter (·.execution == k) = v.spoken.filter (·.execution == k) ∧
      (w.execution? k).map Execution.remains = (v.execution? k).map Execution.remains := by
  refine (events.induct (p := fun u => u.row? k = some row ∧
    u.spoken.filter (·.execution == k) = v.spoken.filter (·.execution == k) ∧
    (u.execution? k).map Execution.remains = (v.execution? k).map Execution.remains) orderly
    ⟨stored, rfl, rfl⟩ fun u t event orderly before => ?_).2
  obtain ⟨there, spoken, remains⟩ := before
  have timers : ∀ s ∈ u.clock.timers, s.execution ≠ k := by
    have none : (u.aspect [] [] k).timers = [] := by
      cases orderly.account.stands k with
      | absent h => exact h.nothing.1
      | living x h =>
        obtain ⟨r, here, running⟩ := h.row
        obtain rfl := Option.some.inj (here.symm.trans there)
        exact absurd running past
      | dormant h => exact h.timers.1
      | past h => exact h.nothing.1
    intro s pending
    simpa using List.filter_eq_nil_iff.1 none s pending
  have new (n : Nat) (later : u.next ≤ n) : idText n ≠ k := by
    intro same
    have unstored := (orderly.proper.fresh n later).2
    simp [same, there] at unstored
  have moves : Moves (· ≠ k) u t := event.moves orderly timers new
  obtain ⟨row, told, left⟩ := moves.silent there past fun other => other rfl
  exact ⟨row, told.trans spoken, left.trans remains⟩

theorem moves (events : Events v w) (orderly : v.Orderly) : Moves (fun _ => True) v w :=
  (events.induct (p := Moves (fun _ => True) v) orderly .refl fun _ _ event orderly before =>
    before.trans (event.moves orderly (fun _ _ => trivial) fun _ _ => trivial)).2

end Events

namespace Engine

/-- What is stored of an execution. -/
def stored? (e : Engine) (id : String) : Option Store.ExecutionRow := e.storage.tables.execution? id

/-- What the process log tells of an execution. -/
def wordsOf (e : Engine) (id : String) : List Spoken :=
  e.storage.journal.spoken.filter (·.execution == id)

variable {e : Engine}

theorem Fresh.lawful (fresh : e.Fresh) (id : String) : e.scene.Lawful id where
  cancelled := by
    simp [scene, Storage.part, fresh.spoken, Scene.status?, Store.execution?, fresh.rows]
  completed _ := by
    simp [scene, Storage.part, fresh.spoken, Scene.status?, Store.execution?, fresh.rows]
  ended x known := by simp [scene, execution?, fresh.executions] at known

end Engine

end Runbook
