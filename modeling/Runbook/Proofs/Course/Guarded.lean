import Runbook.Proofs.Course.Twins
import Runbook.Proofs.Course.Outages
import Runbook.Proofs.Course.Ledger
import Runbook.Proofs.Course.History

/-!
The engine keeps its ledger sound while sessions may be refused. Nothing that a branch runs into on
its way can be lost between the steps that belong together: a log entry never fails, whatever becomes
of it in store, and an execution that has come to its end is not live any more even when its end
could not be written down.
-/
namespace Runbook

/-- What the ledger holds of an execution. -/
def Execution.stand (x : Execution) : Stand := ⟨x.isActive, x.branches, x.timers⟩

namespace Engine

/-- The ledger of an engine, while branches run and timers are about to fire. -/
def ledger (e : Engine) (busy : List String) (picked : List Timer) : Ledger where
  stand? id := (e.execution? id).map Execution.stand
  live := e.live
  busy := busy
  set := e.clock.timers
  picked := picked
  next := e.clock.nextTimer
  markers := e.storage.tables.markers

/-- An engine whose storage fails with storage errors only, and whose ledger is this one. -/
structure Guards (e : Engine) (l : Ledger) : Prop where
  mild : e.storage.Mild
  accepting : e.accepting = true
  ledger : e.ledger l.busy l.picked = l
  fresh : ∀ n, e.storage.nextId ≤ n → l.stand? (idText n) = none
  unclaimed : ∀ n, e.storage.nextId ≤ n → ∀ r ∈ l.markers, r.execution ≠ idText n

/-- Its ledger is sound, while these branches run and these timers are about to fire. -/
def Guarded (busy : List String) (picked : List Timer) (e : Engine) : Prop :=
  ∃ l : Ledger, l.busy = busy ∧ l.picked = picked ∧ e.Guards l ∧ l.Sound

variable {α : Type} {e t : Engine} {l : Ledger} {id : String} {x : Stand} {busy : List String}
  {picked : List Timer}

namespace Guards

theorem guarded (guards : e.Guards l) (sound : l.Sound) : e.Guarded l.busy l.picked :=
  ⟨l, rfl, rfl, guards, sound⟩

theorem execution (guards : e.Guards l) (known : l.stand? id = some x) :
    ∃ y, e.execution? id = some y ∧ y.stand = x := by
  rw [← guards.ledger] at known
  exact Option.map_eq_some_iff.1 known

theorem live (guards : e.Guards l) : e.live = l.live := congrArg Ledger.live guards.ledger

theorem timers (guards : e.Guards l) : e.clock.timers = l.set := congrArg Ledger.set guards.ledger

theorem next (guards : e.Guards l) : e.clock.nextTimer = l.next := congrArg Ledger.next guards.ledger

theorem markers (guards : e.Guards l) : e.storage.tables.markers = l.markers :=
  congrArg Ledger.markers guards.ledger

theorem stand (guards : e.Guards l) (k : String) : (e.execution? k).map Execution.stand = l.stand? k :=
  congrFun (congrArg Ledger.stand? guards.ledger) k

/-- A ledger is told field by field. -/
theorem of_fields {m : Ledger} (mild : t.storage.Mild) (accepting : t.accepting = true)
    (stand : ∀ k, (t.execution? k).map Execution.stand = m.stand? k) (live : t.live = m.live)
    (set : t.clock.timers = m.set) (next : t.clock.nextTimer = m.next)
    (markers : t.storage.tables.markers = m.markers)
    (fresh : ∀ n, t.storage.nextId ≤ n → m.stand? (idText n) = none)
    (unclaimed : ∀ n, t.storage.nextId ≤ n → ∀ r ∈ m.markers, r.execution ≠ idText n) :
    t.Guards m := by
  refine ⟨mild, accepting, ?_, fresh, unclaimed⟩
  obtain ⟨stand?, live, busy, set, picked, next, markers⟩ := m
  simp only [Engine.ledger, Ledger.mk.injEq]
  exact ⟨funext stand, live, trivial, set, trivial, next, markers⟩

/-- What runs and what is about to fire stands in the ledger only. -/
theorem aside (guards : e.Guards l) (busy : List String) (picked : List Timer) :
    e.Guards { l with busy, picked } :=
  of_fields guards.mild guards.accepting guards.stand guards.live guards.timers guards.next
    guards.markers guards.fresh guards.unclaimed

theorem stays (guards : e.Guards l) {s : Storage} (stays : e.storage.Stays s) :
    { e with storage := s }.Guards l :=
  of_fields (stays.mild guards.mild) guards.accepting guards.stand guards.live guards.timers
    guards.next (stays.markers.trans guards.markers)
    (fun n late => guards.fresh n (Nat.le_trans stays.later late))
    fun n late => guards.unclaimed n (Nat.le_trans stays.later late)

/-- The same with other markers, of executions that are known. -/
theorem storage (guards : e.Guards l) {s : Storage} (mild : s.Mild) (later : e.storage.nextId ≤ s.nextId)
    (rows : ∀ r ∈ s.tables.markers, r ∈ l.markers ∨ (l.stand? r.execution).isSome) :
    { e with storage := s }.Guards { l with markers := s.tables.markers } := by
  refine of_fields mild guards.accepting guards.stand guards.live guards.timers guards.next rfl
    (fun n late => guards.fresh n (Nat.le_trans later late)) fun n late r there same => ?_
  rcases rows r there with old | known
  · exact guards.unclaimed n (Nat.le_trans later late) r old same
  · rw [same, guards.fresh n (Nat.le_trans later late)] at known
    cases known

theorem putExecution (guards : e.Guards l) {f : Execution → Execution} (keeps : ∀ x, (f x).id = x.id)
    {h : Stand → Stand} (stands : ∀ x, (f x).stand = h x.stand) (known : l.stand? id = some x) :
    { e with executions := e.executions.map fun x : Execution => if x.id == id then f x else x }.Guards
      (l.put id (h x)) := by
  refine of_fields guards.mild guards.accepting (fun k => ?_) guards.live guards.timers guards.next
    guards.markers (fun n late => ?_) guards.unclaimed
  · rw [execution?_modify keeps]
    by_cases same : k = id
    · subst same
      obtain ⟨y, held, rfl⟩ := guards.execution known
      simp [Ledger.put, held, stands]
    · simp only [Ledger.put, if_neg same]
      exact guards.stand k
  · have other : idText n ≠ id := fun same => by
      have none := guards.fresh n late
      rw [same, known] at none
      cases none
    simp only [Ledger.put, if_neg other]
    exact guards.fresh n late

end Guards

/-! The elementary operations. -/

theorem guards_lift {op : StorageM α} (guards : e.Guards l)
    (known : Ends op e.storage (fun _ s => e.storage.Stays s) fun _ s => e.storage.Stays s) :
    Ends (liftM op : Run α) e (fun _ t => t.Guards l) fun _ t => t.Guards l :=
  ends_storage.2 (known.imp (fun _ _ stays => guards.stays stays) fun _ _ stays => guards.stays stays)

theorem guards_note {level : Level} {logger message : String} {context : Dict} (guards : e.Guards l) :
    Ends (note level logger message context) e (fun _ t => t.Guards l) never :=
  Ends.modify_iff.2 (guards.stays (.of_eq rfl rfl rfl))

theorem ends_execution {y : Execution} (known : e.execution? id = some y) :
    Ends (execution id) e (fun z t => z = y ∧ t = e) never := by
  unfold Ends
  rw [execution_of_known known]
  exact ⟨rfl, rfl⟩

theorem ends_isActive {y : Execution} (known : e.execution? id = some y) :
    Ends (isActive id) e (fun b t => b = y.isActive ∧ t = e) never :=
  Ends.bind ((ends_execution known).imp (fun _ _ ⟨here, same⟩ => Ends.pure_iff.2 ⟨here ▸ rfl, same⟩)
    fun _ _ h => h)

theorem guards_modify (guards : e.Guards l) {f : Execution → Execution} (keeps : ∀ x, (f x).id = x.id)
    {h : Stand → Stand} (stands : ∀ x, (f x).stand = h x.stand) (known : l.stand? id = some x) :
    Ends (modifyExecution id f) e (fun _ t => t.Guards (l.put id (h x))) never :=
  Ends.modify_iff.2 (guards.putExecution keeps stands known)

/-- Work on the data of the walk is nothing to the ledger. -/
theorem guards_alter (guards : e.Guards l) {f : Execution → Execution} (keeps : ∀ x, (f x).id = x.id)
    (stands : ∀ x, (f x).stand = x.stand) (known : (l.stand? id).isSome) :
    Ends (modifyExecution id f) e (fun _ t => t.Guards l) never := by
  obtain ⟨x, held⟩ := Option.isSome_iff_exists.1 known
  have changed := guards_modify (h := fun x => x) guards keeps stands held
  rwa [Ledger.put_self held] at changed

/-- A log entry may be lost in store, but never fails. -/
theorem guards_log (guards : e.Guards l) (known : (l.stand? id).isSome) (level : LogLevel)
    (message node : String) : Ends (log level id message node) e (fun _ t => t.Guards l) never := by
  obtain ⟨x, held⟩ := Option.isSome_iff_exists.1 known
  obtain ⟨y, there, -⟩ := guards.execution held
  refine Ends.bind ((ends_execution there).imp ?_ fun _ _ h => h)
  rintro _ _ ⟨rfl, rfl⟩
  refine Ends.bind ((guards_alter guards (by intro; rfl) (by intro; rfl) known).imp ?_ fun _ _ h => h)
  intro _ t guards
  refine Ends.bind ((guards_note guards).imp ?_ fun _ _ h => h)
  intro _ u guards
  refine Ends.bind (Ends.get_iff.2 (Ends.ite_iff.2 ⟨fun _ => ?_, fun _ => guards⟩))
  refine ends_onStorageError.2 (ends_storage.2 ((Storage.ends_appendLog_mild guards.mild _ _ _).imp
    (fun _ s stays => guards.stays stays) ?_))
  rintro f s ⟨stays, p, rfl, kind⟩
  refine ⟨?_, fun none => absurd kind (none p rfl)⟩
  rintro q ⟨⟩ -
  exact guards_note (guards.stays stays)

/-- The end of an execution makes it known as over, in any case. -/
theorem guards_finalize (guards : e.Guards l) (known : (l.stand? id).isSome) :
    Ends (finalize id) e (fun _ t => t.Guards { l with live := l.live.filter (· != id) })
      fun _ t => t.Guards { l with live := l.live.filter (· != id) } := by
  obtain ⟨x, held⟩ := Option.isSome_iff_exists.1 known
  obtain ⟨y, there, -⟩ := guards.execution held
  have last : ∀ (u : Engine), u.Guards l → Ends (do
        modifyExecution id fun x => { x with done := true }
        modify fun e => { e with live := e.live.filter (· != id) }
        note .info logger ("Execution " ++ id ++ " finished with status " ++ y.status.name) []) u
      (fun _ t => t.Guards { l with live := l.live.filter (· != id) }) never := by
    intro u guards
    refine Ends.bind ((guards_alter guards (by intro; rfl) (by intro; rfl) known).imp ?_ fun _ _ h => h)
    intro _ t guards
    refine Ends.bind (Ends.modify_iff.2 (guards_note ?_))
    exact .of_fields guards.mild guards.accepting guards.stand
      (congrArg (List.filter (· != id)) guards.live) guards.timers guards.next guards.markers
      guards.fresh guards.unclaimed
  refine Ends.bind ((ends_execution there).imp ?_ fun _ _ h => h.elim)
  rintro _ _ ⟨rfl, rfl⟩
  refine ends_andAlways.2 ((?_ : Ends _ _ (fun _ t => t.Guards l) fun _ t => t.Guards l).imp
    (fun _ t guards => (last t guards).imp (fun _ _ h => h) fun _ _ h => h.elim)
    fun _ t guards => (last t guards).imp (fun _ _ h => h) fun _ _ h => h.elim)
  refine ends_onStorageError.2 (ends_storage.2 ((Storage.stays_setExecutionStatus guards.mild _ _ _ _).imp
    (fun _ s stays => guards.stays stays) fun f s stays => ⟨fun p _ _ => ?_, fun _ => guards.stays stays⟩))
  exact (guards_note (guards.stays stays)).imp (fun _ _ h => h) fun _ _ h => h.elim

/-- The timers of an execution are taken off the clock, and its markers deleted or left. -/
theorem guards_dropPending (guards : e.Guards l) (known : l.stand? id = some x) :
    Ends (dropPending id) e (fun _ t => ∃ rows : List Store.MarkerRow, rows.Sublist l.markers ∧
      (∀ r ∈ l.markers, r.execution ≠ id → r ∈ rows) ∧
      t.Guards { l.put id { x with timers := [] } with
        set := l.set.filter fun t => !x.numbers.contains t.id, markers := rows })
      never := by
  obtain ⟨y, there, stand⟩ := guards.execution known
  have numbers : y.timers.flatMap (·.2) = x.numbers := congrArg Stand.numbers stand
  refine Ends.bind (Ends.bind ((ends_execution there).imp ?_ fun _ _ h => h))
  rintro _ _ ⟨rfl, rfl⟩
  refine Ends.bind ((guards_modify (h := fun x => { x with timers := [] }) guards (by intro; rfl)
    (by intro; rfl) known).imp ?_ fun _ _ h => h)
  intro _ t guards
  refine Ends.modify_iff.2 ?_
  rw [numbers]
  have cancelled : { t with clock := t.clock.cancel x.numbers }.Guards
      { l.put id { x with timers := [] } with
        set := l.set.filter fun t => !x.numbers.contains t.id } :=
    .of_fields guards.mild guards.accepting guards.stand guards.live
      (congrArg (List.filter fun s : Timer => !x.numbers.contains s.id) guards.timers)
      guards.next guards.markers guards.fresh guards.unclaimed
  refine ends_onStorageError.2 (Ends.bind (ends_storage.2 ((Storage.ends_clearMarkers_mild
    cancelled.mild id).imp ?_ ?_)))
  · rintro _ s ⟨markers, later, mild⟩
    refine Ends.pure_iff.2 ⟨l.markers.filter (·.execution != id), List.filter_sublist, ?_, ?_⟩
    · exact fun r there other => List.mem_filter.2 ⟨there, by simpa using other⟩
    · have before : t.storage.tables.markers = l.markers := guards.markers
      have left : s.tables.markers = l.markers.filter (·.execution != id) := markers.trans (by rw [before])
      have stored := cancelled.storage mild later fun r there => .inl (List.mem_filter.1 (left ▸ there)).1
      rwa [left] at stored
  · rintro f s ⟨stays, p, rfl, kind⟩
    refine ⟨?_, fun none => absurd kind (none p rfl)⟩
    rintro q ⟨⟩ -
    exact (guards_note (cancelled.stays stays)).imp
      (fun _ _ guards => ⟨l.markers, .refl _, fun _ there _ => there, guards⟩) fun _ _ h => h

/-! An execution comes to its end. -/

/-- What is written down last: nothing is waited for, and the execution is not live any more. -/
theorem Guards.closed {rows : List Store.MarkerRow} {y : Stand} (guards : e.Guards { l.put id y with
      live := l.live.filter (· != id), set := l.set.filter fun t => !x.numbers.contains t.id
      markers := rows })
    (sound : l.Sound) (holds : l.Holds id x) : e.Guards (l.close id y rows) := by
  have own : (l.set.filter fun t => !x.numbers.contains t.id) =
      l.set.filter (·.execution != id) := by
    refine List.filter_congr fun t there => ?_
    have mine := sound.mem_pending holds (List.mem_append_left l.picked there)
    by_cases whose : t.execution = id <;> simp [mine, whose]
  rw [own] at guards
  exact guards

/-- It fails, unless it is over already; afterwards it is over in any case. -/
theorem guards_fail (guards : e.Guards l) (sound : l.Sound) (attended : id ∈ l.busy)
    (message : String) :
    Ends (fail id message) e
      (fun _ t => t.Guarded l.busy l.picked ∧ ∀ y, t.execution? id = some y → y.isActive = false)
      fun _ t => t.Guarded l.busy l.picked ∧ ∀ y, t.execution? id = some y → y.isActive = false := by
  obtain ⟨x, known⟩ := Option.isSome_iff_exists.1 (sound.attended id attended)
  obtain ⟨y, there, stand⟩ := guards.execution known
  have active : y.isActive = x.active := congrArg Stand.active stand
  refine Ends.bind ((ends_isActive there).imp ?_ fun _ _ h => h.elim)
  rintro _ _ ⟨rfl, rfl⟩
  refine Ends.ite_iff.2 ⟨fun running => ?_, fun past => ?_⟩
  · obtain ⟨-, holds⟩ := sound.holds_of_busy attended known (active.symm.trans running)
    refine Ends.bind ((guards_modify (h := fun x => { x with active := false }) guards (by intro; rfl)
      (by intro; rfl) known).imp ?_ fun _ _ h => h.elim)
    intro _ t guards
    refine Ends.bind ((guards_dropPending (x := { x with active := false }) guards
      (by simp [Ledger.put])).imp ?_ fun _ _ h => h.elim)
    rintro _ u ⟨rows, fewer, others, guards⟩
    rw [Ledger.put_put] at guards
    have closed : ∀ t : Engine, t.Guards { l.put id ⟨false, x.branches, []⟩ with
          live := l.live.filter (· != id), set := l.set.filter fun t => !x.numbers.contains t.id
          markers := rows } →
        t.Guarded l.busy l.picked ∧ ∀ y, t.execution? id = some y → y.isActive = false := by
      intro t guards
      refine ⟨(guards.closed sound holds).guarded (sound.close rfl fewer others), fun y there => ?_⟩
      have stand := guards.stand id
      rw [there] at stand
      have same : y.stand = ⟨false, x.branches, []⟩ := by simpa [Ledger.put] using stand
      exact congrArg Stand.active same
    exact (guards_finalize guards (by simp [Ledger.put])).imp (fun _ t guards => closed t guards)
      fun _ t guards => closed t guards
  · refine ⟨guards.guarded sound, fun z known => ?_⟩
    rw [there] at known
    cases known
    exact Bool.eq_false_iff.2 past

theorem guards_cancel (guards : e.Guards l) (sound : l.Sound) :
    Ends (cancel id) e (fun _ t => t.Guarded l.busy l.picked) fun _ t => t.Guarded l.busy l.picked := by
  refine Ends.bind (Ends.get_iff.2 ?_)
  cases found : e.liveExecution? id with
  | none =>
    refine Ends.bind ((guards_note guards).imp (fun _ t guards => ?_) fun _ _ h => h.elim)
    exact Ends.pure_iff.2 (guards.guarded sound)
  | some y =>
    have live : id ∈ l.live ∧ e.execution? id = some y := by
      unfold liveExecution? at found
      split at found
      · rename_i live
        exact ⟨guards.live ▸ List.contains_iff_mem.1 live, found⟩
      · cases found
    obtain ⟨live, there⟩ := live
    obtain ⟨x, known, holds⟩ := sound.living id live
    have stand : y.stand = x := by
      have same := guards.stand id
      rw [there, known] at same
      exact Option.some.inj same
    have active : y.isActive = true := (congrArg Stand.active stand).trans holds.active
    simp only [active, Bool.not_true, Bool.false_eq_true, if_false]
    refine Ends.bind ((guards_modify (h := fun x => { x with active := false }) guards (by intro; rfl)
      (by intro; rfl) known).imp ?_ fun _ _ h => h.elim)
    intro _ t guards
    refine Ends.bind ((guards_dropPending (x := { x with active := false }) guards
      (by simp [Ledger.put])).imp ?_ fun _ _ h => h.elim)
    rintro _ u ⟨rows, fewer, others, guards⟩
    rw [Ledger.put_put] at guards
    have closed : ∀ t : Engine, t.Guards { l.put id ⟨false, x.branches, []⟩ with
        live := l.live.filter (· != id), set := l.set.filter fun t => !x.numbers.contains t.id
        markers := rows } → t.Guarded l.busy l.picked := fun t guards =>
      (guards.closed sound holds).guarded (sound.close rfl fewer others)
    refine Ends.bind ((guards_log guards (by simp [Ledger.put]) _ _ _).imp ?_ fun _ _ h => h.elim)
    intro _ v guards
    refine Ends.bind ((guards_finalize guards (by simp [Ledger.put])).imp ?_ fun _ t guards => closed t guards)
    intro _ w guards
    refine Ends.bind ((guards_note guards).imp (fun _ t guards => ?_) fun _ _ h => h.elim)
    exact Ends.pure_iff.2 (closed t guards)

/-- A branch is counted off; the last one of a running execution completes it. No marker is touched. -/
theorem guards_branchFinished (guards : e.Guards l) (sound : l.Sound) (attending : l.busy = id :: busy) :
    Ends (branchFinished id) e
      (fun _ t => ∃ m : Ledger, t.Guards m ∧ m.Sound ∧ m.busy = busy ∧ m.picked = l.picked ∧
        m.live ⊆ l.live ∧ m.markers = l.markers)
      fun _ t => t.Guarded busy l.picked := by
  obtain ⟨x, known⟩ := Option.isSome_iff_exists.1 (sound.attended id (attending ▸ .head _))
  obtain ⟨y, there, stand⟩ := guards.execution known
  have active : y.isActive = x.active := congrArg Stand.active stand
  have branches : y.branches = x.branches := congrArg Stand.branches stand
  have counted := sound.countOff known attending
  refine Ends.bind ((ends_execution there).imp ?_ fun _ _ h => h.elim)
  rintro _ _ ⟨rfl, rfl⟩
  rw [branches, active]
  cases last : decide (x.branches - 1 ≤ 0) && x.active with
  | false =>
    refine Ends.bind ((guards_modify (h := Stand.countOff) guards (by intro; rfl) (by intro; rfl)
      known).imp ?_ fun _ _ h => h.elim)
    intro _ t guards
    exact Ends.pure_iff.2 ⟨l.countOff id x busy, guards.aside busy l.picked, counted, rfl, rfl,
      fun _ there => there, rfl⟩
  | true =>
    obtain ⟨few, running⟩ := Bool.and_eq_true_iff.1 last
    have few : x.branches - 1 ≤ 0 := of_decide_eq_true few
    obtain ⟨-, holds⟩ := sound.holds_of_busy (attending ▸ .head _) known running
    have none : l.own id = [] := by
      have branches := holds.branches
      rw [attending, List.count_cons_self] at branches
      exact List.eq_nil_of_length_eq_zero (by omega)
    let m := (l.countOff id x busy).close id ⟨false, x.branches - 1, x.timers⟩ l.markers
    have completed : m.Sound := counted.close rfl (.refl _) fun _ there _ => there
    have closed : ∀ t : Engine, t.Guards { l.put id ⟨false, x.branches - 1, x.timers⟩ with
        live := l.live.filter (· != id) } → t.Guards m := by
      intro t guards
      have set : l.set.filter (·.execution != id) = l.set := by
        refine List.filter_eq_self.2 fun t there => ?_
        have others := List.filter_eq_nil_iff.1 none t (List.mem_append_left _ there)
        simpa using others
      have same : m = { l.put id ⟨false, x.branches - 1, x.timers⟩ with
            live := l.live.filter (· != id), busy } := by
        unfold m Ledger.countOff Ledger.close
        rw [Ledger.mk.injEq]
        refine ⟨funext fun k => ?_, rfl, rfl, set, rfl, rfl, rfl⟩
        by_cases same : k = id <;> simp [Ledger.put, same]
      rw [same]
      exact guards.aside busy l.picked
    refine Ends.bind ((guards_modify (h := fun x => ⟨false, x.branches - 1, x.timers⟩) guards
      (by intro; rfl) (by intro; rfl) known).imp ?_ fun _ _ h => h.elim)
    intro _ t guards
    simp only [if_true]
    refine Ends.bind ((guards_log guards (by simp [Ledger.put]) _ _ _).imp ?_ fun _ _ h => h.elim)
    intro _ u guards
    refine (guards_finalize guards (by simp [Ledger.put])).imp ?_ fun _ t guards =>
      (closed t guards).guarded completed
    intro _ t guards
    exact ⟨m, closed t guards, completed, rfl, rfl, fun _ there => (List.mem_filter.1 there).1, rfl⟩

/-! A branch ends at a delay. -/

/-- A timer is set for a marker that is there and that no other timer has. -/
theorem guards_scheduleContinuation (guards : e.Guards l) (sound : l.Sound) (known : l.stand? id = some x)
    {r : Store.MarkerRow} (present : r ∈ l.markers) (whose : r.execution = id)
    (live : x.active = true → id ∈ l.live)
    (free : x.active = true → ∀ t ∈ l.own id, t.marker ≠ r.id) (seconds : Float) :
    Ends (scheduleContinuation id r.node seconds r.id) e
      (fun _ t => ∃ m : Ledger, t.Guards m ∧ m.Sound ∧ m.busy = l.busy ∧ m.picked = l.picked ∧
        m.live = l.live ∧ m.markers = l.markers ∧
        (x.active = true → ∃ timer : Timer, timer.marker = r.id ∧ (m.own id).Perm (timer :: l.own id)) ∧
        ∃ y, m.stand? id = some y ∧ y.active = x.active) never := by
  obtain ⟨y, there, stand⟩ := guards.execution known
  have active : y.isActive = x.active := congrArg Stand.active stand
  refine Ends.bind ((ends_isActive there).imp ?_ fun _ _ h => h)
  rintro _ t ⟨rfl, rfl⟩
  rw [active]
  refine Ends.ite_iff.2 ⟨fun running => ?_, fun past => ?_⟩
  · refine Ends.bind (Ends.get_iff.2 (Ends.bind (Ends.modify_iff.2 ?_)))
    have armed := sound.arm (live running) known present whose (free running)
      (t.clock.now + seconds)
    refine Ends.modify_iff.2 ⟨l.arm id x r.node r.id (t.clock.now + seconds), ?_, armed, rfl, rfl, rfl, rfl,
      fun _ => ⟨Timer.mk l.next (t.clock.now + seconds) id r.node r.id, rfl, ?_⟩,
      ⟨x.arm r.node l.next, by simp [Ledger.arm, Ledger.put], rfl⟩⟩
    · have clock : { t with clock := (t.clock.schedule seconds id r.node r.id).2 }.Guards
          { l with
            set := l.set ++ [Timer.mk l.next (t.clock.now + seconds) id r.node r.id]
            next := l.next + 1 } :=
        .of_fields guards.mild guards.accepting guards.stand guards.live
          (by simp only [Clock.schedule, guards.timers, guards.next])
          (by simp only [Clock.schedule, guards.next]) guards.markers guards.fresh guards.unclaimed
      refine clock.putExecution (h := fun x => x.arm r.node l.next) (by intro; rfl) (fun y => ?_) known
      simp only [Execution.stand, Stand.arm, guards.next]
      rfl
    · have all : ((l.set ++ [Timer.mk l.next (t.clock.now + seconds) id r.node r.id]) ++ l.picked).Perm
          (Timer.mk l.next (t.clock.now + seconds) id r.node r.id :: (l.set ++ l.picked)) := by
        rw [List.append_assoc, List.singleton_append]
        exact List.perm_middle
      have filtered := all.filter (·.execution == id)
      rwa [List.filter_cons_of_pos (by simp)] at filtered
  · exact Ends.pure_iff.2 ⟨l, guards, sound, rfl, rfl, rfl, rfl, fun running => absurd running past,
      x, known, rfl⟩

theorem guards_runDelay (guards : e.Guards l) (sound : l.Sound) (attended : id ∈ l.busy) (n : Node)
    (amount : Value) (unit : String) :
    Ends (runDelay id n amount unit) e (fun _ t => t.Guarded l.busy l.picked)
      fun _ t => t.Guarded l.busy l.picked := by
  obtain ⟨x, known⟩ := Option.isSome_iff_exists.1 (sound.attended id attended)
  obtain ⟨y, there, stand⟩ := guards.execution known
  refine Ends.bind ((ends_execution there).imp ?_ fun _ _ h => h.elim)
  rintro z t ⟨rfl, rfl⟩
  refine Ends.bind (ends_ofExcept.2 ⟨fun seconds _ => ?_, fun _ _ => guards.guarded sound⟩)
  refine Ends.bind (Ends.get_iff.2 (Ends.bind (ends_ofExcept.2
    ⟨fun resumeAt _ => ?_, fun _ _ => guards.guarded sound⟩)))
  refine Ends.bind (ends_storage.2 ((Storage.ends_saveMarker_mild guards.mild _ _ _ _).imp ?_
    fun _ s stays => (guards.stays stays).guarded sound))
  rintro m s ⟨number, markers, later, mild⟩
  have new : m ∉ l.markers.map (·.id) := by
    intro taken
    obtain ⟨r, present, same⟩ := List.mem_map.1 taken
    exact absurd same (Nat.ne_of_lt (number ▸ Store.lt_nextMarker (guards.markers ▸ present)))
  let r : Store.MarkerRow := ⟨m, id, n.id, resumeAt, z.snapshot.stored⟩
  have rows : s.tables.markers = l.markers ++ [r] := markers.trans (by rw [guards.markers])
  have stored := guards.storage mild later fun q there => by
    rcases List.mem_append.1 (rows ▸ there) with old | new
    · exact .inl old
    · obtain rfl := List.mem_singleton.1 new
      exact .inr (by rw [known]; rfl)
  rw [rows] at stored
  have saved : { l with markers := l.markers ++ [r] }.Sound := sound.save new
  refine Ends.bind ((guards_log stored (by rw [known]; rfl) _ _ _).imp ?_ fun _ _ h => h.elim)
  intro _ u guards
  refine (guards_scheduleContinuation (r := r) guards saved known
    (List.mem_append_right _ (.head _)) rfl (fun running => ?_) (fun running t own same => ?_) seconds).imp
    ?_ fun _ _ h => h.elim
  · exact (sound.holds_of_busy attended known running).1
  · obtain ⟨-, holds⟩ := sound.holds_of_busy attended known running
    obtain ⟨row, present, same', -⟩ := holds.marked t own
    exact new (List.mem_map.2 ⟨row, present, same'.trans same⟩)
  · rintro _ v ⟨l', guards, sound, busy, picked, -⟩
    exact ⟨l', busy, picked, guards, sound⟩

/-! Pieces of work that keep the ledger sound. -/

theorem Guarded.release (guarded : e.Guarded (id :: busy) picked)
    (past : ∀ y, e.execution? id = some y → y.isActive = false) : e.Guarded busy picked := by
  obtain ⟨l, attending, rfl, guards, sound⟩ := guarded
  refine ⟨{ l with busy }, rfl, rfl, guards.aside busy l.picked, sound.release attending fun x known => ?_⟩
  obtain ⟨y, there, rfl⟩ := guards.execution known
  exact past y there

theorem keeps_guarded {op : Run α} (each : ∀ e l, Guards e l → l.Sound → l.busy = busy →
      l.picked = picked → Ends op e (fun _ t => t.Guarded l.busy l.picked)
        fun _ t => t.Guarded l.busy l.picked) : Keeps (Guarded busy picked) op := by
  rintro e ⟨l, rfl, rfl, guards, sound⟩
  exact each e l guards sound rfl rfl

/-- What never fails and leaves the ledger as it was. -/
theorem keeps_of_guards {op : Run α} (each : ∀ e l, Guards e l → l.Sound → l.busy = busy →
      Ends op e (fun _ t => t.Guards l) never) : Keeps (Guarded busy picked) op :=
  keeps_guarded fun e l guards sound attending _ => (each e l guards sound attending).imp
    (fun _ _ guards => guards.guarded sound) fun _ _ h => h.elim

theorem keeps_quiet {op : StorageM α} (quiet : Storage.Quiet op) :
    Keeps (Guarded busy picked) (liftM op : Run α) :=
  keeps_guarded fun _ _ guards sound _ _ => (guards_lift guards (quiet.stays guards.mild)).imp
    (fun _ _ guards => guards.guarded sound) fun _ _ guards => guards.guarded sound

theorem keeps_note {level : Level} {logger message : String} {context : Dict} :
    Keeps (Guarded busy picked) (note level logger message context) :=
  keeps_of_guards fun _ _ guards _ _ => guards_note guards

theorem keeps_log (attended : id ∈ busy) (level : LogLevel) (message node : String) :
    Keeps (Guarded busy picked) (log level id message node) :=
  keeps_of_guards fun _ _ guards sound attending =>
    guards_log guards (sound.attended id (attending ▸ attended)) level message node

theorem keeps_alter (attended : id ∈ busy) {f : Execution → Execution} (keeps : ∀ x, (f x).id = x.id)
    (stands : ∀ x, (f x).stand = x.stand) : Keeps (Guarded busy picked) (modifyExecution id f) :=
  keeps_of_guards fun _ _ guards sound attending =>
    guards_alter guards keeps stands (sound.attended id (attending ▸ attended))

theorem keeps_fail (attended : id ∈ busy) (message : String) :
    Keeps (Guarded busy picked) (fail id message) :=
  keeps_guarded fun _ _ guards sound attending _ =>
    (guards_fail guards sound (attending ▸ attended) message).imp (fun _ _ h => h.1) fun _ _ h => h.1

theorem keeps_cancel (id : String) : Keeps (Guarded busy picked) (cancel id) :=
  keeps_guarded fun _ _ guards sound _ _ => guards_cancel guards sound

theorem keeps_runDelay (attended : id ∈ busy) (n : Node) (amount : Value) (unit : String) :
    Keeps (Guarded busy picked) (runDelay id n amount unit) :=
  keeps_guarded fun _ _ guards sound attending _ =>
    guards_runDelay guards sound (attending ▸ attended) n amount unit

/-- Starts on behalf of actions keep the ledger sound. -/
def Safely (launch : Launch) : Prop :=
  ∀ busy picked workflow payload, Keeps (Guarded busy picked) (launch workflow payload)

theorem keeps_perform {launch : Launch} (safely : Safely launch) (r : Action.Request) :
    Keeps (Guarded busy picked) (perform launch r) := by
  cases r with
  | cancel other => exact keeps_cancel _
  | start workflow payload => exact safely _ _ _ _
  | createTicket draft => exact keeps_quiet (Storage.quiet_createTicket draft)
  | updateTicket ticket updates => exact keeps_quiet (Storage.quiet_updateTicket ticket updates)
  | assignTicket ticket assignee =>
    exact keeps_quiet (Storage.quiet_assignTicket ticket (.text assignee))
  | notify announcement => exact keeps_quiet (Storage.quiet_notify announcement)
  | createArticle draft => exact keeps_quiet (Storage.quiet_createArticle draft)
  | http method url headers body timeout =>
    refine .get fun _ => .bind (.ofExcept _) fun request => .get fun e => ?_
    refine .bind (keeps_of_guards fun _ _ guards _ _ => Ends.modify_iff.2 ?_) fun _ => .ofExcept _
    exact .of_fields guards.mild guards.accepting guards.stand guards.live guards.timers guards.next
      guards.markers guards.fresh guards.unclaimed

theorem keeps_script {launch : Launch} (safely : Safely launch) (attended : id ∈ busy)
    (script : Action.Script α) :
    Keeps (Guarded busy picked) (script.run (perform launch) (putVariable id)) := by
  induction script with
  | done a => exact .pure a
  | fail f => exact .throw f
  | put key value next ih => exact .bind (keeps_alter attended (by intro; rfl) (by intro; rfl)) fun _ => ih
  | ask r next ih => exact .bind (.observe (keeps_perform safely r)) ih

theorem keeps_execution (attended : id ∈ busy) : Keeps (Guarded busy picked) (execution id) :=
  keeps_guarded fun _ _ guards sound attending _ => by
    obtain ⟨x, known⟩ := Option.isSome_iff_exists.1 (sound.attended id (attending ▸ attended))
    obtain ⟨y, there, -⟩ := guards.execution known
    refine (ends_execution there).imp ?_ fun _ _ h => h.elim
    rintro _ _ ⟨-, rfl⟩
    exact guards.guarded sound

/-- A walk keeps the ledger sound, whatever its actions do and whatever is refused on the way. -/
theorem guide_guarded {launch : Launch} (safely : Safely launch) (attended : id ∈ busy) :
    Guide (fun e d => d = e ∧ e.Guarded busy picked) Eq {} launch launch id where
  execution := (keeps_execution attended).twins
  resembles x _ same := same ▸ .refl _ x
  roles _ _ _ _ _ := trivial
  leads _ _ _ _ _ _ := trivial
  worded _ _ := trivial
  limit _ _ related := by rw [related.1]
  say r _ := (keeps_log attended r.level r.message r.node).twins
  move f pace := (keeps_alter attended (by cases pace <;> intro <;> rfl)
    (by cases pace <;> intro <;> rfl)).twins
  forget x _ same := same ▸ (keeps_alter attended (by intro; rfl) (by intro; rfl)).twins
  act n actionType _ _ := (Keeps.get fun _ => .bind (keeps_execution attended) fun _ =>
    keeps_script safely attended _).twins
  delay n amount unit _ _ _ := (keeps_runDelay attended n amount unit).twins.before fun _ _ related => related.1
  fail text := (keeps_fail attended text).twins

theorem keeps_walk {launch : Launch} (safely : Safely launch) (attended : id ∈ busy) (depth : Nat)
    (node : String) : Keeps (Guarded busy picked) (walk launch id depth node) :=
  .of_twin ((guide_guarded safely attended).walk depth trivial)

theorem keeps_follow {launch : Launch} (safely : Safely launch) (attended : id ∈ busy) (depth : Nat)
    (node : String) : Keeps (Guarded busy picked) (follow (walk launch id depth) id node) :=
  .of_twin ((guide_guarded safely attended).follow
    (fun _ => (guide_guarded safely attended).walk depth) fun _ _ _ _ _ => trivial)

/-- A branch runs to its end, and whatever comes up in it is taken up. -/
theorem guarded_runBranch {busy' : List String} {picked' : List Timer} {branch : Run Unit}
    (run : ∀ e, e.Guarded busy' picked' → Ends branch e (fun _ t => t.Guarded (id :: busy) picked)
      fun _ t => t.Guarded (id :: busy) picked)
    (guarded : e.Guarded busy' picked') (known : (e.execution? id).isSome) (report : String) :
    Ends (runBranch id report branch) e (fun _ t => t.Guarded busy picked) never := by
  have binding {b : List String} {p : List Timer} (t : Engine) (d : Dict) (guarded : t.Guarded b p) :
      Guarded b p { t with storage := { t.storage with journal := { t.storage.journal with bound := d } } } := by
    obtain ⟨l, rfl, rfl, guards, sound⟩ := guarded
    have bound : Guards _ l := guards.stays (s := { t.storage with
      journal := { t.storage.journal with bound := d } }) (.of_eq rfl rfl rfl)
    exact bound.guarded sound
  refine ends_branch report binding binding run keeps_note (fun text =>
    keeps_fail (List.mem_cons_self ..) text) ?_ guarded known
  rintro t ⟨l, attending, rfl, guards, sound⟩
  refine (guards_branchFinished guards sound attending).imp ?_ fun _ _ h => h
  rintro _ u ⟨m, guards, sound, busy, picked, -⟩
  exact ⟨m, busy, picked, guards, sound⟩

end Engine

end Runbook
