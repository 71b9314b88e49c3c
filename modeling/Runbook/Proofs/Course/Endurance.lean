import Runbook.Proofs.Course.Guarded
import Runbook.Proofs.Course.Sequel

/-!
Whatever is asked of an engine keeps its ledger sound, while sessions may be refused: executions are
started and cancelled, timers fire, and after a restart the markers that are left are taken up.
-/
namespace Runbook.Engine

variable {α β : Type} {e t : Engine} {l : Ledger} {id : String} {x : Stand} {busy : List String}
  {picked : List Timer}

/-! Executions begin. -/

/-- An execution becomes live with one branch, under an id that no later execution gets. -/
theorem Guards.begin (guards : e.Guards l) {x : Execution} (stand : x.stand = ⟨true, 1, []⟩)
    (early : ∀ n, e.storage.nextId ≤ n → idText n ≠ x.id) :
    { e.putExecution x with live := e.live ++ [x.id] }.Guards (l.begin x.id) := by
  refine .of_fields guards.mild guards.accepting (fun k => ?_) (congrArg (· ++ [x.id]) guards.live)
    guards.timers guards.next guards.markers (fun n late => ?_) guards.unclaimed
  · change ((e.putExecution x).execution? k).map Execution.stand = _
    rw [execution?_replace]
    by_cases same : k = x.id
    · simp [Ledger.begin, Ledger.put, same, stand]
    · simp only [if_neg same, Ledger.begin, Ledger.put]
      exact guards.stand k
  · simp only [Ledger.begin, Ledger.put, if_neg (early n late)]
    exact guards.fresh n late

/-- An execution that cannot run fails at once. -/
theorem guarded_stillborn (guarded : e.Guarded (id :: busy) picked) (message : String) :
    Ends (do
      logError id message ""
      fail id message) e (fun _ t => t.Guarded busy picked) fun _ t => t.Guarded busy picked := by
  obtain ⟨l, attending, rfl, guards, sound⟩ := guarded
  have attended : id ∈ l.busy := attending ▸ .head _
  refine Ends.bind ((guards_log guards (sound.attended id attended) _ _ _).imp ?_ fun _ _ h => h.elim)
  intro _ t guards
  refine (guards_fail guards sound attended message).imp ?_ ?_ <;>
  · rintro _ u ⟨guarded, past⟩
    rw [attending] at guarded
    exact guarded.release past

theorem guarded_submit {launch : Launch} (safely : Safely launch) (guarded : e.Guarded (id :: busy) picked)
    (node : String) :
    Ends (submit launch id node) e (fun _ t => t.Guarded busy picked) fun _ t => t.Guarded busy picked := by
  refine Ends.bind (Ends.get_iff.2 (Ends.ite_iff.2 ⟨fun _ => ?_, fun _ => guarded_stillborn guarded _⟩))
  have known : (e.execution? id).isSome := by
    obtain ⟨l, attending, rfl, guards, sound⟩ := guarded
    obtain ⟨x, known⟩ := Option.isSome_iff_exists.1 (sound.attended id (attending ▸ .head _))
    obtain ⟨y, there, -⟩ := guards.execution known
    exact Option.isSome_of_eq_some there
  refine (guarded_runBranch (fun t guarded => ?_) guarded known _).imp (fun _ _ h => h) fun _ _ h => h.elim
  exact Keeps.bind (keeps_execution (List.mem_cons_self ..))
    (fun x => keeps_walk safely (List.mem_cons_self ..) (depthOf x) node) t guarded

theorem keeps_startExecution {launch : Launch} (safely : Safely launch) (w : Workflow) (payload module item : Value) :
    Keeps (Guarded busy picked) (startExecution launch w payload module item) := by
  refine .bind (.ofExcept _) fun payload => ?_
  rintro e ⟨l, rfl, rfl, guards, sound⟩
  refine Ends.bind (ends_storage.2 ((Storage.ends_createExecution_mild guards.mild _ _ _ _ _).imp ?_
    fun _ s stays => (guards.stays stays).guarded sound))
  rintro _ s ⟨n, late, early, rfl, stays⟩
  have new := guards.fresh n late
  have still : idText n ∉ l.live := fun live => by
    obtain ⟨x, known, -⟩ := sound.living _ live
    rw [new] at known
    cases known
  have free : idText n ∉ l.busy := fun attended => by
    have known := sound.attended _ attended
    rw [new] at known
    cases known
  have unpicked : ∀ t ∈ l.picked, t.execution ≠ idText n := fun t there same => by
    have known := sound.known t (List.mem_append_right _ there)
    rw [same, new] at known
    cases known
  refine Ends.bind (Ends.modify_iff.2 (Ends.bind (Ends.modify_iff.2 ?_)))
  have begun : Guards _ (l.begin (idText n)) := (guards.stays stays).begin (x := .opening (idText n) w module item payload
    (initialVariables payload w.vars)) rfl fun m later same =>
      absurd (Scene.idText_inj same) (Nat.ne_of_gt (Nat.lt_of_lt_of_le early later))
  have sound := sound.begin still free unpicked
  refine Ends.bind ((guards_note begun).imp ?_ fun _ _ h => h.elim)
  intro _ t guards
  refine Ends.bind ((guards_log guards (by simp [Ledger.begin, Ledger.put]) _ _ _).imp ?_
    fun _ _ h => h.elim)
  intro _ u guards
  have started : u.Guarded (idText n :: l.busy) l.picked := guards.guarded sound
  cases w.trigger? with
  | none =>
    refine Ends.bind ((Ends.bind_iff.1 (guarded_stillborn started _)).imp (fun _ _ failing => ?_)
      fun _ _ h => h)
    exact Ends.bind (failing.imp (fun _ _ h => h) fun _ _ h => h)
  | some trigger =>
    exact Ends.bind ((guarded_submit safely started trigger.id).imp (fun _ _ h => h) fun _ _ h => h)

theorem safely_launchAt (depth : Nat) : Safely (launchAt depth) := by
  induction depth with
  | zero => exact fun _ _ _ _ => .throw _
  | succ depth ih =>
    exact fun _ _ workflow payload => .bind (keeps_quiet (Storage.quiet_loadWorkflow _)) fun w =>
      keeps_startExecution ih w payload _ _

theorem safely_launch : Safely launch := safely_launchAt nesting

theorem keeps_execute (workflow : String) (payload module item : Value) :
    Keeps (Guarded busy picked) (execute workflow payload module item) :=
  .bind (keeps_quiet (Storage.quiet_loadWorkflow _)) fun w =>
    keeps_startExecution safely_launch w payload module item

theorem keeps_onProgramError {I : Engine → Prop} {x : Run α} {handle : ProgramError → Run α}
    (first : Keeps I x) (next : ∀ p, Keeps I (handle p)) : Keeps I (onProgramError x handle) :=
  .tryCatch first fun f => by
    cases f with
    | program p => exact next p
    | _ => exact .throw _

theorem keeps_routeRow (event : Option String) (payload module item : Value) (row : Store.WorkflowRow) :
    Keeps (Guarded busy picked) (routeRow event payload module item row) := by
  refine .bind (keeps_onProgramError (.map (.ofExcept _)) fun p => .bind keeps_note fun _ => .pure _) ?_
  rintro (_ | w)
  · exact .pure _
  · refine .ite (fun _ => .pure _) fun _ => ?_
    exact keeps_onProgramError (.map (keeps_startExecution safely_launch w payload module item))
      fun p => .bind keeps_note fun _ => .pure _

theorem keeps_trigger (module : String) (event : Option String) (payload item : Value) :
    Keeps (Guarded busy picked) (trigger module event payload item) := by
  refine .bind (keeps_onProgramError (.map (keeps_quiet (.query _ _ _))) fun p =>
    .bind keeps_note fun _ => .pure _) ?_
  rintro (_ | rows)
  · exact .pure _
  · exact .bind (.mapM rows fun row => keeps_routeRow event payload _ item row) fun ids =>
      .bind keeps_note fun _ => .pure _

theorem keeps_cancelAll (workflow : String) : Keeps (Guarded busy picked) (cancelAll workflow) :=
  .get fun _ => .bind (.mapM _ keeps_cancel) fun _ => .pure _

/-! Timers fire. -/

/-- The first part of a continuation: its timer and its marker are given up. True when the execution
runs, so that the connections of the delay are followed. -/
def takeUp (t : Timer) : Run Bool := do
  modifyExecution t.execution fun x =>
    { x with timers := Execution.dropTimer x.timers t.node t.id }
  if (← isActive t.execution) then
    logInfo t.execution "Delay completed" t.node
    onStorageError (Storage.clearMarker t.marker) fun e =>
      note .error logger ("Failed to clear delay marker " ++ toString t.marker ++
        " of execution " ++ t.execution ++ ": " ++ e.text) []
    return true
  else return false

theorem continueAfter_eq (t : Timer) : continueAfter t = (do
    if (← takeUp t) then
      follow (walk launch t.execution (depthOf (← execution t.execution))) t.execution t.node) := by
  unfold continueAfter takeUp
  rw [bind_assoc]
  congr 1
  funext _
  rw [bind_assoc]
  congr 1
  funext active
  cases active with
  | false => rfl
  | true => simp

/-- A log entry leaves the outages of other operations as they are. -/
theorem keeps_refuses {other : String} (apart : other ≠ "append execution log") (b : Bool)
    (level : LogLevel) (id message node : String) :
    Keeps (fun e => e.storage.refuses other = b) (log level id message node) := by
  have change (f : Engine → Engine) (same : ∀ e, (f e).storage.outages = e.storage.outages) :
      Keeps (fun e => e.storage.refuses other = b) (modify f) := fun e holds => by
    have kept : (f e).storage.refuses other = e.storage.refuses other := by
      unfold Storage.refuses
      rw [same]
    exact Ends.modify_iff.2 (kept.trans holds)
  refine .bind (.get fun e => ?_) fun x => .bind (change _ (by intro; rfl)) fun _ =>
    .bind (change _ (by intro; rfl)) fun _ => .get fun e => .ite (fun _ => ?_) fun _ => .pure _
  · cases e.execution? id with
    | some x => exact .pure _
    | none => exact .throw _
  · refine .tryCatch (fun e holds => ?_) fun f => ?_
    · exact ends_storage.2 ((Storage.refuses_appendLog apart _ _ _).imp (fun _ _ same => same.trans holds)
        fun _ _ same => same.trans holds)
    · cases f with
      | program p => exact .ite (fun _ => change _ (by intro; rfl)) fun _ => .throw _
      | _ => exact .throw _

/-- A continuation is taken up once: its marker is there, and afterwards it is gone together with the
timer, unless the session that deletes it was refused. -/
theorem guarded_takeUp {s : Timer} (guarded : e.Guarded busy (s :: picked)) :
    Ends (takeUp s) e
      (fun b t => t.Guarded (s.execution :: busy) picked ∧ (b = true →
        (∃ r ∈ e.storage.tables.markers, r.id = s.marker ∧ r.execution = s.execution ∧ r.node = s.node) ∧
        (e.storage.refuses "clear delay marker" = true ∨
          ∀ r ∈ t.storage.tables.markers, r.id ≠ s.marker)))
      fun _ t => t.Guarded (s.execution :: busy) picked := by
  obtain ⟨l, rfl, due, guards, sound⟩ := guarded
  have present : s ∈ l.set ++ l.picked := List.mem_append_right _ (due ▸ .head _)
  obtain ⟨x, known⟩ := Option.isSome_iff_exists.1 (sound.known s present)
  have taken := sound.take known due
  have unarmed : Ends (modifyExecution s.execution fun x =>
      { x with timers := Execution.dropTimer x.timers s.node s.id }) e
      (fun _ t => t.Guards (l.put s.execution (x.unarm s.node s.id)) ∧ t.storage = e.storage) never :=
    Ends.modify_iff.2 ⟨guards.putExecution (h := fun x => x.unarm s.node s.id) (by intro; rfl)
      (by intro; rfl) known, rfl⟩
  refine Ends.bind (unarmed.imp ?_ fun _ _ h => h.elim)
  rintro _ t ⟨put, storage⟩
  have guards' : t.Guards (l.take s x picked) := put.aside (s.execution :: l.busy) picked
  have here : (l.take s x picked).stand? s.execution = some (x.unarm s.node s.id) := by
    simp [Ledger.take, Ledger.put]
  obtain ⟨y, there, stand⟩ := guards'.execution here
  have active : y.isActive = x.active := congrArg Stand.active stand
  refine Ends.bind ((ends_isActive there).imp ?_ fun _ _ h => h.elim)
  rintro _ t ⟨rfl, rfl⟩
  refine Ends.ite_iff.2 ⟨fun running => ?_, fun _ => Ends.pure_iff.2
    ⟨guards'.guarded taken, fun no => by cases no⟩⟩
  obtain ⟨live, holds⟩ := sound.holds_of_picked (due ▸ .head _) known (active.symm.trans running)
  have marked := holds.marked s (Ledger.mem_own.2 ⟨present, rfl⟩)
  rw [← guards.markers] at marked
  have apart : "clear delay marker" ≠ "append execution log" := by decide
  refine Ends.bind (((guards_log guards' (by rw [here]; rfl) _ _ _).and
    (keeps_refuses apart (e.storage.refuses "clear delay marker") _ _ _ _ t
    (congrArg (·.refuses "clear delay marker") storage))).imp
    ?_ fun _ _ h => h.1.elim)
  rintro _ u ⟨guards', before⟩
  refine Ends.bind (ends_onStorageError.2 (ends_storage.2
    ((Storage.ends_clearMarker_mild guards'.mild s.marker).imp ?_ ?_)))
  · rintro _ v ⟨markers, later, mild⟩
    have left : v.tables.markers = l.markers.filter fun m => (m.id : Int) != s.marker :=
      markers.trans (by rw [guards'.markers]; rfl)
    have cleared := guards'.storage mild later fun r there => .inl (List.mem_filter.1 (left ▸ there)).1
    rw [left] at cleared
    have distinct : ∀ t ∈ l.set ++ picked, t ≠ s := by
      rintro t listed rfl
      have all := (due ▸ List.perm_middle : (l.set ++ l.picked).Perm (t :: (l.set ++ picked)))
      have once := ((all.map _).nodup_iff).1 sound.numbers
      exact (List.nodup_cons.1 once).1 (List.mem_map_of_mem listed)
    refine Ends.pure_iff.2 ⟨cleared.guarded (taken.filterMarkers _ ?_),
      fun _ => ⟨marked, .inr fun r there same => ?_⟩⟩
    · intro t there alive r row number whose
      have old : t ∈ l.set ++ l.picked := by
        rcases List.mem_append.1 there with set | rest
        · exact List.mem_append_left _ set
        · exact List.mem_append_right _ (due ▸ .tail _ rest)
      have other : r.id ≠ s.marker := fun same => distinct t there
        (sound.eq_of_marker old present alive live (number.symm.trans same))
      exact bne_iff_ne.2 fun same => other (Int.ofNat_inj.1 same)
    · have kept := (List.mem_filter.1 (left ▸ there)).2
      simp [same] at kept
  · rintro f v ⟨stays, refused⟩
    refine ⟨?_, fun _ => (guards'.stays stays).guarded taken⟩
    rintro p rfl kind
    refine (guards_note (guards'.stays stays)).imp (fun _ w guards => ?_) fun _ _ h => h.elim
    exact Ends.pure_iff.2 ⟨guards.guarded taken,
      fun _ => ⟨marked, .inl (before ▸ refused ⟨p, rfl, kind⟩)⟩⟩

theorem guarded_fire {s : Timer} (guarded : e.Guarded busy (s :: picked)) :
    Ends (fire s) e (fun _ t => t.Guarded busy picked) never := by
  have found : (e.execution? s.execution).isSome ∧ e.accepting = true := by
    obtain ⟨l, rfl, due, guards, sound⟩ := guarded
    obtain ⟨x, known⟩ := Option.isSome_iff_exists.1
      (sound.known s (List.mem_append_right _ (due ▸ .head _)))
    obtain ⟨y, there, -⟩ := guards.execution known
    exact ⟨Option.isSome_of_eq_some there, guards.accepting⟩
  refine Ends.bind (Ends.get_iff.2 (Ends.ite_iff.2 ⟨fun _ => ?_, fun closed => absurd found.2 closed⟩))
  refine guarded_runBranch (fun t guarded => ?_) guarded found.1 _
  rw [continueAfter_eq]
  refine Ends.bind ((guarded_takeUp guarded).imp (fun b u taken => ?_) fun _ _ h => h)
  cases b with
  | false => exact taken.1
  | true =>
    exact Keeps.bind (keeps_execution (List.mem_cons_self ..)) (fun x => keeps_follow safely_launch
      (List.mem_cons_self ..) (depthOf x) s.node) u taken.1

/-- The clock moves, and the timers that are due are about to fire. -/
theorem Guarded.pick (guarded : e.Guarded [] []) (now : Float) :
    Guarded [] (e.clock.moveTo now).1 { e with clock := (e.clock.moveTo now).2 } := by
  obtain ⟨l, busy, unpicked, guards, sound⟩ := guarded
  have all : ((e.clock.moveTo now).2.timers ++ (e.clock.moveTo now).1).Perm l.set := by
    have due : (e.clock.moveTo now).1.Perm (e.clock.timers.filter fun t => decide (t.due ≤ now)) := by
      unfold Clock.moveTo
      rw [List.partition_eq_filter_filter]
      exact sortBy_perm _ _
    rw [← guards.timers, Clock.timers_moveTo]
    exact List.perm_append_comm.trans ((due.append_right _).trans (List.filter_append_perm _ _))
  refine ⟨{ l with set := (e.clock.moveTo now).2.timers, picked := (e.clock.moveTo now).1 }, busy, rfl,
    ?_, sound.pick unpicked all⟩
  exact .of_fields guards.mild guards.accepting guards.stand guards.live rfl guards.next guards.markers
    guards.fresh guards.unclaimed

theorem guarded_fireAll (ts : List Timer) (guarded : e.Guarded busy ts) :
    Ends (ts.forM fire) e (fun _ t => t.Guarded busy []) never := by
  induction ts generalizing e with
  | nil => exact guarded
  | cons s rest ih => exact Ends.bind ((guarded_fire guarded).imp (fun _ _ guarded => ih guarded) fun _ _ h => h)

theorem guarded_moveTo (guarded : e.Guarded [] []) (now : Float) :
    Ends (moveTo now) e (fun _ t => t.Guarded [] []) never :=
  Ends.bind (Ends.get_iff.2 (Ends.bind (Ends.modify_iff.2 (guarded_fireAll _ (guarded.pick now)))))

/-! A new engine takes up what waits. -/

theorem ends_dropTimers (known : (e.execution? id).isSome) :
    Ends (dropTimers id) e (fun _ t => t.storage = e.storage ∧
      ∀ k, (t.execution? k).isSome = (e.execution? k).isSome) never := by
  obtain ⟨y, there⟩ := Option.isSome_iff_exists.1 known
  refine Ends.bind ((ends_execution there).imp ?_ fun _ _ h => h)
  rintro _ t ⟨rfl, rfl⟩
  refine Ends.bind (Ends.modify_iff.2 (Ends.modify_iff.2 ⟨rfl, fun k => ?_⟩))
  change (Engine.execution? { t with executions := t.executions.map fun x : Execution =>
    if x.id == id then { x with timers := [] } else x } k).isSome = _
  rw [execution?_modify (by intro; rfl)]
  split
  · exact Option.isSome_map
  · rfl

theorem ends_dropTimersAll {ids : List String} (known : ∀ id ∈ ids, (e.execution? id).isSome) :
    Ends (ids.forM dropTimers) e (fun _ t => t.storage = e.storage ∧
      ∀ k, (t.execution? k).isSome = (e.execution? k).isSome) never := by
  induction ids generalizing e with
  | nil => exact ⟨rfl, fun _ => rfl⟩
  | cons id rest ih =>
    refine Ends.bind ((ends_dropTimers (known id (.head _))).imp ?_ fun _ _ h => h)
    rintro _ t ⟨storage, still⟩
    refine (ih fun k later => (still k).trans (known k (.tail _ later))).imp ?_ fun _ _ h => h
    rintro _ u ⟨same, again⟩
    exact ⟨same.trans storage, fun k => (again k).trans (still k)⟩

theorem guarded_restart (guarded : e.Guarded [] []) (now : Float) :
    Ends (restart now) e (fun _ t => t.Guarded [] []) never := by
  obtain ⟨l, -, -, guards, sound⟩ := guarded
  have quiet : ∀ id ∈ e.live, (e.execution? id).isSome := fun id listed => by
    obtain ⟨x, known, -⟩ := sound.living id (guards.live ▸ listed)
    obtain ⟨y, there, -⟩ := guards.execution known
    exact Option.isSome_of_eq_some there
  refine Ends.bind (Ends.bind (Ends.get_iff.2 (Ends.bind ((ends_dropTimersAll quiet).imp ?_
    fun _ _ h => h))))
  rintro _ t ⟨storage, known⟩
  refine Ends.bind (Ends.modify_iff.2 (Ends.modify_iff.2 (Ends.bind (Ends.modify_iff.2
    (Ends.modify_iff.2 ⟨{ l with
      stand? := fun k => (t.execution? k).map Execution.stand, next := 0, live := [], busy := [],
      set := [], picked := [] }, rfl, rfl, ?_, sound.restart⟩)))))
  refine .of_fields (storage ▸ guards.mild) rfl (fun _ => rfl) rfl rfl rfl
    ((congrArg (·.tables.markers) storage).trans guards.markers) (fun n late => ?_) fun n late => ?_
  · have late : e.storage.nextId ≤ n := storage ▸ late
    have absent := guards.fresh n late
    rw [← guards.stand, Option.map_eq_none_iff] at absent
    have still := known (idText n)
    rw [absent] at still
    simpa using still
  · exact guards.unclaimed n (storage ▸ late)

theorem keeps_guards {op : StorageM α} (quiet : Storage.Quiet op) :
    Keeps (fun e : Engine => e.Guards l) (liftM op : Run α) :=
  fun _ guards => guards_lift guards (quiet.stays guards.mild)

/-- Markers of an execution that is not live, with their rows. -/
structure Idle (l : Ledger) (id : String) (ms : List Store.Marker) : Prop where
  still : id ∉ l.live
  rows : ∀ m ∈ ms, m.execution = id ∧ ∃ r ∈ l.markers, r.id = m.id ∧ r.execution = id ∧ r.node = m.node
  distinct : (ms.map (·.id)).Nodup

/-- Markers that no timer of their execution is set for, with their rows. -/
structure Unset (l : Ledger) (id : String) (ms : List Store.Marker) : Prop where
  rows : ∀ m ∈ ms, m.execution = id ∧ ∃ r ∈ l.markers, r.id = m.id ∧ r.execution = id ∧ r.node = m.node
  distinct : (ms.map (·.id)).Nodup
  free : ∀ m ∈ ms, ∀ t ∈ l.own id, t.marker ≠ m.id

/-- What work for one execution leaves as it was: only this one may become live, and only markers of
its own may go. -/
structure Spares (l m : Ledger) (id : String) : Prop where
  busy : m.busy = l.busy
  picked : m.picked = l.picked
  live : ∀ k ∈ m.live, k = id ∨ k ∈ l.live
  others : ∀ r ∈ l.markers, r.execution ≠ id → r ∈ m.markers

/-- Markers that cannot be taken up are deleted. -/
theorem guards_discard (guards : e.Guards l) (sound : l.Sound) (still : id ∉ l.live) :
    Ends (liftM (Storage.clearMarkers id) : Run Nat) e
      (fun _ t => ∃ m : Ledger, t.Guards m ∧ m.Sound ∧ Spares l m id)
      fun _ t => t.Guarded l.busy l.picked := by
  refine ends_storage.2 ((Storage.ends_clearMarkers_mild guards.mild id).imp ?_
    fun _ s left => (guards.stays left.1).guarded sound)
  rintro _ s ⟨markers, later, mild⟩
  have left : s.tables.markers = l.markers.filter (·.execution != id) :=
    markers.trans (by rw [guards.markers])
  have stored := guards.storage mild later fun r there => .inl (List.mem_filter.1 (left ▸ there)).1
  rw [left] at stored
  refine ⟨_, stored, sound.filterMarkers _ fun t _ live r _ _ whose => ?_, rfl, rfl,
    fun k live => .inr live, fun r there other => List.mem_filter.2 ⟨there, by simpa using other⟩⟩
  have other : r.execution ≠ id := fun same => still (same ▸ whose ▸ live)
  simpa using other

theorem guards_findRecord (guards : e.Guards l) :
    Ends (findRecord id) e (fun _ t => t.Guards l) fun _ t => t.Guards l :=
  keeps_onProgramError (.map (keeps_guards (.query _ _ _)))
    (fun _ => .ite (fun _ => .pure _) fun _ => .throw _) e guards

theorem guards_tryWorkflow (guards : e.Guards l) (workflow : String) :
    Ends (onProgramError (Except.ok <$> (Storage.loadWorkflow workflow : Run Workflow))
      fun p => pure (.error p)) e
      (fun r t => t.Guards l ∧ ∀ w, r = .ok w → w.Sound) fun _ t => t.Guards l := by
  have read : Ends (Storage.loadWorkflow workflow : Run Workflow) e (fun w _ => w.Sound) fun _ _ => True :=
    ends_storage.2 (Storage.sound_loadWorkflow workflow _)
  have kept := keeps_guards (Storage.quiet_loadWorkflow workflow) e guards
  refine Ends.tryCatch_iff.2 (Ends.map_iff.2 ((kept.and read).imp ?_ ?_))
  · rintro w t ⟨guards, sound⟩
    refine ⟨guards, ?_⟩
    rintro _ ⟨⟩
    exact sound
  · rintro f t ⟨guards, -⟩
    cases f with
    | program p => exact Ends.pure_iff.2 ⟨guards, fun w no => by cases no⟩
    | _ => exact Ends.throw_iff.2 guards

/-- Markers make their execution live again, or are given up. -/
theorem guards_rebuild {first : Store.Marker} {rest : List Store.Marker} (guards : e.Guards l)
    (sound : l.Sound) (idle : Idle l id (first :: rest)) :
    Ends (rebuild id first (first :: rest)) e
      (fun r t => (r = none → ∃ m : Ledger, t.Guards m ∧ m.Sound ∧ Spares l m id) ∧
        (r ≠ none → t.Guards (l.begin id)))
      fun _ t => t.Guarded l.busy l.picked := by
  have discard : ∀ t : Engine, t.Guards l → Ends (do
        let _ ← (Storage.clearMarkers id : Run Nat)
        return (none : Option Execution)) t
      (fun r t => (r = none → ∃ m : Ledger, t.Guards m ∧ m.Sound ∧ Spares l m id) ∧
        (r ≠ none → t.Guards (l.begin id)))
      fun _ t => t.Guarded l.busy l.picked := fun t guards =>
    Ends.bind ((guards_discard guards sound idle.still).imp
      (fun _ _ left => Ends.pure_iff.2 ⟨fun _ => left, fun some => absurd rfl some⟩) fun _ _ h => h)
  refine Ends.bind ((guards_findRecord guards).imp ?_ fun _ _ guards => guards.guarded sound)
  rintro (_ | record) t guards
  · exact discard t guards
  refine Ends.ite_iff.2 ⟨fun _ => discard t guards, fun _ => ?_⟩
  refine Ends.bind ((guards_tryWorkflow guards _).imp ?_ fun _ _ guards => guards.guarded sound)
  rintro (p | w) u ⟨guards, proper⟩
  · refine Ends.bind ((guards_note guards).imp (fun _ v guards => ?_) fun _ _ h => h.elim)
    refine Ends.bind (Ends.bind ((guards_discard guards sound idle.still).imp ?_ fun _ _ h => h))
    rintro _ v ⟨m, guards, sound, spares⟩
    refine Ends.pure_iff.2 (Ends.bind (ends_storage.2
      ((Storage.stays_setExecutionStatus guards.mild _ _ _ _).imp ?_ ?_)))
    · intro _ s stays
      exact Ends.pure_iff.2 ⟨fun _ => ⟨m, guards.stays stays, sound, spares⟩, fun some => absurd rfl some⟩
    · intro _ s stays
      exact ⟨m, spares.busy, spares.picked, guards.stays stays, sound⟩
  · refine Ends.bind (ends_ofExcept.2 ⟨fun s read => ?_, fun _ _ => guards.guarded sound⟩)
    refine Ends.bind (ends_ofExcept.2 ⟨fun x absorbed => ?_, fun _ _ => guards.guarded sound⟩)
    refine Ends.bind (Ends.modify_iff.2 (Ends.bind (Ends.modify_iff.2 (Ends.pure_iff.2
      ⟨fun absent => (by cases absent), fun _ => ?_⟩))))
    have restored : x.Restored id (first :: rest) :=
      ⟨first, rest, w, s, rfl, proper w rfl, read, absorbed⟩
    have anew := restored.anew
    have others : u.live.filter (· != id) = u.live := by
      refine List.filter_eq_self.2 fun k there => ?_
      have other : k ≠ id := fun same => idle.still (guards.live ▸ same ▸ there)
      simpa using other
    have begun : Guards _ (l.begin x.id) := guards.begin (x := x)
      (by simp [Execution.stand, anew.active, anew.timers, anew.branches]) fun n late same => by
        obtain ⟨-, r, there, -, whose, -⟩ := idle.rows first (.head _)
        exact guards.unclaimed n late r there (whose.trans (anew.named.symm.trans same.symm))
    rw [anew.named] at begun
    change Engine.Guards { u.putExecution x with live := u.live.filter (· != id) ++ [id] } _
    rw [others]
    exact begun

/-- The timer of a marker is set again. -/
theorem guards_reschedule {m : Store.Marker} {rest : List Store.Marker} (guards : e.Guards l)
    (sound : l.Sound) (live : id ∈ l.live) (unset : Unset l id (m :: rest)) (now : Instant) :
    Ends (reschedule now m) e
      (fun _ t => ∃ k : Ledger, t.Guards k ∧ k.Sound ∧ k.busy = l.busy ∧ k.picked = l.picked ∧
        k.live = l.live ∧ k.markers = l.markers ∧ Unset k id rest) never := by
  obtain ⟨x, known, holds⟩ := sound.living id live
  obtain ⟨own, r, present, number, whose, node⟩ := unset.rows m (.head _)
  unfold reschedule
  dsimp only
  rw [own, ← number, ← node]
  refine Ends.bind ((guards_log guards (by rw [known]; rfl) _ _ _).imp ?_ fun _ _ h => h)
  intro _ t guards
  refine (guards_scheduleContinuation guards sound known present whose (fun _ => live)
    (fun _ t mine => number ▸ unset.free m (.head _) t mine) _).imp ?_ fun _ _ h => h
  rintro _ u ⟨k, guards, sound, busy, picked, live, markers, armed, -⟩
  obtain ⟨timer, same, all⟩ := armed holds.active
  obtain ⟨apart, distinct⟩ := List.nodup_cons.1 unset.distinct
  refine ⟨k, guards, sound, busy, picked, live, markers, fun q later => ?_, distinct, fun q later s mine => ?_⟩
  · rw [markers]
    exact unset.rows q (.tail _ later)
  · rcases List.mem_cons.1 (all.mem_iff.1 mine) with rfl | old
    · exact fun again => apart (List.mem_map.2 ⟨q, later, again.symm.trans (same.trans number)⟩)
    · exact unset.free q (.tail _ later) s old

theorem guards_rescheduleAll {ms : List Store.Marker} (guards : e.Guards l) (sound : l.Sound)
    (live : id ∈ l.live) (unset : Unset l id ms) (now : Instant) :
    Ends (ms.forM (reschedule now)) e
      (fun _ t => ∃ k : Ledger, t.Guards k ∧ k.Sound ∧ k.busy = l.busy ∧ k.picked = l.picked ∧
        k.live = l.live ∧ k.markers = l.markers) never := by
  induction ms generalizing e l with
  | nil => exact ⟨l, guards, sound, rfl, rfl, rfl, rfl⟩
  | cons m rest ih =>
    refine Ends.bind ((guards_reschedule guards sound live unset now).imp ?_ fun _ _ h => h)
    rintro _ t ⟨k, guards, sound, busy, picked, living, markers, unset⟩
    refine (ih guards sound (living ▸ live) unset).imp ?_ fun _ _ h => h
    rintro _ u ⟨n, guards, sound, busy', picked', living', markers'⟩
    exact ⟨n, guards, sound, busy'.trans busy, picked'.trans picked, living'.trans living,
      markers'.trans markers⟩

/-- The markers of one execution are taken up, and what others wait with is left alone. -/
theorem guards_resumeGroup {ms : List Store.Marker} (guards : e.Guards l) (sound : l.Sound)
    (idle : Idle l id ms) (unattended : l.busy = []) (unpicked : l.picked = []) (now : Instant) :
    Ends (resumeGroup now (id, ms)) e
      (fun _ t => ∃ m : Ledger, t.Guards m ∧ m.Sound ∧ Spares l m id) fun _ t => t.Guarded [] [] := by
  cases ms with
  | nil => exact ⟨l, guards, sound, rfl, rfl, fun _ live => .inr live, fun _ there _ => there⟩
  | cons first rest =>
    refine Ends.bind ((guards_rebuild guards sound idle).imp ?_ fun _ _ guarded => ?_)
    · rintro (_ | x) t ⟨given, begun⟩
      · exact Ends.pure_iff.2 (given rfl)
      have guards := begun (by simp)
      have revived := sound.begin idle.still (by simp [unattended]) (by simp [unpicked])
      have unset : Unset (l.begin id) id (first :: rest) := by
        refine ⟨idle.rows, idle.distinct, fun m _ t mine => ?_⟩
        obtain ⟨there, whose⟩ := Ledger.mem_own.1 mine
        have set : t ∈ l.set ++ l.picked := there
        rw [unpicked, List.append_nil] at set
        exact absurd whose ((sound.still id idle.still).1 t set)
      refine Ends.bind ((guards_rescheduleAll guards revived (List.mem_append_right _ (.head _)) unset
        now).imp ?_ fun _ _ h => h.elim)
      rintro _ u ⟨k, guards, sound, busy, picked, live, markers⟩
      refine Ends.bind ((guards_branchFinished guards sound (busy.trans (by rw [Ledger.begin, unattended]))).imp
        ?_ ?_)
      · rintro _ v ⟨m, guards, sound, none, same, fewer, rows⟩
        refine Ends.pure_iff.2 ⟨m, guards, sound, none.trans unattended.symm, same.trans picked, ?_, ?_⟩
        · intro j alive
          rcases List.mem_append.1 (live ▸ fewer alive) with old | new
          · exact .inr old
          · exact .inl (List.mem_singleton.1 new)
        · intro r there _
          rw [rows, markers]
          exact there
      · rintro _ v guarded
        rw [picked] at guarded
        change Guarded [] l.picked v at guarded
        rwa [unpicked] at guarded
    · rwa [unattended, unpicked] at guarded

theorem Spares.idle {m : Ledger} {k : String} {ms : List Store.Marker} (spares : Spares l m id)
    (other : k ≠ id) (idle : Idle l k ms) : Idle m k ms where
  still live := (spares.live k live).elim other idle.still
  rows q there := by
    obtain ⟨own, r, present, number, whose, node⟩ := idle.rows q there
    exact ⟨own, r, spares.others r present (whose ▸ other), number, whose, node⟩
  distinct := idle.distinct

theorem guarded_resumeGroups {gs : List (String × List Store.Marker)} (guards : e.Guards l)
    (sound : l.Sound) (unattended : l.busy = []) (unpicked : l.picked = [])
    (distinct : (gs.map (·.1)).Nodup) (idle : ∀ g ∈ gs, Idle l g.1 g.2) (now : Instant) :
    Ends (gs.mapM (resumeGroup now)) e (fun _ t => t.Guarded [] []) fun _ t => t.Guarded [] [] := by
  induction gs generalizing e l with
  | nil =>
    rw [List.mapM_nil]
    exact Ends.pure_iff.2 ⟨l, unattended, unpicked, guards, sound⟩
  | cons g rest ih =>
    rw [List.mapM_cons]
    rw [List.map_cons, List.nodup_cons] at distinct
    refine Ends.bind ((guards_resumeGroup guards sound (idle g (.head _)) unattended unpicked now).imp ?_
      fun _ _ h => h)
    rintro _ t ⟨m, guards, sound, spares⟩
    refine Ends.bind ((ih guards sound (spares.busy.trans unattended) (spares.picked.trans unpicked)
      distinct.2 fun other later => ?_).imp (fun _ _ guarded => Ends.pure_iff.2 guarded) fun _ _ h => h)
    refine spares.idle (fun same => distinct.1 ?_) (idle other (.tail _ later))
    exact same ▸ List.mem_map_of_mem later

theorem idle_groups {ms : List Store.Marker} (sound : l.Sound)
    (listed : (ms.map fun m => (m.id, m.execution, m.node)).Perm
      (l.markers.map fun m => (m.id, m.execution, m.node))) {g : String × List Store.Marker}
    (group : g ∈ groupMarkers (ms.filter fun m => !l.live.contains m.execution)) :
    Idle l g.1 g.2 := by
  obtain ⟨own, some⟩ := (groups_groupMarkers _).2.1 g group
  have part : g.2.Sublist ms := own ▸ List.filter_sublist.trans List.filter_sublist
  have mine : ∀ m ∈ g.2, m.execution = g.1 ∧ m.execution ∉ l.live := fun m there => by
    obtain ⟨wanted, whose⟩ := List.mem_filter.1 (own ▸ there)
    exact ⟨by simpa using whose, by simpa using (List.mem_filter.1 wanted).2⟩
  refine ⟨?_, fun m there => ⟨(mine m there).1, ?_⟩, ?_⟩
  · obtain ⟨m, there⟩ := List.exists_mem_of_ne_nil _ some
    exact (mine m there).1 ▸ (mine m there).2
  · obtain ⟨r, present, same⟩ := List.mem_map.1
      (listed.mem_iff.1 (List.mem_map.2 ⟨m, part.subset there, rfl⟩))
    simp only [Prod.mk.injEq] at same
    exact ⟨r, present, same.1, same.2.1.trans (mine m there).1, same.2.2⟩
  · have numbers := listed.map Prod.fst
    rw [List.map_map, List.map_map] at numbers
    exact (part.map _).nodup (numbers.nodup_iff.2 sound.rows)

theorem guarded_resume (guarded : e.Guarded [] []) :
    Ends resume e (fun _ t => t.Guarded [] []) fun _ t => t.Guarded [] [] := by
  obtain ⟨l, busy, picked, guards, sound⟩ := guarded
  refine Ends.bind (Ends.get_iff.2 (Ends.bind (ends_storage.2
    ((Storage.ends_query_mild guards.mild _ _ _).imp ?_ fun _ s stays =>
      ⟨l, busy, picked, guards.stays stays, sound⟩))))
  rintro ms s ⟨read, stays⟩
  have listed := Storage.perm_of_sortedMarkers read
  rw [List.filter_true, guards.markers] at listed
  have live := guards.live
  have guards := guards.stays stays
  refine Ends.bind (Ends.get_iff.2 (Ends.bind (ends_ofExcept.2 ⟨fun now _ => ?_, fun _ _ =>
    ⟨l, busy, picked, guards, sound⟩⟩)))
  refine Ends.bind ((guarded_resumeGroups guards sound busy picked (groups_groupMarkers _).1
    (fun g group => idle_groups sound listed (live ▸ group)) now).imp ?_ fun _ _ h => h)
  intro counts t guarded
  dsimp only
  refine Ends.ite_iff.2 ⟨fun _ => ?_, fun _ => guarded⟩
  exact Keeps.bind keeps_note (fun _ => .pure _) t guarded

end Runbook.Engine
