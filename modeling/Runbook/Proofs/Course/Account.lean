import Mathlib.Data.List.Nodup
import Runbook.Proofs.Course.Timers

/-!
Accounts. Of each execution the account tells where it stands: not begun, live, waiting for the
engine to take it up again, or over. A live execution waits for as many branches as it has timers
and branches that run at the moment, and each of its timers has a marker of its own in store. What
is said of one execution speaks only of its own aspect of a scene, so that a change of one leaves
the accounts of the others alone.
-/
namespace Runbook

/-- What a scene holds of one execution. -/
structure Aspect where
  execution? : Option Execution
  row? : Option Store.ExecutionRow
  live : Bool
  /-- How many of its branches run at the moment. -/
  busy : Nat
  /-- Its timers on the clock. -/
  timers : List Timer
  /-- Its timers that were taken off the clock and are about to fire. -/
  picked : List Timer
  markers : List Store.MarkerRow

/-- The aspect of one execution, while branches run and timers are about to fire. -/
def Scene.aspect (v : Scene) (busy : List String) (picked : List Timer) (id : String) : Aspect where
  execution? := v.execution? id
  row? := v.row? id
  live := v.live.contains id
  busy := busy.count id
  timers := v.clock.timers.filter (·.execution == id)
  picked := picked.filter (·.execution == id)
  markers := v.markers.filter (·.execution == id)

namespace Aspect

/-- There is no such execution. -/
structure Absent (a : Aspect) : Prop where
  unknown : a.execution? = none
  unstored : a.row? = none
  still : a.live = false ∧ a.busy = 0
  nothing : a.timers = [] ∧ a.picked = [] ∧ a.markers = []

/-- An execution is live, and its branches, timers and markers match. -/
structure Living (a : Aspect) (x : Execution) : Prop where
  known : a.execution? = some x
  active : x.isActive = true
  live : a.live = true
  row : ∃ row, a.row? = some row ∧ row.status = .running
  timers : x.pending.Perm ((a.timers ++ a.picked).map fun t => (t.node, t.id))
  markers : (a.markers.map fun m => (m.id, m.node)).Perm
    ((a.timers ++ a.picked).map fun t => (t.marker, t.node))
  branches : x.branches = a.busy + (a.timers ++ a.picked).length
  waiting : 1 ≤ x.branches

/-- An execution has markers and waits to be taken up again. -/
structure Dormant (a : Aspect) : Prop where
  row : ∃ row, a.row? = some row ∧ row.status = .running
  still : a.live = false ∧ a.busy = 0
  timers : a.timers = [] ∧ a.picked = []
  markers : a.markers ≠ []

/-- An execution is over. -/
structure Over (a : Aspect) : Prop where
  row : ∃ row, a.row? = some row ∧ row.status ≠ .running
  live : a.live = false
  nothing : a.timers = [] ∧ a.markers = []
  idle : ∀ x, a.execution? = some x → x.isActive = true → a.busy = 0 ∧ a.picked = []

/-- Every execution stands in one of four ways. -/
inductive Stands (a : Aspect) : Prop where
  | absent (h : a.Absent)
  | living (x : Execution) (h : a.Living x)
  | dormant (h : a.Dormant)
  | past (h : a.Over)

variable {a : Aspect} {x : Execution}

/-- An execution that runs a branch and has not ended is live. -/
theorem Stands.living_of_busy (stands : a.Stands) (busy : a.busy ≠ 0)
    (known : a.execution? = some x) (active : x.isActive = true) : a.Living x := by
  cases stands with
  | absent h => exact absurd h.still.2 busy
  | living y h =>
    obtain rfl : y = x := Option.some.inj (h.known.symm.trans known)
    exact h
  | dormant h => exact absurd h.still.2 busy
  | past h => exact absurd (h.idle x known active).1 busy

theorem Stands.living_of_live (stands : a.Stands) (live : a.live = true) : ∃ x, a.Living x := by
  cases stands with
  | absent h => simp [h.still.1] at live
  | living x h => exact ⟨x, h⟩
  | dormant h => simp [h.still.1] at live
  | past h => simp [h.live] at live

/-- The order of the markers does not matter. -/
theorem Stands.perm {markers : List Store.MarkerRow} (stands : a.Stands) (same : markers.Perm a.markers) :
    { a with markers }.Stands := by
  cases stands with
  | absent h =>
    have none : markers = [] := List.perm_nil.1 (h.nothing.2.2 ▸ same)
    exact .absent ⟨h.unknown, h.unstored, h.still, h.nothing.1, h.nothing.2.1, none⟩
  | living x h =>
    exact .living x ⟨h.known, h.active, h.live, h.row, h.timers, (same.map _).trans h.markers,
      h.branches, h.waiting⟩
  | dormant h =>
    exact .dormant ⟨h.row, h.still, h.timers, fun none => h.markers (List.nil_perm.1 (none ▸ same))⟩
  | past h =>
    have none : markers = [] := List.perm_nil.1 (h.nothing.2 ▸ same)
    exact .past ⟨h.row, h.live, ⟨h.nothing.1, none⟩, h.idle⟩

/-- Work on the data of the walk leaves an execution where it stands. -/
theorem Stands.alter {f : Execution → Execution} (stands : a.Stands)
    (status : ∀ x, (f x).status = x.status) (timers : ∀ x, (f x).timers = x.timers)
    (branches : ∀ x, (f x).branches = x.branches) :
    { a with execution? := a.execution?.map f }.Stands := by
  cases stands with
  | absent h => exact .absent ⟨by simp [h.unknown], h.unstored, h.still, h.nothing⟩
  | living x h =>
    refine .living (f x) ⟨by simp [h.known], ?_, h.live, h.row, ?_, h.markers, ?_, ?_⟩
    · simpa [Execution.isActive, status] using h.active
    · simpa [Execution.pending, timers] using h.timers
    · simpa [branches] using h.branches
    · simpa [branches] using h.waiting
  | dormant h => exact .dormant ⟨h.row, h.still, h.timers, h.markers⟩
  | past h =>
    refine .past ⟨h.row, h.live, h.nothing, fun y known active => ?_⟩
    obtain ⟨x, held, rfl⟩ := Option.map_eq_some_iff.1 known
    exact h.idle x held (by simpa [Execution.isActive, status] using active)

end Aspect

/-- The account of a scene: each execution stands somewhere, and no two timers and no two markers
have the same number. -/
structure Scene.Accounted (busy : List String) (picked : List Timer) (v : Scene) : Prop where
  stands : ∀ id, (v.aspect busy picked id).Stands
  timers : ((v.clock.timers ++ picked).map (·.id)).Nodup
  numbered : ∀ t ∈ v.clock.timers ++ picked, t.id < v.clock.nextTimer
  markers : (v.markers.map (·.id)).Nodup

namespace Scene

variable {v w : Scene} {busy : List String} {picked : List Timer} {id : String} {x : Execution}

/-- A scene with the same clock and the same markers is accounted for when each execution is. -/
theorem Accounted.of_stands (account : v.Accounted busy picked) (clock : w.clock = v.clock)
    (markers : w.markers = v.markers) (stands : ∀ id, (w.aspect busy picked id).Stands) :
    w.Accounted busy picked :=
  ⟨stands, clock ▸ account.timers, clock ▸ account.numbered, markers ▸ account.markers⟩

/-- Work on the data of the walk keeps the account. -/
theorem Accounted.alter {i : String} {f : Execution → Execution} (account : v.Accounted busy picked)
    (status : ∀ x, (f x).status = x.status) (timers : ∀ x, (f x).timers = x.timers)
    (branches : ∀ x, (f x).branches = x.branches) : (v.alter i f).Accounted busy picked := by
  refine account.of_stands rfl rfl fun k => ?_
  by_cases same : k = i
  · have own : (v.alter i f).aspect busy picked k =
        { v.aspect busy picked k with execution? := (v.aspect busy picked k).execution?.map f } := by
      simp [aspect, same]
    rw [own]
    exact (account.stands k).alter status timers branches
  · have other : (v.alter i f).aspect busy picked k = v.aspect busy picked k := by
      simp [aspect, same]
    rw [other]
    exact account.stands k

theorem Accounted.say {i : String} (account : v.Accounted busy picked) (r : Remark) :
    (v.say i r).Accounted busy picked :=
  (account.alter (i := i) (f := fun x => { x with logs := x.logs ++ [r.entry x.path] })
    (fun _ => rfl) (fun _ => rfl) fun _ => rfl).of_stands rfl rfl fun k => account.alter (i := i)
      (f := fun x => { x with logs := x.logs ++ [r.entry x.path] }) (fun _ => rfl) (fun _ => rfl)
      (fun _ => rfl) |>.stands k

theorem Accounted.next (account : v.Accounted busy picked) (next : Nat) :
    { v with next }.Accounted busy picked :=
  account.of_stands rfl rfl account.stands

theorem Accounted.perm (account : v.Accounted busy picked) {markers : List Store.MarkerRow}
    (same : markers.Perm v.markers) :
    ({ v with markers } : Scene).Accounted busy picked where
  stands id := (account.stands id).perm (same.filter _)
  timers := account.timers
  numbered := account.numbered
  markers := (same.map _).nodup_iff.2 account.markers

theorem Accounted.living (account : v.Accounted busy picked) (attended : id ∈ busy)
    (known : v.execution? id = some x) (active : x.isActive = true) :
    (v.aspect busy picked id).Living x :=
  (account.stands id).living_of_busy
    (fun none => absurd attended (List.count_eq_zero.1 none)) known active

theorem Accounted.living_of_live (account : v.Accounted busy picked)
    (live : v.live.contains id = true) (known : v.execution? id = some x) :
    (v.aspect busy picked id).Living x := by
  obtain ⟨y, living⟩ := (account.stands id).living_of_live live
  obtain rfl : y = x := Option.some.inj (living.known.symm.trans known)
  exact living

/-- A change of one aspect. -/
theorem Accounted.change {i : String} {busy' : List String} {picked' : List Timer}
    (account : v.Accounted busy picked) (own : (w.aspect busy' picked' i).Stands)
    (others : ∀ k, k ≠ i → w.aspect busy' picked' k = v.aspect busy picked k)
    (timers : ((w.clock.timers ++ picked').map (·.id)).Nodup)
    (numbered : ∀ t ∈ w.clock.timers ++ picked', t.id < w.clock.nextTimer)
    (markers : (w.markers.map (·.id)).Nodup) : w.Accounted busy' picked' := by
  refine ⟨fun k => ?_, timers, numbered, markers⟩
  by_cases same : k = i
  · rw [same]; exact own
  · rw [others k same]; exact account.stands k

/-- The timers that an execution waits for are its own, on the clock or about to fire. -/
theorem Accounted.mem_timers (account : v.Accounted busy picked)
    (living : (v.aspect busy picked id).Living x) {t : Timer}
    (present : t ∈ v.clock.timers ++ picked) :
    t.id ∈ x.timers.flatMap (·.2) ↔ t.execution = id := by
  have numbers : x.timers.flatMap (·.2) = x.pending.map (·.2) := by
    simp [Execution.pending, List.map_flatMap, Function.comp_def]
  have own : (v.aspect busy picked id).timers ++ (v.aspect busy picked id).picked =
      (v.clock.timers ++ picked).filter (·.execution == id) := (List.filter_append ..).symm
  rw [numbers, (living.timers.map (·.2)).mem_iff, own]
  simp only [List.map_map, List.mem_map, Function.comp_apply, List.mem_filter, beq_iff_eq]
  constructor
  · rintro ⟨s, ⟨there, whose⟩, same⟩
    obtain rfl := List.inj_on_of_nodup_map account.timers there present same
    exact whose
  · intro whose
    exact ⟨t, ⟨present, whose⟩, rfl⟩

theorem Accounted.timers_untime (account : v.Accounted busy picked)
    (living : (v.aspect busy picked id).Living x) :
    (v.untime id).clock.timers = v.clock.timers.filter (·.execution != id) := by
  have known : v.execution? id = some x := living.known
  simp only [untime, Clock.cancel, known, Option.map_some, Option.getD_some]
  refine List.filter_congr fun t present => ?_
  have own := account.mem_timers living (List.mem_append_left picked present)
  by_cases whose : t.execution = id <;> simp [own, whose]

/-- A live execution has come to its end, and nothing of it has stayed behind. -/
structure Closed (v w : Scene) (id : String) (y : Execution) (s : ExecutionStatus) (e : Option String) :
    Prop where
  execution : w.execution? = fun k => if k = id then some y else v.execution? k
  row : w.row? = fun k => if k = id then (v.row? k).map (·.close s e) else v.row? k
  live : w.live = v.live.filter (· != id)
  clock : w.clock.timers = v.clock.timers.filter (·.execution != id)
  later : w.clock.nextTimer = v.clock.nextTimer
  markers : w.markers = v.markers.filter (·.execution != id)

theorem Closed.known {y : Execution} {s : ExecutionStatus} {e : Option String}
    (closed : v.Closed w id y s e) : w.execution? id = some y := by
  rw [closed.execution]
  exact if_pos rfl

theorem Closed.aspect {y : Execution} {s : ExecutionStatus} {e : Option String}
    (closed : v.Closed w id y s e) (busy : List String) (picked : List Timer) :
    w.aspect busy picked id = { v.aspect busy picked id with
      execution? := some y, row? := (v.row? id).map (·.close s e), live := false, timers := []
      markers := [] } := by
  simp [Scene.aspect, closed.execution, closed.row, closed.live, closed.clock, closed.markers]

/-- The others notice nothing. -/
theorem Closed.aspect_of_ne {y : Execution} {s : ExecutionStatus} {e : Option String} {k : String}
    (closed : v.Closed w id y s e) (other : k ≠ id) (busy : List String) (picked : List Timer) :
    w.aspect busy picked k = v.aspect busy picked k := by
  have live : w.live.contains k = v.live.contains k := by simp [closed.live, other]
  have timers : w.clock.timers.filter (·.execution == k) =
      v.clock.timers.filter (·.execution == k) := by
    rw [closed.clock, List.filter_filter]
    refine List.filter_congr fun t _ => ?_
    by_cases whose : t.execution = k <;> simp [whose, other]
  have markers : w.markers.filter (·.execution == k) = v.markers.filter (·.execution == k) := by
    rw [closed.markers, List.filter_filter]
    refine List.filter_congr fun m _ => ?_
    by_cases whose : m.execution = k <;> simp [whose, other]
  simp only [Scene.aspect, closed.execution, closed.row, other, if_false, live, timers, markers]

theorem Accounted.close {y : Execution} {s : ExecutionStatus} {e : Option String}
    (account : v.Accounted busy picked) (living : (v.aspect busy picked id).Living x)
    (closed : v.Closed w id y s e) (ended : y.isActive = false) (terminal : s ≠ .running) :
    w.Accounted busy picked := by
  have kept : (v.clock.timers.filter (·.execution != id) ++ picked).Sublist
      (v.clock.timers ++ picked) := List.filter_sublist.append (List.Sublist.refl _)
  refine account.change (i := id) ?_ (fun k other => closed.aspect_of_ne other busy picked) ?_ ?_ ?_
  · rw [closed.aspect]
    obtain ⟨r, stored, -⟩ := living.row
    have stored : v.row? id = some r := stored
    refine .past ⟨⟨r.close s e, by simp [stored], terminal⟩, rfl, ⟨rfl, rfl⟩, ?_⟩
    rintro _ ⟨⟩ active
    exact absurd (active.symm.trans ended) (by decide)
  · rw [closed.clock]
    exact (kept.map _).nodup account.timers
  · rw [closed.clock, closed.later]
    exact fun t there => account.numbered t (kept.subset there)
  · rw [closed.markers]
    exact (List.filter_sublist.map _).nodup account.markers

theorem Accounted.closed_fail (account : v.Accounted busy picked)
    (living : (v.aspect busy picked id).Living x) (error : String) :
    v.Closed (v.fail id error) id
      { x with status := .failed, error := some error, timers := [], done := true } .failed
      (some error) := by
  have known : v.execution? id = some x := living.known
  refine ⟨funext fun k => ?_, rfl, rfl, ?_, rfl, rfl⟩
  · by_cases same : k = id
    · subst same; simp [Scene.fail, halt, known]
    · simp [Scene.fail, halt, same]
  · rw [← account.timers_untime living]
    simp [Scene.fail, halt, untime, known, Clock.cancel]

theorem Accounted.closed_cancel (account : v.Accounted busy picked)
    (living : (v.aspect busy picked id).Living x) :
    v.Closed (v.cancel id) id
      { x with
        status := .cancelled, error := some cancelText, timers := []
        logs := x.logs ++ [Remark.cancelled.entry x.path], done := true } .cancelled
      (some cancelText) := by
  have known : v.execution? id = some x := living.known
  refine ⟨funext fun k => ?_, rfl, rfl, ?_, rfl, rfl⟩
  · by_cases same : k = id
    · subst same; simp [Scene.cancel, halt, known]
    · simp [Scene.cancel, halt, same]
  · rw [← account.timers_untime living]
    simp [Scene.cancel, halt, untime, known, Clock.cancel]

theorem Accounted.fail (account : v.Accounted busy picked)
    (living : (v.aspect busy picked id).Living x) (error : String) :
    (v.fail id error).Accounted busy picked :=
  account.close living (account.closed_fail living error) rfl (by decide)

theorem Accounted.cancel (account : v.Accounted busy picked)
    (living : (v.aspect busy picked id).Living x) : (v.cancel id).Accounted busy picked :=
  account.close living (account.closed_cancel living) rfl (by decide)

/-- Whatever is done to an execution that is over, it stays over. -/
theorem Accounted.alter_of_over {f : Execution → Execution} (account : v.Accounted busy picked)
    (known : v.execution? id = some x) (ended : x.isActive = false)
    (present : id ∈ busy ∨ ∃ t ∈ picked, t.execution = id) (still : (f x).isActive = false) :
    (v.alter id f).Accounted busy picked := by
  refine account.change (i := id) ?_ (fun k other => by simp [aspect, other]) account.timers
    account.numbered account.markers
  have stands : (v.aspect busy picked id).Over := by
    cases account.stands id with
    | absent h =>
      have unknown : v.execution? id = Option.none := h.unknown
      simp [known] at unknown
    | living y h =>
      obtain rfl : y = x := Option.some.inj (h.known.symm.trans known)
      exact absurd h.active (by simp [ended])
    | dormant h =>
      rcases present with attended | ⟨t, due, whose⟩
      · exact absurd h.still.2 (by simpa [aspect, List.count_eq_zero] using attended)
      · have none : picked.filter (·.execution == id) = [] := h.timers.2
        exact absurd (List.filter_eq_nil_iff.1 none t due) (by simp [whose])
    | past h => exact h
  refine .past ⟨stands.row, stands.live, stands.nothing, fun y there running => ?_⟩
  have same : f x = y := by simpa [aspect, known] using there
  exact absurd (still.symm.trans (same ▸ running)) (by simp)

/-- A branch of an execution that is over ends without consequences. -/
theorem Accounted.release (account : v.Accounted (id :: busy) picked)
    (ended : ∀ x, v.execution? id = some x → x.isActive = false) : v.Accounted busy picked := by
  refine account.change (i := id) ?_ (fun k other => ?_) account.timers account.numbered
    account.markers
  · have attended : (v.aspect (id :: busy) picked id).busy ≠ 0 := by simp [aspect]
    cases account.stands id with
    | absent h => exact absurd h.still.2 attended
    | living x h => exact absurd h.active (by simp [ended x h.known])
    | dormant h => exact absurd h.still.2 attended
    | past h =>
      exact .past ⟨h.row, h.live, h.nothing, fun x known active => by
        simp [ended x known] at active⟩
  · simp [aspect, List.count_cons_of_ne (Ne.symm other)]

/-- The last branch of an execution leaves no timer and no marker behind. -/
theorem Accounted.closed_complete (account : v.Accounted busy picked) (attended : id ∈ busy)
    (known : v.execution? id = some x) (active : x.isActive = true) (last : x.branches - 1 ≤ 0) :
    v.Closed (v.complete id) id
      { x with
        branches := x.branches - 1, status := .completed
        logs := x.logs ++ [Remark.completed.entry x.path], done := true } .completed none := by
  have living := account.living attended known active
  have branches := living.branches
  have runs : 1 ≤ busy.count id := List.one_le_count_iff.2 attended
  have none : (v.aspect busy picked id).timers = [] ∧ (v.aspect busy picked id).picked = [] := by
    have many : (v.aspect busy picked id).busy = busy.count id := rfl
    constructor <;> refine List.eq_nil_of_length_eq_zero ?_ <;>
      simp only [List.length_append] at branches <;> omega
  refine ⟨funext fun k => ?_, rfl, rfl, ?_, rfl, ?_⟩
  · by_cases same : k = id
    · subst same; simp [complete, known]
    · simp [complete, same]
  · refine (List.filter_eq_self.2 fun t there => ?_).symm
    have others := List.filter_eq_nil_iff.1 none.1 t there
    simpa using others
  · have empty : (v.aspect busy picked id).markers.map (fun m => (m.id, m.node)) = [] := by
      have same := living.markers
      rw [none.1, none.2] at same
      exact List.perm_nil.1 same
    refine (List.filter_eq_self.2 fun m there => ?_).symm
    have others := List.filter_eq_nil_iff.1 (List.map_eq_nil_iff.1 empty) m there
    simpa using others

/-- A branch comes to its end. The last one completes its execution. -/
theorem Accounted.finish (account : v.Accounted (id :: busy) picked)
    (known : v.execution? id = some x) : (v.finish id).Accounted busy picked := by
  cases active : x.isActive with
  | false =>
    have plain : v.finish id = v.alter id fun x => { x with branches := x.branches - 1 } := by
      exact finish_of_more known (by rw [active, Bool.and_false])
    have altered : (v.alter id fun x => { x with branches := x.branches - 1 }).Accounted
        (id :: busy) picked := account.alter_of_over known active (.inl (List.mem_cons_self ..)) active
    rw [plain]
    refine altered.release fun y there => ?_
    have same : y = { x with branches := x.branches - 1 } := by simpa [known] using there.symm
    rw [same]
    exact active
  | true =>
    have living := account.living (List.mem_cons_self ..) known active
    have branches : x.branches = busy.count id + 1 + ((v.aspect busy picked id).timers ++
        (v.aspect busy picked id).picked).length := by
      simpa [aspect] using living.branches
    by_cases last : x.branches - 1 ≤ 0
    · have ending : v.finish id = v.complete id :=
        finish_of_last known (by rw [decide_eq_true last, active]; rfl)
      have closed := account.closed_complete (List.mem_cons_self ..) known active last
      rw [ending]
      refine (account.close living closed rfl (by decide)).release fun y there => ?_
      rw [← Option.some.inj (closed.known.symm.trans there)]
      rfl
    · have plain : v.finish id = v.alter id fun x => { x with branches := x.branches - 1 } := by
        exact finish_of_more known (by rw [decide_eq_false last]; rfl)
      rw [plain]
      refine account.change (i := id) ?_ (fun k other => ?_) account.timers account.numbered
        account.markers
      · refine .living { x with branches := x.branches - 1 } ⟨by simp [aspect, known], active,
          living.live, living.row, living.timers, living.markers, ?_, ?_⟩
        · simp only [aspect, frame_alter] at branches ⊢
          omega
        · change 1 ≤ x.branches - 1
          omega
      · simp [aspect, other, List.count_cons_of_ne (Ne.symm other)]

/-- A new execution begins with one branch. -/
theorem Accounted.enrol {row : Store.ExecutionRow} {n : Nat} (account : v.Accounted busy picked)
    (proper : v.Proper) (later : v.next ≤ n) (opens : row.Opens (idText n))
    (named : x.id = idText n) (active : x.isActive = true) (timers : x.timers = [])
    (branches : x.branches = 1) :
    (v.enrol x row (n + 1)).Accounted (idText n :: busy) picked := by
  obtain ⟨unknown, unstored⟩ := proper.fresh n later
  have absent : (v.aspect busy picked (idText n)).Absent := by
    cases account.stands (idText n) with
    | absent h => exact h
    | living y h =>
      have known : v.execution? (idText n) = some y := h.known
      simp [unknown] at known
    | dormant h =>
      obtain ⟨r, stored, -⟩ := h.row
      have stored : v.row? (idText n) = some r := stored
      simp [unstored] at stored
    | past h =>
      obtain ⟨r, stored, -⟩ := h.row
      have stored : v.row? (idText n) = some r := stored
      simp [unstored] at stored
  obtain ⟨noTimers, noPicked, noMarkers⟩ := absent.nothing
  have idle : busy.count (idText n) = 0 := absent.still.2
  simp only [aspect] at noTimers noPicked noMarkers
  refine account.change (i := idText n) (.living x ⟨?_, active, ?_, ⟨row, ?_, opens.status⟩, ?_,
    ?_, ?_, ?_⟩) (fun k other => ?_) account.timers account.numbered account.markers
  · simp [aspect, named]
  · simp [aspect, Scene.enrol, named]
  · simp [aspect, Scene.enrol, named]
  · simp [aspect, Execution.pending, timers, noTimers, noPicked]
  · simp [aspect, noTimers, noPicked, noMarkers]
  · simp [aspect, branches, noTimers, noPicked, idle]
  · omega
  · have live : (v.enrol x row (n + 1)).live.contains k = v.live.contains k := by
      simp [Scene.enrol, named, other]
    have stored : (v.enrol x row (n + 1)).row? k = v.row? k := by
      simp [Scene.enrol, named, other]
    simp only [aspect, execution?_enrol, frame_enrol, live, stored, named, other, if_false,
      List.count_cons_of_ne (Ne.symm other)]

theorem pending_addTimer (x : Execution) (node : String) (t : Nat) :
    { x with timers := Execution.addTimer x.timers node t }.pending.Perm
      ((node, t) :: x.pending) :=
  Execution.flatMap_addTimer x.timers node t

theorem lt_nextMarker {m : Store.MarkerRow} (there : m ∈ v.markers) : m.id < v.nextMarker :=
  Nat.lt_succ_of_le ((Store.le_foldl_max v.markers 0).2 m there)

theorem nextMarker_le_succ {n : Nat} (each : ∀ m ∈ v.markers, m.id ≤ n) : v.nextMarker ≤ n + 1 := by
  have bound (l : List Store.MarkerRow) (k : Nat) (start : k ≤ n) (each : ∀ m ∈ l, m.id ≤ n) :
      l.foldl (fun n m => max n m.id) k ≤ n := by
    induction l generalizing k with
    | nil => exact start
    | cons m rest ih =>
      exact ih _ (Nat.max_le.2 ⟨start, each m (.head _)⟩) fun k later => each k (.tail _ later)
  exact Nat.succ_le_succ (bound v.markers 0 (Nat.zero_le _) each)

/-- One more timer is set, and there is one more marker for it. -/
theorem Accounted.arm (account : v.Accounted busy picked)
    (living : (v.aspect busy picked id).Living x) {m : Store.MarkerRow} (own : m.execution = id)
    (apart : m.id ∉ v.markers.map (·.id)) (seconds : Float) :
    ({ v with markers := v.markers ++ [m] }.arm id m.node seconds m.id).Accounted busy picked := by
  have known : v.execution? id = some x := living.known
  let t : Timer := ⟨v.clock.nextTimer, v.clock.now + seconds, id, m.node, m.id⟩
  let y : Execution := { x with
    branches := x.branches + 1, timers := Execution.addTimer x.timers m.node t.id }
  let w : Scene := { v with markers := v.markers ++ [m] }.arm id m.node seconds m.id
  have clock : w.clock.timers = v.clock.timers ++ [t] := rfl
  have markers : w.markers = v.markers ++ [m] := rfl
  have execution : w.execution? = fun k => if k = id then some y else v.execution? k := by
    funext k
    by_cases same : k = id
    · subst same; simp [w, known, y, t]
    · simp [w, same]
  have timers : ((v.clock.timers ++ [t]).filter (·.execution == id) ++
      picked.filter (·.execution == id)).Perm
        (t :: ((v.aspect busy picked id).timers ++ (v.aspect busy picked id).picked)) := by
    have new : [t].filter (·.execution == id) = [t] := by simp [t]
    rw [List.filter_append, new, List.append_assoc, List.singleton_append]
    exact List.perm_middle
  change w.Accounted busy picked
  refine account.change (i := id) (.living y ⟨?_, living.active, living.live, living.row, ?_, ?_,
    ?_, ?_⟩) (fun k other => ?_) ?_ ?_ ?_
  · simp [aspect, execution]
  · refine ((pending_addTimer x m.node t.id).trans (living.timers.cons (m.node, t.id))).trans ?_
    exact timers.symm.map fun t => (t.node, t.id)
  · have rows : (v.markers ++ [m]).filter (·.execution == id) =
        v.markers.filter (·.execution == id) ++ [m] := by simp [List.filter_append, own]
    simp only [aspect, clock, markers, rows]
    refine (List.perm_append_comm.map _).trans ((living.markers.cons (m.id, m.node)).trans ?_)
    exact timers.symm.map fun t => (t.marker, t.node)
  · have branches := living.branches
    have more := timers.length_eq
    simp only [aspect, clock] at branches more ⊢
    rw [more]
    change x.branches + 1 = _
    simp only [List.length_cons]
    omega
  · have waiting := living.waiting
    change 1 ≤ x.branches + 1
    omega
  · have later : (v.clock.timers ++ [t]).filter (·.execution == k) =
        v.clock.timers.filter (·.execution == k) := by
      simp [List.filter_append, t, Ne.symm other]
    have rows : (v.markers ++ [m]).filter (·.execution == k) =
        v.markers.filter (·.execution == k) := by
      simp [List.filter_append, own, Ne.symm other]
    simp only [aspect, execution, other, if_false, clock, later, markers, rows]
    rfl
  · rw [clock, List.append_assoc, List.singleton_append]
    have middle : (v.clock.timers ++ t :: picked).Perm (t :: (v.clock.timers ++ picked)) :=
      List.perm_middle
    rw [(middle.map (·.id)).nodup_iff, List.map_cons, List.nodup_cons]
    refine ⟨fun there => ?_, account.timers⟩
    obtain ⟨s, present, same⟩ := List.mem_map.1 there
    exact Nat.lt_irrefl _ (same ▸ account.numbered s present)
  · rw [clock]
    intro s there
    have later : w.clock.nextTimer = v.clock.nextTimer + 1 := rfl
    rw [later]
    simp only [List.append_assoc, List.mem_append, List.mem_singleton] at there
    rcases there with old | rfl | due
    · exact Nat.lt_succ_of_lt (account.numbered s (List.mem_append_left _ old))
    · exact Nat.lt_succ_self _
    · exact Nat.lt_succ_of_lt (account.numbered s (List.mem_append_right _ due))
  · rw [markers, List.map_append, List.map_cons, List.map_nil, List.nodup_append]
    refine ⟨account.markers, List.nodup_singleton _, fun a there b new => ?_⟩
    obtain rfl := List.mem_singleton.1 new
    exact fun same => apart (same ▸ there)

/-- A branch ends at a delay. -/
theorem Accounted.suspend (account : v.Accounted busy picked)
    (living : (v.aspect busy picked id).Living x) (node : String) (seconds : Float)
    (resumeAt : Instant) : (v.suspend id node seconds resumeAt).Accounted busy picked := by
  have known : v.execution? id = some x := living.known
  let m : Store.MarkerRow := ⟨v.nextMarker, id, node, resumeAt, x.snapshot.stored⟩
  have marked : v.mark id node resumeAt = { v with markers := v.markers ++ [m] } := by
    simp [mark, known, m]
  have told := account.say (i := id) (.delaying node seconds)
  have there : (v.say id (.delaying node seconds)).execution? id =
      some { x with logs := x.logs ++ [(Remark.delaying node seconds).entry x.path] } := by simp [known]
  have armed := told.arm (m := m) (told.living_of_live living.live there) rfl (fun present => ?_) seconds
  · unfold Scene.suspend
    rw [marked]
    exact armed
  · obtain ⟨row, present, same⟩ := List.mem_map.1 present
    exact absurd same (Nat.ne_of_lt (lt_nextMarker (v := v) present))

theorem Accounted.enter (account : v.Accounted busy picked) (node : String) (r : Remark) :
    ((v.alter id (·.enter node)).say id r).Accounted busy picked := by
  have entered : (v.alter id (·.enter node)).Accounted busy picked :=
    account.alter (fun _ => rfl) (fun _ => rfl) fun _ => rfl
  exact entered.say r

theorem Accounted.count (account : v.Accounted busy picked) (node : String) (n : Int) :
    (v.alter id (·.setCounter node n)).Accounted busy picked :=
  account.alter (fun _ => rfl) (fun _ => rfl) fun _ => rfl

end Scene

/-- A job is done on behalf of an execution that runs a branch; a start is nobody's. -/
def Job.Attended (busy : List String) : Job → Prop
  | .start _ _ => True
  | j => j.owner ∈ busy

/-- Work keeps the account. -/
theorem Works.accounted {j : Job} {v w : Scene} {busy : List String} {picked : List Timer}
    (work : Works j v w) (proper : v.Proper) (attended : j.Attended busy)
    (account : v.Accounted busy picked) : w.Accounted busy picked := by
  induction work generalizing busy with
  | idle | back | none | stopped | misjudged | misdelayed | given | exhausted | rest => exact account
  | again | bodiless => exact account.say _
  | missing => exact account.enter _ _
  | handled known active admitted found work ih | lost known active admitted found work then_ past ih =>
    exact ih (proper.keeps_enter _ _).proper attended (account.enter _ _)
  | @broken v w id node x y n f known active admitted found work then_ running ih =>
    have worked := ih (proper.keeps_enter _ _).proper attended (account.enter _ _)
    have told := worked.say (i := id) (.broken node f.text)
    have there : (w.say id (.broken node f.text)).execution? id =
        some { y with logs := y.logs ++ [(Remark.broken node f.text).entry y.path] } := by
      simp [then_]
    exact told.fail (told.living attended there running) _
  | next known active first others ih ihOthers =>
    exact ihOthers (first.keeps proper).proper attended (ih proper attended account)
  | trigger known active kind rest ih | junction known active kind rest ih
  | judged known active kind value found rest ih | misacted known active kind rest ih =>
    exact ih (proper.say _) attended (account.say _)
  | unconnected => exact (account.say _).say _
  | action known active kind said work rest ih ihRest =>
    have acted := ih (proper.say _) attended (account.say _)
    exact ihRest ((work.keeps (proper.say _)).proper.say _) attended (acted.say _)
  | delay known active => exact account.suspend (account.living attended known active) _ _ _
  | @exit v w u id n x iterations body exit known active kind found idle work way rest ih ihRest =>
    have inside : (v.alter id fun x => { x with
        activeLoops := x.activeLoops ++ [n.id] }).Proper := proper.alter fun _ => rfl
    have iterated := ih inside attended (account.alter (fun _ => rfl) (fun _ => rfl) fun _ => rfl)
    have left := ihRest (work.keeps inside).proper attended iterated
    exact left.alter (fun _ => rfl) (fun _ => rfl) fun _ => rfl
  | @leave v w id n x iterations body done known active kind found idle work nowhere ih
  | @misiterated v w id n x iterations body f known active kind found idle work ih =>
    have inside : (v.alter id fun x => { x with
        activeLoops := x.activeLoops ++ [n.id] }).Proper := proper.alter fun _ => rfl
    have iterated := ih inside attended (account.alter (fun _ => rfl) (fun _ => rfl) fun _ => rfl)
    exact iterated.alter (fun _ => rfl) (fun _ => rfl) fun _ => rfl
  | completed known => exact (account.count _ _).say _
  | limited known => exact account.count _ _
  | @iterated v w u id node body iterations x ending known active due first others ih ihOthers =>
    have counted := (proper.keeps_count known node).andThen fun counted =>
      counted.keeps_say (i := id) (.iteration node (x.counter node + 1) iterations)
    have walked := ih counted.proper attended ((account.count _ _).say _)
    have forgot : (w.alter id fun y => { y with visited := x.visited }).Accounted busy picked :=
      walked.alter (fun _ => rfl) (fun _ => rfl) fun _ => rfl
    exact ihOthers ((first.keeps counted.proper).proper.alter fun _ => rfl) attended forgot
  | @put v w id key value others ih =>
    have changed : (v.alter id fun x => { x with vars := Dict.put x.vars key value }).Proper :=
      proper.alter fun _ => rfl
    exact ih changed attended (account.alter (fun _ => rfl) (fun _ => rfl) fun _ => rfl)
  | cancel known live active others ih =>
    exact ih proper.cancel attended (account.cancel (account.living_of_live live known))
  | serve later others ih => exact ih (proper.keeps_next later).proper attended (account.next _)
  | launch first others ih ihOthers =>
    exact ihOthers (first.keeps proper).proper attended (ih proper trivial account)
  | @started v w workflow module item triggerData vars n row trigger later opens sound found accepting
      work ih =>
    let x : Execution := .opening (idText n) workflow module item triggerData vars
    have begun := (proper.keeps_enrol (r := row) (x := x) later rfl).andThen
      fun enrolled => enrolled.keeps_say (i := idText n) (.started workflow.name)
    have enrolled := account.enrol (x := x) proper later opens rfl rfl rfl rfl
    have walked := ih begun.proper (List.mem_cons_self ..) (enrolled.say _)
    obtain ⟨y, there, -⟩ := (work.keeps begun.proper).further (idText n) _
      (v.execution?_begun (.started workflow.name) x row (n + 1))
    exact walked.finish there
  | @stillborn v workflow module item triggerData vars n row reason later opens sound why =>
    let x : Execution := .opening (idText n) workflow module item triggerData vars
    have enrolled := account.enrol (x := x) proper later opens rfl rfl rfl rfl
    have told := (enrolled.say (i := idText n) (.started workflow.name)).say (i := idText n) reason
    have there : (((v.enrol x row (n + 1)).say x.id (.started workflow.name)).say x.id
        reason).execution? x.id = some { x with logs :=
          x.logs ++ [(Remark.started workflow.name).entry x.path] ++ [reason.entry x.path] } := by
      simp
    have failed := told.fail (told.living (List.mem_cons_self ..) there rfl) reason.message
    refine failed.release fun y ended => ?_
    have same : some { x with
        status := .failed, error := some reason.message, timers := [], done := true
        logs := x.logs ++ [(Remark.started workflow.name).entry x.path] ++
          [reason.entry x.path] } = some y := by
      rw [← ended]
      simp [Scene.fail, Scene.halt, x, Execution.opening]
    rw [← Option.some.inj same]
    rfl

namespace Scene

variable {v w : Scene} {busy : List String} {picked : List Timer} {x : Execution} {t : Timer}

/-- A timer of an execution that is over is taken up. -/
theorem Accounted.take_of_over (account : v.Accounted busy (t :: picked))
    (ended : ∀ x, v.execution? t.execution = some x → x.isActive = false) :
    v.Accounted (t.execution :: busy) picked := by
  have fewer : (v.clock.timers ++ picked).Sublist (v.clock.timers ++ t :: picked) :=
    (List.Sublist.refl _).append (List.sublist_cons_self t picked)
  refine account.change (i := t.execution) ?_ (fun k other => ?_)
    ((fewer.map _).nodup account.timers) (fun s there => account.numbered s (fewer.subset there))
    account.markers
  · have due : (v.aspect busy (t :: picked) t.execution).picked ≠ [] := by simp [aspect]
    cases account.stands t.execution with
    | absent h => exact absurd h.nothing.2.1 due
    | living x h => exact absurd h.active (by simp [ended x h.known])
    | dormant h => exact absurd h.timers.2 due
    | past h =>
      exact .past ⟨h.row, h.live, h.nothing, fun x known active => by simp [ended x known] at active⟩
  · simp [aspect, List.count_cons_of_ne (Ne.symm other), Ne.symm other]

theorem pending_dropTimer (x : Execution) (node : String) (t : Nat) :
    { x with timers := Execution.dropTimer x.timers node t }.pending =
      x.pending.filter (· != (node, t)) :=
  Execution.flatMap_dropTimer x.timers node t

theorem perm_filter_of_cons {α : Type} [BEq α] [LawfulBEq α] {l m : List α} {a : α}
    (same : l.Perm (a :: m)) (other : ∀ b ∈ m, b ≠ a) : (l.filter (· != a)).Perm m := by
  refine (same.filter _).trans ?_
  have kept : m.filter (· != a) = m := List.filter_eq_self.2 fun b there => by simpa using other b there
  simp [kept]

/-- No timer that is left has the number of one that has been taken up. -/
theorem Accounted.id_ne (account : v.Accounted busy (t :: picked)) {s : Timer}
    (there : s ∈ v.clock.timers ++ picked) : s.id ≠ t.id := by
  have middle : (v.clock.timers ++ t :: picked).Perm (t :: (v.clock.timers ++ picked)) :=
    List.perm_middle
  have apart := (middle.map (·.id)).nodup_iff.1 account.timers
  rw [List.map_cons, List.nodup_cons] at apart
  exact fun same => apart.1 (same ▸ List.mem_map_of_mem there)

/-- What a live execution has besides a timer that is taken up. -/
theorem aspect_besides (v : Scene) (busy : List String) (picked : List Timer) (t : Timer) :
    ((v.aspect busy (t :: picked) t.execution).timers ++
      (v.aspect busy (t :: picked) t.execution).picked).Perm
        (t :: ((v.aspect busy picked t.execution).timers ++
          (v.aspect busy picked t.execution).picked)) := by
  have own : (t :: picked).filter (·.execution == t.execution) =
      t :: picked.filter (·.execution == t.execution) := by simp
  simp only [aspect, own]
  exact List.perm_middle

/-- The marker that a timer about to fire was set for is one of its execution. -/
theorem marked_of_due (living : (v.aspect busy (t :: picked) t.execution).Living x) :
    ∃ m ∈ v.markers, m.id = t.marker ∧ m.execution = t.execution := by
  have due : t ∈ (v.aspect busy (t :: picked) t.execution).timers ++
      (v.aspect busy (t :: picked) t.execution).picked :=
    List.mem_append_right _ (List.mem_filter.2 ⟨.head _, by simp⟩)
  obtain ⟨m, there, same⟩ := List.mem_map.1 (living.markers.mem_iff.2
    (List.mem_map_of_mem (f := fun t : Timer => (t.marker, t.node)) due))
  obtain ⟨present, whose⟩ := List.mem_filter.1 there
  exact ⟨m, present, congrArg Prod.fst same, by simpa using whose⟩

theorem markers_unmark (v : Scene) (marker : Nat) :
    (v.unmark marker).markers = v.markers.filter fun m => m.id != marker := by
  refine List.filter_congr fun m _ => ?_
  rw [Bool.eq_iff_iff, bne_iff_ne, bne_iff_ne]
  omega

/-- Others notice nothing of a timer that is taken up. -/
theorem Accounted.aspect_take_of_ne {k : String} (account : v.Accounted busy (t :: picked))
    (living : (v.aspect busy (t :: picked) t.execution).Living x) (r : Remark) (other : k ≠ t.execution) :
    (((v.unarm t).say t.execution r).unmark t.marker).aspect (t.execution :: busy) picked k =
      v.aspect busy (t :: picked) k := by
  obtain ⟨m, present, number, whose⟩ := marked_of_due living
  have markers : (((v.unarm t).say t.execution r).unmark t.marker).markers =
      v.markers.filter fun m => m.id != t.marker := markers_unmark ..
  have kept : (v.markers.filter fun m => m.id != t.marker).filter (·.execution == k) =
      v.markers.filter (·.execution == k) := by
    rw [List.filter_filter]
    refine List.filter_congr fun n here => ?_
    by_cases mine : n.execution = k
    · have apart : n.id ≠ t.marker := by
        intro same
        obtain rfl := List.inj_on_of_nodup_map account.markers here present (same.trans number.symm)
        exact other (mine.symm.trans whose)
      simp [mine, apart]
    · simp [mine]
  have execution : (((v.unarm t).say t.execution r).unmark t.marker).execution? k =
      v.execution? k := by simp [unarm, other]
  have due : (t :: picked).filter (·.execution == k) = picked.filter (·.execution == k) := by
    simp [Ne.symm other]
  simp only [aspect, execution, markers, kept, due, List.count_cons_of_ne (Ne.symm other)]
  rfl

/-- A timer of a live execution is taken up, and its marker deleted: a branch runs instead. -/
theorem Accounted.take (account : v.Accounted busy (t :: picked))
    (living : (v.aspect busy (t :: picked) t.execution).Living x) (r : Remark) :
    (((v.unarm t).say t.execution r).unmark t.marker).Accounted (t.execution :: busy) picked := by
  have known : v.execution? t.execution = some x := living.known
  have besides := aspect_besides v busy picked t
  have fewer : (v.clock.timers ++ picked).Sublist (v.clock.timers ++ t :: picked) :=
    (List.Sublist.refl _).append (List.sublist_cons_self t picked)
  have rest : ∀ s ∈ (v.aspect busy picked t.execution).timers ++
      (v.aspect busy picked t.execution).picked, s ∈ v.clock.timers ++ picked := by
    intro s there
    rcases List.mem_append.1 there with old | due
    · exact List.mem_append_left _ (List.mem_filter.1 old).1
    · exact List.mem_append_right _ (List.mem_filter.1 due).1
  have rows := (living.markers.trans (besides.map _)).map (·.1)
  rw [List.map_map] at rows
  have numbers : ((v.markers.filter (·.execution == t.execution)).map (·.id)).Nodup :=
    (List.filter_sublist.map _).nodup account.markers
  have apart := rows.nodup_iff.1 numbers
  rw [List.map_cons, List.map_cons, List.nodup_cons] at apart
  have markers : (((v.unarm t).say t.execution r).unmark t.marker).markers =
      v.markers.filter fun m => m.id != t.marker := markers_unmark ..
  refine account.change (i := t.execution) (.living { x with
    timers := Execution.dropTimer x.timers t.node t.id, logs := x.logs ++ [r.entry x.path] }
    ⟨?_, living.active, living.live, living.row, ?_, ?_, ?_, living.waiting⟩)
    (fun k other => account.aspect_take_of_ne living r other)
    ((fewer.map _).nodup account.timers) (fun s there => account.numbered s (fewer.subset there)) ?_
  · simp [aspect, unarm, known]
  · have pending := pending_dropTimer x t.node t.id
    refine List.Perm.trans (.of_eq pending) ?_
    refine perm_filter_of_cons (living.timers.trans (besides.map _)) fun p there same => ?_
    obtain ⟨s, own, rfl⟩ := List.mem_map.1 there
    exact account.id_ne (rest s own) (congrArg Prod.snd same)
  · have own : ((v.markers.filter fun m => m.id != t.marker).filter (·.execution == t.execution)).map
        (fun m => (m.id, m.node)) = ((v.markers.filter (·.execution == t.execution)).map
          fun m => (m.id, m.node)).filter fun p => p.1 != t.marker := by
      rw [List.filter_map, List.filter_filter, List.filter_filter]
      congr 1
      exact List.filter_congr fun m _ => Bool.and_comm ..
    simp only [aspect, markers, own]
    refine ((living.markers.trans (besides.map _)).filter _).trans ?_
    have kept : ∀ p ∈ ((v.aspect busy picked t.execution).timers ++
        (v.aspect busy picked t.execution).picked).map (fun t => (t.marker, t.node)),
        (p.1 != t.marker) = true := by
      intro p there
      have own : p.1 ∈ (((v.aspect busy picked t.execution).timers ++
          (v.aspect busy picked t.execution).picked).map fun t => (t.marker, t.node)).map (·.1) :=
        List.mem_map_of_mem there
      simpa using fun same : p.1 = t.marker => apart.1 (same ▸ own)
    rw [List.map_cons, List.filter_cons_of_neg (by simp), List.filter_eq_self.2 kept]
    rfl
  · have branches := living.branches
    rw [besides.length_eq, List.length_cons] at branches
    change x.branches = busy.count t.execution + _ at branches
    change x.branches = (t.execution :: busy).count t.execution +
      ((v.aspect busy picked t.execution).timers ++ (v.aspect busy picked t.execution).picked).length
    rw [List.count_cons_self]
    omega
  · rw [markers]
    exact (List.filter_sublist.map _).nodup account.markers

/-- A timer is taken up whose marker cannot be deleted, so that its execution fails. -/
theorem Accounted.takeAndFail (account : v.Accounted busy (t :: picked))
    (living : (v.aspect busy (t :: picked) t.execution).Living x) (r : Remark) (error : String) :
    (((v.unarm t).say t.execution r).fail t.execution error).Accounted (t.execution :: busy)
      picked := by
  have known : v.execution? t.execution = some x := living.known
  let y : Execution := { x with
    logs := x.logs ++ [r.entry x.path], status := .failed, error := some error, timers := []
    done := true }
  have execution : (((v.unarm t).say t.execution r).fail t.execution error).execution? =
      fun k => if k = t.execution then some y else v.execution? k := by
    funext k
    by_cases same : k = t.execution
    · subst same; simp [Scene.fail, halt, unarm, known, y]
    · simp [Scene.fail, halt, unarm, same]
  have clock : (((v.unarm t).say t.execution r).fail t.execution error).clock.timers =
      v.clock.timers.filter (·.execution != t.execution) := by
    have numbers : (Execution.dropTimer x.timers t.node t.id).flatMap (·.2) =
        (x.pending.filter (· != (t.node, t.id))).map (·.2) := by
      rw [← pending_dropTimer]
      simp [Execution.pending, List.map_flatMap, Function.comp_def]
    have cancelled : (((v.unarm t).say t.execution r).fail t.execution error).clock.timers =
        v.clock.timers.filter fun s =>
          !((Execution.dropTimer x.timers t.node t.id).flatMap (·.2)).contains s.id := by
      simp [Scene.fail, halt, untime, unarm, known, Clock.cancel]
    have all : x.timers.flatMap (·.2) = x.pending.map (·.2) := by
      simp [Execution.pending, List.map_flatMap, Function.comp_def]
    rw [cancelled]
    refine List.filter_congr fun s there => ?_
    have own := account.mem_timers living (List.mem_append_left (t :: picked) there)
    have apart := account.id_ne (List.mem_append_left picked there)
    rw [all] at own
    have same : s.id ∈ (Execution.dropTimer x.timers t.node t.id).flatMap (·.2) ↔
        s.execution = t.execution := by
      rw [numbers, ← own]
      simp only [List.mem_map, List.mem_filter]
      constructor
      · rintro ⟨p, ⟨pending, -⟩, number⟩
        exact ⟨p, pending, number⟩
      · rintro ⟨p, pending, number⟩
        refine ⟨p, ⟨pending, ?_⟩, number⟩
        simpa using fun equal : p = (t.node, t.id) => apart (number ▸ congrArg Prod.snd equal)
    by_cases whose : s.execution = t.execution <;> simp [same, whose]
  have closed : v.Closed _ _ y .failed (some error) := ⟨execution, rfl, rfl, clock, rfl, rfl⟩
  refine (account.close living closed rfl (by decide)).take_of_over fun z there => ?_
  have same : y = z := by simpa [execution] using there
  rw [← same]
  rfl

end Scene

/-- An execution one of whose timers is about to fire is live, unless it is over. -/
theorem Scene.Accounted.living_of_due {v : Scene} {busy : List String} {picked : List Timer} {t : Timer}
    {x : Execution} (account : v.Accounted busy (t :: picked)) (known : v.execution? t.execution = some x)
    (active : x.isActive = true) : (v.aspect busy (t :: picked) t.execution).Living x := by
  have due : (v.aspect busy (t :: picked) t.execution).picked ≠ [] := by simp [Scene.aspect]
  cases account.stands t.execution with
  | absent h => exact absurd h.nothing.2.1 due
  | living y h =>
    obtain rfl : y = x := Option.some.inj (h.known.symm.trans known)
    exact h
  | dormant h => exact absurd h.timers.2 due
  | past h => exact absurd (h.idle x known active).2 due

/-- A timer that fires keeps the account. -/
theorem Resumes.accounted {t : Timer} {v w : Scene} {busy : List String} {picked : List Timer}
    (resumes : Resumes t v w) (proper : v.Proper) (account : v.Accounted busy (t :: picked)) :
    w.Accounted busy picked := by
  have told := (proper.keeps_unarm t).andThen fun unarmed =>
    unarmed.keeps_say (i := t.execution) (.resumed t.node)
  have cleared := told.andThen fun told => told.keeps_unmark t.marker
  cases resumes with
  | @continued w x known active work =>
    have taken := account.take (account.living_of_due known active) (.resumed t.node)
    have walked := work.accounted cleared.proper (List.mem_cons_self ..) taken
    obtain ⟨y, there, -⟩ := (cleared.andThen work.keeps).further t.execution x known
    exact walked.finish there
  | @stuck x error known active unfit =>
    have failed := account.takeAndFail (account.living_of_due known active) (.resumed t.node) error
    obtain ⟨y, there, -⟩ := (told.andThen fun told => told.keeps_fail error).further _ x known
    exact failed.finish there
  | @past x known ended =>
    have dropped : (v.unarm t).Accounted busy (t :: picked) := account.alter_of_over known ended
      (.inr ⟨t, List.mem_cons_self .., rfl⟩) ended
    have taken := dropped.take_of_over fun y there => by
      have same : { x with timers := Execution.dropTimer x.timers t.node t.id } = y := by
        simpa [Scene.unarm, known] using there
      rw [← same]
      exact ended
    obtain ⟨y, there, -⟩ := (proper.keeps_unarm t).further _ x known
    exact taken.finish there

theorem Fires.accounted {ts : List Timer} {v w : Scene} {busy : List String}
    (fires : Fires ts v w) (proper : v.Proper) (account : v.Accounted busy ts) :
    w.Accounted busy [] := by
  induction fires with
  | none => exact account
  | next first others ih => exact ih (first.keeps proper).proper (first.accounted proper account)

/-- Moving a clock splits its timers in two. -/
theorem Clock.split_moveTo (c : Clock) (now : Float) : ∃ p : Timer → Bool,
    (c.moveTo now).1.Perm (c.timers.filter p) ∧
      (c.moveTo now).2.timers = c.timers.filter fun t => !p t := by
  refine ⟨fun t => decide (t.due ≤ now), ?_, timers_moveTo c now⟩
  unfold moveTo
  rw [List.partition_eq_filter_filter]
  exact sortBy_perm _ _

/-- When the clock moves, the timers that are due are about to fire. -/
theorem Scene.Accounted.shift {v : Scene} {busy : List String} (account : v.Accounted busy [])
    (now : Float) : (v.shift now).Accounted busy (v.due now) := by
  have split : ((v.shift now).clock.timers ++ v.due now).Perm (v.clock.timers ++ []) := by
    obtain ⟨p, due, left⟩ := v.clock.split_moveTo now
    rw [List.append_nil]
    refine (List.Perm.append_left _ due).trans (List.perm_append_comm.trans ?_)
    change (_ ++ (v.clock.moveTo now).2.timers).Perm _
    rw [left]
    exact List.filter_append_perm p v.clock.timers
  refine ⟨fun id => ?_, (split.map _).nodup_iff.2 account.timers,
    fun t there => account.numbered t (split.subset there), account.markers⟩
  have own : (((v.shift now).aspect busy (v.due now) id).timers ++
      ((v.shift now).aspect busy (v.due now) id).picked).Perm
        ((v.aspect busy [] id).timers ++ (v.aspect busy [] id).picked) := by
    have parts := split.filter (·.execution == id)
    rw [List.filter_append, List.filter_append] at parts
    exact parts
  have nothing (timers : (v.aspect busy [] id).timers = []) :
      ((v.shift now).aspect busy (v.due now) id).timers = [] ∧
        ((v.shift now).aspect busy (v.due now) id).picked = [] := by
    rw [timers] at own
    exact List.append_eq_nil_iff.1 (List.perm_nil.1 own)
  cases account.stands id with
  | absent h =>
    obtain ⟨timers, picked⟩ := nothing h.nothing.1
    exact .absent ⟨h.unknown, h.unstored, h.still, timers, picked, h.nothing.2.2⟩
  | living x h =>
    refine .living x ⟨h.known, h.active, h.live, h.row, h.timers.trans (own.symm.map _),
      h.markers.trans (own.symm.map _), ?_, h.waiting⟩
    rw [own.length_eq]
    exact h.branches
  | dormant h => exact .dormant ⟨h.row, h.still, nothing h.timers.1, h.markers⟩
  | past h =>
    obtain ⟨timers, picked⟩ := nothing h.nothing.1
    exact .past ⟨h.row, h.live, ⟨timers, h.nothing.2⟩, fun x known active =>
      ⟨(h.idle x known active).1, picked⟩⟩

end Runbook
