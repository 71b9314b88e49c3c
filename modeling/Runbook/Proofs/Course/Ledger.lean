import Mathlib.Data.List.Nodup
import Runbook.Proofs.Course.Scene

/-!
The ledger of an engine: which executions are live, the timers that they wait for, and the markers.
It is sound when the timers of a live execution are the ones it waits for, each with a marker of its
own in store. The ledger says nothing about what the storage holds besides the markers, and a marker
may be left over; so it stays sound when sessions are refused.
-/
namespace Runbook

/-- What a ledger holds of an execution. -/
structure Stand where
  active : Bool
  branches : Int
  timers : List (String × List Nat)

namespace Stand

/-- The timers that are waited for, each with its delay. -/
def pending (x : Stand) : List (String × Nat) := x.timers.flatMap fun (node, ids) => ids.map (node, ·)

/-- The numbers of these timers. -/
def numbers (x : Stand) : List Nat := x.timers.flatMap (·.2)

/-- One more timer is waited for. -/
def arm (x : Stand) (node : String) (timer : Nat) : Stand :=
  { x with branches := x.branches + 1, timers := Execution.addTimer x.timers node timer }

/-- A timer is not waited for any more. -/
def unarm (x : Stand) (node : String) (timer : Nat) : Stand :=
  { x with timers := Execution.dropTimer x.timers node timer }

/-- A branch has come to its end. -/
def countOff (x : Stand) : Stand := { x with branches := x.branches - 1 }

theorem pending_arm (x : Stand) (node : String) (timer : Nat) :
    (x.arm node timer).pending.Perm ((node, timer) :: x.pending) :=
  Execution.flatMap_addTimer x.timers node timer

theorem pending_unarm (x : Stand) (node : String) (timer : Nat) :
    (x.unarm node timer).pending = x.pending.filter (· != (node, timer)) :=
  Execution.flatMap_dropTimer x.timers node timer

end Stand

/-- The ledger, while branches run and timers that were taken off the clock are about to fire. -/
structure Ledger where
  stand? : String → Option Stand
  live : List String
  /-- The executions of the branches that run. -/
  busy : List String
  /-- The timers on the clock. -/
  set : List Timer
  /-- The timers about to fire. -/
  picked : List Timer
  /-- The number of the next timer. -/
  next : Nat
  markers : List Store.MarkerRow

namespace Ledger

/-- All timers of an execution. -/
def own (l : Ledger) (id : String) : List Timer := (l.set ++ l.picked).filter (·.execution == id)

/-- A live execution waits for its timers, and each of them has a marker of its own. -/
structure Holds (l : Ledger) (id : String) (x : Stand) : Prop where
  active : x.active = true
  timers : x.pending.Perm ((l.own id).map fun t => (t.node, t.id))
  branches : x.branches = l.busy.count id + (l.own id).length
  marked : ∀ t ∈ l.own id, ∃ m ∈ l.markers, m.id = t.marker ∧ m.execution = id ∧ m.node = t.node
  distinct : ((l.own id).map (·.marker)).Nodup

/-- Every live execution holds what it waits for, and what is not live waits for nothing. -/
structure Sound (l : Ledger) : Prop where
  rows : (l.markers.map (·.id)).Nodup
  numbers : ((l.set ++ l.picked).map (·.id)).Nodup
  early : ∀ t ∈ l.set ++ l.picked, t.id < l.next
  known : ∀ t ∈ l.set ++ l.picked, (l.stand? t.execution).isSome
  attended : ∀ id ∈ l.busy, (l.stand? id).isSome
  living : ∀ id ∈ l.live, ∃ x, l.stand? id = some x ∧ l.Holds id x
  still : ∀ id, id ∉ l.live → (∀ t ∈ l.set, t.execution ≠ id) ∧
    ∀ x, l.stand? id = some x → x.active = true → id ∉ l.busy ∧ ∀ t ∈ l.picked, t.execution ≠ id

/-- Puts something in the place of what is held of an execution. -/
def put (l : Ledger) (id : String) (x : Stand) : Ledger :=
  { l with stand? := fun k => if k = id then some x else l.stand? k }

/-- An execution comes to its end, and these markers are left. -/
def close (l : Ledger) (id : String) (x : Stand) (rows : List Store.MarkerRow) : Ledger :=
  { l.put id x with
    live := l.live.filter (· != id), set := l.set.filter (·.execution != id), markers := rows }

/-- A timer is set for a marker. -/
def arm (l : Ledger) (id : String) (x : Stand) (node : String) (marker : Nat) (due : Float) : Ledger :=
  { l.put id (x.arm node l.next) with
    set := l.set ++ [Timer.mk l.next due id node marker], next := l.next + 1 }

/-- An execution becomes live with one branch. -/
def begin (l : Ledger) (id : String) : Ledger :=
  { l.put id ⟨true, 1, []⟩ with live := l.live ++ [id], busy := id :: l.busy }

/-- A branch ends, and these are left. -/
def countOff (l : Ledger) (id : String) (x : Stand) (busy : List String) : Ledger :=
  { l.put id x.countOff with busy }

/-- A timer has fired, and these are left. -/
def take (l : Ledger) (t : Timer) (x : Stand) (rest : List Timer) : Ledger :=
  { l.put t.execution (x.unarm t.node t.id) with busy := t.execution :: l.busy, picked := rest }

variable {l m : Ledger} {id k : String} {x y : Stand}

theorem put_self (known : l.stand? id = some x) : l.put id x = l := by
  obtain ⟨stand?, live, busy, set, picked, next, markers⟩ := l
  simp only [put, mk.injEq, and_true]
  funext k
  by_cases same : k = id
  · subst same; simpa using known.symm
  · simp [same]

theorem put_put : (l.put id x).put id y = l.put id y := by
  unfold put
  rw [mk.injEq]
  refine ⟨funext fun k => ?_, rfl, rfl, rfl, rfl, rfl, rfl⟩
  by_cases same : k = id <;> simp [same]

theorem mem_own {t : Timer} : t ∈ l.own id ↔ t ∈ l.set ++ l.picked ∧ t.execution = id := by
  unfold own
  rw [List.mem_filter, beq_iff_eq]

theorem Holds.of_own (holds : l.Holds k x) (own : (m.own k).Perm (l.own k))
    (busy : m.busy.count k = l.busy.count k)
    (rows : ∀ r ∈ l.markers, r.execution = k → r ∈ m.markers) : m.Holds k x where
  active := holds.active
  timers := holds.timers.trans (own.symm.map _)
  branches := by rw [busy, own.length_eq]; exact holds.branches
  marked t there := by
    obtain ⟨r, present, number, whose, node⟩ := holds.marked t (own.mem_iff.1 there)
    exact ⟨r, rows r present whose, number, whose, node⟩
  distinct := ((own.map _).nodup_iff).2 holds.distinct

/-- A running execution that has a branch running is live. -/
theorem Sound.holds_of_busy (sound : l.Sound) (busy : id ∈ l.busy) (known : l.stand? id = some x)
    (active : x.active = true) : id ∈ l.live ∧ l.Holds id x := by
  by_cases live : id ∈ l.live
  · obtain ⟨y, held, holds⟩ := sound.living id live
    obtain rfl : y = x := Option.some.inj (held.symm.trans known)
    exact ⟨live, holds⟩
  · exact absurd busy ((sound.still id live).2 x known active).1

/-- So is a running execution one of whose timers is about to fire. -/
theorem Sound.holds_of_picked (sound : l.Sound) {t : Timer} (picked : t ∈ l.picked)
    (known : l.stand? t.execution = some x) (active : x.active = true) :
    t.execution ∈ l.live ∧ l.Holds t.execution x := by
  by_cases live : t.execution ∈ l.live
  · obtain ⟨y, held, holds⟩ := sound.living _ live
    obtain rfl : y = x := Option.some.inj (held.symm.trans known)
    exact ⟨live, holds⟩
  · exact absurd rfl (((sound.still _ live).2 x known active).2 t picked)

/-- The timers that a live execution waits for are its own. -/
theorem Sound.mem_pending (sound : l.Sound) (holds : l.Holds id x) {t : Timer}
    (there : t ∈ l.set ++ l.picked) :
    t.id ∈ x.numbers ↔ t.execution = id := by
  have numbers : x.numbers = x.pending.map (·.2) := by
    simp [Stand.numbers, Stand.pending, List.map_flatMap, Function.comp_def]
  rw [numbers, (holds.timers.map (·.2)).mem_iff]
  simp only [List.map_map, List.mem_map, Function.comp_apply, mem_own]
  constructor
  · rintro ⟨s, ⟨present, whose⟩, same⟩
    obtain rfl := List.inj_on_of_nodup_map sound.numbers there present same.symm
    exact whose
  · intro whose
    exact ⟨t, ⟨there, whose⟩, rfl⟩

/-- No two timers of live executions have one marker. -/
theorem Sound.eq_of_marker (sound : l.Sound) {s t : Timer} (first : s ∈ l.set ++ l.picked)
    (second : t ∈ l.set ++ l.picked) (live : s.execution ∈ l.live) (live' : t.execution ∈ l.live)
    (same : s.marker = t.marker) : s = t := by
  obtain ⟨x, -, holds⟩ := sound.living _ live
  obtain ⟨y, -, holds'⟩ := sound.living _ live'
  obtain ⟨r, present, number, whose, -⟩ := holds.marked s (mem_own.2 ⟨first, rfl⟩)
  obtain ⟨r', present', number', whose', -⟩ := holds'.marked t (mem_own.2 ⟨second, rfl⟩)
  obtain rfl := List.inj_on_of_nodup_map sound.rows present present'
    (number.trans (same.trans number'.symm))
  exact List.inj_on_of_nodup_map holds.distinct (mem_own.2 ⟨first, rfl⟩)
    (mem_own.2 ⟨second, whose'.symm.trans whose⟩) same

/-- An execution comes to its end. Its markers may stay, or be deleted. -/
theorem Sound.close (sound : l.Sound) (past : y.active = false) {rows : List Store.MarkerRow}
    (fewer : rows.Sublist l.markers) (others : ∀ r ∈ l.markers, r.execution ≠ id → r ∈ rows) :
    (l.close id y rows).Sound := by
  have kept : (l.set.filter (·.execution != id) ++ l.picked).Sublist (l.set ++ l.picked) :=
    List.filter_sublist.append (List.Sublist.refl _)
  refine ⟨(fewer.map _).nodup sound.rows, (kept.map _).nodup sound.numbers,
    fun t there => sound.early t (kept.subset there), fun t there => ?_, fun k there => ?_,
    fun k there => ?_, fun k absent => ?_⟩
  · have before := sound.known t (kept.subset there)
    by_cases same : t.execution = id <;> simp [Ledger.close, put, same, before]
  · have before := sound.attended k there
    by_cases same : k = id <;> simp [Ledger.close, put, same, before]
  · obtain ⟨live, other⟩ := List.mem_filter.1 there
    have other : k ≠ id := by simpa using other
    obtain ⟨x, held, holds⟩ := sound.living k live
    refine ⟨x, by simp [Ledger.close, put, other, held], holds.of_own (.of_eq ?_) rfl fun r present whose =>
      others r present (whose ▸ other)⟩
    simp only [own, Ledger.close, put, List.filter_append, List.filter_filter]
    congr 1
    refine List.filter_congr fun t _ => ?_
    by_cases whose : t.execution = k <;> simp [whose, other]
  · by_cases same : k = id
    · subst same
      refine ⟨fun t there => by simpa using (List.mem_filter.1 there).2, fun z held active => ?_⟩
      have same : y = z := by simpa [Ledger.close, put] using held
      simp [← same, past] at active
    · have still : k ∉ l.live := fun live => absent (List.mem_filter.2 ⟨live, by simpa using same⟩)
      obtain ⟨none, idle⟩ := sound.still k still
      refine ⟨fun t there => none t (List.mem_filter.1 there).1, fun z held active => ?_⟩
      exact idle z (by simpa [Ledger.close, put, same] using held) active

/-- A marker is added under a number of its own. -/
theorem Sound.save (sound : l.Sound) {r : Store.MarkerRow} (new : r.id ∉ l.markers.map (·.id)) :
    { l with markers := l.markers ++ [r] }.Sound := by
  refine ⟨?_, sound.numbers, sound.early, sound.known, sound.attended, fun k there => ?_, sound.still⟩
  · rw [List.map_append, List.nodup_append]
    refine ⟨sound.rows, List.nodup_singleton _, fun a there b there' same => ?_⟩
    obtain rfl : b = r.id := by simpa using there'
    exact new (same ▸ there)
  · obtain ⟨x, held, holds⟩ := sound.living k there
    exact ⟨x, held, holds.of_own (.refl _) rfl fun r present _ => List.mem_append_left _ present⟩

/-- A timer is set for a marker that no other timer of the execution has. -/
theorem Sound.arm (sound : l.Sound) (live : id ∈ l.live) (known : l.stand? id = some x)
    {r : Store.MarkerRow} (present : r ∈ l.markers) (whose : r.execution = id)
    (free : ∀ t ∈ l.own id, t.marker ≠ r.id) (due : Float) :
    (l.arm id x r.node r.id due).Sound := by
  obtain ⟨y, held, holds⟩ := sound.living id live
  obtain rfl : y = x := Option.some.inj (held.symm.trans known)
  let t : Timer := ⟨l.next, due, id, r.node, r.id⟩
  have all : ((l.set ++ [t]) ++ l.picked).Perm (t :: (l.set ++ l.picked)) := by
    rw [List.append_assoc, List.singleton_append]
    exact List.perm_middle
  have owned : ((l.arm id y r.node r.id due).own id).Perm (t :: l.own id) := by
    have filtered := all.filter (·.execution == id)
    rwa [List.filter_cons_of_pos (by simp [t])] at filtered
  refine ⟨sound.rows, ?_, fun s there => ?_, fun s there => ?_, fun k there => ?_, fun k there => ?_,
    fun k absent => ?_⟩
  · refine ((all.map _).nodup_iff).2 ?_
    rw [List.map_cons, List.nodup_cons]
    refine ⟨fun there => ?_, sound.numbers⟩
    obtain ⟨s, present, same⟩ := List.mem_map.1 there
    exact absurd (sound.early s present) (by rw [same]; exact Nat.lt_irrefl _)
  · rcases List.mem_cons.1 (all.mem_iff.1 there) with rfl | old
    · exact Nat.lt_succ_self _
    · exact Nat.lt_succ_of_lt (sound.early s old)
  · rcases List.mem_cons.1 (all.mem_iff.1 there) with rfl | old
    · simp [Ledger.arm, put, t]
    · have before := sound.known s old
      by_cases same : s.execution = id <;> simp [Ledger.arm, put, same, before]
  · have before := sound.attended k there
    by_cases same : k = id <;> simp [Ledger.arm, put, same, before]
  · by_cases same : k = id
    · subst same
      refine ⟨y.arm r.node l.next, by simp [Ledger.arm, put], holds.active, ?_, ?_, fun s there => ?_, ?_⟩
      · have waited := owned.symm.map fun t => (t.node, t.id)
        exact (y.pending_arm r.node l.next).trans ((holds.timers.cons (r.node, l.next)).trans waited)
      · have branches := holds.branches
        rw [owned.length_eq, List.length_cons]
        change y.branches + 1 = _
        rw [branches]
        change _ = (l.busy.count k : Int) + _
        omega
      · rcases List.mem_cons.1 (owned.mem_iff.1 there) with rfl | old
        · exact ⟨r, present, rfl, whose, rfl⟩
        · exact holds.marked s old
      · refine ((owned.map _).nodup_iff).2 ?_
        rw [List.map_cons, List.nodup_cons]
        refine ⟨fun there => ?_, holds.distinct⟩
        obtain ⟨s, old, same⟩ := List.mem_map.1 there
        exact free s old same
    · obtain ⟨z, held', holds'⟩ := sound.living k there
      refine ⟨z, by simp [Ledger.arm, put, same, held'], holds'.of_own ?_ rfl fun r there _ => there⟩
      have filtered := all.filter (·.execution == k)
      rwa [List.filter_cons_of_neg (by simpa [t] using Ne.symm same)] at filtered
  · have other : k ≠ id := fun same => absent (same ▸ live)
    obtain ⟨none, idle⟩ := sound.still k absent
    refine ⟨fun s there => ?_, fun z held active => ?_⟩
    · rcases List.mem_append.1 there with old | new
      · exact none s old
      · obtain rfl := List.mem_singleton.1 new
        exact Ne.symm other
    · exact idle z (by simpa [Ledger.arm, put, other] using held) active

/-- An execution that was not live becomes live with one branch. -/
theorem Sound.begin (sound : l.Sound) (still : id ∉ l.live) (free : id ∉ l.busy)
    (unpicked : ∀ t ∈ l.picked, t.execution ≠ id) :
    (l.begin id).Sound := by
  have none : l.own id = [] := by
    refine List.filter_eq_nil_iff.2 fun t there => ?_
    rcases List.mem_append.1 there with set | picked
    · simpa using (sound.still id still).1 t set
    · simpa using unpicked t picked
  refine ⟨sound.rows, sound.numbers, sound.early, fun t there => ?_, fun k there => ?_,
    fun k there => ?_, fun k absent => ?_⟩
  · have before := sound.known t there
    by_cases same : t.execution = id <;> simp [Ledger.begin, put, same, before]
  · rcases List.mem_cons.1 there with rfl | old
    · simp [Ledger.begin, put]
    · have before := sound.attended k old
      by_cases same : k = id <;> simp [Ledger.begin, put, same, before]
  · by_cases same : k = id
    · subst same
      have own : (l.begin k).own k = [] := none
      have busy : (l.begin k).busy.count k = 1 := by
        simp [Ledger.begin, List.count_eq_zero.2 free]
      exact ⟨⟨true, 1, []⟩, by simp [Ledger.begin, put], rfl, by simp [own, Stand.pending],
        by simp [own, busy], by simp [own], by simp [own]⟩
    · have live : k ∈ l.live := by
        rcases List.mem_append.1 there with old | new
        · exact old
        · exact absurd (List.mem_singleton.1 new) same
      obtain ⟨x, held, holds⟩ := sound.living k live
      exact ⟨x, by simp [Ledger.begin, put, same, held], holds.of_own (.refl _)
        (List.count_cons_of_ne (Ne.symm same)) fun r there _ => there⟩
  · have other : k ≠ id := fun same => absent (List.mem_append_right _ (by simp [same]))
    have before : k ∉ l.live := fun live => absent (List.mem_append_left _ live)
    obtain ⟨none, idle⟩ := sound.still k before
    refine ⟨none, fun z held active => ?_⟩
    obtain ⟨unattended, unpicked⟩ := idle z (by simpa [Ledger.begin, put, other] using held) active
    exact ⟨fun there => (List.mem_cons.1 there).elim other unattended, unpicked⟩

/-- A branch of an execution that is over ends without consequences. -/
theorem Sound.release {busy : List String} (sound : l.Sound) (attending : l.busy = id :: busy)
    (past : ∀ x, l.stand? id = some x → x.active = false) : { l with busy }.Sound := by
  refine ⟨sound.rows, sound.numbers, sound.early, sound.known,
    fun k there => sound.attended k (attending ▸ .tail _ there), fun k there => ?_, fun k absent => ?_⟩
  · obtain ⟨x, held, holds⟩ := sound.living k there
    have other : k ≠ id := fun same => by
      have inactive := past x (same ▸ held)
      rw [holds.active] at inactive
      cases inactive
    refine ⟨x, held, holds.of_own (.refl _) ?_ fun r there _ => there⟩
    rw [attending, List.count_cons_of_ne (Ne.symm other)]
  · obtain ⟨none, idle⟩ := sound.still k absent
    refine ⟨none, fun x held active => ?_⟩
    obtain ⟨unattended, unpicked⟩ := idle x held active
    exact ⟨fun there => unattended (attending ▸ .tail _ there), unpicked⟩

/-- A branch that goes on waiting, or whose execution is over, is counted off. -/
theorem Sound.countOff {busy : List String} (sound : l.Sound) (known : l.stand? id = some x)
    (attending : l.busy = id :: busy) :
    (l.countOff id x busy).Sound := by
  refine ⟨sound.rows, sound.numbers, sound.early, fun t there => ?_, fun k there => ?_,
    fun k there => ?_, fun k absent => ?_⟩
  · have before := sound.known t there
    by_cases same : t.execution = id <;> simp [Ledger.countOff, put, same, before]
  · have before := sound.attended k (attending ▸ .tail _ there)
    by_cases same : k = id <;> simp [Ledger.countOff, put, same, before]
  · obtain ⟨y, held, holds⟩ := sound.living k there
    by_cases same : k = id
    · subst same
      obtain rfl : y = x := Option.some.inj (held.symm.trans known)
      refine ⟨y.countOff, by simp [Ledger.countOff, put], holds.active, holds.timers, ?_, holds.marked, holds.distinct⟩
      have branches := holds.branches
      rw [attending, List.count_cons_self] at branches
      change y.branches - 1 = (busy.count k : Int) + (l.own k).length
      omega
    · refine ⟨y, by simp [Ledger.countOff, put, same, held], holds.of_own (.refl _) ?_ fun r there _ => there⟩
      rw [attending, List.count_cons_of_ne (Ne.symm same)]
      rfl
  · obtain ⟨none, idle⟩ := sound.still k absent
    refine ⟨none, fun z held active => ?_⟩
    by_cases same : k = id
    · subst same
      have same : x.countOff = z := by simpa [Ledger.countOff, put] using held
      have impossible := (idle x known (by rw [← same] at active; exact active)).1
      exact absurd (by rw [attending]; exact .head _) impossible
    · obtain ⟨unattended, unpicked⟩ := idle z (by simpa [Ledger.countOff, put, same] using held) active
      exact ⟨fun there => unattended (attending ▸ .tail _ there), unpicked⟩

/-- A timer that was about to fire has fired, and its branch runs. -/
theorem Sound.take {t : Timer} {rest : List Timer} (sound : l.Sound)
    (known : l.stand? t.execution = some x) (due : l.picked = t :: rest) :
    (l.take t x rest).Sound := by
  have all : (l.set ++ l.picked).Perm (t :: (l.set ++ rest)) := by
    rw [due]
    exact List.perm_middle
  have distinct : ((t :: (l.set ++ rest)).map (·.id)).Nodup := (all.map _).nodup_iff.1 sound.numbers
  rw [List.map_cons, List.nodup_cons] at distinct
  refine ⟨sound.rows, distinct.2, fun s there => sound.early s (all.mem_iff.2 (.tail _ there)),
    fun s there => ?_, fun k there => ?_, fun k there => ?_, fun k absent => ?_⟩
  · have before := sound.known s (all.mem_iff.2 (.tail _ there))
    by_cases same : s.execution = t.execution <;> simp [Ledger.take, put, same, before]
  · rcases List.mem_cons.1 there with rfl | old
    · simp [Ledger.take, put]
    · have before := sound.attended k old
      by_cases same : k = t.execution <;> simp [Ledger.take, put, same, before]
  · obtain ⟨y, held, holds⟩ := sound.living k there
    by_cases same : k = t.execution
    · subst same
      obtain rfl : y = x := Option.some.inj (held.symm.trans known)
      have owned : (l.own t.execution).Perm (t :: (l.set ++ rest).filter (·.execution == t.execution)) := by
        have filtered := all.filter (·.execution == t.execution)
        rwa [List.filter_cons_of_pos (by simp)] at filtered
      have distinct' := (owned.map (·.marker)).nodup_iff.1 holds.distinct
      rw [List.map_cons, List.nodup_cons] at distinct'
      refine ⟨y.unarm t.node t.id, by simp [Ledger.take, put], holds.active, ?_, ?_, fun s there => ?_, distinct'.2⟩
      · rw [Stand.pending_unarm]
        have left := (holds.timers.trans (owned.map _)).filter (· != (t.node, t.id))
        refine left.trans (.of_eq ?_)
        rw [List.map_cons, List.filter_cons_of_neg (by simp)]
        refine List.filter_eq_self.2 fun p there => ?_
        obtain ⟨s, present, rfl⟩ := List.mem_map.1 there
        have other : s.id ≠ t.id := fun same => distinct.1 (List.mem_map.2
          ⟨s, (List.mem_filter.1 present).1, same⟩)
        simp [other]
      · have branches := holds.branches
        rw [owned.length_eq, List.length_cons] at branches
        change y.branches = _
        simp only [own, Ledger.take, put, List.count_cons_self]
        omega
      · exact holds.marked s (owned.mem_iff.2 (.tail _ there))
    · refine ⟨y, by simp [Ledger.take, put, same, held], holds.of_own ?_ ?_ fun r there _ => there⟩
      · have filtered := all.filter (·.execution == k)
        rw [List.filter_cons_of_neg (by simpa using Ne.symm same)] at filtered
        exact filtered.symm
      · exact List.count_cons_of_ne (Ne.symm same)
  · obtain ⟨none, idle⟩ := sound.still k absent
    refine ⟨none, fun z held active => ?_⟩
    by_cases same : k = t.execution
    · subst same
      have same : x.unarm t.node t.id = z := by simpa [Ledger.take, put] using held
      have impossible := (idle x known (by rw [← same] at active; exact active)).2
      exact absurd rfl (impossible t (due ▸ .head _))
    · obtain ⟨unattended, unpicked⟩ := idle z (by simpa [Ledger.take, put, same] using held) active
      exact ⟨fun there => (List.mem_cons.1 there).elim same unattended,
        fun s there => unpicked s (due ▸ .tail _ there)⟩

/-- Markers that no live execution waits with may go. -/
theorem Sound.filterMarkers (sound : l.Sound) (wanted : Store.MarkerRow → Bool)
    (spared : ∀ t ∈ l.set ++ l.picked, t.execution ∈ l.live → ∀ r ∈ l.markers,
      r.id = t.marker → r.execution = t.execution → wanted r = true) :
    { l with markers := l.markers.filter wanted }.Sound := by
  refine ⟨(List.filter_sublist.map _).nodup sound.rows, sound.numbers, sound.early, sound.known,
    sound.attended, fun k there => ?_, sound.still⟩
  obtain ⟨x, held, holds⟩ := sound.living k there
  refine ⟨x, held, holds.active, holds.timers, holds.branches, fun t present => ?_, holds.distinct⟩
  obtain ⟨r, row, number, whose, node⟩ := holds.marked t present
  obtain ⟨present, mine⟩ := mem_own.1 present
  exact ⟨r, List.mem_filter.2 ⟨row, spared t present (mine ▸ there) r row number
    (whose.trans mine.symm)⟩, number, whose, node⟩

/-- The clock moves, and the timers that are due are about to fire. -/
theorem Sound.pick {set picked : List Timer} (sound : l.Sound) (unpicked : l.picked = [])
    (same : (set ++ picked).Perm l.set) : { l with set, picked }.Sound := by
  have all : (set ++ picked).Perm (l.set ++ l.picked) := by rw [unpicked, List.append_nil]; exact same
  refine ⟨sound.rows, (all.map _).nodup_iff.2 sound.numbers,
    fun t there => sound.early t (all.mem_iff.1 there),
    fun t there => sound.known t (all.mem_iff.1 there), sound.attended, fun k there => ?_,
    fun k absent => ?_⟩
  · obtain ⟨x, held, holds⟩ := sound.living k there
    exact ⟨x, held, holds.of_own (all.filter _) rfl fun r there _ => there⟩
  · obtain ⟨none, idle⟩ := sound.still k absent
    refine ⟨fun t there => none t (same.mem_iff.1 (List.mem_append_left _ there)), fun z held active =>
      ⟨(idle z held active).1, fun t there => none t (same.mem_iff.1 (List.mem_append_right _ there))⟩⟩

/-- After a restart nothing is live, and no timer is set. -/
theorem Sound.restart {stand? : String → Option Stand} {next : Nat} (sound : l.Sound) :
    ({ l with stand?, next, live := [], busy := [], set := [], picked := [] } : Ledger).Sound where
  rows := sound.rows
  numbers := List.nodup_nil
  early t there := by cases there
  known t there := by cases there
  attended k there := by cases there
  living k there := by cases there
  still k _ := ⟨fun t there => (by cases there), fun x _ _ =>
    ⟨List.not_mem_nil, fun t there => (by cases there)⟩⟩

end Ledger

end Runbook
