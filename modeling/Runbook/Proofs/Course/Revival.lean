import Runbook.Proofs.Course.History

/-!
Restarts follow rules as well. A shut down engine leaves its rows and markers behind; what was live
waits with its markers until an engine takes it up again. Of each such execution the markers are
read, its context is made from what they keep, and its timers are set for the markers that are there
already; one whose workflow cannot be loaded any more fails.
-/
namespace Runbook

/-- The seconds that a marker still waits. -/
def Engine.remaining (now : Instant) (m : Store.Marker) : Float :=
  let left := m.resumeAt.secondsSince now
  if left > 0.0 then left else 0.0

/-- An execution is made from the markers of an execution that was suspended. -/
def Execution.Restored (x : Execution) (id : String) (ms : List Store.Marker) : Prop :=
  ∃ (first : Store.Marker) (rest : List Store.Marker) (w : Workflow) (s : Snapshot),
    ms = first :: rest ∧ w.Sound ∧ Snapshot.read w.module (Engine.latest first ms).context = .ok s ∧
    ms.foldlM (fun (x : Execution) m => x.absorb m.context) (.ofSnapshot id w s) = .ok x

namespace Scene

/-- A new engine goes on with the storage of another one, whose timers are cancelled. -/
def restarted (v : Scene) (now : Float) : Scene :=
  { v.live.foldl untime v with live := [], clock := Clock.starting now, accepting := true }

/-- An execution becomes live, in place of what was known of it. -/
def revive (v : Scene) (x : Execution) : Scene :=
  { v with
    execution? := fun k => if k = x.id then some x else v.execution? k
    live := v.live.filter (· != x.id) ++ [x.id] }

/-- A timer is set for a marker that is there already. -/
def rearm (now : Instant) (v : Scene) (m : Store.Marker) : Scene :=
  (v.say m.execution (.restored m.node (Engine.remaining now m))).arm m.execution m.node
    (Engine.remaining now m) m.id

/-- An execution is taken up again. -/
def resumed (v : Scene) (now : Instant) (x : Execution) (ms : List Store.Marker) : Scene :=
  (ms.foldl (rearm now) (v.revive x)).finish x.id

/-- An execution that cannot be taken up again fails in store. -/
def abandon (v : Scene) (id error : String) : Scene :=
  { v.wipe id with
    row? := fun k =>
      if k = id then (v.row? k).map fun r =>
        { r with status := .failed, error := some error, ended := true }
      else v.row? k }

/-- Markers are all that there are of an execution that is not live. -/
structure Waiting (v : Scene) (id : String) (ms : List Store.Marker) : Prop where
  still : v.live.contains id = false
  some : ms ≠ []
  own : ∀ m ∈ ms, m.execution = id
  rows : (ms.map fun m => (m.id, m.node)).Perm
    ((v.markers.filter (·.execution == id)).map fun m => (m.id, m.node))

/-- What holds between two operations: the scene is proper, work is taken on, and every execution is
accounted for while no branch runs. -/
structure Orderly (v : Scene) : Prop where
  proper : v.Proper
  accepting : v.accepting = true
  account : v.Accounted [] []

end Scene

/-- The markers of an execution are taken up. -/
inductive Revives (id : String) : Scene → Scene → Prop where
  | resumed {v : Scene} {now : Instant} {x : Execution} {ms : List Store.Marker}
      (waiting : v.Waiting id ms) (restored : x.Restored id ms) : Revives id v (v.resumed now x ms)
  | abandoned {v : Scene} {ms : List Store.Marker} {error : String} (waiting : v.Waiting id ms) :
      Revives id v (v.abandon id error)

/-! What is made from markers. -/

namespace Execution

variable {x y : Execution} {id : String} {ms : List Store.Marker}

/-- It has gone no step yet since the engine knows it. -/
structure Anew (x : Execution) (id : String) : Prop where
  named : x.id = id
  sound : x.workflow.Sound
  active : x.isActive = true
  timers : x.timers = []
  branches : x.branches = 1
  logs : x.logs = []
  loops : x.activeLoops = []

theorem Anew.foldl {α : Type} {f : Execution → α → Execution}
    (each : ∀ x a, x.Anew id → (f x a).Anew id) (items : List α) (anew : x.Anew id) :
    (items.foldl f x).Anew id := by
  induction items generalizing x with
  | nil => exact anew
  | cons a rest ih => exact ih (each x a anew)

theorem Anew.absorb (anew : x.Anew id) {d : Dict} (absorbed : x.absorb d = .ok y) : y.Anew id := by
  obtain ⟨items, -, absorbed⟩ := bind_eq_ok absorbed
  obtain ⟨more, -, absorbed⟩ := bind_eq_ok absorbed
  dsimp only at absorbed
  split at absorbed
  · obtain ⟨counters, -, absorbed⟩ := bind_eq_ok absorbed
    cases absorbed
    refine Anew.foldl (fun x c anew => ?_) _ (Anew.foldl (fun x node anew => ?_) _ anew)
    · exact ⟨anew.named, anew.sound, anew.active, anew.timers, anew.branches, anew.logs, anew.loops⟩
    · split
      · exact anew
      · exact ⟨anew.named, anew.sound, anew.active, anew.timers, anew.branches, anew.logs, anew.loops⟩
  · cases absorbed

theorem Restored.anew (restored : x.Restored id ms) : x.Anew id := by
  obtain ⟨first, rest, w, s, -, sound, -, absorbed⟩ := restored
  have begun : (Execution.ofSnapshot id w s).Anew id := ⟨rfl, sound, rfl, rfl, rfl, rfl, rfl⟩
  revert begun absorbed
  generalize Execution.ofSnapshot id w s = y
  induction ms generalizing y with
  | nil => rintro ⟨⟩ begun; exact begun
  | cons m ms ih =>
    intro absorbed begun
    rw [List.foldlM_cons] at absorbed
    obtain ⟨z, first, others⟩ := bind_eq_ok absorbed
    exact ih z others (begun.absorb first)

end Execution

/-! What the changes of a restart leave as it was. -/

namespace Scene

variable {v w : Scene} {busy : List String} {picked : List Timer} {id : String} {x : Execution}
  {ms : List Store.Marker} {now : Instant}

theorem frame_untimeAll (v : Scene) (ids : List String) :
    (ids.foldl untime v).toPart = v.toPart ∧ (ids.foldl untime v).limit = v.limit ∧
      (ids.foldl untime v).registry = v.registry := by
  induction ids generalizing v with
  | nil => exact ⟨rfl, rfl, rfl⟩
  | cons id rest ih => exact ih (v.untime id)

theorem execution?_untimeAll (v : Scene) (ids : List String) (k : String) :
    (ids.foldl untime v).execution? k =
      if k ∈ ids then (v.execution? k).map fun x => { x with timers := [] } else v.execution? k := by
  induction ids generalizing v with
  | nil => rfl
  | cons id rest ih =>
    rw [List.foldl_cons, ih, execution?_untime]
    by_cases own : k = id <;> by_cases later : k ∈ rest <;> simp [own, later, Function.comp_def]

theorem frame_rearmAll (v : Scene) (now : Instant) (ms : List Store.Marker) :
    (ms.foldl (rearm now) v).row? = v.row? ∧ (ms.foldl (rearm now) v).markers = v.markers ∧
      (ms.foldl (rearm now) v).live = v.live ∧ (ms.foldl (rearm now) v).accepting = v.accepting ∧
      (ms.foldl (rearm now) v).limit = v.limit ∧ (ms.foldl (rearm now) v).registry = v.registry ∧
      (ms.foldl (rearm now) v).faulty = v.faulty ∧ (ms.foldl (rearm now) v).next = v.next := by
  induction ms generalizing v with
  | nil => exact ⟨rfl, rfl, rfl, rfl, rfl, rfl, rfl, rfl⟩
  | cons m rest ih => exact ih (rearm now v m)

theorem execution?_rearm (v : Scene) (now : Instant) (m : Store.Marker) (k : String) :
    (rearm now v m).execution? k =
      if k = m.execution then (v.execution? k).map fun x => { x with
        logs := x.logs ++ [(Remark.restored m.node (Engine.remaining now m)).entry x.path]
        branches := x.branches + 1
        timers := Execution.addTimer x.timers m.node v.clock.nextTimer }
      else v.execution? k := by
  unfold rearm
  rw [execution?_arm, execution?_say]
  by_cases own : k = m.execution <;> simp [own, Function.comp_def]

theorem isSome_rearm {m : Store.Marker} (known : (v.execution? id).isSome) :
    ((rearm now v m).execution? id).isSome := by
  rw [execution?_rearm]
  split
  · rw [Option.isSome_map]
    exact known
  · exact known

theorem isSome_rearmAll (now : Instant) (ms : List Store.Marker)
    (known : (v.execution? id).isSome) : ((ms.foldl (rearm now) v).execution? id).isSome := by
  induction ms generalizing v with
  | nil => exact known
  | cons m rest ih => exact ih (isSome_rearm known)

theorem frame_finish (v : Scene) (id : String) : (v.finish id).markers = v.markers ∧
    (∀ k, k ≠ id → (v.finish id).live.contains k = v.live.contains k) ∧
    (∀ k, k ≠ id → (v.finish id).execution? k = v.execution? k) ∧
    (v.finish id).accepting = v.accepting := by
  unfold finish
  split
  · refine ⟨rfl, fun k other => ?_, fun k other => ?_, rfl⟩ <;> simp [complete, retire, other]
  · exact ⟨rfl, fun _ _ => rfl, fun k other => if_neg other, rfl⟩

/-! Scenes stay proper. -/

theorem Proper.restarted (proper : v.Proper) (now : Float) : (v.restarted now).Proper := by
  have part : (v.restarted now).toPart = v.toPart := (v.frame_untimeAll v.live).1
  refine proper.keep (congrArg Storage.Part.faulty part) (Nat.le_of_eq (congrArg Storage.Part.next part.symm))
    (fun k => by rw [part]) (fun k => ?_) fun t pending => nomatch pending
  change ((v.live.foldl Scene.untime v).execution? k).map _ = _
  rw [execution?_untimeAll]
  split
  · rw [Option.map_map]
    rfl
  · rfl

theorem Proper.revive (proper : v.Proper) (stored : (v.row? x.id).isSome) : (v.revive x).Proper where
  steady := proper.steady
  named k y known := by
    simp only [Scene.revive] at known
    split at known
    · cases known; exact Eq.symm ‹_›
    · exact proper.named k y known
  stored k y known := by
    simp only [Scene.revive] at known ⊢
    split at known
    · rename_i same; exact same ▸ stored
    · exact proper.stored k y known
  fresh n late := by
    obtain ⟨absent, unstored⟩ := proper.fresh n late
    have other : idText n ≠ x.id := fun same => by simp [← same, unstored] at stored
    exact ⟨by simp [Scene.revive, other, absent], unstored⟩
  timed t pending := by
    simp only [Scene.revive]
    split
    · rfl
    · exact proper.timed t pending

theorem Proper.rearm {m : Store.Marker} (proper : v.Proper) (known : v.execution? m.execution = some x) :
    (rearm now v m).Proper := by
  refine (proper.say _).arm (x := { x with
    logs := x.logs ++ [(Remark.restored m.node (Engine.remaining now m)).entry x.path] }) ?_ _ _ _
  simp [known]

theorem Proper.rearmAll (proper : v.Proper) (own : ∀ m ∈ ms, m.execution = id)
    (known : (v.execution? id).isSome) : (ms.foldl (Scene.rearm now) v).Proper := by
  induction ms generalizing v with
  | nil => exact proper
  | cons m rest ih =>
    obtain ⟨x, held⟩ := Option.isSome_iff_exists.1 known
    exact ih (proper.rearm (own m (.head _) ▸ held)) (fun n later => own n (.tail _ later))
      (isSome_rearm known)

theorem Proper.resumed (proper : v.Proper) (stored : (v.row? x.id).isSome)
    (own : ∀ m ∈ ms, m.execution = x.id) : (v.resumed now x ms).Proper := by
  have known : ((v.revive x).execution? x.id).isSome := by simp [Scene.revive]
  exact ((proper.revive stored).rearmAll own known).finish

theorem Proper.abandon (proper : v.Proper) (error : String) : (v.abandon id error).Proper := by
  refine proper.keep rfl (Nat.le_refl _) (fun k => ?_) (fun _ => rfl) fun _ pending => pending
  unfold Scene.abandon
  dsimp only
  split
  · exact Option.isSome_map
  · rfl

/-! Every execution stays accounted for. -/

/-- What was live waits with its markers. -/
theorem Accounted.restarted (account : v.Accounted [] []) (now : Float) :
    (v.restarted now).Accounted [] [] := by
  have part : (v.restarted now).toPart = v.toPart := (v.frame_untimeAll v.live).1
  have rows : (v.restarted now).row? = v.row? := congrArg Storage.Part.row? part
  have kept : (v.restarted now).markers = v.markers := congrArg Storage.Part.markers part
  have own (k : String) : (v.restarted now).aspect [] [] k =
      ⟨(v.restarted now).execution? k, v.row? k, false, 0, [], [],
        v.markers.filter (·.execution == k)⟩ := by
    unfold aspect
    rw [rows, kept]
    rfl
  refine ⟨fun k => ?_, List.nodup_nil, nofun, kept ▸ account.markers⟩
  rw [own]
  cases account.stands k with
  | absent h =>
    have unknown : v.execution? k = Option.none := h.unknown
    refine .absent ⟨?_, h.unstored, ⟨rfl, rfl⟩, rfl, rfl, h.nothing.2.2⟩
    change (v.live.foldl untime v).execution? k = Option.none
    rw [execution?_untimeAll, unknown]
    split <;> rfl
  | living x h =>
    refine .dormant ⟨h.row, ⟨rfl, rfl⟩, ⟨rfl, rfl⟩, fun none => ?_⟩
    have none : (v.aspect [] [] k).markers = [] := none
    have branches := h.branches
    have many := h.markers.length_eq
    rw [none, List.map_nil, List.length_nil, List.length_map] at many
    have waiting := h.waiting
    have idle : (v.aspect [] [] k).busy = 0 := rfl
    omega
  | dormant h => exact .dormant ⟨h.row, ⟨rfl, rfl⟩, ⟨rfl, rfl⟩, h.markers⟩
  | past h => exact .past ⟨h.row, rfl, ⟨rfl, h.nothing.2⟩, fun _ _ _ => ⟨rfl, rfl⟩⟩

/-- What waits with its markers is neither live nor over. -/
theorem Accounted.dormant (account : v.Accounted busy picked) (waiting : v.Waiting id ms) :
    (v.aspect busy picked id).Dormant := by
  have markers : (v.aspect busy picked id).markers ≠ [] := by
    intro none
    have none : v.markers.filter (·.execution == id) = [] := none
    have rows := waiting.rows
    rw [none] at rows
    exact waiting.some (List.map_eq_nil_iff.1 (List.perm_nil.1 rows))
  cases account.stands id with
  | absent h => exact absurd h.nothing.2.2 markers
  | living x h => exact absurd (h.live.symm.trans waiting.still) (by decide)
  | dormant h => exact h
  | past h => exact absurd h.nothing.2 markers

/-- Without certain markers. -/
def without (v : Scene) (numbers : List Nat) : Scene :=
  { v with markers := v.markers.filter fun m => !numbers.contains m.id }

/-- An execution that waited becomes live with one branch, its markers apart. -/
theorem Accounted.revive (account : v.Accounted busy picked)
    (dormant : (v.aspect busy picked id).Dormant) (anew : x.Anew id) (numbers : List Nat)
    (all : ∀ m ∈ v.markers, numbers.contains m.id = (m.execution == id)) :
    ((v.revive x).without numbers).Accounted (id :: busy) picked := by
  obtain ⟨row, stored, running⟩ := dormant.row
  obtain ⟨noTimers, noPicked⟩ := dormant.timers
  have idle : busy.count id = 0 := dormant.still.2
  simp only [aspect] at noTimers noPicked
  have named := anew.named
  have rest : v.markers.filter (fun m => !numbers.contains m.id) =
      v.markers.filter fun m => m.execution != id :=
    List.filter_congr fun m there => by rw [all m there]; rfl
  have none : (v.markers.filter fun m => m.execution != id).filter (·.execution == id) = [] := by
    simp [List.filter_filter]
  refine account.change (i := id) (.living x ⟨?_, anew.active, ?_, ⟨row, stored, running⟩, ?_, ?_, ?_,
    ?_⟩) (fun k other => ?_) account.timers account.numbered ?_
  · simp [aspect, without, Scene.revive, named]
  · simp [aspect, without, Scene.revive, named]
  · simp [aspect, without, Scene.revive, Execution.pending, anew.timers, noTimers, noPicked]
  · simp only [aspect, without, Scene.revive, rest, none, noTimers, noPicked]
    exact .refl _
  · simp [aspect, without, Scene.revive, anew.branches, noTimers, noPicked, idle]
  · exact Int.le_of_eq anew.branches.symm
  · have live : (v.revive x).live.contains k = v.live.contains k := by
      simp [Scene.revive, named, other]
    have markers : (v.markers.filter fun m => m.execution != id).filter (·.execution == k) =
        v.markers.filter (·.execution == k) := by
      rw [List.filter_filter]
      refine List.filter_congr fun m _ => ?_
      by_cases whose : m.execution = k <;> simp [whose, other]
    simp only [aspect, without, live, List.count_cons_of_ne (Ne.symm other)]
    simp only [Scene.revive, named, other, if_false, rest, markers]
  · exact (List.filter_sublist.map _).nodup account.markers

theorem filter_key_eq {α : Type} {key : α → Nat} {a : α} {items : List α}
    (distinct : (items.map key).Nodup) (there : a ∈ items) :
    items.filter (fun b => key b == key a) = [a] := by
  induction items with
  | nil => cases there
  | cons b rest ih =>
    rw [List.map_cons, List.nodup_cons] at distinct
    rcases List.mem_cons.1 there with rfl | later
    · have others : rest.filter (fun b => key b == key a) = [] :=
        List.filter_eq_nil_iff.2 fun b there same =>
          distinct.1 (List.mem_map.2 ⟨b, there, by simpa using same⟩)
      simp [others]
    · have other : key b ≠ key a := fun same => distinct.1 (same ▸ List.mem_map_of_mem later)
      rw [List.filter_cons_of_neg (by simpa using other), ih distinct.2 later]

/-- A timer is set again for a marker that is there, of those set apart. -/
theorem Accounted.rearm {m : Store.Marker} {numbers : List Nat} {r : Store.MarkerRow}
    (account : (v.without (m.id :: numbers)).Accounted busy picked) (attended : m.execution ∈ busy)
    (known : v.execution? m.execution = some x) (active : x.isActive = true)
    (distinct : (v.markers.map (·.id)).Nodup) (there : r ∈ v.markers) (number : r.id = m.id)
    (own : r.execution = m.execution) (node : r.node = m.node) (new : m.id ∉ numbers)
    (now : Instant) : ((Scene.rearm now v m).without numbers).Accounted busy picked := by
  have told := account.say (i := m.execution) (.restored m.node (Engine.remaining now m))
  have held : ((v.without (m.id :: numbers)).say m.execution
      (.restored m.node (Engine.remaining now m))).execution? m.execution = some { x with logs :=
        x.logs ++ [(Remark.restored m.node (Engine.remaining now m)).entry x.path] } := by
    have held : (v.without (m.id :: numbers)).execution? m.execution = some x := known
    simp [held]
  have armed := told.arm (m := r) (told.living attended held active) own (fun present => ?_)
    (Engine.remaining now m)
  · have same : (v.markers.filter fun m => !numbers.contains m.id).Perm
        ((v.markers.filter fun k => !(m.id :: numbers).contains k.id) ++ [r]) := by
      have others : (v.markers.filter fun k => !numbers.contains k.id).filter (fun k => k.id != r.id) =
          v.markers.filter fun k => !(m.id :: numbers).contains k.id := by
        rw [List.filter_filter]
        refine List.filter_congr fun k _ => ?_
        by_cases same : k.id = m.id <;> simp [number, same]
      have one : (v.markers.filter fun k => !numbers.contains k.id).filter (fun k => !(k.id != r.id)) =
          [r] := by
        have present : r ∈ v.markers.filter fun k => !numbers.contains k.id :=
          List.mem_filter.2 ⟨there, by simp [number, new]⟩
        have apart : ((v.markers.filter fun k => !numbers.contains k.id).map (·.id)).Nodup :=
          (List.filter_sublist.map _).nodup distinct
        rw [← filter_key_eq apart present]
        exact List.filter_congr fun k _ => Bool.not_not _
      have parts := List.filter_append_perm (fun k : Store.MarkerRow => k.id != r.id)
        (v.markers.filter fun k => !numbers.contains k.id)
      rw [others, one] at parts
      exact parts.symm
    refine Eq.mp (congrArg (Accounted busy picked) ?_) (armed.perm same)
    rw [node, number]
    rfl
  · obtain ⟨k, kept, same⟩ := List.mem_map.1 present
    have apart := (List.mem_filter.1 kept).2
    simp [same, number] at apart

/-- The timers of an execution are set again. -/
theorem Accounted.rearmAll (account : (v.without (ms.map (·.id))).Accounted busy picked)
    (attended : id ∈ busy) (known : v.execution? id = some x) (active : x.isActive = true)
    (distinct : (v.markers.map (·.id)).Nodup) (apart : (ms.map (·.id)).Nodup)
    (each : ∀ m ∈ ms, m.execution = id ∧
      ∃ r ∈ v.markers, r.id = m.id ∧ r.execution = id ∧ r.node = m.node) (now : Instant) :
    (ms.foldl (Scene.rearm now) v).Accounted busy picked := by
  induction ms generalizing v x with
  | nil =>
    have whole : v.without [] = v := by simp [without]
    exact whole ▸ account
  | cons m rest ih =>
    obtain ⟨mine, r, there, number, own, node⟩ := each m (.head _)
    rw [List.map_cons, List.nodup_cons] at apart
    have armed := account.rearm (mine ▸ attended) (mine ▸ known) active distinct there number
      (own.trans mine.symm) node apart.1 now
    have held : (Scene.rearm now v m).execution? id = some { x with
        logs := x.logs ++ [(Remark.restored m.node (Engine.remaining now m)).entry x.path]
        branches := x.branches + 1
        timers := Execution.addTimer x.timers m.node v.clock.nextTimer } := by
      simp [execution?_rearm, mine, known]
    exact ih armed held active distinct apart.2 fun n later => each n (.tail _ later)

/-- The markers that wait, one by one. -/
theorem Waiting.each (waiting : v.Waiting id ms) {m : Store.Marker} (there : m ∈ ms) :
    m.execution = id ∧ ∃ r ∈ v.markers, r.id = m.id ∧ r.execution = id ∧ r.node = m.node := by
  refine ⟨waiting.own m there, ?_⟩
  have listed : (m.id, m.node) ∈ ms.map fun m => (m.id, m.node) := List.mem_map.2 ⟨m, there, rfl⟩
  obtain ⟨r, kept, same⟩ := List.mem_map.1 (waiting.rows.mem_iff.1 listed)
  obtain ⟨present, whose⟩ := List.mem_filter.1 kept
  exact ⟨r, present, congrArg Prod.fst same, by simpa using whose, congrArg Prod.snd same⟩

theorem Waiting.numbers (waiting : v.Waiting id ms) :
    (ms.map (·.id)).Perm ((v.markers.filter (·.execution == id)).map (·.id)) := by
  have rows := waiting.rows.map Prod.fst
  rwa [List.map_map, List.map_map] at rows

theorem Accounted.resumed (account : v.Accounted [] []) (waiting : v.Waiting id ms) (anew : x.Anew id) :
    (v.resumed now x ms).Accounted [] [] := by
  have numbers := waiting.numbers
  have own : ((v.markers.filter (·.execution == id)).map (·.id)).Nodup :=
    (List.filter_sublist.map _).nodup account.markers
  have begun := account.revive (account.dormant waiting) anew (ms.map (·.id)) fun m there => by
    rw [Bool.eq_iff_iff, List.contains_iff_mem, beq_iff_eq, numbers.mem_iff]
    constructor
    · intro listed
      obtain ⟨r, kept, same⟩ := List.mem_map.1 listed
      obtain ⟨present, whose⟩ := List.mem_filter.1 kept
      obtain rfl := List.inj_on_of_nodup_map account.markers present there same
      simpa using whose
    · exact fun whose => List.mem_map.2 ⟨m, List.mem_filter.2 ⟨there, by simp [whose]⟩, rfl⟩
  have known : (v.revive x).execution? id = some x := by simp [Scene.revive, anew.named]
  have armed := begun.rearmAll (List.mem_cons_self ..) known anew.active account.markers
    (numbers.nodup_iff.2 own) (fun m there => waiting.each there) now
  unfold Scene.resumed
  rw [anew.named]
  obtain ⟨y, held⟩ := Option.isSome_iff_exists.1
    (isSome_rearmAll now ms (Option.isSome_of_eq_some known))
  exact armed.finish held

theorem Accounted.abandon (account : v.Accounted busy picked) (waiting : v.Waiting id ms)
    (error : String) : (v.abandon id error).Accounted busy picked := by
  have dormant := account.dormant waiting
  obtain ⟨row, stored, -⟩ := dormant.row
  have stored : v.row? id = some row := stored
  refine account.change (i := id) (.past ⟨?_, dormant.still.1, ⟨dormant.timers.1, ?_⟩, fun _ _ _ =>
    ⟨dormant.still.2, dormant.timers.2⟩⟩) (fun k other => ?_) account.timers account.numbered ?_
  · exact ⟨{ row with status := .failed, error := some error, ended := true },
      by simp [aspect, Scene.abandon, stored], nofun⟩
  · simp [aspect, Scene.abandon, wipe, Storage.Part.keep]
  · have markers : (v.markers.filter fun m => m.execution != id).filter (·.execution == k) =
        v.markers.filter (·.execution == k) := by
      rw [List.filter_filter]
      refine List.filter_congr fun m _ => ?_
      by_cases whose : m.execution = k <;> simp [whose, other]
    simp [aspect, Scene.abandon, wipe, Storage.Part.keep, other, markers]
  · exact (List.filter_sublist.map _).nodup account.markers

end Scene

open Scene in
theorem Revives.orderly {id : String} {v w : Scene} (revives : Revives id v w) (orderly : v.Orderly) :
    w.Orderly := by
  cases revives with
  | @resumed now x ms waiting restored =>
    have anew := restored.anew
    obtain ⟨row, stored, -⟩ := (orderly.account.dormant waiting).row
    refine ⟨orderly.proper.resumed (Option.isSome_of_eq_some (anew.named ▸ stored))
      (anew.named ▸ waiting.own), ?_, orderly.account.resumed waiting anew⟩
    rw [Scene.resumed, (frame_finish _ _).2.2.2, (frame_rearmAll _ _ _).2.2.2.1]
    exact orderly.accepting
  | abandoned waiting =>
    exact ⟨orderly.proper.abandon _, orderly.accepting, orderly.account.abandon waiting _⟩

/-- What waits under another id goes on waiting. -/
theorem Revives.waiting {id k : String} {v w : Scene} {ms : List Store.Marker} (revives : Revives id v w)
    (other : k ≠ id) (waiting : v.Waiting k ms) : w.Waiting k ms := by
  cases revives with
  | @resumed now x ns own restored =>
    have named := restored.anew.named
    have markers : (v.resumed now x ns).markers = v.markers := by
      rw [Scene.resumed, (Scene.frame_finish _ _).1, (Scene.frame_rearmAll _ _ _).2.1]
      rfl
    have live : (v.resumed now x ns).live.contains k = v.live.contains k := by
      rw [Scene.resumed, (Scene.frame_finish _ _).2.1 k (named ▸ other),
        (Scene.frame_rearmAll _ _ _).2.2.1]
      simp [Scene.revive, named, other]
    exact ⟨live.trans waiting.still, waiting.some, waiting.own, markers ▸ waiting.rows⟩
  | abandoned own =>
    refine ⟨waiting.still, waiting.some, waiting.own, waiting.rows.trans (.of_eq ?_)⟩
    change _ = ((v.markers.filter fun m => m.execution != id).filter (·.execution == k)).map _
    rw [List.filter_filter]
    congr 1
    refine List.filter_congr fun m _ => ?_
    by_cases whose : m.execution = k <;> simp [whose, other]

end Runbook
