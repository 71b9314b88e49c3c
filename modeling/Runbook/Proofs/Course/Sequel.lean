import Runbook.Proofs.Course.Restart

/-!
Histories over restarts. Besides the work of one life an engine may be shut down, a new one may go on
with its storage, and what waits there may be taken up again. Between two operations every execution
is then accounted for: a live one has a timer and a marker for each branch that it waits for, one that
is running in store has a marker, and of one that is over there is nothing left.
-/
namespace Runbook

/-- Use of an engine: work, and new engines that go on with its storage. -/
def Operation.isUse : Operation → Bool
  | .restart _ | .resume => true
  | op => op.isWork

theorem Operation.isWork_of_isUse {op : Operation} (use : op.isUse = true)
    (restart : ∀ now, op ≠ .restart now) (resume : op ≠ .resume) : op.isWork = true := by
  unfold isUse at use
  split at use
  · exact absurd rfl (restart _)
  · exact absurd rfl resume
  · exact use

/-- What happens to an engine and its successors. -/
inductive Event : Scene → Scene → Prop where
  | deed {v w : Scene} (deed : Deed v w) : Event v w
  | restart {v : Scene} (now : Float) : Event v (v.restarted now)
  | revive {v w : Scene} {id : String} (revives : Revives id v w) : Event v w

/-- Events one after the other. -/
abbrev Events : Scene → Scene → Prop := Relation.ReflTransGen Event

theorem Deed.orderly {v w : Scene} (deed : Deed v w) (orderly : v.Orderly) : w.Orderly := by
  have kept := deed.keeps orderly.proper
  exact ⟨kept.proper, kept.accepting.trans orderly.accepting,
    deed.accounted orderly.proper orderly.account⟩

theorem Event.orderly {v w : Scene} (event : Event v w) (orderly : v.Orderly) : w.Orderly := by
  cases event with
  | deed deed => exact deed.orderly orderly
  | restart now => exact ⟨orderly.proper.restarted now, rfl, orderly.account.restarted now⟩
  | revive revives => exact revives.orderly orderly

/-- What every event keeps of an orderly scene is kept by many. -/
theorem Events.induct {v w : Scene} {p : Scene → Prop} (events : Events v w) (orderly : v.Orderly)
    (initial : p v) (step : ∀ u t, Event u t → u.Orderly → p u → p t) : w.Orderly ∧ p w := by
  induction events with
  | refl => exact ⟨orderly, initial⟩
  | tail _ event ih => exact ⟨event.orderly ih.1, step _ _ event ih.1 ih.2⟩

theorem Deeds.events {v w : Scene} (deeds : Deeds v w) : Events v w :=
  Relation.ReflTransGen.mono (fun _ _ deed => Event.deed deed) _ _ deeds

theorem Revivals.events {v w : Scene} (revivals : Revivals v w) : Events v w :=
  Relation.ReflTransGen.mono (fun _ _ ⟨_, revives⟩ => Event.revive revives) _ _ revivals

namespace Engine

/-- The timers of an execution that are still to fire. -/
def timersOf (e : Engine) (id : String) : List Timer := e.clock.timers.filter (·.execution == id)

/-- The stored markers of an execution. -/
def markersOf (e : Engine) (id : String) : List Store.MarkerRow :=
  e.storage.tables.markers.filter (·.execution == id)

theorem events_carryOut (op : Operation) (use : op.isUse = true) {v : Scene} (orderly : v.Orderly) :
    Plays (carryOut op) v (fun _ w => Events v w) fun _ w => Events v w := by
  by_cases restart : ∃ now, op = .restart now
  · obtain ⟨now, rfl⟩ := restart
    refine Agree.safe ((plays_restart orderly now).after fun _ => .pure ?_)
    exact .single (.restart now)
  by_cases resume : op = .resume
  · rw [resume]
    refine .bind ((plays_resume orderly).imp (fun _ _ h => h) fun _ _ revivals => revivals.events) ?_
    exact fun _ w revivals => .pure revivals.events
  have work := Operation.isWork_of_isUse use (fun now same => restart ⟨now, same⟩) resume
  refine (deeds_carryOut _ work orderly.proper orderly.accepting).imp ?_ ?_ <;>
  · intro _ w deeds
    exact deeds.events

theorem events_after (e : Engine) (op : Operation) (use : op.isUse = true) (orderly : e.scene.Orderly) :
    Events e.scene (e.after op).scene :=
  after_of_ends (events_carryOut op use orderly e rfl).2

theorem events_afterAll (ops : List Operation) (use : ∀ op ∈ ops, op.isUse = true) (e : Engine)
    (orderly : e.scene.Orderly) : Events e.scene (e.afterAll ops).scene := by
  induction ops generalizing e with
  | nil => exact .refl
  | cons op rest ih =>
    have first := events_after e op (use op (.head _)) orderly
    refine first.trans (ih (fun op later => use op (.tail _ later)) _ ?_)
    exact (first.induct (p := fun _ => True) orderly trivial fun _ _ _ _ _ => trivial).1

theorem Fresh.orderly {e : Engine} (fresh : e.Fresh) : e.scene.Orderly :=
  ⟨fresh.proper, fresh.accepting, fresh.accounted⟩

/-- Between two operations every execution is orderly. -/
theorem Fresh.orderly_afterAll {e : Engine} (fresh : e.Fresh) (ops : List Operation)
    (use : ∀ op ∈ ops, op.isUse = true) : (e.afterAll ops).scene.Orderly :=
  ((events_afterAll ops use e fresh.orderly).induct (p := fun _ => True) fresh.orderly trivial
    fun _ _ _ _ _ => trivial).1

/-- A live execution waits for as many branches as it has timers and markers. -/
theorem living_of_orderly {e : Engine} {id : String} (orderly : e.scene.Orderly)
    (live : e.live.contains id = true) :
    ∃ x, e.execution? id = some x ∧ 1 ≤ x.branches ∧ x.branches = (e.timersOf id).length ∧
      x.branches = (e.markersOf id).length ∧ ((e.timersOf id).map (·.marker)).Nodup ∧
      ∀ t ∈ e.timersOf id, ∃ m ∈ e.markersOf id, m.id = t.marker ∧ m.node = t.node := by
  obtain ⟨x, living⟩ := (orderly.account.stands id).living_of_live live
  have markers : ((e.markersOf id).map fun m => (m.id, m.node)).Perm
      ((e.timersOf id).map fun t => (t.marker, t.node)) := by
    have markers := living.markers
    simp only [Scene.aspect, List.filter_nil, List.append_nil] at markers
    exact markers
  have branches : x.branches = (e.timersOf id).length := by
    have branches := living.branches
    simp only [Scene.aspect, List.filter_nil, List.append_nil, List.count_nil] at branches
    exact branches.trans (Int.zero_add _)
  refine ⟨x, living.known, living.waiting, branches, ?_, ?_, fun t there => ?_⟩
  · rw [branches, ← List.length_map (fun t : Timer => (t.marker, t.node)), ← markers.length_eq,
      List.length_map]
  · have numbers := markers.map Prod.fst
    rw [List.map_map, List.map_map] at numbers
    exact numbers.nodup_iff.1 ((List.filter_sublist.map _).nodup orderly.account.markers)
  · obtain ⟨m, stored, same⟩ := List.mem_map.1 (markers.mem_iff.2 (List.mem_map_of_mem there))
    exact ⟨m, stored, congrArg Prod.fst same, congrArg Prod.snd same⟩

/-- Over all lives of an engine and between any two operations: a live execution waits for at least
one branch, and for as many as it has timers that are still to fire and markers, where every timer
holds the number of a marker of its own for the same delay; of an execution that is over in store
there is no live context, no timer and no marker; and one that is running in store has a marker. -/
theorem Fresh.balanced {e : Engine} (fresh : e.Fresh) (ops : List Operation)
    (use : ∀ op ∈ ops, op.isUse = true) (id : String) :
    let t := e.afterAll ops
    (t.live.contains id = true → ∃ x, t.execution? id = some x ∧ 1 ≤ x.branches ∧
      x.branches = (t.timersOf id).length ∧ x.branches = (t.markersOf id).length ∧
      ((t.timersOf id).map (·.marker)).Nodup ∧
      ∀ s ∈ t.timersOf id, ∃ m ∈ t.markersOf id, m.id = s.marker ∧ m.node = s.node) ∧
    (∀ row, t.storage.tables.execution? id = some row →
      (row.status.isTerminal = true →
        t.live.contains id = false ∧ t.timersOf id = [] ∧ t.markersOf id = []) ∧
      (row.status = .running → t.markersOf id ≠ [])) := by
  intro t
  have orderly : t.scene.Orderly := fresh.orderly_afterAll ops use
  refine ⟨living_of_orderly orderly, fun row stored => ?_⟩
  have stored : (t.scene.aspect [] [] id).row? = some row := stored
  cases orderly.account.stands id with
  | absent h => cases h.unstored.symm.trans stored
  | living x h =>
    obtain ⟨r, there, running⟩ := h.row
    obtain rfl : r = row := Option.some.inj (there.symm.trans stored)
    refine ⟨fun ended => by simp [running, ExecutionStatus.isTerminal] at ended, fun _ none => ?_⟩
    obtain ⟨y, -, least, -, many, -⟩ := living_of_orderly orderly h.live
    rw [none, List.length_nil] at many
    omega
  | dormant h =>
    obtain ⟨r, there, running⟩ := h.row
    obtain rfl : r = row := Option.some.inj (there.symm.trans stored)
    exact ⟨fun ended => by simp [running, ExecutionStatus.isTerminal] at ended, fun _ => h.markers⟩
  | past h =>
    obtain ⟨r, there, ended⟩ := h.row
    obtain rfl : r = row := Option.some.inj (there.symm.trans stored)
    exact ⟨fun _ => ⟨h.live, h.nothing⟩, fun running => absurd running ended⟩

/-- Two delays behind a trigger, the first with a junction behind it. -/
def writtenPair : Value :=
  Workflow.written
    [Workflow.writtenNode "T" "trigger" [("triggerType", .text "created")],
      Workflow.writtenNode "D" "delay" [("amount", .int 5), ("unit", .text "seconds")],
      Workflow.writtenNode "E" "delay" [("amount", .int 20), ("unit", .text "seconds")],
      Workflow.writtenNode "J" "junction" []]
    [Workflow.writtenConnection "T" "D" .null, Workflow.writtenConnection "T" "E" .null,
      Workflow.writtenConnection "D" "J" .null]

/-- Both delays are taken up by an engine that goes on two seconds later. -/
def resumedPair : List Operation :=
  [.save writtenPair, .execute "wf" .null (.text "tickets") .null, .restart 1700000002.0, .resume]

set_option maxRecDepth 100000 in
theorem balanced_resumedPair : ∃ x : Execution,
    (bare.afterAll resumedPair).execution? "id-1" = some x ∧ x.branches = 2 ∧
      ((bare.afterAll resumedPair).timersOf "id-1").length = 2 ∧
      ((bare.afterAll resumedPair).markersOf "id-1").length = 2 := by
  have live : (bare.afterAll resumedPair).live.contains "id-1" = true := by decide +kernel
  have timers : ((bare.afterAll resumedPair).timersOf "id-1").length = 2 := by decide +kernel
  have use : ∀ op ∈ resumedPair, op.isUse = true := by simp [resumedPair, Operation.isUse, Operation.isWork]
  obtain ⟨x, known, -, own, markers, -⟩ := (fresh_bare.balanced resumedPair use "id-1").1 live
  rw [timers] at own
  exact ⟨x, known, own, timers, by omega⟩

end Engine

end Runbook
