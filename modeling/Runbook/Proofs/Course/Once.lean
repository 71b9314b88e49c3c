import Runbook.Proofs.Course.Endurance
import Runbook.Proofs.Course.Lifecycle

/-!
No continuation runs twice. When a timer of a running execution fires, the marker that it was set for
is in store; the marker is deleted before the connections of the delay are followed. Only a refused
session can keep it, and then it may be followed once more after a restart.
-/
namespace Runbook

/-- Use of an engine whose storage may refuse sessions with storage errors, in any pattern. -/
def Operation.isTrial : Operation → Bool
  | .outage o => o.kind == .storage
  | op => op.isUse

/-- A timer that fires, and the engine then. -/
structure Firing where
  timer : Timer
  engine : Engine

namespace Firing

/-- The engine as the continuation finds it, with the fields of its execution bound. -/
def found (f : Firing) : Engine :=
  let fields := ((f.engine.execution? f.timer.execution).map Engine.executionFields).getD []
  { f.engine with storage := { f.engine.storage with journal := { f.engine.storage.journal with
      bound := Dict.merge f.engine.storage.journal.bound fields } } }

/-- The connections of the delay are followed. -/
def follows (f : Firing) : Bool :=
  match Engine.takeUp f.timer f.found with
  | .ok active _ => active
  | .error _ _ => false

/-- The numbers of the markers in store once the continuation is taken up. -/
def left (f : Firing) : List Nat :=
  match Engine.takeUp f.timer f.found with
  | .ok _ t | .error _ t => t.storage.tables.markers.map (·.id)

/-- The session that is to delete its marker is refused. -/
def refused (f : Firing) : Bool := f.engine.storage.refuses "clear delay marker"

/-- The marker that the timer was set for is in store. -/
def Marked (f : Firing) : Prop :=
  ∃ r ∈ f.engine.storage.tables.markers,
    r.id = f.timer.marker ∧ r.execution = f.timer.execution ∧ r.node = f.timer.node

end Firing

namespace Engine

/-- The engine after work, whatever came of it. -/
def leftBy {α : Type} (e : Engine) (op : Run α) : Engine :=
  match op e with
  | .ok _ t | .error _ t => t

/-- Timers that fire one after the other. -/
def firingsOf : List Timer → Engine → List Firing
  | [], _ => []
  | t :: rest, e => ⟨t, e⟩ :: firingsOf rest (e.leftBy (fire t))

/-- The timers that fire in an operation. -/
def firingsIn (e : Engine) : Operation → List Firing
  | .advance seconds =>
    let (due, clock) := e.clock.advance seconds
    firingsOf due { e with clock }
  | _ => []

/-- The timers that fire in the course of operations. -/
def firings (e : Engine) : List Operation → List Firing
  | [] => []
  | op :: rest => e.firingsIn op ++ (e.after op).firings rest

variable {e : Engine}

theorem ends_leftBy (e : Engine) (op : Run α) :
    Ends op e (fun _ t => e.leftBy op = t) fun _ t => e.leftBy op = t := by
  unfold Ends leftBy
  cases op e <;> rfl

theorem leftBy_of_keeps {α : Type} {I : Engine → Prop} {op : Run α}
    (ends : Ends op e (fun _ t => I t) fun _ t => I t) : I (e.leftBy op) := by
  unfold Ends at ends
  unfold leftBy
  cases run : op e with
  | ok a t => rw [run] at ends; exact ends
  | error f t => rw [run] at ends; exact ends

theorem keeps_carryOut (op : Operation) (trial : op.isTrial = true) :
    Keeps (Guarded [] []) (carryOut op) := by
  cases op with
  | save definition =>
    exact .bind (.ofExcept _) fun w => .bind (keeps_quiet (Storage.quiet_saveWorkflow w)) fun _ => .pure _
  | update id definition =>
    exact .bind (.ofExcept _) fun w => keeps_quiet (Storage.quiet_updateWorkflow id w)
  | setStatus id status =>
    exact .bind (keeps_quiet (Storage.quiet_setWorkflowStatus id status)) fun _ => .pure _
  | execute workflow payload module item =>
    exact .bind (keeps_execute workflow payload module item) fun _ => .pure _
  | trigger module event payload item =>
    exact .bind (keeps_trigger module event payload item) fun _ => .pure _
  | cancel id => exact .bind (keeps_cancel id) fun _ => .pure _
  | cancelAll workflow => exact .bind (keeps_cancelAll workflow) fun _ => .pure _
  | advance seconds =>
    refine .bind (.get fun _ e guarded => ?_) fun _ => .pure _
    exact (guarded_moveTo guarded _).imp (fun _ _ h => h) fun _ _ h => h.elim
  | restart now =>
    refine .bind (fun e guarded => ?_) fun _ => .pure _
    exact (guarded_restart guarded now).imp (fun _ _ h => h) fun _ _ h => h.elim
  | resume => exact .bind (fun e guarded => guarded_resume guarded) fun _ => .pure _
  | outage o =>
    refine .bind (fun e guarded => Ends.modify_iff.2 ?_) fun _ => .pure _
    obtain ⟨l, busy, picked, guards, sound⟩ := guarded
    have kind : o.kind = .storage := by simpa [Operation.isTrial] using trial
    refine ⟨l, busy, picked, guards.stays ⟨rfl, Nat.le_refl _, fun mild p planned => ?_⟩, sound⟩
    rcases List.mem_append.1 planned with old | new
    · exact mild p (List.mem_filter.1 old).1
    · exact List.mem_singleton.1 new ▸ kind
  | _ => cases trial

theorem Fresh.guarded (fresh : e.Fresh) : e.Guarded [] [] := by
  refine ⟨e.ledger [] [], rfl, rfl, ⟨?_, fresh.accepting, rfl, ?_, ?_⟩, ?_, ?_, ?_, ?_, ?_, ?_, ?_⟩ <;>
    simp [Storage.Mild, ledger, execution?, fresh.outages, fresh.executions, fresh.markers, fresh.timers,
      fresh.live]

theorem guarded_after (guarded : e.Guarded [] []) {op : Operation} (trial : op.isTrial = true) :
    (e.after op).Guarded [] [] :=
  after_of_ends (keeps_carryOut op trial e guarded)

/-- Every timer that fires finds the ledger sound, with itself the first of those about to fire. -/
theorem guarded_of_mem_firingsOf {ts : List Timer} (guarded : e.Guarded [] ts) {f : Firing}
    (fires : f ∈ firingsOf ts e) : ∃ rest, f.engine.Guarded [] (f.timer :: rest) := by
  induction ts generalizing e with
  | nil => cases fires
  | cons t rest ih =>
    rcases List.mem_cons.1 fires with rfl | later
    · exact ⟨rest, guarded⟩
    · exact ih (leftBy_of_keeps ((guarded_fire guarded).imp (fun _ _ h => h) fun _ _ h => h.elim)) later

theorem guarded_of_mem_firings {ops : List Operation} (guarded : e.Guarded [] [])
    (trial : ∀ op ∈ ops, op.isTrial = true) {f : Firing} (fires : f ∈ e.firings ops) :
    ∃ rest, f.engine.Guarded [] (f.timer :: rest) := by
  induction ops generalizing e with
  | nil => cases fires
  | cons op rest ih =>
    rcases List.mem_append.1 fires with now | later
    · cases op with
      | advance seconds => exact guarded_of_mem_firingsOf (guarded.pick _) now
      | _ => cases now
    · exact ih (guarded_after guarded (trial op (.head _))) (fun op later => trial op (.tail _ later)) later

end Engine

namespace Firing

variable {f : Firing} {rest : List Timer}

/-- A continuation whose connections are followed had its marker in store, and gives it up unless the
session is refused. -/
theorem spent_of_follows (guarded : f.engine.Guarded [] (f.timer :: rest)) (follows : f.follows = true) :
    f.Marked ∧ (f.refused = true ∨ f.timer.marker ∉ f.left) := by
  obtain ⟨l, busy, due, guards, sound⟩ := guarded
  have bound : f.found.Guards l := guards.stays (s := f.found.storage) (.of_eq rfl rfl rfl)
  have ends := Engine.guarded_takeUp ⟨l, busy, due, bound, sound⟩
  unfold Ends at ends
  unfold Firing.follows at follows
  unfold left
  cases run : Engine.takeUp f.timer f.found with
  | error p t =>
    rw [run] at follows
    cases follows
  | ok active t =>
    rw [run] at ends follows
    obtain ⟨marked, spent⟩ := ends.2 follows
    refine ⟨marked, spent.imp (fun refused => refused) fun gone there => ?_⟩
    obtain ⟨r, present, same⟩ := List.mem_map.1 there
    exact gone r present same

end Firing

namespace Engine

variable {e : Engine}

/-- Each continuation is followed at most once over all lives of an engine, unless its marker could
not be deleted: of two timers that fire for a marker of one number, and whose connections are followed,
the session that deletes the marker of the first was refused, or no marker of that number was left then
and the second fired for another marker, which was saved since. -/
theorem Fresh.follows_once (fresh : e.Fresh) (ops : List Operation)
    (trial : ∀ op ∈ ops, op.isTrial = true) :
    (e.firings ops).Pairwise fun f g => f.follows = true → g.follows = true →
      f.timer.marker = g.timer.marker → f.refused = true ∨ f.timer.marker ∉ f.left ∧ g.Marked := by
  refine List.pairwise_of_forall_mem_list fun f first g second follows again _ => ?_
  obtain ⟨_, guarded⟩ := guarded_of_mem_firings fresh.guarded trial first
  obtain ⟨_, guarded'⟩ := guarded_of_mem_firings fresh.guarded trial second
  exact (Firing.spent_of_follows guarded follows).2.imp (fun refused => refused) fun gone =>
    ⟨gone, (Firing.spent_of_follows guarded' again).1⟩

/-- The marker of the first of two delays cannot be deleted when its timer fires, and another engine
takes up both. -/
def refusedPair : List Operation :=
  [.save writtenPair, .execute "wf" .null (.text "tickets") .null,
    .outage ⟨"clear delay marker", 0, 1, .storage, []⟩, .advance 5.0, .restart 1700000010.0, .resume,
    .advance 0.0]

set_option maxRecDepth 100000 in
theorem follows_once_refusedPair : ∃ f g, bare.firings refusedPair = [f, g] ∧ f.follows = true ∧
    g.follows = true ∧ f.timer.marker = g.timer.marker ∧ f.timer.marker ∈ f.left ∧ f.refused = true := by
  have fired : (bare.firings refusedPair).map (fun f => (f.follows, f.timer.marker, f.left)) =
      [(true, 1, [1, 2]), (true, 1, [2])] := by decide +kernel
  obtain ⟨f, more, same, first, others⟩ := List.map_eq_cons_iff.1 fired
  obtain ⟨g, none, rfl, second, last⟩ := List.map_eq_cons_iff.1 others
  obtain rfl := List.map_eq_nil_iff.1 last
  simp only [Prod.mk.injEq] at first second
  have marker : f.timer.marker = g.timer.marker := first.2.1.trans second.2.1.symm
  have stays : f.timer.marker ∈ f.left := by simp [first]
  have once := fresh_bare.follows_once refusedPair (by
    simp [refusedPair, Operation.isTrial, Operation.isUse, Operation.isWork])
  rw [same] at once
  have refused := (List.pairwise_cons.1 once).1 g (.head _) first.1 second.1 marker
  exact ⟨f, g, same, first.1, second.1, marker, stays, refused.resolve_right fun gone => gone.1 stays⟩

set_option maxRecDepth 100000 in
/-- A delay that is visited once has its connections followed twice when its marker could not be
deleted. -/
theorem completes_twice_refusedPair :
    (((bare.afterAll refusedPair).wordsOf "id-1").filter (·.node == "D")).map (·.message) =
      ["Processing delay node: D", "Delay scheduled: 5 seconds", "Delay completed",
        "Resuming delay after restart: 0s remaining", "Delay completed"] ∧
    (((bare.afterAll refusedPair).wordsOf "id-1").filter (·.node == "J")).map (·.message) =
      ["Processing junction node: J", "Junction: split", "Processing junction node: J",
        "Junction: split"] := by
  constructor <;> decide +kernel

end Engine

end Runbook
