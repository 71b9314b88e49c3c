import Runbook.Proofs.Course.Sequel
import Runbook.Proofs.Course.Termination

/-!
Rest between operations. A loop iterates only while a walk goes through its body, so that no execution has
a loop that is iterating when an operation has come to its end.
-/
namespace Runbook

namespace Execution

variable {x y : Execution}

theorem activeLoops_finished (x : Execution) : x.finished.activeLoops = x.activeLoops := by
  unfold finished
  split <;> rfl

theorem Aside.activeLoops (aside : x.Aside y) : y.activeLoops = x.activeLoops := by
  rcases aside with rfl | ⟨-, rfl⟩ <;> rfl

end Execution

theorem Life.activeLoops {l : Option Int} {x : Execution} (life : Life l x) : x.activeLoops = [] := by
  induction life with
  | started _ _ work => exact (Execution.activeLoops_finished _).trans work.activeLoops
  | stillborn => rfl
  | continued _ _ _ work ih => exact (Execution.activeLoops_finished _).trans (work.activeLoops.trans ih)
  | stuck _ _ _ ih | late _ _ ih => exact (Execution.activeLoops_finished _).trans ih
  | cancelled _ _ ih => exact ih

namespace Scene

variable {l : Option Int} {id : String} {v w : Scene} {x y : Execution}

/-- No execution has a loop that is iterating. -/
def Resting (v : Scene) : Prop := ∀ k x, v.execution? k = some x → x.activeLoops = []

theorem Resting.of_passes {k : String} (resting : v.Resting) (passes : Passes l (v.execution? k) (some y)) :
    y.activeLoops = [] := by
  have before := resting k
  generalize v.execution? k = a at passes before
  cases passes with
  | born life => exact life.activeLoops
  | aside aside => exact aside.activeLoops.trans (before _ rfl)

theorem Resting.passes (resting : v.Resting) (passes : ∀ k, Passes l (v.execution? k) (w.execution? k)) :
    w.Resting :=
  fun k _ known => resting.of_passes (known ▸ passes k)

theorem Resting.turns (resting : v.Resting) (turns : Turns l id v w x y)
    (loops : y.activeLoops = x.activeLoops) : w.Resting := by
  intro k z known
  by_cases own : k = id
  · subst own
    rw [← Option.some.inj (turns.after.symm.trans known), loops]
    exact resting k x turns.before
  · exact resting.of_passes (known ▸ turns.others k own)

end Scene

open Scene

variable {v w : Scene}

theorem Fires.resting {ts : List Timer} {busy : List String} (fires : Fires ts v w) (proper : v.Proper)
    (account : v.Accounted busy ts) (resting : v.Resting) : w.Resting := by
  induction fires with
  | none => exact resting
  | @next v w u t rest first others ih =>
    have kept := first.keeps proper
    obtain ⟨x, y, turns, -⟩ := first.turns (l := v.limit) proper rfl account
    obtain ⟨z, there, further⟩ := kept.further _ x turns.before
    obtain rfl := Option.some.inj (there.symm.trans turns.after)
    exact ih kept.proper (first.accounted proper account) (resting.turns turns further.loops)

theorem Event.resting (event : Event v w) (orderly : v.Orderly) (resting : v.Resting) : w.Resting := by
  cases event with
  | deed deed =>
    cases deed with
    | serve => exact resting
    | start work => exact resting.passes ((work.alone (l := v.limit) orderly.proper rfl).passes rfl)
    | cancel known => exact resting.turns (turns_cancel (l := v.limit) known) rfl
    | advance fires =>
      exact fires.resting (orderly.proper.keeps_shift _).proper (orderly.account.shift _) resting
  | restart now =>
    intro k y known
    change (v.live.foldl untime v).execution? k = some y at known
    rw [execution?_untimeAll] at known
    split at known
    · obtain ⟨x, there, rfl⟩ := Option.map_eq_some_iff.1 known
      exact resting k x there
    · exact resting k y known
  | revive revives =>
    cases revives with
    | abandoned => exact resting
    | @resumed now x ms waiting restored =>
      have armed (ms : List Store.Marker) (u : Scene) (resting : u.Resting) :
          (ms.foldl (rearm now) u).Resting := by
        induction ms generalizing u with
        | nil => exact resting
        | cons m rest ih =>
          refine ih _ (fun k y known => ?_)
          rw [execution?_rearm] at known
          split at known
          · obtain ⟨x, there, rfl⟩ := Option.map_eq_some_iff.1 known
            exact resting k x there
          · exact resting k y known
      have revived : (v.revive x).Resting := by
        intro k y known
        change (if k = x.id then some x else v.execution? k) = some y at known
        split at known
        · cases known
          exact restored.anew.loops
        · exact resting k y known
      have known : ((v.revive x).execution? x.id).isSome := by simp [Scene.revive]
      obtain ⟨y, there⟩ := Option.isSome_iff_exists.1 (isSome_rearmAll now ms known)
      exact (armed ms _ revived).turns (turns_finish (l := v.limit) there) (Execution.activeLoops_finished y)

/-- Between two operations no loop iterates. -/
theorem Engine.Fresh.resting {e : Engine} (fresh : e.Fresh) (ops : List Operation)
    (use : ∀ op ∈ ops, op.isUse = true) : (e.afterAll ops).scene.Resting := by
  refine ((events_afterAll ops use e fresh.orderly).induct (p := Scene.Resting) fresh.orderly ?_
    fun _ _ event orderly resting => event.resting orderly resting).2
  intro k x known
  simp [Engine.scene, Engine.execution?, fresh.executions] at known

end Runbook
