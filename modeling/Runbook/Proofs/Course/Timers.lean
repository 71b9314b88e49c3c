import Runbook.Proofs.Course.Launch

/-!
Timers that fire follow rules as well. A continuation takes its timer off, and goes on behind its
delay when the execution is still running. When the clock moves, the timers that are due are all
taken off it at once and then fire one by one, so that one of them may find its execution over.
-/
namespace Runbook

/-- A timer fires. -/
inductive Resumes (t : Timer) : Scene → Scene → Prop where
  | continued {v w : Scene} {x : Execution} (known : v.execution? t.execution = some x)
      (active : x.isActive = true)
      (work : Works (.follow t.execution (x.workflow.outgoing t.node))
        (((v.unarm t).say t.execution (.resumed t.node)).unmark t.marker) w) :
      Resumes t v (w.finish t.execution)
  /-- A marker with a number that no table can hold cannot be deleted. -/
  | stuck {v : Scene} {x : Execution} {error : String} (known : v.execution? t.execution = some x)
      (active : x.isActive = true) (unfit : Store.fits t.marker = false)
      (why : ∃ f, Store.tooLarge = .raised f ∧ error = f.text) :
      Resumes t v ((((v.unarm t).say t.execution (.resumed t.node)).fail t.execution error).finish
        t.execution)
  /-- The continuation of an execution that is over does nothing. -/
  | past {v : Scene} {x : Execution} (known : v.execution? t.execution = some x)
      (ended : x.isActive = false) : Resumes t v ((v.unarm t).finish t.execution)

/-- Timers fire one after the other. -/
inductive Fires : List Timer → Scene → Scene → Prop where
  | none {v : Scene} : Fires [] v v
  | next {v w u : Scene} {t : Timer} {rest : List Timer} (first : Resumes t v w)
      (others : Fires rest w u) : Fires (t :: rest) v u

namespace Scene

/-- The clock of a scene is moved. -/
def shift (v : Scene) (now : Float) : Scene := { v with clock := (v.clock.moveTo now).2 }

/-- The timers that are due by a time. -/
def due (v : Scene) (now : Float) : List Timer := (v.clock.moveTo now).1

variable {v : Scene}

theorem mem_due {now : Float} {t : Timer} : t ∈ v.due now → t ∈ v.clock.timers :=
  fun due => (Clock.mem_moveTo.1 due).1

theorem Proper.keeps_unarm (proper : v.Proper) (t : Timer) : v.Keeps (v.unarm t) :=
  proper.keeps_alter (fun _ => rfl) fun _ _ => .of_eq rfl rfl rfl rfl rfl

theorem Proper.keeps_unmark (proper : v.Proper) (marker : Nat) : v.Keeps (v.unmark marker) :=
  ⟨proper.of_toPart rfl rfl rfl (Nat.le_refl _) fun _ pending => pending, .of_eq rfl, rfl, rfl, rfl,
    Nat.le_refl _⟩

theorem Proper.keeps_shift (proper : v.Proper) (now : Float) : v.Keeps (v.shift now) := by
  refine ⟨proper.of_toPart rfl rfl rfl (Nat.le_refl _) fun t pending => ?_, .of_eq rfl, rfl, rfl,
    rfl, Nat.le_refl _⟩
  change t ∈ (v.clock.moveTo now).2.timers at pending
  rw [Clock.timers_moveTo] at pending
  exact (List.mem_filter.1 pending).1

end Scene

theorem Resumes.keeps {t : Timer} {v w : Scene} (resumes : Resumes t v w) (proper : v.Proper) :
    v.Keeps w := by
  have told := (proper.keeps_unarm t).andThen fun unarmed =>
    unarmed.keeps_say (i := t.execution) (.resumed t.node)
  cases resumes with
  | continued known active work =>
    refine Scene.Keeps.andThen ?_ fun proper => proper.keeps_finish
    exact (told.andThen fun told => told.keeps_unmark t.marker).andThen work.keeps
  | stuck known active unfit =>
    exact (told.andThen fun told => told.keeps_fail _).andThen fun failed => failed.keeps_finish
  | past known ended => exact (proper.keeps_unarm t).andThen fun unarmed => unarmed.keeps_finish

theorem Fires.keeps {ts : List Timer} {v w : Scene} (fires : Fires ts v w) (proper : v.Proper) :
    v.Keeps w := by
  induction fires with
  | none => exact proper.keeps
  | next first others ih => exact (first.keeps proper).andThen ih

namespace Engine

variable {v : Scene} {id : String} {x : Execution}

theorem plays_clearMarker (proper : v.Proper) (marker : Nat) :
    Plays (liftM (Storage.clearMarker marker)) v (fun _ w => w = v.unmark marker)
      fun f w => (∃ kind text, f = .plain kind text) ∧ Store.tooLarge = .raised f ∧
        Store.fits marker = false ∧ w = v := by
  refine .lift fun s same => ?_
  refine (Storage.ends_clearMarker (same ▸ proper.steady) marker).imp ?_ ?_
  · rintro _ t ⟨-, here⟩
    rw [here, same]
    rfl
  · rintro f t ⟨unfit, why, here⟩
    exact ⟨⟨_, _, (Store.Refusal.raised.inj why).symm⟩, why, unfit, by rw [here, same]⟩

/-- What a continuation leaves before its branch ends. -/
theorem plays_continueAfter (t : Timer) (proper : v.Proper)
    (known : v.execution? t.execution = some x) :
    Plays (continueAfter t) v
      (fun _ w => x.isActive = false ∧ w = v.unarm t ∨ x.isActive = true ∧
        Works (.follow t.execution (x.workflow.outgoing t.node))
          (((v.unarm t).say t.execution (.resumed t.node)).unmark t.marker) w)
      fun f w => x.isActive = true ∧ Store.tooLarge = .raised f ∧ Store.fits t.marker = false ∧
        w = (v.unarm t).say t.execution (.resumed t.node) := by
  refine (plays_modifyExecution (by intro; rfl)).after fun _ => ?_
  have unarmed := proper.keeps_unarm t
  have there : (v.unarm t).execution? t.execution =
      some { x with timers := Execution.dropTimer x.timers t.node t.id } := by
    simp [Scene.unarm, known]
  change Agree _ _ (v.unarm t) _ _
  refine (plays_isActive there).answer (.ite (fun active => ?_) fun past => ?_)
  · refine (plays_say (.resumed t.node) there unarmed.proper.steady).after fun _ => ?_
    have told := unarmed.trans (unarmed.proper.keeps_say (i := t.execution) (.resumed t.node))
    refine .bind (.onStorageError_of_plain ((plays_clearMarker told.proper t.marker).imp
      (fun _ _ h => h) ?_)) fun _ w here => ?_
    · rintro f w ⟨plain, why, unfit, here⟩
      exact ⟨plain, active, why, unfit, here⟩
    · rw [here]
      have cleared := told.trans (told.proper.keeps_unmark t.marker)
      obtain ⟨y, held, further⟩ := cleared.further t.execution x known
      refine (plays_execution held).answer ?_
      refine Agree.safe ((agree_follow (fun u z target proper there within =>
        plays_walk launches_launch target proper there within.small) cleared.proper held
        ⟨deep_enough y, .inr ⟨rfl, rfl⟩⟩ t.node).imp (fun _ w work => .inr ⟨active, further.workflow ▸ work⟩) fun _ _ h => h)
  · exact .pure (.inl ⟨Bool.eq_false_iff.2 past, rfl⟩)

theorem plays_fire (t : Timer) (proper : v.Proper) (accepting : v.accepting = true)
    (known : (v.execution? t.execution).isSome) :
    Plays (fire t) v (fun _ w => Resumes t v w) never := by
  obtain ⟨x, known⟩ := Option.isSome_iff_exists.1 known
  refine .get fun e here => ?_
  have open_ : e.accepting = true := (congrArg Scene.accepting here).trans accepting
  simp only [open_, if_true]
  have told := (proper.keeps_unarm t).andThen fun unarmed =>
    unarmed.keeps_say (i := t.execution) (.resumed t.node)
  refine (agree_runBranch _ known (plays_continueAfter t proper known) ?_ ?_).imp ?_ fun _ _ h => h
  · rintro w (⟨-, rfl⟩ | ⟨-, work⟩)
    · exact proper.keeps_unarm t
    · exact (told.andThen fun told => told.keeps_unmark t.marker).andThen work.keeps
  · rintro f w ⟨-, -, -, rfl⟩
    exact told
  · rintro _ u (⟨w, ⟨ended, rfl⟩ | ⟨active, work⟩, rfl⟩ | ⟨f, w, ⟨active, why, unfit, rfl⟩, rfl⟩)
    · exact .past known ended
    · exact .continued known active work
    · have there : ((v.unarm t).say t.execution (.resumed t.node)).isActive t.execution = true := by
        simp [Scene.isActive, Scene.unarm, known]
        exact active
      rw [Scene.collapse, there]
      exact .stuck known active unfit ⟨f, why, rfl⟩

theorem plays_fireAll (ts : List Timer) (proper : v.Proper) (accepting : v.accepting = true)
    (known : ∀ t ∈ ts, (v.execution? t.execution).isSome) :
    Plays (ts.forM fire) v (fun _ w => Fires ts v w) never := by
  induction ts generalizing v with
  | nil => exact .pure .none
  | cons t rest ih =>
    change Agree (fire t >>= fun _ => rest.forM fire) (fire t >>= fun _ => rest.forM fire) _ _ _
    refine (plays_fire t proper accepting (known t (.head _))).andThen fun _ w first => ?_
    have kept := first.keeps proper
    refine (ih kept.proper (kept.accepting.trans accepting) fun s later => ?_).imp
      (fun _ u others => .next first others) fun _ _ h => h
    obtain ⟨x, held⟩ := Option.isSome_iff_exists.1 (known s (.tail _ later))
    obtain ⟨y, there, -⟩ := kept.further _ x held
    simp [there]

/-- The clock moves, and the timers that are due fire. -/
theorem plays_moveTo (now : Float) (proper : v.Proper) (accepting : v.accepting = true) :
    Plays (moveTo now) v (fun _ w => Fires (v.due now) (v.shift now) w) never := by
  refine .get fun e here => ?_
  have clock : e.clock = v.clock := congrArg Scene.clock here
  simp only [clock]
  refine (plays_clock fun _ => (v.clock.moveTo now).2).after fun _ => ?_
  exact plays_fireAll _ (proper.keeps_shift now).proper accepting
    fun t due => proper.timed t (Scene.mem_due due)

end Engine

end Runbook
