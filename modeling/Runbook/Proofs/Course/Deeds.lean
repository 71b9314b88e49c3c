import Mathlib.Logic.Relation
import Runbook.Proofs.Course.Account

/-!
Operations of the engine as deeds. Whatever is asked of an engine within one life, it does a series
of deeds: it starts executions, cancels them, and moves the clock. Deeds keep scenes proper and
their accounts right.
-/
namespace Runbook

/-- What an engine does at once. -/
inductive Deed : Scene → Scene → Prop where
  | serve {v : Scene} {next : Nat} (later : v.next ≤ next) : Deed v { v with next }
  | start {v w : Scene} {id : String} {workflow : Workflow} (work : Works (.start id workflow) v w) :
      Deed v w
  | cancel {v : Scene} {id : String} {x : Execution} (known : v.execution? id = some x)
      (live : v.live.contains id = true) (active : x.isActive = true) : Deed v (v.cancel id)
  | advance {v w : Scene} {now : Float} (fires : Fires (v.due now) (v.shift now) w) : Deed v w

/-- Deeds one after the other. -/
abbrev Deeds : Scene → Scene → Prop := Relation.ReflTransGen Deed

theorem Deed.keeps {v w : Scene} (deed : Deed v w) (proper : v.Proper) : v.Keeps w := by
  cases deed with
  | serve later => exact proper.keeps_next later
  | start work => exact work.keeps proper
  | cancel known live active => exact proper.keeps_cancel
  | advance fires => exact (proper.keeps_shift _).andThen fires.keeps

theorem Deed.accounted {v w : Scene} (deed : Deed v w) (proper : v.Proper)
    (account : v.Accounted [] []) : w.Accounted [] [] := by
  cases deed with
  | serve later => exact account.next _
  | start work => exact work.accounted proper trivial account
  | cancel known live active => exact account.cancel (account.living_of_live live known)
  | advance fires => exact fires.accounted (proper.keeps_shift _).proper (account.shift _)

/-- What every deed keeps of a proper scene is kept by many. -/
theorem Deeds.induct {v w : Scene} {p : Scene → Prop} (deeds : Deeds v w) (proper : v.Proper)
    (initial : p v) (step : ∀ u t, Deed u t → u.Proper → v.Keeps u → p u → p t) :
    v.Keeps w ∧ p w := by
  induction deeds with
  | refl => exact ⟨proper.keeps, initial⟩
  | tail before deed ih =>
    obtain ⟨kept, held⟩ := ih
    exact ⟨kept.andThen deed.keeps, step _ _ deed kept.proper kept held⟩

theorem Deeds.keeps {v w : Scene} (deeds : Deeds v w) (proper : v.Proper) : v.Keeps w :=
  (deeds.induct (p := fun _ => True) proper trivial fun _ _ _ _ _ _ => trivial).1

theorem Deeds.accounted {v w : Scene} (deeds : Deeds v w) (proper : v.Proper)
    (account : v.Accounted [] []) : w.Accounted [] [] :=
  (deeds.induct proper account fun _ _ deed proper _ account => deed.accounted proper account).2

/-- An operation answers or fails after deeds. -/
abbrev Plays.Deeds {α : Type} (x : Run α) (v : Scene) : Prop :=
  Plays x v (fun _ w => Runbook.Deeds v w) fun _ w => Runbook.Deeds v w

namespace Engine

variable {v : Scene} {α β : Type}

theorem deeds_pure (a : α) : Plays.Deeds (pure a) v := .pure .refl

theorem deeds_bind {x : Run α} {f : α → Run β} (first : Plays.Deeds x v)
    (next : ∀ a w, Deeds v w → Plays.Deeds (f a) w) : Plays.Deeds (x >>= f) v := by
  refine .bind first fun a w before => (next a w before).imp ?_ ?_ <;>
  · intro _ u after
    exact before.trans after

theorem deeds_quiet {op : StorageM α} (quiet : Storage.Quiet op) (proper : v.Proper) :
    Plays.Deeds (liftM op) v := by
  refine (plays_quiet quiet proper.steady).imp ?_ ?_ <;>
  · rintro _ w ⟨n, later, here⟩
    rw [here]
    exact .single (.serve later)

theorem deeds_ofExcept (r : Except Failure α) : Plays.Deeds (ofExcept r) v :=
  .ofExcept (fun _ _ => .refl) fun _ _ => .refl

theorem deeds_note {level : Level} {logger message : String} {context : Dict}
    (other : logger ≠ "deskflow.execution") : Plays.Deeds (note level logger message context) v :=
  Agree.safe ((plays_note other).imp (fun _ _ here => here ▸ .refl) fun _ _ h => h)

theorem deeds_onProgramError {x : Run α} {handle : ProgramError → Run α} (first : Plays.Deeds x v)
    (next : ∀ e w, Deeds v w → Plays.Deeds (handle e) w) : Plays.Deeds (onProgramError x handle) v := by
  refine .tryCatch first fun f w before => ?_
  cases f with
  | program e =>
    refine (next e w before).imp ?_ ?_ <;>
    · intro _ u after
      exact before.trans after
  | plain kind text => exact .throw before
  | invalid issues => exact .throw before
  | transport name text => exact .throw before

theorem deeds_map {x : Run α} {f : α → β} (known : Plays.Deeds x v) : Plays.Deeds (f <$> x) v :=
  .map known

theorem deeds_mapM {op : α → Run β} (items : List α) (proper : v.Proper)
    (each : ∀ a w, Deeds v w → Plays.Deeds (op a) w) : Plays.Deeds (items.mapM op) v := by
  induction items generalizing v with
  | nil => exact deeds_pure _
  | cons a rest ih =>
    rw [List.mapM_cons]
    refine deeds_bind (each a v .refl) fun b w before => ?_
    refine deeds_bind (ih (before.keeps proper).proper fun c u after =>
      each c u (before.trans after)) fun bs u after => deeds_pure _

theorem deeds_start {w : Workflow} (sound : w.Sound) (payload module item : Value)
    (proper : v.Proper) : Plays.Deeds (startExecution launch w payload module item) v := by
  refine (plays_startExecution launches_launch w payload module item sound proper).imp ?_ ?_
  · exact fun child u work => .single (.start work)
  · rintro _ u ⟨n, later, here⟩
    rw [here]
    exact .single (.serve later)

theorem deeds_execute (workflow : String) (payload module item : Value) (proper : v.Proper) :
    Plays.Deeds (execute workflow payload module item) v := by
  refine .bind ((deeds_quiet (Storage.quiet_loadWorkflow workflow) proper).answering fun e =>
    ends_storage.2 ((Storage.sound_loadWorkflow workflow _).imp (fun _ _ h => h) fun _ _ h => h)) ?_
  rintro w u ⟨before, sound⟩
  refine (deeds_start sound payload module item (before.keeps proper).proper).imp ?_ ?_ <;>
  · intro _ t after
    exact before.trans after

/-- A row that is no definition starts nothing. -/
theorem deeds_routeRow (event : Option String) (payload module item : Value)
    (row : Store.WorkflowRow) (proper : v.Proper) :
    Plays.Deeds (routeRow event payload module item row) v := by
  have read : Plays.Deeds (onProgramError (some <$> ofExcept (Workflow.parse row.record)) fun e => do
      note .warning routerLogger ("Skipping malformed workflow " ++ row.id ++ ": " ++ e.text) []
      return none) v :=
    deeds_onProgramError (deeds_map (deeds_ofExcept _)) fun _ _ _ =>
      deeds_bind (deeds_note (by decide)) fun _ _ _ => deeds_pure _
  refine .bind (read.answering (p := fun parsed => ∀ definition, parsed = some definition →
    definition.Sound) fun e => ?_) ?_
  · rw [onProgramError, Ends.tryCatch_iff, Ends.map_iff, ends_ofExcept]
    refine ⟨fun w parsed => ?_, fun f _ => ?_⟩
    · rintro _ ⟨⟩
      exact Workflow.sound_of_parse parsed
    · cases f with
      | program p =>
        exact Ends.bind (Ends.modify_iff.2 (Ends.pure_iff.2 fun _ impossible => nomatch impossible))
      | _ => exact Ends.throw_iff.2 trivial
  · rintro parsed w ⟨since, sound⟩
    cases parsed with
    | none => exact .pure since
    | some definition =>
      have start := deeds_start (sound definition rfl) payload module item (since.keeps proper).proper
      refine .ite (fun _ => .pure since) fun _ => ?_
      refine (deeds_onProgramError (deeds_map start) fun e s _ => ?_).imp
        (fun _ _ after => since.trans after) fun _ _ after => since.trans after
      exact deeds_bind (deeds_note (by decide)) fun _ _ _ => deeds_pure _

theorem deeds_trigger (module : String) (event : Option String) (payload item : Value)
    (proper : v.Proper) : Plays.Deeds (trigger module event payload item) v := by
  refine deeds_bind (deeds_onProgramError (deeds_map (deeds_quiet (.query _ _ _) proper))
    fun e w before => deeds_bind (deeds_note (by decide)) fun _ _ _ => deeds_pure _) ?_
  intro rows w before
  cases rows with
  | none => exact deeds_pure _
  | some rows =>
    have proper' := (before.keeps proper).proper
    refine deeds_bind (deeds_mapM rows proper' fun row u after => ?_) fun ids u after =>
      deeds_bind (deeds_note (by decide)) fun _ _ _ => deeds_pure _
    exact deeds_routeRow event payload (.text module) item row (after.keeps proper').proper

theorem deeds_cancel (id : String) (proper : v.Proper) : Plays.Deeds (cancel id) v := by
  refine Agree.safe ((plays_cancel proper id).imp ?_ fun _ _ h => h)
  rintro b w (⟨-, x, known, live, active, here⟩ | ⟨-, here, -⟩)
  · rw [here]; exact .single (.cancel known live active)
  · rw [here]

theorem deeds_cancelAll (workflow : String) (proper : v.Proper) :
    Plays.Deeds (cancelAll workflow) v := by
  refine .get fun e here => ?_
  refine deeds_bind (deeds_mapM _ proper fun id w before => ?_) fun _ _ _ => deeds_pure _
  exact deeds_cancel id (before.keeps proper).proper

theorem deeds_advance (seconds : Float) (proper : v.Proper) (accepting : v.accepting = true) :
    Plays.Deeds (advance seconds) v := by
  refine .get fun e here => ?_
  exact Agree.safe ((plays_moveTo _ proper accepting).imp
    (fun _ w fires => .single (.advance fires)) fun _ _ h => h)

end Engine

end Runbook
