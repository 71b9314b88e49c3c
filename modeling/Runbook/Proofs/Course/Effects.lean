import Runbook.Proofs.Course.Storage

/-!
What the elementary operations of the engine do to a scene while storage does not fail. Two runs
agree from a scene when they do the same in every engine with that scene; so the rules for one run
are the rules for two, and runs that differ only in what they never reach are told to agree.
-/
namespace Runbook

variable {α β : Type}

/-- Two runs do the same in every engine with a scene, and end as described. -/
def Agree (x y : Run α) (v : Scene) (good : α → Scene → Prop) (bad : Failure → Scene → Prop) :
    Prop :=
  ∀ e : Engine, e.scene = v →
    x e = y e ∧ Ends x e (fun a t => good a t.scene) (fun f t => bad f t.scene)

/-- A run ends as described in every engine with a scene. -/
abbrev Plays (x : Run α) (v : Scene) (good : α → Scene → Prop) (bad : Failure → Scene → Prop) :
    Prop :=
  Agree x x v good bad

namespace Agree

variable {x y : Run α} {v : Scene} {good good' : α → Scene → Prop} {bad bad' : Failure → Scene → Prop}

theorem plays (ends : ∀ e : Engine, e.scene = v →
    Ends x e (fun a t => good a t.scene) (fun f t => bad f t.scene)) : Plays x v good bad :=
  fun e here => ⟨rfl, ends e here⟩

theorem imp (known : Agree x y v good bad) (onGood : ∀ a w, good a w → good' a w)
    (onBad : ∀ f w, bad f w → bad' f w) : Agree x y v good' bad' := by
  intro e here
  obtain ⟨same, ends⟩ := known e here
  exact ⟨same, ends.imp (fun a t h => onGood a _ h) fun f t h => onBad f _ h⟩

/-- What is known of every answer may be added. -/
theorem answering {p : α → Prop} (known : Agree x y v good bad)
    (ends : ∀ e, Ends x e (fun a _ => p a) fun _ _ => True) :
    Agree x y v (fun a w => good a w ∧ p a) bad := by
  intro e here
  obtain ⟨same, played⟩ := known e here
  exact ⟨same, (played.and (ends e)).imp (fun _ _ h => h) fun _ _ h => h.1⟩

/-- What never fails may fail in any way. -/
theorem safe (known : Agree x y v good never) : Agree x y v good bad :=
  known.imp (fun _ _ h => h) fun _ _ h => h.elim

theorem pure {a : α} (holds : good a v) : Plays (Pure.pure a) v good bad :=
  plays fun _ here => Ends.pure_iff.2 (here ▸ holds)

theorem throw {f : Failure} (holds : bad f v) : Plays (throw f) v good bad :=
  plays fun _ here => Ends.throw_iff.2 (here ▸ holds)

theorem bind {k l : α → Run β} {m : α → Scene → Prop} {good : β → Scene → Prop}
    (first : Agree x y v m bad) (next : ∀ a w, m a w → Agree (k a) (l a) w good bad) :
    Agree (x >>= k) (y >>= l) v good bad := by
  intro e here
  obtain ⟨same, ends⟩ := first e here
  refine ⟨?_, Ends.bind (ends.imp (fun a t h => (next a _ h t rfl).2) fun _ _ h => h)⟩
  change EStateM.bind x k e = EStateM.bind y l e
  unfold EStateM.bind
  unfold Ends at ends
  rw [← same]
  cases run : x e with
  | ok a t =>
    rw [run] at ends
    exact (next a _ ends t rfl).1
  | error f t => rfl

/-- The same when the first part cannot fail. -/
theorem andThen {k l : α → Run β} {m : α → Scene → Prop} {good : β → Scene → Prop}
    (first : Agree x y v m never) (next : ∀ a w, m a w → Agree (k a) (l a) w good bad) :
    Agree (x >>= k) (y >>= l) v good bad :=
  bind first.safe next

/-- The same when the answer and the scene after the first part are known. -/
theorem answer {k l : α → Run β} {a : α} {w : Scene} {good : β → Scene → Prop}
    (first : Agree x y v (fun b u => b = a ∧ u = w) never) (next : Agree (k a) (l a) w good bad) :
    Agree (x >>= k) (y >>= l) v good bad := by
  refine andThen first fun b u h => ?_
  rw [h.1, h.2]
  exact next

theorem after {k l : α → Run β} {w : Scene} {good : β → Scene → Prop}
    (first : Agree x y v (fun _ u => u = w) never) (next : ∀ a, Agree (k a) (l a) w good bad) :
    Agree (x >>= k) (y >>= l) v good bad := by
  refine andThen first fun a u h => ?_
  rw [h]
  exact next a

theorem get {k l : Engine → Run β} {good : β → Scene → Prop}
    (next : ∀ e : Engine, e.scene = v → Agree (k e) (l e) v good bad) :
    Agree (MonadState.get >>= k) (MonadState.get >>= l) v good bad := fun e here => next e here e here

theorem modify {f : Engine → Engine} {good : Unit → Scene → Prop}
    (holds : ∀ e : Engine, e.scene = v → good () (f e).scene) :
    Plays (modify f) v good bad :=
  plays fun e here => Ends.modify_iff.2 (holds e here)

theorem tryCatch {h k : Failure → Run α} {m : Failure → Scene → Prop}
    (first : Agree x y v good m) (next : ∀ f w, m f w → Agree (h f) (k f) w good bad) :
    Agree (MonadExcept.tryCatch x h) (MonadExcept.tryCatch y k) v good bad := by
  intro e here
  obtain ⟨same, ends⟩ := first e here
  refine ⟨?_, Ends.tryCatch_iff.2 (ends.imp (fun _ _ h => h) fun f t h => (next f _ h t rfl).2)⟩
  change EStateM.tryCatch x h e = EStateM.tryCatch y k e
  unfold EStateM.tryCatch
  unfold Ends at ends
  rw [← same]
  cases run : x e with
  | ok a t => rfl
  | error f t =>
    rw [run] at ends
    exact (next f _ ends t rfl).1

theorem map {f : α → β} {good : β → Scene → Prop}
    (known : Agree x y v (fun a w => good (f a) w) bad) : Agree (f <$> x) (f <$> y) v good bad := by
  intro e here
  obtain ⟨same, ends⟩ := known e here
  refine ⟨?_, Ends.map_iff.2 ends⟩
  change EStateM.map f x e = EStateM.map f y e
  unfold EStateM.map
  rw [same]

theorem observe {good : Except Failure α → Scene → Prop}
    (known : Agree x y v (fun a w => good (.ok a) w) fun f w => good (.error f) w) :
    Agree (Engine.observe x) (Engine.observe y) v good bad :=
  tryCatch (map known) fun _ _ h => pure h

theorem ofExcept {r : Except Failure α} (onOk : ∀ a, r = .ok a → good a v)
    (onError : ∀ f, r = .error f → bad f v) : Plays (Engine.ofExcept r) v good bad :=
  plays fun _ here => Engine.ends_ofExcept.2 ⟨fun a h => here ▸ onOk a h, fun f h => here ▸ onError f h⟩

/-- What follows in any case follows an answer and a failure. -/
theorem andAlways {last : Run Unit} {m : α → Scene → Prop} {n : Failure → Scene → Prop}
    (first : Agree x y v m n)
    (onGood : ∀ a w, m a w → Plays last w (fun _ u => good a u) bad)
    (onBad : ∀ f w, n f w → Plays last w (fun _ u => bad f u) bad) :
    Agree (Engine.andAlways x last) (Engine.andAlways y last) v good bad := by
  refine bind (m := fun r w => (∀ a, r = .ok a → m a w) ∧ ∀ f, r = .error f → n f w)
    (observe (first.imp ?_ ?_)) ?_
  · rintro a w h
    exact ⟨by rintro b ⟨⟩; exact h, by rintro f ⟨⟩⟩
  · rintro f w h
    exact ⟨by rintro b ⟨⟩, by rintro g ⟨⟩; exact h⟩
  · intro r w h
    cases r with
    | ok a => exact bind (onGood a w (h.1 a rfl)) fun _ u holds => pure holds
    | error f => exact bind (onBad f w (h.2 f rfl)) fun _ u holds => throw holds

theorem ite {c : Prop} [Decidable c] {x' y' : Run α} (onTrue : c → Agree x y v good bad)
    (onFalse : ¬c → Agree x' y' v good bad) :
    Agree (if c then x else x') (if c then y else y') v good bad := by
  by_cases holds : c
  · simpa [holds] using onTrue holds
  · simpa [holds] using onFalse holds

/-- An operation of the storage. -/
theorem lift {x : StorageM α} (ends : ∀ s : Storage, s.part = v.toPart →
    Ends x s (fun a t => good a { v with toPart := t.part })
      (fun f t => bad f { v with toPart := t.part })) : Plays (liftM x) v good bad := by
  refine plays fun e here => Engine.ends_storage.2 ((ends e.storage (here ▸ rfl)).imp ?_ ?_)
  · rintro a t h; subst here; exact h
  · rintro f t h; subst here; exact h

/-- A storage operation that cannot fail needs no one to take its failures up. -/
theorem onStorageError {x : Run Unit} {handle : ProgramError → Run Unit} {good : Unit → Scene → Prop}
    (known : Plays x v good never) : Plays (Engine.onStorageError x handle) v good bad :=
  tryCatch known fun _ _ h => h.elim

/-- Failures of other kinds are not taken up. -/
theorem onStorageError_of_plain {x : Run Unit} {handle : ProgramError → Run Unit}
    {good : Unit → Scene → Prop}
    (known : Plays x v good fun f w => (∃ kind text, f = .plain kind text) ∧ bad f w) :
    Plays (Engine.onStorageError x handle) v good bad := by
  refine tryCatch known ?_
  rintro _ w ⟨⟨kind, text, rfl⟩, holds⟩
  exact throw holds

end Agree

namespace Engine

variable {v : Scene} {id : String} {x : Execution}

/-- A note of any other logger says nothing about executions. -/
theorem plays_note {level : Level} {logger message : String} {context : Dict}
    (other : logger ≠ "deskflow.execution") :
    Plays (note level logger message context) v (fun _ w => w = v) never := by
  refine Agree.modify fun e here => ?_
  subst here
  simp only [scene, Storage.part, Journal.spoken_write_of_ne _ _ _ _ _ other]
  rfl

theorem plays_execution (known : v.execution? id = some x) :
    Plays (execution id) v (fun y w => y = x ∧ w = v) never := by
  refine Agree.get fun e here => ?_
  have found : e.execution? id = some x := by rw [← known, ← here]; rfl
  simp only [found]
  exact Agree.pure ⟨rfl, rfl⟩

theorem plays_isActive (known : v.execution? id = some x) :
    Plays (isActive id) v (fun b w => b = x.isActive ∧ w = v) never := by
  exact (plays_execution known).answer (Agree.pure ⟨rfl, rfl⟩)

theorem execution?_modify {f : Execution → Execution} (keeps : ∀ x, (f x).id = x.id) (e : Engine)
    (id k : String) :
    { e with executions := e.executions.map fun x : Execution => if x.id == id then f x else x }.execution? k =
      if k = id then (e.execution? k).map f else e.execution? k :=
  find?_map_where Execution.id keeps e.executions id k

theorem plays_modifyExecution {f : Execution → Execution} (keeps : ∀ x, (f x).id = x.id) :
    Plays (modifyExecution id f) v (fun _ w => w = v.alter id f) never := by
  refine Agree.modify fun e here => ?_
  subst here
  have lookups := funext (execution?_modify keeps e id)
  simp only [scene, Scene.alter, lookups]

theorem plays_live (f : List String → List String) :
    Plays (modify fun e => { e with live := f e.live }) v
      (fun _ w => w = { v with live := f v.live }) never := by
  refine Agree.modify fun e here => ?_
  subst here
  rfl

theorem plays_clock (f : Clock → Clock) :
    Plays (modify fun e => { e with clock := f e.clock }) v
      (fun _ w => w = { v with clock := f v.clock }) never := by
  refine Agree.modify fun e here => ?_
  subst here
  rfl

/-- The record that the process log takes of an entry. -/
theorem plays_entry (level : Level) (message node : String) (workflow tenant : Value) :
    Plays (note level "deskflow.execution" message [(.text "execution_id", .text id),
      (.text "workflow_id", workflow), (.text "tenant_id", tenant), (.text "node_id", .text node)]) v
      (fun _ w => w = { v with spoken := v.spoken ++ [⟨id, level, message, node⟩] }) never := by
  refine Agree.modify fun e here => ?_
  subst here
  simp only [scene, Storage.part, Journal.spoken_write_entry]
  rfl

/-- What a remark changes, for an execution that is known. -/
theorem say_of_known (r : Remark) (known : v.execution? id = some x) :
    v.say id r = { v.alter id fun y => { y with logs := y.logs ++ [r.entry x.path] } with
      spoken := v.spoken ++ [r.spoken id x.path] } := by
  have altered : v.alter id (fun y => { y with logs := y.logs ++ [r.entry y.path] }) =
      v.alter id fun y => { y with logs := y.logs ++ [r.entry x.path] } := by
    unfold Scene.alter
    congr 1
    funext k
    by_cases wanted : k = id
    · subst wanted; simp [known]
    · simp [wanted]
  simp [Scene.say, altered, known]

/-- A log entry is a remark. -/
theorem plays_say (r : Remark) (known : v.execution? id = some x) (steady : v.faulty = false) :
    Plays (log r.level id r.message r.node) v (fun _ w => w = v.say id r) never := by
  refine (plays_execution known).answer ?_
  refine (plays_modifyExecution (by intro; rfl)).after fun _ => ?_
  refine (plays_entry _ _ _ _ _).after fun _ => ?_
  refine Agree.get fun e here => ?_
  have told : e.scene = v.say id r := by
    rw [here, say_of_known r known]
    rfl
  rw [← here, told]
  refine .ite (fun _ => ?_) fun _ => .pure rfl
  refine .onStorageError (.lift fun s same => ?_)
  refine (Storage.ends_appendLog (same ▸ steady) _ _ _).imp (fun _ t kept => ?_) fun _ _ h => h
  rw [kept, same]

/-- The end of an execution is stored and made known. -/
theorem plays_finalize (known : v.execution? id = some x) (stored : (v.row? id).isSome)
    (steady : v.faulty = false) :
    Plays (finalize id) v (fun _ w => w = (v.record id x.status
      (if x.status = .completed then none else x.error)).retire id) never := by
  refine (plays_execution known).answer ?_
  refine .andAlways (m := fun _ w => w = v.record id x.status
      (if x.status = .completed then none else x.error)) (n := never) ?_ ?_ fun _ _ h => h.elim
  · refine .onStorageError (.lift fun s same => ?_)
    have error : (if x.status = .completed then Value.null else .ofText? x.error) =
        .ofText? (if x.status = .completed then none else x.error) := by split <;> rfl
    rw [error]
    refine (Storage.ends_setExecutionStatus (same ▸ steady) ?_ _ _).imp (fun _ t kept => ?_)
      fun _ _ h => h
    · rw [same]; exact stored
    · rw [kept, same]; rfl
  · intro _ w here
    rw [here]
    refine (plays_modifyExecution (by intro; rfl)).after fun _ => ?_
    refine (plays_live fun ids => ids.filter (· != id)).after fun _ => plays_note (by decide)

/-- The timers of an execution are cancelled. -/
theorem plays_dropTimers (known : v.execution? id = some x) :
    Plays (dropTimers id) v (fun _ w => w = v.untime id) never := by
  refine (plays_execution known).answer ?_
  refine (plays_modifyExecution (by intro; rfl)).after fun _ => ?_
  refine (plays_clock fun c => c.cancel (x.timers.flatMap (·.2))).imp (fun _ w here => ?_)
    fun _ _ h => h
  rw [here]
  simp [Scene.untime, known]

theorem plays_dropPending (known : v.execution? id = some x) (steady : v.faulty = false) :
    Plays (dropPending id) v (fun _ w => w = (v.untime id).wipe id) never := by
  refine (plays_dropTimers known).after fun _ => ?_
  refine .onStorageError (.bind (.lift fun s same => ?_) fun _ w here => .pure here)
  refine (Storage.ends_clearMarkers ?_ id).imp (fun _ t kept => ?_) fun _ _ h => h
  · rw [same]; exact steady
  · rw [kept, same]; rfl

/-- A running execution fails. -/
theorem plays_fail_of_active (known : v.execution? id = some x) (active : x.isActive = true)
    (stored : (v.row? id).isSome) (steady : v.faulty = false) (message : String) :
    Plays (fail id message) v (fun _ w => w = v.fail id message) never := by
  refine (plays_isActive known).answer ?_
  simp only [active, if_true]
  refine (plays_modifyExecution (by intro; rfl)).after fun _ => ?_
  refine (plays_dropPending (x := { x with status := .failed, error := some message })
    (by simp [known]) (by simpa using steady)).after fun _ => ?_
  refine plays_finalize (x := { x with status := .failed, error := some message, timers := [] })
    (by simp [known]) (by simpa using stored) (by simpa using steady)

/-- One that is over stays as it is. -/
theorem plays_fail_of_over (known : v.execution? id = some x) (past : x.isActive = false)
    (message : String) : Plays (fail id message) v (fun _ w => w = v) never := by
  refine (plays_isActive known).answer ?_
  simp only [past, Bool.false_eq_true, if_false]
  exact .pure rfl

theorem plays_branchFinished (known : v.execution? id = some x) (stored : (v.row? id).isSome)
    (steady : v.faulty = false) :
    Plays (branchFinished id) v (fun _ w => w = v.finish id) never := by
  refine (plays_execution known).answer ?_
  refine (plays_modifyExecution (by intro; rfl)).after fun _ => ?_
  cases last : decide (x.branches - 1 ≤ 0) && x.isActive with
  | false =>
    simp only [Bool.false_eq_true, if_false]
    exact .pure (Scene.finish_of_more known last).symm
  | true =>
    simp only [if_true]
    have ending : v.finish id = v.complete id := Scene.finish_of_last known last
    rw [ending]
    refine (plays_say .completed (x := { x with branches := x.branches - 1, status := .completed })
      (by simp [known]) (by simpa using steady)).after fun _ => ?_
    exact plays_finalize (x := { x with
        branches := x.branches - 1, status := .completed
        logs := x.logs ++ [Remark.completed.entry x.path] })
      (by simp [known]) (by simpa using stored) (by simpa using steady)

/-- A live and running execution is cancelled. -/
theorem plays_cancel_of_active (known : v.execution? id = some x) (live : v.live.contains id = true)
    (active : x.isActive = true) (stored : (v.row? id).isSome) (steady : v.faulty = false) :
    Plays (cancel id) v (fun b w => b = true ∧ w = v.cancel id) never := by
  refine .get fun e here => ?_
  have found : e.liveExecution? id = some x := by
    have held : e.execution? id = some x := by rw [← known, ← here]; rfl
    have listed : e.live.contains id = true := by rw [← live, ← here]; rfl
    simp only [liveExecution?, listed, if_true, held]
  simp only [found, active, Bool.not_true, Bool.false_eq_true, if_false]
  refine (plays_modifyExecution (by intro; rfl)).after fun _ => ?_
  refine (plays_dropPending (x := { x with status := .cancelled, error := some Scene.cancelText })
    (by simp [known, Scene.cancelText]) (by simpa using steady)).after fun _ => ?_
  refine (plays_say .cancelled
    (x := { x with status := .cancelled, error := some Scene.cancelText, timers := [] })
    (by simp [known, Scene.cancelText]) (by simpa using steady)).after fun _ => ?_
  refine (plays_finalize (x := { x with
      status := .cancelled, error := some Scene.cancelText, timers := []
      logs := x.logs ++ [Remark.cancelled.entry x.path] })
    (by simp [known, Scene.cancelText]) (by simpa using stored) (by simpa using steady)).after fun _ => ?_
  refine (plays_note (by decide)).after fun _ => ?_
  exact .pure ⟨rfl, rfl⟩

/-- Nothing else can be cancelled. -/
theorem plays_cancel_of_over (past : v.live.contains id = true → ∀ x, v.execution? id = some x →
    x.isActive = false) : Plays (cancel id) v (fun b w => b = false ∧ w = v) never := by
  refine .get fun e here => ?_
  cases found : e.liveExecution? id with
  | none =>
    refine (plays_note (by decide)).after fun _ => ?_
    exact .pure ⟨rfl, rfl⟩
  | some x =>
    have ended : x.isActive = false := by
      simp only [liveExecution?] at found
      split at found
      · rename_i listed
        exact past (by rw [← here]; exact listed) x (by rw [← here]; exact found)
      · cases found
    simp only [ended, Bool.not_false, if_true]
    exact .pure ⟨rfl, rfl⟩

end Engine

end Runbook
