import Mathlib.Logic.Basic
import Runbook.Engine.Operation

/-!
What is known of an operation when it ends. `Ends x s good bad` says of a run of `x` from `s` that
an answer satisfies `good` and a failure satisfies `bad`, each together with the state it leaves.
The rules follow the way operations are put together, so that a statement about one is reduced to
statements about its parts.
-/
namespace Runbook

/-- A chain that succeeds succeeds step by step. -/
theorem bind_eq_ok {ε α β : Type} {x : Except ε α} {f : α → Except ε β} {b : β}
    (chain : x >>= f = .ok b) : ∃ a, x = .ok a ∧ f a = .ok b := by
  cases x with
  | error e => cases chain
  | ok a => exact ⟨a, rfl, chain⟩

/-- No failure comes about. -/
def never {σ : Type} : Failure → σ → Prop := fun _ _ => False

variable {σ α β : Type}

/-- A run from a state ends well or badly, and in either case as described. -/
def Ends (x : EStateM Failure σ α) (s : σ) (good : α → σ → Prop) (bad : Failure → σ → Prop) : Prop :=
  match x s with
  | .ok a t => good a t
  | .error f t => bad f t

namespace Ends

variable {x : EStateM Failure σ α} {s : σ} {good : α → σ → Prop} {bad : Failure → σ → Prop}

/-- What is known may be weakened. -/
theorem imp {good' : α → σ → Prop} {bad' : Failure → σ → Prop} (known : Ends x s good bad)
    (onGood : ∀ a t, good a t → good' a t) (onBad : ∀ f t, bad f t → bad' f t) :
    Ends x s good' bad' := by
  unfold Ends at *
  cases run : x s with
  | ok a t => rw [run] at known; exact onGood a t known
  | error f t => rw [run] at known; exact onBad f t known

theorem and {good' : α → σ → Prop} {bad' : Failure → σ → Prop} (first : Ends x s good bad)
    (second : Ends x s good' bad') :
    Ends x s (fun a t => good a t ∧ good' a t) (fun f t => bad f t ∧ bad' f t) := by
  unfold Ends at *
  cases run : x s with
  | ok a t => rw [run] at first second; exact ⟨first, second⟩
  | error f t => rw [run] at first second; exact ⟨first, second⟩

theorem ok_iff {a : α} {t : σ} (run : x s = .ok a t) : Ends x s good bad ↔ good a t := by
  unfold Ends
  rw [run]

theorem error_iff {f : Failure} {t : σ} (run : x s = .error f t) : Ends x s good bad ↔ bad f t := by
  unfold Ends
  rw [run]

/-- What never fails answers. -/
theorem exists_ok (ends : Ends x s good never) : ∃ a t, x s = .ok a t ∧ good a t := by
  unfold Ends at ends
  cases run : x s with
  | ok a t => exact ⟨a, t, rfl, by rwa [run] at ends⟩
  | error f t => rw [run] at ends; exact ends.elim

theorem pure_iff {a : α} : Ends (pure a) s good bad ↔ good a s := Iff.rfl

theorem throw_iff {f : Failure} : Ends (throw f : EStateM Failure σ α) s good bad ↔ bad f s := Iff.rfl

theorem get_iff {good : σ → σ → Prop} : Ends get s good bad ↔ good s s := Iff.rfl

theorem modify_iff {f : σ → σ} {good : Unit → σ → Prop} :
    Ends (modify f) s good bad ↔ good () (f s) := Iff.rfl

theorem bind_iff {f : α → EStateM Failure σ β} {good : β → σ → Prop} :
    Ends (x >>= f) s good bad ↔ Ends x s (fun a t => Ends (f a) t good bad) bad := by
  change (match EStateM.bind x f s with | .ok a t => good a t | .error g t => bad g t) ↔ _
  unfold Ends EStateM.bind
  cases x s <;> rfl

theorem bind {f : α → EStateM Failure σ β} {good : β → σ → Prop}
    (first : Ends x s (fun a t => Ends (f a) t good bad) bad) : Ends (x >>= f) s good bad :=
  bind_iff.2 first

theorem map_iff {f : α → β} {good : β → σ → Prop} :
    Ends (f <$> x) s good bad ↔ Ends x s (fun a t => good (f a) t) bad := by
  change (match EStateM.map f x s with | .ok a t => good a t | .error g t => bad g t) ↔ _
  unfold Ends EStateM.map
  cases x s <;> rfl

theorem tryCatch_iff {handle : Failure → EStateM Failure σ α} :
    Ends (tryCatch x handle) s good bad ↔ Ends x s good (fun f t => Ends (handle f) t good bad) := by
  change (match EStateM.tryCatch x handle s with | .ok a t => good a t | .error g t => bad g t) ↔ _
  unfold Ends EStateM.tryCatch
  cases x s <;> rfl

theorem ite_iff {c : Prop} [Decidable c] {y : EStateM Failure σ α} :
    Ends (if c then x else y) s good bad ↔ (c → Ends x s good bad) ∧ (¬c → Ends y s good bad) := by
  by_cases holds : c <;> simp [holds]

/-- An operation on each item of a list keeps what each single one keeps. -/
theorem forM {op : α → EStateM Failure σ Unit} {keeps : List α → σ → Prop}
    {bad : Failure → σ → Prop} (items : List α) (initial : keeps items s)
    (step : ∀ a rest t, keeps (a :: rest) t → Ends (op a) t (fun _ u => keeps rest u) bad) :
    Ends (items.forM op) s (fun _ t => keeps [] t) bad := by
  induction items generalizing s with
  | nil => exact initial
  | cons a rest ih =>
    change Ends (op a >>= fun _ => rest.forM op) s _ bad
    exact bind ((step a rest s initial).imp (fun _ t kept => ih kept) fun _ _ h => h)

/-- The same for operations that answer; the answers come in order. -/
theorem mapM {op : α → EStateM Failure σ β} {p : List α → List β → σ → Prop}
    {bad : Failure → σ → Prop} (items : List α) (initial : p items [] s)
    (step : ∀ a rest done t, p (a :: rest) done t →
      Ends (op a) t (fun b u => p rest (done ++ [b]) u) bad) :
    Ends (items.mapM op) s (fun answers t => p [] answers t) bad := by
  suffices general : ∀ done s, p items done s →
      Ends (items.mapM op) s (fun answers t => p [] (done ++ answers) t) bad from
    (general [] s initial).imp (fun _ _ h => h) fun _ _ h => h
  clear initial
  induction items with
  | nil => intro done s h; simpa [pure_iff] using h
  | cons a rest ih =>
    intro done s h
    rw [List.mapM_cons]
    refine bind ((step a rest done s h).imp (fun b t kept => ?_) fun _ _ h => h)
    refine bind ((ih (done ++ [b]) t kept).imp (fun bs u last => ?_) fun _ _ h => h)
    simpa [pure_iff] using last

end Ends

namespace Engine

variable {e : Engine} {good : α → Engine → Prop} {bad : Failure → Engine → Prop}

theorem ends_storage {x : StorageM α} :
    Ends (liftM x : Run α) e good bad ↔
      Ends x e.storage (fun a s => good a { e with storage := s })
        (fun f s => bad f { e with storage := s }) := by
  have lifted : (liftM x : Run α) = onStorage x := rfl
  rw [lifted]
  unfold Ends onStorage
  cases x e.storage <;> rfl

theorem ends_observe {x : Run α} {good : Except Failure α → Engine → Prop} :
    Ends (observe x) e good bad ↔
      Ends x e (fun a t => good (.ok a) t) (fun f t => good (.error f) t) := by
  rw [observe, Ends.tryCatch_iff, Ends.map_iff]
  rfl

theorem ends_ofExcept {x : Except Failure α} :
    Ends (ofExcept x) e good bad ↔
      (∀ a, x = .ok a → good a e) ∧ (∀ f, x = .error f → bad f e) := by
  cases x with
  | ok a => simp [ofExcept, Ends.pure_iff]
  | error f => simp [ofExcept, Ends.throw_iff]

/-- What follows in any case is done after an answer and after a failure. -/
theorem ends_andAlways {x : Run α} {last : Run Unit} :
    Ends (andAlways x last) e good bad ↔
      Ends x e (fun a t => Ends last t (fun _ u => good a u) bad)
        (fun f t => Ends last t (fun _ u => bad f u) bad) := by
  rw [andAlways, Ends.bind_iff, ends_observe]
  constructor <;> intro known <;> refine known.imp (fun a t h => ?_) fun f t h => ?_
  · rw [Ends.bind_iff] at h
    exact h.imp (fun _ u h => (ends_ofExcept.1 h).1 a rfl) fun _ _ h => h
  · rw [Ends.bind_iff] at h
    exact h.imp (fun _ u h => (ends_ofExcept.1 h).2 f rfl) fun _ _ h => h
  · refine Ends.bind (h.imp (fun _ u h => ends_ofExcept.2 ⟨?_, ?_⟩) fun _ _ h => h)
    · rintro b ⟨⟩; exact h
    · rintro g ⟨⟩
  · refine Ends.bind (h.imp (fun _ u h => ends_ofExcept.2 ⟨?_, ?_⟩) fun _ _ h => h)
    · rintro b ⟨⟩
    · rintro g ⟨⟩; exact h

/-- A storage error is taken up; any other failure stays one. -/
theorem ends_onStorageError {x : Run Unit} {handle : ProgramError → Run Unit}
    {good : Unit → Engine → Prop} :
    Ends (onStorageError x handle) e good bad ↔
      Ends x e good (fun f t => (∀ p, f = .program p → p.kind = .storage → Ends (handle p) t good bad) ∧
        ((∀ p, f = .program p → p.kind ≠ .storage) → bad f t)) := by
  rw [onStorageError, Ends.tryCatch_iff]
  constructor <;> intro known <;> refine known.imp (fun _ _ h => h) fun f t h => ?_
  · cases f with
    | program p =>
      by_cases isStorage : p.kind = .storage
      · simpa [isStorage] using h
      · simpa [isStorage, Ends.throw_iff] using h
    | plain k m => simpa [Ends.throw_iff] using h
    | invalid is => simpa [Ends.throw_iff] using h
    | transport n m => simpa [Ends.throw_iff] using h
  · cases f with
    | program p =>
      by_cases isStorage : p.kind = .storage
      · simpa [isStorage] using h
      · simpa [isStorage, Ends.throw_iff] using h
    | plain k m => simpa [Ends.throw_iff] using h
    | invalid is => simpa [Ends.throw_iff] using h
    | transport n m => simpa [Ends.throw_iff] using h

end Engine

end Runbook
