import Runbook.Proofs.Course.Effects

/-!
Two runs side by side. They lead from one relation between states to another when, from states in
the first, both answer alike or both fail for the same reason, with states in the second; where the
two are one relation, the runs are twins. Whether two walks through an execution are twins hangs on
the few operations by which a walk touches the engine; so does whether a walk keeps an invariant,
which is the case of a run beside itself.
-/
namespace Runbook

variable {σ α β γ δ : Type}

/-- Two ends are alike: both runs answer, as described, or both fail with the same failure. -/
inductive Meets (R : σ → σ → Prop) (same : α → β → Prop) :
    EStateM.Result Failure σ α → EStateM.Result Failure σ β → Prop where
  | answer {a : α} {b : β} {e d : σ} (alike : same a b) (related : R e d) :
      Meets R same (.ok a e) (.ok b d)
  | failure {f : Failure} {e d : σ} (related : R e d) :
      Meets R same (.error f e) (.error f d)

/-- From states in one relation two runs come to ends that are alike, with states in another. -/
def Leads (P Q : σ → σ → Prop) (x : EStateM Failure σ α) (y : EStateM Failure σ β)
    (same : α → β → Prop) : Prop :=
  ∀ e d, P e d → Meets Q same (x e) (y d)

/-- From related states two runs come to ends that are alike, with states that are related again. -/
abbrev Twin (R : σ → σ → Prop) (x : EStateM Failure σ α) (y : EStateM Failure σ β)
    (same : α → β → Prop) : Prop :=
  Leads R R x y same

/-- The same, with equal answers. -/
abbrev Twins (R : σ → σ → Prop) (x y : EStateM Failure σ α) : Prop := Twin R x y Eq

namespace Leads

variable {P Q R : σ → σ → Prop} {x : EStateM Failure σ α} {y : EStateM Failure σ β}
  {same : α → β → Prop}

theorem imp {same' : α → β → Prop} (leads : Leads P Q x y same)
    (weaker : ∀ a b, same a b → same' a b) : Leads P Q x y same' := by
  intro e d related
  have met := leads e d related
  generalize x e = r at met ⊢
  generalize y d = q at met ⊢
  cases met with
  | answer alike related => exact .answer (weaker _ _ alike) related
  | failure related => exact .failure related

/-- Less may be related before. -/
theorem before {P' : σ → σ → Prop} (leads : Leads P Q x y same) (less : ∀ e d, P' e d → P e d) :
    Leads P' Q x y same :=
  fun e d related => leads e d (less e d related)

theorem pure {a : α} {b : β} (alike : same a b) : Twin R (Pure.pure a) (Pure.pure b) same :=
  fun _ _ related => .answer alike related

theorem throw (f : Failure) :
    Twin R (throw f : EStateM Failure σ α) (throw f : EStateM Failure σ β) same :=
  fun _ _ related => .failure related

/-- What a first part leads to may lead further, when a failure may end there as well. -/
theorem chain {k : α → EStateM Failure σ γ} {l : β → EStateM Failure σ δ} {same' : γ → δ → Prop}
    (first : Leads P R x y same) (less : ∀ e d, R e d → Q e d)
    (next : ∀ a b, same a b → Leads R Q (k a) (l b) same') : Leads P Q (x >>= k) (y >>= l) same' := by
  intro e d related
  have met := first e d related
  change Meets Q same' (EStateM.bind x k e) (EStateM.bind y l d)
  unfold EStateM.bind
  generalize x e = r at met ⊢
  generalize y d = q at met ⊢
  cases met with
  | answer alike related => exact next _ _ alike _ _ related
  | failure related => exact .failure (less _ _ related)

theorem bind {k : α → EStateM Failure σ γ} {l : β → EStateM Failure σ δ} {same' : γ → δ → Prop}
    (first : Leads P R x y same) (next : ∀ a b, same a b → Twin R (k a) (l b) same') :
    Leads P R (x >>= k) (y >>= l) same' :=
  chain first (fun _ _ related => related) next

/-- The same when the first parts have equal answers. -/
theorem then_ {x y : EStateM Failure σ α} {k : α → EStateM Failure σ γ} {l : α → EStateM Failure σ δ}
    {same' : γ → δ → Prop}
    (first : Leads P R x y Eq) (next : ∀ a, Twin R (k a) (l a) same') :
    Leads P R (x >>= k) (y >>= l) same' :=
  bind first fun a _ same => same ▸ next a

theorem map {f : α → γ} {g : β → δ} {same' : γ → δ → Prop} (leads : Leads P Q x y same)
    (alike : ∀ a b, same a b → same' (f a) (g b)) : Leads P Q (f <$> x) (g <$> y) same' := by
  intro e d related
  have met := leads e d related
  change Meets Q same' (EStateM.map f x e) (EStateM.map g y d)
  unfold EStateM.map
  generalize x e = r at met ⊢
  generalize y d = q at met ⊢
  cases met with
  | answer same related => exact .answer (alike _ _ same) related
  | failure related => exact .failure related

theorem tryCatch {h : Failure → EStateM Failure σ α} {k : Failure → EStateM Failure σ β} (first : Leads P R x y same)
    (next : ∀ f, Twin R (h f) (k f) same) :
    Leads P R (MonadExcept.tryCatch x h) (MonadExcept.tryCatch y k) same := by
  intro e d related
  have met := first e d related
  change Meets R same (EStateM.tryCatch x h e) (EStateM.tryCatch y k d)
  unfold EStateM.tryCatch
  generalize x e = r at met ⊢
  generalize y d = q at met ⊢
  cases met with
  | answer alike related => exact .answer alike related
  | failure related => exact next _ _ _ related

theorem get : Twin R MonadState.get MonadState.get R := fun _ _ related => .answer related related

theorem modify {f g : σ → σ} (moves : ∀ e d, P e d → Q (f e) (g d)) :
    Leads P Q (MonadState.modifyGet fun e => ((), f e)) (MonadState.modifyGet fun e => ((), g e)) Eq :=
  fun _ _ related => .answer rfl (moves _ _ related)

/-- Runs that cannot fail, each of which is known by its end. -/
theorem of_ends (ends : ∀ e d, P e d →
    Ends x e (fun a t => Ends y d (fun b u => same a b ∧ Q t u) never) never) : Leads P Q x y same := by
  intro e d related
  have known := ends e d related
  unfold Ends at known
  cases first : x e with
  | error f t =>
    rw [first] at known
    exact known.elim
  | ok a t =>
    rw [first] at known
    dsimp only at known
    cases second : y d with
    | error f u =>
      rw [second] at known
      exact known.elim
    | ok b u =>
      rw [second] at known
      exact .answer known.1 known.2

/-- First parts that cannot fail, each of which is known by its end. -/
theorem after {s : α → β → Prop} {k : α → EStateM Failure σ γ} {l : β → EStateM Failure σ δ}
    {same : γ → δ → Prop}
    (ends : ∀ e d, P e d → Ends x e (fun a t => Ends y d (fun b u => s a b ∧ R t u) never) never)
    (next : ∀ a b, s a b → Leads R Q (k a) (l b) same) : Leads P Q (x >>= k) (y >>= l) same := by
  intro e d related
  obtain ⟨a, t, first, known⟩ := (ends e d related).exists_ok
  obtain ⟨b, u, second, alike, related⟩ := known.exists_ok
  change Meets Q same (EStateM.bind x k e) (EStateM.bind y l d)
  unfold EStateM.bind
  rw [first, second]
  exact next a b alike t u related

/-- First parts of which the one cannot fail. -/
theorem surely {k : α → EStateM Failure σ γ} {l : β → EStateM Failure σ δ} {same' : γ → δ → Prop}
    (first : Leads P R x y same) (sure : ∀ e d, P e d → Ends x e (fun _ _ => True) never)
    (next : ∀ a b, same a b → Leads R Q (k a) (l b) same') : Leads P Q (x >>= k) (y >>= l) same' := by
  intro e d related
  obtain ⟨a, t, answers, -⟩ := (sure e d related).exists_ok
  have met := first e d related
  change Meets Q same' (EStateM.bind x k e) (EStateM.bind y l d)
  unfold EStateM.bind
  rw [answers] at met ⊢
  generalize y d = q at met ⊢
  cases met with
  | answer alike related => exact next _ _ alike _ _ related

/-- A first part that only the one run has, and that cannot fail. -/
theorem aside {op : EStateM Failure σ γ} {k : γ → EStateM Failure σ α}
    (ends : ∀ e d, P e d → Ends op e (fun _ t => R t d) never)
    (next : ∀ c, Leads R Q (k c) y same) : Leads P Q (op >>= k) y same := by
  intro e d related
  obtain ⟨c, t, first, related⟩ := (ends e d related).exists_ok
  change Meets Q same (EStateM.bind op k e) (y d)
  unfold EStateM.bind
  rw [first]
  exact next c t d related

theorem ite {c : Prop} [Decidable c] {x' : EStateM Failure σ α} {y' : EStateM Failure σ β}
    (yes : c → Leads P Q x y same)
    (no : ¬c → Leads P Q x' y' same) : Leads P Q (if c then x else x') (if c then y else y') same := by
  by_cases holds : c
  · simpa [holds] using yes holds
  · simpa [holds] using no holds

theorem forM {ops ops' : α → EStateM Failure σ Unit} (items : List α)
    (each : ∀ a ∈ items, Twins R (ops a) (ops' a)) :
    Twins R (items.forM ops) (items.forM ops') := by
  induction items with
  | nil => exact pure rfl
  | cons a rest ih =>
    exact then_ (each a (.head _)) fun _ => ih fun b later => each b (.tail _ later)

end Leads

namespace Leads

variable {P Q R : Engine → Engine → Prop}

theorem observe {x y : Run α} (leads : Leads P R x y Eq) :
    Leads P R (Engine.observe x) (Engine.observe y) Eq :=
  tryCatch (map leads fun _ _ same => congrArg _ same) fun _ => pure rfl

theorem ofExcept (r : Except Failure α) : Twins R (Engine.ofExcept r) (Engine.ofExcept r) := by
  cases r with
  | ok a => exact pure rfl
  | error f => exact throw f

/-- What is observed goes on in any case, so that it may lead from the one relation to the other. -/
theorem observing {x y : Run α} {k : Except Failure α → Run γ} {l : Except Failure α → Run δ}
    {same' : γ → δ → Prop} (first : Leads P R x y Eq)
    (next : ∀ r, Leads R Q (k r) (l r) same') :
    Leads P Q (Engine.observe x >>= k) (Engine.observe y >>= l) same' := by
  intro e d related
  have met := first.observe e d related
  have answers {z : Run α} (t : Engine) : ∀ f u, Engine.observe z t ≠ .error f u := by
    intro f u
    change EStateM.tryCatch (EStateM.map Except.ok z) _ t ≠ _
    unfold EStateM.tryCatch EStateM.map
    cases z t <;> exact fun same => by cases same
  change Meets Q same' (EStateM.bind (Engine.observe x) k e) (EStateM.bind (Engine.observe y) l d)
  unfold EStateM.bind
  cases left : Engine.observe x e with
  | error f u => exact absurd left (answers e f u)
  | ok r u =>
    cases right : Engine.observe y d with
    | error f u => exact absurd right (answers d f u)
    | ok q v =>
      rw [left, right] at met
      cases met with
      | answer same related => exact same ▸ next r u v related

theorem andAlways {x y : Run α} {last last' : Run Unit} (first : Leads P Q x y Eq)
    (always : Leads Q R last last' Eq) :
    Leads P R (Engine.andAlways x last) (Engine.andAlways y last') Eq :=
  observing first fun r => then_ always fun _ => ofExcept r

end Leads

/-- An operation on each item of a list, with its answers in order. -/
theorem Leads.mapM {R : σ → σ → Prop} {ops ops' : α → EStateM Failure σ β} (items : List α)
    (each : ∀ a ∈ items, Twins R (ops a) (ops' a)) : Twins R (items.mapM ops) (items.mapM ops') := by
  induction items with
  | nil =>
    rw [List.mapM_nil, List.mapM_nil]
    exact pure rfl
  | cons a rest ih =>
    rw [List.mapM_cons, List.mapM_cons]
    exact then_ (each a (.head _)) fun b => then_ (ih fun c later => each c (.tail _ later))
      fun bs => pure rfl

/-- A run keeps an invariant, whether it succeeds or fails. -/
def Keeps (I : Engine → Prop) (x : Run α) : Prop :=
  ∀ e, I e → Ends x e (fun _ t => I t) fun _ t => I t

namespace Keeps

variable {I : Engine → Prop} {x : Run α}

/-- A run leads beside itself where its ends lead. -/
theorem leads_self {J : Engine → Prop}
    (ends : ∀ e, I e → Ends x e (fun _ t => J t) fun _ t => J t) :
    Leads (fun e d => d = e ∧ I e) (fun e d => d = e ∧ J e) x x Eq := by
  rintro _ e ⟨rfl, holds⟩
  have kept := ends e holds
  unfold Ends at kept
  generalize x e = r at kept ⊢
  cases r with
  | ok a t => exact .answer rfl ⟨rfl, kept⟩
  | error f t => exact .failure ⟨rfl, kept⟩

/-- A run that keeps an invariant is its own twin. -/
theorem twins (keeps : Keeps I x) : Twins (fun e d => d = e ∧ I e) x x := leads_self keeps

/-- What the first of two runs keeps, it keeps beside the second. -/
theorem beside {P Q : Engine → Engine → Prop} {y : Run β} {same : α → β → Prop} (keeps : Keeps I x)
    (leads : Leads P Q x y same) :
    Leads (fun e d => P e d ∧ I e) (fun e d => Q e d ∧ I e) x y same := by
  intro e d related
  have met := leads e d related.1
  have kept := keeps e related.2
  unfold Ends at kept
  generalize x e = r at met kept ⊢
  generalize y d = q at met ⊢
  cases met with
  | answer alike related => exact .answer alike ⟨related, kept⟩
  | failure related => exact .failure ⟨related, kept⟩

theorem of_twin {same : α → α → Prop} (twin : Twin (fun e d => d = e ∧ I e) x x same) : Keeps I x := by
  intro e holds
  have met := twin e e ⟨rfl, holds⟩
  unfold Ends
  generalize x e = r at met ⊢
  cases met with
  | answer _ related => exact related.2
  | failure related => exact related.2

theorem pure (a : α) : Keeps I (Pure.pure a) := fun _ holds => holds

theorem throw (f : Failure) : Keeps I (throw f : Run α) := fun _ holds => holds

theorem bind {k : α → Run β} (first : Keeps I x) (next : ∀ a, Keeps I (k a)) : Keeps I (x >>= k) :=
  fun e holds => Ends.bind ((first e holds).imp (fun a t kept => next a t kept) fun _ _ kept => kept)

theorem get {k : Engine → Run β} (next : ∀ e, Keeps I (k e)) : Keeps I (MonadState.get >>= k) :=
  fun e holds => next e e holds

theorem tryCatch {h : Failure → Run α} (first : Keeps I x) (next : ∀ f, Keeps I (h f)) :
    Keeps I (MonadExcept.tryCatch x h) :=
  fun e holds => Ends.tryCatch_iff.2 ((first e holds).imp (fun _ _ kept => kept)
    fun f t kept => next f t kept)

theorem ofExcept (r : Except Failure α) : Keeps I (Engine.ofExcept r) := by
  cases r with
  | ok a => exact pure a
  | error f => exact throw f

theorem map {f : α → β} (keeps : Keeps I x) : Keeps I (f <$> x) :=
  fun e holds => Ends.map_iff.2 (keeps e holds)

theorem observe (keeps : Keeps I x) : Keeps I (Engine.observe x) :=
  tryCatch (map keeps) fun _ => pure _

theorem andAlways {last : Run Unit} (first : Keeps I x) (always : Keeps I last) :
    Keeps I (Engine.andAlways x last) :=
  bind (observe first) fun r => bind always fun _ => ofExcept r

theorem ite {c : Prop} [Decidable c] {y : Run α} (yes : c → Keeps I x) (no : ¬c → Keeps I y) :
    Keeps I (if c then x else y) := by
  by_cases holds : c
  · simpa [holds] using yes holds
  · simpa [holds] using no holds

theorem forM {op : α → Run Unit} (items : List α) (each : ∀ a, Keeps I (op a)) :
    Keeps I (items.forM op) := by
  induction items with
  | nil => exact pure ()
  | cons a rest ih => exact bind (each a) fun _ => ih

theorem mapM {op : α → Run β} (items : List α) (each : ∀ a, Keeps I (op a)) :
    Keeps I (items.mapM op) := by
  induction items with
  | nil => simpa using pure []
  | cons a rest ih =>
    rw [List.mapM_cons]
    exact bind (each a) fun b => bind ih fun bs => pure _

end Keeps

namespace Execution

/-- Two executions look the same to a walk through certain nodes. -/
structure Resembles (reach : String → Prop) (x y : Execution) : Prop where
  workflow : y.workflow = x.workflow
  active : y.isActive = x.isActive
  vars : y.vars = x.vars
  visited : ∀ node, reach node → y.visited.contains node = x.visited.contains node
  loops : ∀ node, y.activeLoops.contains node = x.activeLoops.contains node
  counters : ∀ node, reach node → y.counter node = x.counter node

theorem Resembles.refl (reach : String → Prop) (x : Execution) : x.Resembles reach x :=
  ⟨rfl, rfl, rfl, fun _ _ => rfl, fun _ => rfl, fun _ _ => rfl⟩

/-- The changes that a walk makes to the data of its execution. -/
inductive Pace : (Execution → Execution) → Prop where
  | enter (node : String) : Pace (·.enter node)
  | count (node : String) (n : Int) : Pace (·.setCounter node n)
  | begin (node : String) : Pace fun x => { x with activeLoops := x.activeLoops ++ [node] }
  | leave (node : String) : Pace fun x => { x with activeLoops := x.activeLoops.filter (· != node) }

end Execution

namespace Engine

theorem execution_of_known {e : Engine} {id : String} {x : Execution} (known : e.execution? id = some x) :
    execution id e = .ok x e := by
  have ends : Ends (execution id) e (fun y t => y = x ∧ t = e) fun _ _ => False := by
    refine Ends.bind (Ends.get_iff.2 ?_)
    rw [known]
    exact Ends.pure_iff.2 ⟨rfl, rfl⟩
  unfold Ends at ends
  cases run : execution id e with
  | ok y t =>
    rw [run] at ends
    rw [ends.1, ends.2]
  | error f t =>
    rw [run] at ends
    exact ends.elim

theorem known_of_execution {e t : Engine} {id : String} {x : Execution} (run : execution id e = .ok x t) :
    t = e ∧ e.execution? id = some x := by
  have ends : Ends (execution id) e (fun y t => t = e ∧ e.execution? id = some y) fun _ _ => True := by
    refine Ends.bind (Ends.get_iff.2 ?_)
    cases known : e.execution? id with
    | none => exact trivial
    | some y => exact ⟨rfl, rfl⟩
  exact (Ends.ok_iff run).1 ends

/-- An execution is looked up, and the engines hold what they answer. -/
theorem leads_execution {P Q : Engine → Engine → Prop} {near : Execution → Execution → Prop} {id : String}
    {α β : Type} {k : Execution → Run α} {l : Execution → Run β} {same : α → β → Prop}
    (twin : Twin P (execution id) (execution id) near) (less : ∀ e d, P e d → Q e d)
    (next : ∀ x y, near x y → Leads
      (fun e d => P e d ∧ e.execution? id = some x ∧ d.execution? id = some y) Q (k x) (l y) same) :
    Leads P Q (execution id >>= k) (execution id >>= l) same := by
  intro e d related
  have met := twin e d related
  change Meets Q same (EStateM.bind (execution id) k e) (EStateM.bind (execution id) l d)
  unfold EStateM.bind
  cases left : execution id e with
  | ok x t =>
    cases right : execution id d with
    | error f u => rw [left, right] at met; cases met
    | ok y u =>
      rw [left, right] at met
      obtain ⟨rfl, known⟩ := known_of_execution left
      obtain ⟨rfl, known'⟩ := known_of_execution right
      cases met with
      | answer alike related => exact next x y alike _ _ ⟨related, known, known'⟩
  | error f t =>
    cases right : execution id d with
    | ok y u => rw [left, right] at met; cases met
    | error g u =>
      rw [left, right] at met
      cases met with
      | failure related => exact .failure (less _ _ related)

/-- A branch runs to its end, and whatever comes up in it is taken up, when the branch, failing and the
end of a branch lead from one invariant to the next. -/
theorem ends_branch {I B J : Engine → Prop} {e : Engine} {id : String} {branch : Run Unit}
    (report : String)
    (bound : ∀ (e : Engine) b, I e → I { e with storage := { e.storage with
      journal := { e.storage.journal with bound := b } } })
    (bound' : ∀ (e : Engine) b, B e → B { e with storage := { e.storage with
      journal := { e.storage.journal with bound := b } } })
    (run : ∀ e, I e → Ends branch e (fun _ t => B t) fun _ t => B t)
    (noted : Keeps B (note .error logger report [])) (fails : ∀ text, Keeps B (fail id text))
    (finishes : ∀ e, B e → Ends (branchFinished id) e (fun _ t => J t) fun _ t => J t)
    (holds : I e) (known : (e.execution? id).isSome) :
    Ends (runBranch id report branch) e (fun _ t => J t) never := by
  have whole (fields : Dict) : Ends (withFields fields branch) e (fun _ t => B t) fun _ t => B t := by
    refine Ends.bind (Ends.get_iff.2 (Ends.bind (Ends.modify_iff.2 (ends_andAlways.2 ?_))))
    exact (run _ (bound e _ holds)).imp (fun _ t kept => Ends.modify_iff.2 (bound' t _ kept))
      fun _ t kept => Ends.modify_iff.2 (bound' t _ kept)
  obtain ⟨x, there⟩ := Option.isSome_iff_exists.1 known
  refine Ends.bind ((Ends.ok_iff (execution_of_known there)).2 ?_)
  refine Ends.bind (ends_observe.2 (ends_andAlways.2 ((?_ : Ends _ _ (fun _ t => B t) fun _ t => B t).imp
    (fun _ t kept => (finishes t kept).imp (fun _ _ h => h) fun _ _ h => h)
    fun _ t kept => (finishes t kept).imp (fun _ _ h => h) fun _ _ h => h)))
  refine Ends.tryCatch_iff.2 ((whole _).imp (fun _ _ h => h) fun f t kept => ?_)
  exact Keeps.bind noted (fun _ => fails f.text) t kept

/-- An execution is running. -/
def Runs (id : String) (e : Engine) : Prop := ∃ x, e.execution? id = some x ∧ x.isActive = true

theorem runs_modifyExecution {id : String} {f : Execution → Execution} (named : ∀ x, (f x).id = x.id)
    (status : ∀ x, (f x).status = x.status) : Keeps (Runs id) (modifyExecution id f) := by
  rintro e ⟨x, known, active⟩
  refine Ends.modify_iff.2 ⟨f x, ?_, ?_⟩
  · rw [execution?_modify named, if_pos rfl, known]
    rfl
  · unfold Execution.isActive at active ⊢
    rw [status, active]

theorem runs_note {id : String} {level : Level} {logger message : String} {context : Dict} :
    Keeps (Runs id) (note level logger message context) :=
  fun _ runs => Ends.modify_iff.2 runs

theorem runs_lift {id : String} {α : Type} (op : StorageM α) : Keeps (Runs id) (liftM op : Run α) := by
  intro e runs
  refine ends_storage.2 ?_
  unfold Ends
  cases op e.storage <;> exact runs

/-- What is said of an execution does not end it. -/
theorem runs_log {id : String} (level : LogLevel) (message node : String) :
    Keeps (Runs id) (log level id message node) := by
  have found : Keeps (Runs id) (execution id) := by
    rintro e ⟨x, known, active⟩
    exact (Ends.ok_iff (execution_of_known known)).2 ⟨x, known, active⟩
  refine .bind found fun x => .bind (runs_modifyExecution (fun _ => rfl) fun _ => rfl) fun _ =>
    .bind runs_note fun _ => .get fun e => .ite (fun _ => ?_) fun _ => .pure _
  refine .tryCatch (runs_lift _) fun f => ?_
  cases f with
  | program p => exact .ite (fun _ => runs_note) fun _ => .throw _
  | _ => exact .throw _

/-- What walks may come by: nodes, and the ids that connections lead to; and what they may remark. -/
structure Scope where
  role : Node → Prop := fun _ => True
  reach : String → Prop := fun _ => True
  wording : Remark → Prop := fun _ => True

/-- All that walks through an execution need in order to be twins: the executions resemble each
other as far as the walks reach, and each operation by which a walk touches the engine is a twin of
its counterpart. -/
structure Guide (R : Engine → Engine → Prop) (near : Execution → Execution → Prop)
    (scope : Scope) (launch launch' : Launch) (id : String) : Prop where
  execution : Twin R (Engine.execution id) (Engine.execution id) near
  resembles : ∀ x y, near x y → x.Resembles scope.reach y
  roles : ∀ x y, near x y → ∀ n ∈ x.workflow.nodes, scope.role n
  leads : ∀ x y, near x y → ∀ c ∈ x.workflow.connections, scope.reach c.source → scope.reach c.target
  worded : ∀ r : Remark, (∃ node, r = .missing node ∨ r = .repeated node) ∨
    (∃ n, scope.role n ∧ r.node = n.id) → scope.wording r
  limit : ∀ e d, R e d → d.loopLimit = e.loopLimit
  say : ∀ r : Remark, scope.wording r →
    Twins R (log r.level id r.message r.node) (log r.level id r.message r.node)
  move : ∀ f, Execution.Pace f → Twins R (modifyExecution id f) (modifyExecution id f)
  forget : ∀ x y, near x y → Twins R (modifyExecution id fun z => { z with visited := x.visited })
    (modifyExecution id fun z => { z with visited := y.visited })
  act : ∀ n actionType, scope.role n → n.kind = .action actionType →
    Twins R (dispatch launch id actionType n.config) (dispatch launch' id actionType n.config)
  /-- Only a running execution comes to a delay. -/
  delay : ∀ n amount unit, scope.role n → scope.reach n.id → n.kind = .delay amount unit →
    Leads (fun e d => R e d ∧ Runs id e) R (runDelay id n amount unit) (runDelay id n amount unit) Eq
  fail : ∀ text, Twins R (fail id text) (fail id text)

namespace Guide

variable {R : Engine → Engine → Prop} {near : Execution → Execution → Prop} {scope : Scope}
  {launch launch' : Launch} {id : String} {enter enter' : String → Run Unit} {short short' : Run Bool}

theorem isActive (guide : Guide R near scope launch launch' id) :
    Twins R (Engine.isActive id) (Engine.isActive id) :=
  .bind guide.execution fun _ _ alike => .pure (guide.resembles _ _ alike).active.symm

/-- A remark at a node. -/
theorem note (guide : Guide R near scope launch launch' id) {n : Node} (part : scope.role n) (r : Remark)
    (place : r.node = n.id) :
    Twins R (log r.level id r.message r.node) (log r.level id r.message r.node) :=
  guide.say r (guide.worded r (.inr ⟨n, part, place⟩))

theorem followEach (guide : Guide R near scope launch launch' id)
    (ways : ∀ node, scope.reach node → Twins R (enter node) (enter' node))
    {connections : List Connection} (within : ∀ c ∈ connections, scope.reach c.target) :
    Twins R (followEach enter id connections) (Engine.followEach enter' id connections) := by
  induction connections with
  | nil => exact .pure rfl
  | cons c rest ih =>
    exact .then_ guide.isActive fun active => .ite
      (fun _ => .then_ (ways c.target (within c (.head _))) fun _ =>
        ih fun c later => within c (.tail _ later))
      fun _ => .pure rfl

theorem follow (guide : Guide R near scope launch launch' id)
    (ways : ∀ node, scope.reach node → Twins R (enter node) (enter' node)) {node : String}
    (within : ∀ x y, near x y → ∀ c ∈ x.workflow.outgoing node, scope.reach c.target) :
    Twins R (follow enter id node) (Engine.follow enter' id node) := by
  refine .bind guide.execution fun x y alike => ?_
  rw [(guide.resembles x y alike).workflow]
  exact guide.followEach ways (within x y alike)

/-- The connections of a node lead on. -/
theorem leadsOn (guide : Guide R near scope launch launch' id) {node : String} (here : scope.reach node)
    (x y : Execution) (alike : near x y) : ∀ c ∈ x.workflow.outgoing node, scope.reach c.target := by
  intro c there
  obtain ⟨listed, source⟩ := List.mem_filter.1 there
  have source : c.source = node := by simpa using source
  exact guide.leads x y alike c listed (source ▸ here)

/-- So does the one under a label. -/
theorem leadsTo (guide : Guide R near scope launch launch' id) {node label : String}
    (here : scope.reach node) {x y : Execution} (alike : near x y) {c : Connection}
    (found : x.workflow.connection? node label = some c) : scope.reach c.target := by
  have source : c.source = node := by
    have fits := List.find?_some found
    simp only [Bool.and_eq_true, beq_iff_eq] at fits
    exact fits.1
  exact guide.leads x y alike c (List.mem_of_find?_eq_some found) (source ▸ here)

theorem runCondition (guide : Guide R near scope launch launch' id)
    (ways : ∀ node, scope.reach node → Twins R (enter node) (enter' node)) {n : Node}
    (part : scope.role n) (here : scope.reach n.id) (c : Condition) :
    Twins R (runCondition enter id n c) (Engine.runCondition enter' id n c) := by
  refine .bind guide.execution fun x y alike => ?_
  have same := guide.resembles x y alike
  rw [same.vars, same.workflow]
  cases c.evaluate x.vars with
  | error f => exact .throw _
  | ok result =>
    refine .then_ (guide.note part (.evaluated n.id c result) rfl) fun _ => ?_
    cases found : x.workflow.connection? n.id (truthName result) with
    | none => exact guide.note part (.unconnected n.id (truthName result)) rfl
    | some connection => exact ways connection.target (guide.leadsTo here alike found)

theorem runAction (guide : Guide R near scope launch launch' id)
    (ways : ∀ node, scope.reach node → Twins R (enter node) (enter' node)) {n : Node}
    {actionType : String} (kind : n.kind = .action actionType) (part : scope.role n)
    (here : scope.reach n.id) :
    Twins R (runAction launch enter id n actionType) (Engine.runAction launch' enter' id n actionType) := by
  refine .then_ (guide.note part (.executing n.id actionType) rfl) fun _ => ?_
  refine .then_ (guide.act n actionType part kind) fun summary => ?_
  refine .then_ (.ofExcept _) fun text => ?_
  exact .then_ (guide.note part (.summary n.id text) rfl) fun _ => guide.follow ways (guide.leadsOn here)

/-- A loop goes on within the limit of the engine, and fails beyond it. -/
theorem limited (guide : Guide R near scope launch launch' id) (node : String) (count : Int)
    {x y : Run Bool} (within : Twins R x y) :
    Twins R (do
        match (← MonadState.get).loopLimit with
        | some limit => if limit < count then MonadExcept.throw (.program (.loopLimit node limit))
        | none => Pure.pure ()
        x)
      (do
        match (← MonadState.get).loopLimit with
        | some limit => if limit < count then MonadExcept.throw (.program (.loopLimit node limit))
        | none => Pure.pure ()
        y) := by
  refine .bind .get fun e d related => ?_
  rw [guide.limit e d related]
  cases e.loopLimit with
  | none => exact within
  | some l =>
    exact .ite (fun _ => .then_ (.throw _) fun _ => within) fun _ => within

theorem iterate (guide : Guide R near scope launch launch' id)
    (ways : ∀ node, scope.reach node → Twins R (enter node) (enter' node))
    (shortly : Twins R short short') {n : Node} (part : scope.role n) (here : scope.reach n.id)
    {body : String} (inside : scope.reach body) (iterations : Option Nat) (rounds : Nat) :
    Twins R (iterate short enter id n.id body iterations rounds)
      (Engine.iterate short' enter' id n.id body iterations rounds) := by
  induction rounds with
  | zero => exact shortly
  | succ rounds ih =>
    refine .bind guide.execution fun x y alike => ?_
    have same := guide.resembles x y alike
    rw [same.active, same.counters n.id here]
    refine .ite (fun _ => .pure rfl) fun _ => ?_
    refine .then_ (guide.move _ (.count n.id _)) fun _ => ?_
    have turn : Twins R
        (do
          logInfo id ("Loop iteration " ++ toString (x.counter n.id + 1) ++ "/" ++
            ((iterations.map toString).getD "infinite")) n.id
          let before := (← Engine.execution id).visited
          enter body
          modifyExecution id fun x => { x with visited := before }
          Engine.iterate short enter id n.id body iterations rounds)
        (do
          logInfo id ("Loop iteration " ++ toString (x.counter n.id + 1) ++ "/" ++
            ((iterations.map toString).getD "infinite")) n.id
          let before := (← Engine.execution id).visited
          enter' body
          modifyExecution id fun x => { x with visited := before }
          Engine.iterate short' enter' id n.id body iterations rounds) := by
      refine .then_ (guide.note part (.iteration n.id (x.counter n.id + 1) iterations) rfl) fun _ => ?_
      refine .bind guide.execution fun z w alike => ?_
      exact .then_ (ways body inside) fun _ => .then_ (guide.forget z w alike) fun _ => ih
    cases iterations with
    | none => exact guide.limited n.id _ turn
    | some k =>
      refine .ite (fun _ => ?_) fun _ => guide.limited n.id _ turn
      exact .then_ (guide.note part (.looped n.id k) rfl) fun _ => .pure rfl

theorem runLoop (guide : Guide R near scope launch launch' id)
    (ways : ∀ node, scope.reach node → Twins R (enter node) (enter' node))
    (shortly : Twins R short short') {n : Node} (part : scope.role n) (here : scope.reach n.id)
    (iterations : Option Nat) :
    Twins R (runLoop short enter id n iterations) (Engine.runLoop short' enter' id n iterations) := by
  refine .bind guide.execution fun x y alike => ?_
  have same := guide.resembles x y alike
  rw [same.workflow]
  cases found : x.workflow.connection? n.id "body" with
  | none => exact guide.note part (.bodiless n.id) rfl
  | some body =>
    refine .then_ (guide.move _ (.begin n.id)) fun _ => ?_
    refine .andAlways ?_ (guide.move _ (.leave n.id))
    refine .bind .get fun e d related => ?_
    rw [guide.limit e d related, same.counters n.id here]
    refine .then_ (guide.iterate ways shortly part here (guide.leadsTo here alike found) iterations _)
      fun done => ?_
    refine .ite (fun _ => ?_) fun _ => .pure rfl
    cases way : x.workflow.connection? n.id "exit" with
    | none => exact .pure rfl
    | some exit => exact ways exit.target (guide.leadsTo here alike way)

theorem runNode (guide : Guide R near scope launch launch' id)
    (ways : ∀ node, scope.reach node → Twins R (enter node) (enter' node))
    (shortly : Twins R short short') {n : Node} (part : scope.role n) (here : scope.reach n.id) :
    Leads (fun e d => R e d ∧ Runs id e) R (runNode launch short enter id n)
      (Engine.runNode launch' short' enter' id n) Eq := by
  have any {x y : Run Unit} (twins : Twins R x y) : Leads (fun e d => R e d ∧ Runs id e) R x y Eq :=
    twins.before fun _ _ related => related.1
  unfold Engine.runNode
  cases kind : n.kind with
  | trigger event =>
    exact any (.then_ (guide.note part (.triggered n.id event) rfl) fun _ =>
      guide.follow ways (guide.leadsOn here))
  | condition c => exact any (guide.runCondition ways part here c)
  | action actionType => exact any (guide.runAction ways kind part here)
  | delay amount unit => exact guide.delay n amount unit part here kind
  | loop iterations => exact any (guide.runLoop ways shortly part here iterations)
  | junction junctionType =>
    exact any (.then_ (guide.note part (.joined n.id junctionType) rfl) fun _ =>
      guide.follow ways (guide.leadsOn here))

theorem enterNode (guide : Guide R near scope launch launch' id)
    (ways : ∀ node, scope.reach node → Twins R (enter node) (enter' node))
    (shortly : Twins R short short') {node : String} (here : scope.reach node) :
    Twins R (enterNode launch short enter id node)
      (Engine.enterNode launch' short' enter' id node) := by
  refine leads_execution guide.execution (fun _ _ related => related) fun x y alike => ?_
  have same := guide.resembles x y alike
  rw [same.active, same.workflow, same.visited node here, same.loops]
  have still : Leads (fun e d => R e d ∧ e.execution? id = some x ∧ d.execution? id = some y) R
      (Pure.pure () : Run Unit) (Pure.pure () : Run Unit) Eq :=
    (Leads.pure rfl).before fun _ _ related => related.1
  refine .ite (fun _ => still) fun running => .ite (fun _ => ?_) fun _ => .ite (fun _ => still) fun _ => ?_
  · have passed := guide.worded (.repeated node) (.inl ⟨node, .inr rfl⟩)
    exact (Leads.then_ (guide.say (.repeated node) passed) fun _ => .pure rfl).before fun _ _ h => h.1
  have active : x.isActive = true := by simpa using running
  suffices onward : Leads (fun e d => R e d ∧ Runs id e) R _ _ Eq from
    onward.before fun _ _ related => ⟨related.1, x, related.2.1, active⟩
  have entered : Keeps (Runs id) (modifyExecution id (·.enter node)) :=
    runs_modifyExecution (fun _ => rfl) fun _ => rfl
  refine .chain (entered.beside (guide.move _ (.enter node))) (fun _ _ related => related.1) fun _ _ _ => ?_
  cases found : x.workflow.node? node with
  | none =>
    have missed := guide.worded (.missing node) (.inl ⟨node, .inl rfl⟩)
    exact (guide.say (.missing node) missed).before fun _ _ related => related.1
  | some n =>
    have part := guide.roles x y alike n (List.mem_of_find?_eq_some found)
    have own : n.id = node := by simpa using List.find?_some found
    subst own
    have told := guide.note part (.processing n.id n) rfl
    refine .chain ((runs_log _ _ _).beside told) (fun _ _ related => related.1) fun _ _ _ => ?_
    refine .tryCatch (guide.runNode ways shortly part here) fun f => ?_
    refine .then_ guide.isActive fun active => .ite (fun _ => ?_) fun _ => .pure rfl
    exact .then_ (guide.note part (.broken n.id f.text) rfl) fun _ => guide.fail f.text

/-- Walks are twins when the operations are by which they touch the engine. -/
theorem walk (guide : Guide R near scope launch launch' id) (depth : Nat) {node : String}
    (here : scope.reach node) :
    Twins R (walk launch id depth node) (Engine.walk launch' id depth node) := by
  induction depth generalizing node with
  | zero => exact .throw _
  | succ depth ih => exact guide.enterNode (fun _ reached => ih reached) (.throw _) here

end Guide

end Engine

end Runbook
