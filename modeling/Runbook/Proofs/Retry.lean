import Mathlib.Data.Nat.Find
import Mathlib.Order.Bounds.Basic
import Runbook.Proofs.Action
import Runbook.Retry.Trial

/-!
Trying again. Work under a policy is called until it answers, fails for good or has been called as often as
the policy allows; between two calls the policy's delay is waited, and the last call decides how it ends. So
an execution that is created has one row, and one that is not has none, whatever happened on the way.
-/
namespace Runbook

variable {A α σ : Type}

namespace RetryPolicy

/-- Reports change a state, and so does waiting for the delay of the policy. -/
def Hooks.waiting (p : RetryPolicy) (random : Nat → Float) (wait : Number → σ → σ)
    (failed gaveUp : Nat → Failure → σ → σ) : Hooks σ where
  failed n f := do
    modify (failed n f)
    match p.delay (random n) n with
    | .ok d => modify (wait d)
    | .error g => throw g
  gaveUp n f := modify (gaveUp n f)

/-- No call follows the n-th one when this is its outcome. -/
def Stops (p : RetryPolicy) (n : Nat) : Except Failure α → Prop
  | .ok _ => True
  | .error f => p.accepts f = false ∨ p.maxAttempts ≤ n

instance (p : RetryPolicy) (n : Nat) (o : Except Failure α) : Decidable (p.Stops n o) :=
  match o with
  | .ok _ => isTrue trivial
  | .error f => inferInstanceAs (Decidable (p.accepts f = false ∨ p.maxAttempts ≤ n))

/-- The number of the last call, given the outcomes of all. -/
abbrev IsLast (p : RetryPolicy) (outcome : Nat → Except Failure α) (k : Nat) : Prop :=
  IsLeast {n | 1 ≤ n ∧ p.Stops n (outcome n)} k

variable {p : RetryPolicy} {outcome : Nat → Except Failure α} {k n : Nat}

theorem stops_of_le (enough : p.maxAttempts ≤ n) (o : Except Failure α) : p.Stops n o := by
  cases o with
  | ok a => trivial
  | error f => exact .inr enough

theorem exists_isLast (p : RetryPolicy) (outcome : Nat → Except Failure α) : ∃ k, p.IsLast outcome k := by
  have most : p.maxAttempts ≤ (max 1 p.maxAttempts.toNat : Nat) := by omega
  have some : ∃ n, 1 ≤ n ∧ p.Stops n (outcome n) := ⟨_, Nat.le_max_left .., stops_of_le most _⟩
  classical
  exact ⟨Nat.find some, Nat.find_spec some, fun n stops => Nat.find_min' some stops⟩

/-- A policy that allows no more than one call is satisfied by the first. -/
theorem IsLast.eq_one (last : p.IsLast outcome k) (few : p.maxAttempts ≤ 1) : k = 1 := by
  have first : k ≤ 1 := last.2 ⟨Nat.le_refl 1, stops_of_le few _⟩
  have := last.1.1
  omega

/-- What does not stop is a failure that is worth another call, and there are calls left. -/
theorem exists_of_not_stops {o : Except Failure α} (goes : ¬p.Stops n o) :
    ∃ f, o = .error f ∧ p.accepts f = true ∧ ¬p.maxAttempts ≤ n := by
  cases o with
  | ok a => exact absurd trivial goes
  | error f =>
    have both := not_or.1 goes
    exact ⟨f, rfl, by simpa using both.1, both.2⟩

variable {hooks : Hooks σ} {call : EStateM Failure σ α} {f : Failure} {s t u : σ}

/-- The loop, with its calls counted upwards. -/
theorem attempts_eq (p : RetryPolicy) (hooks : Hooks σ) (call : EStateM Failure σ α) (n : Nat) :
    p.attempts hooks call (p.maxAttempts - n).toNat n = tryCatch call fun f =>
      if p.accepts f then
        if p.maxAttempts ≤ n then do
          hooks.gaveUp n f
          throw f
        else do
          hooks.failed n f
          p.attempts hooks call (p.maxAttempts - (n + 1 : Nat)).toNat (n + 1)
      else throw f := by
  by_cases spent : p.maxAttempts ≤ n
  · have none : (p.maxAttempts - n).toNat = 0 := by omega
    rw [none, attempts]
    congr 1
    funext f
    by_cases again : p.accepts f = true <;> simp [again, spent]
  · have one : (p.maxAttempts - n).toNat = (p.maxAttempts - (n + 1 : Nat)).toNat + 1 := by omega
    rw [one, attempts]
    congr 1
    funext f
    by_cases again : p.accepts f = true <;> simp [again, spent]

theorem attempts_of_ok {x : α} (answers : call s = .ok x t) :
    p.attempts hooks call (p.maxAttempts - n).toNat n s = .ok x t := by
  rw [attempts_eq]
  change EStateM.tryCatch call _ s = _
  rw [EStateM.tryCatch, answers]

/-- A call that fails for good is the last one. -/
theorem attempts_of_refused (fails : call s = .error f t) (refused : p.accepts f = false) :
    p.attempts hooks call (p.maxAttempts - n).toNat n s = .error f t := by
  rw [attempts_eq]
  change EStateM.tryCatch call _ s = _
  rw [EStateM.tryCatch, fails]
  simp only [refused]
  rfl

theorem attempts_of_spent (fails : call s = .error f t) (again : p.accepts f = true) (spent : p.maxAttempts ≤ n)
    (told : hooks.gaveUp n f t = .ok () u) : p.attempts hooks call (p.maxAttempts - n).toNat n s = .error f u := by
  rw [attempts_eq]
  change EStateM.tryCatch call _ s = _
  rw [EStateM.tryCatch, fails]
  simp only [again, spent, if_true]
  change EStateM.bind (hooks.gaveUp n f) _ t = _
  rw [EStateM.bind, told]
  rfl

/-- Any other failure is followed by the next call. -/
theorem attempts_of_again (fails : call s = .error f t) (again : p.accepts f = true) (left : ¬p.maxAttempts ≤ n)
    (waited : hooks.failed n f t = .ok () u) : p.attempts hooks call (p.maxAttempts - n).toNat n s =
      p.attempts hooks call (p.maxAttempts - (n + 1 : Nat)).toNat (n + 1) u := by
  rw [attempts_eq]
  change EStateM.tryCatch call _ s = _
  rw [EStateM.tryCatch, fails]
  simp only [again, left, if_true, if_false]
  change EStateM.bind (hooks.failed n f) _ t = _
  rw [EStateM.bind, waited]

/-- A failure of the delay is what comes of it. -/
theorem attempts_of_broken {g : Failure} (fails : call s = .error f t) (again : p.accepts f = true)
    (left : ¬p.maxAttempts ≤ n) (broken : hooks.failed n f t = .error g u) :
    p.attempts hooks call (p.maxAttempts - n).toNat n s = .error g u := by
  rw [attempts_eq]
  change EStateM.tryCatch call _ s = _
  rw [EStateM.tryCatch, fails]
  simp only [again, left, if_true, if_false]
  change EStateM.bind (hooks.failed n f) _ t = _
  rw [EStateM.bind, broken]

theorem Hooks.waiting_failed {random : Nat → Float} {wait : Number → σ → σ}
    {failed gaveUp : Nat → Failure → σ → σ} {d : Number} (defined : p.delay (random n) n = .ok d) :
    (Hooks.waiting p random wait failed gaveUp).failed n f s = .ok () (wait d (failed n f s)) := by
  simp only [waiting, defined]
  rfl

theorem Hooks.waiting_broken {random : Nat → Float} {wait : Number → σ → σ}
    {failed gaveUp : Nat → Failure → σ → σ} {g : Failure} (broken : p.delay (random n) n = .error g) :
    (Hooks.waiting p random wait failed gaveUp).failed n f s = .error g (failed n f s) := by
  simp only [waiting, broken]
  rfl

end RetryPolicy

namespace Retry

/-- What is seen of work that is tried again. -/
inductive Deed (A : Type) where
  | called (a : A)
  | waited (d : Number)

def Deed.isCall : Deed A → Bool
  | .called _ => true
  | .waited _ => false

/-- What has been seen, and what the reports are written to. -/
structure Watch (A σ : Type) where
  deeds : List (Deed A)
  reports : σ

namespace Watch

def see (d : Deed A) (w : Watch A σ) : Watch A σ := { w with deeds := w.deeds ++ [d] }

def report (f : σ → σ) (w : Watch A σ) : Watch A σ := { w with reports := f w.reports }

/-- Hooks under which the waits are seen. -/
def hooks (p : RetryPolicy) (random : Nat → Float) (failed gaveUp : Nat → Failure → σ → σ) :
    RetryPolicy.Hooks (Watch A σ) :=
  .waiting p random (fun d => see (.waited d)) (fun n f => report (failed n f)) fun n f => report (gaveUp n f)

/-- Work whose calls are seen; the n-th call has the n-th outcome. -/
def work (outcome : Nat → Except Failure α) (a : A) : EStateM Failure (Watch A σ) α := do
  modify (see (.called a))
  match outcome ((← get).deeds.countP Deed.isCall) with
  | .ok x => return x
  | .error f => throw f

end Watch

/-- Calls of work with one argument, from the n-th to the k-th, and the waits between them. -/
def course (a : A) (delay : Nat → Number) (n k : Nat) : List (Deed A) :=
  .called a :: (List.range' n (k - n)).flatMap fun i => [.waited (delay i), .called a]

/-- An outcome, with the state that it leaves. -/
def ending : Except Failure α → σ → EStateM.Result Failure σ α
  | .ok x, s => .ok x s
  | .error f, s => .error f s

variable {p : RetryPolicy} {random : Nat → Float} {failed gaveUp : Nat → Failure → σ → σ}
  {outcome : Nat → Except Failure α} {a : A} {delay : Nat → Number} {n k : Nat}

theorem course_self (a : A) (delay : Nat → Number) (n : Nat) : course a delay n n = [.called a] := by
  rw [course, Nat.sub_self]
  rfl

theorem course_of_lt (less : n < k) :
    course a delay n k = .called a :: .waited (delay n) :: course a delay (n + 1) k := by
  have steps : k - n = k - (n + 1) + 1 := by omega
  rw [course, steps, List.range'_succ]
  rfl

theorem work_eq (outcome : Nat → Except Failure α) (a : A) (w : Watch A σ) :
    Watch.work outcome a w =
      ending (outcome (w.deeds.countP Deed.isCall + 1)) { w with deeds := w.deeds ++ [.called a] } := by
  have count : (w.deeds ++ [Deed.called a]).countP Deed.isCall = w.deeds.countP Deed.isCall + 1 := by
    rw [List.countP_append]
    rfl
  rw [← count]
  change (match outcome ((w.deeds ++ [Deed.called a]).countP Deed.isCall) with
    | .ok x => (pure x : EStateM Failure (Watch A σ) α)
    | .error f => throw f) { w with deeds := w.deeds ++ [Deed.called a] } = _
  cases outcome ((w.deeds ++ [Deed.called a]).countP Deed.isCall) <;> rfl

/-- A call before the last one fails, and is worth another. -/
theorem work_again (last : p.IsLast outcome k) (first : 1 ≤ n) (less : n < k) {w : Watch A σ}
    (before : w.deeds.countP Deed.isCall + 1 = n) :
    ∃ f, Watch.work outcome a w = .error f { w with deeds := w.deeds ++ [.called a] } ∧ p.accepts f = true ∧
      ¬p.maxAttempts ≤ n := by
  have goes : ¬p.Stops n (outcome n) := fun stops => Nat.not_lt.2 (last.2 ⟨first, stops⟩) less
  obtain ⟨f, ends, again, left⟩ := RetryPolicy.exists_of_not_stops goes
  have called := work_eq outcome a w
  rw [before, ends] at called
  exact ⟨f, called, again, left⟩

/-- The next call comes after the delay. -/
theorem attempts_next (failed gaveUp : Nat → Failure → σ → σ) (a : A) (last : p.IsLast outcome k) (first : 1 ≤ n)
    (less : n < k) {d : Number} (wait : p.delay (random n) n = .ok d) {w : Watch A σ}
    (before : w.deeds.countP Deed.isCall + 1 = n) :
    ∃ told, p.attempts (Watch.hooks p random failed gaveUp) (Watch.work outcome a) (p.maxAttempts - n).toNat n w =
        p.attempts (Watch.hooks p random failed gaveUp) (Watch.work outcome a) (p.maxAttempts - (n + 1 : Nat)).toNat
          (n + 1) ⟨w.deeds ++ [.called a, .waited d], told⟩ ∧
      (w.deeds ++ [Deed.called a, Deed.waited d]).countP Deed.isCall + 1 = n + 1 := by
  obtain ⟨f, called, again, left⟩ := work_again (a := a) last first less before
  have waited : (Watch.hooks p random failed gaveUp).failed n f { w with deeds := w.deeds ++ [.called a] } =
      .ok () ⟨w.deeds ++ [.called a] ++ [.waited d], failed n f w.reports⟩ :=
    RetryPolicy.Hooks.waiting_failed wait
  have counted : (w.deeds ++ [Deed.called a, Deed.waited d]).countP Deed.isCall + 1 = n + 1 := by
    rw [List.countP_append, ← before]
    rfl
  refine ⟨failed n f w.reports, ?_, counted⟩
  rw [RetryPolicy.attempts_of_again called again left waited, List.append_assoc]
  rfl

/-- What is seen from the n-th call on, when none before was the last. -/
theorem attempts_work (last : p.IsLast outcome k) (first : 1 ≤ n) (reached : n ≤ k)
    (waits : ∀ i, 1 ≤ i → i < k → p.delay (random i) i = .ok (delay i))
    (w : Watch A σ) (before : w.deeds.countP Deed.isCall + 1 = n) :
    ∃ told, p.attempts (Watch.hooks p random failed gaveUp) (Watch.work outcome a) (p.maxAttempts - n).toNat n w =
      ending (outcome k) ⟨w.deeds ++ course a delay n k, told⟩ := by
  induction steps : k - n generalizing n w with
  | zero =>
    obtain rfl : n = k := by omega
    have stops := last.1.2
    have called := work_eq outcome a w
    rw [before] at called
    rw [course_self]
    cases ends : outcome n with
    | ok x =>
      rw [ends] at called
      exact ⟨w.reports, RetryPolicy.attempts_of_ok called⟩
    | error f =>
      rw [ends] at called stops
      cases again : p.accepts f with
      | false => exact ⟨w.reports, RetryPolicy.attempts_of_refused called again⟩
      | true =>
        have spent : p.maxAttempts ≤ n := stops.resolve_left (by simp [again])
        exact ⟨gaveUp n f w.reports, RetryPolicy.attempts_of_spent called again spent rfl⟩
  | succ rest ih =>
    have less : n < k := by omega
    obtain ⟨told, next, counted⟩ := attempts_next failed gaveUp a last first less (waits n first less) before
    obtain ⟨told', later⟩ := ih (by omega) less ⟨_, told⟩ counted (by omega)
    refine ⟨told', next.trans ?_⟩
    rw [later, course_of_lt less, List.append_assoc]
    rfl

/-- A delay that fails takes the place of what the work would have come to. -/
theorem attempts_broken {j : Nat} {g : Failure} (last : p.IsLast outcome k) (first : 1 ≤ n) (reached : n ≤ j)
    (less : j < k) (waits : ∀ i, 1 ≤ i → i < j → p.delay (random i) i = .ok (delay i))
    (broken : p.delay (random j) j = .error g) (w : Watch A σ) (before : w.deeds.countP Deed.isCall + 1 = n) :
    ∃ told, p.attempts (Watch.hooks p random failed gaveUp) (Watch.work outcome a) (p.maxAttempts - n).toNat n w =
      .error g ⟨w.deeds ++ course a delay n j, told⟩ := by
  induction steps : j - n generalizing n w with
  | zero =>
    obtain rfl : n = j := by omega
    obtain ⟨f, called, again, left⟩ := work_again (a := a) last first less before
    have fails : (Watch.hooks p random failed gaveUp).failed n f { w with deeds := w.deeds ++ [.called a] } =
        .error g ⟨w.deeds ++ [.called a], failed n f w.reports⟩ := RetryPolicy.Hooks.waiting_broken broken
    rw [course_self]
    exact ⟨failed n f w.reports, RetryPolicy.attempts_of_broken called again left fails⟩
  | succ rest ih =>
    have earlier : n < j := by omega
    obtain ⟨told, next, counted⟩ := attempts_next failed gaveUp a last first (earlier.trans less)
      (waits n first earlier) before
    obtain ⟨told', later⟩ := ih (by omega) earlier ⟨_, told⟩ counted (by omega)
    refine ⟨told', next.trans ?_⟩
    rw [later, course_of_lt earlier, List.append_assoc]
    rfl

end Retry

/-! Writes that are tried again. -/

theorem Retry.Trial.hooks_eq (p : RetryPolicy) (random : Float) : hooks p random =
    .waiting p (fun _ => random) (fun d t => { t with slept := t.slept ++ [d.value] })
      (fun n f t => { t with journal := reportFailed t.journal name name n p.maxAttempts f })
      fun n f t => { t with journal := reportGaveUp t.journal name name n f } := rfl

namespace Storage

variable {s : Storage}

theorem retrying_eq (name : String) (call : StorageM α) : retrying name call =
    writePolicy.run (.waiting writePolicy (fun _ => 0.0) (fun d s => { s with slept := s.slept ++ [d.value] })
      (fun n f s => { s with journal := Retry.reportFailed s.journal name name n writePolicy.maxAttempts f })
      fun n f s => { s with journal := Retry.reportGaveUp s.journal name name n f }) call := rfl

theorem whole_retrying {call : StorageM α} {done : α → Store → Prop} (name : String)
    (each : ∀ t : Storage, t.tables = s.tables → Whole call t done) : Whole (retrying name call) s done := by
  have kept : Ends (retrying name call) s (fun a t => done a t.tables) fun _ u => u.tables = s.tables ∧ True :=
    ends_retrying_of_kept (fun t => t.tables = s.tables) (fun _ => True)
      (fun t u _ tables _ same => tables.trans same) name
      (fun t same => (each t same).imp (fun _ _ held => held) fun _ _ still => ⟨still.trans same, trivial⟩) rfl
  exact kept.imp (fun _ _ held => held) fun _ _ both => both.1

/-- An execution that is created is one more row, however many attempts it took. -/
theorem whole_createExecution (workflow tenant triggerData module item : Value) :
    Whole (createExecution workflow tenant triggerData module item) s fun id t => ∃ row,
      Store.ExecutionRow.opening id workflow tenant triggerData module item = .ok row ∧
        t = { s.tables with executions := s.tables.executions ++ [row] } := by
  apply whole_retrying
  intro t same
  refine .after ends_freshId_tables fun id u next => .bind (whole_session _ _ _) fun _ v done => ?_
  obtain ⟨row, opening, done⟩ := bind_eq_ok done
  rw [next, same] at done
  exact ⟨row, opening, (Prod.mk.inj (Except.ok.inj done)).2.symm⟩

end Storage

namespace Retry

/-- Trying again is disciplined. The last call is the first one that answers, fails in a way that is not worth
another attempt, or is as late as the policy allows. If the policy has a delay for every call before, the
calls up to this one are made with the same argument, each delay is waited in turn between two of them, and
what comes of it is the outcome of the last call. So an execution is created as one new row or not at all. -/
theorem disciplined (p : RetryPolicy) (random : Nat → Float) (failed gaveUp : Nat → Failure → σ → σ)
    (outcome : Nat → Except Failure α) (a : A) (s : σ) :
    (∃ k, p.IsLast outcome k ∧ (p.maxAttempts ≤ 1 → k = 1) ∧
      ∀ delay : Nat → Number, (∀ n, 1 ≤ n → n < k → p.delay (random n) n = .ok (delay n)) →
        ∃ told, p.run (Watch.hooks p random failed gaveUp) (Watch.work outcome a) ⟨[], s⟩ =
          ending (outcome k) ⟨course a delay 1 k, told⟩) ∧
    ∀ (storage : Storage) (workflow tenant triggerData module item : Value),
      Ends (Storage.createExecution workflow tenant triggerData module item) storage
        (fun id t => ∃ row : Store.ExecutionRow, row.id = id ∧ t.tables =
          { storage.tables with executions := storage.tables.executions ++ [row] })
        fun _ t => t.tables = storage.tables := by
  constructor
  · obtain ⟨k, last⟩ := p.exists_isLast outcome
    refine ⟨k, last, last.eq_one, fun delay waits => ?_⟩
    exact attempts_work last (Nat.le_refl 1) last.1.1 waits ⟨[], s⟩ rfl
  · intro storage workflow tenant triggerData module item
    have whole := Storage.whole_createExecution (s := storage) workflow tenant triggerData module item
    apply whole.imp
    · intro id t created
      obtain ⟨row, opening, tables⟩ := created
      exact ⟨row, (Store.ExecutionRow.opens_of_opening opening).id, tables⟩
    · intro f t kept
      exact kept

/-- Work that storage fails twice. -/
def faltering (n : Nat) : Except Failure String :=
  if n = 1 then .error (.program (.make .storage "locked" []))
  else if n = 2 then .error (.program (.make .transient "dropped" []))
  else .ok "done"

theorem disciplined_faltering :
    let p : RetryPolicy :=
      { maxAttempts := 5, baseDelay := .whole 1, maxDelay := .whole 60, factor := .whole 2, jitter := false }
    p.delay 0.0 1 = .ok (.whole 1) ∧ p.delay 0.0 2 = .ok (.whole 2) ∧
    p.run (Watch.hooks p (fun _ => 0.0) (fun _ _ => id) fun _ _ => id) (Watch.work faltering "x") ⟨[], ()⟩ =
      .ok "done" ⟨[.called "x", .waited (.whole 1), .called "x", .waited (.whole 2), .called "x"], ()⟩ := by
  intro p
  have first : p.delay 0.0 1 = .ok (.whole 1) := rfl
  have second : p.delay 0.0 2 = .ok (.whole 2) := rfl
  refine ⟨first, second, ?_⟩
  obtain ⟨⟨k, last, -, ends⟩, -⟩ :=
    disciplined p (fun _ => 0.0) (fun _ _ => id) (fun _ _ => id) faltering "x" ()
  have three : p.IsLast faltering 3 := by
    refine ⟨⟨by decide, trivial⟩, fun n stops => ?_⟩
    by_contra early
    have either : n = 1 ∨ n = 2 := by
      have := stops.1
      omega
    rcases either with rfl | rfl
    · exact absurd stops.2 (by decide)
    · exact absurd stops.2 (by decide)
  have waits (n : Nat) (least : 1 ≤ n) (less : n < 3) : p.delay 0.0 n = .ok (.whole n) := by
    have either : n = 1 ∨ n = 2 := by omega
    rcases either with rfl | rfl
    · exact first
    · exact second
  obtain rfl := last.unique three
  obtain ⟨told, run⟩ := ends (fun n => .whole n) waits
  exact run

end Retry

end Runbook
