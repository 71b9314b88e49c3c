import Runbook.Proofs.Course.Storage

/-!
The storage while sessions may be refused. A refused session fails with a storage error and leaves
the tables as they were; an operation that is tried again has its effect once, or none at all.
-/
namespace Runbook

/-- A failure of the storage. -/
def Failure.IsStorage (f : Failure) : Prop := ∃ p, f = .program p ∧ p.kind = .storage

namespace Store.Outage

theorem kind_pass (o : Outage) : o.pass.2.kind = o.kind := by
  unfold pass
  split <;> rfl

/-- What is left of the outages is of the kinds that there were. -/
theorem kind_of_mem_strike {operation : String} {os : List Outage} {o : Outage}
    (left : o ∈ (strike operation os).2) : ∃ p ∈ os, p.kind = o.kind := by
  induction os with
  | nil => cases left
  | cons p rest ih =>
    unfold strike at left
    split at left
    · rcases List.mem_cons.1 left with rfl | later
      · exact ⟨p, .head _, p.kind_pass.symm⟩
      · exact ⟨o, .tail _ later, rfl⟩
    · rcases List.mem_cons.1 left with rfl | later
      · exact ⟨o, .head _, rfl⟩
      · obtain ⟨q, there, kind⟩ := ih later
        exact ⟨q, .tail _ there, kind⟩

theorem mem_of_strike {operation : String} {os : List Outage} {o : Outage}
    (hit : (strike operation os).1 = some o) : o ∈ os := by
  induction os with
  | nil => cases hit
  | cons p rest ih =>
    unfold strike at hit
    split at hit
    · dsimp only at hit
      split at hit
      · cases hit; exact .head _
      · cases hit
    · exact .tail _ (ih hit)

theorem strike_of_eq {operation : String} {o : Outage} (hit : o.operation = operation) (os : List Outage) :
    strike operation (o :: os) = (if o.pass.1 then some o else none, o.pass.2 :: os) := by
  simp [strike, hit]

theorem strike_of_ne {operation : String} {o : Outage} (missed : o.operation ≠ operation)
    (os : List Outage) :
    strike operation (o :: os) = ((strike operation os).1, o :: (strike operation os).2) := by
  simp [strike, missed]

theorem operation_of_strike {operation : String} {os : List Outage} {o : Outage}
    (hit : (strike operation os).1 = some o) : o.operation = operation := by
  induction os with
  | nil => cases hit
  | cons p rest ih =>
    by_cases own : p.operation = operation
    · rw [strike_of_eq own] at hit
      split at hit <;> cases hit
      exact own
    · rw [strike_of_ne own] at hit
      exact ih hit

/-- Sessions for one operation do not use up the outages of another. -/
theorem strike_strike {operation other : String} (apart : other ≠ operation) (os : List Outage) :
    (strike other (strike operation os).2).1 = (strike other os).1 := by
  induction os with
  | nil => rfl
  | cons o rest ih =>
    by_cases hit : o.operation = operation
    · have still : o.pass.2.operation = operation := by
        unfold pass
        split <;> exact hit
      rw [strike_of_eq hit, strike_of_ne (still ▸ apart.symm), strike_of_ne (hit ▸ apart.symm)]
    · rw [strike_of_ne hit]
      by_cases own : o.operation = other
      · rw [strike_of_eq own, strike_of_eq own]
      · rw [strike_of_ne own, strike_of_ne own]
        exact ih

theorem isStorage_failure {o : Outage} (kind : o.kind = .storage) (table : String) :
    (o.failure table).IsStorage := by
  unfold failure
  rw [kind]
  exact ⟨_, rfl, rfl⟩

end Store.Outage

namespace Storage

/-- Every outage that is planned refuses with storage errors. -/
def Mild (s : Storage) : Prop := ∀ o ∈ s.outages, o.kind = .storage

/-- The next session for an operation is refused. -/
def refuses (s : Storage) (operation : String) : Bool :=
  (Store.Outage.strike operation s.outages).1.isSome

/-- The markers stay, ids are only taken, and no outage of another kind is added. -/
structure Stays (s t : Storage) : Prop where
  markers : t.tables.markers = s.tables.markers
  later : s.nextId ≤ t.nextId
  mild : s.Mild → t.Mild

variable {α : Type} {s t u : Storage}

theorem Stays.refl (s : Storage) : s.Stays s := ⟨rfl, Nat.le_refl _, fun h => h⟩

theorem Stays.trans (first : s.Stays t) (second : t.Stays u) : s.Stays u where
  markers := second.markers.trans first.markers
  later := Nat.le_trans first.later second.later
  mild := fun mild => second.mild (first.mild mild)

theorem Stays.of_eq (markers : t.tables.markers = s.tables.markers) (next : t.nextId = s.nextId)
    (outages : t.outages = s.outages) : s.Stays t :=
  ⟨markers, Nat.le_of_eq next.symm, fun mild => by unfold Mild; rw [outages]; exact mild⟩

/-- What is the same when nothing is followed but tables and outages. -/
theorem Stays.lasting {t u : Storage} (part : u.part = t.part) (tables : u.tables = t.tables)
    (outages : u.outages = t.outages) : t.Stays u :=
  .of_eq (by rw [tables]) (congrArg Part.next part) outages

theorem stays_strike (operation : String) :
    s.Stays { s with outages := (Store.Outage.strike operation s.outages).2 } := by
  refine ⟨rfl, Nat.le_refl _, fun mild o left => ?_⟩
  obtain ⟨p, there, kind⟩ := Store.Outage.kind_of_mem_strike left
  exact kind ▸ mild p there

theorem ends_openSession_mild (mild : s.Mild) (operation table : String) :
    Ends (openSession operation table) s (fun _ t => s.Stays t ∧ t.tables = s.tables ∧ t.nextId = s.nextId)
      (fun f t => s.Stays t ∧ t.tables = s.tables ∧ t.nextId = s.nextId ∧ f.IsStorage ∧
        s.refuses operation = true) := by
  refine Ends.bind (Ends.get_iff.2 (Ends.bind (Ends.modify_iff.2 ?_)))
  have kept := stays_strike (s := s) operation
  cases hit : (Store.Outage.strike operation s.outages).1 with
  | none => exact Ends.pure_iff.2 ⟨kept, rfl, rfl⟩
  | some o =>
    refine Ends.throw_iff.2 ⟨kept, rfl, rfl, ?_, by simp [refuses, hit]⟩
    exact Store.Outage.isStorage_failure (mild o (Store.Outage.mem_of_strike hit)) table

/-- A session has its effect, or fails and leaves the tables as they were. -/
theorem ends_session_mild {work : Store → Except Store.Refusal (α × Store)} (mild : s.Mild)
    (operation table : String) :
    Ends (session operation table work) s
      (fun a t => work s.tables = .ok (a, t.tables) ∧ t.nextId = s.nextId ∧ t.Mild)
      (fun f t => s.Stays t ∧ ((f.IsStorage ∧ (s.refuses operation = true ∨
        work s.tables = .error .rejected)) ∨ work s.tables = .error (.raised f))) := by
  refine Ends.bind ((ends_openSession_mild mild operation table).imp ?_ ?_)
  · rintro _ t ⟨kept, tables, next⟩
    unfold transact
    rw [Ends.bind_iff, Ends.get_iff, tables]
    cases outcome : work s.tables with
    | ok done => exact Ends.bind (Ends.modify_iff.2 (Ends.pure_iff.2 ⟨rfl, next, kept.mild mild⟩))
    | error r =>
      cases r with
      | rejected =>
        refine Ends.bind (Ends.modify_iff.2 (Ends.throw_iff.2 ⟨kept.trans ?_, .inl ⟨?_, .inr rfl⟩⟩))
        · exact .of_eq rfl rfl rfl
        · exact ⟨_, rfl, rfl⟩
      | raised f => exact Ends.throw_iff.2 ⟨kept, .inr rfl⟩
  · rintro f t ⟨kept, -, -, failure, refused⟩
    exact ⟨kept, .inl ⟨failure, .inl refused⟩⟩

/-- A session that leaves the markers alone. -/
theorem stays_session {work : Store → Except Store.Refusal (α × Store)} (mild : s.Mild)
    (operation table : String) (aside : ∀ v a w, work v = .ok (a, w) → w.markers = v.markers) :
    Ends (session operation table work) s (fun _ t => s.Stays t) fun _ t => s.Stays t := by
  refine (ends_session_mild mild operation table).imp ?_ fun _ _ h => h.1
  rintro a t ⟨done, next, still⟩
  exact ⟨aside _ _ _ done, Nat.le_of_eq next.symm, fun _ => still⟩

theorem ends_query_mild (mild : s.Mild) (operation table : String)
    (read : Store → Except Store.Refusal α) :
    Ends (query operation table read) s (fun a t => read s.tables = .ok a ∧ s.Stays t)
      fun _ t => s.Stays t := by
  refine (ends_session_mild mild operation table).imp ?_ fun _ _ h => h.1
  rintro a t ⟨done, next, still⟩
  obtain ⟨b, found, done⟩ := bind_eq_ok done
  obtain ⟨rfl, tables⟩ := Prod.mk.inj (Except.ok.inj done)
  exact ⟨found, by rw [← tables], Nat.le_of_eq next.symm, fun _ => still⟩

theorem Quiet.stays {x : StorageM α} (quiet : Quiet x) (mild : s.Mild) :
    Ends x s (fun _ t => s.Stays t) fun _ t => s.Stays t := by
  induction quiet generalizing s with
  | pure a => exact .refl s
  | throw f => exact .refl s
  | bind first next ih ihNext =>
    refine Ends.bind ((ih mild).imp (fun a t kept => ?_) fun _ _ kept => kept)
    exact (ihNext a (kept.mild mild)).imp (fun _ _ more => kept.trans more)
      fun _ _ more => kept.trans more
  | freshId =>
    exact Ends.bind (Ends.get_iff.2 (Ends.bind (Ends.modify_iff.2
      (Ends.pure_iff.2 ⟨rfl, Nat.le_succ _, fun h => h⟩))))
  | note other => exact Ends.modify_iff.2 (.of_eq rfl rfl rfl)
  | openSession operation table =>
    exact (ends_openSession_mild mild operation table).imp (fun _ _ h => h.1) fun _ _ h => h.1
  | @transact _ operation _ work aside =>
    unfold Storage.transact
    rw [Ends.bind_iff, Ends.get_iff]
    cases outcome : work s.tables with
    | ok done =>
      obtain ⟨a, tables⟩ := done
      exact Ends.bind (Ends.modify_iff.2 (Ends.pure_iff.2
        (.of_eq (aside _ _ _ outcome).2 rfl rfl)))
    | error r =>
      cases r with
      | rejected => exact Ends.bind (Ends.modify_iff.2 (Ends.throw_iff.2 (.of_eq rfl rfl rfl)))
      | raised f => exact Ends.throw_iff.2 (.refl s)

/-- An operation that is tried again, and that leaves the storage alone whenever it fails. -/
theorem ends_retrying_mild {call : StorageM α} {good : α → Storage → Prop} (failing : Failure → Prop)
    (mild : s.Mild) (name : String)
    (each : ∀ t : Storage, s.Stays t → t.Mild →
      Ends call t good fun f u => t.Stays u ∧ failing f) :
    Ends (retrying name call) s good fun f t => s.Stays t ∧ failing f := by
  refine (ends_retrying_of_kept (fun t => s.Stays t) failing
    (fun t u part tables outages kept => kept.trans (.lasting part tables outages)) name
    (fun t kept => ?_) (.refl s)).imp (fun _ _ h => h) fun _ _ h => h
  exact (each t kept (kept.mild mild)).imp (fun _ _ h => h) fun _ _ h => ⟨kept.trans h.1, h.2⟩

/-- A log entry is stored, or fails to be because of a refusal. -/
theorem ends_appendLog_mild (mild : s.Mild) (execution tenant : String) (entry : LogEntry) :
    Ends (appendLog execution (.text tenant) entry) s (fun _ t => s.Stays t)
      (fun f t => s.Stays t ∧ f.IsStorage) := by
  refine ends_retrying_mild Failure.IsStorage mild _ fun t kept still => ?_
  refine (ends_session_mild still _ _).imp ?_ ?_
  · rintro _ u ⟨done, next, more⟩
    have tables := (Prod.mk.inj (Except.ok.inj done)).2
    exact kept.trans ⟨by rw [← tables], Nat.le_of_eq next.symm, fun _ => more⟩
  · rintro f u ⟨same, ⟨failure, -⟩ | raised⟩
    · exact ⟨same, failure⟩
    · cases raised

theorem stays_setExecutionStatus (mild : s.Mild) (id : String) (status error time : Value) :
    Ends (setExecutionStatus id status error time) s (fun _ t => s.Stays t) fun _ t => s.Stays t := by
  suffices tried : Ends (setExecutionStatus id status error time) s (fun _ t => s.Stays t)
      fun _ t => s.Stays t ∧ True from tried.imp (fun _ _ h => h) fun _ _ h => h.1
  refine ends_retrying_mild (fun _ => True) mild _ fun t kept still => ?_
  cases ExecutionStatus.read status with
  | error f => exact Ends.bind (Ends.throw_iff.2 ⟨.refl t, trivial⟩)
  | ok status =>
    refine Ends.bind (Ends.pure_iff.2 ((stays_session still _ _ fun v a w done => ?_).imp
      (fun _ _ more => kept.trans more) fun _ _ more => ⟨more, trivial⟩))
    split at done
    · cases done
    · dsimp only at done
      split at done <;> obtain ⟨error, -, done⟩ := bind_eq_ok done <;> split at done <;>
      · obtain ⟨time, -, done⟩ := bind_eq_ok done
        cases done
        rfl

/-- A marker is saved once, under a number that no other has, or not at all. -/
theorem ends_saveMarker_mild (mild : s.Mild) (execution node : String) (resumeAt : Instant)
    (context : Value) :
    Ends (saveMarker execution node resumeAt context) s
      (fun m t => m = s.tables.nextMarker ∧ t.tables.markers = s.tables.markers ++
        [⟨m, execution, node, resumeAt, context.stored⟩] ∧ s.nextId ≤ t.nextId ∧ t.Mild)
      (fun _ t => s.Stays t) := by
  refine (ends_retrying_mild (fun _ => True) mild _ fun t kept still => ?_).imp (fun _ _ h => h)
    fun _ _ h => h.1
  refine (ends_session_mild still _ _).imp ?_ fun _ _ h => ⟨h.1, trivial⟩
  rintro m u ⟨done, next, more⟩
  have number : t.tables.nextMarker = s.tables.nextMarker := by
    unfold Store.nextMarker
    rw [kept.markers]
  simp only [Except.ok.injEq, Prod.mk.injEq] at done
  obtain ⟨rfl, tables⟩ := done
  refine ⟨number, ?_, Nat.le_trans kept.later (Nat.le_of_eq next.symm), more⟩
  rw [← tables, ← kept.markers]

/-- A session leaves the outages of other operations as they are. -/
theorem refuses_session {work : Store → Except Store.Refusal (α × Store)} {operation other : String}
    (apart : other ≠ operation) (table : String) :
    Ends (session operation table work) s (fun _ t => t.refuses other = s.refuses other)
      fun _ t => t.refuses other = s.refuses other := by
  have struck : { s with outages := (Store.Outage.strike operation s.outages).2 }.refuses other =
      s.refuses other := congrArg Option.isSome (Store.Outage.strike_strike apart s.outages)
  refine Ends.bind (Ends.bind (Ends.get_iff.2 (Ends.bind (Ends.modify_iff.2 ?_))))
  cases (Store.Outage.strike operation s.outages).1 with
  | some o => exact Ends.throw_iff.2 struck
  | none =>
    refine Ends.pure_iff.2 (Ends.bind (Ends.get_iff.2 ?_))
    cases work s.tables with
    | ok done => exact Ends.bind (Ends.modify_iff.2 (Ends.pure_iff.2 struck))
    | error r =>
      cases r with
      | rejected => exact Ends.bind (Ends.modify_iff.2 (Ends.throw_iff.2 struck))
      | raised f => exact Ends.throw_iff.2 struck

theorem refuses_appendLog {other : String} (apart : other ≠ "append execution log")
    (execution tenant : String) (entry : LogEntry) :
    Ends (appendLog execution (.text tenant) entry) s (fun _ t => t.refuses other = s.refuses other)
      fun _ t => t.refuses other = s.refuses other := by
  suffices tried : Ends (appendLog execution (.text tenant) entry) s
      (fun _ t => t.refuses other = s.refuses other) fun _ t => t.refuses other = s.refuses other ∧ True
    from tried.imp (fun _ _ h => h) fun _ _ h => h.1
  refine ends_retrying_of_kept (fun t => t.refuses other = s.refuses other) (fun _ => True)
    (fun t u _ _ outages kept => ?_) _ (fun t kept => ?_) rfl
  · rw [← kept]
    unfold refuses
    rw [outages]
  · exact (refuses_session apart _).imp (fun _ _ same => same.trans kept)
      fun _ _ same => ⟨same.trans kept, trivial⟩

/-- One marker is deleted, or the session was refused, or no table can hold its number. -/
theorem ends_clearMarker_mild (mild : s.Mild) (id : Nat) :
    Ends (clearMarker id) s
      (fun _ t => t.tables.markers = s.tables.markers.filter (fun m => (m.id : Int) != id) ∧
        s.nextId ≤ t.nextId ∧ t.Mild)
      (fun f t => s.Stays t ∧ (f.IsStorage → s.refuses "clear delay marker" = true)) := by
  refine (ends_session_mild mild _ _).imp ?_ ?_
  · rintro _ t ⟨done, next, still⟩
    refine ⟨?_, Nat.le_of_eq next.symm, still⟩
    cases fits : Store.fits (id : Int) <;>
      simp only [fits, Bool.not_true, Bool.not_false, if_true, Bool.false_eq_true, if_false,
        Except.ok.injEq, Prod.mk.injEq, reduceCtorEq] at done
    rw [← done.2]
  · rintro f t ⟨kept, ⟨-, refused | rejected⟩ | raised⟩
    · exact ⟨kept, fun _ => refused⟩
    · split at rejected <;> cases rejected
    · refine ⟨kept, ?_⟩
      rintro ⟨p, rfl, -⟩
      split at raised <;> cases raised

/-- The markers of an execution are deleted, or the session was refused. -/
theorem ends_clearMarkers_mild (mild : s.Mild) (id : String) :
    Ends (clearMarkers id) s
      (fun _ t => t.tables.markers = s.tables.markers.filter (·.execution != id) ∧
        s.nextId ≤ t.nextId ∧ t.Mild)
      (fun f t => s.Stays t ∧ f.IsStorage) := by
  refine (ends_session_mild mild _ _).imp ?_ ?_
  · rintro _ t ⟨done, next, still⟩
    simp only [Except.ok.injEq, Prod.mk.injEq] at done
    exact ⟨by rw [← done.2], Nat.le_of_eq next.symm, still⟩
  · rintro f t ⟨kept, ⟨failure, -⟩ | raised⟩
    · exact ⟨kept, failure⟩
    · cases raised

/-- An execution is created under a new id, or only ids are taken. -/
theorem ends_createExecution_mild (mild : s.Mild) (workflow tenant triggerData module item : Value) :
    Ends (createExecution workflow tenant triggerData module item) s
      (fun id t => ∃ n, s.nextId ≤ n ∧ n < t.nextId ∧ id = idText n ∧ s.Stays t)
      (fun _ t => s.Stays t) := by
  refine (ends_retrying_mild (fun _ => True) mild _ fun t kept still => ?_).imp (fun _ _ h => h)
    fun _ _ h => h.1
  refine Ends.bind (Ends.bind (Ends.get_iff.2 (Ends.bind (Ends.modify_iff.2 (Ends.pure_iff.2 ?_)))))
  have taken : t.Stays { t with nextId := t.nextId + 1 } := ⟨rfl, Nat.le_succ _, fun h => h⟩
  refine Ends.bind ((stays_session (taken.mild still) _ _ fun v a w done => ?_).imp
    (fun _ u more => Ends.pure_iff.2 ?_) fun _ u more => ⟨taken.trans more, trivial⟩)
  · obtain ⟨row, -, done⟩ := bind_eq_ok done
    cases done
    rfl
  · exact ⟨t.nextId, kept.later, Nat.lt_of_succ_le more.later, rfl,
      kept.trans (taken.trans more)⟩

end Storage

end Runbook
