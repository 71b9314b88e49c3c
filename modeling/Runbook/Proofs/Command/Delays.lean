import Runbook.Command.Desk
import Runbook.Proofs.Course.Renewal

/-!
What the command that resumes delays tells. It lists the markers first, and asks for every execution
of the list once the delays were resumed. The first of them that has no record ends the command, and
nothing is told of those that come after it.
-/
namespace Runbook

/-- An execution is missing: it has no record, and its id is not one to come. -/
def Store.Misses (v : Store) (next : Nat) (id : String) : Prop :=
  (∀ r ∈ v.executions, r.id ≠ id) ∧ ∀ n, next ≤ n → id ≠ idText n

/-- There is a marker of an execution. -/
def Store.Marks (v : Store) (id : String) : Prop := ∃ m ∈ v.markers, m.execution = id

namespace Engine

/-- Nothing is known of certain executions, in memory or in store, and their ids are not to come. -/
structure Lacks (gone : String → Prop) (e : Engine) : Prop extends e.Free where
  unknown : ∀ id, gone id → e.execution? id = none
  absent : ∀ c ∈ e.storage.born, ¬gone c.1
  past : ∀ id, gone id → ∀ n, e.storage.nextId ≤ n → id ≠ idText n

variable {gone : String → Prop} {e t : Engine} {id : String} {rows : List Store.WorkflowRow}

theorem Lacks.onward (lacks : e.Lacks gone) (proceeds : e.Proceeds t) : t.Lacks gone where
  toFree := lacks.toFree.onward proceeds
  unknown id missing := by
    cases there : t.execution? id with
    | none => rfl
    | some y =>
      obtain ⟨⟨n, late, same⟩, -⟩ := proceeds.born id y (lacks.unknown id missing) there
      exact absurd same (lacks.past id missing n late)
  absent c there missing := by
    rcases proceeds.come c there with before | ⟨n, late, -, name⟩
    · exact lacks.absent c before missing
    · exact lacks.past _ missing n late name
  past id missing n late := lacks.past id missing n (Nat.le_trans proceeds.later late)

theorem lacks_of_onward {α : Type} {y : Run α} (goes : ∀ e : Engine, Keeps e.Proceeds y) :
    Keeps (Lacks gone) y :=
  fun e lacks => (goes e e (.refl lacks.vacant)).imp (fun _ _ more => lacks.onward more)
    fun _ _ more => lacks.onward more

/-! Delays are resumed. -/

/-- An execution that is made live again has a record, and so it is not missing. -/
theorem renewable_lacks : Renewable rows (fun _ => True) fun e => e.Lacks gone ∧ Stocks rows e where
  free lacks := lacks.1.toFree
  stocks lacks := lacks.2
  onward lacks sustains := ⟨lacks.1.onward sustains.1, sustains.2⟩
  revive := by
    intro t u x w live lacks sustains _ stored _
    have here := lacks.1.onward sustains.1
    refine ⟨⟨lacks.1.revive sustains.1 stored live, fun k missing => ?_, here.absent, here.past⟩, sustains.2⟩
    refine (execution?_replace u x k).trans ((if_neg ?_).trans (here.unknown k missing))
    rintro rfl
    exact lacks.1.absent _ stored missing

/-- No execution that is missing comes back when delays are resumed. -/
theorem lacks_resume : Keeps (Lacks gone) resume := fun _ lacks =>
  (renewable_lacks.resume ⟨lacks, rfl⟩ fun _ _ => trivial).imp (fun _ _ h => h.1) fun _ _ h => h.1

/-! Executions are waited for. -/

theorem onward_waitUntil (deadline : Option Float) (id : String) (fuel : Nat) :
    Keeps e.Proceeds (waitUntil deadline id fuel) := by
  induction fuel with
  | zero => exact .pure _
  | succ fuel ih =>
    refine .get fun t => ?_
    split
    · split
      · exact .ite (fun _ => .bind (onward_moveTo _) fun _ => ih) fun _ => .pure _
      · exact .bind (onward_moveTo _) fun _ => ih
    · exact .pure _

/-- One does not learn the status of an execution that is missing. -/
theorem ends_waitFor (lacks : e.Lacks gone) (id : String) (timeout : Option Float) :
    Ends (waitFor id timeout) e (fun _ t => t.Lacks gone ∧ ¬gone id) fun _ t => t.Lacks gone := by
  have settles : Keeps (Lacks gone) settle := lacks_of_onward fun _ => .get fun _ => onward_moveTo _
  have waits (deadline : Option Float) : Keeps (Lacks gone) (waitUntil deadline id patience) :=
    lacks_of_onward fun _ => onward_waitUntil deadline id patience
  refine Ends.bind ((settles e lacks).imp (fun _ t lacks => ?_) fun _ _ h => h)
  refine Ends.bind (Ends.get_iff.2 (Ends.bind ((waits _ t lacks).imp (fun _ u lacks => ?_) fun _ _ h => h)))
  refine Ends.bind (Ends.get_iff.2 ?_)
  cases live : u.liveExecution? id with
  | some x =>
    refine Ends.pure_iff.2 ⟨lacks, fun missing => ?_⟩
    unfold liveExecution? at live
    split at live
    · rw [lacks.unknown id missing] at live
      cases live
    · cases live
  | none =>
    have loads := ends_errand_read lacks.vacant rfl (.loadExecution id)
      (Storage.ends_loadExecution_read u.storage id)
    refine Ends.bind (loads.imp ?_ fun _ _ sustains => lacks.onward sustains.1)
    rintro record v ⟨sustains, stored⟩
    exact Ends.pure_iff.2 ⟨lacks.onward sustains.1, lacks.absent _ stored⟩

end Engine

namespace Work

/-- The line about an execution that was waited for. -/
def statusLine (p : String × ExecutionStatus) : String := "  " ++ p.1 ++ ": " ++ p.2.name

variable {gone : String → Prop}

/-- The executions are told of in their order, up to the first whose status one does not learn; a missing
one is never told of. -/
theorem ends_awaitAll (timeout : Option Float) (ids : List String) {e : Engine} (lacks : e.Lacks gone) :
    Ends (awaitAll timeout ids) e
      (fun a t => t.Lacks gone ∧ ∃ told : List (String × ExecutionStatus), a.1 = told.map statusLine ∧
        told.map (·.1) <+: ids ∧ (∀ p ∈ told, ¬gone p.1) ∧ (a.2 = none → told.map (·.1) = ids)) never := by
  induction ids generalizing e with
  | nil => exact Ends.pure_iff.2 ⟨lacks, [], rfl, List.prefix_rfl, by simp, fun _ => rfl⟩
  | cons id rest ih =>
    have waited : Ends (Engine.observe (Engine.waitFor id timeout)) e
        (fun r t => t.Lacks gone ∧ ∀ status, r = .ok status → ¬gone id) never := by
      refine Ends.tryCatch_iff.2 (Ends.map_iff.2 ((Engine.ends_waitFor lacks id timeout).imp ?_ ?_))
      · exact fun _ _ h => ⟨h.1, fun _ _ => h.2⟩
      · exact fun _ _ h => Ends.pure_iff.2 ⟨h, fun _ no => by cases no⟩
    refine Ends.bind (waited.imp ?_ fun _ _ h => h)
    rintro (f | status) t ⟨lacks, present⟩
    · exact Ends.pure_iff.2 ⟨lacks, [], rfl, List.nil_prefix, by simp, fun no => by cases no⟩
    · refine Ends.bind ((ih lacks).imp ?_ fun _ _ h => h)
      rintro ⟨lines, failure⟩ u ⟨lacks, told, same, begins, known, all⟩
      refine Ends.pure_iff.2 ⟨lacks, (id, status) :: told, congrArg _ same, ?_, ?_, fun none => ?_⟩
      · exact List.cons_prefix_cons.2 ⟨rfl, begins⟩
      · exact List.forall_mem_cons.2 ⟨present status rfl, known⟩
      · exact congrArg (List.cons id) (all none)

/-! The executions that are asked for. -/

/-- Leaving repetitions out takes away no element, and adds none. -/
theorem eraseReps_loop (a : String) (as before : List String) : ∃ rest,
    List.eraseRepsBy.loop (· == ·) a as before = before.reverse ++ rest ∧ rest.Sublist (a :: as) ∧
      a :: as ⊆ rest := by
  induction as generalizing a before with
  | nil => exact ⟨[a], by simp [List.eraseRepsBy.loop], List.Sublist.refl _, List.Subset.refl _⟩
  | cons b as ih =>
    unfold List.eraseRepsBy.loop
    split
    · rename_i same
      obtain rfl : a = b := by simpa using same
      obtain ⟨rest, left, fewer, all⟩ := ih a before
      exact ⟨rest, left, fewer.cons a, List.cons_subset.2 ⟨all (.head _), all⟩⟩
    · obtain ⟨rest, left, fewer, all⟩ := ih b (a :: before)
      exact ⟨a :: rest, by simp [left], fewer.cons_cons _, List.cons_subset_cons _ all⟩

theorem eraseReps_spec (l : List String) : l.eraseReps.Sublist l ∧ l ⊆ l.eraseReps := by
  cases l with
  | nil => exact ⟨List.Sublist.refl _, List.Subset.refl _⟩
  | cons a as =>
    obtain ⟨rest, left, fewer, all⟩ := eraseReps_loop a as []
    have same : (a :: as).eraseReps = rest := left
    exact ⟨same ▸ fewer, same ▸ all⟩

/-- The ids of the executions with markers, in their order. -/
def asked (markers : List Store.Marker) : List String :=
  (Folder.sortedTexts (markers.map (·.execution))).eraseReps

theorem mem_asked {markers : List Store.Marker} {id : String} :
    id ∈ asked markers ↔ ∃ m ∈ markers, m.execution = id := by
  have left := eraseReps_spec (Folder.sortedTexts (markers.map (·.execution)))
  have sorted : id ∈ Folder.sortedTexts (markers.map (·.execution)) ↔ ∃ m ∈ markers, m.execution = id :=
    (List.mergeSort_perm _ _).mem_iff.trans List.mem_map
  exact ⟨fun there => sorted.1 (left.1.subset there), fun marked => left.2 (sorted.2 marked)⟩

theorem pairwise_asked (markers : List Store.Marker) : (asked markers).Pairwise (· ≤ ·) := by
  refine List.Pairwise.sublist (eraseReps_spec _).1 ?_
  refine (List.pairwise_mergeSort (fun a b c => ?_) (fun a b => ?_) _).imp fun le => of_decide_eq_true le
  · simpa using fun first second => String.le_trans first second
  · simpa using String.le_total a b

/-- What is told of before some element of an ordered list comes before it. -/
theorem le_of_begins {ids told : List String} (sorted : ids.Pairwise (· ≤ ·)) (begins : told <+: ids)
    {id : String} (there : id ∈ ids) (untold : id ∉ told) : ∀ k ∈ told, k ≤ id := by
  obtain ⟨rest, rfl⟩ := begins
  have later := (List.mem_append.1 there).resolve_left untold
  exact fun k first => (List.pairwise_append.1 sorted).2.2 k first id later

/-! The command. -/

/-- What is printed of executions that were told of. -/
def report (count : Nat) (told : List (String × ExecutionStatus)) : List String :=
  ("Resumed " ++ toString count ++ " pending delay(s)") :: told.map statusLine

/-- What is told while markers are resumed: of executions with a marker, only of those before each that is
missing, and of all of them if nothing fails. -/
structure Tells (v : Store) (gone : String → Prop) (told : List (String × ExecutionStatus))
    (failure : Option Failure) : Prop where
  marked : ∀ p ∈ told, v.Marks p.1
  before : ∀ id, v.Marks id → gone id → failure ≠ none ∧ ∀ p ∈ told, p.1 < id
  all : failure = none → ∀ id, v.Marks id → id ∈ told.map (·.1)

theorem ends_listMarkers_marks (e : Engine) :
    Ends (liftM (Storage.listMarkers none) : Run (List Store.Marker)) e
      (fun ms _ => ∀ id, id ∈ asked ms ↔ e.storage.tables.Marks id) fun _ _ => True := by
  refine Engine.ends_storage.2 ((Storage.ends_query_read e.storage _ _ _).imp ?_ fun _ _ _ => trivial)
  intro ms _ read id
  have same := Storage.perm_of_sortedMarkers read
  rw [List.filter_true] at same
  rw [mem_asked]
  constructor
  · rintro ⟨m, there, rfl⟩
    obtain ⟨r, stored, alike⟩ := List.mem_map.1 (same.mem_iff.1 (List.mem_map.2 ⟨m, there, rfl⟩))
    exact ⟨r, stored, congrArg (·.2.1) alike⟩
  · rintro ⟨r, stored, rfl⟩
    obtain ⟨m, there, alike⟩ := List.mem_map.1 (same.mem_iff.2 (List.mem_map.2 ⟨r, stored, rfl⟩))
    exact ⟨m, there, congrArg (·.2.1) alike⟩

/-- What the engine does for the command. -/
theorem ends_resumption {e : Engine} (lacks : e.Lacks gone) (timeout : Option Float) :
    Ends (do
      let markers ← Storage.listMarkers none
      let count ← Engine.resume
      let (lines, failure) ← awaitAll timeout (asked markers)
      Engine.shutdown
      return (count, lines, failure) : Run (Nat × List String × Option Failure)) e
      (fun a _ => ∃ told, a.2.1 = told.map statusLine ∧ Tells e.storage.tables gone told a.2.2)
      fun _ _ => True := by
  have lists : Keeps (Engine.Lacks gone) (liftM (Storage.listMarkers none) : Run (List Store.Marker)) :=
    Engine.lacks_of_onward fun _ => Engine.onward_errand .listMarkers
  have listed := (lists e lacks).and (ends_listMarkers_marks e)
  refine Ends.bind (listed.imp ?_ fun _ _ _ => trivial)
  rintro ms t ⟨lacks, marks⟩
  refine Ends.bind ((Engine.lacks_resume t lacks).imp (fun count u lacks => ?_) fun _ _ _ => trivial)
  refine Ends.bind ((ends_awaitAll timeout (asked ms) lacks).imp ?_ fun _ _ _ => trivial)
  rintro ⟨lines, failure⟩ w ⟨lacks, told, same, begins, known, all⟩
  have stops := (Engine.manner_proceeds w).shutdown w (.refl lacks.vacant)
  refine Ends.bind (stops.imp (fun _ _ _ => Ends.pure_iff.2 ⟨told, same, ?_⟩) fun _ _ _ => trivial)
  refine ⟨fun p there => ?_, fun id marked missing => ?_, fun none id marked => ?_⟩
  · exact (marks p.1).1 (begins.subset (List.mem_map_of_mem there))
  · have untold : id ∉ told.map (·.1) := fun there => by
      obtain ⟨p, first, rfl⟩ := List.mem_map.1 there
      exact known p first missing
    refine ⟨fun none => untold (all none ▸ (marks id).2 marked), fun p there => ?_⟩
    refine Std.lt_of_le_of_ne (le_of_begins (pairwise_asked ms) begins ((marks id).2 marked) untold p.1
      (List.mem_map_of_mem there)) ?_
    rintro rfl
    exact known p there missing
  · exact all none ▸ (marks id).2 marked

/-- Work on a database is done by a new engine, which knows no execution. -/
theorem lacks_engine (s : Settings) (now : Float) {v : Store} {next : Nat}
    (unused : ∀ r ∈ v.executions, ∀ n, next ≤ n → r.id ≠ idText n) :
    (s.engine { tables := v, nextId := next } {} now).Lacks (v.Misses next) where
  vacant _ _ := rfl
  unused c there := by
    obtain ⟨r, stored, rfl⟩ := List.mem_map.1 there
    exact unused r stored
  unknown _ _ := rfl
  absent c there missing := by
    obtain ⟨r, stored, rfl⟩ := List.mem_map.1 there
    exact missing.1 r stored rfl
  past _ missing := missing.2

/-- A new engine works on a database, and nothing is printed meanwhile. -/
theorem ends_onEngine {α : Type} {s : Settings} {now : Float} {x : Run α} {c : Console} {v : Option Store}
    {d : Desk} (connects : c.desk.connect s = .ok (v, d)) {good : α → Prop}
    (runs : Ends x (s.engine { tables := v.getD {}, nextId := d.nextId } {} now) (fun a _ => good a)
      fun _ _ => True) :
    Ends (onEngine s now x) c (fun a c' => good a ∧ c'.printed = c.printed)
      fun _ c' => c'.printed = c.printed := by
  have connected : connect s c = .ok v { c with desk := d } := by
    change (ofExcept (c.desk.connect s) >>= fun p => do
      modify fun c => { c with desk := p.2 }
      return p.1 : Work (Option Store)) c = _
    rw [connects]
    rfl
  refine Ends.bind ((Ends.ok_iff connected).2 (Ends.bind (Ends.bind (Ends.get_iff.2 (Ends.pure_iff.2 ?_)))))
  unfold Ends at runs ⊢
  dsimp only [EStateM.run]
  cases run : x (s.engine { tables := v.getD {}, nextId := d.nextId } {} now) with
  | ok a e =>
    rw [run] at runs
    exact ⟨runs, rfl⟩
  | error f e => rfl

theorem ends_print (lines : List String) (c : Console) :
    Ends (lines.forM print) c (fun _ c' => c'.printed.toList = c.printed.toList ++ lines) never := by
  induction lines generalizing c with
  | nil => exact Ends.pure_iff.2 (List.append_nil _).symm
  | cons line rest ih =>
    refine Ends.bind (Ends.modify_iff.2 ((ih _).imp (fun _ _ printed => ?_) fun _ _ h => h))
    rw [printed, Array.toList_push, List.append_assoc]
    rfl

theorem resumeDelays_eq (s : Settings) (now : Float) (timeout : Option Float) :
    resumeDelays s now timeout = (do
      let (count, lines, failure) ← onEngine s now do
        let markers ← Storage.listMarkers none
        let count ← Engine.resume
        let (lines, failure) ← awaitAll timeout (asked markers)
        Engine.shutdown
        return (count, lines, failure)
      print ("Resumed " ++ toString count ++ " pending delay(s)")
      lines.forM print
      match failure with
      | some f => throw f
      | none => return) := rfl

/-- The command that resumes delays ends well only if every execution that has a marker has a record, and
then it has told of every one of these. If it fails, it has told nothing, or of executions that come
before each missing one in the order of the ids: a marker of a missing execution ends the command, and
those that come after it are not told of. -/
theorem resumeDelays_tells {s : Settings} {now : Float} {timeout : Option Float} {c : Console}
    {v : Option Store} {d : Desk} (connects : c.desk.connect s = .ok (v, d))
    (unused : ∀ r ∈ (v.getD {}).executions, ∀ n, d.nextId ≤ n → r.id ≠ idText n) :
    let store := v.getD {}
    Ends (resumeDelays s now timeout) c
      (fun _ c' => (∀ id, store.Marks id → ¬store.Misses d.nextId id) ∧ ∃ count told,
        c'.printed.toList = c.printed.toList ++ report count told ∧
        ∀ id, id ∈ told.map (·.1) ↔ store.Marks id)
      fun _ c' => c'.printed = c.printed ∨ ∃ count told,
        c'.printed.toList = c.printed.toList ++ report count told ∧
        ∀ p ∈ told, store.Marks p.1 ∧ ∀ id, store.Marks id → store.Misses d.nextId id → p.1 < id := by
  intro store
  rw [resumeDelays_eq]
  refine Ends.bind ((ends_onEngine connects (ends_resumption (lacks_engine s now unused) timeout)).imp ?_
    fun _ _ same => .inl same)
  rintro ⟨count, lines, failure⟩ c' ⟨⟨told, rfl, tells⟩, same⟩
  refine Ends.bind (Ends.modify_iff.2 (Ends.bind ?_))
  refine (ends_print _ _).imp (fun _ c'' printed => ?_) fun _ _ h => h.elim
  have printed : c''.printed.toList = c.printed.toList ++ report count told := by
    rw [printed, Array.toList_push, same, List.append_assoc]
    rfl
  cases failure with
  | none =>
    refine Ends.pure_iff.2 ⟨?_, count, told, printed, fun id => ⟨fun there => ?_, tells.all rfl id⟩⟩
    · exact fun id marked missing => (tells.before id marked missing).1 rfl
    · obtain ⟨p, first, rfl⟩ := List.mem_map.1 there
      exact tells.marked p first
  | some f =>
    refine Ends.throw_iff.2 (.inr ⟨count, told, printed, fun p there => ⟨tells.marked p there, ?_⟩⟩)
    exact fun id marked missing => (tells.before id marked missing).2 p there

/-- A marker of an execution without a record, and one of an execution that is over. -/
def haunted : Store where
  executions := [⟨"id-1", "wf", "tenant-1", .completed, .dict [], "tickets", none, none, .null, true⟩]
  markers := [⟨1, "ghost", "d1", ⟨0⟩, .dict []⟩, ⟨2, "id-1", "d1", ⟨0⟩, .dict []⟩]

/-- The command fails, and the execution that is over is not told of. -/
theorem resumeDelays_haunted {s : Settings} {now : Float} {timeout : Option Float} {c : Console} {d : Desk}
    (connects : c.desk.connect s = .ok (some haunted, d)) (next : d.nextId = 2) :
    Ends (resumeDelays s now timeout) c (fun _ _ => False)
      fun _ c' => c'.printed = c.printed ∨
        ∃ count, c'.printed.toList = c.printed.toList ++ report count [] := by
  have unused : ∀ r ∈ haunted.executions, ∀ n, 2 ≤ n → r.id ≠ idText n := by
    simp only [haunted, List.forall_mem_singleton]
    intro n late same
    have number : 1 = n := Scene.idText_inj same
    omega
  have marks (id : String) : haunted.Marks id ↔ id = "ghost" ∨ id = "id-1" := by
    simp [Store.Marks, haunted, eq_comm]
  have missing : haunted.Misses 2 "ghost" := by
    refine ⟨by simp [haunted], fun n _ same => ?_⟩
    have letters := congrArg String.toList same
    simp [idText] at letters
  rw [← next] at unused missing
  refine (resumeDelays_tells connects unused).imp (fun _ _ well => ?_) fun _ c' bad => ?_
  · exact well.1 "ghost" ((marks _).2 (.inl rfl)) missing
  · refine bad.imp id ?_
    rintro ⟨count, told, printed, before⟩
    have none : told = [] := by
      refine List.eq_nil_iff_forall_not_mem.2 fun p there => ?_
      obtain ⟨marked, first⟩ := before p there
      have less := first "ghost" ((marks _).2 (.inl rfl)) missing
      rcases (marks p.1).1 marked with same | same <;> rw [same] at less <;> exact absurd less (by decide)
    exact ⟨count, none ▸ printed⟩

example : let d : Desk := { databases := [(["deskflow.db"], some haunted)], nextId := 2 }
    d.connect {} = .ok (some haunted, d) := rfl

end Work

end Runbook
