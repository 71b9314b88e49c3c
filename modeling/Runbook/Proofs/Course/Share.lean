import Mathlib.Data.List.InsertIdx
import Runbook.Proofs.Course.Alone
import Runbook.Proofs.Course.Queue
import Runbook.Proofs.Course.Restart

/-!
The share of one execution in an engine: all that the engine holds of it, whatever the numbers of its
timers and markers are. A marker is told by its place among the markers of the execution instead, and
a timer by when it is due, its node and the place of its marker. A change that one execution makes of
a scene is a change of its share, which hangs on the share alone; the shares of the others stay.
-/
namespace Runbook

/-- A delay that an execution waits for, with the place of its marker. -/
structure Delay where
  due : Float
  node : String
  place : Nat

/-- What a marker keeps. -/
structure Saved where
  node : String
  resumeAt : Instant
  context : Value

structure Share where
  /-- The execution, without the numbers of its timers. -/
  execution? : Option Execution
  row? : Option Store.ExecutionRow
  live : Bool
  /-- The delays that are still to fire, in the order in which they were set. -/
  pending : List Delay
  /-- The delays that were taken off the clock and are about to fire. -/
  due : List Delay
  saved : List Saved
  spoken : List Spoken
  now : Float
  limit : Option Int

namespace Execution

/-- An execution without the numbers of its timers. -/
def untimed (x : Execution) : Execution := { x with timers := [] }

end Execution

def Store.MarkerRow.saved (m : Store.MarkerRow) : Saved := ⟨m.node, m.resumeAt, m.context⟩

namespace Delay

/-- A delay whose execution has no markers any more. -/
def unmarked (d : Delay) : Delay := { d with place := 0 }

/-- A delay after the marker at another place was deleted. -/
def lower (place : Nat) (d : Delay) : Delay :=
  { d with place := if place < d.place then d.place - 1 else d.place }

end Delay

namespace Scene

/-- How many markers of an execution have lower numbers. -/
def place (v : Scene) (id : String) (number : Nat) : Nat :=
  (v.markers.filter (·.execution == id)).countP (·.id < number)

def delay (v : Scene) (id : String) (t : Timer) : Delay := ⟨t.due, t.node, v.place id t.marker⟩

/-- The share of an execution, while timers are about to fire. -/
def share (v : Scene) (picked : List Timer) (id : String) : Share where
  execution? := (v.execution? id).map (·.untimed)
  row? := v.row? id
  live := v.live.contains id
  pending := (v.clock.timers.filter (·.execution == id)).map (v.delay id)
  due := (picked.filter (·.execution == id)).map (v.delay id)
  saved := (v.markers.filter (·.execution == id)).map (·.saved)
  spoken := v.spoken.filter (·.execution == id)
  now := v.clock.now
  limit := v.limit

end Scene

/-! What an execution does, as changes of its share. -/

namespace Share

def alter (a : Share) (f : Execution → Execution) : Share := { a with execution? := a.execution?.map f }

def say (a : Share) (id : String) (r : Remark) : Share :=
  { a.alter (·.tell r) with
    spoken := a.spoken ++ (a.execution?.map fun x => r.spoken id x.path).toList }

/-- A marker is kept. -/
def save (a : Share) (node : String) (resumeAt : Instant) : Share :=
  { a with saved := a.saved ++
      (a.execution?.map fun x => (⟨node, resumeAt, x.snapshot.stored⟩ : Saved)).toList }

/-- A timer is set for the marker at a place. -/
def arm (a : Share) (node : String) (seconds : Float) (place : Nat) : Share :=
  { a.alter fun x => { x with branches := x.branches + 1 } with
    pending := a.pending ++ [⟨a.now + seconds, node, place⟩] }

def suspend (a : Share) (id node : String) (seconds : Float) (resumeAt : Instant) : Share :=
  ((a.save node resumeAt).say id (.delaying node seconds)).arm node seconds a.saved.length

/-- An execution is over, and nothing is left that it waits for. -/
def close (a : Share) (f : Execution → Execution) (status : ExecutionStatus) (error : Option String) :
    Share :=
  { a.alter f with
    row? := a.row?.map (·.close status error), live := false, pending := []
    due := a.due.map (·.unmarked), saved := [] }

def fail (a : Share) (error : String) : Share := a.close (·.failed error) .failed (some error)

def cancel (a : Share) (id : String) : Share :=
  { a.close Execution.cancelled .cancelled (some Scene.cancelText) with
    spoken := a.spoken ++ (a.execution?.map fun x => Remark.cancelled.spoken id x.path).toList }

def complete (a : Share) (id : String) : Share :=
  { a.close Execution.completed .completed none with
    spoken := a.spoken ++ (a.execution?.map fun x => Remark.completed.spoken id x.path).toList }

def finish (a : Share) (id : String) : Share :=
  if a.execution?.any fun x => x.branches - 1 ≤ 0 && x.isActive then a.complete id
  else a.alter fun x => { x with branches := x.branches - 1 }

/-- The first delay that is about to fire is taken up, and its marker deleted. -/
def take (a : Share) (id : String) (r : Remark) : Share :=
  match a.due with
  | [] => a
  | d :: rest =>
    { a.say id r with
      pending := a.pending.map (·.lower d.place), due := rest.map (·.lower d.place)
      saved := a.saved.eraseIdx d.place }

/-- The first delay that is about to fire is taken up by an execution that is over. -/
def past (a : Share) (id : String) : Share := { a with due := a.due.tail }.finish id

/-- The clock moves. -/
def shift (a : Share) (now : Float) : Share :=
  { a with
    now, pending := a.pending.filter fun d => !decide (d.due ≤ now)
    due := sortBy (fun d e => d.due ≤ e.due) (a.pending.filter fun d => decide (d.due ≤ now)) }

/-- Another engine goes on with the storage. -/
def restarted (a : Share) (now : Float) : Share := { a with live := false, pending := [], now }

/-- An execution becomes live, in place of what was known of it. -/
def revive (a : Share) (x : Execution) : Share := { a with execution? := some x.untimed, live := true }

def enrol (a : Share) (x : Execution) (row : Store.ExecutionRow) : Share :=
  { a.revive x with row? := some row }

/-- A timer is set again: its node, the seconds that are left, and the place of its marker. -/
def rearm (id : String) (a : Share) (d : String × Float × Nat) : Share :=
  (a.say id (.restored d.1 d.2.1)).arm d.1 d.2.1 d.2.2

end Share

/-! Numbers below a number. -/

section Below

variable {α : Type} {key : α → Nat} {items : List α} {n k : Nat}

theorem countP_lt_iff {a : α} (there : a ∈ items) (number : key a = n) :
    items.countP (fun a => decide (key a < n)) < items.countP (fun a => decide (key a < k)) ↔ n < k := by
  constructor
  · intro fewer
    by_contra late
    refine Nat.lt_irrefl _ (Nat.lt_of_lt_of_le fewer (List.countP_mono_left fun b _ lower => ?_))
    simp only [decide_eq_true_eq] at lower ⊢
    omega
  · intro before
    induction items with
    | nil => cases there
    | cons b rest ih =>
      have mono : rest.countP (fun a => decide (key a < n)) ≤ rest.countP fun a => decide (key a < k) :=
        List.countP_mono_left fun c _ lower => by
          simp only [decide_eq_true_eq] at lower ⊢
          omega
      rw [List.countP_cons, List.countP_cons]
      rcases List.mem_cons.1 there with rfl | later
      · simp only [number, Nat.lt_irrefl, decide_false, before, decide_true]
        simp only [Bool.false_eq_true, if_false, if_true]
        omega
      · have fewer := ih later
        by_cases low : key b < n
        · have low' : key b < k := by omega
          simp only [low, low', decide_true, if_true]
          omega
        · simp only [low, decide_false, Bool.false_eq_true, if_false]
          split <;> omega

/-- In a list in order the item with a number stands where as many lower ones stand before it. -/
theorem filter_ne_eq_eraseIdx (ordered : items.Pairwise fun a b => key a < key b) {a : α} (there : a ∈ items)
    (number : key a = n) :
    items.filter (fun a => key a != n) = items.eraseIdx (items.countP fun a => decide (key a < n)) := by
  induction items with
  | nil => cases there
  | cons b rest ih =>
    obtain ⟨first, ordered⟩ := List.pairwise_cons.1 ordered
    rcases List.mem_cons.1 there with rfl | later
    · have none : rest.countP (fun a => decide (key a < n)) = 0 :=
        List.countP_eq_zero.2 fun c after => by
          have behind := first c after
          simp only [decide_eq_true_eq]
          omega
      have kept : rest.filter (fun a => key a != n) = rest :=
        List.filter_eq_self.2 fun c after => by
          have behind := first c after
          simp only [bne_iff_ne]
          omega
      simp [number, none, kept]
    · have before : key b < n := number ▸ first a later
      have other : (key b != n) = true := by simp only [bne_iff_ne]; omega
      rw [List.filter_cons, if_pos other, List.countP_cons, ih ordered later]
      simp [before]

/-- One number less is below a number. -/
theorem countP_filter_ne (distinct : (items.map key).Nodup) {a : α} (there : a ∈ items)
    (number : key a = n) :
    (items.filter fun a => key a != n).countP (fun a => decide (key a < k)) =
      items.countP (fun a => decide (key a < k)) - if n < k then 1 else 0 := by
  induction items with
  | nil => cases there
  | cons b rest ih =>
    rw [List.map_cons, List.nodup_cons] at distinct
    rcases List.mem_cons.1 there with rfl | later
    · have kept : rest.filter (fun a => key a != n) = rest :=
        List.filter_eq_self.2 fun c after => by
          have other : key c ≠ n := fun same =>
            distinct.1 (List.mem_map.2 ⟨c, after, same.trans number.symm⟩)
          simpa using other
      by_cases low : n < k <;> simp [number, kept, low]
    · have other : (key b != n) = true := by
        have other : key b ≠ n := fun same =>
          distinct.1 (List.mem_map.2 ⟨a, later, number.trans same.symm⟩)
        simpa using other
      have some : n < k → 0 < rest.countP fun a => decide (key a < k) := fun low =>
        List.countP_pos_iff.2 ⟨a, later, by simpa [number] using low⟩
      rw [List.filter_cons, if_pos other, List.countP_cons, List.countP_cons, ih distinct.2 later]
      split <;> split <;> simp_all

end Below

namespace Scene

variable {v w : Scene} {busy busy' : List String} {picked picked' : List Timer} {id k : String}
  {x y : Execution} {f g : Execution → Execution}

/-- The share hangs on the aspect of the execution, and on what is said of it. -/
theorem share_congr (busy busy' : List String) (aspect : w.aspect busy' picked' id = v.aspect busy picked id)
    (spoken : w.spoken.filter (·.execution == id) = v.spoken.filter (·.execution == id))
    (now : w.clock.now = v.clock.now) (limit : w.limit = v.limit) :
    w.share picked' id = v.share picked id := by
  have execution : w.execution? id = v.execution? id := congrArg Aspect.execution? aspect
  have row : w.row? id = v.row? id := congrArg Aspect.row? aspect
  have live : w.live.contains id = v.live.contains id := congrArg Aspect.live aspect
  have timers : w.clock.timers.filter (·.execution == id) = v.clock.timers.filter (·.execution == id) :=
    congrArg Aspect.timers aspect
  have due : picked'.filter (·.execution == id) = picked.filter (·.execution == id) :=
    congrArg Aspect.picked aspect
  have markers : w.markers.filter (·.execution == id) = v.markers.filter (·.execution == id) :=
    congrArg Aspect.markers aspect
  have delays : w.delay id = v.delay id := by
    unfold delay place
    rw [markers]
  unfold share
  rw [execution, row, live, timers, due, markers, spoken, now, limit, delays]

/-! Changes of the data of the walk. -/

theorem share_alter (same : ∀ x : Execution, (f x).untimed = g x.untimed) :
    (v.alter id f).share picked id = (v.share picked id).alter g := by
  simp only [share, execution?_alter, if_true, Option.map_map]
  rw [show Execution.untimed ∘ f = g ∘ Execution.untimed from funext same]
  simp only [Share.alter, Option.map_map]
  rfl

theorem share_alter_of_ne (other : k ≠ id) : (v.alter id f).share picked k = v.share picked k :=
  share_congr [] [] (by simp [aspect, other]) rfl rfl rfl

/-- What an execution says, it says for itself. -/
theorem heard_say (r : Remark) : (v.say id r).spoken.filter (·.execution == id) =
    v.spoken.filter (·.execution == id) ++
      ((v.execution? id).map fun x => r.spoken id x.path).toList := by
  change (v.spoken ++ ((v.execution? id).map fun x => r.spoken id x.path).toList).filter _ = _
  rw [List.filter_append]
  congr 1
  cases v.execution? id <;> simp [Remark.spoken]

theorem heard_say_of_ne (r : Remark) (other : k ≠ id) :
    (v.say id r).spoken.filter (·.execution == k) = v.spoken.filter (·.execution == k) := by
  change (v.spoken ++ ((v.execution? id).map fun x => r.spoken id x.path).toList).filter _ = _
  rw [List.filter_append]
  cases v.execution? id <;> simp [Remark.spoken, Ne.symm other]

theorem share_say (r : Remark) : (v.say id r).share picked id = (v.share picked id).say id r := by
  have told : (v.alter id (·.tell r)).share picked id = (v.share picked id).alter (·.tell r) :=
    share_alter fun _ => rfl
  have rest : (v.say id r).share picked id = { (v.alter id (·.tell r)).share picked id with
      spoken := (v.say id r).spoken.filter (·.execution == id) } := rfl
  rw [rest, told, heard_say, Share.say]
  simp only [share, Option.map_map]
  rfl

theorem share_say_of_ne (r : Remark) (other : k ≠ id) : (v.say id r).share picked k = v.share picked k :=
  share_congr [] [] (by simp [aspect, other]) (heard_say_of_ne r other) rfl rfl

/-! Delays. -/

/-- The marker that a timer of a live execution was set for is one of its own. -/
theorem marked_of_living (living : (v.aspect busy picked id).Living x) {t : Timer}
    (there : t ∈ v.clock.timers.filter (·.execution == id) ++ picked.filter (·.execution == id)) :
    ∃ m ∈ v.markers.filter (·.execution == id), m.id = t.marker := by
  obtain ⟨m, own, same⟩ := List.mem_map.1 (living.markers.mem_iff.2
    (List.mem_map_of_mem (f := fun t : Timer => (t.marker, t.node)) there))
  exact ⟨m, own, congrArg Prod.fst same⟩

/-- The next marker stands behind all others. -/
theorem place_nextMarker (v : Scene) (id : String) :
    v.place id v.nextMarker = (v.markers.filter (·.execution == id)).length :=
  List.countP_eq_length.2 fun _ there => decide_eq_true (lt_nextMarker (List.mem_filter.1 there).1)

theorem place_mark (node : String) (resumeAt : Instant) {n : Nat} (old : n ≤ v.nextMarker) :
    (v.mark id node resumeAt).place id n = v.place id n := by
  unfold place mark
  rw [List.filter_append, List.countP_append]
  cases v.execution? id with
  | none => rfl
  | some x => simpa using old

theorem share_mark (living : (v.aspect busy picked id).Living x) (node : String) (resumeAt : Instant) :
    (v.mark id node resumeAt).share picked id = (v.share picked id).save node resumeAt := by
  have known : v.execution? id = some x := living.known
  have old (t) (there : t ∈ v.clock.timers.filter (·.execution == id) ++ picked.filter (·.execution == id)) :
      (v.mark id node resumeAt).delay id t = v.delay id t := by
    obtain ⟨m, own, number⟩ := marked_of_living living there
    unfold delay
    rw [place_mark node resumeAt (number ▸ Nat.le_of_lt (lt_nextMarker (List.mem_filter.1 own).1))]
  have pending : (v.clock.timers.filter (·.execution == id)).map ((v.mark id node resumeAt).delay id) =
      (v.clock.timers.filter (·.execution == id)).map (v.delay id) :=
    List.map_congr_left fun t there => old t (List.mem_append_left _ there)
  have due : (picked.filter (·.execution == id)).map ((v.mark id node resumeAt).delay id) =
      (picked.filter (·.execution == id)).map (v.delay id) :=
    List.map_congr_left fun t there => old t (List.mem_append_right _ there)
  have saved : (v.mark id node resumeAt).markers.filter (·.execution == id) =
      v.markers.filter (·.execution == id) ++ [⟨v.nextMarker, id, node, resumeAt, x.snapshot.stored⟩] := by
    simp [mark, known]
  unfold share
  rw [saved]
  simp only [frame_mark, pending, due, Share.save, known]
  simp only [List.map_append, List.map_cons, List.map_nil, Option.map_some, Option.toList_some]
  rfl

theorem share_arm (node : String) (seconds : Float) (marker : Nat) :
    (v.arm id node seconds marker).share picked id =
      (v.share picked id).arm node seconds (v.place id marker) := by
  have timers : (v.arm id node seconds marker).clock.timers.filter (·.execution == id) =
      v.clock.timers.filter (·.execution == id) ++
        [⟨v.clock.nextTimer, v.clock.now + seconds, id, node, marker⟩] := by
    simp [arm, Clock.schedule]
  have delays : (v.arm id node seconds marker).delay id = v.delay id := rfl
  unfold share
  rw [timers, delays]
  simp only [execution?_arm, if_true, frame_arm, Option.map_map, Share.arm, Share.alter, List.map_append,
    List.map_cons, List.map_nil]
  rfl

theorem share_suspend (living : (v.aspect busy picked id).Living x) (node : String) (seconds : Float)
    (resumeAt : Instant) : (v.suspend id node seconds resumeAt).share picked id =
      (v.share picked id).suspend id node seconds resumeAt := by
  have last : ((v.mark id node resumeAt).say id (.delaying node seconds)).place id v.nextMarker =
      (v.share picked id).saved.length := by
    have told : ((v.mark id node resumeAt).say id (.delaying node seconds)).place id v.nextMarker =
        (v.mark id node resumeAt).place id v.nextMarker := rfl
    rw [told, place_mark node resumeAt (Nat.le_refl _), place_nextMarker]
    simp [share]
  rw [suspend, share_arm, share_say, share_mark living, last]
  rfl

theorem aspect_suspend_of_ne (other : k ≠ id) (node : String) (seconds : Float) (resumeAt : Instant) :
    (v.suspend id node seconds resumeAt).aspect busy picked k = v.aspect busy picked k := by
  have timers : (v.suspend id node seconds resumeAt).clock.timers.filter (·.execution == k) =
      v.clock.timers.filter (·.execution == k) := by
    simp [suspend, arm, Clock.schedule, Ne.symm other]
  have markers : (v.suspend id node seconds resumeAt).markers.filter (·.execution == k) =
      v.markers.filter (·.execution == k) := by
    change (v.markers ++ _).filter _ = _
    rw [List.filter_append]
    cases v.execution? id <;> simp [Ne.symm other]
  have execution : (v.suspend id node seconds resumeAt).execution? k = v.execution? k := by
    simp [suspend, other]
  unfold aspect
  rw [timers, markers, execution]
  rfl

theorem share_suspend_of_ne (other : k ≠ id) (node : String) (seconds : Float) (resumeAt : Instant) :
    (v.suspend id node seconds resumeAt).share picked k = v.share picked k :=
  share_congr [] _ (aspect_suspend_of_ne other node seconds resumeAt)
    (heard_say_of_ne (v := v.mark id node resumeAt) _ other) rfl rfl

/-! Ends. -/

section Closed

variable {s : ExecutionStatus} {e : Option String}

theorem Closed.share (closed : v.Closed w id y s e) (known : v.execution? id = some x)
    (same : y.untimed = f x.untimed) (now : w.clock.now = v.clock.now) (limit : w.limit = v.limit) :
    w.share picked id = { (v.share picked id).close f s e with
      spoken := w.spoken.filter (·.execution == id) } := by
  have timers : w.clock.timers.filter (·.execution == id) = [] := by
    simp [closed.clock, List.filter_filter]
  have markers : w.markers.filter (·.execution == id) = [] := by
    simp [closed.markers, List.filter_filter]
  have live : w.live.contains id = false := by simp [closed.live]
  have row : w.row? id = (v.row? id).map (·.close s e) := by simp [closed.row]
  have delays : w.delay id = fun t => (v.delay id t).unmarked := by
    unfold delay place
    rw [markers]
    rfl
  unfold Scene.share
  rw [closed.known, timers, markers, live, row, delays, now, limit, known]
  simp [Share.close, Share.alter, same]

theorem Closed.share_of_ne (closed : v.Closed w id y s e) (other : k ≠ id)
    (spoken : w.spoken.filter (·.execution == k) = v.spoken.filter (·.execution == k))
    (now : w.clock.now = v.clock.now) (limit : w.limit = v.limit) :
    w.share picked k = v.share picked k :=
  share_congr [] _ (closed.aspect_of_ne other [] picked) spoken now limit

end Closed

variable (account : v.Accounted busy picked)

include account

theorem share_fail (living : (v.aspect busy picked id).Living x) (error : String) :
    (v.fail id error).share picked id = (v.share picked id).fail error :=
  (account.closed_fail living error).share (f := (·.failed error)) living.known rfl rfl rfl

theorem share_fail_of_ne (living : (v.aspect busy picked id).Living x) (error : String) (other : k ≠ id) :
    (v.fail id error).share picked k = v.share picked k :=
  (account.closed_fail living error).share_of_ne other rfl rfl rfl

theorem share_cancel (living : (v.aspect busy picked id).Living x) :
    (v.cancel id).share picked id = (v.share picked id).cancel id := by
  have known : v.execution? id = some x := living.known
  rw [(account.closed_cancel living).share (f := Execution.cancelled) known rfl rfl rfl, Share.cancel]
  have spoken : (v.cancel id).spoken = ((v.halt id .cancelled cancelText).say id .cancelled).spoken := rfl
  rw [spoken, heard_say]
  simp [halt, known, share, Execution.untimed]

theorem share_cancel_of_ne (living : (v.aspect busy picked id).Living x) (other : k ≠ id) :
    (v.cancel id).share picked k = v.share picked k := by
  have spoken : (v.cancel id).spoken = ((v.halt id .cancelled cancelText).say id .cancelled).spoken := rfl
  refine (account.closed_cancel living).share_of_ne other ?_ rfl rfl
  rw [spoken, heard_say_of_ne _ other]
  rfl

theorem share_complete (attended : id ∈ busy) (known : v.execution? id = some x)
    (active : x.isActive = true) (last : x.branches - 1 ≤ 0) :
    (v.complete id).share picked id = (v.share picked id).complete id := by
  have closed := account.closed_complete attended known active last
  rw [closed.share (f := Execution.completed) known rfl rfl rfl, Share.complete]
  have spoken : (v.complete id).spoken = ((v.alter id fun x => { x with
      branches := x.branches - 1, status := .completed }).say id .completed).spoken := rfl
  rw [spoken, heard_say]
  simp [known, share, Execution.untimed]

theorem share_finish (attended : id ∈ busy) (known : v.execution? id = some x) :
    (v.finish id).share picked id = (v.share picked id).finish id := by
  have counted : (v.share picked id).execution? = some x.untimed := by simp [share, known]
  unfold Share.finish
  rw [counted, Option.any_some]
  change _ = if decide (x.branches - 1 ≤ 0) && x.isActive then _ else _
  cases last : decide (x.branches - 1 ≤ 0) && x.isActive with
  | false =>
    rw [finish_of_more known last]
    exact share_alter fun _ => rfl
  | true =>
    obtain ⟨few, active⟩ := Bool.and_eq_true_iff.1 last
    rw [finish_of_last known last]
    exact share_complete account attended known active (of_decide_eq_true few)

theorem share_finish_of_ne (attended : id ∈ busy) (known : v.execution? id = some x) (other : k ≠ id) :
    (v.finish id).share picked k = v.share picked k := by
  cases last : decide (x.branches - 1 ≤ 0) && x.isActive with
  | false =>
    rw [finish_of_more known last]
    exact share_alter_of_ne other
  | true =>
    obtain ⟨few, active⟩ := Bool.and_eq_true_iff.1 last
    have closed := account.closed_complete attended known active (of_decide_eq_true few)
    rw [finish_of_last known last]
    refine closed.share_of_ne other ?_ rfl rfl
    have spoken : (v.complete id).spoken = ((v.alter id fun x => { x with
        branches := x.branches - 1, status := .completed }).say id .completed).spoken := rfl
    rw [spoken, heard_say_of_ne _ other]
    rfl

omit account

/-! Timers that fire. -/

variable {t : Timer}

/-- What is about to fire of others is not seen. -/
theorem share_drop_of_ne (other : k ≠ t.execution) : v.share picked k = v.share (t :: picked) k := by
  unfold share
  rw [List.filter_cons_of_neg (by simpa using Ne.symm other)]

theorem share_unarm (t : Timer) : (v.unarm t).share picked k = v.share picked k := by
  by_cases own : k = t.execution
  · have same : (v.unarm t).share picked t.execution = (v.share picked t.execution).alter id :=
      share_alter fun _ => rfl
    rw [own, same, Share.alter, Option.map_id_fun, id_eq]
  · exact share_alter_of_ne own

/-- A timer takes the marker away that stands at its place. -/
theorem share_unmark (ordered : (v.markers.map (·.id)).Pairwise (· < ·)) {m : Store.MarkerRow}
    (there : m ∈ v.markers.filter (·.execution == id)) :
    (v.unmark m.id).share picked id = { v.share picked id with
      pending := (v.share picked id).pending.map (·.lower (v.place id m.id))
      due := (v.share picked id).due.map (·.lower (v.place id m.id))
      saved := (v.share picked id).saved.eraseIdx (v.place id m.id) } := by
  have own : ((v.markers.filter (·.execution == id)).map (·.id)).Pairwise (· < ·) :=
    ordered.sublist (List.filter_sublist.map _)
  have markers : (v.unmark m.id).markers.filter (·.execution == id) =
      (v.markers.filter (·.execution == id)).filter fun n => n.id != m.id := by
    rw [markers_unmark, List.filter_filter, List.filter_filter]
    exact List.filter_congr fun n _ => Bool.and_comm ..
  have lowered (t : Timer) : (v.unmark m.id).delay id t = (v.delay id t).lower (v.place id m.id) := by
    have fewer : (v.unmark m.id).place id t.marker = v.place id t.marker - if m.id < t.marker then 1 else 0 := by
      unfold place
      rw [markers]
      exact countP_filter_ne (own.imp Nat.ne_of_lt) there rfl
    have above : v.place id m.id < v.place id t.marker ↔ m.id < t.marker := countP_lt_iff there rfl
    unfold delay Delay.lower
    rw [fewer]
    simp only [above]
    split <;> rfl
  have erased : (v.unmark m.id).markers.filter (·.execution == id) =
      (v.markers.filter (·.execution == id)).eraseIdx (v.place id m.id) := by
    rw [markers]
    exact filter_ne_eq_eraseIdx (List.pairwise_map.1 own) there rfl
  unfold share
  rw [erased]
  simp only [frame_unmark, List.map_map, List.eraseIdx_map]
  rw [show (v.unmark m.id).delay id = Delay.lower (v.place id m.id) ∘ v.delay id from funext lowered]

theorem share_take (living : (v.aspect busy (t :: picked) t.execution).Living x)
    (ordered : (v.markers.map (·.id)).Pairwise (· < ·)) (r : Remark) :
    (((v.unarm t).say t.execution r).unmark t.marker).share picked t.execution =
      (v.share (t :: picked) t.execution).take t.execution r := by
  obtain ⟨m, own, number⟩ := marked_of_living living (t := t) (List.mem_append_right _
    (List.mem_filter.2 ⟨.head _, by simp⟩))
  have told : ((v.unarm t).say t.execution r).share picked t.execution =
      (v.share picked t.execution).say t.execution r := by rw [share_say, share_unarm]
  have place : ((v.unarm t).say t.execution r).place t.execution m.id = v.place t.execution t.marker := by
    rw [number]
    rfl
  have first : (v.share (t :: picked) t.execution).due =
      v.delay t.execution t :: (v.share picked t.execution).due := by simp [share]
  rw [← number, share_unmark (v := (v.unarm t).say t.execution r) ordered own, told, place]
  unfold Share.take
  rw [first]
  rfl

theorem share_take_of_ne (account : v.Accounted busy (t :: picked))
    (living : (v.aspect busy (t :: picked) t.execution).Living x) (r : Remark) (other : k ≠ t.execution) :
    (((v.unarm t).say t.execution r).unmark t.marker).share picked k = v.share (t :: picked) k :=
  share_congr _ _ (account.aspect_take_of_ne living r other) (heard_say_of_ne (v := v.unarm t) r other) rfl rfl

theorem share_past (known : v.execution? t.execution = some x) (ended : x.isActive = false) :
    ((v.unarm t).finish t.execution).share picked t.execution =
      (v.share (t :: picked) t.execution).past t.execution := by
  have there : (v.unarm t).execution? t.execution =
      some { x with timers := Execution.dropTimer x.timers t.node t.id } := by simp [unarm, known]
  have more : (decide (x.branches - 1 ≤ 0) && x.isActive) = false := by rw [ended, Bool.and_false]
  have rest : { v.share (t :: picked) t.execution with due := (v.share (t :: picked) t.execution).due.tail } =
      v.share picked t.execution := by simp [share]
  have counted : (v.share picked t.execution).execution? = some x.untimed := by simp [share, known]
  rw [finish_of_more there more, share_alter (g := fun x => { x with branches := x.branches - 1 })
    fun _ => rfl, share_unarm, Share.past, rest, Share.finish, counted, Option.any_some]
  exact (if_neg (Bool.eq_false_iff.1 more)).symm

theorem share_past_of_ne (known : v.execution? t.execution = some x) (ended : x.isActive = false)
    (other : k ≠ t.execution) :
    ((v.unarm t).finish t.execution).share picked k = v.share (t :: picked) k := by
  have there : (v.unarm t).execution? t.execution =
      some { x with timers := Execution.dropTimer x.timers t.node t.id } := by simp [unarm, known]
  have more : (decide (x.branches - 1 ≤ 0) && x.isActive) = false := by rw [ended, Bool.and_false]
  rw [finish_of_more there more, share_alter_of_ne other, share_unarm, share_drop_of_ne other]

/-- The clock moves for each execution alike. -/
theorem share_shift (now : Float) (k : String) :
    (v.shift now).share (v.due now) k = (v.share [] k).shift now := by
  have timers : (v.shift now).clock.timers.filter (·.execution == k) =
      (v.clock.timers.filter (·.execution == k)).filter fun t => !decide (t.due ≤ now) := by
    rw [List.filter_comm]
    exact congrArg (List.filter _) (Clock.timers_moveTo ..)
  have due : (v.due now).filter (·.execution == k) =
      sortBy (fun a b : Timer => decide (a.due ≤ b.due))
        ((v.clock.timers.filter (·.execution == k)).filter fun t => decide (t.due ≤ now)) := by
    have sorted : v.due now = sortBy (fun a b : Timer => decide (a.due ≤ b.due))
        (v.clock.timers.filter fun t => decide (t.due ≤ now)) := by
      unfold Scene.due Clock.moveTo
      rw [List.partition_eq_filter_filter]
    rw [sorted, List.filter_comm]
    refine filter_sortBy (fun t : Timer => Clock.rank t.due) (fun a there b present => ?_) _
    have early := of_decide_eq_true (List.mem_filter.1 there).2
    have early' := of_decide_eq_true (List.mem_filter.1 present).2
    rw [decide_eq_true_eq]
    exact Clock.le_iff_rank early early'
  have delays : (v.shift now).delay k = v.delay k := rfl
  have renamed (ts : List Timer) : (sortBy (fun a b : Timer => decide (a.due ≤ b.due)) ts).map (v.delay k) =
      sortBy (fun d e : Delay => decide (d.due ≤ e.due)) (ts.map (v.delay k)) :=
    map_sortBy fun _ _ _ _ => rfl
  unfold share Share.shift
  rw [timers, due, delays, renamed, List.filter_map, List.filter_map]
  rfl

/-! Beginnings and restarts. -/

theorem share_enrol (x : Execution) (row : Store.ExecutionRow) (next : Nat) :
    (v.enrol x row next).share picked x.id = (v.share picked x.id).enrol x row := by
  simp [share, enrol, Share.enrol, Share.revive, delay, place]

theorem share_enrol_of_ne (x : Execution) (row : Store.ExecutionRow) (next : Nat) (other : k ≠ x.id) :
    (v.enrol x row next).share picked k = v.share picked k :=
  share_congr [] [] (by simp [aspect, enrol, other]) rfl rfl rfl

theorem share_restarted (now : Float) (k : String) :
    (v.restarted now).share [] k = (v.share [] k).restarted now := by
  obtain ⟨part, limit, -⟩ := v.frame_untimeAll v.live
  have untimed : ((v.restarted now).execution? k).map Execution.untimed =
      (v.execution? k).map Execution.untimed := by
    change ((v.live.foldl untime v).execution? k).map Execution.untimed = _
    rw [execution?_untimeAll]
    split
    · rw [Option.map_map]
      rfl
    · rfl
  have part : (v.restarted now).toPart = v.toPart := part
  have limit : (v.restarted now).limit = v.limit := limit
  unfold share delay place Share.restarted
  rw [untimed, part, limit]
  rfl

theorem share_revive (x : Execution) :
    (v.revive x).share picked x.id = (v.share picked x.id).revive x := by
  simp [share, revive, Share.revive, delay, place]

theorem share_revive_of_ne (x : Execution) (other : k ≠ x.id) :
    (v.revive x).share picked k = v.share picked k :=
  share_congr [] [] (by simp [aspect, revive, other]) rfl rfl rfl

theorem share_rearm (now : Instant) {m : Store.Marker} (own : m.execution = id) :
    (v.rearm now m).share picked id =
      (v.share picked id).rearm id (m.node, Engine.remaining now m, v.place id m.id) := by
  have place : (v.say id (.restored m.node (Engine.remaining now m))).place id m.id = v.place id m.id := rfl
  rw [Scene.rearm, own, share_arm, share_say, place]
  rfl

theorem share_rearm_of_ne (now : Instant) {m : Store.Marker} (own : m.execution = id) (other : k ≠ id) :
    (v.rearm now m).share picked k = v.share picked k := by
  subst own
  have timers : (v.rearm now m).clock.timers.filter (·.execution == k) =
      v.clock.timers.filter (·.execution == k) := by
    simp [Scene.rearm, arm, Clock.schedule, Ne.symm other]
  have execution : (v.rearm now m).execution? k = v.execution? k := by
    rw [execution?_rearm, if_neg other]
  refine share_congr [] [] ?_ (heard_say_of_ne _ other) rfl rfl
  unfold aspect
  rw [timers, execution]
  rfl

theorem share_rearmAll (now : Instant) {ms : List Store.Marker} (own : ∀ m ∈ ms, m.execution = id) :
    (ms.foldl (Scene.rearm now) v).share picked id =
      (ms.map fun m => (m.node, Engine.remaining now m, v.place id m.id)).foldl (Share.rearm id)
        (v.share picked id) := by
  induction ms generalizing v with
  | nil => rfl
  | cons m rest ih =>
    rw [List.foldl_cons, ih fun n later => own n (.tail _ later), share_rearm now (own m (.head _))]
    rfl

theorem share_rearmAll_of_ne (now : Instant) {ms : List Store.Marker} (own : ∀ m ∈ ms, m.execution = id)
    (other : k ≠ id) : (ms.foldl (Scene.rearm now) v).share picked k = v.share picked k := by
  induction ms generalizing v with
  | nil => rfl
  | cons m rest ih =>
    rw [List.foldl_cons, ih fun n later => own n (.tail _ later),
      share_rearm_of_ne now (own m (.head _)) other]

theorem branches_rearmAll (now : Instant) {ms : List Store.Marker} (own : ∀ m ∈ ms, m.execution = id)
    (known : v.execution? id = some x) : ∃ y, (ms.foldl (Scene.rearm now) v).execution? id = some y ∧
      y.branches = x.branches + ms.length := by
  induction ms generalizing v x with
  | nil => exact ⟨x, known, (Int.add_zero _).symm⟩
  | cons m rest ih =>
    obtain ⟨y, there, more⟩ := ih (v := v.rearm now m) (fun n later => own n (.tail _ later)) (by
      rw [execution?_rearm, if_pos (own m (.head _)).symm, known]
      rfl)
    refine ⟨y, there, more.trans ?_⟩
    change x.branches + 1 + (rest.length : Int) = x.branches + (rest.length + 1 : Nat)
    omega

/-- An execution that is taken up again waits for at least one delay, so that it is not over yet. -/
theorem finish_resumed {now : Instant} {ms : List Store.Marker} (own : ∀ m ∈ ms, m.execution = id)
    (anew : x.Anew id) (some : ms ≠ []) :
    v.resumed now x ms = (ms.foldl (Scene.rearm now) (v.revive x)).alter id fun x =>
      { x with branches := x.branches - 1 } := by
  obtain ⟨y, there, more⟩ := branches_rearmAll now own (v := v.revive x) (x := x) (by
    simp [Scene.revive, anew.named])
  have many : 0 < ms.length := List.length_pos_iff.2 some
  have waits : ¬ y.branches - 1 ≤ 0 := by
    rw [more, anew.branches]
    omega
  rw [Scene.resumed, anew.named]
  exact finish_of_more there (by rw [decide_eq_false waits]; rfl)

theorem share_resumed {now : Instant} {ms : List Store.Marker} (own : ∀ m ∈ ms, m.execution = id)
    (anew : x.Anew id) (some : ms ≠ []) :
    (v.resumed now x ms).share picked id =
      ((ms.map fun m => (m.node, Engine.remaining now m, v.place id m.id)).foldl (Share.rearm id)
        ((v.share picked id).revive x)).alter fun x => { x with branches := x.branches - 1 } := by
  have revived : (v.revive x).share picked id = (v.share picked id).revive x := anew.named ▸ share_revive x
  rw [finish_resumed own anew some, share_alter (g := fun x => { x with branches := x.branches - 1 })
    fun _ => rfl, share_rearmAll now own, revived]
  rfl

theorem share_resumed_of_ne {now : Instant} {ms : List Store.Marker} (own : ∀ m ∈ ms, m.execution = id)
    (anew : x.Anew id) (some : ms ≠ []) (other : k ≠ id) :
    (v.resumed now x ms).share picked k = v.share picked k := by
  rw [finish_resumed own anew some, share_alter_of_ne other, share_rearmAll_of_ne now own other,
    share_revive_of_ne x (anew.named ▸ other)]

end Scene

end Runbook
