import Runbook.Proofs.Course.Growth
import Runbook.Proofs.Course.Tale

/-!
What executions visit. In a workflow without loops nothing that was visited is forgotten, so that the
nodes visited are reached from the trigger over the connections that their kind follows. In the other
direction, a node that was visited leads on at once, unless it is a delay that is waited for; and a
completed execution waits for none. So it has visited all that can be reached, and nothing else.
-/
namespace Runbook

open Engine (truthName)

theorem Workflow.not_loop {w : Workflow} {id : String} {n : Node} {iterations : Option Nat}
    (loopless : ∀ n ∈ w.nodes, n.isLoop = false) (found : w.node? id = some n) :
    n.kind ≠ .loop iterations := by
  intro kind
  have ordinary := loopless n (List.mem_of_find?_eq_some found)
  simp [Node.isLoop, kind] at ordinary

namespace Execution

/-- Its log tells that the condition at a node was evaluated to this result. -/
def Judged (x : Execution) (node : String) (result : Bool) : Prop :=
  ∃ n c path, x.workflow.node? node = some n ∧ n.kind = .condition c ∧
    (Remark.evaluated node c result).entry path ∈ x.logs

/-- Its log tells that there is no node under an id. -/
def Missed (x : Execution) (node : String) : Prop := ∃ path, (Remark.missing node).entry path ∈ x.logs

/-- The ids that are reached from the first trigger: conditions lead on over the first connection that
is labelled with their result, and other nodes over all connections. -/
inductive Reached (x : Execution) : String → Prop where
  | trigger {n : Node} (found : x.workflow.trigger? = some n) : Reached x n.id
  | next {node : String} {n : Node} {way : Connection} (reached : Reached x node)
      (found : x.workflow.node? node = some n) (ordinary : ∀ c, n.kind ≠ .condition c)
      (leaves : way ∈ x.workflow.outgoing node) : Reached x way.target
  | chosen {node : String} {result : Bool} {way : Connection} (reached : Reached x node)
      (judged : x.Judged node result)
      (leaves : x.workflow.connection? node (truthName result) = some way) : Reached x way.target

/-- What a node leads to has been visited. -/
inductive Closed (x : Execution) (node : String) : Prop where
  | missing (absent : x.workflow.node? node = none) (told : x.Missed node)
  | condition {result : Bool} (judged : x.Judged node result)
      (visited : ∀ way, x.workflow.connection? node (truthName result) = some way →
        way.target ∈ x.visited)
  | other {n : Node} (found : x.workflow.node? node = some n) (ordinary : ∀ c, n.kind ≠ .condition c)
      (visited : ∀ way ∈ x.workflow.outgoing node, way.target ∈ x.visited)

/-- A node has led on, or is a delay that is waited for. -/
def Settled (x : Execution) (node : String) : Prop :=
  (∃ timer, (node, timer) ∈ x.pending) ∨ x.Closed node

variable {x y : Execution} {node : String} {result : Bool} {r : Remark}

theorem Judged.mono (judged : x.Judged node result) (grows : x.Grows y) : y.Judged node result := by
  obtain ⟨n, c, path, found, kind, told⟩ := judged
  exact ⟨n, c, path, grows.workflow ▸ found, kind, grows.logs.subset told⟩

theorem Reached.mono (reached : x.Reached node) (grows : x.Grows y) : y.Reached node := by
  have same := grows.workflow
  induction reached with
  | trigger found => exact .trigger (same ▸ found)
  | next _ found ordinary leaves ih => exact .next ih (same ▸ found) ordinary (same ▸ leaves)
  | chosen _ judged leaves ih => exact .chosen ih (judged.mono grows) (same ▸ leaves)

theorem Closed.mono (closed : x.Closed node) (grows : x.Grows y) : y.Closed node := by
  have same := grows.workflow
  cases closed with
  | missing absent told =>
    obtain ⟨path, told⟩ := told
    exact .missing (same ▸ absent) ⟨path, grows.logs.subset told⟩
  | condition judged visited =>
    exact .condition (judged.mono grows) fun way leaves => grows.visited _ (visited way (same ▸ leaves))
  | other found ordinary visited =>
    exact .other (same ▸ found) ordinary fun way leaves => grows.visited _ (visited way (same ▸ leaves))

theorem Settled.mono (settled : x.Settled node) (grows : x.Grows y)
    (pending : ∀ delay ∈ x.pending, delay ∈ y.pending) : y.Settled node :=
  settled.imp (fun ⟨timer, there⟩ => ⟨timer, pending _ there⟩) fun closed => closed.mono grows

theorem truthName_inj {s : String} {a b : Bool} (same : s ++ truthName a = s ++ truthName b) : a = b := by
  have words := congrArg String.toList same
  rw [String.toList_append, String.toList_append, List.append_cancel_left_eq] at words
  cases a <;> cases b <;> simp [truthName] at words ⊢

theorem message_evaluated (c : Condition) : (Remark.evaluated node c result).message =
    "Condition evaluated: " ++ c.field ++ " " ++ c.operator ++ " " ++ c.value.display ++ " = " ++
      truthName result := rfl

/-- Entries that are alike tell the same result. -/
theorem result_inj {c : Condition} {path path' : List String} {result' : Bool}
    (alike : (Remark.evaluated node c result').entry path' = (Remark.evaluated node c result).entry path) :
    result' = result := by
  have texts := congrArg LogEntry.message alike
  rw [Remark.message_entry, Remark.message_entry, message_evaluated, message_evaluated] at texts
  exact truthName_inj texts

/-- Entries that are alike are about the same node. -/
theorem node_inj {r t : Remark} {path path' : List String} (named : r.node ≠ "") (named' : t.node ≠ "")
    (alike : r.entry path = t.entry path') : r.node = t.node := by
  have places : r.place path = t.place path' := congrArg LogEntry.node alike
  rwa [Remark.place, Remark.place, if_neg named, if_neg named'] at places

/-- Remarks of other kinds judge no condition. -/
theorem judged_tell (sound : x.workflow.Sound) (other : r.head ≠ "Condition evaluated: ")
    (idle : ∀ place text, r = .summary place text →
      ∃ n actionType, x.workflow.node? place = some n ∧ n.kind = .action actionType)
    (judged : (x.tell r).Judged node result) : x.Judged node result := by
  obtain ⟨n, c, path, found, kind, told⟩ := judged
  rcases List.mem_append.1 told with before | now
  · exact ⟨n, c, path, found, kind, before⟩
  have alike := List.mem_singleton.1 now
  have tells : (r.entry x.path).tells "Condition evaluated: " = true :=
    alike ▸ Remark.tells_head (.evaluated node c result) path
  by_cases wordy : r.head = ""
  · obtain ⟨place, text, rfl⟩ := Remark.summary_of_head wordy
    obtain ⟨m, actionType, there, acts⟩ := idle place text rfl
    have places : node = place :=
      node_inj (r := .evaluated node c result) (t := .summary place text)
        (sound.ne_of_node? found) (sound.ne_of_node? there) alike
    obtain rfl : n = m := Option.some.inj (found.symm.trans (places ▸ there))
    cases kind.symm.trans acts
  · rw [Remark.tells_entry (by simp [Remark.distinctive]) wordy, decide_eq_false other] at tells
    cases tells

/-- What was visited was reached, on the path and from delays alike, and each condition was evaluated
once at most, after it was visited. -/
structure Traced (x : Execution) : Prop where
  reached : ∀ node ∈ x.visited, x.Reached node
  path : ∀ node, node ∈ x.path ↔ node ∈ x.visited
  delays : ∀ delay ∈ x.pending, delay.1 ∈ x.visited ∧
    ∃ n amount unit, x.workflow.node? delay.1 = some n ∧ n.kind = .delay amount unit
  judged : ∀ node result, x.Judged node result → node ∈ x.visited
  once : ∀ node result result', x.Judged node result → x.Judged node result' → result' = result

/-- Steps that visit nothing, evaluate nothing and wait for no more delays. -/
theorem Traced.of_eq (traced : x.Traced) (grows : x.Grows y) (visited : y.visited = x.visited)
    (path : y.path = x.path) (pending : ∀ delay ∈ y.pending, delay ∈ x.pending)
    (judged : ∀ node result, y.Judged node result → x.Judged node result) : y.Traced where
  reached node seen := (traced.reached node (visited ▸ seen)).mono grows
  path := by rw [visited, path]; exact traced.path
  delays delay there := by
    rw [visited, grows.workflow]
    exact traced.delays delay (pending delay there)
  judged node result told := by rw [visited]; exact traced.judged node result (judged node result told)
  once node result result' told told' :=
    traced.once node result result' (judged _ _ told) (judged _ _ told')

theorem Traced.tell (traced : x.Traced) (sound : x.workflow.Sound) (plain : r.Plain x.workflow)
    (other : r.head ≠ "Condition evaluated: ") : (x.tell r).Traced := by
  refine traced.of_eq (grows_tell x r) rfl rfl (fun _ there => there) fun node result =>
    judged_tell sound other ?_
  rintro place text rfl
  exact plain

theorem Traced.failed (traced : x.Traced) (error : String) : (x.failed error).Traced :=
  traced.of_eq (grows_failed x error) rfl rfl (fun _ there => by cases there) fun _ _ told => told

theorem Traced.cancelled (traced : x.Traced) (sound : x.workflow.Sound) : x.cancelled.Traced :=
  traced.of_eq (grows_cancelled x) rfl rfl (fun _ there => by cases there) fun _ _ =>
    judged_tell (r := .cancelled) sound (by simp [Remark.head]) nofun

theorem Traced.acts (traced : x.Traced) (sound : x.workflow.Sound) (acts : x.Acts y) : y.Traced := by
  obtain ⟨vars, aside⟩ := acts
  have same : Traced { x with vars } := traced.of_eq ⟨rfl, List.prefix_rfl, fun _ seen => seen, fun running => running⟩
    rfl rfl (fun _ there => there) fun _ _ told => told
  rcases aside with rfl | ⟨-, rfl⟩
  · exact same
  · exact same.cancelled sound

theorem Traced.finished (traced : x.Traced) (sound : x.workflow.Sound) : x.finished.Traced := by
  have grows := grows_finished x
  unfold Execution.finished at grows ⊢
  split at grows <;> rename_i last
  · rw [if_pos last]
    exact traced.of_eq grows rfl rfl (fun _ there => there) fun _ _ =>
      judged_tell (r := .completed) sound (by simp [Remark.head]) nofun
  · rw [if_neg last]
    exact traced.of_eq grows rfl rfl (fun _ there => there) fun _ _ told => told

theorem Traced.enter (traced : x.Traced) (reached : x.Reached node) : (x.enter node).Traced where
  reached other seen := by
    rcases mem_visited_enter.1 seen with rfl | before
    · exact reached.mono (grows_enter x other)
    · exact (traced.reached other before).mono (grows_enter x node)
  path other := by
    rw [path_enter, List.mem_append, List.mem_singleton, mem_visited_enter, traced.path, or_comm]
  delays delay there :=
    have ⟨seen, found⟩ := traced.delays delay there
    ⟨mem_visited_enter.2 (.inr seen), found⟩
  judged other result told := mem_visited_enter.2 (.inr (traced.judged other result told))
  once := traced.once

/-- A condition that was not evaluated before is evaluated. -/
theorem Traced.judge {n : Node} {c : Condition} (traced : x.Traced) (sound : x.workflow.Sound) (kind : n.kind = .condition c)
    (found : x.workflow.node? n.id = some n) (seen : n.id ∈ x.visited)
    (new : ∀ result, ¬x.Judged n.id result) (result : Bool) :
    (x.tell (.evaluated n.id c result)).Traced := by
  have grows := grows_tell x (.evaluated n.id c result)
  have told {node : String} {b : Bool} (judged : (x.tell (.evaluated n.id c result)).Judged node b) :
      x.Judged node b ∨ node = n.id ∧ b = result := by
    obtain ⟨m, d, path, there, kind', told⟩ := judged
    rcases List.mem_append.1 told with before | now
    · exact .inl ⟨m, d, path, there, kind', before⟩
    · have alike := List.mem_singleton.1 now
      obtain rfl : node = n.id := node_inj (r := .evaluated node d b) (t := .evaluated n.id c result)
        (sound.ne_of_node? there) (sound.ne_of_node? found) alike
      obtain rfl : m = n := Option.some.inj (there.symm.trans found)
      obtain rfl : d = c := NodeKind.condition.inj (kind'.symm.trans kind)
      exact .inr ⟨rfl, result_inj alike⟩
  refine ⟨fun node seen => (traced.reached node seen).mono grows, traced.path, traced.delays,
    fun node b judged => ?_, fun node b b' first second => ?_⟩
  · rcases told judged with before | ⟨rfl, -⟩
    · exact traced.judged node b before
    · exact seen
  · rcases told first with before | ⟨rfl, rfl⟩ <;> rcases told second with before' | ⟨same, rfl⟩
    · exact traced.once node b b' before before'
    · exact absurd (same ▸ before) (new b)
    · exact absurd before' (new b')
    · rfl

theorem Traced.waiting {n : Node} {amount : Value} {unit : String} (traced : x.Traced)
    (sound : x.workflow.Sound) (kind : n.kind = .delay amount unit)
    (found : x.workflow.node? n.id = some n) (seen : n.id ∈ x.visited) (seconds : Float) (timer : Nat) :
    (x.waiting n.id seconds timer).Traced := by
  have told : ∀ node result, (x.waiting n.id seconds timer).Judged node result → x.Judged node result :=
    fun _ _ => judged_tell (r := .delaying n.id seconds) sound (by simp [Remark.head]) nofun
  have grows : x.Grows (x.waiting n.id seconds timer) :=
    ⟨rfl, List.prefix_append _ _, fun _ seen => seen, fun running => running⟩
  refine ⟨fun node seen => (traced.reached node seen).mono grows, traced.path, fun delay there => ?_,
    fun node b judged => traced.judged node b (told node b judged),
    fun node b b' first second => traced.once node b b' (told _ _ first) (told _ _ second)⟩
  have more : (x.waiting n.id seconds timer).pending.Perm ((n.id, timer) :: x.pending) :=
    Scene.pending_addTimer x n.id timer
  rcases List.mem_cons.1 (more.mem_iff.1 there) with rfl | before
  · exact ⟨seen, n, amount, unit, found, kind⟩
  · exact traced.delays delay before

theorem Traced.fired (traced : x.Traced) (node : String) (timer : Nat) : (x.fired node timer).Traced := by
  refine traced.of_eq ⟨rfl, List.prefix_rfl, fun _ seen => seen, fun running => running⟩ rfl rfl
    (fun delay there => ?_) fun _ _ told => told
  exact (List.mem_filter.1 (pending_fired x node timer ▸ there)).1

theorem Traced.resumed (traced : x.Traced) (sound : x.workflow.Sound) (node : String) (timer : Nat) :
    ((x.fired node timer).tell (.resumed node)).Traced :=
  (traced.fired node timer).of_eq (grows_tell _ _) rfl rfl (fun _ there => there) fun _ _ =>
    judged_tell (x := x.fired node timer) (r := .resumed node) sound (by simp [Remark.head]) nofun

end Execution

/-- What a part of a walk is about was reached; it begins no iterations. -/
def Task.Ready (x : Execution) : Task → Prop
  | .enter target => x.Reached target
  | .follow cs => ∀ c ∈ cs, x.Reached c.target
  | .node n _ => n.id ∈ x.visited ∧ x.workflow.node? n.id = some n ∧
      ∀ result, ¬x.Judged n.id result
  | .iterate _ _ _ _ => False

namespace Execution

variable {x y : Execution} {node : String}

/-- What a node leads to is reached. -/
theorem Traced.ways {n : Node} (traced : x.Traced) (seen : node ∈ x.visited)
    (found : x.workflow.node? node = some n) (ordinary : ∀ c, n.kind ≠ .condition c) :
    (Task.follow (x.workflow.outgoing node)).Ready x :=
  fun _ leaves => .next (traced.reached node seen) found ordinary leaves

/-- A node that is entered is ready for what it is for. -/
theorem Traced.processing {n : Node} (traced : x.Traced) (sound : x.workflow.Sound)
    (loopless : ∀ n ∈ x.workflow.nodes, n.isLoop = false) (reached : x.Reached node)
    (admitted : x.admits node = true) (found : x.workflow.node? node = some n) :
    ((x.enter node).tell (.processing node n)).Traced ∧
      (Task.node n none).Ready ((x.enter node).tell (.processing node n)) := by
  have told := (traced.enter reached).tell (r := .processing node n) sound trivial (by simp [Remark.head])
  have name := Workflow.id_of_node? found
  have new : node ∉ x.visited := by
    have ordinary : x.hasLoopAt node = false := by
      simp [hasLoopAt, found, loopless n (List.mem_of_find?_eq_some found)]
    simpa [admits, ordinary] using admitted
  refine ⟨told, ?_, Workflow.node?_self found, fun result judged => ?_⟩
  · rw [name]
    exact mem_visited_enter.2 (.inl rfl)
  · rw [name] at judged
    have other (place text : String) (same : Remark.processing node n = .summary place text) :
        ∃ n actionType, (x.enter node).workflow.node? place = some n ∧ n.kind = .action actionType := by
      cases same
    exact new (traced.judged node result
      (judged_tell (x := x.enter node) sound (by simp [Remark.head]) other judged))

end Execution

open Execution in
/-- A walk in a workflow without loops visits what is reached. -/
theorem Walks.traced {l : Option Int} {t : Task} {x y : Execution} (walk : Walks l t x y)
    (sound : x.workflow.Sound) (loopless : ∀ n ∈ x.workflow.nodes, n.isLoop = false)
    (ready : t.Ready x) (traced : x.Traced) : y.Traced := by
  induction walk with
  | idle | back | none | stopped | misjudged | misdelayed => exact traced
  | given | exhausted | limited | completed | iterated => exact ready.elim
  | again => exact traced.tell sound trivial (by simp [Remark.head])
  | missing => exact (traced.enter ready).tell sound trivial (by simp [Remark.head])
  | handled active admitted found work ih | lost active admitted found work past ih =>
    have entered := traced.processing sound loopless ready admitted found
    exact ih sound loopless entered.2 entered.1
  | broken active admitted found work running ih =>
    have entered := traced.processing sound loopless ready admitted found
    have walked := ih sound loopless entered.2 entered.1
    have sound := work.workflow ▸ sound
    exact (walked.tell (r := .broken _ _) sound trivial (by simp [Remark.head])).failed _
  | next active first others ih ihOthers =>
    have entered := ih sound loopless (ready _ (List.mem_cons_self ..)) traced
    have same := first.workflow
    exact ihOthers (same ▸ sound) (same ▸ loopless)
      (fun c later => (ready c (List.mem_cons_of_mem _ later)).mono first.grows) entered
  | trigger active kind rest ih | junction active kind rest ih =>
    have ways := traced.ways ready.1 ready.2.1 (by simp [kind])
    exact ih sound loopless (fun c leaves => (ways c leaves).mono (grows_tell _ _))
      (traced.tell sound trivial (by simp [Remark.head]))
  | @judged x y n c result connection active kind value found rest ih =>
    have judged := traced.judge sound kind ready.2.1 ready.1 ready.2.2 result
    exact ih sound loopless (.chosen (judged.reached _ ready.1)
      ⟨_, _, _, ready.2.1, kind, List.mem_append_right _ (List.mem_singleton_self _)⟩ found) judged
  | unconnected active kind =>
    exact (traced.judge sound kind ready.2.1 ready.1 ready.2.2 _).tell sound trivial (by simp [Remark.head])
  | @action x y z n actionType text active kind work rest ih =>
    have ways := traced.ways ready.1 ready.2.1 (by simp [kind])
    have told := traced.tell (r := .executing n.id actionType) sound ⟨_, _, ready.2.1, kind⟩ (by simp [Remark.head])
    have acted := told.acts sound work
    have same := work.workflow
    have grown := ((grows_tell x _).trans work.grows).trans (grows_tell y (.summary n.id text))
    exact ih (same ▸ sound) (same ▸ loopless) (fun c leaves => (ways c leaves).mono grown)
      (acted.tell (r := .summary _ _) (same ▸ sound) ⟨_, _, same ▸ ready.2.1, kind⟩ (by simp [Remark.head]))
  | misacted active kind work =>
    exact (traced.tell (r := .executing _ _) sound ⟨_, _, ready.2.1, kind⟩
      (by simp [Remark.head])).acts sound work
  | delay active kind => exact traced.waiting sound kind ready.2.1 ready.1 _ _
  | bodiless active kind | exit active kind | leave active kind | misiterated active kind =>
    exact (Workflow.not_loop loopless ready.2.1 kind).elim

/-- What a part of a walk leads to has been visited, or is waited for. -/
def Task.Done (y : Execution) : Task → Prop
  | .enter target => target ∈ y.visited
  | .follow cs => ∀ c ∈ cs, c.target ∈ y.visited
  | .node n none => y.Settled n.id
  | _ => True

namespace Execution

variable {x y z : Execution}

/-- All that was visited in between has led on. -/
def Settles (x y : Execution) : Prop := ∀ node ∈ y.visited, node ∈ x.visited ∨ y.Settled node

theorem Settles.of_eq (visited : y.visited = x.visited) : x.Settles y :=
  fun _ seen => .inl (visited ▸ seen)

theorem Settles.trans (first : x.Settles y) (second : y.Settles z) (grows : y.Grows z)
    (waits : y.Waits z) : x.Settles z := by
  intro node seen
  rcases second node seen with before | settled
  · exact (first node before).imp_right fun settled => settled.mono grows waits.pending
  · exact .inr settled

theorem Acts.visited (acts : x.Acts y) : y.visited = x.visited := by
  obtain ⟨vars, rfl | ⟨-, rfl⟩⟩ := acts <;> rfl

end Execution

open Execution in
/-- A walk that leaves its execution running in a workflow without loops has led on everywhere. -/
theorem Walks.settles {l : Option Int} {t : Task} {x y : Execution} (walk : Walks l t x y)
    (loopless : ∀ n ∈ x.workflow.nodes, n.isLoop = false) (fits : t.Fits x.workflow)
    (active : y.isActive = true) : x.Settles y ∧ t.Done y := by
  induction walk with
  | idle past | stopped past | given past | lost _ _ _ _ past =>
    rw [past] at active
    cases active
  | broken => cases active
  | again running ordinary seen => exact ⟨.of_eq rfl, seen⟩
  | back running loop =>
    obtain ⟨n, found, isLoop⟩ := (Option.any_eq_true ..).1 loop
    rw [loopless n (List.mem_of_find?_eq_some found)] at isLoop
    cases isLoop
  | @missing x node running admitted absent =>
    have seen : node ∈ (x.enter node).visited := mem_visited_enter.2 (.inl rfl)
    refine ⟨fun other there => ?_, seen⟩
    rcases mem_visited_enter.1 there with rfl | before
    · exact .inr (.inr (.missing absent ⟨_, List.mem_append_right _ (List.mem_singleton_self _)⟩))
    · exact .inl before
  | @handled x y node n running admitted found work ih =>
    obtain ⟨settles, settled⟩ := ih loopless (Workflow.node?_self found) active
    have name := Workflow.id_of_node? found
    refine ⟨fun other there => ?_, work.grows.visited _ (mem_visited_enter.2 (.inl rfl))⟩
    rcases settles other there with before | led
    · rcases mem_visited_enter.1 before with rfl | before
      · exact .inr (name ▸ settled)
      · exact .inl before
    · exact .inr led
  | none => exact ⟨.of_eq rfl, nofun⟩
  | next running first others ih ihOthers =>
    have same := first.workflow
    obtain ⟨settles, done⟩ := ih loopless (Workflow.target_mem_places (fits _ (List.mem_cons_self ..)))
      (others.grows.active active)
    obtain ⟨settles', done'⟩ := ihOthers (same ▸ loopless)
      (fun c later => same ▸ fits c (List.mem_cons_of_mem _ later)) active
    refine ⟨settles.trans settles' others.grows (others.waits active), fun c there => ?_⟩
    rcases List.mem_cons.1 there with rfl | later
    · exact others.grows.visited _ done
    · exact done' c later
  | trigger running kind rest ih | junction running kind rest ih =>
    obtain ⟨settles, done⟩ := ih loopless (fun c => Workflow.mem_connections_of_outgoing) active
    have same := rest.workflow
    exact ⟨settles, .inr (.other (same ▸ fits) (by simp [kind]) (same ▸ done))⟩
  | @judged x y n c result connection running kind value found rest ih =>
    obtain ⟨settles, done⟩ := ih loopless (Workflow.connection_mem_places found) active
    have same := rest.workflow
    have judged : (x.tell (.evaluated n.id c result)).Judged n.id result :=
      ⟨n, c, _, fits, kind, List.mem_append_right _ (List.mem_singleton_self _)⟩
    refine ⟨settles, .inr (.condition (judged.mono rest.grows) fun way leaves => ?_)⟩
    rw [same] at leaves
    obtain rfl : connection = way := Option.some.inj (found.symm.trans leaves)
    exact done
  | @unconnected x n c result running kind value absent =>
    have judged : (x.tell (.evaluated n.id c result)).Judged n.id result :=
      ⟨n, c, _, fits, kind, List.mem_append_right _ (List.mem_singleton_self _)⟩
    refine ⟨.of_eq rfl, .inr (.condition (judged.mono (grows_tell _ _)) fun way leaves => ?_)⟩
    cases absent.symm.trans leaves
  | action running kind work rest ih =>
    have acted := work.workflow
    have same := rest.workflow.trans acted
    obtain ⟨settles, done⟩ := ih (acted ▸ loopless)
      (fun c there => acted ▸ Workflow.mem_connections_of_outgoing there) active
    have seen := work.visited
    refine ⟨fun node there => (settles node there).imp_left fun before => ?_,
      .inr (.other (same ▸ fits) (by simp [kind]) (same ▸ done))⟩
    exact seen ▸ before
  | misjudged | misdelayed | exhausted | limited | completed => exact ⟨.of_eq rfl, trivial⟩
  | misacted _ _ work => exact ⟨.of_eq work.visited, trivial⟩
  | @delay x n amount unit seconds timer running kind length =>
    refine ⟨.of_eq rfl, .inl ⟨timer, ?_⟩⟩
    exact (Scene.pending_addTimer x n.id timer).mem_iff.2 (List.mem_cons_self ..)
  | bodiless _ kind | exit _ kind | leave _ kind | misiterated _ kind =>
    exact (Workflow.not_loop loopless fits kind).elim
  | iterated =>
    obtain ⟨⟨n, found, kind⟩, -⟩ := fits
    exact (Workflow.not_loop loopless found kind).elim

open Execution in
/-- In a workflow without loops an execution visits what is reached. -/
theorem Life.traced {l : Option Int} {x : Execution} (life : Life l x)
    (loopless : ∀ n ∈ x.workflow.nodes, n.isLoop = false) : x.Traced := by
  have opening_traced {w : Workflow} (sound : w.Sound) (id : String) (module item : Value)
      (triggerData vars : Dict) :
      ((opening id w module item triggerData vars).tell (.started w.name)).Traced := by
    refine Traced.tell (r := .started w.name) ?_ sound trivial (by simp [Remark.head])
    constructor <;> simp [opening, pending, Judged]
  induction life with
  | @started y id w module item triggerData vars trigger sound found work =>
    have same := work.workflow
    have begun := opening_traced sound id module item triggerData vars
    rw [workflow_finished, same] at loopless
    exact (work.traced sound loopless (.trigger found) begun).finished (same ▸ sound)
  | @stillborn id w module item triggerData vars reason sound why =>
    have begun := opening_traced sound id module item triggerData vars
    refine (begun.tell sound ?_ ?_).failed _ <;>
      rcases why with rfl | rfl <;> simp [Remark.Plain, Remark.head]
  | @continued x y node timer life active pending work ih =>
    have same := work.workflow
    rw [workflow_finished, same] at loopless
    have traced := ih loopless
    obtain ⟨seen, n, amount, unit, found, kind⟩ := traced.delays _ pending
    have ways := traced.ways seen found (by simp [kind])
    have resumed : ((x.fired node timer).tell (.resumed node)).Traced := traced.resumed life.sound node timer
    exact (work.traced life.sound loopless (fun c leaves => (ways c leaves).mono (grows_resumed ..))
      resumed).finished (same ▸ life.sound)
  | @stuck x node error timer life active pending ih =>
    rw [workflow_finished] at loopless
    exact (((ih loopless).resumed life.sound node timer).failed error).finished life.sound
  | @late x node timer life past ih =>
    rw [workflow_finished] at loopless
    exact ((ih loopless).fired node timer).finished life.sound
  | cancelled life active ih => exact (ih loopless).cancelled life.sound

namespace Execution

variable {x : Execution}

theorem Settled.finished {node : String} (settled : x.Settled node) : x.finished.Settled node := by
  refine settled.mono (grows_finished x) fun delay there => ?_
  unfold Execution.finished
  split <;> exact there

theorem visited_finished (x : Execution) : x.finished.visited = x.visited := by
  unfold finished
  split <;> rfl

end Execution

open Execution in
/-- As long as it runs, and when it is completed, an execution has led on everywhere. -/
theorem Life.settled {l : Option Int} {x : Execution} (life : Life l x)
    (loopless : ∀ n ∈ x.workflow.nodes, n.isLoop = false)
    (well : x.isActive = true ∨ x.status = .completed) :
    (∀ node ∈ x.visited, x.Settled node) ∧
      ∀ trigger, x.workflow.trigger? = some trigger → trigger.id ∈ x.visited := by
  induction life with
  | @started y id w module item triggerData vars trigger sound found work =>
    have unfinished : ((opening id w module item triggerData vars).tell (.started w.name)).status ≠
        .completed := by
      intro completed
      cases completed
    have active := active_of_finished (work.incomplete unfinished) well
    have same := work.workflow
    rw [workflow_finished, same] at loopless
    obtain ⟨settles, done⟩ := work.settles loopless (Workflow.trigger_mem_places found) active
    rw [workflow_finished, visited_finished, same]
    refine ⟨fun node seen => ?_, fun other there => ?_⟩
    · exact ((settles node seen).resolve_left List.not_mem_nil).finished
    · obtain rfl : trigger = other := Option.some.inj (found.symm.trans there)
      exact done
  | stillborn => rcases well with running | completed <;> contradiction
  | @continued x y node timer life active pending work ih =>
    have same := work.workflow
    have before : x.status ≠ .completed := fun past => by simp [isActive, past] at active
    have running := active_of_finished (work.incomplete before) well
    rw [workflow_finished, same] at loopless
    obtain ⟨held, begun⟩ := ih loopless (.inl active)
    obtain ⟨-, n, amount, unit, found, kind⟩ := (life.traced loopless).delays _ pending
    obtain ⟨settles, done⟩ := work.settles loopless (fun c => Workflow.mem_connections_of_outgoing) running
    have grown := (grows_resumed x node timer).trans work.grows
    -- The delay whose timer has fired has led on now, and the others are still waited for.
    have closed : y.Closed node := .other (same ▸ found) (by simp [kind]) (same ▸ done)
    have others {id : String} {t : Nat} (apart : id ≠ node) (there : (id, t) ∈ x.pending) :
        (id, t) ∈ y.pending := by
      refine (work.waits running).pending _ ?_
      change (id, t) ∈ (x.fired node timer).pending
      rw [pending_fired]
      exact List.mem_filter.2 ⟨there, by simp [apart]⟩
    rw [workflow_finished, visited_finished, same]
    refine ⟨fun id seen => Settled.finished ?_, fun other there =>
      grown.visited _ (begun other there)⟩
    rcases settles id seen with before | settled
    · by_cases own : id = node
      · exact own ▸ .inr closed
      · rcases held id before with ⟨t, there⟩ | led
        · exact .inl ⟨t, others own there⟩
        · exact .inr (led.mono grown)
    · exact settled
  | stuck => cases active_of_finished (by simp [failed]) well
  | @late x node timer life past ih =>
    rw [finished_of_over (x := x.fired node timer) past] at well loopless ⊢
    have completed : x.status = .completed :=
      well.resolve_left fun running => absurd (show x.isActive = true from running) (by simp [past])
    obtain ⟨held, begun⟩ := ih loopless (.inr completed)
    have none := life.attended.2 completed
    refine ⟨fun id seen => ?_, begun⟩
    rcases held id seen with ⟨t, there⟩ | led
    · rw [none] at there
      cases there
    · exact .inr (led.mono ⟨rfl, List.prefix_rfl, fun _ seen => seen, fun running => running⟩)
  | cancelled => rcases well with running | completed <;> contradiction

/-- Within one life of an engine, an execution of a workflow without loops that is completed has
visited what is reached from the first trigger, and nothing else: ids that name no node are told to be
missing, and each condition that was visited was evaluated to one result. -/
theorem Engine.Fresh.mem_visited_iff {e : Engine} (fresh : e.Fresh) (ops : List Operation)
    (work : ∀ op ∈ ops, op.isWork = true) {id : String} {x : Execution}
    (known : (e.afterAll ops).execution? id = some x)
    (loopless : ∀ n ∈ x.workflow.nodes, n.isLoop = false) (completed : x.status = .completed) :
    (∀ node, node ∈ x.visited ↔ x.Reached node) ∧ (∀ node, node ∈ x.path ↔ node ∈ x.visited) ∧
      (∀ node ∈ x.visited, x.workflow.node? node = none → x.Missed node) ∧
      ∀ node ∈ x.visited, ∀ n c, x.workflow.node? node = some n → n.kind = .condition c →
        ∃! result, x.Judged node result := by
  have life := fresh.lives ops work id x known
  have traced := life.traced loopless
  obtain ⟨settled, begun⟩ := life.settled loopless (.inr completed)
  have none := life.attended.2 completed
  have closed (node : String) (seen : node ∈ x.visited) : x.Closed node := by
    rcases settled node seen with ⟨timer, there⟩ | led
    · rw [none] at there
      cases there
    · exact led
  refine ⟨fun node => ⟨traced.reached node, fun reached => ?_⟩, traced.path, fun node seen absent => ?_,
    fun node seen n c found kind => ?_⟩
  · induction reached with
    | trigger found => exact begun _ found
    | @next node n way reached found ordinary leaves ih =>
      cases closed node ih with
      | missing absent => cases absent.symm.trans found
      | condition judged =>
        obtain ⟨m, c, -, there, kind, -⟩ := judged
        obtain rfl : n = m := Option.some.inj (found.symm.trans there)
        exact absurd kind (ordinary c)
      | other _ _ visited => exact visited way leaves
    | @chosen node result way reached judged leaves ih =>
      have ⟨n, c, _, found, kind, _⟩ := judged
      cases closed node ih with
      | missing absent => cases absent.symm.trans found
      | condition judged' visited =>
        obtain rfl := traced.once node _ _ judged' judged
        exact visited way leaves
      | other there ordinary =>
        obtain rfl := Option.some.inj (found.symm.trans there)
        exact absurd kind (ordinary c)
  · cases closed node seen with
    | missing _ told => exact told
    | condition judged =>
      obtain ⟨m, c, -, there, -⟩ := judged
      cases absent.symm.trans there
    | other there => cases absent.symm.trans there
  · cases closed node seen with
    | missing absent => cases absent.symm.trans found
    | condition judged => exact ⟨_, judged, fun other told => traced.once node _ _ judged told⟩
    | other there ordinary =>
      obtain rfl := Option.some.inj (found.symm.trans there)
      exact absurd kind (ordinary c)

set_option maxRecDepth 100000 in
/-- A condition that is true, with a delay behind it, a connection back and one that leads nowhere. -/
theorem Engine.mem_visited_fork : ∃ x : Execution,
    (bare.afterAll (onceThrough Workflow.writtenFork 5.0)).execution? "id-1" = some x ∧
      x.status = .completed ∧ x.visited = ["T", "C", "D", "Z"] ∧
        ∀ node, node ∈ x.visited ↔ x.Reached node := by
  obtain ⟨x, known⟩ : ∃ x, (bare.afterAll (onceThrough Workflow.writtenFork 5.0)).execution? "id-1" =
    some x := Option.isSome_iff_exists.1 (by decide +kernel)
  have facts : ((bare.afterAll (onceThrough Workflow.writtenFork 5.0)).execution? "id-1").all
    (fun x => x.status == .completed && x.visited == ["T", "C", "D", "Z"] &&
      x.workflow.nodes.all fun n => !n.isLoop) = true := by decide +kernel
  rw [known, Option.all_some, Bool.and_eq_true, Bool.and_eq_true] at facts
  obtain ⟨⟨completed, visited⟩, loopless⟩ := facts
  have loopless : ∀ n ∈ x.workflow.nodes, n.isLoop = false := by
    simpa using loopless
  have completed : x.status = .completed := by simpa using completed
  exact ⟨x, known, completed, by simpa using visited,
    (fresh_bare.mem_visited_iff _ (isWork_onceThrough _ _) known loopless completed).1⟩

end Runbook
