import Mathlib.Logic.Relation
import Runbook.Proofs.Course.Isolation
import Runbook.Proofs.Course.Kindred
import Runbook.Proofs.Course.Remaking
import Runbook.Proofs.Course.Rest

/-!
Restarts that make no difference. An engine that goes on with the storage of another one, at the same time,
takes up what was live there. Where the markers carry an execution, it is in the end as it would have been
without the restart: its variables are those of the marker that was saved last, the nodes that it may still
come to are counted as visited by its markers alike, and its delays come due alike.
-/
namespace Runbook

/-- A connection leads from one node to another one. -/
def Workflow.Leads (w : Workflow) (a b : String) : Prop :=
  ∃ c ∈ w.connections, c.source = a ∧ c.target = b

/-- What is kept of an execution carries it. The marker that was saved last has its variables. Of the nodes
within reach, those are visited that any of the markers counts, and a loop has begun as many iterations as
the marker that counts most of them. At certain times the delays that are recalled are due like its own. -/
structure Execution.Carried (reach : String → Prop) (times : Float → Prop) (x : Execution) (saved : List Saved)
    (last : Saved) (delays recalled : List (String × Float)) : Prop where
  newest : saved.getLast? = some last
  vars : last.vars = x.vars
  visited : ∀ node, reach node → (node ∈ x.visited ↔ ∃ s ∈ saved, node ∈ s.visited)
  counters : ∀ node, reach node → x.counter node = Saved.most last saved node
  calls : ∀ time, times time → dueBy time recalled = dueBy time delays

namespace Share

variable {rows : List Store.WorkflowRow} {reach : String → Prop} {times : Float → Prop} {id : String}
  {a b c : Share} {x y : Execution} {last : Saved} {now : Instant} {calls more : List (String × Float)}

/-- When each of the delays that are set again is due, with its node. -/
def recalled (a : Share) (id : String) (now : Instant) : List (String × Float) :=
  (a.waiting id).map fun m => (m.node, a.now + Engine.remaining now m)

theorem length_recalled (a : Share) (id : String) (now : Instant) :
    (a.recalled id now).length = a.saved.length := by
  have sorted := (sortBy_perm Saved.before a.saved.zipIdx).length_eq
  rw [List.length_zipIdx] at sorted
  unfold recalled waiting
  rw [List.length_map, List.length_map, sorted]

/-- Delays were set again, and nothing else happened. -/
structure Rearmed (calls : List (String × Float)) (a b : Share) : Prop where
  execution : ∀ x, a.execution? = some x →
    ∃ logs, b.execution? = some { x with logs, branches := x.branches + calls.length }
  row : b.row? = a.row?
  pending : b.pending.map (·.call) = a.pending.map (·.call) ++ calls
  due : b.due = a.due
  now : b.now = a.now
  limit : b.limit = a.limit
  words : b.spoken.filter Spoken.processes = a.spoken.filter Spoken.processes

theorem Rearmed.trans (first : Rearmed calls a b) (second : Rearmed more b c) : Rearmed (calls ++ more) a c where
  execution x known := by
    obtain ⟨_, then_⟩ := first.execution x known
    obtain ⟨logs, after⟩ := second.execution _ then_
    refine ⟨logs, after.trans ?_⟩
    rw [List.length_append, Int.natCast_add, Int.add_assoc]
  row := second.row.trans first.row
  pending := by rw [second.pending, first.pending, List.append_assoc]
  due := second.due.trans first.due
  now := second.now.trans first.now
  limit := second.limit.trans first.limit
  words := second.words.trans first.words

/-- What is told of a delay that is set again does not tell that a node is processed. -/
theorem silent_restored (id node : String) (seconds : Float) (path : List String) :
    ((Remark.restored node seconds).spoken id path).processes = false := by
  have quiet : ((Remark.restored node seconds).entry path).tells "Processing " = false :=
    Remark.not_tells_of_clash (Remark.clash_processing (by simp [Remark.head]) (by simp [Remark.head]))
  exact quiet

theorem rearmed_rearm (id : String) (a : Share) (d : String × Float × Nat) :
    Rearmed [(d.1, a.now + d.2.1)] a (a.rearm id d) where
  execution x known := ⟨_, by simp [rearm, arm, say, alter, known, Execution.tell]; rfl⟩
  row := rfl
  pending := List.map_append
  due := rfl
  now := rfl
  limit := rfl
  words := by
    change (a.spoken ++ _).filter _ = _
    rw [List.filter_append]
    cases a.execution? with
    | none => exact List.append_nil _
    | some x => simp [silent_restored]

theorem rearmed_rearmAll (id : String) (a : Share) (ds : List (String × Float × Nat)) :
    Rearmed (ds.map fun d => (d.1, a.now + d.2.1)) a (ds.foldl (rearm id) a) := by
  induction ds generalizing a with
  | nil =>
    refine ⟨fun x known => ⟨x.logs, known.trans ?_⟩, rfl, (List.append_nil _).symm, rfl, rfl, rfl, rfl⟩
    rw [List.map_nil, List.length_nil, Int.natCast_zero, Int.add_zero]
  | cons d rest ih => exact (rearmed_rearm id a d).trans (ih (a.rearm id d))

/-- An execution that is carried goes on alike when it is taken up again. -/
theorem kindred_takeUp (known : a.execution? = some x) (active : x.isActive = true) (loops : x.activeLoops = [])
    (branches : x.branches = a.saved.length) (settled : a.due = []) (whole : ∀ s ∈ a.saved, s.Whole)
    (remade : a.remade? rows id = some y) (anew : y.Anew id) (workflow : y.workflow = x.workflow)
    (carried : x.Carried reach times a.saved last (a.pending.map (·.call)) (a.recalled id now))
    (ahead : ∀ d ∈ a.pending, ∀ c ∈ x.workflow.connections, c.source = d.node → reach c.target) :
    Kindred x.workflow.connections reach times a ((a.restarted a.now).takeUp rows id now) := by
  obtain ⟨newest, saved, vars, visited, counters⟩ := of_remade whole remade
  obtain rfl := Option.some.inj (carried.newest.symm.trans saved)
  have rearmed := rearmed_rearmAll id ((a.restarted a.now).revive y)
    ((a.waiting id).map fun m => (m.node, Engine.remaining now m, m.id))
  rw [List.map_map] at rearmed
  have rearmed : Rearmed (a.recalled id now) ((a.restarted a.now).revive y) _ := rearmed
  have taken : (a.restarted a.now).takeUp rows id now =
      (((a.waiting id).map fun m => (m.node, Engine.remaining now m, m.id)).foldl (rearm id)
        ((a.restarted a.now).revive y)).alter fun x => { x with branches := x.branches - 1 } := by
    have again : (a.restarted a.now).remade? rows id = some y := remade
    unfold takeUp
    rw [again]
    rfl
  rw [taken]
  generalize ((a.waiting id).map _).foldl (rearm id) ((a.restarted a.now).revive y) = b at rearmed
  obtain ⟨logs, there⟩ := rearmed.execution y.untimed rfl
  refine ⟨?_, rearmed.row, rearmed.now, rearmed.limit, fun time within => ?_, ?_, fun d held => ?_, rearmed.words⟩
  · have made : (b.alter fun x => { x with branches := x.branches - 1 }).execution? = some
        { y.untimed with logs, branches := y.branches + (a.recalled id now).length - 1 } := by
      unfold alter
      rw [there]
      rfl
    rw [known, made]
    refine .some ⟨⟨workflow, anew.active.trans active.symm, vars.trans carried.vars, fun node reached => ?_,
      fun node => ?_, fun node reached => ?_⟩, rfl, ?_, ?_⟩
    · rw [Bool.eq_iff_iff, List.contains_iff_mem, List.contains_iff_mem, carried.visited node reached]
      exact visited node
    · change y.activeLoops.contains node = _
      rw [anew.loops, loops]
    · exact (counters node).trans (carried.counters node reached).symm
    · exact (eq_of_beq anew.active).trans (eq_of_beq active).symm
    · change y.branches + (a.recalled id now).length - 1 = x.branches
      rw [anew.branches, branches, length_recalled]
      omega
  · exact (congrArg (dueBy time) rearmed.pending).trans (carried.calls time within)
  · exact congrArg (List.map (·.call)) rearmed.due
  · rw [settled, List.append_nil] at held
    exact ahead d held

theorem kindred_self (times : Float → Prop) (a : Share) : ∃ links, Kindred links (fun _ => True) times a a := by
  have rest {links : List Connection}
      (execution : Option.Rel (Execution.Kindred links fun _ => True) a.execution? a.execution?) :
      Kindred links (fun _ => True) times a a :=
    ⟨execution, rfl, rfl, rfl, fun _ _ => rfl, rfl, fun _ _ _ _ _ => trivial, rfl⟩
  cases known : a.execution? with
  | none => exact ⟨[], rest (known ▸ .none)⟩
  | some x => exact ⟨x.workflow.connections, rest (known ▸ .some ⟨.refl _ x, rfl, rfl, rfl⟩)⟩

/-- Where nothing is live and nothing waits, a restart changes nothing. -/
theorem resume_restarted (live : a.live = false) (pending : a.pending = []) (saved : a.saved = []) :
    (a.restarted a.now).resume rows id = a := by
  have same : a.restarted a.now = a := by
    unfold restarted
    rw [← live, ← pending]
  rw [same]
  unfold resume
  split
  · rw [live]
    exact takeUp_of_none saved
  · rfl

end Share

namespace Scene

variable {v : Scene} {id : String}

/-- The markers of an execution that is not live are what it waits for. -/
theorem waiting_listed (still : v.live.contains id = false) (some : v.markers.filter (·.execution == id) ≠ []) :
    v.Waiting id (v.listed id) := by
  have perm : ((v.listed id).map fun m => (m.id, m.node)).Perm
      ((v.markers.filter (·.execution == id)).map fun m => (m.id, m.node)) := by
    unfold listed
    rw [List.map_map]
    exact ((sortBy_perm _ _).filter _).map _
  refine ⟨still, fun none => some ?_, fun m there => ?_, perm⟩
  · rw [none] at perm
    exact List.map_eq_nil_iff.1 (List.nil_perm.1 perm)
  · obtain ⟨row, stored, rfl⟩ := mem_listed there
    exact eq_of_beq (List.mem_filter.1 stored).2

end Scene

namespace Engine

variable {rows : List Store.WorkflowRow} {e d : Engine} {id : String} {x : Execution}

/-- Another engine goes on with the storage, at the same time, and resumes what waits. -/
def again (e : Engine) : Engine := (e.after (.restart e.clock.now)).after .resume

/-- The times that the clock is moved to, one after the other. -/
def moments (e : Engine) : List Float → List Float
  | [] => []
  | seconds :: rest => (e.clock.now + seconds) :: (e.after (.advance seconds)).moments rest

/-- The delays of an execution as they are set again from its markers at a point in time. -/
def recalledOf (e : Engine) (id : String) (now : Instant) : List (String × Float) :=
  (sortBy Saved.before (e.savedOf id).zipIdx).map fun p =>
    (p.1.node, e.clock.now + remaining now (p.1.marker id p.2))

/-- A walk from one of the delays that an execution waits for may come to a node. -/
def Ahead (e : Engine) (id : String) (w : Workflow) (node : String) : Prop :=
  ∃ call ∈ e.delaysOf id, Relation.TransGen w.Leads call.1 node

/-- The markers of a live execution carry it through a restart, while the clock is moved on afterwards. -/
def Carries (e : Engine) (id : String) (later : List Float) : Prop :=
  ∃ x last now, e.liveExecution? id = some x ∧ Instant.ofSeconds e.clock.now = .ok now ∧
    x.Carried (e.Ahead id x.workflow) (· ∈ e.moments later) (e.savedOf id) last (e.delaysOf id)
      (e.recalledOf id now)

theorem resumed_again (calm : e.scene.Calm rows [] []) (stocks : Stocks rows e) :
    Resumed rows (e.after (.restart e.clock.now)) e.again := by
  refine resumed_after ?_ (stocks_after stocks rfl)
  rw [scene_restart calm]
  exact calm.restarted _

theorem share_again (calm : e.scene.Calm rows [] []) (stocks : Stocks rows e) (id : String) :
    e.again.scene.share [] id = ((e.scene.share [] id).restarted e.clock.now).resume rows id := by
  rw [(resumed_again calm stocks).share, scene_restart calm, Scene.share_restarted]

/-- Each branch of a live execution that nobody works on has its marker. -/
theorem length_saved (living : (e.scene.aspect [] [] id).Living x) :
    (e.scene.share [] id).saved.length = x.branches := by
  have markers := living.markers.length_eq
  rw [List.length_map, List.length_map] at markers
  have saved : (e.scene.share [] id).saved.length = (e.scene.aspect [] [] id).markers.length := List.length_map _
  rw [living.branches, ← markers, saved]
  exact (Int.zero_add _).symm

/-- Its markers make an execution of the same workflow anew. -/
theorem remade_of_living (calm : e.scene.Calm rows [] []) (living : (e.scene.aspect [] [] id).Living x) :
    ∃ y, ((e.scene.share [] id).restarted e.clock.now).remade? rows id = some y ∧ y.Anew id ∧
      y.workflow = x.workflow := by
  let v := e.scene.restarted e.clock.now
  have calm' : v.Calm rows [] [] := calm.restarted _
  have share : v.share [] id = (e.scene.share [] id).restarted e.clock.now := Scene.share_restarted ..
  have part : v.toPart = e.scene.toPart := (e.scene.frame_untimeAll e.scene.live).1
  have some : v.markers.filter (·.execution == id) ≠ [] := by
    rw [part]
    intro none
    have waiting := living.waiting
    rw [← length_saved living, show (e.scene.share [] id).saved = [] from congrArg (List.map _) none] at waiting
    exact absurd waiting (by decide)
  obtain ⟨first, rest, row, data, w, y, -, stored, -, -, defined, -, -, restored, workflow, remade⟩ :=
    calm'.remade (Scene.waiting_listed rfl some)
  rw [share] at remade
  refine ⟨y, remade, restored.anew, ?_⟩
  have stored : e.scene.row? id = Option.some row := (congrArg Share.row? share).symm.trans stored
  exact workflow.trans (Option.some.inj (defined.symm.trans (calm.defined id x row living.known stored)))

section Again

variable (calm : e.scene.Calm rows [] []) (stocks : Stocks rows e)

include calm stocks

/-- An execution that its markers carry goes on alike. -/
theorem kindred_of_carries {later : List Float} (resting : e.scene.Resting) (carries : e.Carries id later) :
    ∃ x, e.execution? id = some x ∧
      Share.Kindred x.workflow.connections (e.Ahead id x.workflow) (· ∈ e.moments later) (e.scene.share [] id)
        (e.again.scene.share [] id) := by
  obtain ⟨x, last, now, held, read, carried⟩ := carries
  have live : e.live.contains id = true := by
    by_contra still
    rw [liveExecution?, if_neg still] at held
    cases held
  rw [liveExecution?, if_pos live] at held
  have living := calm.account.living_of_live live held
  obtain ⟨y, remade, anew, same⟩ := remade_of_living calm living
  have taken : ((e.scene.share [] id).restarted e.clock.now).resume rows id =
      ((e.scene.share [] id).restarted e.clock.now).takeUp rows id now := by
    unfold Share.resume
    rw [show ((e.scene.share [] id).restarted e.clock.now).now = e.clock.now from rfl, read]
    rfl
  have delays := e.delaysOf_eq id
  have kept : x.untimed.Carried (e.Ahead id x.workflow) (· ∈ e.moments later) (e.scene.share [] id).saved last
      ((e.scene.share [] id).pending.map (·.call)) ((e.scene.share [] id).recalled id now) :=
    ⟨carried.newest, carried.vars, carried.visited, carried.counters, fun time within => by
      have calls := carried.calls time within
      rw [delays] at calls
      rw [Share.recalled, Share.waiting, List.map_map]
      exact calls⟩
  refine ⟨x, held, ?_⟩
  rw [share_again calm stocks, taken]
  refine Share.kindred_takeUp (x := x.untimed) (congrArg (Option.map Execution.untimed) held) living.active
    (resting id x held) (length_saved living).symm rfl (fun s there => ?_) remade anew same kept
    fun d waits c listed source => ?_
  · obtain ⟨m, stored, rfl⟩ := List.mem_map.1 there
    exact calm.legible m (List.mem_filter.1 stored).1
  · refine ⟨d.call, ?_, .single ⟨c, listed, source, rfl⟩⟩
    rw [delays]
    exact List.mem_map_of_mem waits

/-- So does one that is over, and nothing becomes of one that is not there. -/
theorem kindred_again {later : List Float} (resting : e.scene.Resting)
    (carried : ∀ row, e.stored? id = some row → row.status = .running → e.Carries id later) :
    ∃ links reach, (∀ c ∈ links, reach c.source → reach c.target) ∧
      Share.Kindred links reach (· ∈ e.moments later) (e.scene.share [] id) (e.again.scene.share [] id) := by
  have still (live : e.scene.live.contains id = false) (timers : e.scene.clock.timers.filter (·.execution == id) = [])
      (markers : e.scene.markers.filter (·.execution == id) = []) :
      ∃ links reach, (∀ c ∈ links, reach c.source → reach c.target) ∧
        Share.Kindred links reach (· ∈ e.moments later) (e.scene.share [] id) (e.again.scene.share [] id) := by
    have pending : (e.scene.share [] id).pending = [] := congrArg (List.map _) timers
    have same : e.again.scene.share [] id = e.scene.share [] id := by
      rw [share_again calm stocks]
      exact Share.resume_restarted live pending (congrArg (List.map _) markers)
    obtain ⟨links, kindred⟩ := Share.kindred_self (· ∈ e.moments later) (e.scene.share [] id)
    rw [same]
    exact ⟨links, _, fun _ _ _ => trivial, kindred⟩
  cases calm.account.stands id with
  | absent h => exact still h.still.1 h.nothing.1 h.nothing.2.2
  | past h => exact still h.live h.nothing.1 h.nothing.2
  | living x h =>
    obtain ⟨row, stored, running⟩ := h.row
    obtain ⟨x, -, kindred⟩ := kindred_of_carries calm stocks resting (carried row stored running)
    refine ⟨_, _, fun c there reached => ?_, kindred⟩
    obtain ⟨call, waits, leads⟩ := reached
    exact ⟨call, waits, leads.tail ⟨c, there, rfl, rfl⟩⟩
  | dormant h =>
    obtain ⟨row, stored, running⟩ := h.row
    obtain ⟨x, last, now, held, -⟩ := carried row stored running
    have live : e.live.contains id = false := h.still.1
    rw [liveExecution?, live] at held
    cases held

end Again

/-! The clock moves on. -/

/-- What is done while the clock moves keeps shares kindred. -/
theorem kindred_advances {links : List Connection} {reach : String → Prop} {times : Float → Prop}
    (closed : ∀ c ∈ links, reach c.source → reach c.target) {later : List Float}
    (matched : Scene.Matched (Share.Kindred links reach times) rows id [] [] e.scene d.scene)
    (within : ∀ time ∈ e.moments later, times time) (numbered : e.scene.Numbered) (numbered' : d.scene.Numbered)
    (few : Store.fits (e.afterAll (later.map .advance)).storage.journal.spoken.length = true)
    (few' : Store.fits (d.afterAll (later.map .advance)).storage.journal.spoken.length = true) :
    Scene.Matched (Share.Kindred links reach times) rows id [] [] (e.afterAll (later.map .advance)).scene
      (d.afterAll (later.map .advance)).scene := by
  induction later generalizing e d with
  | nil => exact matched
  | cons seconds rest ih =>
    have course : ∀ op ∈ (seconds :: rest).map Operation.advance, op.isCourse = true := fun op there => by
      obtain ⟨_, -, rfl⟩ := List.mem_map.1 there
      rfl
    have room {e : Engine} (calm : e.scene.Calm rows [] [])
        (few : Store.fits (e.afterAll ((seconds :: rest).map .advance)).storage.journal.spoken.length = true) :
        Store.fits e.scene.spoken.length = true :=
      fits_of_le ((moves_course calm course).grows (k := "")).2.1.length_le few
    have onwards {e : Engine} (calm : e.scene.Calm rows [] []) (numbered : e.scene.Numbered) :
        (e.after (.advance seconds)).scene.Numbered := by
      have own : ∀ op ∈ [Operation.advance seconds], op.isCourse = true :=
        fun op there => List.mem_singleton.1 there ▸ rfl
      exact (moves_course calm own).numbered numbered
    have advanced : Leads (At e.scene d.scene) (Side (Scene.Matched (Share.Kindred links reach times) rows id [] []))
        (carryOut (.advance seconds)) (carryOut (.advance seconds)) Eq :=
      .bind (leads_advance (Share.concert_kindred closed id) matched
        (fun m there => fits_of_le (numbered m there) (room matched.calm few))
        (fun m there => fits_of_le (numbered' m there) (room matched.calm' few'))
        (matched.share.shift (within _ (.head _)))) fun _ _ _ => .pure rfl
    have next : Scene.Matched (Share.Kindred links reach times) rows id [] [] (e.after (.advance seconds)).scene
        (d.after (.advance seconds)).scene := after_of_leads advanced ⟨rfl, rfl⟩
    exact ih next (fun time there => within time (.tail _ there)) (onwards matched.calm numbered)
      (onwards matched.calm' numbered') few few'

theorem Fresh.calm_afterAll (fresh : e.Fresh) (assigns : e.registry.Assigns)
    (assigning : Store.Assigning e.storage.tables.workflows) {ops : List Operation}
    (course : ∀ op ∈ ops, op.isCourse = true)
    (few : Store.fits (e.afterAll ops).storage.journal.spoken.length = true) :
    (e.afterAll ops).scene.Calm e.storage.tables.workflows [] [] ∧
      Stocks e.storage.tables.workflows (e.afterAll ops) := by
  have lane := (fresh.lane assigns 0).afterAll assigning course fresh.numbered (fresh.numbered_giving 0) few
  exact ⟨lane.matched.calm, lane.stocks⟩

/-- Executions that go on alike have the same status and variables. -/
theorem told_of_kindred {links : List Connection} {reach : String → Prop} {times : Float → Prop}
    (kindred : Share.Kindred links reach times (e.scene.share [] id) (d.scene.share [] id)) :
    (d.execution? id).map (fun x => (x.status, x.vars)) = (e.execution? id).map fun x => (x.status, x.vars) := by
  have untimed (e : Engine) : (e.execution? id).map (fun x => (x.status, x.vars)) =
      (e.scene.share [] id).execution?.map fun x => (x.status, x.vars) := by
    change _ = ((e.execution? id).map Execution.untimed).map _
    rw [Option.map_map]
    rfl
  have both := kindred.execution
  rw [untimed e, untimed d]
  generalize (e.scene.share [] id).execution? = x at both ⊢
  generalize (d.scene.share [] id).execution? = y at both ⊢
  cases both with
  | none => rfl
  | some near => rw [Option.map_some, Option.map_some, near.status, near.vars]

/-- A restart makes no difference to an execution that its markers carry. In a run on an engine whose
workflows only assign variables, executions are started, cancelled and resumed in any order; then the clock
is moved on some times. If another engine goes on with the storage in between, at the same time, and resumes
what waits, an execution ends as it does without that: its row, its status and its variables are the same,
and over the whole run the same nodes are processed in the same order. An execution that is running by then
has to be live, and its markers have to carry it: the variables that were saved last are its own, and as far
as the nodes go that connections lead to from its delays, what the markers count as visited and as begun
iterations is what it counts itself; and whenever the clock is moved on, its delays are due in the order in
which those are that the markers stand for, whose times are kept in microseconds. Markers have numbers as
long as there are fewer log entries than numbers. -/
theorem Fresh.transparent (fresh : e.Fresh) (assigns : e.registry.Assigns)
    (assigning : Store.Assigning e.storage.tables.workflows) (before : List Operation)
    (course : ∀ op ∈ before, op.isCourse = true) (later : List Float) (id : String)
    (carried : ∀ row, (e.afterAll before).stored? id = some row → row.status = .running →
      (e.afterAll before).Carries id later)
    (few : Store.fits
      ((e.afterAll before).afterAll (later.map .advance)).storage.journal.spoken.length = true)
    (few' : Store.fits
      ((e.afterAll before).again.afterAll (later.map .advance)).storage.journal.spoken.length = true) :
    let t := (e.afterAll before).afterAll (later.map .advance)
    let u := (e.afterAll before).again.afterAll (later.map .advance)
    u.stored? id = t.stored? id ∧
      (u.execution? id).map (fun x => (x.status, x.vars)) = (t.execution? id).map (fun x => (x.status, x.vars)) ∧
      (u.wordsOf id).filter Spoken.processes = (t.wordsOf id).filter Spoken.processes := by
  intro t u
  have use : ∀ op ∈ before, op.isUse = true := fun op there => Operation.isUse_of_isCourse (course op there)
  have orderly := fresh.orderly_afterAll before use
  have few_before : Store.fits (e.afterAll before).storage.journal.spoken.length = true := by
    have advances : ∀ op ∈ later.map Operation.advance, op.isUse = true := fun op there => by
      obtain ⟨_, -, rfl⟩ := List.mem_map.1 there
      rfl
    exact fits_of_le (((events_afterAll _ advances _ orderly).moves orderly).grows (k := "")).2.1.length_le few
  obtain ⟨calm, stocks⟩ := fresh.calm_afterAll assigns assigning course few_before
  have fresh_calm : e.scene.Calm e.storage.tables.workflows [] [] := fresh.calm assigns
  have numbered : (e.afterAll before).scene.Numbered := (moves_course fresh_calm course).numbered fresh.numbered
  have numbered' : (e.afterAll before).again.scene.Numbered := by
    have own : ∀ op ∈ [Operation.restart (e.afterAll before).clock.now, .resume], op.isCourse = true := by
      simp [Operation.isCourse, Operation.isCare]
    exact (moves_course calm own).numbered numbered
  obtain ⟨links, reach, closed, kindred⟩ := kindred_again calm stocks (fresh.resting before use) carried
  have matched := kindred_advances closed ⟨calm, (resumed_again calm stocks).calm, kindred⟩
    (fun _ there => there) numbered numbered' few few'
  exact ⟨matched.share.row, told_of_kindred matched.share, matched.share.words⟩

/-- An engine on one workflow, which waits and assigns variables, in the order that its connections say. -/
def patient (connections : List Value) : Engine where
  registry := .standard (.int 30)
  storage := { tables := { workflows := [{ assigningRow "wf" 5 with connections := .list connections }] } }

theorem fresh_patient (connections : List Value) : (patient connections).Fresh := by
  constructor <;> rfl

/-- Waiting comes first. -/
def waitingFirst : List Value :=
  [Workflow.writtenConnection "T" "D" .null, Workflow.writtenConnection "D" "A" .null,
    Workflow.writtenConnection "A" "B" .null]

/-- What is assigned before the end of the delay is assigned after its marker was saved. -/
def waitingAside : List Value :=
  [Workflow.writtenConnection "T" "D" .null, Workflow.writtenConnection "T" "A" .null,
    Workflow.writtenConnection "D" "B" .null]

/-- One execution is started. -/
def oneStart : List Operation := [.execute "wf" .null (.text "tickets") .null]

set_option maxRecDepth 100000 in
theorem transparent_waitingFirst :
    (((patient waitingFirst).afterAll oneStart).savedOf "id-1").length = 1 ∧
    ((((patient waitingFirst).afterAll oneStart).again.afterAll ([5.0].map .advance)).execution? "id-1").map
      (fun x => (x.status, x.vars)) =
    ((((patient waitingFirst).afterAll oneStart).afterAll ([5.0].map .advance)).execution? "id-1").map
      fun x => (x.status, x.vars) := by
  have assigning : Store.Assigning (patient waitingFirst).storage.tables.workflows :=
    assigning_of_onlyAssigns (by decide) (by decide +kernel)
  have carried : ((patient waitingFirst).afterAll oneStart).Carries "id-1" [5.0] := by
    have live : (((patient waitingFirst).afterAll oneStart).liveExecution? "id-1").map
        (fun x => (x.vars.isEmpty, x.visited, x.counters)) = some (true, ["T", "D"], []) := by decide +kernel
    have saved : (((patient waitingFirst).afterAll oneStart).savedOf "id-1").map
        (fun s => (s.vars.isEmpty, s.visited, s.counters)) = [(true, ["D", "T"], [])] := by decide +kernel
    have time : (Instant.ofSeconds ((patient waitingFirst).afterAll oneStart).clock.now).toOption.map
        (((patient waitingFirst).afterAll oneStart).recalledOf "id-1") =
          some (((patient waitingFirst).afterAll oneStart).delaysOf "id-1") := by decide +kernel
    generalize (patient waitingFirst).afterAll oneStart = e at live saved time
    obtain ⟨x, held, own⟩ := Option.map_eq_some_iff.1 live
    obtain ⟨last, only, kept⟩ := List.map_eq_singleton_iff.1 saved
    obtain ⟨now, read, recalled⟩ := Option.map_eq_some_iff.1 time
    simp only [Prod.mk.injEq, List.isEmpty_iff] at own kept
    have read : Instant.ofSeconds e.clock.now = .ok now := by
      cases given : Instant.ofSeconds e.clock.now with
      | ok t => rw [given] at read; exact congrArg _ (Option.some.inj read)
      | error f => rw [given] at read; cases read
    refine ⟨x, last, now, held, read, ?_⟩
    rw [only, recalled]
    refine ⟨rfl, kept.1.trans own.1.symm, fun node _ => ?_, fun node _ => ?_, fun _ _ => rfl⟩
    · simp [own.2.1, kept.2.1, or_comm]
    · simp [Execution.counter, Saved.most, Saved.counts, own.2.2, kept.2.2]
  refine ⟨by decide +kernel, ?_⟩
  exact ((fresh_patient waitingFirst).transparent rfl assigning oneStart (by simp [oneStart, Operation.isCourse, Operation.isCare])
    [5.0] "id-1" (fun _ _ _ => carried) (by decide +kernel) (by decide +kernel)).2.1

set_option maxRecDepth 100000 in
/-- What was assigned after the last marker had been saved is forgotten in a restart. -/
theorem forgets_waitingAside : (patient waitingAside).Fresh ∧ (patient waitingAside).registry.Assigns ∧
    Store.Assigning (patient waitingAside).storage.tables.workflows ∧
    ((((patient waitingAside).afterAll oneStart).after (.advance 5.0)).execution? "id-1").map
      (fun x => (x.status, Dict.contains x.vars "x")) = some (.completed, true) ∧
    ((((patient waitingAside).afterAll oneStart).again.after (.advance 5.0)).execution? "id-1").map
      (fun x => (x.status, Dict.contains x.vars "x")) = some (.completed, false) :=
  ⟨fresh_patient _, rfl, assigning_of_onlyAssigns (by decide) (by decide +kernel), by decide +kernel, by decide +kernel⟩

end Engine

end Runbook
