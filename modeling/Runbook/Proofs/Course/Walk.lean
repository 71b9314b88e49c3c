import Runbook.Proofs.Course.Effects
import Runbook.Proofs.Course.Frame

/-!
The code of the engine follows the rules of work. A walk is compared with a second one that enters
nodes in another way, so that the same proof tells what a walk does and that it does not depend on
what lies beyond the depth it needs. That depth is bounded by the room an execution has left: how
many of its nodes it may still enter, none of which stands twice on one way down.
-/
namespace Runbook

namespace Execution

variable {x y : Execution}

/-- How many nodes of its workflow an execution may still enter. -/
def room (x : Execution) : Nat := x.workflow.nodes.countP fun n => x.admits n.id

theorem Extends.admits (further : x.Extends y) {node : String} (admitted : y.admits node = true) :
    x.admits node = true := by
  have loop : y.hasLoopAt node = x.hasLoopAt node := by simp [hasLoopAt, further.workflow]
  unfold Execution.admits at *
  rw [loop, further.loops] at admitted
  split at admitted
  · simpa [*] using admitted
  · rename_i ordinary
    simp only [Bool.not_eq_true', List.contains_eq_mem, decide_eq_false_iff_not] at admitted
    simpa [ordinary] using fun seen => admitted (further.visited node seen)

theorem Extends.room_le (further : x.Extends y) : y.room ≤ x.room := by
  unfold room
  rw [further.workflow]
  exact List.countP_mono_left fun n _ admitted => further.admits admitted

theorem room_le_length (x : Execution) : x.room ≤ x.workflow.nodes.length := List.countP_le_length

theorem countP_lt_countP {α : Type} {p q : α → Bool} {items : List α} {a : α} (item : a ∈ items)
    (fewer : ∀ b, q b = true → p b = true) (before : p a = true) (after : q a = false) :
    items.countP q < items.countP p := by
  obtain ⟨s, t, rfl⟩ := List.append_of_mem item
  have first : s.countP q ≤ s.countP p := List.countP_mono_left fun b _ => fewer b
  have second : t.countP q ≤ t.countP p := List.countP_mono_left fun b _ => fewer b
  simp only [List.countP_append, List.countP_cons, before, after, if_true, Bool.false_eq_true,
    if_false]
  omega

/-- Room is lost where a node is not admitted any more. -/
theorem room_lt {node : String} {n : Node} (workflow : y.workflow = x.workflow)
    (fewer : ∀ other, y.admits other = true → x.admits other = true)
    (found : x.workflow.node? node = some n) (admitted : x.admits node = true)
    (closed : y.admits node = false) : y.room < x.room := by
  have name : n.id = node := by simpa using List.find?_some found
  unfold room
  rw [workflow]
  exact countP_lt_countP (List.mem_of_find?_eq_some found) (fun b => fewer b.id)
    (by rw [name]; exact admitted) (by rw [name]; exact closed)

end Execution

theorem Works.act_trans {id : String} {v w u : Scene} (first : Works (.act id) v w)
    (second : Works (.act id) w u) : Works (.act id) v u := by
  generalize same : Job.act id = j at first
  induction first with
  | rest => cases same; exact second
  | put others ih => cases same; exact .put (ih second rfl)
  | cancel known live active others ih => cases same; exact .cancel known live active (ih second rfl)
  | serve later others ih => cases same; exact .serve later (ih second rfl)
  | launch first others ih ihOthers => cases same; exact .launch first (ihOthers second rfl)
  | _ => cases same

namespace Workflow

/-- There is a limit for all loops, or each one has its own. -/
def Bounded (w : Workflow) (limit : Option Int) : Prop :=
  limit.isSome ∨ ∀ n ∈ w.nodes, n.kind ≠ .loop none

/-- Something bounds each loop. -/
theorem Bounded.isSome {w : Workflow} {limit : Option Int} {n : Node} {iterations : Option Nat}
    (bounded : w.Bounded limit) (member : n ∈ w.nodes) (kind : n.kind = .loop iterations) :
    limit.isSome ∨ iterations.isSome := by
  refine bounded.imp_right fun own => ?_
  cases iterations with
  | none => exact absurd kind (own n member)
  | some k => rfl

end Workflow

namespace Engine

/-- An execution has less room than this, and no loop of it runs out of rounds, unless that is a
failure. -/
structure Within (short short' : Run Bool) (room : Nat) (v : Scene) (x : Execution) : Prop where
  small : x.room < room
  spared : x.workflow.Bounded v.limit ∨ short = throw exhausted ∧ short' = throw exhausted

variable {v w : Scene} {id : String} {x y : Execution} {short short' : Run Bool}
  {enter enter' : String → Run Unit} {room : Nat}

theorem Within.later (within : Within short short' room v x) (further : x.Extends y)
    (limit : w.limit = v.limit) : Within short short' room w y where
  small := Nat.lt_of_le_of_lt further.room_le within.small
  spared := by rw [further.workflow, limit]; exact within.spared

/-- Two ways of entering nodes do the same, and follow the rules, where an execution has less room
than this. -/
def Alike (short short' : Run Bool) (enter enter' : String → Run Unit) (id : String) (room : Nat) :
    Prop :=
  ∀ (w : Scene) (y : Execution) (target : String), w.Proper → w.execution? id = some y →
    Within short short' room w y →
    Agree (enter target) (enter' target) w (fun _ u => Works (.enter id target) w u) never

/-- Starts on behalf of actions follow the rules. -/
def Launches (launch : Launch) : Prop :=
  ∀ (v : Scene) (id : String) (workflow payload : Value), v.Proper →
    Plays (launch workflow payload) v (fun _ w => Works (.act id) v w) fun _ w => Works (.act id) v w

theorem agree_followEach (alike : Alike short short' enter enter' id room) (connections : List Connection)
    (proper : v.Proper) (known : v.execution? id = some x) (within : Within short short' room v x) :
    Agree (followEach enter id connections) (followEach enter' id connections) v
      (fun _ w => Works (.follow id connections) v w) never := by
  induction connections generalizing v x with
  | nil => exact .pure .none
  | cons c rest ih =>
    refine (plays_isActive known).answer (.ite (fun active => ?_) fun past => ?_)
    · refine (alike v x c.target proper known within).andThen fun _ w work => ?_
      have kept := work.keeps proper
      obtain ⟨y, there, further⟩ := kept.further id x known
      refine (ih kept.proper there (within.later further kept.limit)).imp
        (fun _ u others => ?_) fun _ _ h => h
      exact .next known active work others
    · exact .pure (.stopped known (by simpa using past))

theorem agree_follow (alike : Alike short short' enter enter' id room) (proper : v.Proper)
    (known : v.execution? id = some x) (within : Within short short' room v x) (node : String) :
    Agree (follow enter id node) (follow enter' id node) v
      (fun _ w => Works (.follow id (x.workflow.outgoing node)) v w) never :=
  (plays_execution known).answer (agree_followEach alike _ proper known within)

theorem agree_runCondition (alike : Alike short short' enter enter' id room) {n : Node} {c : Condition}
    (kind : n.kind = .condition c) (proper : v.Proper) (known : v.execution? id = some x)
    (active : x.isActive = true) (within : Within short short' room v x) :
    Agree (runCondition enter id n c) (runCondition enter' id n c) v
      (fun _ w => Works (.node id n none) v w) fun f w => Works (.node id n (some f)) v w := by
  refine (plays_execution known).answer ?_
  cases value : c.evaluate x.vars with
  | error f => exact .throw (.misjudged known active kind value)
  | ok result =>
    refine (plays_say (.evaluated n.id c result) known proper.steady).after fun _ => ?_
    have told := proper.keeps_say (i := id) (.evaluated n.id c result)
    obtain ⟨y, there, further⟩ := told.further id x known
    cases found : x.workflow.connection? n.id (truthName result) with
    | none =>
      refine Agree.safe ((plays_say (.unconnected n.id (truthName result)) there
        told.proper.steady).imp (fun _ w here => ?_) fun _ _ h => h)
      rw [here]
      exact .unconnected known active kind value found
    | some connection =>
      refine Agree.safe ((alike _ y connection.target told.proper there
        (within.later further told.limit)).imp (fun _ w work => ?_) fun _ _ h => h)
      exact .judged known active kind value found work

/-- Storage work of which nothing is followed but the ids that it takes. -/
theorem plays_quiet {α : Type} {op : StorageM α} (quiet : Storage.Quiet op) (steady : v.faulty = false) :
    Plays (liftM op) v (fun _ w => ∃ n, v.next ≤ n ∧ w = { v with next := n })
      fun _ w => ∃ n, v.next ≤ n ∧ w = { v with next := n } := by
  refine .lift fun s same => (quiet.ends (same ▸ steady)).imp ?_ ?_ <;>
  · rintro _ t ⟨n, later, here⟩
    exact ⟨n, by rw [← same]; exact later, by rw [here, same]⟩

theorem plays_serve {α : Type} {op : StorageM α} (quiet : Storage.Quiet op) (proper : v.Proper) :
    Plays (liftM op) v (fun _ w => Works (.act id) v w) fun _ w => Works (.act id) v w := by
  refine (plays_quiet quiet proper.steady).imp ?_ ?_ <;>
  · rintro _ w ⟨n, later, here⟩
    rw [here]
    exact .serve later .rest

theorem plays_cancel (proper : v.Proper) (other : String) :
    Plays (cancel other) v (fun b w =>
      (b = true ∧ ∃ x, v.execution? other = some x ∧ v.live.contains other = true ∧
        x.isActive = true ∧ w = v.cancel other) ∨
      b = false ∧ w = v ∧ (v.live.contains other = true → ∀ x, v.execution? other = some x →
        x.isActive = false)) never := by
  by_cases running : v.live.contains other = true ∧
      ∃ x, v.execution? other = some x ∧ x.isActive = true
  · obtain ⟨live, x, known, active⟩ := running
    refine (plays_cancel_of_active known live active (proper.stored other x known)
      proper.steady).imp ?_ fun _ _ h => h
    rintro b w ⟨yes, here⟩
    exact .inl ⟨yes, x, known, live, active, here⟩
  · have past : v.live.contains other = true → ∀ x, v.execution? other = some x →
        x.isActive = false := by
      intro live x known
      exact Bool.eq_false_iff.2 fun active => running ⟨live, x, known, active⟩
    refine (plays_cancel_of_over past).imp ?_ fun _ _ h => h
    rintro b w ⟨no, here⟩
    exact .inr ⟨no, here, past⟩

theorem plays_perform {launch : Launch} (launches : Launches launch) (r : Action.Request)
    (proper : v.Proper) :
    Plays (perform launch r) v (fun _ w => Works (.act id) v w) fun _ w => Works (.act id) v w := by
  cases r with
  | cancel other =>
    refine Agree.safe ((plays_cancel proper other.display).imp ?_ fun _ _ h => h)
    rintro b w (⟨-, x, known, live, active, here⟩ | ⟨-, here, -⟩)
    · rw [here]; exact .cancel known live active .rest
    · rw [here]; exact .rest
  | start workflow payload => exact launches v id workflow payload proper
  | createTicket draft => exact plays_serve (Storage.quiet_createTicket draft) proper
  | updateTicket ticket updates => exact plays_serve (Storage.quiet_updateTicket ticket updates) proper
  | assignTicket ticket assignee =>
    exact plays_serve (Storage.quiet_assignTicket ticket (.text assignee)) proper
  | notify announcement => exact plays_serve (Storage.quiet_notify announcement) proper
  | createArticle draft => exact plays_serve (Storage.quiet_createArticle draft) proper
  | http method url headers body timeout =>
    refine .get fun e here => ?_
    refine .bind (m := fun _ w => w = v) (.ofExcept (fun _ _ => rfl) fun _ _ => .rest) ?_
    intro request w same
    rw [same]
    refine .get fun e here => .after (w := v) (.modify fun e here => ?_) fun _ => ?_
    · rw [← here]; rfl
    · exact .ofExcept (fun _ _ => .rest) fun _ _ => .rest

/-- An action does what its script asks for, and answers what the script may answer. -/
theorem plays_script {launch : Launch} (launches : Launches launch) {α : Type}
    (script : Action.Script α) (proper : v.Proper) :
    Plays (script.run (perform launch) (putVariable id)) v
      (fun a w => Works (.act id) v w ∧ script.MayAnswer a) fun _ w => Works (.act id) v w := by
  induction script generalizing v with
  | done a => exact .pure ⟨.rest, .done⟩
  | fail f => exact .throw .rest
  | put key value next ih =>
    refine (plays_modifyExecution (by intro; rfl)).after fun _ => ?_
    have changed : (v.alter id fun x => { x with vars := Dict.put x.vars key value }).Proper :=
      proper.alter fun _ => rfl
    refine (ih changed).imp ?_ fun _ w others => .put others
    rintro a w ⟨others, answer⟩
    exact ⟨.put others, .put answer⟩
  | ask r next ih =>
    refine .andThen (m := fun _ w => Works (.act id) v w)
      (.observe (plays_perform launches r proper)) fun answer w first => ?_
    refine (ih answer (first.keeps proper).proper).imp ?_ fun _ u others => first.act_trans others
    rintro a u ⟨others, last⟩
    exact ⟨first.act_trans others, .ask answer last⟩

theorem plays_dispatch {launch : Launch} (launches : Launches launch) (proper : v.Proper)
    (known : v.execution? id = some x) (actionType : String) (config : Dict) :
    Plays (dispatch launch id actionType config) v
      (fun value w => Works (.act id) v w ∧
        (v.registry.script actionType config x.caller).MayAnswer value)
      fun _ w => Works (.act id) v w := by
  refine .get fun e here => ?_
  have registry : e.registry = v.registry := congrArg Scene.registry here
  rw [registry]
  exact (plays_execution known).answer (plays_script launches _ proper)

theorem agree_runAction {launch : Launch} (launches : Launches launch)
    (alike : Alike short short' enter enter' id room) {n : Node} {actionType : String}
    (kind : n.kind = .action actionType) (proper : v.Proper) (known : v.execution? id = some x)
    (active : x.isActive = true) (within : Within short short' room v x) :
    Agree (runAction launch enter id n actionType) (runAction launch enter' id n actionType) v
      (fun _ w => Works (.node id n none) v w) fun f w => Works (.node id n (some f)) v w := by
  refine (plays_say (.executing n.id actionType) known proper.steady).after fun _ => ?_
  have told := proper.keeps_say (i := id) (.executing n.id actionType)
  obtain ⟨y, there, further⟩ := told.further id x known
  refine .bind ((plays_dispatch launches told.proper there actionType n.config).imp
    (fun _ w work => work) fun f w work => .misacted known active kind work) ?_
  rintro summary w ⟨work, answer⟩
  refine .bind (m := fun text u => u = w ∧ summaryText actionType summary = .ok text)
    (.ofExcept (fun _ text => ⟨rfl, text⟩) fun f _ => .misacted known active kind work) ?_
  rintro text u ⟨here, text_⟩
  have said : v.registry.Says text := ⟨actionType, n.config, y.caller, summary, answer, text_⟩
  rw [here]
  have acted := told.trans (work.keeps told.proper)
  obtain ⟨z, there, further⟩ := acted.further id x known
  refine (plays_say (.summary n.id text) there acted.proper.steady).after fun _ => ?_
  have summed := acted.trans (acted.proper.keeps_say (i := id) (.summary n.id text))
  obtain ⟨z, there, further⟩ := summed.further id x known
  refine Agree.safe ((agree_follow alike summed.proper there
    (within.later further summed.limit) n.id).imp (fun _ u rest => ?_) fun _ _ h => h)
  exact .action known active kind said work (further.workflow ▸ rest)

/-- A running execution waits for one more branch, and a timer is set for it. -/
theorem plays_scheduleContinuation (known : v.execution? id = some x) (active : x.isActive = true)
    (node : String) (seconds : Float) (marker : Nat) :
    Plays (scheduleContinuation id node seconds marker) v
      (fun _ w => w = v.arm id node seconds marker) never := by
  refine (plays_isActive known).answer ?_
  simp only [active, if_true]
  refine .get fun e here => ?_
  have clock : e.clock = v.clock := by rw [← here]; rfl
  simp only [clock]
  refine (plays_clock fun _ => (v.clock.schedule seconds id node marker).2).after fun _ => ?_
  exact plays_modifyExecution (by intro; rfl)

theorem plays_saveMarker (proper : v.Proper) (known : v.execution? id = some x) (node : String)
    (resumeAt : Instant) :
    Plays (liftM (Storage.saveMarker id node resumeAt x.snapshot)) v
      (fun m w => m = v.nextMarker ∧ w = v.mark id node resumeAt) never := by
  refine .lift fun s same => ?_
  refine (Storage.ends_saveMarker (same ▸ proper.steady) id node resumeAt x.snapshot).imp ?_
    fun _ _ h => h
  rintro m t ⟨number, here⟩
  rw [here, number, same]
  exact ⟨rfl, by simp [Scene.mark, known]⟩

/-- The end of a branch at a delay: its marker is kept, and its timer is set. -/
def delayFor (id node : String) (snapshot : Value) (seconds : Float) (resumeAt : Instant) :
    Run Unit := do
  let marker ← Storage.saveMarker id node resumeAt snapshot
  logInfo id ("Delay scheduled: " ++ Decimal.general seconds ++ " seconds") node
  scheduleContinuation id node seconds marker

theorem plays_delayFor (proper : v.Proper) (known : v.execution? id = some x)
    (active : x.isActive = true) (node : String) (seconds : Float) (resumeAt : Instant) :
    Plays (delayFor id node x.snapshot seconds resumeAt) v
      (fun _ w => w = v.suspend id node seconds resumeAt) never := by
  refine (plays_saveMarker proper known node resumeAt).answer ?_
  have marked : (v.mark id node resumeAt).Proper :=
    proper.of_toPart rfl rfl rfl (Nat.le_refl _) fun _ pending => pending
  have there : (v.mark id node resumeAt).execution? id = some x := known
  refine (plays_say (.delaying node seconds) there marked.steady).after fun _ => ?_
  refine plays_scheduleContinuation (x := { x with
    logs := x.logs ++ [(Remark.delaying node seconds).entry x.path] }) ?_ active node seconds v.nextMarker
  simp [Scene.mark, known]

theorem plays_runDelay {n : Node} {amount : Value} {unit : String}
    (kind : n.kind = .delay amount unit) (proper : v.Proper) (known : v.execution? id = some x)
    (active : x.isActive = true) :
    Plays (runDelay id n amount unit) v (fun _ w => Works (.node id n none) v w)
      fun f w => Works (.node id n (some f)) v w := by
  refine (plays_execution known).answer ?_
  refine .bind (m := fun seconds w => w = v ∧ delaySeconds x.vars n.id amount unit = .ok seconds)
    (.ofExcept (fun _ length => ⟨rfl, length⟩) fun f why => .misdelayed known active kind (.inl why)) ?_
  rintro seconds w ⟨here, length⟩
  rw [here]
  refine .get fun e here => ?_
  have clock : e.clock = v.clock := by rw [← here]; rfl
  rw [clock]
  refine .bind (m := fun resumeAt w => w = v ∧ Instant.ofSeconds (v.clock.now + seconds) = .ok resumeAt)
    (.ofExcept (fun _ due => ⟨rfl, due⟩) fun f why => .misdelayed known active kind (.inr ⟨_, why⟩)) ?_
  rintro resumeAt w ⟨here, due⟩
  rw [here]
  refine Agree.safe ((plays_delayFor proper known active n.id seconds resumeAt).imp (fun _ w here => ?_)
    fun _ _ h => h)
  rw [here]
  exact .delay known active kind length due

/-- Rounds that suffice for a loop that has begun so many iterations, if anything bounds it. -/
def Enough (iterations : Option Nat) (limit : Option Int) (rounds : Nat) (count : Int) : Prop :=
  (iterations.isSome ∨ limit.isSome) → 0 < rounds ∧
    ((∃ n, iterations = some n ∧ (n : Int) - count < rounds) ∨
      ∃ l, limit = some l ∧ l - count < rounds)

theorem enough_roundsFor (iterations : Option Nat) (limit : Option Int) (count : Int) :
    Enough iterations limit (roundsFor iterations limit count) count := by
  intro bounded
  rcases iterations with _ | n <;> rcases limit with _ | l <;> dsimp only [roundsFor]
  · simp at bounded
  · exact ⟨Nat.succ_pos _, .inr ⟨l, rfl, by omega⟩⟩
  · exact ⟨Nat.succ_pos _, .inl ⟨n, rfl, by omega⟩⟩
  · refine ⟨Nat.succ_pos _, ?_⟩
    by_cases lower : (n : Int) ≤ l
    · exact .inl ⟨n, rfl, by omega⟩
    · exact .inr ⟨l, rfl, by omega⟩

/-- An iteration within the bounds leaves rounds enough for the others. -/
theorem Enough.next {iterations : Option Nat} {limit : Option Int} {rounds : Nat} {count later : Int}
    (enough : Enough iterations limit (rounds + 1) count) (more : count + 1 ≤ later)
    (due : ∀ n, iterations = some n → count + 1 ≤ (n : Int))
    (allowed : ∀ l, limit = some l → count + 1 ≤ l) : Enough iterations limit rounds later := by
  intro bounded
  obtain ⟨-, ⟨n, times, left⟩ | ⟨l, bound, left⟩⟩ := enough bounded
  · have := due n times
    exact ⟨by omega, .inl ⟨n, times, by omega⟩⟩
  · have := allowed l bound
    exact ⟨by omega, .inr ⟨l, bound, by omega⟩⟩

/-- One iteration of a loop, and what comes after it. -/
def turn (enter : String → Run Unit) (id node body : String) (iterations : Option Nat) (count : Int)
    (others : Run Bool) : Run Bool := do
  logInfo id ("Loop iteration " ++ toString count ++ "/" ++
    ((iterations.map toString).getD "infinite")) node
  let before := (← execution id).visited
  enter body
  modifyExecution id fun x => { x with visited := before }
  others

theorem agree_turn (alike : Alike short short' enter enter' id room) {node body : String}
    {iterations : Option Nat} {others others' : Run Bool} (proper : v.Proper)
    (known : v.execution? id = some x) (active : x.isActive = true) (within : Within short short' room v x)
    (due : v.mayIterate iterations (x.counter node + 1) = true)
    (next : ∀ w y, w.Proper → w.execution? id = some y → Within short short' room w y →
      x.counter node + 1 ≤ y.counter node → w.limit = v.limit →
      Agree others others' w (fun done u => Works (.iterate id node body iterations (.ok done)) w u)
        fun f u => Works (.iterate id node body iterations (.error f)) w u) :
    Agree (turn enter id node body iterations (x.counter node + 1) others)
      (turn enter' id node body iterations (x.counter node + 1) others')
      (v.alter id (·.setCounter node (x.counter node + 1)))
      (fun done w => Works (.iterate id node body iterations (.ok done)) v w)
      fun f w => Works (.iterate id node body iterations (.error f)) v w := by
  have counted := proper.keeps_count known node
  have there : (v.alter id (·.setCounter node (x.counter node + 1))).execution? id =
      some (x.setCounter node (x.counter node + 1)) := by simp [known]
  refine (plays_say (.iteration node (x.counter node + 1) iterations) there
    counted.proper.steady).after fun _ => ?_
  have told := counted.proper.keeps_say (i := id) (.iteration node (x.counter node + 1) iterations)
  obtain ⟨y, here, further⟩ := told.further id _ there
  have spoken : y.visited = x.visited := by
    simp only [Scene.execution?_say, if_true, there, Option.map_some, Option.some.injEq] at here
    rw [← here]
    rfl
  have smaller := within.later ((Execution.Extends.setCounter x node).trans further)
    (counted.trans told).limit
  refine (plays_execution here).answer ?_
  refine (alike _ y body told.proper here smaller).andThen fun _ w first => ?_
  rw [spoken]
  have walked := (counted.trans told).trans (first.keeps told.proper)
  have forgot := walked.forget known
  obtain ⟨z, found, beyond⟩ := forgot.further id x known
  have grown : x.counter node + 1 ≤ z.counter node := by
    obtain ⟨u, held, since⟩ := ((told.trans (first.keeps told.proper)).forget there).further id _ there
    have same : u = z := Option.some.inj (held.symm.trans found)
    have more := since.counters node
    rwa [Execution.counter_setCounter_self, same] at more
  refine (plays_modifyExecution (by intro; rfl)).after fun _ => ?_
  refine (next _ z forgot.proper found (within.later beyond forgot.limit) grown
    forgot.limit).imp ?_ ?_ <;>
  · intro _ u others
    exact .iterated known active due first others

/-- An iteration that the limit of the engine allows goes on, and any other fails. -/
theorem agree_limited {m m' : Run Bool} {u : Scene} {node : String} {count : Int}
    {good : Bool → Scene → Prop} {bad : Failure → Scene → Prop}
    (beyond : ∀ l, u.limit = some l → l < count → bad (.program (.loopLimit node l)) u)
    (allowed : (∀ l, u.limit = some l → count ≤ l) → Agree m m' u good bad) :
    Agree (do
        match (← get).loopLimit with
        | some limit => if limit < count then throw (.program (.loopLimit node limit))
        | none => Pure.pure ()
        m)
      (do
        match (← get).loopLimit with
        | some limit => if limit < count then throw (.program (.loopLimit node limit))
        | none => Pure.pure ()
        m') u good bad := by
  refine .get fun e here => ?_
  have same : e.loopLimit = u.limit := congrArg Scene.limit here
  rw [same]
  cases limit : u.limit with
  | none => exact allowed (by simp [limit])
  | some l =>
    refine .ite (fun past => ?_) fun within => allowed ?_
    · exact .bind (m := fun _ _ => False) (.throw (beyond l limit past)) fun _ _ h => h.elim
    · intro k bound
      rw [limit] at bound
      cases bound
      exact Int.not_lt.1 within

theorem agree_iterate (alike : Alike short short' enter enter' id room) (node body : String)
    (iterations : Option Nat) (rounds : Nat) (proper : v.Proper) (known : v.execution? id = some x)
    (within : Within short short' room v x)
    (sure : (iterations.isSome ∨ v.limit.isSome) ∨ short = throw exhausted ∧ short' = throw exhausted)
    (enough : Enough iterations v.limit rounds (x.counter node)) :
    Agree (iterate short enter id node body iterations rounds)
      (iterate short' enter' id node body iterations rounds) v
      (fun done w => Works (.iterate id node body iterations (.ok done)) v w)
      fun f w => Works (.iterate id node body iterations (.error f)) v w := by
  induction rounds generalizing v x with
  | zero =>
    have unbounded : ¬(iterations.isSome ∨ v.limit.isSome) := fun bounded =>
      Nat.lt_irrefl 0 (enough bounded).1
    obtain ⟨rfl, rfl⟩ := sure.resolve_left unbounded
    simp only [not_or, Option.not_isSome_iff_eq_none] at unbounded
    obtain ⟨rfl, limit⟩ := unbounded
    exact .throw (.exhausted limit)
  | succ rounds ih =>
    refine (plays_execution known).answer ?_
    cases active : x.isActive with
    | false => exact .pure (.given known active)
    | true =>
      simp only [Bool.not_true, Bool.false_eq_true, if_false]
      refine (plays_modifyExecution (by intro; rfl)).after fun _ => ?_
      have counted := proper.keeps_count known node
      have there : (v.alter id (·.setCounter node (x.counter node + 1))).execution? id =
          some (x.setCounter node (x.counter node + 1)) := by simp [known]
      -- Within the bounds there is one more iteration, and the others have rounds enough.
      have iteration (due : ∀ n, iterations = some n → x.counter node + 1 ≤ (n : Int))
          (allowed : ∀ l, v.limit = some l → x.counter node + 1 ≤ l) :
          Agree (turn enter id node body iterations (x.counter node + 1)
              (iterate short enter id node body iterations rounds))
            (turn enter' id node body iterations (x.counter node + 1)
              (iterate short' enter' id node body iterations rounds))
            (v.alter id (·.setCounter node (x.counter node + 1)))
            (fun done w => Works (.iterate id node body iterations (.ok done)) v w)
            fun f w => Works (.iterate id node body iterations (.error f)) v w := by
        refine agree_turn alike proper known active within ?_ fun w y proper known within more limit =>
          ih proper known within (by rw [limit]; exact sure) ?_
        · exact Scene.mayIterate_iff.2 ⟨due, allowed⟩
        · rw [limit]
          exact enough.next more due allowed
      have limited (due : ∀ n, iterations = some n → x.counter node + 1 ≤ (n : Int)) :=
        agree_limited (u := v.alter id (·.setCounter node (x.counter node + 1)))
          (fun _ limit past => Works.limited known active due limit past) (iteration due)
      cases iterations with
      | none => exact limited (by simp)
      | some n =>
        refine .ite (fun past => ?_) fun within => limited ?_
        · refine (plays_say (.looped node n) there counted.proper.steady).after fun _ => ?_
          exact .pure (.completed known active past)
        · rintro m ⟨⟩
          exact Int.not_lt.1 within

theorem agree_runLoop {n : Node} {iterations : Option Nat} (kind : n.kind = .loop iterations)
    (proper : v.Proper) (known : v.execution? id = some x) (active : x.isActive = true)
    (member : n ∈ x.workflow.nodes) (idle : n.id ∉ x.activeLoops)
    (alike : Alike short short' enter enter' id room)
    (within : Within short short' room v { x with activeLoops := x.activeLoops ++ [n.id] }) :
    Agree (runLoop short enter id n iterations) (runLoop short' enter' id n iterations) v
      (fun _ w => Works (.node id n none) v w) fun f w => Works (.node id n (some f)) v w := by
  refine (plays_execution known).answer ?_
  cases found : x.workflow.connection? n.id "body" with
  | none =>
    refine Agree.safe ((plays_say (.bodiless n.id) known proper.steady).imp (fun _ w here => ?_)
      fun _ _ h => h)
    rw [here]
    exact .bodiless known active kind found
  | some body =>
    refine (plays_modifyExecution (by intro; rfl)).after fun _ => ?_
    have inside : (v.alter id fun x => { x with activeLoops := x.activeLoops ++ [n.id] }).Proper :=
      proper.alter fun _ => rfl
    have there : (v.alter id fun x => { x with activeLoops := x.activeLoops ++ [n.id] }).execution? id =
        some { x with activeLoops := x.activeLoops ++ [n.id] } := by simp [known]
    refine .andAlways
      (m := fun _ w => ∃ u done, Works (.iterate id n.id body.target iterations (.ok done))
        (v.alter id fun x => { x with activeLoops := x.activeLoops ++ [n.id] }) u ∧
        ((done = true → x.workflow.connection? n.id "exit" = none) ∧ w = u ∨
          done = true ∧ ∃ exit, x.workflow.connection? n.id "exit" = some exit ∧
            Works (.enter id exit.target) u w))
      (n := fun f w => Works (.iterate id n.id body.target iterations (.error f))
        (v.alter id fun x => { x with activeLoops := x.activeLoops ++ [n.id] }) w) ?_ ?_ ?_
    · refine .get fun e here => ?_
      have limit : e.loopLimit = v.limit := congrArg Scene.limit here
      rw [limit]
      have sure : (iterations.isSome ∨ v.limit.isSome) ∨
          short = throw exhausted ∧ short' = throw exhausted :=
        within.spared.imp_left fun bounded => (bounded.isSome member kind).symm
      refine .bind (agree_iterate alike n.id body.target iterations _ inside there
        ⟨within.small, within.spared⟩ sure
        (enough_roundsFor _ _ _)) fun done u work => ?_
      refine .ite (fun yes => ?_) fun no => .pure ⟨u, done, work, .inl ⟨fun h => absurd h no, rfl⟩⟩
      cases way : x.workflow.connection? n.id "exit" with
      | none => exact .pure ⟨u, done, work, .inl ⟨fun _ => rfl, rfl⟩⟩
      | some exit =>
        have kept := work.keeps inside
        obtain ⟨y, held, further⟩ := kept.further id _ there
        refine Agree.safe ((alike u y exit.target kept.proper held
          (within.later further kept.limit)).imp (fun _ w rest => ?_) fun _ _ h => h)
        exact ⟨u, done, work, .inr ⟨yes, exit, rfl, rest⟩⟩
    · rintro _ w ⟨u, done, work, ⟨nowhere, here⟩ | ⟨yes, exit, way, rest⟩⟩
      · rw [here]
        refine Agree.safe ((plays_modifyExecution (by intro; rfl)).imp (fun _ t here => ?_)
          fun _ _ h => h)
        rw [here]
        exact .leave known active kind found idle work nowhere
      · rw [yes] at work
        refine Agree.safe ((plays_modifyExecution (by intro; rfl)).imp (fun _ t here => ?_)
          fun _ _ h => h)
        rw [here]
        exact .exit known active kind found idle work way rest
    · intro f w work
      refine Agree.safe ((plays_modifyExecution (by intro; rfl)).imp (fun _ t here => ?_)
        fun _ _ h => h)
      rw [here]
      exact .misiterated known active kind found idle work

/-- What a node does once it has been entered. -/
theorem agree_runNode {launch : Launch} (launches : Launches launch) {n : Node}
    (proper : v.Proper) (known : v.execution? id = some x) (active : x.isActive = true)
    (member : n ∈ x.workflow.nodes) (idle : n.isLoop = true → n.id ∉ x.activeLoops)
    (alike : Alike short short' enter enter' id room)
    (within : n.isLoop = false → Within short short' room v x)
    (inside : n.isLoop = true →
      Within short short' room v { x with activeLoops := x.activeLoops ++ [n.id] }) :
    Agree (runNode launch short enter id n) (runNode launch short' enter' id n) v
      (fun _ w => Works (.node id n none) v w) fun f w => Works (.node id n (some f)) v w := by
  unfold runNode
  cases kind : n.kind with
  | trigger event =>
    have ordinary : n.isLoop = false := by simp [Node.isLoop, kind]
    refine (plays_say (.triggered n.id event) known proper.steady).after fun _ => ?_
    have told := proper.keeps_say (i := id) (.triggered n.id event)
    obtain ⟨y, there, further⟩ := told.further id x known
    refine Agree.safe ((agree_follow alike told.proper there
      ((within ordinary).later further told.limit) n.id).imp (fun _ w rest => ?_)
      fun _ _ h => h)
    exact .trigger known active kind (further.workflow ▸ rest)
  | junction junctionType =>
    have ordinary : n.isLoop = false := by simp [Node.isLoop, kind]
    refine (plays_say (.joined n.id junctionType) known proper.steady).after fun _ => ?_
    have told := proper.keeps_say (i := id) (.joined n.id junctionType)
    obtain ⟨y, there, further⟩ := told.further id x known
    refine Agree.safe ((agree_follow alike told.proper there
      ((within ordinary).later further told.limit) n.id).imp (fun _ w rest => ?_)
      fun _ _ h => h)
    exact .junction known active kind (further.workflow ▸ rest)
  | condition c =>
    have ordinary : n.isLoop = false := by simp [Node.isLoop, kind]
    exact agree_runCondition alike kind proper known active (within ordinary)
  | action actionType =>
    have ordinary : n.isLoop = false := by simp [Node.isLoop, kind]
    exact agree_runAction launches alike kind proper known active (within ordinary)
  | delay amount unit => exact plays_runDelay kind proper known active
  | loop iterations =>
    have loop : n.isLoop = true := by simp [Node.isLoop, kind]
    exact agree_runLoop kind proper known active member (idle loop) alike (inside loop)

/-- A node that is entered is not admitted below it. -/
theorem room_enter {node : String} {n : Node} (found : x.workflow.node? node = some n)
    (admitted : x.admits node = true) :
    (n.isLoop = true → n.id ∉ (x.enter node).activeLoops) ∧
    (n.isLoop = false → (x.enter node).room < x.room) ∧
    (n.isLoop = true →
      { x.enter node with activeLoops := (x.enter node).activeLoops ++ [n.id] }.room < x.room) := by
  have name : n.id = node := by simpa using List.find?_some found
  have at_ : x.hasLoopAt node = n.isLoop := by simp [Execution.hasLoopAt, found]
  have entered : x.Extends (x.enter node) := .enter x node
  refine ⟨fun loop => ?_, fun ordinary => ?_, fun loop => ?_⟩
  · change n.id ∉ x.activeLoops
    rw [name]
    simpa [Execution.admits, at_, loop] using admitted
  · refine Execution.room_lt rfl (fun other => entered.admits) found admitted ?_
    have here : (x.enter node).hasLoopAt node = false := at_.trans ordinary
    have seen : node ∈ (x.enter node).visited := Execution.mem_visited_enter.2 (.inl rfl)
    simp [Execution.admits, here, seen]
  · have here : { x.enter node with
        activeLoops := (x.enter node).activeLoops ++ [n.id] }.hasLoopAt node = true := at_.trans loop
    refine Execution.room_lt rfl (fun other admits => entered.admits ?_) found admitted ?_
    · have same : { x.enter node with
          activeLoops := (x.enter node).activeLoops ++ [n.id] }.hasLoopAt other =
          (x.enter node).hasLoopAt other := rfl
      unfold Execution.admits at admits ⊢
      rw [same] at admits
      split at admits
      · rename_i isLoop
        simp only [isLoop, if_true]
        simp only [List.contains_eq_mem, List.mem_append, List.mem_singleton, Bool.not_eq_true',
          decide_eq_false_iff_not, not_or] at admits
        simpa using admits.1
      · rename_i isOther
        simpa [isOther] using admits
    · rw [Execution.admits, here]
      simp [name]

theorem agree_enterNode {launch : Launch} (launches : Launches launch) {node : String}
    (proper : v.Proper) (known : v.execution? id = some x)
    (spared : x.workflow.Bounded v.limit ∨ short = throw exhausted ∧ short' = throw exhausted)
    (alike : Alike short short' enter enter' id x.room) :
    Agree (enterNode launch short enter id node) (enterNode launch short' enter' id node) v
      (fun _ w => Works (.enter id node) v w) never := by
  refine (plays_execution known).answer ?_
  cases active : x.isActive with
  | false => exact .pure (.idle known active)
  | true =>
    simp only [Bool.not_true, Bool.false_eq_true, if_false]
    refine .ite (fun again => ?_) fun other => .ite (fun back => ?_) fun free => ?_
    · simp only [Bool.and_eq_true, List.contains_eq_mem, decide_eq_true_eq,
        Bool.not_eq_true'] at again
      refine (plays_say (.repeated node) known proper.steady).after fun _ => ?_
      exact .pure (.again known active again.2 again.1)
    · simp only [Bool.and_eq_true, List.contains_eq_mem, decide_eq_true_eq] at back
      exact .pure (.back known active back.1 back.2)
    have admitted : x.admits node = true := by
      unfold Execution.admits Execution.hasLoopAt
      cases loop : (x.workflow.node? node).any Node.isLoop <;> simp_all
    refine (plays_modifyExecution (by intro; rfl)).after fun _ => ?_
    have there : (v.alter id (·.enter node)).execution? id = some (x.enter node) := by simp [known]
    have entered : (v.alter id (·.enter node)).Proper := proper.alter fun _ => rfl
    cases found : x.workflow.node? node with
    | none =>
      refine (plays_say (.missing node) there entered.steady).imp (fun _ w here => ?_) fun _ _ h => h
      rw [here]
      exact .missing known active admitted found
    | some n =>
      obtain ⟨idle, small, smaller⟩ := room_enter found admitted
      refine (plays_say (.processing node n) there entered.steady).after fun _ => ?_
      have told := entered.keeps_say (i := id) (.processing node n)
      have spoken : ((v.alter id (·.enter node)).say id (.processing node n)).execution? id =
          some { x.enter node with
            logs := x.logs ++ [(Remark.processing node n).entry (x.enter node).path] } := by
        simp [known, Execution.enter]
      refine .tryCatch (agree_runNode launches told.proper spoken active
        (List.mem_of_find?_eq_some found) idle alike (fun ordinary => ⟨small ordinary, spared⟩)
        (fun loop => ⟨smaller loop, spared⟩) |>.imp
        (fun _ w work => .handled known active admitted found work) fun _ _ h => h) fun f w work => ?_
      have kept := work.keeps told.proper
      obtain ⟨y, held, -⟩ := kept.further id _ spoken
      refine (plays_isActive held).answer (.ite (fun running => ?_) fun past => ?_)
      · refine (plays_say (.broken node f.text) held kept.proper.steady).after fun _ => ?_
        have said := kept.proper.keeps_say (i := id) (.broken node f.text)
        refine (plays_fail_of_active (x := { y with
            logs := y.logs ++ [(Remark.broken node f.text).entry y.path] }) (by simp [held]) running
          (said.proper.stored id _ (by simp [held]; rfl)) said.proper.steady f.text).imp
          (fun _ u here => ?_) fun _ _ h => h
        rw [here]
        exact .broken known active admitted found work held running
      · exact .pure (.lost known active admitted found work held (by simpa using past))

/-- Walks from a node; `bottom` says what is done below a depth, and `short` what is done by a loop
that runs out of rounds. -/
def walkFrom (launch : Launch) (id : String) (short : Run Bool) (bottom : String → Run Unit) :
    Nat → String → Run Unit
  | 0, node => bottom node
  | depth + 1, node => enterNode launch short (walkFrom launch id short bottom depth) id node

theorem walk_eq_walkFrom (launch : Launch) (id : String) (depth : Nat) :
    walk launch id depth = walkFrom launch id (throw exhausted) (fun _ => throw exhausted) depth := by
  induction depth with
  | zero => rfl
  | succ depth ih =>
    funext node
    simp only [walk, walkFrom, ih]

/-- A walk that is given more depth than there is room never fails, follows the rules, and does not
depend on how much deeper it might go, nor on what is done without rounds where no loop runs out of
them. -/
theorem agree_walkFrom {launch : Launch} (launches : Launches launch) (short short' : Run Bool)
    (bottom bottom' : String → Run Unit) (depth depth' : Nat) (node : String) (proper : v.Proper)
    (known : v.execution? id = some x)
    (spared : x.workflow.Bounded v.limit ∨ short = throw exhausted ∧ short' = throw exhausted)
    (deep : x.room < depth) (deep' : x.room < depth') :
    Agree (walkFrom launch id short bottom depth node)
      (walkFrom launch id short' bottom' depth' node) v
      (fun _ w => Works (.enter id node) v w) never := by
  induction depth generalizing depth' v x node with
  | zero => exact absurd deep (Nat.not_lt_zero _)
  | succ depth ih =>
    obtain _ | depth' := depth'
    · exact absurd deep' (Nat.not_lt_zero _)
    refine agree_enterNode launches proper known spared fun w y target proper known within => ?_
    have small := within.small
    exact ih depth' target proper known within.spared (by omega) (by omega)

theorem plays_walk {launch : Launch} (launches : Launches launch) {depth : Nat} (node : String)
    (proper : v.Proper) (known : v.execution? id = some x) (deep : x.room < depth) :
    Plays (walk launch id depth node) v (fun _ w => Works (.enter id node) v w) never := by
  rw [walk_eq_walkFrom]
  exact agree_walkFrom launches _ _ _ _ _ _ node proper known (.inr ⟨rfl, rfl⟩) deep deep

end Engine

end Runbook
