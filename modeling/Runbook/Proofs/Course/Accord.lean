import Runbook.Proofs.Course.Alone
import Runbook.Proofs.Course.Bond

/-!
Two engines in accord. Where the actions of a workflow only assign variables, a walk through one of
its executions touches nothing of an engine but what belongs to that execution. So a relation between
the scenes of two engines is kept by a walk in both, and by all that goes around it, when it is kept
by the few changes that one execution makes of a scene.
-/
namespace Runbook

/-- What a node does, if it is an action, is to assign a variable. -/
def Node.Gentle (n : Node) : Prop :=
  ∀ actionType, n.kind = .action actionType → actionType = "set_variable"

/-- The actions of a sound workflow are assignments of variables. -/
structure Workflow.Gentle (w : Workflow) : Prop where
  sound : w.Sound
  nodes : ∀ n ∈ w.nodes, n.Gentle

/-- Variables are assigned by the action that is built in. -/
def Action.Registry.Assigns (r : Action.Registry) : Prop :=
  r.handler? "set_variable" = some Action.Builtin.setVariable

namespace Action

/-- An assignment fails, or it puts one value. -/
theorem Builtin.setVariable_eq (config : Dict) (caller : Caller) :
    (∃ f, Builtin.setVariable config caller = .fail f) ∨
      ∃ key v a, Builtin.setVariable config caller = .put key v (.done a) := by
  unfold Builtin.setVariable
  dsimp only
  split
  · exact .inl ⟨_, rfl⟩
  · cases Builtin.variableKey (Dict.getD config "name") with
    | error f => exact .inl ⟨f, rfl⟩
    | ok key => exact .inr ⟨key, _, _, rfl⟩

/-- What an assignment does depends on nothing of its execution but the variables. -/
theorem Registry.script_of_assigns {r r' : Registry} (assigns : r.Assigns) (assigns' : r'.Assigns)
    (config : Dict) {caller caller' : Caller} (same : caller'.vars = caller.vars) :
    r'.script "set_variable" config caller' = r.script "set_variable" config caller ∧
      ((∃ f, r.script "set_variable" config caller = .fail f) ∨
        ∃ key v a, r.script "set_variable" config caller = .put key v (.done a)) := by
  have written : Builtin.setVariable config caller' = Builtin.setVariable config caller := by
    unfold Builtin.setVariable
    rw [same]
  have found : r.script "set_variable" config caller =
      wrapScript "set_variable" (Builtin.setVariable config caller) := by
    unfold Registry.script
    rw [assigns]
  have found' : r'.script "set_variable" config caller' =
      wrapScript "set_variable" (Builtin.setVariable config caller') := by
    unfold Registry.script
    rw [assigns']
  rw [found, found', written]
  refine ⟨rfl, ?_⟩
  rcases Builtin.setVariable_eq config caller with ⟨f, fails⟩ | ⟨key, v, a, puts⟩
  · rw [fails]
    exact .inl ⟨_, rfl⟩
  · rw [puts]
    exact .inr ⟨key, v, a, rfl⟩

end Action

/-- A remark about the last node on the path is not one that a node is being processed. -/
def Remark.Placed (r : Remark) : Prop :=
  r.node = "" → "Processing ".toList.isPrefixOf r.message.toList = false

/-- What begins otherwise does not say that a node is being processed. -/
theorem Remark.placed_of_clash {r : Remark} (other : clash "Processing " r.head = true) : r.Placed := by
  have silent : (r.entry []).tells "Processing " = false := not_tells_of_clash other
  exact fun _ => silent

/-- Walks leave the id of an execution alone. -/
theorem Execution.Pace.named {f : Execution → Execution} (pace : Execution.Pace f) (x : Execution) :
    (f x).id = x.id := by
  cases pace <;> rfl

/-- An execution that is stored becomes known and live. -/
def Scene.welcome (v : Scene) (x : Execution) : Scene :=
  { v with
    execution? := fun k => if k = x.id then some x else v.execution? k
    live := v.live ++ [x.id] }

namespace Engine

variable {α β γ δ : Type} {P S T : Scene → Scene → Prop} {near : Execution → Execution → Prop}
  {reach : String → Prop} {id : String} {same : α → β → Prop}

/-- Engines whose scenes are related. -/
abbrev Side (S : Scene → Scene → Prop) (e d : Engine) : Prop := S e.scene d.scene

/-- Engines with certain scenes. -/
abbrev At (v w : Scene) : Engine → Engine → Prop := Side fun u t => u = v ∧ t = w

theorem At.side {v w : Scene} {e d : Engine} (here : At v w e d) (related : S v w) : Side S e d := by
  obtain ⟨rfl, rfl⟩ := here
  exact related

section At

variable {Q : Engine → Engine → Prop} {v w v' w' : Scene} {x : Run α} {y : Run β}

/-- Related scenes are gone through one by one. -/
theorem leads_side (each : ∀ v w, P v w → Leads (At v w) Q x y same) : Leads (Side P) Q x y same :=
  fun e d related => each _ _ related e d ⟨rfl, rfl⟩

theorem leads_at (related : P v w) (leads : Leads (Side P) Q x y same) : Leads (At v w) Q x y same :=
  leads.before fun _ _ here => here.side related

/-- Two runs whose answers are known, and the scenes that they lead to. -/
theorem leads_answer {a : α} {b : β} {k : α → Run γ} {l : β → Run δ} {same : γ → δ → Prop}
    (first : Plays x v (fun c u => c = a ∧ u = v') never)
    (second : Plays y w (fun c u => c = b ∧ u = w') never)
    (next : Leads (At v' w') Q (k a) (l b) same) : Leads (At v w) Q (x >>= k) (y >>= l) same := by
  refine .after (R := At v' w') (s := fun c d => c = a ∧ d = b) (fun e d here => ?_) ?_
  · refine (first e here.1).2.imp (fun c t there => ?_) fun _ _ h => h
    exact (second d here.2).2.imp (fun c u there' => ⟨⟨there.1, there'.1⟩, there.2, there'.2⟩)
      fun _ _ h => h
  · rintro _ _ ⟨rfl, rfl⟩
    exact next

theorem leads_after {p q : Scene} {x y : Run Unit} {k : Unit → Run γ} {l : Unit → Run δ}
    {same : γ → δ → Prop} (first : Plays x v (fun _ u => u = p) never)
    (second : Plays y w (fun _ u => u = q) never) (next : Leads (At p q) Q (k ()) (l ()) same) :
    Leads (At v w) Q (x >>= k) (y >>= l) same :=
  leads_answer (first.imp (fun _ _ here => ⟨rfl, here⟩) fun _ _ h => h)
    (second.imp (fun _ _ here => ⟨rfl, here⟩) fun _ _ h => h) next

theorem leads_last {x y : Run Unit} (first : Plays x v (fun _ u => u = v') never)
    (second : Plays y w (fun _ u => u = w') never) (related : T v' w') :
    Leads (At v w) (Side T) x y Eq := by
  refine .of_ends fun e d here => (first e here.1).2.imp (fun _ t there => ?_) fun _ _ h => h
  exact (second d here.2).2.imp (fun _ u there' => ⟨rfl, At.side ⟨there, there'⟩ related⟩)
    fun _ _ h => h

end At

/-- Notes of other loggers may differ. -/
theorem leads_note {level : Level} {logger message message' : String} {context : Dict}
    (other : logger ≠ "deskflow.execution") :
    Leads (Side P) (Side P) (note level logger message context) (note level logger message' context) Eq :=
  leads_side fun _ _ related => leads_last (plays_note other) (plays_note other) related

/-- So may the fields that are bound. -/
theorem leads_withFields {x y : Run α} (fields fields' : Dict)
    (run : Leads (Side P) (Side T) x y Eq) :
    Leads (Side P) (Side T) (withFields fields x) (withFields fields' y) Eq := by
  refine .after (R := Side P) (s := fun _ _ => True) (fun e d related => ?_) fun old old' _ => ?_
  · exact Ends.get_iff.2 (Ends.get_iff.2 ⟨trivial, related⟩)
  · refine .after (R := Side P) (s := Eq) (fun e d related => ?_) fun _ _ _ => .andAlways run ?_
    · exact Ends.modify_iff.2 (Ends.modify_iff.2 ⟨rfl, related⟩)
    · exact Leads.modify fun e d related => related

/-- The executions with an id are near to each other, as far as nodes within reach can tell, and the
changes that a walk through them makes of both scenes keep the relation. -/
structure Accord (S : Scene → Scene → Prop) (near : Execution → Execution → Prop)
    (reach : String → Prop) (id : String) : Prop where
  proper {v w : Scene} : S v w → v.Proper ∧ w.Proper
  known {v w : Scene} : S v w → ∃ x y, v.execution? id = some x ∧ w.execution? id = some y ∧ near x y
  accepting {v w : Scene} : S v w → v.accepting = true ∧ w.accepting = true
  assigns {v w : Scene} : S v w → v.registry.Assigns ∧ w.registry.Assigns
  now {v w : Scene} : S v w → w.clock.now = v.clock.now
  limit {v w : Scene} : S v w → w.limit = v.limit
  resembles {x y : Execution} : near x y → x.Resembles reach y
  leads {x y : Execution} : near x y → ∀ c ∈ x.workflow.connections, reach c.source → reach c.target
  gentle {x y : Execution} : near x y → x.workflow.Gentle
  say {v w : Scene} {r : Remark} : r.Placed → S v w → S (v.say id r) (w.say id r)
  move {v w : Scene} {f : Execution → Execution} : Execution.Pace f → S v w →
    S (v.alter id f) (w.alter id f)
  forget {v w : Scene} {x y : Execution} : near x y → S v w →
    S (v.alter id fun z => { z with visited := x.visited })
      (w.alter id fun z => { z with visited := y.visited })
  put {v w : Scene} (key : Key) (value : Value) : S v w →
    S (v.alter id fun x => { x with vars := Dict.put x.vars key value })
      (w.alter id fun x => { x with vars := Dict.put x.vars key value })
  suspend {v w : Scene} {x : Execution} {node : String} (seconds : Float) (resumeAt : Instant) :
    node ≠ "" → reach node → S v w → v.execution? id = some x → x.isActive = true →
    S (v.suspend id node seconds resumeAt) (w.suspend id node seconds resumeAt)
  fail {v w : Scene} {x : Execution} (error : String) : S v w → v.execution? id = some x →
    x.isActive = true → S (v.fail id error) (w.fail id error)

namespace Accord

variable (accord : Accord S near reach id)

include accord

/-- Both executions are known, and stored. -/
theorem held {v w : Scene} (related : S v w) : ∃ x y, v.execution? id = some x ∧
    w.execution? id = some y ∧ near x y ∧ (v.row? id).isSome ∧ (w.row? id).isSome ∧
    v.faulty = false ∧ w.faulty = false := by
  obtain ⟨x, y, known, known', alike⟩ := accord.known related
  obtain ⟨proper, proper'⟩ := accord.proper related
  exact ⟨x, y, known, known', alike, proper.stored id x known, proper'.stored id y known',
    proper.steady, proper'.steady⟩

theorem leads_execution : Twin (Side S) (execution id) (execution id) near :=
  leads_side fun v w related => by
    obtain ⟨x, y, known, known', alike⟩ := accord.known related
    refine .of_ends fun e d here => ?_
    refine (plays_execution known e here.1).2.imp (fun _ t there => ?_) fun _ _ h => h
    refine (plays_execution known' d here.2).2.imp (fun _ u there' => ?_) fun _ _ h => h
    obtain ⟨rfl, there⟩ := there
    obtain ⟨rfl, there'⟩ := there'
    exact ⟨alike, At.side ⟨there, there'⟩ related⟩

theorem leads_say (r : Remark) (placed : r.Placed) :
    Twins (Side S) (log r.level id r.message r.node) (log r.level id r.message r.node) :=
  leads_side fun v w related => by
    obtain ⟨x, y, known, known', -, -, -, steady, steady'⟩ := accord.held related
    exact leads_last (plays_say r known steady) (plays_say r known' steady') (accord.say placed related)

/-- A failure fails both executions or, when they are over, none. -/
theorem leads_fail {v w : Scene} (text : String) (related : S v w)
    (failed : ∀ x, v.execution? id = some x → x.isActive = true →
      T (v.fail id text) (w.fail id text))
    (past : (∀ x, v.execution? id = some x → x.isActive = false) → T v w) :
    Leads (At v w) (Side T) (Engine.fail id text) (Engine.fail id text) Eq := by
  obtain ⟨x, y, known, known', alike, stored, stored', steady, steady'⟩ := accord.held related
  have status := (accord.resembles alike).active
  cases active : x.isActive with
  | true =>
    exact leads_last (plays_fail_of_active known active stored steady text)
      (plays_fail_of_active known' (status.trans active) stored' steady' text) (failed x known active)
  | false =>
    refine leads_last (plays_fail_of_over known active text)
      (plays_fail_of_over known' (status.trans active) text) (past fun u there => ?_)
    rw [← Option.some.inj (known.symm.trans there)]
    exact active

theorem twins_fail (text : String) : Twins (Side S) (Engine.fail id text) (Engine.fail id text) :=
  leads_side fun _ _ related => accord.leads_fail text related
    (fun _ known active => accord.fail text related known active) fun _ => related

/-- The one kind of action does the same. -/
theorem leads_dispatch (launch launch' : Launch) (config : Dict) :
    Twins (Side S) (dispatch launch id "set_variable" config)
      (dispatch launch' id "set_variable" config) := by
  refine .bind .get fun e d related => ?_
  obtain ⟨assigns, assigns'⟩ : e.registry.Assigns ∧ d.registry.Assigns := accord.assigns related
  refine .bind accord.leads_execution fun x y alike => ?_
  obtain ⟨written, does⟩ := Action.Registry.script_of_assigns assigns assigns' config
    (show y.caller.vars = x.caller.vars from (accord.resembles alike).vars)
  rw [written]
  rcases does with ⟨f, fails⟩ | ⟨key, v, a, puts⟩
  · rw [fails]
    exact .throw f
  · rw [puts]
    refine .then_ (leads_side fun v w related => ?_) fun _ => .pure rfl
    exact leads_last (plays_modifyExecution (by intro; rfl)) (plays_modifyExecution (by intro; rfl))
      (accord.put _ _ related)

/-- A branch ends at a delay in both, for as long. -/
theorem leads_runDelay {n : Node} (named : n.id ≠ "") (reached : reach n.id) (amount : Value)
    (unit : String) :
    Leads (fun e d => Side S e d ∧ Runs id e) (Side S) (runDelay id n amount unit)
      (runDelay id n amount unit) Eq := by
  suffices waits : ∀ v w x, S v w → v.execution? id = some x → x.isActive = true →
      Leads (At v w) (Side S) (runDelay id n amount unit) (runDelay id n amount unit) Eq by
    rintro e d ⟨related, x, known, active⟩
    exact waits _ _ x related known active e d ⟨rfl, rfl⟩
  intro v w x related there active
  obtain ⟨x, y, known, known', alike⟩ := accord.known related
  obtain rfl := Option.some.inj (known.symm.trans there)
  have same := accord.resembles alike
  obtain ⟨proper, proper'⟩ := accord.proper related
  have less (e d : Engine) (here : At v w e d) : Side S e d := here.side related
  refine leads_answer (plays_execution known) (plays_execution known') ?_
  rw [same.vars]
  refine .chain (.ofExcept _) less fun seconds _ equal => ?_
  subst equal
  refine .chain .get less fun e d here => ?_
  have now : d.clock.now = e.clock.now := accord.now (less e d here)
  rw [now]
  refine .chain (.ofExcept _) less fun resumeAt _ equal => ?_
  subst equal
  exact leads_last (plays_delayFor proper known active n.id seconds resumeAt)
    (plays_delayFor proper' known' (same.active.trans active) n.id seconds resumeAt)
    (accord.suspend seconds resumeAt named reached related known active)

/-- A walk touches the engine by what belongs to its execution. -/
theorem guide :
    Guide (Side S) near { role := fun n => n.id ≠ "" ∧ n.Gentle, reach, wording := Remark.Placed } launch
      launch id where
  execution := accord.leads_execution
  resembles _ _ alike := accord.resembles alike
  roles x y alike n there := ⟨(accord.gentle alike).sound.named n there,
    (accord.gentle alike).nodes n there⟩
  leads _ _ alike := accord.leads alike
  worded r about := by
    rcases about with ⟨node, rfl | rfl⟩ | ⟨n, ⟨named, -⟩, place⟩
    · exact Remark.placed_of_clash (Remark.clash_processing (by simp [Remark.head]) (by simp [Remark.head]))
    · exact Remark.placed_of_clash (Remark.clash_processing (by simp [Remark.head]) (by simp [Remark.head]))
    · exact fun none => absurd (place.symm.trans none) named
  limit e d related := accord.limit related
  say := accord.leads_say
  move f pace := leads_side fun v w related => leads_last (plays_modifyExecution pace.named)
    (plays_modifyExecution pace.named) (accord.move pace related)
  forget x y alike := leads_side fun v w related => leads_last (plays_modifyExecution (by intro; rfl))
    (plays_modifyExecution (by intro; rfl)) (accord.forget alike related)
  act n actionType part kind := by
    rw [part.2 actionType kind]
    exact accord.leads_dispatch launch launch n.config
  delay n amount unit part here _ := accord.leads_runDelay part.1 here amount unit
  fail := accord.twins_fail

/-- A branch runs to its end in both. -/
theorem leads_runBranch {v w : Scene} {x y : Execution} {branch branch' : Run Unit}
    (report report' : String) (known : v.execution? id = some x) (known' : w.execution? id = some y)
    (run : Leads (At v w) (Side S) branch branch' Eq)
    (finish : ∀ v w, S v w → T (v.finish id) (w.finish id)) :
    Leads (At v w) (Side T) (runBranch id report branch) (runBranch id report' branch') Eq := by
  refine leads_answer (plays_execution known) (plays_execution known') ?_
  refine .observing (.andAlways (Q := Side S) (.tryCatch (leads_withFields _ _ run) fun f => ?_)
    (leads_side fun v w related => ?_)) fun _ => .pure rfl
  · exact .then_ (leads_note (by decide)) fun _ => accord.twins_fail f.text
  · obtain ⟨x, y, known, known', -, stored, stored', steady, steady'⟩ := accord.held related
    exact leads_last (plays_branchFinished known stored steady)
      (plays_branchFinished known' stored' steady') (finish v w related)

omit accord in
/-- Both take on work. -/
theorem leads_taken {v w : Scene} {Q : Engine → Engine → Prop} {k l k' l' : Run γ}
    {same : γ → γ → Prop} (open_ : v.accepting = true) (open_' : w.accepting = true)
    (next : Leads (At v w) Q k l same) :
    Leads (At v w) Q (do if (← get).accepting then k else k') (do if (← get).accepting then l else l')
      same := by
  intro e d here
  have taken : e.accepting = true := (congrArg Scene.accepting here.1).trans open_
  have taken' : d.accepting = true := (congrArg Scene.accepting here.2).trans open_'
  change Meets Q same ((if e.accepting then k else k') e) ((if d.accepting then l else l') d)
  rw [if_pos taken, if_pos taken']
  exact next e d here

/-- A first branch runs in both. -/
theorem leads_submit {node : String} (here : reach node)
    (finish : ∀ v w, S v w → T (v.finish id) (w.finish id)) :
    Leads (Side S) (Side T) (submit launch id node) (submit launch id node) Eq := by
  refine leads_side fun v w related => ?_
  obtain ⟨x, y, known, known', alike⟩ := accord.known related
  have deep : depthOf y = depthOf x := by
    unfold depthOf
    rw [(accord.resembles alike).workflow]
  refine leads_taken (accord.accepting related).1 (accord.accepting related).2
    (accord.leads_runBranch _ _ known known' (leads_answer (plays_execution known)
      (plays_execution known') ?_) finish)
  rw [deep]
  exact leads_at related (accord.guide.walk _ here)

/-- The continuation of a running execution goes on in both. -/
theorem leads_continueAfter {t s : Timer} {v w : Scene} {x y : Execution} (mine : t.execution = id)
    (mine' : s.execution = id) (node : s.node = t.node) (fits : Store.fits t.marker = true)
    (fits' : Store.fits s.marker = true) (proper : v.Proper) (proper' : w.Proper)
    (known : v.execution? id = some x) (known' : w.execution? id = some y) (active : x.isActive = true)
    (active' : y.isActive = true)
    (ahead : ∀ x y, near x y → ∀ c ∈ x.workflow.outgoing t.node, reach c.target)
    (taken : S (((v.unarm t).say id (.resumed t.node)).unmark t.marker)
      (((w.unarm s).say id (.resumed t.node)).unmark s.marker)) :
    Leads (At v w) (Side S) (continueAfter t) (continueAfter s) Eq := by
  have cleared {u : Scene} {m : Nat} (proper : u.Proper) (fits : Store.fits m = true) {handle} :
      Plays (onStorageError (Storage.clearMarker m) handle) u (fun _ t => t = u.unmark m) never := by
    refine .onStorageError ((plays_clearMarker proper m).imp (fun _ _ here => here) ?_)
    rintro _ _ ⟨-, -, unfit, -⟩
    cases fits.symm.trans unfit
  have held {u : Scene} {t : Timer} {z : Execution} (mine : t.execution = id)
      (known : u.execution? id = some z) : (u.unarm t).execution? id =
        some { z with timers := Execution.dropTimer z.timers t.node t.id } := by
    simp [Scene.unarm, mine, known]
  have unarmed := (proper.keeps_unarm t).proper
  have unarmed' := (proper'.keeps_unarm s).proper
  unfold continueAfter
  rw [mine, mine']
  refine leads_after (p := v.unarm t) (q := w.unarm s) ?_ ?_ ?_
  · rw [← mine]; exact plays_modifyExecution (by intro; rfl)
  · rw [← mine']; exact plays_modifyExecution (by intro; rfl)
  refine leads_answer (plays_isActive (held mine known)) (plays_isActive (held mine' known')) ?_
  rw [show ({ x with timers := Execution.dropTimer x.timers t.node t.id } : Execution).isActive =
    true from active, show ({ y with timers := Execution.dropTimer y.timers s.node s.id } :
      Execution).isActive = true from active']
  rw [if_pos rfl, if_pos rfl, node]
  refine leads_after (plays_say (.resumed t.node) (held mine known) unarmed.steady)
    (plays_say (.resumed t.node) (held mine' known') unarmed'.steady) ?_
  refine leads_after (cleared (unarmed.say _) fits) (cleared (unarmed'.say _) fits') (leads_at taken ?_)
  refine .bind accord.leads_execution fun x y alike => ?_
  have deep : depthOf y = depthOf x := by
    unfold depthOf
    rw [(accord.resembles alike).workflow]
  rw [deep]
  exact accord.guide.follow (fun _ => accord.guide.walk _) ahead

omit accord in
/-- A timer of an execution that is over only ends its branch. -/
theorem plays_fire_of_over {v : Scene} {x : Execution} (t : Timer) (proper : v.Proper)
    (accepting : v.accepting = true) (known : v.execution? t.execution = some x)
    (past : x.isActive = false) :
    Plays (fire t) v (fun _ u => u = (v.unarm t).finish t.execution) never := by
  refine (plays_fire t proper accepting (Option.isSome_of_eq_some known)).imp ?_ fun _ _ h => h
  intro _ w resumes
  cases resumes with
  | past => rfl
  | continued there active | stuck there active =>
    obtain rfl := Option.some.inj (known.symm.trans there)
    cases past.symm.trans active

/-- A timer fires in both. -/
theorem leads_fire {t s : Timer} {v w : Scene} {x y : Execution} (mine : t.execution = id)
    (mine' : s.execution = id) (node : s.node = t.node) (fits : Store.fits t.marker = true)
    (fits' : Store.fits s.marker = true) (proper : v.Proper) (proper' : w.Proper)
    (open_ : v.accepting = true) (open_' : w.accepting = true) (known : v.execution? id = some x)
    (known' : w.execution? id = some y) (status : y.isActive = x.isActive)
    (ahead : ∀ x y, near x y → ∀ c ∈ x.workflow.outgoing t.node, reach c.target)
    (taken : x.isActive = true → S (((v.unarm t).say id (.resumed t.node)).unmark t.marker)
      (((w.unarm s).say id (.resumed t.node)).unmark s.marker))
    (past : x.isActive = false → T ((v.unarm t).finish id) ((w.unarm s).finish id))
    (finish : ∀ v w, S v w → T (v.finish id) (w.finish id)) :
    Leads (At v w) (Side T) (fire t) (fire s) Eq := by
  cases active : x.isActive with
  | false =>
    refine leads_last (plays_fire_of_over t proper open_ (mine ▸ known) active)
      (plays_fire_of_over s proper' open_' (mine' ▸ known') (status.trans active)) ?_
    rw [mine, mine']
    exact past active
  | true =>
    refine leads_taken open_ open_' ?_
    rw [mine, mine']
    exact accord.leads_runBranch _ _ known known' (accord.leads_continueAfter mine mine' node fits fits'
      proper proper' known known' active (status.trans active) ahead (taken active)) finish

/-- What an execution begins with is the same in both, when all nodes are within reach. -/
theorem leads_setOff {v w : Scene} {definition : Workflow} {payload : Dict} {module item : Value}
    {x : Execution}
    (wide : ∀ node, reach node)
    (opening : x = .opening id definition module item payload (initialVariables payload definition.vars))
    (steady : v.faulty = false) (steady' : w.faulty = false) (absent : v.execution? id = none)
    (absent' : w.execution? id = none)
    (begun : S ((v.welcome x).say id (.started definition.name))
      ((w.welcome x).say id (.started definition.name)))
    (finish : ∀ v w, S v w → T (v.finish id) (w.finish id))
    (failed : ∀ v w x error, S v w → v.execution? id = some x → x.isActive = true →
      T (v.fail id error) (w.fail id error)) :
    Leads (At v w) (Side T) (setOff launch definition payload module item id)
      (setOff launch definition payload module item id) Eq := by
  subst opening
  let x : Execution := .opening id definition module item payload (initialVariables payload definition.vars)
  have known {u : Scene} : (u.welcome x).execution? id = some x := if_pos rfl
  have live {u : Scene} : Plays (modify fun e => { e with live := e.live ++ [id] })
      { u with execution? := fun k => if k = x.id then some x else u.execution? k }
      (fun _ t => t = u.welcome x) never := plays_live fun ids => ids ++ [id]
  unfold setOff
  refine leads_after (plays_putExecution absent) (plays_putExecution absent') ?_
  refine leads_after live live ?_
  refine leads_after (plays_note (by decide)) (plays_note (by decide)) ?_
  refine leads_after (plays_say (.started definition.name) known steady)
    (plays_say (.started definition.name) known steady') ?_
  cases definition.trigger? with
  | none =>
    obtain ⟨y, z, held, held', -, -, -, still, still'⟩ := accord.held begun
    have told := accord.say (Remark.placed_of_clash (r := .triggerless)
      (Remark.clash_processing (by simp [Remark.head]) (by simp [Remark.head]))) begun
    have active : x.isActive = true := rfl
    have there : (((v.welcome x).say id (.started definition.name)).say id .triggerless).execution? id =
        some ((x.tell (.started definition.name)).tell .triggerless) := by simp [known, Execution.tell]
    refine leads_after (plays_say .triggerless held still) (plays_say .triggerless held' still') ?_
    refine .then_ (accord.leads_fail _ told (fun y held running => failed _ _ y _ told held running)
      fun past => ?_) fun _ => .pure rfl
    cases (past _ there).symm.trans active
  | some trigger =>
    exact .then_ (leads_at begun (accord.leads_submit (wide trigger.id) finish)) fun _ => .pure rfl

end Accord

end Engine

end Runbook
