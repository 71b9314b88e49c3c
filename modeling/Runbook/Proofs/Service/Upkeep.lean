import Runbook.Proofs.Course.Once
import Runbook.Service.Basic

/-!
What a service keeps from request to request. Between the requests delays become due, and the service may
be started anew. An invariant that each part of this keeps is kept by every endpoint, and by all that
happens to the service.
-/
namespace Runbook

namespace Service

/-- What a service meets with. -/
inductive Happening where
  | request (r : Request)
  | advance (seconds : Float)
  | restart (now : Float)
  | resume

/-- The service after something happened. -/
def meet (s : Service) : Happening → Service
  | .request r => (s.respond r).2
  | .advance seconds => (s.carryOut (.advance seconds)).2
  | .restart now => (s.carryOut (.restart now)).2
  | .resume => (s.carryOut .resume).2

/-- The service after all that happened. -/
def meetAll (s : Service) (hs : List Happening) : Service := hs.foldl meet s

variable {α : Type}

/-- What the service does with its store, with its executions and with its clock keeps an invariant. -/
structure Upholds (I : Engine → Prop) : Prop where
  query {α : Type} (operation table : String) (read : Store → Except Store.Refusal α) :
    Keeps I (liftM (Storage.query operation table read) : Run α)
  save {data : Value} {w : Workflow} (parsed : Workflow.parse data = .ok w) :
    Keeps I (liftM (Storage.saveWorkflow w) : Run String)
  update {data : Value} {w : Workflow} (parsed : Workflow.parse data = .ok w) (id : String) :
    Keeps I (liftM (Storage.updateWorkflow id w) : Run Value)
  clone (id : String) (name : Option String) : Keeps I (liftM (Storage.cloneWorkflow id name) : Run String)
  setStatus (id : String) (status : Value) : Keeps I (liftM (Storage.setWorkflowStatus id status) : Run Unit)
  delete (w : String) : Keeps I (deleteWorkflow w)
  execute (w : String) (payload module item : Value) : Keeps I (Engine.execute w payload module item)
  trigger (module : String) (event : Option String) (payload item : Value) :
    Keeps I (Engine.trigger module event payload item)
  cancel (id : String) : Keeps I (Engine.cancel id)
  moveTo (now : Float) : Keeps I (Engine.moveTo now)
  restart (now : Float) : Keeps I (Engine.restart now)
  resume : Keeps I Engine.resume

namespace Upholds

variable {I : Engine → Prop}

theorem reporting {x : Run Answer} (keeps : Keeps I x) : Keeps I (reporting x) :=
  Engine.keeps_onProgramError keeps fun _ => .pure _

theorem reading {r : Reading α} {go : α → Run Answer} (keeps : ∀ a, Keeps I (go a)) :
    Keeps I (reading r go) := by
  cases r with
  | accepted a => exact keeps a
  | refused is => exact .pure _
  | broken m => exact .throw _

/-- What goes on with a definition may rely on its having been read. -/
theorem parsing {data : Value} {k : Workflow → Run α}
    (keeps : ∀ w, Workflow.parse data = .ok w → Keeps I (k w)) :
    Keeps I (Engine.ofExcept (Workflow.parse data) >>= k) := by
  intro e holds
  refine Ends.bind (Engine.ends_ofExcept.2 ⟨fun w parsed => keeps w parsed e holds, fun f _ => holds⟩)

variable (upholds : Upholds I)

include upholds

theorem loadWorkflow (id : String) : Keeps I (liftM (Storage.loadWorkflow id) : Run Workflow) := by
  intro e holds
  refine Engine.ends_storage.2 (Ends.bind ((Engine.ends_storage.1 (upholds.query _ _ _ e holds)).imp
    (fun row s holds => ?_) fun _ _ h => h))
  split
  · exact Ends.pure_iff.2 holds
  · exact Ends.throw_iff.2 holds

theorem logsOf (id : String) : Keeps I (Engine.logsOf id) :=
  .bind (upholds.query _ _ _) fun _ => .get fun _ => .ite (fun _ => upholds.query _ _ _) fun _ => .pure _

theorem answer (s : Service) (r : Request) (e : Endpoint) (parameters : List String) :
    Keeps I (s.answer r e parameters) := by
  cases e with
  | createWorkflow =>
    exact reading fun d => reporting (parsing fun w parsed => .bind (upholds.save parsed) fun _ => .pure _)
  | listWorkflows => exact reporting (.bind (upholds.query _ _ _) fun _ => .pure _)
  | loadWorkflow => exact reporting (.bind (upholds.loadWorkflow _) fun _ => .pure _)
  | replaceWorkflow =>
    refine reading fun d => .bind (Engine.keeps_onProgramError
      (parsing fun w parsed => .bind (upholds.update parsed _) fun _ => .pure _) fun _ => .pure _) fun replaced => ?_
    cases replaced with
    | error answer => exact .pure _
    | ok done => exact .bind (.ofExcept _) fun _ => .pure _
  | deleteWorkflow => exact upholds.delete _
  | cloneWorkflow =>
    exact reading fun name => reporting (.bind (upholds.clone _ _) fun copy =>
      .bind (upholds.loadWorkflow copy) fun _ => .pure _)
  | listExecutions =>
    refine reading fun page => reporting (.bind (upholds.query _ _ _) fun there =>
      .ite (fun _ => .bind (.throw _) fun _ => ?_) fun _ => ?_) <;>
    · exact .bind (upholds.query _ _ _) fun _ => .pure _
  | setStatus => exact reading fun status => reporting (.bind (upholds.setStatus _ _) fun _ => .pure _)
  | execute =>
    refine reading fun start => reporting ?_
    have starts (module : String) : Keeps I (do
        let execution ← Engine.execute (parameters.headD "") (.dict start.payload) (.text module)
          (.ofText? start.item)
        return Answer.accepted (.record [("execution_id", .text execution),
          ("status", .text "running")])) :=
      .bind (upholds.execute _ _ _ _) fun _ => .pure _
    split
    · exact .bind (.pure _) starts
    · exact .bind (.map (upholds.loadWorkflow _)) starts
  | trigger => exact reading fun event => .bind (upholds.trigger _ _ _ _) fun _ => .pure _
  | loadExecution => exact reporting (.bind (upholds.query _ _ _) fun _ => .pure _)
  | executionLog => exact reporting (.bind (upholds.logsOf _) fun _ => .pure _)
  | executionDetails =>
    exact reporting (.bind (upholds.query _ _ _) fun _ => .bind (upholds.logsOf _) fun _ => .pure _)
  | cancelExecution =>
    refine .bind (Engine.keeps_onProgramError (.bind (upholds.query _ _ _) fun _ => .pure _)
      fun _ => .pure _) fun found => ?_
    cases found with
    | some answer => exact .pure _
    | none => exact .bind (upholds.cancel _) fun _ => .pure _
  | listActions => exact .get fun _ => .pure _
  | greeting => exact .pure _
  | health => exact .pure _
  | detailedHealth => exact .get fun _ => .pure _

end Upholds

variable {s : Service} {r : Request}

/-- The engine after a request is what was left of its answer. -/
theorem engine_respond {parameters : List String} {e : Endpoint}
    (found : Route.find r.method r.path = .found e parameters) :
    (s.respond r).2.engine = s.engine.leftBy (s.answer r e parameters) := by
  unfold respond respondFully Engine.leftBy
  rw [found]
  dsimp only [EStateM.run]
  cases s.answer r e parameters s.engine <;> rfl

theorem engine_carryOut (op : Operation) :
    (s.carryOut op).2.engine = s.engine.leftBy (Engine.carryOut op) := by
  unfold carryOut Engine.leftBy
  dsimp only [EStateM.run]
  cases Engine.carryOut op s.engine <;> rfl

theorem Upholds.meet {I : Engine → Prop} (upholds : Upholds I) (h : Happening) (holds : I s.engine) :
    I (s.meet h).engine := by
  cases h with
  | request r =>
    change I (s.respond r).2.engine
    cases route : Route.find r.method r.path with
    | found e parameters =>
      rw [engine_respond route]
      exact Engine.leftBy_of_keeps (upholds.answer s r e parameters _ holds)
    | nowhere =>
      unfold respond respondFully
      rw [route]
      exact holds
    | wrongMethod =>
      unfold respond respondFully
      rw [route]
      exact holds
  | advance seconds =>
    change I (s.carryOut (.advance seconds)).2.engine
    rw [engine_carryOut]
    exact Engine.leftBy_of_keeps (Keeps.bind (.get fun _ => upholds.moveTo _) (fun _ => .pure _) _ holds)
  | restart now =>
    change I (s.carryOut (.restart now)).2.engine
    rw [engine_carryOut]
    exact Engine.leftBy_of_keeps (Keeps.bind (upholds.restart now) (fun _ => .pure _) _ holds)
  | resume =>
    change I (s.carryOut .resume).2.engine
    rw [engine_carryOut]
    exact Engine.leftBy_of_keeps (Keeps.bind upholds.resume (fun _ => .pure _) _ holds)

theorem Upholds.meetAll {I : Engine → Prop} (upholds : Upholds I) (hs : List Happening) (holds : I s.engine) :
    I (s.meetAll hs).engine := by
  induction hs generalizing s with
  | nil => exact holds
  | cons h rest ih => exact ih (upholds.meet h holds)

/-- What is answered to a request that asks for more than the head. -/
theorem respond_eq {parameters : List String} {e : Endpoint} {a : Answer} {engine : Engine}
    (found : Route.find r.method r.path = .found e parameters) (full : e.method ≠ "HEAD")
    (run : s.answer r e parameters s.engine = .ok a engine) : s.respond r = (a, { s with engine }) := by
  rw [method_of_find found] at full
  unfold respond respondFully
  rw [found]
  dsimp only [EStateM.run]
  rw [run, if_neg full]

end Service

end Runbook
