import Runbook.Http
import Runbook.Store.Records

/-!
What an action does, as data. A handler is given its configuration and is told about the
execution that calls it; it answers with a script, which writes variables, asks for effects and
ends with a summary or a failure. A script has no other effects than these.
-/
namespace Runbook.Action

/-- What a handler is told about its caller. -/
structure Caller where
  execution : String
  tenant : String
  module : Value
  item : Value
  triggerData : Dict
  vars : Dict

/-- An effect that a script may ask for. -/
inductive Request where
  | cancel (execution : Value)
  | start (workflow payload : Value)
  | createTicket (draft : TicketDraft)
  | updateTicket (id : String) (updates : Dict)
  | assignTicket (id assignee : String)
  | notify (announcement : Announcement)
  | createArticle (draft : ArticleDraft)
  | http (method url headers body timeout : Value)

/-- What a request is answered with. -/
def Request.Answer : Request → Type
  | .cancel _ => Bool
  | .start _ _ => String
  | .createTicket _ => String
  | .updateTicket _ _ => Unit
  | .assignTicket _ _ => Unit
  | .notify _ => List String
  | .createArticle _ => String
  | .http _ _ _ _ _ => Http.Answer

/-- The steps of an action. -/
inductive Script (α : Type) where
  | done (a : α)
  | fail (f : Failure)
  | put (key : Key) (v : Value) (next : Script α)
  | ask (r : Request) (next : Except Failure r.Answer → Script α)

namespace Script

variable {α β γ : Type}

/-- Goes on with what a script ends with. -/
def andThen : Script α → (α → Script β) → Script β
  | .done a, f => f a
  | .fail e, _ => .fail e
  | .put k v next, f => .put k v (next.andThen f)
  | .ask r next, f => .ask r fun answer => (next answer).andThen f

instance : Monad Script where
  pure := .done
  bind := andThen

theorem andThen_done (x : Script α) : x.andThen .done = x := by
  induction x with
  | done | fail => rfl
  | put k v next ih => simp [andThen, ih]
  | ask r next ih => simp [andThen, ih]

theorem andThen_assoc (x : Script α) (f : α → Script β) (g : β → Script γ) :
    (x.andThen f).andThen g = x.andThen fun a => (f a).andThen g := by
  induction x with
  | done | fail => rfl
  | put k v next ih => simp [andThen, ih]
  | ask r next ih => simp [andThen, ih]

/-- Asks for an effect, and fails when it does. -/
def call (r : Request) : Script r.Answer :=
  .ask r fun
    | .ok a => .done a
    | .error f => .fail f

/-- Writes a variable. -/
def assign (key : Key) (v : Value) : Script Unit := .put key v (.done ())

def ofExcept : Except Failure α → Script α
  | .ok a => .done a
  | .error f => .fail f

/-- Runs a script, given what puts and requests mean. -/
def run {m : Type → Type} [Monad m] [MonadExceptOf Failure m]
    (perform : (r : Request) → m r.Answer) (put : Key → Value → m Unit) : Script α → m α
  | .done a => pure a
  | .fail f => throw f
  | .put k v next => do
    put k v
    run perform put next
  | .ask r next => do
    let answer ← tryCatch (Except.ok <$> perform r) fun f => pure (.error f)
    run perform put (next answer)

end Script

/-- A handler turns a configuration into a script. -/
abbrev Handler := Dict → Caller → Script Value

end Runbook.Action
