import Runbook.Action.Script
import Runbook.Template

/-!
The actions that every registry knows. Each has one effect: on a ticket, a notification, an
article, a variable or another service. Configured texts are templates.
-/
namespace Runbook.Action

/-- An action failed, for the reason given. -/
def refused (message actionType : String) : Failure := .program (.actionFailed message actionType)

/-- A value that names no record: null, the empty text, or a reference left over. -/
def isUnresolved : Value → Bool
  | .null => true
  | .text s => s == "" || s.toList.head? == some '$'
  | _ => false

namespace Builtin

/-- A configured value with its references replaced; null when there is none. -/
def templated (config : Dict) (caller : Caller) (name : String) : Value :=
  Template.expand caller.vars (Dict.getD config name)

/-- The same, with a default for a value that is not configured. -/
def templatedOr (config : Dict) (caller : Caller) (name default : String) : Value :=
  Template.expand caller.vars ((Dict.get? config name).getD (.text default))

/-- The ticket that is configured, or else the item of the caller. -/
def ticketId (config : Dict) (caller : Caller) : Value :=
  (templated config caller "ticketId").orElse caller.item

/-- The fields that an update may change. -/
def updatable : List String := ["status", "priority", "category", "description"]

/-- The configured changes, with their references replaced. -/
def ticketUpdates (config : Dict) (caller : Caller) : Dict :=
  updatable.filterMap fun name =>
    match Dict.get? config name with
    | none | some .null => none
    | some v => some (.text name, Template.expand caller.vars v)

def updateTicket : Handler := fun config caller => do
  let id := ticketId config caller
  if isUnresolved id then
    .fail (refused "No ticket ID specified for update_ticket action" "update_ticket")
  else
    let updates := ticketUpdates config caller
    Script.call (.updateTicket id.display updates)
    return .text ("Updated ticket " ++ id.display ++ " with data: " ++ (Value.dict updates).json)

def createTicket : Handler := fun config caller => do
  let title := templatedOr config caller "title" "Automated ticket"
  let id : String ← Script.call (.createTicket {
    tenant := .text caller.tenant, title
    description := templated config caller "description"
    status := templatedOr config caller "status" "open"
    priority := templatedOr config caller "priority" "medium"
    category := templated config caller "category"
    assignedTo := templated config caller "assignedTo"
    createdBy := Dict.getD caller.triggerData "userId" })
  Script.assign (.text "createdTicketId") (.text id)
  return .text ("Created ticket with ID " ++ id ++ ": " ++ title.display)

def assignTicket : Handler := fun config caller => do
  let id := ticketId config caller
  let assignee := templated config caller "assigneeId"
  if isUnresolved id || isUnresolved assignee then
    .fail (refused "Ticket ID and assignee ID are required for assign_ticket action" "assign_ticket")
  else
    Script.call (.assignTicket id.display assignee.display)
    return .text ("Assigned ticket " ++ id.display ++ " to user " ++ assignee.display)

/-- The recipients that one configured item stands for. An item that is a reference and nothing
else stands for the value itself, and a list for its items; null and the empty text stand for
nobody. -/
def recipientsOf (vars : Dict) (item : Value) : List String :=
  let resolved := match item with
    | .text s =>
      if Template.isReference s then Template.resolve vars item
      else Template.expand vars item
    | v => Template.expand vars v
  let people := match resolved with
    | .list vs => vs
    | v => [v]
  people.filterMap fun v =>
    match v with
    | .null => none
    | .text "" => none
    | v => some v.display

def recipients (config : Dict) (caller : Caller) : List String :=
  let configured := match (Dict.getD config "recipients").orElse (.list []) with
    | .list vs => vs
    | v => [v]
  configured.flatMap (recipientsOf caller.vars)

def sendNotification : Handler := fun config caller => do
  let people := recipients config caller
  if people.isEmpty then
    .fail (refused "No recipients resolved for send_notification action" "send_notification")
  else
    let title := templatedOr config caller "title" ""
    let type := (Dict.getD config "notificationType").orElse (.text "system")
    let _ : List String ← Script.call (.notify {
      tenant := .text caller.tenant, recipients := people.map .text, title
      message := templatedOr config caller "message" "", type
      module := caller.module, item := caller.item })
    return .text ("Sent " ++ type.display ++ " notification to " ++ ", ".intercalate people ++
      ": " ++ title.display)

def createArticle : Handler := fun config caller => do
  let title := templatedOr config caller "title" ""
  let id : String ← Script.call (.createArticle {
    tenant := .text caller.tenant, title
    content := templatedOr config caller "content" ""
    category := templated config caller "categoryId"
    status := (Dict.getD config "status").orElse (.text "draft")
    createdBy := Dict.getD caller.triggerData "userId" })
  Script.assign (.text "createdArticleId") (.text id)
  return .text ("Created knowledge article with ID " ++ id ++ ": " ++ title.display)

/-- A value as the name of a variable. -/
def variableKey (name : Value) : Except Failure Key :=
  match name.key? with
  | some key => .ok key
  | none => .error (.plain .type ("unhashable type: '" ++ Http.kindName name ++ "'"))

def setVariable : Handler := fun config caller => do
  let name := Dict.getD config "name"
  if !name.isTruthy then
    .fail (refused "Variable name is required for set_variable action" "set_variable")
  else
    let v := Template.resolve caller.vars (Dict.getD config "value")
    let key ← Script.ofExcept (variableKey name)
    Script.assign key v
    return .text ("Set variable " ++ name.display ++ " = " ++ v.json)

/-- Failures of the connection itself are reported with the address. -/
def connectionFailed (url : Value) : Failure → Failure
  | .transport _ text => refused ("HTTP request to " ++ url.display ++ " failed: " ++ text)
      "http_request"
  | f => f

/-- The timeout of a request is configured with the request, or else `standard`. -/
def httpRequest (standard : Value) : Handler := fun config caller => do
  let url := templated config caller "url"
  if !url.isTruthy then
    .fail (refused "URL is required for http_request action" "http_request")
  else
    let method := Text.upper (Template.expand caller.vars
      ((Dict.getD config "method").orElse (.text "GET"))).display
    let headers := Template.expand caller.vars ((Dict.getD config "headers").orElse (.dict []))
    let timeout := (Dict.getD config "timeout").orElse standard
    let answer ← (.ask (.http (.text method) url headers (templated config caller "body") timeout)
      fun
        | .ok a => .done a
        | .error f => .fail (connectionFailed url f) : Script Http.Answer)
    Script.assign (.text "httpResponse") answer.record
    if answer.isOk then
      return .text ("HTTP " ++ method ++ " request to " ++ url.display ++
        " completed with status " ++ toString answer.status)
    else
      .fail (refused ("HTTP request failed with status " ++ toString answer.status ++ ": " ++
        answer.reason) "http_request")

end Builtin

/-- The built-in actions: name, description and handler, given the timeout of requests. -/
def builtins (timeout : Value) : List (String × String × Handler) := [
  ("update_ticket", "Update status, priority, category or description of a ticket",
    Builtin.updateTicket),
  ("create_ticket", "Create a ticket and store its id in createdTicketId", Builtin.createTicket),
  ("assign_ticket", "Assign a ticket to a user", Builtin.assignTicket),
  ("send_notification", "Notify one or more users", Builtin.sendNotification),
  ("create_knowledge_article", "Create a knowledge article and store its id in createdArticleId",
    Builtin.createArticle),
  ("set_variable", "Assign a value to a workflow variable", Builtin.setVariable),
  ("http_request", "Call an HTTP endpoint and store the response in httpResponse",
    Builtin.httpRequest timeout)]

end Runbook.Action
