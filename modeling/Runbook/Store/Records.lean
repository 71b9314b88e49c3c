import Runbook.Store.Session
import Runbook.Store.Workflows

/-!
The records that actions work on: tickets, notifications and articles. A text field takes what a
text column takes; a field with a default takes it in place of null when the record is new.
-/
namespace Runbook

/-- What a new ticket says. -/
structure TicketDraft where
  tenant : Value
  title : Value
  description : Value := .null
  status : Value := .text "open"
  priority : Value := .text "medium"
  category : Value := .null
  assignedTo : Value := .null
  createdBy : Value := .null

/-- A notification to some recipients. -/
structure Announcement where
  tenant : Value
  recipients : List Value
  title : Value
  message : Value
  type : Value := .text "system"
  module : Value := .null
  item : Value := .null

/-- What a new article says. -/
structure ArticleDraft where
  tenant : Value
  title : Value
  content : Value := .null
  category : Value := .null
  status : Value := .text "draft"
  createdBy : Value := .null

/-- Fields by name: all the required ones, and none that is not known. -/
def Dict.accepts (d : Dict) (required optional : List String) : Bool :=
  required.all (Dict.contains d) && d.all fun (k, _) =>
    match k with
    | .text name => required.contains name || optional.contains name
    | _ => false

namespace TicketDraft

def ofFields (d : Dict) : Except Failure TicketDraft :=
  if Dict.accepts d ["tenant_id", "title"]
      ["description", "status", "priority", "category", "assigned_to", "created_by"] then
    let field (name : String) (default : Value) : Value := (Dict.get? d name).getD default
    .ok {
      tenant := field "tenant_id" .null, title := field "title" .null
      description := field "description" .null, status := field "status" (.text "open")
      priority := field "priority" (.text "medium"), category := field "category" .null
      assignedTo := field "assigned_to" .null, createdBy := field "created_by" .null }
  else .error .wrongType

end TicketDraft

namespace Announcement

/-- The items of a collection: of a list, the characters of a text, the keys of a dictionary. -/
def items? : Value → Option (List Value)
  | .list vs => some vs
  | .text s => some (s.toList.map fun c => .text c.toString)
  | .dict d => some (d.map fun (k, _) =>
      match k with
      | .null => .null
      | .bool b => .bool b
      | .int n => .int n
      | .float x => .float x
      | .text s => .text s)
  | _ => none

/-- The announcement that fields describe, without its recipients. -/
def ofFields (d : Dict) (recipients : List Value) : Except Failure Announcement :=
  if Dict.accepts d ["tenant_id", "recipients", "title", "message"]
      ["notification_type", "module_type", "module_item_id"] then
    let field (name : String) (default : Value) : Value := (Dict.get? d name).getD default
    .ok {
      tenant := field "tenant_id" .null, recipients, title := field "title" .null
      message := field "message" .null, type := field "notification_type" (.text "system")
      module := field "module_type" .null, item := field "module_item_id" .null }
  else .error .wrongType

end Announcement

namespace ArticleDraft

def ofFields (d : Dict) : Except Failure ArticleDraft :=
  if Dict.accepts d ["tenant_id", "title"]
      ["content", "category_id", "status", "created_by"] then
    let field (name : String) (default : Value) : Value := (Dict.get? d name).getD default
    .ok {
      tenant := field "tenant_id" .null, title := field "title" .null
      content := field "content" .null, category := field "category_id" .null
      status := field "status" (.text "draft"), createdBy := field "created_by" .null }
  else .error .wrongType

end ArticleDraft

namespace Store

def TicketRow.ofDraft (id : String) (t : TicketDraft) : Except Refusal TicketRow := do
  let tenant ← textCell t.tenant
  let title ← textCell t.title
  let description ← textCell t.description
  let status ← cellOr "open" t.status
  let priority ← cellOr "medium" t.priority
  let category ← textCell t.category
  let assignedTo ← textCell t.assignedTo
  let createdBy ← textCell t.createdBy
  return {
    id, tenant := ← notNull tenant, title := ← notNull title, description
    status := ← notNull status, priority := ← notNull priority, category, assignedTo, createdBy }

def NotificationRow.ofAnnouncement (a : Announcement) (recipient : Value) (id : String) :
    Except Refusal NotificationRow := do
  let tenant ← textCell a.tenant
  let user ← textCell recipient
  let title ← textCell a.title
  let message ← textCell a.message
  let type ← cellOr "system" a.type
  let module ← textCell a.module
  let item ← textCell a.item
  return {
    id, tenant := ← notNull tenant, user := ← notNull user, title := ← notNull title, message
    type := ← notNull type, module, item }

def ArticleRow.ofDraft (id : String) (a : ArticleDraft) : Except Refusal ArticleRow := do
  let tenant ← textCell a.tenant
  let title ← textCell a.title
  let content ← textCell a.content
  let category ← textCell a.category
  let status ← cellOr "draft" a.status
  let createdBy ← textCell a.createdBy
  return {
    id, tenant := ← notNull tenant, title := ← notNull title, content, category
    status := ← notNull status, createdBy }

/-- The ticket with some of its fields changed. Only description, status, priority and category
can be. -/
def TicketRow.change (t : TicketRow) (updates : Dict) : Except Refusal TicketRow := do
  let cell (name : String) (old : Option String) : Except Refusal (Option String) :=
    match Dict.get? updates name with
    | some v => textCell v
    | none => .ok old
  let description ← cell "description" t.description
  let status ← cell "status" (some t.status)
  let priority ← cell "priority" (some t.priority)
  let category ← cell "category" t.category
  return { t with
    description, status := ← notNull status, priority := ← notNull priority, category }

def TicketRow.record (t : TicketRow) : Value :=
  .record [
    ("id", .text t.id), ("tenant_id", .text t.tenant), ("title", .text t.title),
    ("description", .ofText? t.description), ("status", .text t.status),
    ("priority", .text t.priority), ("category", .ofText? t.category),
    ("assigned_to", .ofText? t.assignedTo), ("created_by", .ofText? t.createdBy)]

end Store

namespace Storage

open Store

/-- The logger of one of the services. -/
def serviceLogger (service : String) : String := "deskflow.services." ++ service

/-- The keys of some updates in order, as a literal list. -/
def changedNames (updates : Dict) : Except Failure String :=
  match updates.mapM fun (k, _) => (match k with | .text s => some s | _ => none) with
  | some names =>
    .ok (Value.texts (names.mergeSort fun a b => decide (a ≤ b))).literal
  | none => .error .wrongType

def createTicket (t : TicketDraft) : StorageM String := do
  let id ← freshId
  session "create ticket" "tickets" fun s => do
    return ((), { s with tickets := s.tickets ++ [← TicketRow.ofDraft id t] })
  note .info (serviceLogger "tickets") ("Created ticket " ++ id)
  return id

/-- The ticket with an id, null when there is none. -/
def findTicket (id : String) : StorageM Value :=
  query "load ticket" "tickets" fun s => .ok (((s.ticket? id).map TicketRow.record).getD .null)

def noTicket (id : String) : Refusal := .raised (.program (.recordNotFound "Ticket" id))

def updateTicket (id : String) (updates : Dict) : StorageM Unit := do
  session "update ticket" "tickets" fun s =>
    match s.ticket? id with
    | none => .error (noTicket id)
    | some t => do
      let t ← t.change updates
      return ((), s.updateTicket id fun _ => t)
  match changedNames updates with
  | .ok names => note .info (serviceLogger "tickets") ("Updated ticket " ++ id ++ ": " ++ names)
  | .error f => throw f

def assignTicket (id : String) (assignee : Value) : StorageM Unit := do
  session "assign ticket" "tickets" fun s =>
    match s.ticket? id with
    | none => .error (noTicket id)
    | some _ => do
      let assignedTo ← textCell assignee
      return ((), s.updateTicket id fun t => { t with assignedTo })
  note .info (serviceLogger "tickets") ("Assigned ticket " ++ id ++ " to " ++ assignee.display)

/-- Writes one notification for each recipient; answers their ids. -/
def notify (a : Announcement) : StorageM (List String) := do
  openSession "send notification" "notifications"
  let ids ← freshIds a.recipients.length
  transact "send notification" "notifications" fun s => do
    let rows ← (a.recipients.zip ids).mapM fun (user, id) => NotificationRow.ofAnnouncement a user id
    return ((), { s with notifications := s.notifications ++ rows })
  note .info (serviceLogger "notifications")
    ("Sent notification '" ++ a.title.display ++ "' to " ++ toString ids.length ++ " recipient(s)")
  return ids

def createArticle (a : ArticleDraft) : StorageM String := do
  let id ← freshId
  session "create knowledge article" "knowledge_articles" fun s => do
    return ((), { s with articles := s.articles ++ [← ArticleRow.ofDraft id a] })
  note .info (serviceLogger "knowledge") ("Created knowledge article " ++ id)
  return id

end Storage

end Runbook
