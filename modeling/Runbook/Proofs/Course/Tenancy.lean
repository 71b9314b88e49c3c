import Mathlib.Data.List.Find
import Runbook.Proofs.Action
import Runbook.Proofs.Course.Roots

/-!
Tenants. What the workflows of a tenant create with the built-in actions belongs to the tenant; and of
what was there they touch nothing but the tickets that their actions point at. A ticket is found by its
id alone, so that these may be tickets of any tenant; but whose they are does not change.
-/
namespace Runbook

namespace Store

/-- A ticket is still the same one, though some of its fields may be new. -/
structure TicketRow.Retains (old new : TicketRow) : Prop where
  id : new.id = old.id
  tenant : new.tenant = old.tenant
  title : new.title = old.title
  createdBy : new.createdBy = old.createdBy

theorem TicketRow.Retains.trans {r s t : TicketRow} (first : r.Retains s) (second : s.Retains t) :
    r.Retains t :=
  ⟨second.id.trans first.id, second.tenant.trans first.tenant, second.title.trans first.title,
    second.createdBy.trans first.createdBy⟩

/-- A workflow is stored. -/
def Holds (s : Store) (w : Workflow) : Prop := ∃ row ∈ s.workflows, Workflow.parse row.record = .ok w

/-- Every workflow under an id is one of a tenant. -/
def Serves (s : Store) (tenant id : String) : Prop := ∀ row ∈ s.workflows, row.id = id → row.tenant = tenant

theorem Serves.tenant {s : Store} {tenant id : String} (serves : s.Serves tenant id) {w : Workflow}
    (holds : s.Holds w) (named : w.id = some id) : w.tenant = tenant := by
  obtain ⟨row, there, parsed⟩ := holds
  obtain ⟨same, whose⟩ := row.names_of_parse parsed
  exact whose.trans (serves row there (Option.some.inj (same.symm.trans named)))

/-- Whatever is stored under an id is an execution of a workflow of a tenant. -/
def Settled (s : Store) (tenant id : String) : Prop :=
  ∀ r ∈ s.executions, r.id = id → s.Serves tenant r.workflow

/-- An action of a workflow of a tenant may point at a ticket, by its configuration or by the item that
an execution is about. -/
def Names (s : Store) (tenant ticket : String) : Prop :=
  ∃ w n caller, s.Holds w ∧ w.tenant = tenant ∧ n ∈ w.nodes ∧
    (n.kind = .action "update_ticket" ∨ n.kind = .action "assign_ticket") ∧
    caller.tenant = tenant ∧ (Action.Builtin.ticketId n.config caller).display = ticket

/-- What a tenant has made of the records: all new ones are the tenant's, and old ones have changed only
where tickets are named. -/
structure Scoped (tenant : String) (named : String → Prop) (s t : Store) : Prop where
  tickets : ∀ k old, s.ticket? k = some old →
    ∃ new, t.ticket? k = some new ∧ (new = old ∨ named k ∧ old.Retains new)
  created : ∀ r ∈ t.tickets, r.tenant = tenant ∨ ∃ old ∈ s.tickets, old.id = r.id ∧ old.tenant = r.tenant
  notifications : ∃ new, t.notifications = s.notifications ++ new ∧ ∀ r ∈ new, r.tenant = tenant
  articles : ∃ new, t.articles = s.articles ++ new ∧ ∀ r ∈ new, r.tenant = tenant

namespace Scoped

variable {tenant : String} {named : String → Prop} {s t u : Store}

theorem of_eq (tickets : t.tickets = s.tickets) (notifications : t.notifications = s.notifications)
    (articles : t.articles = s.articles) : s.Scoped tenant named t where
  tickets k old found := ⟨old, by unfold ticket? at found ⊢; rwa [tickets], .inl rfl⟩
  created r there := .inr ⟨r, tickets ▸ there, rfl, rfl⟩
  notifications := ⟨[], by rw [notifications, List.append_nil], nofun⟩
  articles := ⟨[], by rw [articles, List.append_nil], nofun⟩

theorem refl (s : Store) : s.Scoped tenant named s := of_eq rfl rfl rfl

theorem trans (first : s.Scoped tenant named t) (second : t.Scoped tenant named u) :
    s.Scoped tenant named u where
  tickets k old found := by
    obtain ⟨mid, there, same⟩ := first.tickets k old found
    obtain ⟨new, present, still⟩ := second.tickets k mid there
    refine ⟨new, present, ?_⟩
    rcases same with rfl | ⟨pointed, retained⟩
    · exact still
    · rcases still with rfl | ⟨-, retained'⟩
      · exact .inr ⟨pointed, retained⟩
      · exact .inr ⟨pointed, retained.trans retained'⟩
  created r there := by
    rcases second.created r there with own | ⟨mid, present, name, owner⟩
    · exact .inl own
    · rcases first.created mid present with own | ⟨old, listed, name', owner'⟩
      · exact .inl (owner ▸ own)
      · exact .inr ⟨old, listed, name'.trans name, owner'.trans owner⟩
  notifications := by
    obtain ⟨new, here, own⟩ := first.notifications
    obtain ⟨new', here', own'⟩ := second.notifications
    exact ⟨new ++ new', by rw [here', here, List.append_assoc], List.forall_mem_append.2 ⟨own, own'⟩⟩
  articles := by
    obtain ⟨new, here, own⟩ := first.articles
    obtain ⟨new', here', own'⟩ := second.articles
    exact ⟨new ++ new', by rw [here', here, List.append_assoc], List.forall_mem_append.2 ⟨own, own'⟩⟩

theorem createTicket {row : TicketRow} (own : row.tenant = tenant) :
    s.Scoped tenant named { s with tickets := s.tickets ++ [row] } where
  tickets k old found := by
    refine ⟨old, ?_, .inl rfl⟩
    unfold ticket? at found ⊢
    rw [List.find?_append, found]
    rfl
  created r there := (List.mem_append.1 there).elim (fun old => .inr ⟨r, old, rfl, rfl⟩)
    fun new => .inl (List.mem_singleton.1 new ▸ own)
  notifications := ⟨[], (List.append_nil _).symm, nofun⟩
  articles := ⟨[], (List.append_nil _).symm, nofun⟩

theorem ticket?_updateTicket (s : Store) (id k : String) {f : TicketRow → TicketRow}
    (keeps : ∀ r ∈ s.tickets, r.id = id → (f r).id = id) :
    (s.updateTicket id f).ticket? k = (s.ticket? k).map fun r => if r.id == id then f r else r := by
  unfold updateTicket ticket?
  rw [List.find?_map]
  congr 1
  refine List.find?_congr fun r there => ?_
  by_cases own : r.id = id
  · have same := keeps r there own
    simp [own, same]
  · simp [own]

/-- A ticket that is named gets new fields. -/
theorem updateTicket {id : String} {f : TicketRow → TicketRow} (pointed : named id)
    (retains : ∀ r ∈ s.tickets, r.id = id → ∃ old ∈ s.tickets, old.id = id ∧ old.Retains (f r))
    (first : ∀ old, s.ticket? id = some old → old.Retains (f old)) :
    s.Scoped tenant named (s.updateTicket id f) where
  tickets k old found := by
    have own : old.id = k := by simpa using List.find?_some found
    refine ⟨_, by
      rw [ticket?_updateTicket s id k fun r there whose => by
        obtain ⟨old, -, name, retained⟩ := retains r there whose
        exact retained.id.trans name, found]
      rfl, ?_⟩
    by_cases same : old.id = id
    · have here : s.ticket? id = some old := by rwa [← same, own]
      simp only [same, beq_self_eq_true, if_true]
      exact .inr ⟨own ▸ same ▸ pointed, first old here⟩
    · simp [same]
  created r there := by
    obtain ⟨old, listed, rfl⟩ := List.mem_map.1 there
    by_cases same : old.id = id
    · obtain ⟨first, present, name, retained⟩ := retains old listed same
      simp only [same, beq_self_eq_true, if_true]
      exact .inr ⟨first, present, retained.id.symm, retained.tenant.symm⟩
    · simp only [same, beq_iff_eq, if_false]
      exact .inr ⟨old, listed, rfl, rfl⟩
  notifications := ⟨[], (List.append_nil _).symm, nofun⟩
  articles := ⟨[], (List.append_nil _).symm, nofun⟩

theorem notify {rows : List NotificationRow} (own : ∀ r ∈ rows, r.tenant = tenant) :
    s.Scoped tenant named { s with notifications := s.notifications ++ rows } where
  tickets _ old found := ⟨old, found, .inl rfl⟩
  created r there := .inr ⟨r, there, rfl, rfl⟩
  notifications := ⟨rows, rfl, own⟩
  articles := ⟨[], (List.append_nil _).symm, nofun⟩

theorem createArticle {row : ArticleRow} (own : row.tenant = tenant) :
    s.Scoped tenant named { s with articles := s.articles ++ [row] } where
  tickets _ old found := ⟨old, found, .inl rfl⟩
  created r there := .inr ⟨r, there, rfl, rfl⟩
  notifications := ⟨[], (List.append_nil _).symm, nofun⟩
  articles := ⟨[row], rfl, fun _ there => List.mem_singleton.1 there ▸ own⟩

end Scoped

/-- Changes keep what tells a ticket. -/
theorem TicketRow.retains_of_change {old new : TicketRow} {updates : Dict}
    (changed : old.change updates = .ok new) : old.Retains new := by
  obtain ⟨id, tenant, title, -, createdBy⟩ := TicketRow.change_keeps changed
  exact ⟨id, tenant, title, createdBy⟩

/-- What is made of every item in turn has the property that each has. -/
theorem forall_of_mapM {α β : Type} {f : α → Except Refusal β} {p : β → Prop} {items : List α}
    {made : List β} (written : items.mapM f = .ok made) (each : ∀ a ∈ items, ∀ b, f a = .ok b → p b) :
    ∀ b ∈ made, p b := by
  induction items generalizing made with
  | nil =>
    cases written
    exact nofun
  | cons a rest ih =>
    rw [List.mapM_cons] at written
    obtain ⟨b, first, written⟩ := bind_eq_ok written
    obtain ⟨others, later, written⟩ := bind_eq_ok written
    cases written
    exact List.forall_mem_cons.2 ⟨each a (.head _) b first, ih later fun a there => each a (.tail _ there)⟩

/-- The tables while only the workflows of a tenant run: the workflows stay, and what is taken up again
is a run of one of them. Certain executions are foreign. -/
structure Confined (tenant : String) (foreign : String → Prop) (s t : Store) : Prop where
  workflows : t.workflows = s.workflows
  records : s.Scoped tenant (s.Names tenant) t
  rows : ∀ r ∈ t.executions, foreign r.id ∨ s.Serves tenant r.workflow
  markers : ∀ m ∈ t.markers, ¬foreign m.execution

/-- A change of the records. -/
theorem Confined.scope {tenant : String} {foreign : String → Prop} {s t u : Store}
    (confined : s.Confined tenant foreign t) (records : t.Scoped tenant (s.Names tenant) u)
    (workflows : u.workflows = t.workflows) (executions : u.executions = t.executions)
    (markers : u.markers = t.markers) : s.Confined tenant foreign u where
  workflows := workflows.trans confined.workflows
  records := confined.records.trans records
  rows := executions ▸ confined.rows
  markers := markers ▸ confined.markers

/-- A change of the executions. -/
theorem Confined.run {tenant : String} {foreign : String → Prop} {s t u : Store}
    (confined : s.Confined tenant foreign t) (workflows : u.workflows = t.workflows)
    (tickets : u.tickets = t.tickets) (notifications : u.notifications = t.notifications)
    (articles : u.articles = t.articles)
    (rows : ∀ r ∈ u.executions, foreign r.id ∨ s.Serves tenant r.workflow)
    (markers : ∀ m ∈ u.markers, ¬foreign m.execution) : s.Confined tenant foreign u where
  workflows := workflows.trans confined.workflows
  records := confined.records.trans (.of_eq tickets notifications articles)
  rows := rows
  markers := markers

end Store

/-- Only workflows of a tenant are set off. -/
def Operation.Within (s : Store) (tenant : String) : Operation → Prop
  | .execute workflow _ _ _ => s.Serves tenant workflow
  | .trigger module _ _ _ => ∀ row ∈ s.workflows, row.module = module →
      row.status = WorkflowStatus.active.name → s.Serves tenant row.id
  | .cancel _ | .cancelAll _ | .advance _ | .restart _ | .resume | .shutdown | .outage _ => True
  | _ => False

namespace Action

/-- A script may ask for something, depending on what it is answered. -/
inductive Script.MayAsk {α : Type} (r : Request) : Script α → Prop where
  | here {next : Except Failure r.Answer → Script α} : (Script.ask r next).MayAsk r
  | put {key : Key} {v : Value} {next : Script α} (later : next.MayAsk r) : (Script.put key v next).MayAsk r
  | ask {other : Request} {next : Except Failure other.Answer → Script α}
      (given : Except Failure other.Answer) (later : (next given).MayAsk r) :
      (Script.ask other next).MayAsk r

theorem Script.MayAsk.of_wrapScript {α : Type} {r : Request} {actionType : String} {script : Script α}
    (asks : (Registry.wrapScript actionType script).MayAsk r) : script.MayAsk r := by
  induction script with
  | done a => cases asks
  | fail f => cases asks
  | put k v next ih =>
    cases asks with
    | put later => exact .put (ih later)
  | ask other next ih =>
    cases asks with
    | here => exact .here
    | ask given later => exact .ask given (ih given later)

/-- What a built-in action asks for: its one effect, on behalf of the tenant of its caller. -/
inductive Builtin.Errand (config : Dict) (caller : Caller) : String → Request → Prop where
  | updateTicket (updates : Dict) : Errand config caller "update_ticket"
      (.updateTicket (ticketId config caller).display updates)
  | createTicket {draft : TicketDraft} (own : draft.tenant = .text caller.tenant) :
      Errand config caller "create_ticket" (.createTicket draft)
  | assignTicket (assignee : String) : Errand config caller "assign_ticket"
      (.assignTicket (ticketId config caller).display assignee)
  | notify {a : Announcement} (own : a.tenant = .text caller.tenant) :
      Errand config caller "send_notification" (.notify a)
  | createArticle {draft : ArticleDraft} (own : draft.tenant = .text caller.tenant) :
      Errand config caller "create_knowledge_article" (.createArticle draft)
  | http (method url headers body timeout : Value) :
      Errand config caller "http_request" (.http method url headers body timeout)

theorem errand_of_mayAsk {timeout : Value} {actionType description : String} {handler : Handler}
    (builtin : (actionType, description, handler) ∈ builtins timeout) {config : Dict} {caller : Caller}
    {r : Request} (asks : (handler config caller).MayAsk r) : Builtin.Errand config caller actionType r := by
  simp only [builtins, List.mem_cons, Prod.mk.injEq, List.not_mem_nil, or_false] at builtin
  rcases builtin with ⟨rfl, -, rfl⟩ | ⟨rfl, -, rfl⟩ | ⟨rfl, -, rfl⟩ | ⟨rfl, -, rfl⟩ | ⟨rfl, -, rfl⟩ |
    ⟨rfl, -, rfl⟩ | ⟨rfl, -, rfl⟩
  · unfold Builtin.updateTicket at asks
    dsimp only at asks
    split at asks
    · cases asks
    · cases asks with
      | here => exact .updateTicket _
      | ask given later => cases given <;> cases later
  · cases asks with
    | here => exact .createTicket rfl
    | ask given later =>
      cases given with
      | error f => cases later
      | ok id =>
        cases later with
        | put later => cases later
  · unfold Builtin.assignTicket at asks
    dsimp only at asks
    split at asks
    · cases asks
    · cases asks with
      | here => exact .assignTicket _
      | ask given later => cases given <;> cases later
  · unfold Builtin.sendNotification at asks
    dsimp only at asks
    split at asks
    · cases asks
    · cases asks with
      | here => exact .notify rfl
      | ask given later => cases given <;> cases later
  · cases asks with
    | here => exact .createArticle rfl
    | ask given later =>
      cases given with
      | error f => cases later
      | ok id =>
        cases later with
        | put later => cases later
  · unfold Builtin.setVariable at asks
    dsimp only at asks
    split at asks
    · cases asks
    · cases named : Builtin.variableKey (Dict.getD config "name") with
      | error f =>
        rw [named] at asks
        cases asks
      | ok key =>
        rw [named] at asks
        cases asks with
        | put later => cases later
  · unfold Builtin.httpRequest at asks
    dsimp only at asks
    split at asks
    · cases asks
    · cases asks with
      | here => exact .http _ _ _ _ _
      | ask given later =>
        cases given with
        | error f => cases later
        | ok a =>
          cases later with
          | put later =>
            split at later <;> cases later

/-- The handlers that a standard registry knows are the built-in ones. -/
theorem mem_builtins_of_handler? {timeout : Value} {actionType : String} {handler : Handler}
    (registered : (Registry.standard timeout).handler? actionType = some handler) :
    ∃ description, (actionType, description, handler) ∈ builtins timeout := by
  unfold Registry.handler? Registry.standard at registered
  obtain ⟨p, found, same⟩ := Option.map_eq_some_iff.1 registered
  obtain ⟨⟨name, description, h⟩, listed, rfl⟩ := List.mem_map.1 (List.mem_of_find?_eq_some found)
  have own : name = actionType := by simpa using List.find?_some found
  subst own same
  exact ⟨description, listed⟩

end Action

namespace Storage

open Store (Confined)

variable {α : Type} {tenant : String} {foreign : String → Prop} {v : Store}

/-! What the operations leave of the tables. -/

/-- Work on the records. -/
theorem confined_records {work : Store → Except Store.Refusal (α × Store)}
    (aside : ∀ u a w, work u = .ok (a, w) → u.Scoped tenant (v.Names tenant) w ∧
      w.workflows = u.workflows ∧ w.executions = u.executions ∧ w.markers = u.markers)
    (operation table : String) :
    Preserves (v.Confined tenant foreign) (session operation table work) := by
  refine .session (fun u a w confined done => ?_) operation table
  obtain ⟨records, workflows, executions, markers⟩ := aside u a w done
  exact confined.scope records workflows executions markers

theorem confined_createTicket {t : TicketDraft} (own : t.tenant = .text tenant) :
    Preserves (v.Confined tenant foreign) (createTicket t) := by
  refine .bind .freshId fun id => .bind (confined_records (fun u a w done => ?_) _ _) fun _ =>
    .bind (.note _ _ _) fun _ => .pure _
  obtain ⟨row, drafted, done⟩ := bind_eq_ok done
  cases done
  exact ⟨.createTicket (Store.TicketRow.of_ofDraft drafted own |>.2), rfl, rfl, rfl⟩

theorem confined_updateTicket {id : String} (named : v.Names tenant id) (updates : Dict) :
    Preserves (v.Confined tenant foreign) (updateTicket id updates) := by
  refine .bind (confined_records (fun u a w done => ?_) _ _) fun _ => ?_
  · split at done
    · cases done
    · rename_i old here
      obtain ⟨new, changed, done⟩ := bind_eq_ok done
      cases done
      have retained := Store.TicketRow.retains_of_change changed
      have own : old.id = id := by simpa using List.find?_some here
      refine ⟨.updateTicket named (fun r _ _ => ⟨old, List.mem_of_find?_eq_some here, own, retained⟩)
        fun t found => ?_, rfl, rfl, rfl⟩
      cases here.symm.trans found
      exact retained
  · split
    · exact .note _ _ _
    · exact .throw _

theorem confined_assignTicket {id : String} (named : v.Names tenant id) (assignee : Value) :
    Preserves (v.Confined tenant foreign) (assignTicket id assignee) := by
  refine .bind (confined_records (fun u a w done => ?_) _ _) fun _ => .note _ _ _
  split at done
  · cases done
  · obtain ⟨cell, -, done⟩ := bind_eq_ok done
    cases done
    exact ⟨.updateTicket named (fun r there own => ⟨r, there, own, rfl, rfl, rfl, rfl⟩)
      fun _ _ => ⟨rfl, rfl, rfl, rfl⟩, rfl, rfl, rfl⟩

theorem confined_notify {a : Announcement} (own : a.tenant = .text tenant) :
    Preserves (v.Confined tenant foreign) (notify a) := by
  refine .bind (.openSession _ _) fun _ => .bind (.freshIds _) fun ids => .bind
    (.transact (fun u b w confined done => ?_) _ _) fun _ => .bind (.note _ _ _) fun _ => .pure _
  obtain ⟨rows, written, done⟩ := bind_eq_ok done
  cases done
  refine confined.scope (.notify (Store.forall_of_mapM written fun p _ row made => ?_)) rfl rfl rfl
  exact (Store.NotificationRow.of_ofAnnouncement made own).2

theorem confined_createArticle {a : ArticleDraft} (own : a.tenant = .text tenant) :
    Preserves (v.Confined tenant foreign) (createArticle a) := by
  refine .bind .freshId fun id => .bind (confined_records (fun u a w done => ?_) _ _) fun _ =>
    .bind (.note _ _ _) fun _ => .pure _
  obtain ⟨row, drafted, done⟩ := bind_eq_ok done
  cases done
  exact ⟨.createArticle (Store.ArticleRow.of_ofDraft drafted own |>.2), rfl, rfl, rfl⟩

theorem confined_saveMarker {execution : String} (own : ¬foreign execution) (node : String)
    (resumeAt : Instant) (context : Value) :
    Preserves (v.Confined tenant foreign) (saveMarker execution node resumeAt context) := by
  refine .retrying (.session (fun u a w confined done => ?_) _ _) _
  cases done
  refine confined.run rfl rfl rfl rfl confined.rows fun m there => ?_
  rcases List.mem_append.1 there with old | new
  · exact confined.markers m old
  · exact List.mem_singleton.1 new ▸ own

theorem confined_clearMarker (id : Int) : Preserves (v.Confined tenant foreign) (clearMarker id) := by
  refine .session (fun u a w confined done => ?_) _ _
  split at done <;> cases done
  exact confined.run rfl rfl rfl rfl confined.rows fun m there =>
    confined.markers m (List.mem_filter.1 there).1

theorem confined_clearMarkers (execution : String) :
    Preserves (v.Confined tenant foreign) (clearMarkers execution) :=
  .clearMarkers fun _ confined => confined.run rfl rfl rfl rfl confined.rows fun m there =>
    confined.markers m (List.mem_filter.1 there).1

theorem confined_appendLog (execution : String) (cell : Value) (entry : LogEntry) :
    Preserves (v.Confined tenant foreign) (appendLog execution cell entry) :=
  .appendLog (fun _ _ _ confined => confined.run rfl rfl rfl rfl confined.rows confined.markers) cell entry

theorem confined_setExecutionStatus (id : String) (status error time : Value) :
    Preserves (v.Confined tenant foreign) (setExecutionStatus id status error time) := by
  refine .setExecutionStatus (fun u status error time confined => ?_) status error time
  refine confined.run rfl rfl rfl rfl (fun r there => ?_) confined.markers
  obtain ⟨old, listed, rfl⟩ := List.mem_map.1 there
  have known := confined.rows old listed
  split
  · exact known
  · exact known

/-- An execution of a workflow of the tenant comes in. -/
theorem confined_createExecution {workflow : String} (serves : v.Serves tenant workflow)
    (owner data module item : Value) :
    Preserves (v.Confined tenant foreign) (createExecution (.text workflow) owner data module item) := by
  refine .retrying (.bind .freshId fun id => .bind (.session (fun u a w confined done => ?_) _ _)
    fun _ => .pure _) _
  obtain ⟨row, opening, done⟩ := bind_eq_ok done
  cases done
  obtain ⟨-, cell⟩ := workflow_of_opening opening
  refine confined.run rfl rfl rfl rfl (fun r there => ?_) confined.markers
  rcases List.mem_append.1 there with old | new
  · exact confined.rows r old
  · rw [List.mem_singleton.1 new]
    exact .inr (Option.some.inj (Except.ok.inj cell) ▸ serves)

/-- What is loaded was read from a row. -/
theorem holds_loadWorkflow (id : String) (s : Storage) :
    Ends (loadWorkflow id) s (fun w _ => s.tables.Holds w ∧ w.id = some id) fun _ _ => True := by
  refine Ends.bind ((bears_session _ _).imp ?_ fun _ _ _ => trivial)
  rintro row t ⟨done, -, -⟩
  obtain ⟨found, isFound, done⟩ := bind_eq_ok done
  cases (Prod.mk.inj (Except.ok.inj done)).1
  dsimp only at isFound
  split at isFound
  · rename_i here
    cases isFound
    have own : row.id = id := by simpa using List.find?_some here
    split
    · rename_i parsed
      exact Ends.pure_iff.2 ⟨⟨row, List.mem_of_find?_eq_some here, parsed⟩, own ▸ row.id_of_parse parsed⟩
    · exact Ends.throw_iff.2 trivial
  · cases isFound

end Storage

namespace Engine

/-- Only workflows of a tenant run, with the built-in actions. No foreign execution is known, nor is its
id given to a new one. -/
structure Confined (tenant : String) (foreign : String → Prop) (s : Store) (e : Engine) : Prop where
  registry : ∃ timeout, e.registry = .standard timeout
  tables : s.Confined tenant foreign e.storage.tables
  runs : ∀ k x, e.execution? k = some x →
    s.Holds x.workflow ∧ x.workflow.tenant = tenant ∧ ¬foreign k
  early : ∀ k, foreign k → ∃ n < e.storage.nextId, k = idText n

variable {α : Type} {tenant : String} {foreign : String → Prop} {s : Store} {e t : Engine} {id : String}

namespace Confined

/-- Executions change in memory, but not their workflows. -/
theorem change (confined : e.Confined tenant foreign s) (storage : t.storage = e.storage)
    (registry : t.registry = e.registry)
    (same : ∀ k x, t.execution? k = some x → ∃ y, e.execution? k = some y ∧ y.workflow = x.workflow) :
    t.Confined tenant foreign s where
  registry := registry ▸ confined.registry
  tables := storage ▸ confined.tables
  runs k x known := by
    obtain ⟨y, there, workflow⟩ := same k x known
    exact workflow ▸ confined.runs k y there
  early := storage ▸ confined.early

/-- Work of the storage. -/
theorem serve (confined : e.Confined tenant foreign s) {u : Storage} (later : e.storage.nextId ≤ u.nextId)
    (tables : s.Confined tenant foreign u.tables) : { e with storage := u }.Confined tenant foreign s where
  registry := confined.registry
  tables := tables
  runs := confined.runs
  early k far := by
    obtain ⟨n, before, same⟩ := confined.early k far
    exact ⟨n, Nat.lt_of_lt_of_le before later, same⟩

/-- An execution of a workflow of the tenant becomes known. -/
theorem put (confined : e.Confined tenant foreign s) {x : Execution} (holds : s.Holds x.workflow)
    (own : x.workflow.tenant = tenant) (near : ¬foreign x.id) :
    (e.putExecution x).Confined tenant foreign s where
  registry := confined.registry
  tables := confined.tables
  runs k y known := by
    rw [execution?_replace] at known
    by_cases same : k = x.id
    · rw [if_pos same] at known
      cases known
      exact ⟨holds, own, same ▸ near⟩
    · rw [if_neg same] at known
      exact confined.runs k y known
  early := confined.early

end Confined

theorem confined_lift {x : StorageM α}
    (bears : ∀ u, Ends x u (fun _ v => Storage.Bears [] u v) fun _ v => Storage.Bears [] u v)
    (preserves : Storage.Preserves (s.Confined tenant foreign) x) :
    Keeps (Confined tenant foreign s) (liftM x : Run α) := by
  intro e confined
  apply ends_storage.2
  refine ((bears e.storage).and (preserves e.storage confined.tables)).imp ?_ ?_ <;>
  · rintro _ u ⟨bears, tables⟩
    exact confined.serve bears.later tables

theorem confined_modify {f : Engine → Engine} (storage : ∀ e, (f e).storage = e.storage)
    (registry : ∀ e, (f e).registry = e.registry)
    (same : ∀ e k x, (f e).execution? k = some x → ∃ y, e.execution? k = some y ∧
      y.workflow = x.workflow) : Keeps (Confined tenant foreign s) (modify f) :=
  fun e confined => Ends.modify_iff.2 (confined.change (storage e) (registry e) (same e))

theorem confined_modifyExecution (id : String) {f : Execution → Execution} (named : ∀ x, (f x).id = x.id)
    (workflow : ∀ x, (f x).workflow = x.workflow) :
    Keeps (Confined tenant foreign s) (modifyExecution id f) := by
  refine confined_modify (fun _ => rfl) (fun _ => rfl) fun e k x known => ?_
  rw [execution?_modify named] at known
  split at known
  · obtain ⟨y, there, rfl⟩ := Option.map_eq_some_iff.1 known
    exact ⟨y, there, (workflow y).symm⟩
  · exact ⟨x, known, rfl⟩

/-- Each elementary step on behalf of an execution that is not foreign keeps to the tenant. -/
theorem habit_confined : Habit (Confined tenant foreign s) (¬foreign ·) where
  alter outward := confined_modifyExecution _ outward.id outward.workflow
  clock _ := confined_modify (fun _ => rfl) (fun _ => rfl) fun _ _ x known => ⟨x, known, rfl⟩
  network _ := confined_modify (fun _ => rfl) (fun _ => rfl) fun _ _ x known => ⟨x, known, rfl⟩
  retire _ := confined_modify (fun _ => rfl) (fun _ => rfl) fun _ _ x known => ⟨x, known, rfl⟩
  stop _ _ := confined_modify (fun _ => rfl) (fun _ => rfl) fun _ _ x known => ⟨x, known, rfl⟩
  close := confined_modify (fun _ => rfl) (fun _ => rfl) fun _ _ x known => ⟨x, known, rfl⟩
  journal _ _ confined := Ends.modify_iff.2 (confined.serve (Nat.le_refl _) confined.tables)
  appendLog _ cell entry := confined_lift (fun _ => Storage.bears_appendLog ..)
    (Storage.confined_appendLog _ cell entry)
  saveMarker own _ _ confined _ _ _ := confined_lift (fun _ => (Storage.Errand.saveMarker ..).bears)
    (Storage.confined_saveMarker own _ _ _) _ confined
  clearMarker id := confined_lift (fun _ => (Storage.Errand.clearMarker _).bears)
    (Storage.confined_clearMarker id)
  clearMarkers id := confined_lift (fun _ => (Storage.Errand.clearMarkers id).bears)
    (Storage.confined_clearMarkers id)
  setStatus id status error time := confined_lift (fun _ => Storage.bears_setExecutionStatus ..)
    (Storage.confined_setExecutionStatus id status error time)

/-- Only what is known is cancelled, and that is not foreign. -/
theorem confined_cancel (id : String) : Keeps (Confined tenant foreign s) (cancel id) := by
  intro e confined
  refine Ends.bind (Ends.get_iff.2 ?_)
  cases found : e.liveExecution? id with
  | none => exact Keeps.bind habit_confined.note (fun _ => .pure _) e confined
  | some x =>
    have known : e.execution? id = some x := by
      unfold liveExecution? at found
      split at found
      · exact found
      · cases found
    exact habit_confined.cancelled (confined.runs id x known).2.2 x e confined

theorem confined_cancelAll (workflow : String) :
    Keeps (Confined tenant foreign s) (cancelAll workflow) :=
  .get fun _ => .bind (.mapM _ confined_cancel) fun _ => .pure _

/-! Actions. -/

/-- What an action of a workflow of the tenant asks for on behalf of the tenant. -/
theorem confined_perform {launch : Launch} {n : Node} {w : Workflow} {actionType : String}
    {caller : Action.Caller} {r : Action.Request} (holds : s.Holds w) (own : w.tenant = tenant)
    (part : n ∈ w.nodes) (kind : n.kind = .action actionType) (calls : caller.tenant = tenant)
    (errand : Action.Builtin.Errand n.config caller actionType r) :
    Keeps (Confined tenant foreign s) (perform launch r) := by
  cases errand with
  | updateTicket updates =>
    exact confined_lift (fun _ => (Storage.quiet_updateTicket _ updates).bears)
      (Storage.confined_updateTicket ⟨w, n, caller, holds, own, part, .inl kind, calls, rfl⟩ updates)
  | createTicket whose =>
    exact confined_lift (fun _ => (Storage.quiet_createTicket _).bears)
      (Storage.confined_createTicket (calls ▸ whose))
  | assignTicket assignee =>
    exact confined_lift (fun _ => (Storage.quiet_assignTicket _ (.text assignee)).bears)
      (Storage.confined_assignTicket ⟨w, n, caller, holds, own, part, .inr kind, calls, rfl⟩ _)
  | notify whose =>
    exact confined_lift (fun _ => (Storage.quiet_notify _).bears)
      (Storage.confined_notify (calls ▸ whose))
  | createArticle whose =>
    exact confined_lift (fun _ => (Storage.quiet_createArticle _).bears)
      (Storage.confined_createArticle (calls ▸ whose))
  | http method url headers body timeout =>
    exact .get fun _ => .bind (.ofExcept _) fun request => .get fun e =>
      .bind (habit_confined.network fun _ => (e.network.send request).2) fun _ => .ofExcept _

theorem confined_script {launch : Launch} (id : String) {script : Action.Script α}
    (asks : ∀ r, script.MayAsk r → Keeps (Confined tenant foreign s) (perform launch r)) :
    Keeps (Confined tenant foreign s) (script.run (perform launch) (putVariable id)) := by
  induction script with
  | done a => exact .pure a
  | fail f => exact .throw f
  | put key value next ih =>
    exact .bind (confined_modifyExecution id (by intro; rfl) (by intro; rfl)) fun _ =>
      ih fun r later => asks r (.put later)
  | ask r next ih =>
    exact .bind (.observe (asks r .here)) fun given => ih given fun q later => asks q (.ask given later)

/-- An action of a workflow of the tenant, on behalf of an execution of it. -/
theorem confined_dispatch {launch : Launch} {n : Node} {w : Workflow} {actionType : String}
    (holds : s.Holds w) (own : w.tenant = tenant) (part : n ∈ w.nodes)
    (kind : n.kind = .action actionType) :
    Keeps (Confined tenant foreign s) (dispatch launch id actionType n.config) := by
  intro e confined
  obtain ⟨timeout, standard⟩ := confined.registry
  refine Ends.bind (Ends.get_iff.2 (Keeps.lookUp (fun t x confined known => ?_) e confined))
  have calls : x.caller.tenant = tenant := (confined.runs id x known).2.1
  refine confined_script id (fun r asks => ?_) t confined
  unfold Action.Registry.script at asks
  split at asks
  · cases asks
  · rename_i handler registered
    obtain ⟨description, builtin⟩ := Action.mem_builtins_of_handler? (standard ▸ registered)
    exact confined_perform holds own part kind calls
      (Action.errand_of_mayAsk builtin (.of_wrapScript asks))

/-- A walk through an execution of the tenant keeps to the tenant. -/
theorem guide_confined (launch : Launch) (near : ¬foreign id) :
    Guide (fun e d => d = e ∧ e.Confined tenant foreign s)
      (fun x y => y = x ∧ s.Holds x.workflow ∧ x.workflow.tenant = tenant)
      { role := fun n => ∃ w, s.Holds w ∧ w.tenant = tenant ∧ n ∈ w.nodes } launch launch id where
  execution := by
    rintro e _ ⟨rfl, confined⟩
    cases run : execution id _ with
    | error f t =>
      exact ((Keeps.execution id).twins _ _ ⟨rfl, confined⟩ |> fun met => by
        rw [run] at met
        cases met with
        | failure related => exact .failure related)
    | ok x t =>
      obtain ⟨rfl, known⟩ := known_of_execution run
      obtain ⟨holds, own, -⟩ := confined.runs id x known
      exact .answer ⟨rfl, holds, own⟩ ⟨rfl, confined⟩
  resembles x _ same := by
    obtain ⟨rfl, -⟩ := same
    exact .refl _ _
  roles x _ same n part := ⟨x.workflow, same.2.1, same.2.2, part⟩
  leads _ _ _ _ _ _ := trivial
  worded _ _ := trivial
  limit _ _ related := by rw [related.1]
  say r _ := (habit_confined.log near r.level r.message r.node).twins
  move f pace := (confined_modifyExecution id (by cases pace <;> intro <;> rfl)
    (by cases pace <;> intro <;> rfl)).twins
  forget x _ same := same.1 ▸ (confined_modifyExecution id (by intro; rfl) (by intro; rfl)).twins
  act n actionType role kind := by
    obtain ⟨w, holds, own, part⟩ := role
    exact (confined_dispatch holds own part kind).twins
  delay n amount unit _ _ _ := (habit_confined.runDelay near n amount unit).twins.before
    fun _ _ related => related.1
  fail text := (habit_confined.fail id text).twins

/-! Executions begin. -/

theorem confined_submit {launch : Launch} (near : ¬foreign id) (node : String) :
    Keeps (Confined tenant foreign s) (submit launch id node) := by
  refine .get fun e => .ite (fun _ => ?_) fun _ => .bind (habit_confined.log near _ _ _) fun _ =>
    habit_confined.fail _ _
  exact habit_confined.runBranch near (.bind (.execution id) fun x =>
    .of_twin ((guide_confined launch near).walk _ trivial)) _

/-- An execution starts for a workflow of the tenant that is stored. -/
theorem confined_startExecution {launch : Launch} {w : Workflow} (payload module item : Value)
    {i : String} (holds : s.Holds w) (named : w.id = some i) (serves : s.Serves tenant i) :
    Keeps (Confined tenant foreign s) (startExecution launch w payload module item) := by
  have own := serves.tenant holds named
  intro e confined
  rw [startExecution_eq]
  refine Ends.bind (ends_ofExcept.2 ⟨fun payload _ => ?_, fun _ _ => confined⟩)
  have creates : Storage.Preserves (s.Confined tenant foreign) (Storage.createExecution
      (.ofText? w.id) (.text w.tenant) (.dict payload) module item) := by
    rw [named]
    exact Storage.confined_createExecution serves _ _ _ _
  refine Ends.bind (ends_storage.2 (((Storage.bears_createExecution ..).and
    (creates e.storage confined.tables)).imp ?_ fun _ u h => confined.serve h.1.later h.2))
  rintro id u ⟨⟨i', -, bears⟩, tables⟩
  have stored := confined.serve bears.later tables
  have near : ¬foreign id := fun far => Rooted.ne_of_early bears (confined.early id far) rfl
  refine Ends.bind (Ends.modify_iff.2 (Ends.bind (Ends.modify_iff.2 ?_)))
  have begun := stored.put (x := .opening id w module item payload (initialVariables payload w.vars))
    holds own near
  refine Keeps.bind habit_confined.note (fun _ => .bind (habit_confined.log near _ _ _) fun _ => ?_) _
    (begun.change rfl rfl fun _ x known => ⟨x, known, rfl⟩)
  cases w.trigger? with
  | none =>
    exact .bind (habit_confined.log near _ _ _) fun _ => .bind (habit_confined.fail _ _) fun _ => .pure id
  | some trigger => exact .bind (confined_submit near _) fun _ => .pure id

/-- What is loaded is stored, and under the id that was asked for. -/
theorem confined_loadWorkflow (workflow : String) (confined : e.Confined tenant foreign s) :
    Ends (liftM (Storage.loadWorkflow workflow) : Run Workflow) e
      (fun w t => (s.Holds w ∧ w.id = some workflow) ∧ t.Confined tenant foreign s)
      fun _ t => t.Confined tenant foreign s := by
  refine ends_storage.2 (((Storage.holds_loadWorkflow _ _).and
    ((Storage.quiet_loadWorkflow _).bears.and
      (Storage.Preserves.loadWorkflow workflow e.storage confined.tables))).imp ?_ ?_)
  · rintro w u ⟨⟨⟨row, there, parsed⟩, named⟩, bears, tables⟩
    exact ⟨⟨⟨row, confined.tables.workflows ▸ there, parsed⟩, named⟩, confined.serve bears.later tables⟩
  · rintro _ u ⟨-, bears, tables⟩
    exact confined.serve bears.later tables

theorem confined_execute {workflow : String} (serves : s.Serves tenant workflow)
    (payload module item : Value) :
    Keeps (Confined tenant foreign s) (execute workflow payload module item) := by
  intro e confined
  refine Ends.bind ((confined_loadWorkflow workflow confined).imp ?_ fun _ _ h => h)
  rintro w t ⟨⟨holds, named⟩, confined⟩
  exact confined_startExecution payload module item holds named serves t confined

theorem confined_routeRow (event : Option String) (payload module item : Value)
    {row : Store.WorkflowRow} (there : row ∈ s.workflows) (serves : s.Serves tenant row.id) :
    Keeps (Confined tenant foreign s) (routeRow event payload module item row) := by
  intro e confined
  have parse : Ends (onProgramError (some <$> ofExcept (Workflow.parse row.record)) fun e => do
        note .warning routerLogger ("Skipping malformed workflow " ++ row.id ++ ": " ++ e.text) []
        return none) e
      (fun r t => t.Confined tenant foreign s ∧ ∀ w, r = some w → Workflow.parse row.record = .ok w)
      fun _ t => t.Confined tenant foreign s := by
    cases parsed : Workflow.parse row.record with
    | ok w =>
      refine ⟨confined, ?_⟩
      rintro _ ⟨⟩
      rfl
    | error f =>
      refine Ends.tryCatch_iff.2 (Ends.map_iff.2 (Ends.throw_iff.2 ?_))
      cases f with
      | program p =>
        refine Ends.bind ((habit_confined.note e confined).imp (fun _ t confined => ?_) fun _ _ h => h)
        exact Ends.pure_iff.2 ⟨confined, fun _ no => by cases no⟩
      | _ => exact Ends.throw_iff.2 confined
  refine Ends.bind (parse.imp ?_ fun _ _ h => h)
  rintro (_ | w) t ⟨confined, parsed⟩
  · exact Ends.pure_iff.2 confined
  refine Ends.ite_iff.2 ⟨fun _ => Ends.pure_iff.2 confined, fun _ => ?_⟩
  have parsed := parsed w rfl
  have started : Keeps (Confined tenant foreign s) (startExecution launch w payload module item) :=
    confined_startExecution payload module item ⟨row, there, parsed⟩ (row.id_of_parse parsed) serves
  refine Ends.tryCatch_iff.2 (Ends.map_iff.2 ((started t confined).imp (fun _ _ h => h)
    fun f u confined => ?_))
  cases f with
  | program p => exact Keeps.bind habit_confined.note (fun _ => .pure _) u confined
  | _ => exact Ends.throw_iff.2 confined

/-- What is only read, with the tables that it is read from. -/
theorem confined_query (confined : e.Confined tenant foreign s) (operation table : String)
    (read : Store → Except Store.Refusal α) :
    Ends (liftM (Storage.query operation table read) : Run α) e
      (fun a t => t.Confined tenant foreign s ∧ read e.storage.tables = .ok a)
      fun _ t => t.Confined tenant foreign s := by
  have preserves : Storage.Preserves (s.Confined tenant foreign) (Storage.query operation table read) :=
    .query _ _ _
  refine ends_storage.2 (((Storage.bears_session _ _).and ((Storage.Quiet.query _ _ _).bears.and
    (preserves e.storage confined.tables))).imp ?_ fun _ u h => confined.serve h.2.1.later h.2.2)
  rintro a u ⟨⟨done, -, -⟩, bears, tables⟩
  obtain ⟨found, isFound, done⟩ := bind_eq_ok done
  cases (Prod.mk.inj (Except.ok.inj done)).1
  exact ⟨confined.serve bears.later tables, isFound⟩

theorem confined_trigger {module : String}
    (serves : ∀ row ∈ s.workflows, row.module = module → row.status = WorkflowStatus.active.name →
      s.Serves tenant row.id) (event : Option String) (payload item : Value) :
    Keeps (Confined tenant foreign s) (trigger module event payload item) := by
  intro e confined
  have listed : Ends (onProgramError (some <$> (Storage.activeWorkflows module : Run _)) fun e => do
        note .error routerLogger
          ("Failed to load active workflows for " ++ module ++ ": " ++ e.text) []
        return none) e
      (fun r t => t.Confined tenant foreign s ∧
        ∀ rows, r = some rows → ∀ row ∈ rows, row ∈ s.workflows ∧ s.Serves tenant row.id)
      fun _ t => t.Confined tenant foreign s := by
    refine Ends.tryCatch_iff.2 (Ends.map_iff.2 ((confined_query confined _ _ _).imp ?_ fun f t confined => ?_))
    · rintro rows t ⟨still, read⟩
      refine ⟨still, ?_⟩
      rintro _ ⟨⟩ row there
      cases read
      obtain ⟨there, active⟩ := List.mem_filter.1 there
      obtain ⟨one, active⟩ := Bool.and_eq_true_iff.1 active
      have there := confined.tables.workflows ▸ there
      exact ⟨there, serves row there (eq_of_beq one) (eq_of_beq active)⟩
    · cases f with
      | program p =>
        refine Ends.bind ((habit_confined.note t confined).imp (fun _ t confined => ?_) fun _ _ h => h)
        exact Ends.pure_iff.2 ⟨confined, fun _ no => by cases no⟩
      | _ => exact Ends.throw_iff.2 confined
  refine Ends.bind (listed.imp ?_ fun _ _ h => h)
  rintro (_ | rows) t ⟨confined, known⟩
  · exact Ends.pure_iff.2 confined
  refine Keeps.bind (.of_twin (Leads.mapM rows fun row there => ?_)) (fun _ => .bind habit_confined.note
    fun _ => .pure _) t confined
  obtain ⟨stored, own⟩ := known rows rfl row there
  exact (confined_routeRow event payload _ item stored own).twins

/-! Timers fire. -/

theorem confined_fire (timer : Timer) : Keeps (Confined tenant foreign s) (fire timer) := by
  refine .get fun e => .ite (fun _ => ?_) fun _ => habit_confined.note
  by_cases far : foreign timer.execution
  · -- A foreign execution is not known, so that there is nothing to continue.
    exact .lookUp fun e x confined known => absurd far (confined.runs _ x known).2.2
  · refine habit_confined.runBranch far ?_ _
    refine .bind (confined_modifyExecution _ (by intro; rfl) (by intro; rfl)) fun _ =>
      .bind (.isActive _) fun _ => .ite (fun _ => ?_) fun _ => .pure _
    refine .bind (habit_confined.log far _ _ _) fun _ => .bind (Keeps.onStorageError
      (habit_confined.clearMarker _) fun _ => habit_confined.note) fun _ => .bind (.execution _) fun _ => ?_
    exact .of_twin ((guide_confined Engine.launch far).follow (fun _ => (guide_confined Engine.launch far).walk _)
      fun _ _ _ _ _ => trivial)

theorem confined_moveTo (now : Float) : Keeps (Confined tenant foreign s) (moveTo now) :=
  .get fun e => .bind (habit_confined.clock fun _ => (e.clock.moveTo now).2) fun _ =>
    .forM _ confined_fire

/-! A new engine takes up what waits. -/

/-- What is made live again from its markers is an execution of the tenant. -/
theorem confined_rebuild (near : ¬foreign id) (first : Store.Marker) (ms : List Store.Marker) :
    Keeps (Confined tenant foreign s) (rebuild id first ms) := by
  intro e confined
  have discard : Keeps (Confined tenant foreign s) (do
      let _ ← (Storage.clearMarkers id : Run Nat)
      return (none : Option Execution)) := .bind (habit_confined.clearMarkers id) fun _ => .pure _
  have found : Ends (findRecord id) e
      (fun r t => t.Confined tenant foreign s ∧
        ∀ record, r = some record → s.Serves tenant record.row.workflow)
      fun _ t => t.Confined tenant foreign s := by
    refine Ends.tryCatch_iff.2 (Ends.map_iff.2 ((confined_query confined _ _ _).imp ?_
      fun f t confined => ?_))
    · rintro record t ⟨still, read⟩
      refine ⟨still, ?_⟩
      rintro _ ⟨⟩
      split at read
      · rename_i row here
        have same : record.row = row := by
          rcases Storage.load_row row with ⟨data, loaded⟩ | ⟨f, failed, -⟩
          · exact congrArg (·.row) (Except.ok.inj (read.symm.trans loaded))
          · cases read.symm.trans failed
        have named : row.id = id := by simpa using List.find?_some here
        rw [same]
        exact (confined.tables.rows row (List.mem_of_find?_eq_some here)).resolve_left (named ▸ near)
      · cases read
    · cases f with
      | program p =>
        exact Ends.ite_iff.2 ⟨fun _ => Ends.pure_iff.2 ⟨confined, fun _ no => by cases no⟩,
          fun _ => Ends.throw_iff.2 confined⟩
      | _ => exact Ends.throw_iff.2 confined
  refine Ends.bind (found.imp ?_ fun _ _ h => h)
  rintro (_ | record) t ⟨confined, serves⟩
  · exact discard t confined
  have serves := serves record rfl
  refine Ends.ite_iff.2 ⟨fun _ => discard t confined, fun _ => ?_⟩
  have loaded : Ends (onProgramError
      (Except.ok <$> (Storage.loadWorkflow record.row.workflow : Run Workflow))
      fun p => pure (.error p)) t
      (fun r u => u.Confined tenant foreign s ∧
        ∀ w, r = .ok w → s.Holds w ∧ w.id = some record.row.workflow)
      fun _ u => u.Confined tenant foreign s := by
    refine Ends.tryCatch_iff.2 (Ends.map_iff.2 ((confined_loadWorkflow _ confined).imp ?_ ?_))
    · rintro w u ⟨known, confined⟩
      refine ⟨confined, ?_⟩
      rintro _ ⟨⟩
      exact known
    · rintro f u confined
      cases f with
      | program p => exact Ends.pure_iff.2 ⟨confined, fun w no => by cases no⟩
      | _ => exact Ends.throw_iff.2 confined
  refine Ends.bind (loaded.imp ?_ fun _ _ h => h)
  rintro (p | w) u ⟨confined, known⟩
  · exact Keeps.bind habit_confined.note (fun _ => .bind discard fun _ =>
      .bind (habit_confined.setStatus _ _ _ _) fun _ => .pure none) u confined
  · obtain ⟨holds, own⟩ := known w rfl
    refine Ends.bind (ends_ofExcept.2 ⟨fun s _ => ?_, fun _ _ => confined⟩)
    refine Ends.bind (ends_ofExcept.2 ⟨fun x absorbed => ?_, fun _ _ => confined⟩)
    refine Ends.bind (Ends.modify_iff.2 (Ends.bind (Ends.modify_iff.2 (Ends.pure_iff.2 ?_))))
    obtain ⟨named, workflow⟩ := belongs_of_absorbed absorbed
    have put := confined.put (x := x) (workflow ▸ holds) (workflow ▸ serves.tenant holds own)
      (named ▸ near)
    exact put.change rfl rfl fun _ y known => ⟨y, known, rfl⟩

theorem confined_resumeGroup {ms : List Store.Marker} (near : ¬foreign id)
    (own : ∀ m ∈ ms, m.execution = id) (now : Instant) :
    Keeps (Confined tenant foreign s) (resumeGroup now (id, ms)) := by
  cases ms with
  | nil => exact .pure _
  | cons first rest =>
    refine .bind (confined_rebuild near first _) fun r => ?_
    cases r with
    | none => exact .pure _
    | some x =>
      refine .bind (.of_twin (Leads.forM _ fun m there => Keeps.twins ?_)) fun _ =>
        .bind (habit_confined.branchFinished near) fun _ => .pure _
      exact .bind (habit_confined.log (own m there ▸ near) _ _ _) fun _ =>
        habit_confined.scheduleContinuation _ _ _ _

theorem confined_resume : Keeps (Confined tenant foreign s) resume := by
  intro e confined
  refine Ends.bind (Ends.get_iff.2 (Ends.bind ((confined_query confined _ _ _).imp ?_ fun _ _ h => h)))
  rintro ms t ⟨still, read⟩
  have near : ∀ m ∈ ms, ¬foreign m.execution := by
    intro m there
    obtain ⟨r, present, same⟩ := List.mem_map.1 ((Storage.perm_of_sortedMarkers read).mem_iff.1
      (List.mem_map.2 ⟨m, there, rfl⟩))
    have whose : r.execution = m.execution := congrArg (fun p => p.2.1) same
    exact whose ▸ confined.tables.markers r (List.mem_filter.1 present).1
  refine Keeps.get (fun _ => .bind (.ofExcept _) fun now => .bind (.of_twin (Leads.mapM _ fun g there => ?_))
    fun _ => .ite (fun _ => .bind habit_confined.note fun _ => .pure _) fun _ => .pure _) t still
  obtain ⟨own, some⟩ := (groups_groupMarkers _).2.1 g there
  have mine : ∀ m ∈ g.2, m ∈ ms ∧ m.execution = g.1 := fun m listed => by
    obtain ⟨wanted, whose⟩ := List.mem_filter.1 (own ▸ listed)
    exact ⟨(List.mem_filter.1 wanted).1, by simpa using whose⟩
  obtain ⟨m, listed⟩ := List.exists_mem_of_ne_nil _ some
  obtain ⟨stored, whose⟩ := mine m listed
  exact (confined_resumeGroup (whose ▸ near m stored) (fun m listed => (mine m listed).2) now).twins

/-- Everything that runs or waits belongs to stored workflows of a tenant, and the actions are the
built-in ones. -/
structure Devoted (tenant : String) (e : Engine) : Prop where
  registry : ∃ timeout, e.registry = .standard timeout
  runs : ∀ k x, e.execution? k = some x → e.storage.tables.Holds x.workflow ∧
    x.workflow.tenant = tenant ∧ e.storage.tables.Settled tenant k
  markers : ∀ m ∈ e.storage.tables.markers, e.storage.tables.Settled tenant m.execution
  named : ∀ r ∈ e.storage.tables.executions, ∃ n < e.storage.nextId, r.id = idText n

/-- What is of another tenant is foreign. -/
theorem Devoted.confined (devoted : e.Devoted tenant) :
    e.Confined tenant (fun k => ¬e.storage.tables.Settled tenant k) e.storage.tables where
  registry := devoted.registry
  tables := {
    workflows := rfl
    records := .refl _
    rows := fun r there => by
      by_cases settled : e.storage.tables.Settled tenant r.id
      · exact .inr (settled r there rfl)
      · exact .inl settled
    markers := fun m there => not_not.2 (devoted.markers m there) }
  runs k x known := by
    obtain ⟨holds, own, settled⟩ := devoted.runs k x known
    exact ⟨holds, own, not_not.2 settled⟩
  early k far := by
    by_contra late
    exact far fun r there same => (late (same ▸ devoted.named r there)).elim

theorem confined_carryOut {op : Operation} (within : op.Within s tenant) :
    Keeps (Confined tenant foreign s) (carryOut op) := by
  cases op with
  | execute workflow payload module item =>
    exact .bind (confined_execute within _ _ _) fun _ => .pure _
  | trigger module event payload item => exact .bind (confined_trigger within _ _ _) fun _ => .pure _
  | cancel id => exact .bind (confined_cancel id) fun _ => .pure _
  | cancelAll workflow => exact .bind (confined_cancelAll workflow) fun _ => .pure _
  | advance seconds => exact .bind (.get fun e => confined_moveTo _) fun _ => .pure _
  | restart now => exact .bind (habit_confined.restart now) fun _ => .pure _
  | resume => exact .bind confined_resume fun _ => .pure _
  | shutdown => exact .bind habit_confined.shutdown fun _ => .pure _
  | outage o =>
    exact .bind (fun e confined => Ends.modify_iff.2 (confined.serve (Nat.le_refl _) confined.tables))
      fun _ => .pure _
  | _ => exact within.elim

theorem Confined.afterAll {ops : List Operation} (confined : e.Confined tenant foreign s)
    (within : ∀ op ∈ ops, op.Within s tenant) : (e.afterAll ops).Confined tenant foreign s := by
  induction ops generalizing e with
  | nil => exact confined
  | cons op rest ih =>
    have kept := after_of_ends (confined_carryOut (within op (.head _)) e confined)
    exact ih kept fun op later => within op (.tail _ later)

end Engine

end Runbook
