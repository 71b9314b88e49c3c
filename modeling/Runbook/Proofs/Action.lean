import Runbook.Proofs.Course.Twins

/-!
Built-in actions are all or nothing. A session puts its tables in place at its end or not at all, and
nothing that an action does after its effect can fail: an action that fails leaves tables and variables
as they were, but for the answer of another service that it was not content with.
-/
namespace Runbook

namespace Store

/-- Which fields of a ticket an update leaves alone. -/
theorem TicketRow.change_keeps {t u : TicketRow} {updates : Dict} (changed : t.change updates = .ok u) :
    u.id = t.id ∧ u.tenant = t.tenant ∧ u.title = t.title ∧ u.assignedTo = t.assignedTo ∧
      u.createdBy = t.createdBy := by
  unfold TicketRow.change at changed
  obtain ⟨_, -, changed⟩ := bind_eq_ok changed
  obtain ⟨_, -, changed⟩ := bind_eq_ok changed
  obtain ⟨_, -, changed⟩ := bind_eq_ok changed
  obtain ⟨_, -, changed⟩ := bind_eq_ok changed
  obtain ⟨_, -, changed⟩ := bind_eq_ok changed
  obtain ⟨_, -, changed⟩ := bind_eq_ok changed
  cases changed
  exact ⟨rfl, rfl, rfl, rfl, rfl⟩

theorem TicketRow.of_ofDraft {id tenant : String} {draft : TicketDraft} {row : TicketRow}
    (drafted : ofDraft id draft = .ok row) (own : draft.tenant = .text tenant) :
    row.id = id ∧ row.tenant = tenant := by
  unfold ofDraft at drafted
  obtain ⟨owner, cell, drafted⟩ := bind_eq_ok drafted
  rw [own] at cell
  cases cell
  obtain ⟨_, -, drafted⟩ := bind_eq_ok drafted
  obtain ⟨_, -, drafted⟩ := bind_eq_ok drafted
  obtain ⟨_, -, drafted⟩ := bind_eq_ok drafted
  obtain ⟨_, -, drafted⟩ := bind_eq_ok drafted
  obtain ⟨_, -, drafted⟩ := bind_eq_ok drafted
  obtain ⟨_, -, drafted⟩ := bind_eq_ok drafted
  obtain ⟨_, -, drafted⟩ := bind_eq_ok drafted
  obtain ⟨_, kept, drafted⟩ := bind_eq_ok drafted
  cases kept
  obtain ⟨_, -, drafted⟩ := bind_eq_ok drafted
  obtain ⟨_, -, drafted⟩ := bind_eq_ok drafted
  obtain ⟨_, -, drafted⟩ := bind_eq_ok drafted
  cases drafted
  exact ⟨rfl, rfl⟩

theorem ArticleRow.of_ofDraft {id tenant : String} {draft : ArticleDraft} {row : ArticleRow}
    (drafted : ofDraft id draft = .ok row) (own : draft.tenant = .text tenant) :
    row.id = id ∧ row.tenant = tenant := by
  unfold ofDraft at drafted
  obtain ⟨owner, cell, drafted⟩ := bind_eq_ok drafted
  rw [own] at cell
  cases cell
  obtain ⟨_, -, drafted⟩ := bind_eq_ok drafted
  obtain ⟨_, -, drafted⟩ := bind_eq_ok drafted
  obtain ⟨_, -, drafted⟩ := bind_eq_ok drafted
  obtain ⟨_, -, drafted⟩ := bind_eq_ok drafted
  obtain ⟨_, -, drafted⟩ := bind_eq_ok drafted
  obtain ⟨_, kept, drafted⟩ := bind_eq_ok drafted
  cases kept
  obtain ⟨_, -, drafted⟩ := bind_eq_ok drafted
  obtain ⟨_, -, drafted⟩ := bind_eq_ok drafted
  cases drafted
  exact ⟨rfl, rfl⟩

theorem NotificationRow.of_ofAnnouncement {id tenant : String} {reader : Value} {a : Announcement}
    {row : NotificationRow} (written : ofAnnouncement a reader id = .ok row)
    (own : a.tenant = .text tenant) : textCell reader = .ok (some row.user) ∧ row.tenant = tenant := by
  unfold ofAnnouncement at written
  obtain ⟨owner, cell, written⟩ := bind_eq_ok written
  rw [own] at cell
  cases cell
  obtain ⟨name, reads, written⟩ := bind_eq_ok written
  obtain ⟨_, -, written⟩ := bind_eq_ok written
  obtain ⟨_, -, written⟩ := bind_eq_ok written
  obtain ⟨_, -, written⟩ := bind_eq_ok written
  obtain ⟨_, -, written⟩ := bind_eq_ok written
  obtain ⟨_, -, written⟩ := bind_eq_ok written
  obtain ⟨_, kept, written⟩ := bind_eq_ok written
  cases kept
  obtain ⟨user, kept, written⟩ := bind_eq_ok written
  have same : name = some user := by
    cases name <;> cases kept
    rfl
  obtain ⟨_, -, written⟩ := bind_eq_ok written
  obtain ⟨_, -, written⟩ := bind_eq_ok written
  cases written
  exact ⟨same ▸ reads, rfl⟩

end Store

namespace Storage

variable {α β : Type} {s : Storage}

/-- An operation is whole: it answers with its work done, or fails with the tables as they were. -/
def Whole (op : StorageM α) (s : Storage) (done : α → Store → Prop) : Prop :=
  Ends op s (fun a t => done a t.tables) fun _ t => t.tables = s.tables

theorem ends_freshId_tables : Ends freshId s (fun _ t => t.tables = s.tables) never := rfl

theorem whole_openSession (operation table : String) :
    Whole (openSession operation table) s fun _ t => t = s.tables := by
  unfold Whole openSession
  refine Ends.bind (Ends.get_iff.2 ?_)
  generalize Store.Outage.strike operation s.outages = struck
  obtain ⟨hit, rest⟩ := struck
  refine Ends.bind (Ends.modify_iff.2 ?_)
  cases hit <;> rfl

theorem whole_transact (operation table : String) (work : Store → Except Store.Refusal (α × Store)) :
    Whole (transact operation table work) s fun a t => work s.tables = .ok (a, t) := by
  unfold Whole transact
  refine Ends.bind (Ends.get_iff.2 ?_)
  cases done : work s.tables with
  | ok p => exact rfl
  | error r =>
    cases r with
    | rejected => exact rfl
    | raised f => exact rfl

theorem whole_session (operation table : String) (work : Store → Except Store.Refusal (α × Store)) :
    Whole (session operation table work) s fun a t => work s.tables = .ok (a, t) := by
  refine Ends.bind ((whole_openSession operation table).imp (fun _ t same => ?_) fun _ _ same => same)
  exact same ▸ whole_transact operation table work

/-- What is taken or noted before or after the work of an operation changes no table. -/
theorem Whole.bind {op : StorageM α} {k : α → StorageM β} {done : α → Store → Prop} {then_ : β → Store → Prop}
    (first : Whole op s done)
    (next : ∀ a t, done a t.tables → Ends (k a) t (fun b u => then_ b u.tables) fun _ u => u.tables = s.tables) :
    Whole (op >>= k) s then_ :=
  Ends.bind (first.imp (fun a t held => next a t held) fun _ _ same => same)

theorem Whole.after {op : StorageM α} {k : α → StorageM β} {done : β → Store → Prop}
    (first : Ends op s (fun _ t => t.tables = s.tables) never)
    (next : ∀ a t, t.tables = s.tables → Whole (k a) t done) : Whole (op >>= k) s done :=
  Ends.bind (first.imp (fun a t same => (next a t same).imp (fun _ _ held => held) fun _ _ kept => kept.trans same)
    fun _ _ impossible => impossible.elim)

theorem whole_assignTicket (id assignee : String) :
    Whole (assignTicket id (.text assignee)) s fun _ t => ∃ old, s.tables.ticket? id = some old ∧
      t = s.tables.updateTicket id fun row => { row with assignedTo := some assignee } := by
  refine .bind (whole_session _ _ _) fun _ t done => ?_
  split at done
  · cases done
  · rename_i old found
    exact ⟨old, found, (Prod.mk.inj (Except.ok.inj done)).2.symm⟩

end Storage

/-- What came over the wire while an action ran: nothing, no answer to its request, or an answer. -/
inductive Network.Exchange (n : Network) : Network → Option Http.Answer → Prop where
  | silent : Exchange n n none
  | failed {r : Http.Request} {f : Failure} (reply : (n.send r).1 = .error f) : Exchange n (n.send r).2 none
  | answered {r : Http.Request} {a : Http.Answer} (reply : (n.send r).1 = .ok a) :
      Exchange n (n.send r).2 (some a)

namespace Action.Builtin

end Action.Builtin

namespace Engine

variable {e t : Engine} {launch : Launch} {id : String} {x : Execution} {α : Type}

/-- Of everything that an action may touch, nothing is touched. -/
structure Untouched (e t : Engine) : Prop where
  tables : t.storage.tables = e.storage.tables
  executions : t.executions = e.executions
  network : t.network = e.network

/-- An operation of the storage that is whole touches nothing but what it does. -/
theorem ends_whole {op : StorageM α} {done : α → Store → Prop} (whole : Storage.Whole op e.storage done) :
    Ends (liftM op : Run α) e
      (fun a t => done a t.storage.tables ∧ t.executions = e.executions ∧ t.network = e.network)
      fun _ t => e.Untouched t :=
  ends_storage.2 (whole.imp (fun _ _ held => ⟨held, rfl, rfl⟩) fun _ _ same => ⟨same, rfl, rfl⟩)

/-- An execution has certain variables afterwards, and nothing else of any execution has changed. -/
def Writes (e : Engine) (id : String) (x : Execution) (vars : Dict) (t : Engine) : Prop :=
  ∀ k, t.execution? k = if k = id then some { x with vars } else e.execution? k

theorem writes_of_eq (known : e.execution? id = some x) (same : t.executions = e.executions) :
    e.Writes id x x.vars t := by
  intro k
  unfold execution?
  rw [same]
  by_cases own : k = id
  · rw [if_pos own, own]
    exact known
  · rw [if_neg own]

/-- The engine after a variable of an execution was written. -/
def puts (e : Engine) (id : String) (key : Key) (v : Value) : Engine :=
  { e with executions := e.executions.map fun x =>
      if x.id == id then { x with vars := Dict.put x.vars key v } else x }

open Runbook.Action

variable {good : α → Engine → Prop} {bad : Failure → Engine → Prop}

/-- A request is answered or fails, and the script goes on with what came of it. -/
theorem ends_ask {r : Request} {next : Except Failure r.Answer → Script α} :
    Ends ((Script.ask r next).run (perform launch) (putVariable id)) e good bad ↔
      Ends (perform launch r) e
        (fun a t => Ends ((next (.ok a)).run (perform launch) (putVariable id)) t good bad)
        fun f t => Ends ((next (.error f)).run (perform launch) (putVariable id)) t good bad :=
  Ends.bind_iff.trans ends_observe

theorem ends_put {key : Key} {v : Value} {next : Script α} :
    Ends ((Script.put key v next).run (perform launch) (putVariable id)) e good bad ↔
      Ends (next.run (perform launch) (putVariable id)) (e.puts id key v) good bad :=
  Iff.rfl

/-- The failures of a script are worded as those of an action. -/
theorem ends_wrapScript {actionType : String} {script : Script α}
    (ends : Ends (script.run (perform launch) (putVariable id)) e good
      fun f t => bad (Registry.wrap actionType f) t) :
    Ends ((Registry.wrapScript actionType script).run (perform launch) (putVariable id)) e good bad := by
  induction script generalizing e with
  | done a => exact ends
  | fail f => exact ends
  | put k v next ih => exact ends_put.2 (ih (ends_put.1 ends))
  | ask r next ih =>
    exact ends_ask.2 ((ends_ask.1 ends).imp (fun _ _ later => ih _ later) fun _ _ later => ih _ later)

/-- A built-in action has had no effect, but for the answer of another service that is no success. -/
def Spared (e : Engine) (id : String) (x : Execution) (actionType : String) (t : Engine) : Prop :=
  t.storage.tables = e.storage.tables ∧ ∃ answer, e.network.Exchange t.network answer ∧
    (∀ a, answer = some a → actionType = "http_request" ∧ a.isOk = false) ∧
    e.Writes id x (answer.elim x.vars fun a => Dict.put x.vars (.text "httpResponse") a.record) t

theorem Untouched.spared (untouched : e.Untouched t) (known : e.execution? id = some x)
    (actionType : String) : e.Spared id x actionType t :=
  ⟨untouched.tables, none, untouched.network ▸ .silent, nofun, writes_of_eq known untouched.executions⟩

/-- An action does what its script does. -/
theorem ends_dispatch {actionType : String} {config : Dict} {good : Value → Engine → Prop}
    {bad : Failure → Engine → Prop} (known : e.execution? id = some x)
    (ends : Ends ((e.registry.script actionType config x.caller).run (perform launch) (putVariable id)) e
      good bad) : Ends (dispatch launch id actionType config) e good bad :=
  Ends.bind (Ends.get_iff.2 (Ends.bind ((Ends.ok_iff (execution_of_known known)).2 ends)))

end Engine

end Runbook
