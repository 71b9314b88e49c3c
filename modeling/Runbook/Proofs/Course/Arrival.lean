import Runbook.Proofs.Course.Recovery

/-!
How executions begin side by side. An execution that is created under the same id in two engines begins
the same in both, and the beginning of any other one leaves its share alone.
-/
namespace Runbook

namespace Store

/-- The row of an execution that has just begun can be loaded, and names the workflow. -/
theorem ExecutionRow.loads_of_opening {id workflow : String} {tenant module item : Value} {data : Dict}
    {row : ExecutionRow}
    (opening : ExecutionRow.opening id (.text workflow) tenant (.dict data) module item = .ok row) :
    row.Loads ∧ row.workflow = workflow := by
  unfold ExecutionRow.opening at opening
  obtain ⟨name, named, opening⟩ := bind_eq_ok opening
  obtain ⟨_, -, opening⟩ := bind_eq_ok opening
  obtain ⟨_, -, opening⟩ := bind_eq_ok opening
  obtain ⟨_, -, opening⟩ := bind_eq_ok opening
  cases named
  obtain ⟨_, same, opening⟩ := bind_eq_ok opening
  obtain ⟨_, -, opening⟩ := bind_eq_ok opening
  obtain ⟨_, -, opening⟩ := bind_eq_ok opening
  cases same
  cases opening
  refine ⟨ExecutionRow.loads_iff.2 ⟨⟨Dict.ofPairs (Value.storedEntries data), ?_⟩, none, rfl⟩, rfl⟩
  dsimp only
  rw [Value.orElse_dict, Value.stored, Value.orElse_dict]
  rfl

/-- Stored workflows that only assign variables, each under an id of its own. -/
structure Assigning (rows : List WorkflowRow) : Prop where
  distinct : (rows.map (·.id)).Nodup
  gentle : ∀ row ∈ rows, ∀ w, Workflow.parse row.record = .ok w → ∀ n ∈ w.nodes, n.Gentle

theorem Assigning.defined {rows : List WorkflowRow} (assigning : Assigning rows) {row : WorkflowRow}
    (there : row ∈ rows) {w : Workflow} (parsed : Workflow.parse row.record = .ok w) :
    definition? rows row.id = some w := by
  have found : rows.find? (·.id == row.id) = some row := by
    have distinct := assigning.distinct
    clear assigning
    induction rows with
    | nil => cases there
    | cons r rest ih =>
      obtain ⟨new, distinct⟩ := List.nodup_cons.1 distinct
      rcases List.mem_cons.1 there with rfl | later
      · simp
      · have other : r.id ≠ row.id := fun same => new (List.mem_map.2 ⟨row, later, same.symm⟩)
        rw [List.find?_cons, show (r.id == row.id) = false by simpa using other]
        exact ih later distinct
  unfold definition?
  rw [found, Option.bind_some, parsed]
  rfl

/-- What is defined under an id bears it, and only assigns. -/
theorem Assigning.of_defined {rows : List WorkflowRow} (assigning : Assigning rows) {id : String}
    {w : Workflow} (defined : definition? rows id = some w) : w.id = some id ∧ w.Gentle := by
  obtain ⟨row, found, parsed⟩ := Option.bind_eq_some_iff.1 defined
  have own : row.id = id := by simpa using List.find?_some found
  have parsed : Workflow.parse row.record = .ok w := by
    cases read : Workflow.parse row.record with
    | ok u =>
      rw [read] at parsed
      rw [Option.some.inj parsed]
    | error f =>
      rw [read] at parsed
      cases parsed
  exact ⟨own ▸ (row.names_of_parse parsed).1, Workflow.sound_of_parse parsed,
    assigning.gentle row (List.mem_of_find?_eq_some found) w parsed⟩

end Store

/-- What has begun is known from then on, with its workflow. -/
theorem Works.begun {id : String} {definition : Workflow} {v w : Scene}
    (work : Works (.start id definition) v w) (proper : v.Proper) :
    ∃ x, w.execution? id = some x ∧ x.workflow = definition := by
  have later {u : Scene} {x : Execution} (known : u.execution? id = some x) (own : x.workflow = definition)
      (further : u.Extends w) : ∃ x, w.execution? id = some x ∧ x.workflow = definition := by
    obtain ⟨y, there, further⟩ := further id x known
    exact ⟨y, there, further.workflow.trans own⟩
  cases work with
  | @started _ w _ module item triggerData vars n row trigger from_ opens sound found accepting work =>
    have told := (proper.keeps_enrol (r := row) (x := .opening (idText n) definition module item triggerData
      vars) from_ rfl).andThen fun enrolled => enrolled.keeps_say (i := idText n) (.started definition.name)
    have worked := work.keeps told.proper
    exact later (Scene.execution?_begun ..) rfl (worked.andThen fun worked => worked.keeps_finish).further
  | @stillborn _ _ module item triggerData vars n row reason from_ opens =>
    have told := (proper.keeps_enrol (r := row) (x := .opening (idText n) definition module item triggerData
      vars) from_ rfl).andThen fun enrolled => enrolled.keeps_say (i := idText n) (.started definition.name)
    exact later (Scene.execution?_begun ..) rfl ((told.proper.keeps_say reason).andThen fun refused =>
      refused.keeps_fail _).further

namespace Scene

variable {rows : List Store.WorkflowRow} {v w : Scene} {busy busy' : List String}
  {picked picked' : List Timer} {id k : String} {x : Execution} {a : Share}

/-- Ids are used up. -/
theorem Calm.next (calm : v.Calm rows busy picked) {next : Nat} (later : v.next ≤ next) :
    { v with next }.Calm rows busy picked where
  toTidy := ⟨calm.accepting, calm.assigns, calm.gentle, calm.ordered, calm.legible, calm.kept, calm.defined⟩
  proper := (calm.proper.keeps_next later).proper
  account := calm.account.next next
  timed := calm.timed

/-- An execution that has failed has no branch any more. -/
theorem Calm.collapse (calm : v.Calm rows (id :: busy) picked) (known : v.execution? id = some x)
    (active : x.isActive = true) (error : String) : (v.fail id error).Calm rows busy picked := by
  have living := calm.account.living (List.mem_cons_self ..) known active
  have failed := calm.fail living error
  refine ⟨failed.toTidy, failed.proper, failed.account.release fun y there => ?_, failed.timed⟩
  rw [← Option.some.inj ((calm.account.closed_fail living error).known.symm.trans there)]
  rfl

/-- Where the branches of an execution have come to their end. -/
theorem Beside.matched {R : Share → Share → Prop} (beside : Beside R rows id [] picked [] picked' v w) :
    Matched R rows id picked picked' v w :=
  ⟨beside.calm, beside.calm', beside.share⟩

/-- An execution fails in both, and no branch of it goes on. -/
theorem Beside.collapse {R : Share → Share → Prop} {near : Execution → Execution → Prop}
    {reach : String → Prop} (concert : Share.Concert R near reach id)
    (beside : Beside R rows id [id] picked [id] picked' v w) (known : v.execution? id = some x)
    (active : x.isActive = true) (error : String) :
    Matched R rows id picked picked' (v.fail id error) (w.fail id error) := by
  obtain ⟨z, y, there, there', alike⟩ := beside.alike concert
  obtain rfl := Option.some.inj (there.symm.trans known)
  have same : z.Resembles reach y := .of_untimed (concert.resembles alike.untimed)
  exact ⟨beside.calm.collapse known active error,
    beside.calm'.collapse there' (same.active.trans active) error,
    (beside.fail concert known active error).share⟩

/-- An execution fails, and the share of another one stays. -/
theorem Apart.collapse (apart : Apart rows k id a [k] picked v w) (known : v.execution? k = some x)
    (active : x.isActive = true) (error : String) : Apart rows k id a [] picked (v.fail k error) (w.fail k error) :=
  apart.change (·.fail k error) (apart.calm.collapse known active error) extends_fail
    (share_fail_of_ne apart.calm.account (apart.calm.account.living (List.mem_cons_self ..) known active) error
      apart.other)

end Scene

namespace Engine

open Scene

variable {rows : List Store.WorkflowRow} {v w : Scene} {id : String} {a : Share}

theorem plays_createExecution_ok {n : Nat} {workflow tenant triggerData module item : Value}
    {row : Store.ExecutionRow} (proper : v.Proper) (next : v.next = n)
    (opening : Store.ExecutionRow.opening (idText n) workflow tenant triggerData module item = .ok row) :
    Plays (liftM (Storage.createExecution workflow tenant triggerData module item)) v
      (fun id w => id = idText n ∧ w = { v with
        row? := fun k => if k = idText n then some row else v.row? k, next := n + 1 }) never := by
  subst next
  refine .lift fun s same => ?_
  refine (Storage.ends_createExecution_ok (same ▸ proper.steady) ?_ (by rw [same]; exact opening)).imp ?_
    fun _ _ h => h
  · rw [same]
    exact (proper.fresh _ (Nat.le_refl _)).2
  · rintro id t ⟨rfl, part⟩
    rw [same] at part ⊢
    exact ⟨rfl, by rw [part]⟩

section Begin

variable {n : Nat} {definition : Workflow} {payload module item : Value} {data : Dict}
  {row : Store.ExecutionRow}

/-- What has to hold for an execution to begin with certain data and a certain row. -/
structure Ready (rows : List Store.WorkflowRow) (n : Nat) (definition : Workflow)
    (payload module item : Value) (data : Dict) (row : Store.ExecutionRow) : Prop where
  gentle : definition.Gentle
  read : payload.toDict = .ok data
  opening : Store.ExecutionRow.opening (idText n) (.ofText? definition.id) (.text definition.tenant)
    (.dict data) module item = .ok row
  kept : row.Kept rows
  defined : Store.definition? rows row.workflow = some definition

/-- An execution with its row, before anything is done for it. -/
def Ready.execution (_ : Ready rows n definition payload module item data row) : Execution :=
  .opening (idText n) definition module item data (initialVariables data definition.vars)

variable (ready : Ready rows n definition payload module item data row)

include ready

theorem Ready.calm {busy : List String} {picked : List Timer} (calm : v.Calm rows busy picked)
    (next : v.next = n) :
    (v.enrol ready.execution row (n + 1)).Calm rows (idText n :: busy) picked :=
  calm.enrol (Nat.le_of_eq next) (Store.ExecutionRow.opens_of_opening ready.opening) ready.kept ready.defined rfl
    ready.gentle rfl rfl rfl

/-- Two executions begin alike when that is so from where they are stored and live. -/
theorem Accord.leads_startExecution {S T : Scene → Scene → Prop} {near : Execution → Execution → Prop}
    {reach : String → Prop} (accord : Accord S near reach (idText n)) (wide : ∀ node, reach node) (proper : v.Proper) (proper' : w.Proper) (next : v.next = n)
    (next' : w.next = n)
    (begun : S ((v.enrol ready.execution row (n + 1)).say (idText n) (.started definition.name))
      ((w.enrol ready.execution row (n + 1)).say (idText n) (.started definition.name)))
    (finish : ∀ v w, S v w → T (v.finish (idText n)) (w.finish (idText n)))
    (failed : ∀ v w x error, S v w → v.execution? (idText n) = some x → x.isActive = true →
      T (v.fail (idText n) error) (w.fail (idText n) error)) :
    Leads (At v w) (Side T) (startExecution launch definition payload module item)
      (startExecution launch definition payload module item) Eq := by
  rw [startExecution_eq, ready.read]
  refine leads_answer (.pure ⟨rfl, rfl⟩) (.pure ⟨rfl, rfl⟩) ?_
  refine leads_answer (plays_createExecution_ok proper next ready.opening)
    (plays_createExecution_ok proper' next' ready.opening) ?_
  exact accord.leads_setOff wide rfl proper.steady proper'.steady (proper.fresh _ (Nat.le_of_eq next)).1
    (proper'.fresh _ (Nat.le_of_eq next')).1 begun finish failed

/-- An execution that is created under one id begins alike in both. -/
theorem leads_start_own (matched : Matched Share.Same rows (idText n) [] [] v w) (next : v.next = n) (next' : w.next = n) :
    Leads (At v w) (Side (Matched Share.Same rows (idText n) [] []))
      (startExecution launch definition payload module item)
      (startExecution launch definition payload module item) Eq := by
  have enrolled : Beside Share.Same rows (idText n) [idText n] [] [idText n] [] (v.enrol ready.execution row (n + 1))
      (w.enrol ready.execution row (n + 1)) := by
    refine ⟨ready.calm matched.calm next, ready.calm matched.calm' next', ?_, ?_⟩
    · simp [Ready.execution, Execution.opening]
    · have share {u : Scene} : (u.enrol ready.execution row (n + 1)).share [] (idText n) =
          (u.share [] (idText n)).enrol ready.execution row := share_enrol ready.execution row (n + 1)
      rw [share, share, matched.share]
  have concert := Share.concert_same (idText n)
  exact (accord_beside concert).leads_startExecution ready (fun _ => trivial) matched.calm.proper
    matched.calm'.proper next next' (enrolled.say concert (Remark.placed_of_clash (Remark.clash_processing (by simp [Remark.head])
      (by simp [Remark.head])))) (fun v w beside => (beside.finish concert).matched)
    fun v w x error beside known active => beside.collapse concert known active error

/-- One that is created under another id leaves the share of an execution. -/
theorem leads_start_other (calm : v.Calm rows [] []) (next : v.next = n) (other : id ≠ idText n) :
    Leads (At v v) (Side (Apart rows (idText n) id (v.share [] id) [] []))
      (startExecution launch definition payload module item)
      (startExecution launch definition payload module item) Eq := by
  have enrolled : Apart rows (idText n) id (v.share [] id) [idText n] [] (v.enrol ready.execution row (n + 1))
      (v.enrol ready.execution row (n + 1)) := by
    refine ⟨rfl, other, ready.calm calm next, ?_, share_enrol_of_ne _ _ _ other⟩
    simp [Ready.execution, Execution.opening]
  exact accord_apart.leads_startExecution ready (fun _ => trivial) calm.proper calm.proper next next (enrolled.say _)
    (fun v w apart => apart.finish) fun v w x error apart known active => apart.collapse known active error

end Begin

end Engine

end Runbook
