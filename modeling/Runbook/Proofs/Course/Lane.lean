import Runbook.Proofs.Course.Arrival
import Runbook.Proofs.Course.Blame

/-!
An execution on its own. Two engines on the same workflows hold the same share of an execution, and do
the same for it when they are asked for the same on behalf of executions that are there; the second one
knows no other execution, and nothing happens in it as long as it does not know this one either.
-/
namespace Runbook

namespace Share

/-- An execution is cancelled if it is live. -/
def quit (a : Share) (id : String) : Share := if a.live then a.cancel id else a

/-- So is one of a certain workflow. -/
def quitAll (a : Share) (id workflow : String) : Share :=
  if a.execution?.any (·.workflow.id == some workflow) then a.quit id else a

theorem quit_quit (a : Share) (id : String) : (a.quit id).quit id = a.quit id := by
  unfold quit
  cases live : a.live with
  | false => simp [live]
  | true => rfl

end Share

namespace Scene

/-- An execution is cancelled if it is live. -/
def quit (v : Scene) (id : String) : Scene := if v.live.contains id then v.cancel id else v

/-- Nothing is live, nothing waits, and nothing was told. -/
structure Idle (v : Scene) : Prop where
  live : v.live = []
  timers : v.clock.timers = []
  markers : v.markers = []
  spoken : v.spoken = []

theorem quit_of_idle {v : Scene} (idle : v.Idle) (id : String) : v.quit id = v := by
  unfold quit
  rw [idle.live]
  rfl

variable {rows : List Store.WorkflowRow} {v w : Scene} {id k : String}

theorem Calm.orderly (calm : v.Calm rows [] []) : v.Orderly :=
  ⟨calm.proper, calm.accepting, calm.account⟩

theorem Calm.quit (calm : v.Calm rows [] []) (k : String) : (v.quit k).Calm rows [] [] := by
  unfold Scene.quit
  split
  · rename_i live
    obtain ⟨x, living⟩ := (calm.account.stands k).living_of_live live
    exact calm.cancel living
  · exact calm

theorem Calm.share_quit (calm : v.Calm rows [] []) (k id : String) :
    (v.quit k).share [] id = if id = k then (v.share [] id).quit id else v.share [] id := by
  unfold Scene.quit Share.quit
  cases live : v.live.contains k with
  | false =>
    by_cases own : id = k
    · subst own
      rw [if_pos rfl, show (v.share [] id).live = false from live]
      rfl
    · rw [if_neg own]
      rfl
  | true =>
    obtain ⟨x, living⟩ := (calm.account.stands k).living_of_live live
    by_cases own : id = k
    · subst own
      rw [if_pos rfl, if_pos rfl, show (v.share [] id).live = true from live, if_pos rfl]
      exact share_cancel calm.account living
    · rw [if_pos rfl, if_neg own]
      exact share_cancel_of_ne calm.account living own

theorem Calm.quitEach (calm : v.Calm rows [] []) (ids : List String) :
    (ids.foldl Scene.quit v).Calm rows [] [] ∧ ∀ id, (ids.foldl Scene.quit v).share [] id =
      if id ∈ ids then (v.share [] id).quit id else v.share [] id := by
  induction ids generalizing v with
  | nil => exact ⟨calm, fun _ => rfl⟩
  | cons k rest ih =>
    obtain ⟨quits, share⟩ := ih (calm.quit k)
    refine ⟨quits, fun id => ?_⟩
    rw [List.foldl_cons, share id, calm.share_quit k id]
    by_cases own : id = k
    · subst own
      simp [Share.quit_quit]
    · simp [own]

/-- The live executions of a workflow. -/
def liveOf (v : Scene) (workflow : String) : List String :=
  v.live.filter fun id => (v.execution? id).any (·.workflow.id == some workflow)

theorem Calm.share_quitAll (calm : v.Calm rows [] []) (workflow id : String) :
    ((v.liveOf workflow).foldl Scene.quit v).share [] id = (v.share [] id).quitAll id workflow := by
  rw [(calm.quitEach _).2 id]
  have own : (v.share [] id).execution?.any (·.workflow.id == some workflow) =
      (v.execution? id).any (·.workflow.id == some workflow) := by
    change ((v.execution? id).map _).any _ = _
    rw [Option.any_map]
    rfl
  unfold Share.quitAll
  rw [own]
  cases of : (v.execution? id).any (·.workflow.id == some workflow) with
  | false =>
    have apart : id ∉ v.liveOf workflow := fun there => by
      rw [(List.mem_filter.1 there).2] at of
      cases of
    rw [if_neg apart]
    rfl
  | true =>
    rw [if_pos rfl]
    by_cases live : id ∈ v.live
    · have there : id ∈ v.liveOf workflow := List.mem_filter.2 ⟨live, of⟩
      rw [if_pos there]
    · have still : (v.share [] id).live = false := by
        change v.live.contains id = false
        simpa using live
      have apart : id ∉ v.liveOf workflow := fun there => live (List.mem_filter.1 there).1
      rw [if_neg apart, Share.quit, still]
      rfl

end Scene

namespace Engine

variable {rows : List Store.WorkflowRow} {v w : Scene} {id : String}

theorem plays_quit (calm : v.Calm rows [] []) (id : String) :
    Plays (cancel id) v (fun _ w => w = v.quit id) never := by
  refine (plays_cancel calm.proper id).imp ?_ fun _ _ h => h
  rintro b w (⟨-, x, -, live, -, rfl⟩ | ⟨-, rfl, past⟩)
  · rw [Scene.quit, if_pos live]
  · unfold Scene.quit
    split
    · rename_i live
      obtain ⟨x, living⟩ := (calm.account.stands id).living_of_live live
      cases living.active.symm.trans (past live x living.known)
    · rfl

theorem plays_quitEach (calm : v.Calm rows [] []) (ids : List String) :
    Plays (ids.mapM cancel) v (fun _ w => w = ids.foldl Scene.quit v) never := by
  induction ids generalizing v with
  | nil => exact .pure rfl
  | cons k rest ih =>
    rw [List.mapM_cons]
    refine (plays_quit calm k).after fun _ => ?_
    exact (ih (calm.quit k)).after fun _ => .pure rfl

theorem plays_cancelAll (calm : v.Calm rows [] []) (workflow : String) :
    Plays (cancelAll workflow) v (fun _ w => w = (v.liveOf workflow).foldl Scene.quit v) never := by
  refine .get fun e here => ?_
  have ids : (e.live.filter fun id => (e.execution? id).any (·.workflow.id == some workflow)) =
      v.liveOf workflow := by
    rw [← here]
    rfl
  simp only [ids]
  exact (plays_quitEach calm _).after fun _ => .pure rfl

/-! What is asked of an engine that knows nothing. -/

variable {e d : Engine}

theorem after_of_leads {P Q : Engine → Engine → Prop} {op op' : Operation} {same : Value → Value → Prop}
    (leads : Leads P Q (carryOut op) (carryOut op') same) (related : P e d) : Q (e.after op) (d.after op') := by
  have met := leads e d related
  unfold after
  generalize carryOut op e = r at met ⊢
  generalize carryOut op' d = q at met ⊢
  cases met with
  | answer _ related => exact related
  | failure related => exact related

end Engine

/-- What is asked for on behalf of executions that are there. -/
def Operation.isCare : Operation → Bool
  | .cancel _ | .cancelAll _ | .advance _ | .restart _ | .resume => true
  | _ => false

/-- Executions are started besides. -/
def Operation.isCourse : Operation → Bool
  | .execute _ _ _ _ | .trigger _ _ _ _ => true
  | op => op.isCare

theorem Operation.isCourse_of_isCare {op : Operation} (care : op.isCare = true) : op.isCourse = true := by
  cases op with
  | cancel | cancelAll | advance | restart | resume => rfl
  | _ => cases care

theorem Operation.isUse_of_isCourse {op : Operation} (course : op.isCourse = true) : op.isUse = true := by
  cases op with
  | execute | trigger | cancel | cancelAll | advance | restart | resume => rfl
  | _ => cases course

/-- What is known stays known. -/
theorem Event.known {v w : Scene} (event : Event v w) (proper : v.Proper) {id : String}
    (known : (v.execution? id).isSome) : (w.execution? id).isSome := by
  have further {u : Scene} (extends_ : v.Extends u) : (u.execution? id).isSome := by
    obtain ⟨x, there⟩ := Option.isSome_iff_exists.1 known
    obtain ⟨y, still, -⟩ := extends_ id x there
    exact Option.isSome_of_eq_some still
  cases event with
  | deed deed => exact further (deed.keeps proper).further
  | restart now =>
    change ((v.live.foldl Scene.untime v).execution? id).isSome
    rw [Scene.execution?_untimeAll]
    split
    · rwa [Option.isSome_map]
    · exact known
  | revive revives =>
    cases revives with
    | @resumed now x ms =>
      have revived : ((v.revive x).execution? id).isSome := by
        change (if id = x.id then some x else v.execution? id).isSome
        split
        · rfl
        · exact known
      obtain ⟨y, there⟩ := Option.isSome_iff_exists.1 (Scene.isSome_rearmAll now ms revived)
      obtain ⟨z, still, -⟩ := Scene.extends_finish id y there
      exact Option.isSome_of_eq_some still
    | abandoned => exact known

namespace Engine

variable {rows : List Store.WorkflowRow} {n : Nat} {id : String} {e d : Engine} {op : Operation}

theorem known_after (calm : e.scene.Calm rows [] []) (course : op.isCourse = true)
    (known : (e.execution? id).isSome) : ((e.after op).execution? id).isSome :=
  ((events_after e op (Operation.isUse_of_isCourse course) calm.orderly).induct
    (p := fun v => (v.execution? id).isSome) calm.orderly known
    fun _ _ event orderly known => event.known orderly.proper known).2

theorem unknown_before (calm : e.scene.Calm rows [] []) (course : op.isCourse = true)
    (unknown : (e.after op).execution? id = none) : e.execution? id = none := by
  cases known : e.execution? id with
  | none => rfl
  | some x =>
    have still := known_after calm course (Option.isSome_of_eq_some known)
    rw [unknown] at still
    cases still

/-- No operation on executions changes the stored workflows. -/
theorem stocks_after (stocks : Stocks rows e) (course : op.isCourse = true) : Stocks rows (e.after op) := by
  have bond := bond_stocks rows
  have keeps : Keeps (Stocks rows) (carryOut op) := by
    cases op with
    | execute workflow payload module item =>
      exact .of_twin (.then_ (bond.execute stocks_creates workflow payload module item) fun _ => .pure rfl)
    | trigger module event payload item =>
      exact .of_twin (.then_ (bond.trigger stocks_creates module event payload item) fun _ => .pure rfl)
    | cancel id => exact .of_twin (.then_ (bond.cancel id) fun _ => .pure rfl)
    | cancelAll workflow => exact .of_twin (.then_ (bond.cancelAll workflow) fun _ => .pure rfl)
    | advance seconds => exact .of_twin (.then_ (bond.advance stocks_creates seconds) fun _ => .pure rfl)
    | restart now => exact .of_twin (.then_ (bond.restart now) fun _ => .pure rfl)
    | resume => exact .of_twin (.then_ bond.resume fun _ => .pure rfl)
    | _ => cases course
  exact after_of_ends (keeps e stocks)

/-! Where nothing is live and nothing waits, nothing happens. -/

theorem scene_cancel (calm : e.scene.Calm rows [] []) (id : String) :
    (e.after (.cancel id)).scene = e.scene.quit id :=
  after_of_ends (p := fun t => t.scene = _) (Ends.bind ((plays_quit calm id e rfl).2.imp
    (fun _ _ here => Ends.pure_iff.2 here) fun _ _ h => h.elim))

theorem scene_cancelAll (calm : e.scene.Calm rows [] []) (workflow : String) :
    (e.after (.cancelAll workflow)).scene = (e.scene.liveOf workflow).foldl Scene.quit e.scene :=
  after_of_ends (p := fun t => t.scene = _) (Ends.bind ((plays_cancelAll calm workflow e rfl).2.imp
    (fun _ _ here => Ends.pure_iff.2 here) fun _ _ h => h.elim))

theorem scene_restart (calm : e.scene.Calm rows [] []) (now : Float) :
    (e.after (.restart now)).scene = e.scene.restarted now :=
  after_of_ends (p := fun t => t.scene = _) (Ends.bind ((plays_restart calm.orderly now e rfl).2.imp
    (fun _ _ here => Ends.pure_iff.2 here) fun _ _ h => h.elim))

theorem resumed_after (calm : e.scene.Calm rows [] []) (stocks : Stocks rows e) :
    Resumed rows e (e.after .resume) :=
  after_of_ends (Ends.bind ((ends_resume calm stocks).imp (fun _ _ here => Ends.pure_iff.2 here)
    fun _ _ h => h))

theorem idle_after (calm : e.scene.Calm rows [] []) (idle : e.scene.Idle) (care : op.isCare = true) :
    (e.after op).scene.Idle ∧ (e.after op).scene.next = e.scene.next := by
  cases op with
  | cancel id =>
    rw [scene_cancel calm, Scene.quit_of_idle idle]
    exact ⟨idle, rfl⟩
  | cancelAll workflow =>
    rw [scene_cancelAll calm, Scene.liveOf, idle.live]
    exact ⟨idle, rfl⟩
  | restart now =>
    rw [scene_restart calm]
    have part : (e.scene.restarted now).toPart = e.scene.toPart := (e.scene.frame_untimeAll e.scene.live).1
    refine ⟨⟨rfl, rfl, ?_, ?_⟩, ?_⟩ <;> rw [part]
    · exact idle.markers
    · exact idle.spoken
  | advance seconds =>
    let now := e.clock.now + seconds
    have none : e.scene.due now = [] := by
      unfold Scene.due Clock.moveTo
      rw [idle.timers]
      rfl
    have still (w : Scene) (fires : Fires [] (e.scene.shift now) w) : w = e.scene.shift now := by
      cases fires
      rfl
    have moved : (e.after (.advance seconds)).scene = e.scene.shift now := by
      refine after_of_ends (p := fun t => t.scene = _) (Ends.bind (Ends.bind (Ends.get_iff.2
        ((plays_moveTo now calm.proper calm.accepting e rfl).2.imp (fun _ t fires => ?_) fun _ _ h => h.elim))))
      rw [none] at fires
      exact Ends.pure_iff.2 (still t.scene fires)
    rw [moved]
    refine ⟨⟨idle.live, ?_, idle.markers, idle.spoken⟩, rfl⟩
    change (e.scene.clock.moveTo now).2.timers = []
    unfold Clock.moveTo
    rw [idle.timers]
    rfl
  | resume =>
    have still (w : Scene) (revivals : Revivals e.scene w) : w = e.scene := by
      rcases Relation.ReflTransGen.cases_head revivals with same | ⟨u, ⟨k, revives⟩, -⟩
      · exact same.symm
      · have waiting : ∃ ms, e.scene.Waiting k ms := by
          cases revives with
          | resumed waiting => exact ⟨_, waiting⟩
          | abandoned waiting => exact ⟨_, waiting⟩
        obtain ⟨ms, waiting⟩ := waiting
        have rows := waiting.rows
        rw [idle.markers] at rows
        exact absurd (List.map_eq_nil_iff.1 (List.perm_nil.1 rows)) waiting.some
    have resumed : (e.after .resume).scene = e.scene :=
      after_of_ends (p := fun t => t.scene = _) (Ends.bind ((plays_resume calm.orderly e rfl).2.imp
        (fun _ t revivals => Ends.pure_iff.2 (still _ revivals)) fun _ t revivals => still _ revivals))
    rw [resumed]
    exact ⟨idle, rfl⟩
  | _ => cases care

/-- What both are asked for is done for an execution alike. -/
theorem matched_care (matched : Scene.Matched Share.Same rows id [] [] e.scene d.scene) (stocks : Stocks rows e)
    (stocks' : Stocks rows d) (care : op.isCare = true) (fit : ∀ m ∈ e.scene.markers, Store.fits m.id = true)
    (fit' : ∀ m ∈ d.scene.markers, Store.fits m.id = true) :
    Scene.Matched Share.Same rows id [] [] (e.after op).scene (d.after op).scene := by
  obtain ⟨calm, calm', share⟩ := matched
  cases op with
  | cancel k =>
    rw [scene_cancel calm, scene_cancel calm']
    refine ⟨calm.quit _, calm'.quit _, ?_⟩
    rw [calm.share_quit, calm'.share_quit, share]
  | cancelAll workflow =>
    rw [scene_cancelAll calm, scene_cancelAll calm']
    refine ⟨(calm.quitEach _).1, (calm'.quitEach _).1, ?_⟩
    rw [calm.share_quitAll, calm'.share_quitAll, share]
  | restart now =>
    rw [scene_restart calm, scene_restart calm']
    refine ⟨calm.restarted now, calm'.restarted now, ?_⟩
    rw [Scene.share_restarted, Scene.share_restarted, share]
  | resume =>
    have resumed := resumed_after calm stocks
    have resumed' := resumed_after calm' stocks'
    refine ⟨resumed.calm, resumed'.calm, ?_⟩
    rw [resumed.share, resumed'.share, share]
  | advance seconds =>
    have advanced : Leads (At e.scene d.scene) (Side (Scene.Matched Share.Same rows id [] []))
        (carryOut (.advance seconds)) (carryOut (.advance seconds)) Eq :=
      .bind (leads_advance (Share.concert_same id) ⟨calm, calm', share⟩ fit fit' (share ▸ rfl)) fun _ _ _ =>
        .pure rfl
    exact after_of_leads advanced ⟨rfl, rfl⟩
  | _ => cases care

/-! Two engines, the second of which has one execution at most. -/

/-- An engine holds of an execution what one does where nothing ever happened. -/
def Blank (rows : List Store.WorkflowRow) (d : Engine) (k : String) : Prop :=
  ∃ b : Engine, Scene.Matched Share.Same rows k [] [] d.scene b.scene ∧ Stocks rows b ∧ b.scene.Idle

theorem Blank.untold (blank : Blank rows d id) : d.scene.spoken.filter (·.execution == id) = [] := by
  obtain ⟨b, matched, -, idle⟩ := blank
  have same : b.scene.spoken.filter (·.execution == id) = d.scene.spoken.filter (·.execution == id) :=
    congrArg Share.spoken matched.share
  rw [← same, idle.spoken]
  rfl

theorem Blank.care (blank : Blank rows d id) (stocks : Stocks rows d) (care : op.isCare = true)
    (fit : ∀ m ∈ d.scene.markers, Store.fits m.id = true) : Blank rows (d.after op) id := by
  obtain ⟨b, matched, stocks', idle⟩ := blank
  refine ⟨b.after op, matched_care matched stocks stocks' care fit fun m there => ?_,
    stocks_after stocks' (Operation.isCourse_of_isCare care), (idle_after matched.calm' idle care).1⟩
  rw [idle.markers] at there
  cases there

/-- An execution has the same share in two engines on the same workflows, the second of which knows no
other execution. As long as it is not there, nothing happens in the second one, which will give away its
id next. -/
structure Lane (rows : List Store.WorkflowRow) (n : Nat) (e d : Engine) : Prop where
  matched : Scene.Matched Share.Same rows (idText n) [] [] e.scene d.scene
  stocks : Stocks rows e
  stocks' : Stocks rows d
  early : e.execution? (idText n) = none → d.scene.Idle ∧ d.scene.next = n
  blank : ∀ k, k ≠ idText n → Blank rows d k

/-- No more is told in the second engine than in the first one. -/
theorem Lane.spoken_le (lane : Lane rows n e d) : d.scene.spoken.length ≤ e.scene.spoken.length := by
  have own : d.scene.spoken.filter (·.execution == idText n) = d.scene.spoken := by
    refine List.filter_eq_self.2 fun s there => ?_
    by_contra other
    have untold := (lane.blank s.execution (by simpa using other)).untold
    have told : s ∈ d.scene.spoken.filter (·.execution == s.execution) := List.mem_filter.2 ⟨there, by simp⟩
    rw [untold] at told
    cases told
  have same : d.scene.spoken.filter (·.execution == idText n) =
      e.scene.spoken.filter (·.execution == idText n) := congrArg Share.spoken lane.matched.share
  rw [← own, same]
  exact List.length_filter_le ..

/-- Another execution is cancelled in the first one. -/
theorem Lane.cancel_of_ne (lane : Lane rows n e d) {k : String} (other : idText n ≠ k) :
    Lane rows n (e.after (.cancel k)) d where
  matched := by
    rw [scene_cancel lane.matched.calm]
    refine ⟨lane.matched.calm.quit k, lane.matched.calm', ?_⟩
    rw [lane.matched.calm.share_quit, if_neg other, lane.matched.share]
  stocks := stocks_after lane.stocks rfl
  stocks' := lane.stocks'
  early unknown := lane.early (unknown_before lane.matched.calm rfl unknown)
  blank := lane.blank

/-- All executions of another workflow are cancelled in the first one. -/
theorem Lane.cancelAll_of_not (lane : Lane rows n e d) {workflow : String}
    (other : (e.execution? (idText n)).any (·.workflow.id == some workflow) = false) :
    Lane rows n (e.after (.cancelAll workflow)) d where
  matched := by
    have calm := lane.matched.calm
    rw [scene_cancelAll calm]
    refine ⟨(calm.quitEach _).1, lane.matched.calm', ?_⟩
    have apart : idText n ∉ e.scene.liveOf workflow := fun there => by
      have own : (e.execution? (idText n)).any (·.workflow.id == some workflow) = true :=
        (List.mem_filter.1 there).2
      rw [other] at own
      cases own
    rw [(calm.quitEach _).2, if_neg apart, lane.matched.share]
  stocks := stocks_after lane.stocks rfl
  stocks' := lane.stocks'
  early unknown := lane.early (unknown_before lane.matched.calm rfl unknown)
  blank := lane.blank

/-- What both are asked for is done for the execution alike. -/
theorem Lane.care (lane : Lane rows n e d) (care : op.isCare = true)
    (fit : ∀ m ∈ e.scene.markers, Store.fits m.id = true)
    (fit' : ∀ m ∈ d.scene.markers, Store.fits m.id = true) : Lane rows n (e.after op) (d.after op) where
  matched := matched_care lane.matched lane.stocks lane.stocks' care fit fit'
  stocks := stocks_after lane.stocks (Operation.isCourse_of_isCare care)
  stocks' := stocks_after lane.stocks' (Operation.isCourse_of_isCare care)
  early unknown := by
    obtain ⟨idle, next⟩ := lane.early (unknown_before lane.matched.calm (Operation.isCourse_of_isCare care) unknown)
    obtain ⟨still, same⟩ := idle_after lane.matched.calm' idle care
    exact ⟨still, same.trans next⟩
  blank k other := (lane.blank k other).care lane.stocks' care fit'

end Engine

end Runbook
