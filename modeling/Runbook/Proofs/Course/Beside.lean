import Runbook.Proofs.Course.Calm

/-!
Engines side by side. What one execution does leaves the shares of the others alone, and it does the
same in two engines that hold shares of it in concert, whatever else they hold: the same share, to begin
with.
-/
namespace Runbook

/-- A first part that only the other run has, and that cannot fail. -/
theorem Leads.aside_right {σ α β γ : Type} {P Q R : σ → σ → Prop} {x : EStateM Failure σ α}
    {op : EStateM Failure σ γ} {k : γ → EStateM Failure σ β} {same : α → β → Prop}
    (ends : ∀ e d, P e d → Ends op d (fun _ u => R e u) never)
    (next : ∀ c, Leads R Q x (k c) same) : Leads P Q x (op >>= k) same := by
  intro e d related
  obtain ⟨c, u, first, related⟩ := (ends e d related).exists_ok
  change Meets Q same (x e) (EStateM.bind op k d)
  unfold EStateM.bind
  rw [first]
  exact next c e u related

/-- What holds wherever the first of two runs ends. -/
theorem Leads.ends_left {σ α β : Type} {P Q : σ → σ → Prop} {x : EStateM Failure σ α}
    {y : EStateM Failure σ β} {same : α → β → Prop} (leads : Leads P Q x y same) {e d : σ} (related : P e d) :
    Ends x e (fun _ t => ∃ u, Q t u) fun _ t => ∃ u, Q t u := by
  have met := leads e d related
  unfold Ends
  generalize x e = r at met ⊢
  generalize y d = q at met
  cases met with
  | answer _ related => exact ⟨_, related⟩
  | failure related => exact ⟨_, related⟩

/-- Shares that two engines hold of an execution are related, and all that the execution does keeps the
relation. The executions are near to each other, as far as nodes within reach can tell. -/
structure Share.Concert (R : Share → Share → Prop) (near : Execution → Execution → Prop)
    (reach : String → Prop) (id : String) : Prop where
  execution {a b : Share} : R a b → Option.Rel near a.execution? b.execution?
  resembles {x y : Execution} : near x y → x.Resembles reach y
  leads {x y : Execution} : near x y → ∀ c ∈ x.workflow.connections, reach c.source → reach c.target
  now {a b : Share} : R a b → b.now = a.now
  limit {a b : Share} : R a b → b.limit = a.limit
  due {a b : Share} : R a b → b.due.map (·.node) = a.due.map (·.node)
  ahead {a b : Share} : R a b → ∀ d ∈ a.due, ∀ x y, near x y → ∀ c ∈ x.workflow.outgoing d.node,
    reach c.target
  say {a b : Share} {r : Remark} : r.Placed → R a b → R (a.say id r) (b.say id r)
  move {a b : Share} {f : Execution → Execution} : Execution.Pace f → R a b → R (a.alter f) (b.alter f)
  forget {a b : Share} {x y : Execution} : near x y → R a b →
    R (a.alter fun z => { z with visited := x.visited }) (b.alter fun z => { z with visited := y.visited })
  put {a b : Share} (key : Key) (value : Value) : R a b →
    R (a.alter fun x => { x with vars := Dict.put x.vars key value })
      (b.alter fun x => { x with vars := Dict.put x.vars key value })
  suspend {a b : Share} {node : String} (seconds : Float) (resumeAt : Instant) : node ≠ "" → reach node →
    R a b → R (a.suspend id node seconds resumeAt) (b.suspend id node seconds resumeAt)
  fail {a b : Share} (error : String) : R a b → R (a.fail error) (b.fail error)
  finish {a b : Share} : R a b → R (a.finish id) (b.finish id)
  take {a b : Share} {r : Remark} : r.Placed → R a b → R (a.take id r) (b.take id r)
  past {a b : Share} : R a b → R (a.past id) (b.past id)

/-- The same share of an execution. -/
abbrev Share.Same (a b : Share) : Prop := b = a

/-- The same execution. -/
abbrev Execution.Same (x y : Execution) : Prop := y = x

/-- Of all relations between shares, that they are the same is the finest one. -/
theorem Share.concert_same (id : String) :
    Share.Concert Share.Same Execution.Same (fun _ => True) id where
  execution {a b} same := by
    subst same
    cases b.execution? with
    | none => exact .none
    | some x => exact .some rfl
  resembles same := same ▸ .refl _ _
  leads _ _ _ _ := trivial
  now same := same ▸ rfl
  limit same := same ▸ rfl
  due same := same ▸ rfl
  ahead _ _ _ _ _ _ _ _ := trivial
  say _ same := same ▸ rfl
  move _ same := same ▸ rfl
  forget same same' := same ▸ same' ▸ rfl
  put _ _ same := same ▸ rfl
  suspend _ _ _ _ same := same ▸ rfl
  fail _ same := same ▸ rfl
  finish same := same ▸ rfl
  take _ same := same ▸ rfl
  past same := same ▸ rfl

/-- Two executions of one workflow that only assigns are near to each other, but for the numbers of
their timers. -/
structure Execution.Alike (near : Execution → Execution → Prop) (x y : Execution) : Prop where
  untimed : near x.untimed y.untimed
  gentle : x.workflow.Gentle

/-- What executions have in common has nothing to do with their timers. -/
theorem Execution.Resembles.of_untimed {reach : String → Prop} {x y : Execution}
    (same : x.untimed.Resembles reach y.untimed) : x.Resembles reach y :=
  ⟨same.workflow, same.active, same.vars, same.visited, same.loops, same.counters⟩

namespace Scene

variable {R : Share → Share → Prop} {near : Execution → Execution → Prop} {reach : String → Prop}
  {rows : List Store.WorkflowRow} {id k : String} {busy busy' : List String}
  {picked picked' : List Timer} {v w : Scene} {x y : Execution} {a : Share}

/-- Two scenes hold related shares of an execution that is known. -/
structure Beside (R : Share → Share → Prop) (rows : List Store.WorkflowRow) (id : String)
    (busy : List String) (picked : List Timer) (busy' : List String) (picked' : List Timer)
    (v w : Scene) : Prop where
  calm : v.Calm rows busy picked
  calm' : w.Calm rows busy' picked'
  known : (v.execution? id).isSome
  share : R (v.share picked id) (w.share picked' id)

/-- One scene, where an execution is known besides another one with a certain share. -/
structure Apart (rows : List Store.WorkflowRow) (k id : String) (a : Share) (busy : List String)
    (picked : List Timer) (v w : Scene) : Prop where
  same : w = v
  other : id ≠ k
  calm : v.Calm rows busy picked
  known : (v.execution? k).isSome
  share : v.share picked id = a

section Concert

variable (concert : Share.Concert R near reach id)

include concert

theorem Beside.alike (beside : Beside R rows id busy picked busy' picked' v w) :
    ∃ x y, v.execution? id = some x ∧ w.execution? id = some y ∧ x.Alike near y := by
  obtain ⟨x, known⟩ := Option.isSome_iff_exists.1 beside.known
  have both : Option.Rel near ((v.execution? id).map (·.untimed)) ((w.execution? id).map (·.untimed)) :=
    concert.execution beside.share
  cases known' : w.execution? id with
  | none =>
    rw [known, known'] at both
    cases both
  | some y =>
    rw [known, known'] at both
    cases both with
    | some untimed => exact ⟨x, y, known, rfl, untimed, beside.calm.gentle id x known⟩

theorem Beside.say (beside : Beside R rows id busy picked busy' picked' v w) {r : Remark} (placed : r.Placed) :
    Beside R rows id busy picked busy' picked' (v.say id r) (w.say id r) where
  calm := beside.calm.say r
  calm' := beside.calm'.say r
  known := by simpa using beside.known
  share := by
    rw [share_say, share_say]
    exact concert.say placed beside.share

/-- Both executions are live while they run a branch. -/
theorem Beside.living (beside : Beside R rows id (id :: busy) picked (id :: busy') picked' v w)
    (known : v.execution? id = some x) (active : x.isActive = true) :
    (v.aspect (id :: busy) picked id).Living x ∧
      ∃ y, (w.aspect (id :: busy') picked' id).Living y := by
  obtain ⟨z, y, known', there, alike⟩ := beside.alike concert
  obtain rfl := Option.some.inj (known'.symm.trans known)
  have same : z.Resembles reach y := .of_untimed (concert.resembles alike.untimed)
  exact ⟨beside.calm.account.living (List.mem_cons_self ..) known active, y,
    beside.calm'.account.living (List.mem_cons_self ..) there (same.active.trans active)⟩

theorem Beside.suspend (beside : Beside R rows id (id :: busy) picked (id :: busy') picked' v w)
    (known : v.execution? id = some x) (active : x.isActive = true) {node : String} (named : node ≠ "")
    (reached : reach node) (seconds : Float) (resumeAt : Instant) :
    Beside R rows id (id :: busy) picked (id :: busy') picked'
      (v.suspend id node seconds resumeAt) (w.suspend id node seconds resumeAt) := by
  obtain ⟨living, y, living'⟩ := beside.living concert known active
  refine ⟨beside.calm.suspend living node seconds resumeAt, beside.calm'.suspend living' node seconds resumeAt,
    ?_, ?_⟩
  · have further : v.Extends (v.suspend id node seconds resumeAt) := extends_suspend
    obtain ⟨z, there, -⟩ := further id x known
    exact Option.isSome_of_eq_some there
  · rw [share_suspend living, share_suspend living']
    exact concert.suspend seconds resumeAt named reached beside.share

theorem Beside.fail (beside : Beside R rows id (id :: busy) picked (id :: busy') picked' v w)
    (known : v.execution? id = some x) (active : x.isActive = true) (error : String) :
    Beside R rows id (id :: busy) picked (id :: busy') picked' (v.fail id error) (w.fail id error) := by
  obtain ⟨living, y, living'⟩ := beside.living concert known active
  refine ⟨beside.calm.fail living error, beside.calm'.fail living' error, ?_, ?_⟩
  · have further : v.Extends (v.fail id error) := extends_fail
    obtain ⟨z, there, -⟩ := further id x known
    exact Option.isSome_of_eq_some there
  · rw [share_fail beside.calm.account living, share_fail beside.calm'.account living']
    exact concert.fail error beside.share

theorem Beside.finish (beside : Beside R rows id (id :: busy) picked (id :: busy') picked' v w) :
    Beside R rows id busy picked busy' picked' (v.finish id) (w.finish id) := by
  obtain ⟨x, y, known, known', -⟩ := beside.alike concert
  refine ⟨beside.calm.finish known, beside.calm'.finish known', ?_, ?_⟩
  · obtain ⟨z, there, -⟩ := extends_finish id x known
    exact Option.isSome_of_eq_some there
  · rw [share_finish beside.calm.account (List.mem_cons_self ..) known,
      share_finish beside.calm'.account (List.mem_cons_self ..) known']
    exact concert.finish beside.share

end Concert

/-- Both executions change alike, in data that have nothing to do with branches or timers. -/
theorem Beside.alter {f g : Execution → Execution} (beside : Beside R rows id busy picked busy' picked' v w)
    (mild : Execution.Mild f) (mild' : Execution.Mild g)
    (share : R ((v.share picked id).alter f) ((w.share picked' id).alter g)) :
    Beside R rows id busy picked busy' picked' (v.alter id f) (w.alter id g) where
  calm := beside.calm.alter mild
  calm' := beside.calm'.alter mild'
  known := by simpa using beside.known
  share := by
    rw [share_alter mild.untimed, share_alter mild'.untimed]
    exact share

/-- A change that an execution makes of a scene leaves the share of another one. -/
theorem Apart.change (apart : Apart rows k id a busy picked v w) (f : Scene → Scene)
    (calm : (f v).Calm rows busy' picked') (further : v.Extends (f v))
    (share : (f v).share picked' id = v.share picked id) : Apart rows k id a busy' picked' (f v) (f w) where
  same := congrArg f apart.same
  other := apart.other
  calm := calm
  known := by
    obtain ⟨x, known⟩ := Option.isSome_iff_exists.1 apart.known
    obtain ⟨y, there, -⟩ := further k x known
    exact Option.isSome_of_eq_some there
  share := share.trans apart.share

theorem Apart.alter {f : Execution → Execution} (apart : Apart rows k id a busy picked v w)
    (mild : Execution.Mild f) : Apart rows k id a busy picked (v.alter k f) (w.alter k f) where
  same := congrArg (·.alter k f) apart.same
  other := apart.other
  calm := apart.calm.alter mild
  known := by simpa using apart.known
  share := (share_alter_of_ne apart.other).trans apart.share

theorem Apart.say (apart : Apart rows k id a busy picked v w) (r : Remark) :
    Apart rows k id a busy picked (v.say k r) (w.say k r) :=
  apart.change (·.say k r) (apart.calm.say r) (extends_say r) (share_say_of_ne r apart.other)

theorem Apart.finish (apart : Apart rows k id a (k :: busy) picked v w) :
    Apart rows k id a busy picked (v.finish k) (w.finish k) := by
  obtain ⟨x, known⟩ := Option.isSome_iff_exists.1 apart.known
  exact apart.change (·.finish k) (apart.calm.finish known) extends_finish
    (share_finish_of_ne apart.calm.account (List.mem_cons_self ..) known apart.other)

end Scene

namespace Engine

open Scene

variable {R : Share → Share → Prop} {near : Execution → Execution → Prop} {reach : String → Prop}
  {rows : List Store.WorkflowRow} {id k : String} {busy busy' : List String}
  {picked picked' : List Timer} {v w : Scene} {x y : Execution} {a : Share}

theorem accord_beside (concert : Share.Concert R near reach id) :
    Accord (Beside R rows id (id :: busy) picked (id :: busy') picked') (Execution.Alike near) reach id where
  proper beside := ⟨beside.calm.proper, beside.calm'.proper⟩
  known beside := beside.alike concert
  accepting beside := ⟨beside.calm.accepting, beside.calm'.accepting⟩
  assigns beside := ⟨beside.calm.assigns, beside.calm'.assigns⟩
  now beside := concert.now beside.share
  limit beside := concert.limit beside.share
  resembles alike := .of_untimed (concert.resembles alike.untimed)
  leads {x _} alike := concert.leads (x := x.untimed) alike.untimed
  gentle alike := alike.gentle
  say placed beside := beside.say concert placed
  move pace beside := beside.alter pace.mild pace.mild (concert.move pace beside.share)
  forget {_ _ x y} alike beside := beside.alter (.of_visited _) (.of_visited _)
    (concert.forget (x := x.untimed) (y := y.untimed) alike.untimed beside.share)
  put key value beside := beside.alter (.of_put key value) (.of_put key value) (concert.put key value beside.share)
  suspend seconds resumeAt named reached beside known active :=
    beside.suspend concert known active named reached seconds resumeAt
  fail error beside known active := beside.fail concert known active error

theorem accord_apart : Accord (Apart rows k id a (k :: busy) picked) (Execution.Alike Execution.Same)
    (fun _ => True) k where
  proper apart := ⟨apart.calm.proper, apart.same ▸ apart.calm.proper⟩
  known {v w} apart := by
    obtain ⟨x, known⟩ := Option.isSome_iff_exists.1 apart.known
    exact ⟨x, x, known, apart.same ▸ known, rfl, apart.calm.gentle k x known⟩
  accepting apart := ⟨apart.calm.accepting, apart.same ▸ apart.calm.accepting⟩
  assigns apart := ⟨apart.calm.assigns, apart.same ▸ apart.calm.assigns⟩
  now apart := congrArg (·.clock.now) apart.same
  limit apart := congrArg (·.limit) apart.same
  resembles alike := .of_untimed ((Share.concert_same k).resembles alike.untimed)
  leads _ _ _ _ := trivial
  gentle alike := alike.gentle
  say _ apart := apart.say _
  move pace apart := apart.alter pace.mild
  forget {v w x y} alike apart := by
    have visited : y.visited = x.visited := congrArg (·.visited) alike.untimed
    rw [visited]
    exact apart.alter (.of_visited _)
  put key value apart := apart.alter (.of_put key value)
  suspend {v w x node} seconds resumeAt _ _ apart known active := by
    have living := apart.calm.account.living (List.mem_cons_self ..) known active
    exact apart.change (·.suspend k node seconds resumeAt) (apart.calm.suspend living node seconds resumeAt)
      extends_suspend (share_suspend_of_ne apart.other node seconds resumeAt)
  fail {v w x} error apart known active := by
    have living := apart.calm.account.living (List.mem_cons_self ..) known active
    exact apart.change (·.fail k error) (apart.calm.fail living error) extends_fail
      (share_fail_of_ne apart.calm.account living error apart.other)

/-! Timers that fire. -/

variable {t s : Timer}

/-- Timers for the same delay of one execution fire alike. -/
theorem leads_fire_beside (concert : Share.Concert R near reach id)
    (beside : Beside R rows id [] (t :: picked) [] (s :: picked') v w) (mine : t.execution = id)
    (mine' : s.execution = id) :
    Leads (At v w) (Side (Beside R rows id [] picked [] picked')) (fire t) (fire s) Eq := by
  obtain ⟨x, y, known, known', alike⟩ := beside.alike concert
  have node : s.node = t.node := by
    have heads := congrArg List.head? (concert.due beside.share)
    simpa [Scene.share, mine, mine', delay] using heads
  have first : v.delay id t ∈ (v.share (t :: picked) id).due :=
    List.mem_map_of_mem (List.mem_filter.2 ⟨.head _, by simpa using mine⟩)
  have status : y.isActive = x.isActive := (concert.resembles alike.untimed).active
  refine (accord_beside concert).leads_fire mine mine' node (beside.calm.timed t (.head _)).2
    (beside.calm'.timed s (.head _)).2 beside.calm.proper beside.calm'.proper beside.calm.accepting
    beside.calm'.accepting known known' status
    (fun x y alike => concert.ahead beside.share _ first x.untimed y.untimed alike.untimed) (fun active => ?_)
    (fun ended => ?_) fun v w after => after.finish concert
  · subst mine
    have living := beside.calm.account.living_of_due known active
    have living' := beside.calm'.account.living_of_due (t := s) (mine'.symm ▸ known') (status.trans active)
    refine ⟨beside.calm.take living _, ?_, ?_, ?_⟩
    · have taken := beside.calm'.take living' (.resumed t.node)
      rwa [mine'] at taken
    · simp [unarm, known]
    · have taken := share_take living' beside.calm'.ordered (.resumed t.node)
      rw [mine'] at taken
      rw [share_take living beside.calm.ordered, taken]
      exact concert.take (Remark.placed_of_clash (Remark.clash_processing (by simp [Remark.head]) (by simp [Remark.head]))) beside.share
  · subst mine
    refine ⟨beside.calm.past known ended, ?_, ?_, ?_⟩
    · have past := beside.calm'.past (t := s) (mine'.symm ▸ known') (status.trans ended)
      rwa [mine'] at past
    · obtain ⟨z, there, -⟩ := (beside.calm.proper.keeps_unarm t).further _ x known
      obtain ⟨z, still, -⟩ := extends_finish t.execution z there
      exact Option.isSome_of_eq_some still
    · have past : ((w.unarm s).finish s.execution).share picked' s.execution =
          (w.share (s :: picked') s.execution).past s.execution :=
        share_past (mine'.symm ▸ known') (status.trans ended)
      rw [mine'] at past
      rw [share_past known ended, past]
      exact concert.past beside.share

theorem leads_fire_apart (apart : Apart rows k id a [] (t :: picked) v w) (mine : t.execution = k) :
    Leads (At v w) (Side (Apart rows k id a [] picked)) (fire t) (fire t) Eq := by
  obtain ⟨x, known⟩ := Option.isSome_iff_exists.1 apart.known
  have proper := apart.calm.proper
  have further := (proper.keeps_unarm t).further
  subst mine
  refine accord_apart.leads_fire rfl rfl rfl (apart.calm.timed t (.head _)).2 (apart.calm.timed t (.head _)).2
    proper (apart.same ▸ proper) apart.calm.accepting (apart.same ▸ apart.calm.accepting) known
    (apart.same ▸ known) rfl (fun _ _ _ _ _ => trivial) (fun active => ?_) (fun ended => ?_)
    fun v w after => after.finish
  · have living := apart.calm.account.living_of_due known active
    exact apart.change (fun v => ((v.unarm t).say t.execution (.resumed t.node)).unmark t.marker)
      (apart.calm.take living _) ((further.trans (extends_say _)).trans (.of_eq rfl))
      (share_take_of_ne apart.calm.account living _ apart.other)
  · exact apart.change (fun v => (v.unarm t).finish t.execution) (apart.calm.past known ended)
      (further.trans extends_finish) (share_past_of_ne known ended apart.other)

/-- A timer of another execution leaves the share of an execution. -/
theorem ends_fire_of_ne {e : Engine} (calm : e.scene.Calm rows [] (t :: picked)) (other : id ≠ t.execution) :
    Ends (fire t) e (fun _ u => u.scene.Calm rows [] picked ∧
      u.scene.share picked id = e.scene.share (t :: picked) id ∧ e.scene.Extends u.scene) never := by
  have known := (calm.timed t (.head _)).1
  have apart : Apart rows t.execution id (e.scene.share (t :: picked) id) [] (t :: picked) e.scene e.scene :=
    ⟨rfl, other, calm, known, rfl⟩
  refine ((plays_fire t calm.proper calm.accepting known e rfl).2.and
    ((leads_fire_apart apart rfl).ends_left (e := e) (d := e) ⟨rfl, rfl⟩)).imp ?_ fun _ _ h => h.1
  rintro _ u ⟨resumes, _, fired⟩
  exact ⟨fired.calm, fired.share, (resumes.keeps calm.proper).further⟩

end Engine

/-- Two scenes hold related shares of an execution while no branch runs. -/
structure Scene.Matched (R : Share → Share → Prop) (rows : List Store.WorkflowRow) (id : String)
    (picked picked' : List Timer) (v w : Scene) : Prop where
  calm : v.Calm rows [] picked
  calm' : w.Calm rows [] picked'
  share : R (v.share picked id) (w.share picked' id)

namespace Scene.Matched

variable {R : Share → Share → Prop} {near : Execution → Execution → Prop} {reach : String → Prop}
  {rows : List Store.WorkflowRow} {id : String} {picked picked' : List Timer} {v w : Scene} {t s : Timer}

/-- As many timers are about to fire. -/
theorem due (concert : Share.Concert R near reach id) (matched : Matched R rows id picked picked' v w) :
    (picked'.filter (·.execution == id)).map (·.node) = (picked.filter (·.execution == id)).map (·.node) := by
  have same := concert.due matched.share
  unfold Scene.share at same
  rwa [List.map_map, List.map_map] at same

/-- Timers of an execution are about to fire in both. -/
theorem beside (matched : Matched R rows id (t :: picked) (s :: picked') v w) (own : t.execution = id) :
    Beside R rows id [] (t :: picked) [] (s :: picked') v w :=
  ⟨matched.calm, matched.calm', own ▸ (matched.calm.timed t (.head _)).1, matched.share⟩

end Scene.Matched

namespace Engine

open Scene

variable {R : Share → Share → Prop} {near : Execution → Execution → Prop} {reach : String → Prop}
  {rows : List Store.WorkflowRow} {id : String} {picked picked' : List Timer} {v w : Scene} {t s : Timer}
  {x y : Run Unit}

/-- A timer of another execution fires on the one side only. -/
theorem leads_other_fire (matched : Matched R rows id (t :: picked) picked' v w) (other : id ≠ t.execution)
    {Q : Engine → Engine → Prop}
    (next : ∀ v w, Matched R rows id picked picked' v w → Leads (At v w) Q x y Eq) :
    Leads (At v w) Q (fire t >>= fun _ => x) y Eq := by
  refine .aside (R := Side (Matched R rows id picked picked')) (fun e d here => ?_) fun _ =>
    leads_side next
  obtain ⟨rfl, rfl⟩ := here
  refine (ends_fire_of_ne matched.calm other).imp ?_ fun _ _ h => h
  rintro _ u ⟨calm, share, -⟩
  refine ⟨calm, matched.calm', ?_⟩
  rw [share]
  exact matched.share

theorem leads_other_fire_right (matched : Matched R rows id picked (s :: picked') v w)
    (other : id ≠ s.execution) {Q : Engine → Engine → Prop}
    (next : ∀ v w, Matched R rows id picked picked' v w → Leads (At v w) Q x y Eq) :
    Leads (At v w) Q x (fire s >>= fun _ => y) Eq := by
  refine .aside_right (R := Side (Matched R rows id picked picked')) (fun e d here => ?_) fun _ =>
    leads_side next
  obtain ⟨rfl, rfl⟩ := here
  refine (ends_fire_of_ne matched.calm' other).imp ?_ fun _ _ h => h
  rintro _ u ⟨calm, share, -⟩
  refine ⟨matched.calm, calm, ?_⟩
  rw [share]
  exact matched.share

theorem leads_get {k l : Engine → Run Unit} {Q : Engine → Engine → Prop}
    (next : ∀ e d, At v w e d → Leads (At v w) Q (k e) (l d) Eq) :
    Leads (At v w) Q (MonadState.get >>= k) (MonadState.get >>= l) Eq :=
  fun e d here => next e d here e d here

section Concert

variable (concert : Share.Concert R near reach id)

include concert

/-- Timers of an execution that are first on both sides fire alike. -/
theorem leads_own_fire (matched : Matched R rows id (t :: picked) (s :: picked') v w) (own : t.execution = id)
    (own' : s.execution = id) {Q : Engine → Engine → Prop}
    (next : ∀ v w, Matched R rows id picked picked' v w → Leads (At v w) Q x y Eq) :
    Leads (At v w) Q (fire t >>= fun _ => x) (fire s >>= fun _ => y) Eq := by
  have beside := matched.beside own
  refine .surely (leads_fire_beside concert beside own own') (fun e d here => ?_) fun _ _ _ =>
    leads_side fun v w after => next v w ⟨after.calm, after.calm', after.share⟩
  refine (plays_fire t beside.calm.proper beside.calm.accepting (matched.calm.timed t (.head _)).1 e
    here.1).2.imp (fun _ _ _ => trivial) fun _ _ h => h

/-- All timers that are about to fire do so, and the shares of an execution stay related. -/
theorem leads_fires (matched : Matched R rows id picked picked' v w) :
    Leads (At v w) (Side (Matched R rows id [] [])) (picked.forM fire) (picked'.forM fire) Eq := by
  -- The timers of other executions are gone through on either side, until both lists begin with timers
  -- of the execution or are at their end.
  induction picked generalizing v w picked' with
  | nil =>
    induction picked' generalizing v w with
    | nil => exact (Leads.pure rfl).before fun _ _ here => here.side matched
    | cons s rest ih =>
      have other : id ≠ s.execution := by
        rintro rfl
        simpa using matched.due concert
      exact leads_other_fire_right matched other fun v w => ih
  | cons t rest ih =>
    by_cases own : t.execution = id
    · induction picked' generalizing v w with
      | nil =>
        have none := matched.due concert
        simp [own] at none
      | cons s rest' ih' =>
        by_cases own' : s.execution = id
        · exact leads_own_fire concert matched own own' fun v w => ih
        · exact leads_other_fire_right matched (Ne.symm own') fun v w => ih'
    · exact leads_other_fire matched (Ne.symm own) fun v w => ih

/-- The clock moves, and what is due fires. -/
theorem leads_moveTo (matched : Matched R rows id [] [] v w) (fit : ∀ m ∈ v.markers, Store.fits m.id = true)
    (fit' : ∀ m ∈ w.markers, Store.fits m.id = true) {now : Float}
    (moved : R ((v.share [] id).shift now) ((w.share [] id).shift now)) :
    Leads (At v w) (Side (Matched R rows id [] [])) (moveTo now) (moveTo now) Eq := by
  refine leads_get fun e d here => ?_
  have clock : e.clock = v.clock := congrArg Scene.clock here.1
  have clock' : d.clock = w.clock := congrArg Scene.clock here.2
  rw [clock, clock']
  have shifted : Matched R rows id (v.due now) (w.due now) (v.shift now) (w.shift now) :=
    ⟨matched.calm.shift fit now, matched.calm'.shift fit' now, by
      rw [share_shift, share_shift]
      exact moved⟩
  exact leads_after (p := v.shift now) (q := w.shift now)
    (plays_clock fun _ => (v.clock.moveTo now).2) (plays_clock fun _ => (w.clock.moveTo now).2)
    (leads_fires concert shifted)

theorem leads_advance (matched : Matched R rows id [] [] v w) (fit : ∀ m ∈ v.markers, Store.fits m.id = true)
    (fit' : ∀ m ∈ w.markers, Store.fits m.id = true) {seconds : Float}
    (moved : R ((v.share [] id).shift (v.clock.now + seconds)) ((w.share [] id).shift (v.clock.now + seconds))) :
    Leads (At v w) (Side (Matched R rows id [] [])) (advance seconds) (advance seconds) Eq := by
  refine leads_get fun e d here => ?_
  have now : e.clock.now = v.clock.now := congrArg (·.clock.now) here.1
  have now' : d.clock.now = v.clock.now := (congrArg (·.clock.now) here.2).trans (concert.now matched.share)
  rw [now, now']
  exact leads_moveTo concert matched fit fit' moved

end Concert

end Engine

end Runbook
