import Runbook.Proofs.Course.Revival

/-!
An engine that is shut down and resumed follows the rules of restarts. Markers are read in groups,
one for each execution that is not live, and each group is taken up by itself; a group that cannot
be read ends the operation, and its execution goes on waiting.
-/
namespace Runbook

theorem mapM_eq_ok {ε α β γ : Type} {f : α → Except ε β} {g : β → γ} {h : α → γ}
    (each : ∀ a b, f a = .ok b → g b = h a) {items : List α} {results : List β}
    (all : items.mapM f = .ok results) : results.map g = items.map h := by
  induction items generalizing results with
  | nil => cases all; rfl
  | cons a rest ih =>
    rw [List.mapM_cons] at all
    obtain ⟨b, first, all⟩ := bind_eq_ok all
    obtain ⟨others, later, all⟩ := bind_eq_ok all
    cases all
    rw [List.map_cons, List.map_cons, each a b first, ih later]

namespace Storage

variable {s : Storage}

theorem load_marker {r : Store.MarkerRow} {m : Store.Marker} (loaded : r.load = .ok m) :
    (m.id, m.execution, m.node) = (r.id, r.execution, r.node) := by
  unfold Store.MarkerRow.load at loaded
  split at loaded <;> cases loaded
  rfl

/-- Rows that are listed are listed all, in another order. -/
theorem perm_of_sortedMarkers {rows : List Store.MarkerRow} {ms : List Store.Marker}
    (read : (Store.sortedMarkers rows).mapM Store.MarkerRow.load = .ok ms) :
    (ms.map fun m => (m.id, m.execution, m.node)).Perm
      (rows.map fun m => (m.id, m.execution, m.node)) := by
  rw [mapM_eq_ok (fun _ _ => load_marker) read]
  exact (sortBy_perm _ _).map _

/-- All markers are listed, in another order. -/
theorem ends_listMarkers (steady : s.part.faulty = false) :
    Ends (listMarkers none) s
      (fun ms t => (ms.map fun m => (m.id, m.execution, m.node)).Perm
        (s.part.markers.map fun m => (m.id, m.execution, m.node)) ∧ t.part = s.part)
      fun _ t => t.part = s.part := by
  refine (ends_query steady _ _ _).imp ?_ fun _ _ h => h.2
  rintro ms t ⟨read, same⟩
  refine ⟨(perm_of_sortedMarkers read).trans (.of_eq ?_), same⟩
  rw [List.filter_true]
  rfl

/-- A row that cannot be loaded is refused for what its cells hold. -/
theorem load_row (row : Store.ExecutionRow) : (∃ data, row.load = .ok ⟨row, data⟩) ∨
    ∃ f, row.load = .error (.raised f) ∧ ∀ e, f ≠ .program e := by
  unfold Store.ExecutionRow.load
  generalize (Read.dict (row.triggerData.orElse (.dict []))).within (.name "trigger_data") = data
  generalize (Read.nullable Read.whole row.time).within (.name "execution_time_ms") = time
  have broken (m : Mismatch) (e : ProgramError) : Failure.ofMismatch m ≠ .program e := by
    cases m <;> exact fun same => by cases same
  cases data <;> cases time
  case accepted.accepted data cell => exact .inl ⟨data, rfl⟩
  all_goals first
    | exact .inr ⟨_, rfl, fun _ same => by cases same⟩
    | exact .inr ⟨_, rfl, broken _⟩

theorem ends_loadExecution {id : String} {row : Store.ExecutionRow} (steady : s.part.faulty = false)
    (stored : s.part.row? id = some row) :
    Ends (loadExecution id) s (fun record t => record.row = row ∧ t.part = s.part)
      fun f t => (∀ e, f ≠ .program e) ∧ t.part = s.part := by
  have here : s.tables.execution? id = some row := stored
  refine (ends_query steady _ _ _).imp ?_ ?_
  · rintro record t ⟨read, same⟩
    simp only [here] at read
    rcases load_row row with ⟨data, loaded⟩ | ⟨f, refused, -⟩
    · obtain rfl := Except.ok.inj (loaded.symm.trans read)
      exact ⟨rfl, same⟩
    · cases refused.symm.trans read
  · rintro f t ⟨failed, same⟩
    simp only [here] at failed
    refine ⟨?_, same⟩
    rcases load_row row with ⟨data, loaded⟩ | ⟨g, refused, other⟩
    · rcases failed with failed | failed <;> cases loaded.symm.trans failed
    · rcases failed with failed | failed
      · cases refused.symm.trans failed
      · cases refused.symm.trans failed
        exact other

theorem ends_loadWorkflow (steady : s.part.faulty = false) (id : String) :
    Ends (loadWorkflow id) s (fun w t => w.Sound ∧ t.part = s.part) fun _ t => t.part = s.part := by
  refine Ends.bind ((ends_query steady _ _ _).imp ?_ fun _ _ h => h.2)
  rintro row t ⟨-, same⟩
  cases parsed : Workflow.parse row.record with
  | ok w => exact Ends.pure_iff.2 ⟨Workflow.sound_of_parse parsed, same⟩
  | error f => exact Ends.throw_iff.2 same

end Storage

namespace Engine

variable {v : Scene} {id : String} {x : Execution}

/-- An execution is found under its id in place of what was there. -/
theorem execution?_replace (e : Engine) (x : Execution) (k : String) :
    (e.putExecution x).execution? k = if k = x.id then some x else e.execution? k := by
  cases present : e.executions.any (·.id == x.id) with
  | false => exact execution?_putExecution e x k (by simpa [execution?] using present)
  | true =>
    unfold putExecution execution?
    simp only [present, if_true, List.find?_map]
    by_cases wanted : k = x.id
    · have own : ((fun y : Execution => y.id == k) ∘ fun y => if y.id == x.id then x else y) =
          fun y => y.id == x.id := by
        funext y
        by_cases same : y.id = x.id <;> simp [same, wanted]
      obtain ⟨y, found⟩ := Option.isSome_iff_exists.1 (List.find?_isSome.2 (List.any_eq_true.1 present))
      rw [own, found, Option.map_some, if_pos (List.find?_some found), if_pos wanted]
    · have others : ((fun y : Execution => y.id == k) ∘ fun y => if y.id == x.id then x else y) =
          fun y => y.id == k := by
        funext y
        by_cases same : y.id = x.id <;> simp [same]
      rw [others, if_neg wanted]
      cases found : e.executions.find? (·.id == k) with
      | none => rfl
      | some y =>
        have named : y.id = k := by simpa using List.find?_some found
        simp [named, wanted]

theorem plays_revive (x : Execution) :
    Plays (do
      modify fun e => e.putExecution x
      modify fun e => { e with live := e.live.filter (· != x.id) ++ [x.id] }) v
      (fun _ w => w = v.revive x) never := by
  refine Agree.after (w := { v with execution? := fun k => if k = x.id then some x else v.execution? k })
    (.modify fun e here => ?_) fun _ => plays_live fun ids => ids.filter (· != x.id) ++ [x.id]
  have before : e.execution? = v.execution? := congrArg Scene.execution? here
  have lookups := funext fun k => execution?_replace e x k
  rw [before] at lookups
  have rest : (e.putExecution x).scene =
      { e.scene with execution? := (e.putExecution x).execution? } := rfl
  rw [rest, lookups, here]

theorem plays_findRecord {row : Store.ExecutionRow} (steady : v.faulty = false)
    (stored : v.row? id = some row) :
    Plays (findRecord id) v (fun r w => (∃ record, r = some record ∧ record.row = row) ∧ w = v)
      fun _ w => w = v := by
  refine .tryCatch (m := fun f w => (∀ e, f ≠ .program e) ∧ w = v) (.map (.lift fun s same => ?_))
    fun f w other => ?_
  · refine (Storage.ends_loadExecution (same ▸ steady) (by rw [same]; exact stored)).imp ?_ ?_
    · rintro record t ⟨own, part⟩
      exact ⟨⟨record, rfl, own⟩, by rw [part, same]⟩
    · rintro f t ⟨other, part⟩
      exact ⟨other, by rw [part, same]⟩
  · obtain ⟨other, here⟩ := other
    cases f with
    | program e => exact absurd rfl (other e)
    | _ => exact .throw here

theorem plays_clearMarkers (steady : v.faulty = false) (id : String) :
    Plays (liftM (Storage.clearMarkers id)) v (fun _ w => w = v.wipe id) never := by
  refine .lift fun s same => ?_
  refine (Storage.ends_clearMarkers (same ▸ steady) id).imp (fun _ t here => ?_) fun _ _ h => h
  rw [here, same]
  rfl

/-- An execution whose workflow cannot be loaded fails in store. -/
theorem plays_abandon (steady : v.faulty = false) (stored : (v.row? id).isSome) (error : String) :
    Plays (liftM (Storage.setExecutionStatus id (.text ExecutionStatus.failed.name) (.text error) .null))
      (v.wipe id) (fun _ w => w = v.abandon id error) never := by
  obtain ⟨row, held⟩ := Option.isSome_iff_exists.1 stored
  refine .lift fun s same => ?_
  refine (Storage.ends_writeStatus (same ▸ steady) (by rw [same]; exact held) .failed (some error)
    row.time rfl rfl).imp (fun _ t here => ?_) fun _ _ h => h
  rw [here, same]
  unfold Scene.abandon
  have rows : (fun k => if k = id then some { row with
      status := .failed, error := some error, time := row.time, ended := row.ended || true } else
        v.row? k) = fun k => if k = id then (v.row? k).map fun r =>
          { r with status := .failed, error := some error, ended := true } else v.row? k := by
    funext k
    by_cases own : k = id
    · subst own; simp [held]
    · simp [own]
  exact congrArg (fun rows => { v.wipe id with row? := rows }) rows

theorem plays_tryWorkflow (steady : v.faulty = false) (workflow : String) :
    Plays (onProgramError (Except.ok <$> (Storage.loadWorkflow workflow : Run Workflow))
      fun e => pure (.error e)) v (fun r u => (∀ w, r = .ok w → w.Sound) ∧ u = v) fun _ u => u = v := by
  refine .tryCatch (m := fun _ u => u = v) (.map (.lift fun s same => ?_)) fun f u here => ?_
  · refine (Storage.ends_loadWorkflow (same ▸ steady) workflow).imp ?_ ?_
    · rintro w t ⟨sound, part⟩
      exact ⟨by rintro _ ⟨⟩; exact sound, by rw [part, same]⟩
    · rintro f t part
      rw [part, same]
  · cases f with
    | program e => exact .pure ⟨nofun, here⟩
    | _ => exact .throw here

/-- Markers of an execution that waits make it live again, or it fails. -/
theorem plays_rebuild {first : Store.Marker} {rest : List Store.Marker} {row : Store.ExecutionRow}
    (steady : v.faulty = false) (stored : v.row? id = some row) (running : row.status = .running) :
    Plays (rebuild id first (first :: rest)) v
      (fun r w => (r = none ∧ ∃ error, w = v.abandon id error) ∨
        ∃ x, r = some x ∧ x.Restored id (first :: rest) ∧ w = v.revive x)
      fun _ w => w = v := by
  refine .bind (plays_findRecord steady stored) ?_
  rintro _ w ⟨⟨record, rfl, own⟩, rfl⟩
  have open_ : (record.row.status != .running) = false := by simp [own, running]
  simp only [open_, Bool.false_eq_true, if_false]
  refine .bind (plays_tryWorkflow steady record.row.workflow) ?_
  rintro loaded w ⟨sound, rfl⟩
  cases loaded with
  | error e =>
    refine (plays_note (by decide)).after fun _ => ?_
    refine Agree.safe (Agree.after (Agree.after (plays_clearMarkers steady id) fun _ => .pure rfl)
      fun _ => ?_)
    refine (plays_abandon steady (Option.isSome_of_eq_some stored) e.text).after fun _ => ?_
    exact .pure (.inl ⟨rfl, _, rfl⟩)
  | ok definition =>
    refine .bind (m := fun s u => Snapshot.read definition.module
      (latest first (first :: rest)).context = .ok s ∧ u = w)
      (.ofExcept (fun _ read => ⟨read, rfl⟩) fun _ _ => rfl) ?_
    rintro s u ⟨read, rfl⟩
    refine .bind (m := fun x w => (first :: rest).foldlM (fun (x : Execution) m => x.absorb m.context)
      (.ofSnapshot id definition s) = .ok x ∧ w = u) (.ofExcept (fun _ read => ⟨read, rfl⟩) fun _ _ => rfl) ?_
    rintro x w ⟨absorbed, rfl⟩
    have restored : x.Restored id (first :: rest) :=
      ⟨first, rest, definition, s, rfl, sound definition rfl, read, absorbed⟩
    rw [← bind_assoc]
    refine Agree.safe (Agree.after (restored.anew.named ▸ plays_revive x) fun _ => ?_)
    exact .pure (.inr ⟨x, rfl, restored, rfl⟩)

theorem plays_reschedule {m : Store.Marker} (now : Instant) (known : v.execution? m.execution = some x)
    (active : x.isActive = true) (steady : v.faulty = false) :
    Plays (reschedule now m) v (fun _ w => w = v.rearm now m) never := by
  refine (plays_say (.restored m.node (remaining now m)) known steady).after fun _ => ?_
  exact plays_scheduleContinuation (x := { x with
    logs := x.logs ++ [(Remark.restored m.node (remaining now m)).entry x.path] }) (by simp [known])
    active m.node (remaining now m) m.id

/-- The timers of all markers of an execution are set again. -/
theorem plays_rescheduleAll {ms : List Store.Marker} (now : Instant) (own : ∀ m ∈ ms, m.execution = id)
    (known : v.execution? id = some x) (active : x.isActive = true) (steady : v.faulty = false) :
    Plays (ms.forM (reschedule now)) v (fun _ w => w = ms.foldl (Scene.rearm now) v) never := by
  induction ms generalizing v x with
  | nil => exact .pure rfl
  | cons m rest ih =>
    have mine := own m (.head _)
    refine (plays_reschedule now (mine ▸ known) active steady).after fun _ => ?_
    refine ih (fun n later => own n (.tail _ later)) (x := { x with
      logs := x.logs ++ [(Remark.restored m.node (remaining now m)).entry x.path]
      branches := x.branches + 1
      timers := Execution.addTimer x.timers m.node v.clock.nextTimer }) ?_ active steady
    simp [Scene.execution?_rearm, mine, known]

/-- The timers of an execution that is made live again are set. -/
theorem plays_resumed {v : Scene} {ms : List Store.Marker} (now : Instant) (own : ∀ m ∈ ms, m.execution = id)
    (anew : x.Anew id) (stored : (v.row? id).isSome) (steady : v.faulty = false) :
    Plays (do
      ms.forM (reschedule now)
      branchFinished id) (v.revive x) (fun _ u => u = v.resumed now x ms) never := by
  have known : (v.revive x).execution? id = some x := by simp [Scene.revive, anew.named]
  obtain ⟨y, held⟩ := Option.isSome_iff_exists.1
    (Scene.isSome_rearmAll now ms (Option.isSome_of_eq_some known))
  obtain ⟨rows, -, -, -, -, -, still, -⟩ := Scene.frame_rearmAll (v.revive x) now ms
  refine (plays_rescheduleAll now own known anew.active steady).after fun _ => ?_
  have ends : v.resumed now x ms = (ms.foldl (Scene.rearm now) (v.revive x)).finish id := by
    rw [Scene.resumed, anew.named]
  exact ends ▸ plays_branchFinished held (rows ▸ stored) (still.trans steady)

/-- The markers of one execution are taken up, or an unreadable one leaves everything as it was. -/
theorem plays_resumeGroup {ms : List Store.Marker} (now : Instant) (orderly : v.Orderly)
    (waiting : v.Waiting id ms) :
    Plays (resumeGroup now (id, ms)) v (fun _ w => Revives id v w) fun _ w => w = v := by
  obtain ⟨row, stored, running⟩ := (orderly.account.dormant waiting).row
  have stored : v.row? id = some row := stored
  cases ms with
  | nil => exact absurd rfl waiting.some
  | cons first rest =>
    refine .bind (plays_rebuild orderly.proper.steady stored running) ?_
    rintro r w (⟨rfl, error, rfl⟩ | ⟨x, rfl, restored, rfl⟩)
    · exact .pure (.abandoned waiting)
    · have armed := plays_resumed now waiting.own restored.anew (Option.isSome_of_eq_some stored)
        orderly.proper.steady
      dsimp only
      rw [← bind_assoc]
      exact Agree.safe (armed.after fun _ => .pure (.resumed waiting restored))

/-- Each execution that markers belong to has one group, with its markers in their order. -/
theorem groups_groupMarkers (ms : List Store.Marker) : ((groupMarkers ms).map (·.1)).Nodup ∧
    (∀ g ∈ groupMarkers ms, g.2 = ms.filter (·.execution == g.1) ∧ g.2 ≠ []) ∧
    ∀ m ∈ ms, ∃ g ∈ groupMarkers ms, g.1 = m.execution := by
  induction ms with
  | nil => exact ⟨List.nodup_nil, nofun, nofun⟩
  | cons m rest ih =>
    obtain ⟨distinct, each, all⟩ := ih
    unfold groupMarkers
    dsimp only
    split
    · rename_i k own found
      have mine : k = m.execution := by simpa using List.find?_some found
      have group := each _ (List.mem_of_find?_eq_some found)
      refine ⟨?_, fun g there => ?_, fun n there => ?_⟩
      · rw [List.map_cons, List.nodup_cons]
        refine ⟨fun again => ?_, (List.filter_sublist.map _).nodup distinct⟩
        obtain ⟨g, kept, same⟩ := List.mem_map.1 again
        simpa [same] using (List.mem_filter.1 kept).2
      · rcases List.mem_cons.1 there with rfl | later
        · refine ⟨?_, List.cons_ne_nil _ _⟩
          have rows : own = rest.filter (·.execution == k) := group.1
          simp [rows, mine]
        · obtain ⟨old, other⟩ := List.mem_filter.1 later
          have other : m.execution ≠ g.1 := by simpa using Ne.symm (by simpa using other)
          rw [List.filter_cons_of_neg (by simpa using other)]
          exact each g old
      · by_cases own : n.execution = m.execution
        · exact ⟨_, .head _, own.symm⟩
        · rcases List.mem_cons.1 there with rfl | later
          · exact absurd rfl own
          · obtain ⟨g, old, same⟩ := all n later
            exact ⟨g, .tail _ (List.mem_filter.2 ⟨old, by simpa [same] using own⟩), same⟩
    · rename_i none
      have new (g) (old : g ∈ groupMarkers rest) : g.1 ≠ m.execution := by
        simpa using List.find?_eq_none.1 none g old
      refine ⟨?_, fun g there => ?_, fun n there => ?_⟩
      · rw [List.map_cons, List.nodup_cons]
        refine ⟨fun again => ?_, distinct⟩
        obtain ⟨g, old, same⟩ := List.mem_map.1 again
        exact new g old same
      · rcases List.mem_cons.1 there with rfl | later
        · refine ⟨?_, List.cons_ne_nil _ _⟩
          have nothing : rest.filter (·.execution == m.execution) = [] := by
            refine List.filter_eq_nil_iff.2 fun n later same => ?_
            obtain ⟨g, old, mine⟩ := all n later
            exact new g old (mine.trans (by simpa using same))
          simp [nothing]
        · rw [List.filter_cons_of_neg (by simpa using Ne.symm (new g later))]
          exact each g later
      · rcases List.mem_cons.1 there with rfl | later
        · exact ⟨_, .head _, rfl⟩
        · obtain ⟨g, old, same⟩ := all n later
          exact ⟨g, .tail _ old, same⟩

/-- The groups of the markers of executions that are not live wait. -/
theorem waiting_groups {ms : List Store.Marker}
    (listed : (ms.map fun m => (m.id, m.execution, m.node)).Perm
      (v.markers.map fun m => (m.id, m.execution, m.node))) {g : String × List Store.Marker}
    (group : g ∈ groupMarkers (ms.filter fun m => !v.live.contains m.execution)) :
    v.Waiting g.1 g.2 := by
  obtain ⟨rows, some⟩ := (groups_groupMarkers _).2.1 g group
  obtain ⟨m, there⟩ := List.exists_mem_of_ne_nil _ some
  obtain ⟨m, there, mine⟩ : ∃ m ∈ ms.filter (fun m => !v.live.contains m.execution),
      m.execution = g.1 := by
    rw [rows] at there
    exact ⟨m, (List.mem_filter.1 there).1, by simpa using (List.mem_filter.1 there).2⟩
  have still : v.live.contains g.1 = false := by
    rw [← mine]
    simpa using (List.mem_filter.1 there).2
  refine ⟨still, some, fun n there => ?_, ?_⟩
  · rw [rows] at there
    simpa using (List.mem_filter.1 there).2
  · have all : g.2 = ms.filter (·.execution == g.1) := by
      rw [rows, List.filter_filter]
      refine List.filter_congr fun n _ => ?_
      by_cases own : n.execution = g.1
      · rw [own, still]; simp
      · simp [own]
    have own := (listed.filter fun r => r.2.1 == g.1).map fun r => (r.1, r.2.2)
    rw [List.filter_map, List.filter_map, List.map_map, List.map_map] at own
    rw [all]
    exact own

end Engine

/-- Executions are taken up one after the other. -/
abbrev Revivals : Scene → Scene → Prop := Relation.ReflTransGen fun v w => ∃ id, Revives id v w

theorem Revivals.orderly {v w : Scene} (revivals : Revivals v w) (orderly : v.Orderly) : w.Orderly := by
  induction revivals with
  | refl => exact orderly
  | tail _ last ih =>
    obtain ⟨id, revives⟩ := last
    exact revives.orderly ih

namespace Engine

variable {v : Scene} {id : String} {x : Execution}

theorem plays_resumeGroups {gs : List (String × List Store.Marker)} (now : Instant) (orderly : v.Orderly)
    (distinct : (gs.map (·.1)).Nodup) (waiting : ∀ g ∈ gs, v.Waiting g.1 g.2) :
    Plays (gs.mapM (resumeGroup now)) v (fun _ w => Revivals v w) fun _ w => Revivals v w := by
  induction gs generalizing v with
  | nil => exact .pure .refl
  | cons g rest ih =>
    rw [List.mapM_cons]
    rw [List.map_cons, List.nodup_cons] at distinct
    refine .bind ((plays_resumeGroup now orderly (waiting g (.head _))).imp (fun _ _ h => h) ?_) ?_
    · rintro _ w rfl
      exact .refl
    · intro count w revives
      refine .bind ((ih (revives.orderly orderly) distinct.2 fun other later => ?_).imp ?_ ?_)
        fun _ _ done => .pure done
      · refine revives.waiting (fun same => distinct.1 ?_) (waiting other (.tail _ later))
        exact same ▸ List.mem_map_of_mem later
      all_goals exact fun _ u others => .head ⟨g.1, revives⟩ others

/-- All that waits is taken up, as far as it can be read. -/
theorem plays_resume (orderly : v.Orderly) :
    Plays resume v (fun _ w => Revivals v w) fun _ w => Revivals v w := by
  refine .get fun e here => ?_
  have live : e.live = v.live := congrArg Scene.live here
  refine .bind (m := fun ms w => (ms.map fun m => (m.id, m.execution, m.node)).Perm
      (v.markers.map fun m => (m.id, m.execution, m.node)) ∧ w = v) (.lift fun s same => ?_) ?_
  · refine (Storage.ends_listMarkers (same ▸ orderly.proper.steady)).imp ?_ ?_
    · rintro ms t ⟨listed, part⟩
      exact ⟨by rwa [same] at listed, by rw [part, same]⟩
    · rintro _ t part
      rw [part, same]
  · rintro ms w ⟨listed, rfl⟩
    refine .get fun t there => ?_
    refine .bind (m := fun _ u => u = w) (.ofExcept (fun _ _ => rfl) fun _ _ => .refl) ?_
    rintro now u rfl
    refine .bind (plays_resumeGroups now orderly (groups_groupMarkers _).1 fun g group =>
      waiting_groups listed (live ▸ group)) fun counts w revivals => ?_
    dsimp only
    refine .ite (fun _ => ?_) fun _ => .pure revivals
    exact (plays_note (by decide)).after fun _ => .pure revivals

theorem plays_dropTimersAll {ids : List String} (known : ∀ id ∈ ids, (v.execution? id).isSome) :
    Plays (ids.forM dropTimers) v (fun _ w => w = ids.foldl Scene.untime v) never := by
  induction ids generalizing v with
  | nil => exact .pure rfl
  | cons id rest ih =>
    obtain ⟨x, held⟩ := Option.isSome_iff_exists.1 (known id (.head _))
    refine (plays_dropTimers held).after fun _ => ih fun k later => ?_
    rw [Scene.execution?_untime]
    split
    · rw [Option.isSome_map]
      exact known k (.tail _ later)
    · exact known k (.tail _ later)

/-- An engine is shut down, and another one goes on. -/
theorem plays_restart (orderly : v.Orderly) (now : Float) :
    Plays (restart now) v (fun _ w => w = v.restarted now) never := by
  refine Agree.after (w := { v.live.foldl Scene.untime v with accepting := false }) ?_ fun _ => ?_
  · refine .get fun e here => ?_
    have live : e.live = v.live := congrArg Scene.live here
    refine Agree.after (w := v.live.foldl Scene.untime v) ?_ fun _ => ?_
    · rw [live]
      refine plays_dropTimersAll fun id listed => ?_
      obtain ⟨x, living⟩ := (orderly.account.stands id).living_of_live (List.contains_iff_mem.2 listed)
      exact Option.isSome_of_eq_some living.known
    · refine Agree.after (.modify fun t there => ?_) fun _ => plays_note (by decide)
      rw [← there]
      rfl
  · refine Agree.after (.modify fun t there => ?_) fun _ => plays_note (by decide)
    rw [show v.restarted now = { ({ v.live.foldl Scene.untime v with accepting := false } : Scene) with
      live := [], clock := Clock.starting now, accepting := true } from rfl, ← there]
    rfl

end Engine

end Runbook
