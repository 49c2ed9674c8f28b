import TokenRevoker.Node.NodeLife

/-! The end of a node. `shutdown` stops the engine and the revoker that the node has when
it comes to them. A bootstrap that is suspended by then does not look at the flag when it
goes on. -/
namespace TokenRevoker

open Text Transition

namespace NodeLife

/-- Once `shutdown` is called, what is suspended goes on only to fail. When it is called
nobody has stopped the engine, it is not called again before it has resolved, and when it
returns no manager has a backup under way or in line. -/
def Clear (s : NodeLife) : Action → Prop
  | .node a => s.followed.node.shuttingDown = true → resumes a = false
  | .shutdown =>
      if s.followed.node.shuttingDown then s.resolved = true
      else awaitStop s.followed.node = s.followed.node.engine
  | .destroy => s.followed.node.shuttingDown = false → awaitStop s.followed.node = s.followed.node.engine
  | .shutdownReturned => ∀ manager ∈ s.managers, manager.Settled
  | .publish _ | .manager _ _ | .engineStopped | .revokerShutDown | .destroyReturned => True

instance (s : NodeLife) : (a : Action) → Decidable (s.Clear a)
  | .node a => inferInstanceAs (Decidable (s.followed.node.shuttingDown = true → resumes a = false))
  | .shutdown => inferInstanceAs (Decidable (if s.followed.node.shuttingDown then s.resolved = true
      else awaitStop s.followed.node = s.followed.node.engine))
  | .destroy => inferInstanceAs (Decidable (s.followed.node.shuttingDown = false →
      awaitStop s.followed.node = s.followed.node.engine))
  | .shutdownReturned => inferInstanceAs (Decidable (∀ manager ∈ s.managers, manager.Settled))
  | .publish _ | .manager _ _ | .engineStopped | .revokerShutDown | .destroyReturned =>
      inferInstanceAs (Decidable True)

/-- In `t` nothing has been created since `s`, nothing runs and nothing has been written. What
was created before may still be on its way out. -/
structure Final (s t : NodeLife) : Prop where
  engines : ∀ inst ∈ t.followed.node.instances, inst.engine.stopped = true
  managers : ∀ manager ∈ t.managers, manager.destroyed = true
  created : t.managers.length = s.managers.length ∧
    t.followed.node.instances.length = s.followed.node.instances.length
  timer : t.followed.node.rebootstrapTimer = false
  written : t.written = s.written
  operations : t.managers.map (·.operations) = s.managers.map (·.operations)
  persisted : t.followed.node.instances.map (·.engine.history.persisted) =
    s.followed.node.instances.map (·.engine.history.persisted)

variable {log : List RevokerCall} {node next : RevokerNode} {periodic : Bool} {maxBufferSize : Nat}
  {s t u : NodeLife} {a : Action}

/-- At most the manager of this revoker still runs. -/
def TornBut (managers : List FileActivity) (revoker : Option Nat) : Prop :=
  ∀ (i : Nat) (manager : FileActivity), managers[i]? = some manager → revoker ≠ some i → manager.destroyed = true

/-- The destroyed managers have no timers. -/
def Timed (managers : List FileActivity) : Prop :=
  ∀ manager ∈ managers, manager.destroyed = true → manager.TornDown

section

variable {managers : List FileActivity} {revoker : Option Nat} {i : Nat} {old new : FileActivity}
  {f : FileActivity → FileActivity}

theorem TornBut.of_none (h : TornBut managers none) (revoker : Option Nat) : TornBut managers revoker :=
  fun i manager hGet _ => h i manager hGet (by simp)

theorem TornBut.mem (h : TornBut managers none) : ∀ manager ∈ managers, manager.destroyed = true := by
  intro manager hMem
  obtain ⟨i, hGet⟩ := List.mem_iff_getElem?.mp hMem
  exact h i manager hGet (by simp)

theorem TornBut.set (h : TornBut managers revoker) (hOld : managers[i]? = some old)
    (hKept : old.destroyed = true → new.destroyed = true) : TornBut (managers.set i new) revoker := by
  intro j manager hGet hOther
  rw [List.getElem?_set] at hGet
  split_ifs at hGet with hEq hLt
  · cases hGet
    subst hEq
    exact hKept (h i old hOld hOther)
  · exact h j manager hGet hOther

theorem TornBut.modify (h : TornBut managers revoker)
    (hKept : ∀ manager : FileActivity, manager.destroyed = true → (f manager).destroyed = true) :
    TornBut (managers.modify i f) revoker := by
  intro j manager hGet hOther
  rw [List.getElem?_modify, Option.map_eq_map, Option.map_eq_some_iff] at hGet
  obtain ⟨before, hBefore, rfl⟩ := hGet
  split_ifs
  · exact hKept before (h j before hBefore hOther)
  · exact h j before hBefore hOther

theorem TornBut.teardown (h : TornBut managers (some i)) :
    TornBut (managers.modify i FileActivity.teardown) none := by
  intro j manager hGet _
  rw [List.getElem?_modify, Option.map_eq_map, Option.map_eq_some_iff] at hGet
  obtain ⟨before, hBefore, rfl⟩ := hGet
  split_ifs with hEq
  · rfl
  · exact h j before hBefore (by simpa using hEq)

theorem TornBut.append (h : TornBut managers none) (manager : FileActivity) :
    TornBut (managers ++ [manager]) (some managers.length) := by
  intro j other hGet hOther
  rw [List.getElem?_append] at hGet
  split_ifs at hGet with hLt
  · exact h j other hGet (by simp)
  · rw [List.getElem?_singleton] at hGet
    split_ifs at hGet with hZero
    refine absurd (congrArg some ?_) hOther
    omega

theorem Timed.set (h : Timed managers) (hOld : managers[i]? = some old)
    (hKept : (old.destroyed = true → old.TornDown) → new.destroyed = true → new.TornDown) :
    Timed (managers.set i new) := by
  intro manager hMem
  rcases List.mem_or_eq_of_mem_set hMem with hMem | rfl
  · exact h manager hMem
  · exact hKept (h old (List.mem_of_getElem? hOld))

theorem Timed.modify (h : Timed managers) (hKept : ∀ manager : FileActivity,
      (manager.destroyed = true → manager.TornDown) → (f manager).destroyed = true → (f manager).TornDown) :
    Timed (managers.modify i f) := by
  intro manager hMem
  obtain ⟨j, hGet⟩ := List.mem_iff_getElem?.mp hMem
  rw [List.getElem?_modify, Option.map_eq_map, Option.map_eq_some_iff] at hGet
  obtain ⟨before, hBefore, rfl⟩ := hGet
  split_ifs
  · exact hKept before (h before (List.mem_of_getElem? hBefore))
  · exact h before (List.mem_of_getElem? hBefore)

theorem Timed.teardown (h : Timed managers) (i : Nat) : Timed (managers.modify i FileActivity.teardown) :=
  h.modify fun _ hTimed => FileActivity.tornDown_step hTimed (a := .destroy) rfl

end

theorem managersAfter_kept (hRevoker : next.revoker = s.followed.node.revoker)
    (hLength : next.instances.length = s.followed.node.instances.length) :
    s.managersAfter periodic maxBufferSize next = s.managers := by
  unfold managersAfter
  rw [if_neg (by omega), hRevoker]
  cases s.followed.node.revoker <;> rfl

/-- What holds in every state before `shutdown` is called. It is kept by every step but the call
itself. -/
structure Alive (s : NodeLife) : Prop where
  serves : s.followed.Serves
  serving : s.followed.node.shuttingDown = false
  idle : s.closing = none ∧ s.resolved = false ∧ s.destroying = 0
  parallel : s.managers.length = s.followed.node.instances.length
  torn : TornBut s.managers s.followed.node.revoker
  timed : Timed s.managers
  /-- A stopped engine has nothing left to apply, or a bootstrap awaits it. -/
  drained : ∀ (i : Nat) (inst : Instance), s.followed.node.instances[i]? = some inst → inst.engine.stopped = true →
    inst.engine.rotating = none ∨ (s.followed.node.engine = some i ∧ s.awaited = some i ∧
      ∃ t ∈ s.followed.node.tasks, t.stopping = true)

theorem alive_init (log : List RevokerCall) : Alive { followed := { log := log } } where
  serves := ⟨by simp, fun _ => RevokerNode.gated_init⟩
  serving := rfl
  idle := ⟨rfl, rfl, rfl⟩
  parallel := rfl
  torn := by simp [TornBut]
  timed := by simp [Timed]
  drained := by simp

/-- While a snapshot is requested no chain is awaited. -/
theorem Alive.requesting (h : Alive s) {task : Nat} {caller : Caller}
    (hTask : s.followed.node.tasks[task]? = some (.bootstrap caller .requesting)) :
    ∀ t ∈ s.followed.node.tasks, t.stopping = false := by
  intro t hMem
  by_contra hStopping
  obtain ⟨j, hj⟩ := List.mem_iff_getElem?.mp hMem
  have hActive : t.active = true := by
    cases t with
    | resuming lastLsn generation => rfl
    | bootstrap caller phase =>
        cases phase with
        | finished ok => exact absurd rfl hStopping
        | requesting | stopping _ | destroying _ | creating _ => rfl
  have hSame := (h.serves.gated h.serving).one _ _ _ _ hTask hj (Or.inl ⟨rfl, hActive⟩)
  subst hSame
  rw [hTask] at hj
  cases hj
  exact hStopping rfl

/-- When the revoker is let go, every engine is stopped and has nothing left to apply. -/
theorem Alive.quiet (h : Alive s) {a : RevokerNode.Action} (hReady : s.ready a = true)
    (hCause : s.followed.node.engine = none ∨ ∃ (task : Nat) (caller : Caller) (snapshot : SnapshotHeader)
      (installed : Except String Unit), a = .engineStopped task installed ∧
        s.followed.node.tasks[task]? = some (.bootstrap caller (.stopping snapshot)))
    {i : Nat} {inst : Instance} (hInst : s.followed.node.instances[i]? = some inst) :
    inst.engine.stopped = true ∧ inst.engine.rotating = none := by
  have hGated := h.serves.gated h.serving
  rcases hCause with hEngine | ⟨task, caller, snapshot, installed, rfl, hTask⟩
  · have hStopped := hGated.stopped i inst hInst (by simp [hEngine])
    refine ⟨hStopped, (h.drained i inst hInst hStopped).resolve_right ?_⟩
    rintro ⟨hOther, -⟩
    rw [hEngine] at hOther
    cases hOther
  · obtain ⟨-, -, -, hAll⟩ := hGated.stage _ (List.mem_of_getElem? hTask) rfl
    have hStopped := hAll inst (List.mem_of_getElem? hInst)
    refine ⟨hStopped, ?_⟩
    rcases h.drained i inst hInst hStopped with hIdle | ⟨-, hAwaited, -⟩
    · exact hIdle
    · simpa [ready, NodeLife.drained, hAwaited, hInst] using hReady

theorem awaitedAfter_plain {a : RevokerNode.Action} (hPlain : plain a = true) :
    s.awaitedAfter a = s.awaited := by
  cases a with
  | snapshot task snapshot installed =>
      cases snapshot with
      | error message => rfl
      | ok snapshot => cases hPlain
  | _ => rfl

theorem ne_engineStopped_of_plain {a : RevokerNode.Action} (hPlain : plain a = true) (task : Nat)
    (installed : Except String Unit) : a ≠ .engineStopped task installed := by
  rintro rfl
  cases hPlain

/-- An engine that is awaited is still awaited. -/
theorem awaits_of_kept {a : RevokerNode.Action} (hPlain : plain a = true)
    (hKeeps : Keeps s.followed.node a next) (hEngine : next.engine = s.followed.node.engine) {i : Nat}
    (hAwaits : s.followed.node.engine = some i ∧ s.awaited = some i ∧
      ∃ t ∈ s.followed.node.tasks, t.stopping = true) :
    next.engine = some i ∧ s.awaitedAfter a = some i ∧ ∃ t ∈ next.tasks, t.stopping = true := by
  obtain ⟨hCurrent, hAwaited, t, hMem, hStopping⟩ := hAwaits
  refine ⟨hEngine.trans hCurrent, (awaitedAfter_plain hPlain).trans hAwaited, t, ?_, hStopping⟩
  exact hKeeps.stopping (ne_engineStopped_of_plain hPlain) t hMem hStopping

theorem stopEngine_length (node : RevokerNode) (e : Nat) :
    (node.stopEngine e).instances.length = node.instances.length := by
  cases hInst : node.instances[e]? with
  | none => rw [RevokerNode.stopEngine_absent hInst]
  | some inst =>
      obtain ⟨engine, -, -, hEq⟩ := RevokerNode.stopEngine_eq hInst
      rw [hEq, List.length_set]

theorem stopEngine_marked (node : RevokerNode) (e : Nat) :
    ({ node with shuttingDown := true, rebootstrapTimer := false, rebootstrapPending := false }
      : RevokerNode).stopEngine e =
      { node.stopEngine e with
        shuttingDown := true
        rebootstrapTimer := false
        rebootstrapPending := false } := by
  cases hInst : node.instances[e]? with
  | none => simp only [RevokerNode.stopEngine, hInst]
  | some inst =>
      obtain ⟨engine, hStep, -⟩ := RevokerNode.stop_stopped inst.engine
      simp only [RevokerNode.stopEngine, hInst, hStep]

theorem stopEngine_other {e i : Nat} {inst : Instance} (hNe : e ≠ i)
    (hInst : (node.stopEngine e).instances[i]? = some inst) : node.instances[i]? = some inst := by
  cases hStopped : node.instances[e]? with
  | none => rwa [RevokerNode.stopEngine_absent hStopped] at hInst
  | some stopped =>
      obtain ⟨engine, -, -, hEq⟩ := RevokerNode.stopEngine_eq hStopped
      rwa [hEq, List.getElem?_set_ne hNe] at hInst

theorem shutdown_eq_stopEngine {e : Nat} (hEngine : node.engine = some e) : node.shutdown =
    { node.stopEngine e with
      shuttingDown := true
      rebootstrapTimer := false
      rebootstrapPending := false } := by
  rw [← stopEngine_marked]
  unfold RevokerNode.shutdown
  split
  · rename_i engine hSome
    obtain rfl := Option.some.inj (hEngine.symm.trans hSome)
    rfl
  · rename_i hNone
    rw [hEngine] at hNone
    cases hNone

/-- Without an engine `shutdown` comes to the revoker at once. -/
theorem shutdown_of_none (hEngine : node.engine = none) : node.shutdown.shuttingDown = true ∧
    node.shutdown.rebootstrapTimer = false ∧ node.shutdown.engine = none ∧
    node.shutdown.revoker = node.revoker ∧
    ∀ inst ∈ node.shutdown.instances, ∃ old ∈ node.instances, inst.engine = old.engine := by
  unfold RevokerNode.shutdown
  split
  · rename_i engine hSome
    rw [hEngine] at hSome
    cases hSome
  · split
    · rw [RevokerNode.close_keeps]
      refine ⟨rfl, rfl, hEngine, rfl, fun inst hMem => ?_⟩
      obtain ⟨i, hInst⟩ := List.mem_iff_getElem?.mp hMem
      obtain ⟨old, closed, hOld, rfl⟩ := RevokerNode.close_get hInst
      exact ⟨old, List.mem_of_getElem? hOld, rfl⟩
    · exact ⟨rfl, rfl, hEngine, rfl, fun inst hMem => ⟨inst, hMem, rfl⟩⟩

theorem managersAfter_letGo (hLength : next.instances.length = s.followed.node.instances.length)
    (hRevoker : next.revoker = none) : s.managersAfter periodic maxBufferSize next =
      match s.followed.node.revoker with
      | some old => s.managers.modify old FileActivity.teardown
      | none => s.managers := by
  unfold managersAfter
  rw [if_neg (by omega), hRevoker]
  cases s.followed.node.revoker <;> rfl

/-- The revoker that is let go is destroyed, so that no manager runs any more. -/
theorem Alive.letGo (h : Alive s) (periodic : Bool) (maxBufferSize : Nat)
    (hLength : next.instances.length = s.followed.node.instances.length)
    (hRevoker : next.revoker = none) :
    (s.managersAfter periodic maxBufferSize next).length = s.managers.length ∧
      TornBut (s.managersAfter periodic maxBufferSize next) none ∧
      Timed (s.managersAfter periodic maxBufferSize next) := by
  rw [managersAfter_letGo hLength hRevoker]
  cases hOld : s.followed.node.revoker with
  | none =>
      have hTorn : TornBut s.managers none := hOld ▸ h.torn
      exact ⟨rfl, hTorn, h.timed⟩
  | some old =>
      have hTorn : TornBut s.managers (some old) := hOld ▸ h.torn
      exact ⟨List.length_modify _ _ _, hTorn.teardown, h.timed.teardown old⟩

/-- Where a revoker is created the node has none. -/
theorem Alive.creating (h : Alive s) {task : Nat} {t : Task} (hTask : s.followed.node.tasks[task]? = some t)
    (hCreates : t.creates = true) : s.followed.node.engine = none ∧ s.followed.node.revoker = none := by
  have hStage := (h.serves.gated h.serving).stage t (List.mem_of_getElem? hTask)
  cases t with
  | resuming lastLsn generation => exact hStage rfl
  | bootstrap caller phase =>
      cases phase with
      | creating snapshot =>
          obtain ⟨hEngine, hRevoker, -⟩ := hStage rfl
          exact ⟨hEngine, hRevoker⟩
      | requesting | stopping _ | destroying _ | finished _ => cases hCreates

theorem Alive.drained_moved (h : Alive s) {i : Nat} {b : Instance.Action} {inst later : Instance}
    (hInst : s.followed.node.instances[i]? = some inst) (hStep : inst.step log b = some later)
    (hInstances : next.instances = s.followed.node.instances.set i later)
    (hEngine : next.engine = s.followed.node.engine) (hKeeps : Keeps s.followed.node (.inst i b) next)
    {j : Nat}
    {other : Instance} (hOther : next.instances[j]? = some other) (hStopped : other.engine.stopped = true) :
    other.engine.rotating = none ∨ (next.engine = some j ∧ s.awaitedAfter (.inst i b) = some j ∧
      ∃ t ∈ next.tasks, t.stopping = true) := by
  rw [hInstances, List.getElem?_set] at hOther
  split_ifs at hOther with hEq hLt
  · cases hOther
    subst hEq
    rw [Instance.step_stopped hStep] at hStopped
    rcases h.drained i inst hInst hStopped with hIdle | hAwaits
    · exact Or.inl (Instance.step_spent hStep hStopped hIdle).1
    · exact Or.inr (awaits_of_kept rfl hKeeps hEngine hAwaits)
  · exact (h.drained j other hOther hStopped).imp_right (awaits_of_kept rfl hKeeps hEngine)

/-- `stop` is called by a bootstrap, which awaits the chain unless there is nothing on it. -/
theorem Alive.drained_stopping (h : Alive s) {task e : Nat} {caller : Caller} {snapshot : SnapshotHeader}
    (hTask : s.followed.node.tasks[task]? = some (.bootstrap caller .requesting))
    (hStop : s.followed.node.engine = some e)
    (hInstances : next.instances = (s.followed.node.stopEngine e).instances)
    (hEngine : next.engine = s.followed.node.engine)
    (hTasks : next.tasks = s.followed.node.tasks.set task (.bootstrap caller (.stopping snapshot))) {j : Nat}
    {other : Instance} (hOther : next.instances[j]? = some other) :
    other.engine.rotating = none ∨ (next.engine = some j ∧ awaitStop s.followed.node = some j ∧
      ∃ t ∈ next.tasks, t.stopping = true) := by
  have hBefore : ∀ (i : Nat) (inst : Instance), s.followed.node.instances[i]? = some inst →
      inst.engine.stopped = true → inst.engine.rotating = none := by
    intro i inst hInst hStopped
    refine (h.drained i inst hInst hStopped).resolve_right ?_
    rintro ⟨-, -, t, hMem, hStopping⟩
    rw [h.requesting hTask t hMem] at hStopping
    cases hStopping
  have hOthers : ∀ (i : Nat) (inst : Instance), s.followed.node.instances[i]? = some inst → e ≠ i →
      inst.engine.rotating = none := by
    intro i inst hInst hNe
    refine hBefore i inst hInst ((h.serves.gated h.serving).stopped i inst hInst ?_)
    simpa [hStop] using hNe
  rw [hInstances] at hOther
  cases hInst : s.followed.node.instances[e]? with
  | none =>
      rw [RevokerNode.stopEngine_absent hInst] at hOther
      refine Or.inl (hOthers j other hOther ?_)
      rintro rfl
      rw [hInst] at hOther
      cases hOther
  | some inst =>
      obtain ⟨engine, hStep, -, hEq⟩ := RevokerNode.stopEngine_eq hInst
      rw [hEq, List.getElem?_set] at hOther
      split_ifs at hOther with hSame
      · cases hOther
        subst hSame
        have hQuiet := SyncEngineProcess.step_quiet hStep (by simp) (by simp)
        cases hStopped : inst.engine.stopped with
        | true => exact Or.inl (hQuiet.rotating.trans (hBefore e inst hInst hStopped))
        | false =>
            refine Or.inr ⟨hEngine.trans hStop, ?_, .bootstrap caller (.stopping snapshot), ?_, rfl⟩
            · simp [awaitStop, hStop, hInst, hStopped]
            · rw [hTasks]
              exact List.mem_set (List.getElem?_eq_some_iff.mp hTask).1 _
      · exact Or.inl (hOthers j other hOther hSame)

/-- A node that is not being shut down goes on. -/
theorem Alive.nodeStep (h : Alive s) {a : RevokerNode.Action} (hOwner : ofOwner a = false)
    (hReady : s.ready a = true)
    (hStep : s.followed.node.step s.followed.log a = some next) (written : Nat) :
    Alive { s with
      followed := { s.followed with node := next }
      managers := s.managersAfter periodic maxBufferSize next
      written := written
      awaited := s.awaitedAfter a } := by
  have hKeeps := step_keeps hOwner hStep
  have hServes : FollowedLog.Serves { s.followed with node := next } :=
    FollowedLog.step_serves h.serves (a := .node a) (by simp [FollowedLog.step, hStep])
  have hServing := hKeeps.shuttingDown.trans h.serving
  cases step_effect hOwner hStep with
  | kept hPlain hInstances hEngine hRevoker =>
      have hManagers : s.managersAfter periodic maxBufferSize next = s.managers :=
        managersAfter_kept hRevoker (congrArg _ hInstances)
      refine ⟨hServes, hServing, h.idle, ?_, ?_, ?_, ?_⟩
      · exact (congrArg _ hManagers).trans (h.parallel.trans (congrArg _ hInstances.symm))
      · exact hManagers.symm ▸ hRevoker.symm ▸ h.torn
      · exact hManagers.symm ▸ h.timed
      · intro i inst hInst hStopped
        have hOld : s.followed.node.instances[i]? = some inst := hInstances ▸ hInst
        exact (h.drained i inst hOld hStopped).imp_right (awaits_of_kept hPlain hKeeps hEngine)
  | @moved i b inst later _ hInst hMove hInstances hEngine hRevoker =>
      have hLength : next.instances.length = s.followed.node.instances.length := by
        rw [hInstances, List.length_set]
      have hManagers : s.managersAfter periodic maxBufferSize next = s.managers :=
        managersAfter_kept hRevoker hLength
      refine ⟨hServes, hServing, h.idle, ?_, ?_, ?_, ?_⟩
      · exact (congrArg _ hManagers).trans (h.parallel.trans hLength.symm)
      · exact hManagers.symm ▸ hRevoker.symm ▸ h.torn
      · exact hManagers.symm ▸ h.timed
      · exact fun j other hOther hStopped => h.drained_moved hInst hMove hInstances hEngine hKeeps hOther
            hStopped
  | @stopping task e caller snapshot installed _ hTask hStop hInstances hEngine hRevoker hTasks =>
      have hLength : next.instances.length = s.followed.node.instances.length := by
        rw [hInstances]
        exact stopEngine_length s.followed.node e
      have hManagers : s.managersAfter periodic maxBufferSize next = s.managers :=
        managersAfter_kept hRevoker hLength
      refine ⟨hServes, hServing, h.idle, ?_, ?_, ?_, ?_⟩
      · exact (congrArg _ hManagers).trans (h.parallel.trans hLength.symm)
      · exact hManagers.symm ▸ hRevoker.symm ▸ h.torn
      · exact hManagers.symm ▸ h.timed
      · exact fun j other hOther _ => h.drained_stopping hTask hStop hInstances hEngine hTasks hOther
  | letGo hResumes hCause hInstances hLength hEngine hRevoker =>
      obtain ⟨hManagers, hTorn, hTimed⟩ := h.letGo periodic maxBufferSize hLength hRevoker
      refine ⟨hServes, hServing, h.idle, ?_, hTorn.of_none _, hTimed, ?_⟩
      · exact hManagers.trans (h.parallel.trans hLength.symm)
      · intro i inst hInst _
        obtain ⟨old, closed, hOld, rfl⟩ := hInstances i inst hInst
        exact Or.inl (h.quiet hReady hCause hOld).2
  | @created a _ bootstrapped lastLsn generation task t hPlain hResumes hTask hCreates hInstances hEngine
        hRevoker =>
      obtain ⟨hNoEngine, hNoRevoker⟩ := h.creating hTask hCreates
      have hManagers : s.managersAfter periodic maxBufferSize next =
          s.managers ++ [FileActivity.init false periodic maxBufferSize] := by
        simp [managersAfter, hNoRevoker, hInstances]
      have hTorn : TornBut s.managers none := hNoRevoker ▸ h.torn
      refine ⟨hServes, hServing, h.idle, ?_, ?_, ?_, ?_⟩
      · simp [hManagers, hInstances, h.parallel]
      · rw [hManagers]
        exact (hRevoker.trans (congrArg some h.parallel.symm)) ▸ hTorn.append _
      · rw [hManagers]
        intro manager hMem
        rcases List.mem_append.mp hMem with hMem | hMem
        · exact h.timed manager hMem
        · rw [List.mem_singleton.mp hMem]
          intro hDestroyed
          cases hDestroyed
      · intro i inst hInst hStopped
        have hGet : (s.followed.node.instances ++
          [Instance.create bootstrapped lastLsn generation])[i]? = some inst :=
          hInstances ▸ hInst
        rw [List.getElem?_append] at hGet
        split_ifs at hGet with hLt
        · refine Or.inl ((h.drained i inst hGet hStopped).resolve_right ?_)
          rintro ⟨hOther, -⟩
          rw [hNoEngine] at hOther
          cases hOther
        · rw [List.getElem?_singleton] at hGet
          split_ifs at hGet
          cases hGet
          cases hStopped

/-- What `shutdown` has brought to an end where it is. -/
def Phase (managers : List FileActivity) (engine : Option Nat) (resolved : Bool) : Option ShutdownPhase → Prop
  | some (.stoppingEngine awaited) => awaited = engine ∧ resolved = false
  | some (.closingRevoker revoker) => engine = none ∧ TornBut managers (some revoker) ∧ resolved = false
  | some .returning => engine = none ∧ TornBut managers none ∧ resolved = false
  | none => engine = none ∧ TornBut managers none ∧ (∀ manager ∈ managers, manager.Settled) ∧ resolved = true

/-- What holds in every state after `shutdown` is called. From then on only what was suspended
can run, and each of these has its case. -/
structure Ended (s : NodeLife) : Prop where
  shuttingDown : s.followed.node.shuttingDown = true
  timer : s.followed.node.rebootstrapTimer = false
  stopped : ∀ inst ∈ s.followed.node.instances, inst.engine.stopped = true
  drained : ∀ (i : Nat) (inst : Instance), s.followed.node.instances[i]? = some inst →
    s.followed.node.engine ≠ some i → inst.engine.rotating = none
  torn : TornBut s.managers s.followed.node.revoker
  timed : Timed s.managers
  destroying : 0 < s.destroying → TornBut s.managers none
  phase : Phase s.managers s.followed.node.engine s.resolved s.closing

/-- The files are as they were when `shutdown` had resolved. -/
structure Untouched (s t : NodeLife) : Prop where
  resolved : t.resolved = true
  written : t.written = s.written
  operations : t.managers.map (·.operations) = s.managers.map (·.operations)
  persisted : t.followed.node.instances.map (·.engine.history.persisted) =
    s.followed.node.instances.map (·.engine.history.persisted)

theorem Untouched.trans (h : Untouched s t) (h' : Untouched t u) : Untouched s u :=
  ⟨h'.resolved, h'.written.trans h.written, h'.operations.trans h.operations, h'.persisted.trans h.persisted⟩

/-- Once `shutdown` has resolved, no manager and no engine has anything left to do. -/
theorem Ended.over (h : Ended s) (hResolved : s.resolved = true) :
    s.followed.node.engine = none ∧ TornBut s.managers none ∧ ∀ manager ∈ s.managers, manager.Settled := by
  have hPhase := h.phase
  cases hClosing : s.closing with
  | none =>
      rw [hClosing] at hPhase
      exact ⟨hPhase.1, hPhase.2.1, hPhase.2.2.1⟩
  | some phase =>
      rw [hClosing, hResolved] at hPhase
      cases phase with
      | stoppingEngine awaited => cases hPhase.2
      | closingRevoker revoker | returning => cases hPhase.2.2

theorem Ended.final (h : Ended t) (hUntouched : Untouched s t) : Final s t where
  engines := h.stopped
  managers := (h.over hUntouched.resolved).2.1.mem
  created := by
    have hManagers := congrArg List.length hUntouched.operations
    have hInstances := congrArg List.length hUntouched.persisted
    simp only [List.length_map] at hManagers hInstances
    exact ⟨hManagers, hInstances⟩
  timer := h.timer
  written := hUntouched.written
  operations := hUntouched.operations
  persisted := hUntouched.persisted

theorem Phase.managers {before after : List FileActivity} {engine : Option Nat} {resolved : Bool}
    {closing : Option ShutdownPhase} (h : Phase before engine resolved closing)
    (hTorn : ∀ revoker, TornBut before revoker → TornBut after revoker)
    (hSettled : TornBut before none → (∀ manager ∈ before, manager.Settled) → ∀ manager ∈ after,
      manager.Settled) :
    Phase after engine resolved closing := by
  cases closing with
  | none => exact ⟨h.1, hTorn none h.2.1, hSettled h.2.1 h.2.2.1, h.2.2.2⟩
  | some phase =>
      cases phase with
      | stoppingEngine awaited => exact h
      | closingRevoker revoker => exact ⟨h.1, hTorn (some revoker) h.2.1, h.2.2⟩
      | returning => exact ⟨h.1, hTorn none h.2.1, h.2.2⟩

theorem map_set_of_eq {α β : Type} {f : α → β} {l : List α} {i : Nat} {old new : α} (hGet : l[i]? = some old)
    (hEq : f new = f old) : (l.set i new).map f = l.map f := by
  refine List.ext_getElem? fun j => ?_
  rw [List.getElem?_map, List.getElem?_map, List.getElem?_set]
  split_ifs with hSame hLt
  · subst hSame
    rw [hGet, Option.map_some, Option.map_some, hEq]
  · subst hSame
    rw [List.getElem?_eq_none (Nat.le_of_not_lt hLt), Option.map_none]
  · rfl

theorem map_modify_of_eq {α β : Type} {f : α → β} {g : α → α} (hEq : ∀ x, f (g x) = f x) (l : List α)
    (i : Nat) :
    (l.modify i g).map f = l.map f := by
  refine List.ext_getElem? fun j => ?_
  rw [List.getElem?_map, List.getElem?_map, List.getElem?_modify]
  cases l[j]? with
  | none => rfl
  | some x =>
      simp only [Option.map_eq_map, Option.map_some]
      split_ifs
      · rw [hEq]
      · rfl

theorem mem_modify {α : Type} {g : α → α} {l : List α} {i : Nat} {x : α} (hMem : x ∈ l.modify i g) :
    ∃ y ∈ l, x = y ∨ x = g y := by
  obtain ⟨j, hGet⟩ := List.mem_iff_getElem?.mp hMem
  rw [List.getElem?_modify, Option.map_eq_map, Option.map_eq_some_iff] at hGet
  obtain ⟨y, hY, rfl⟩ := hGet
  refine ⟨y, List.mem_of_getElem? hY, ?_⟩
  split_ifs
  · exact Or.inr rfl
  · exact Or.inl rfl

theorem close_persisted (node : RevokerNode) (index : Nat) :
    (node.close index).instances.map (·.engine.history.persisted) =
      node.instances.map (·.engine.history.persisted) := by
  unfold RevokerNode.close
  split
  · rename_i inst hInst
    exact map_set_of_eq hInst rfl
  · rfl

theorem writesFiles_eq {a : RevokerNode.Action} (hDown : node.shuttingDown = true)
    (hResumes : resumes a = false) :
    writesFiles node a = false := by
  cases a with
  | snapshot task snapshot installed =>
      cases snapshot with
      | error message => rfl
      | ok snapshot => cases hResumes
  | engineStopped task installed | destroyed task installed => cases hResumes
  | coreRotation => simp [writesFiles, hDown]
  | _ => rfl

/-- The node does nothing any more but let what is suspended fail. -/
theorem Ended.nodeStep (h : Ended s) {a : RevokerNode.Action} (hOwner : ofOwner a = false)
    (hResumes : resumes a = false) (hStep : s.followed.node.step s.followed.log a = some next)
    (hNext : t = { s with
      followed := { s.followed with node := next }
      managers := s.managersAfter periodic maxBufferSize next
      written := if writesFiles s.followed.node a then s.written + 1 else s.written
      awaited := s.awaitedAfter a }) : Ended t ∧ (s.resolved = true → Untouched s t) := by
  have hKeeps := step_keeps hOwner hStep
  have hDown := hKeeps.shuttingDown.trans h.shuttingDown
  have hTimer := hKeeps.timer h.shuttingDown h.timer
  rw [writesFiles_eq h.shuttingDown hResumes, if_neg (by simp)] at hNext
  cases step_effect hOwner hStep with
  | kept hPlain hInstances hEngine hRevoker =>
      rw [managersAfter_kept hRevoker (congrArg _ hInstances)] at hNext
      subst hNext
      refine ⟨⟨hDown, hTimer, ?_, ?_, ?_, h.timed, h.destroying, ?_⟩,
        fun hResolved => ⟨hResolved, rfl, rfl, ?_⟩⟩
      · exact hInstances.symm ▸ h.stopped
      · exact hEngine.symm ▸ hInstances.symm ▸ h.drained
      · exact hRevoker.symm ▸ h.torn
      · exact hEngine.symm ▸ h.phase
      · exact congrArg _ hInstances
  | @moved i b inst later _ hInst hMove hInstances hEngine hRevoker =>
      rw [managersAfter_kept hRevoker (by rw [hInstances, List.length_set])] at hNext
      subst hNext
      have hStopped := h.stopped inst (List.mem_of_getElem? hInst)
      refine ⟨⟨hDown, hTimer, ?_, ?_, ?_, h.timed, h.destroying, ?_⟩,
        fun hResolved => ⟨hResolved, rfl, rfl, ?_⟩⟩
      · intro other hMem
        rcases List.mem_or_eq_of_mem_set (hInstances ▸ hMem) with hMem | rfl
        · exact h.stopped other hMem
        · exact (Instance.step_stopped hMove).trans hStopped
      · intro j other hOther hNe
        have hGet : (s.followed.node.instances.set i later)[j]? = some other := hInstances ▸ hOther
        rw [List.getElem?_set] at hGet
        split_ifs at hGet with hEq hLt
        · cases hGet
          subst hEq
          exact (Instance.step_spent hMove hStopped (h.drained i inst hInst (hEngine ▸ hNe))).1
        · exact h.drained j other hGet (hEngine ▸ hNe)
      · exact hRevoker.symm ▸ h.torn
      · exact hEngine.symm ▸ h.phase
      · have hIdle := h.drained i inst hInst (by simp [(h.over hResolved).1])
        refine (congrArg _ hInstances).trans (map_set_of_eq hInst ?_)
        exact (Instance.step_spent hMove hStopped hIdle).2
  | stopping => cases hResumes
  | letGo hResumes' | created _ hResumes' =>
      rw [hResumes'] at hResumes
      cases hResumes

/-- A step of a manager, which does nothing to its files once `shutdown` has resolved. -/
theorem Ended.managerStep (h : Ended s) {i : Nat} {a : FileActivity.Action} {old new : FileActivity}
    (hOld : s.managers[i]? = some old) (hStep : old.step a = some new) :
    Ended { s with managers := s.managers.set i new } ∧
      (s.resolved = true → Untouched s { s with managers := s.managers.set i new }) := by
  have hMem := List.mem_of_getElem? hOld
  have hTorn : ∀ revoker, TornBut s.managers revoker → TornBut (s.managers.set i new) revoker :=
    fun _ hTorn => hTorn.set hOld (FileActivity.step_destroyed hStep)
  have hSpent : TornBut s.managers none → (∀ manager ∈ s.managers, manager.Settled) →
      new.Settled ∧ new.operations = old.operations := by
    intro hNone hSettled
    have hDestroyed := hNone.mem old hMem
    obtain ⟨hIdle, -, hSame⟩ := (hSettled old hMem).step hDestroyed (h.timed old hMem hDestroyed) hStep
    exact ⟨hIdle, hSame⟩
  refine ⟨⟨h.shuttingDown, h.timer, h.stopped, h.drained, hTorn _ h.torn, ?_,
    fun hPos => hTorn _ (h.destroying hPos),
    h.phase.managers hTorn ?_⟩, fun hResolved => ⟨hResolved, rfl, ?_, rfl⟩⟩
  · exact h.timed.set hOld fun hTimed => FileActivity.tornDown_step hTimed hStep
  · intro hNone hSettled manager hManager
    rcases List.mem_or_eq_of_mem_set hManager with hManager | rfl
    · exact hSettled manager hManager
    · exact (hSpent hNone hSettled).1
  · obtain ⟨-, hNone, hSettled⟩ := h.over hResolved
    exact map_set_of_eq hOld (hSpent hNone hSettled).2

/-- `shutdown` of a revoker leaves the managers that are destroyed as they are. -/
theorem shutdown_manager (manager : FileActivity) : ((manager.step .shutdown).getD manager).destroyed =
    manager.destroyed ∧ ((manager.destroyed = true → manager.TornDown) →
      ((manager.step .shutdown).getD manager).destroyed = true →
        ((manager.step .shutdown).getD manager).TornDown) :=
  ⟨rfl, fun hTimed => FileActivity.tornDown_step hTimed (a := .shutdown) rfl⟩

/-- `shutdown` comes to the revoker after the engine has stopped. -/
theorem closeRevoker_ended (hDown : s.followed.node.shuttingDown = true)
    (hTimer : s.followed.node.rebootstrapTimer = false)
    (hStopped : ∀ inst ∈ s.followed.node.instances, inst.engine.stopped = true)
    (hDrained : ∀ inst ∈ s.followed.node.instances, inst.engine.rotating = none)
    (hEngine : s.followed.node.engine = none) (hTorn : TornBut s.managers s.followed.node.revoker)
    (hTimed : Timed s.managers) (hDestroying : 0 < s.destroying → TornBut s.managers none)
    (hResolved : s.resolved = false) : Ended s.closeRevoker := by
  have hSpent : ∀ (i : Nat) (inst : Instance), s.followed.node.instances[i]? = some inst →
      s.followed.node.engine ≠ some i → inst.engine.rotating = none :=
    fun i inst hInst _ => hDrained inst (List.mem_of_getElem? hInst)
  unfold closeRevoker
  cases hRevoker : s.followed.node.revoker with
  | none =>
      have hNone : TornBut s.managers none := hRevoker ▸ hTorn
      exact ⟨hDown, hTimer, hStopped, hSpent, hTorn, hTimed, hDestroying, hEngine, hNone, hResolved⟩
  | some revoker =>
      have hKept : ∀ {other : Option Nat}, TornBut s.managers other → TornBut (s.managers.modify revoker
          fun manager => (manager.step .shutdown).getD manager) other :=
        fun hOther => hOther.modify fun manager hDestroyed => (shutdown_manager manager).1.trans hDestroyed
      have hOnly : TornBut s.managers (some revoker) := hRevoker ▸ hTorn
      exact ⟨hDown, hTimer, hStopped, hSpent, hKept hTorn,
        hTimed.modify fun manager => (shutdown_manager manager).2,
        fun hPos => hKept (hDestroying hPos), hEngine, hKept hOnly, hResolved⟩

/-- `shutdown` goes on after `stop` of the engine. -/
theorem Ended.engineStopped (h : Ended s) {awaited : Option Nat}
    (hClosing : s.closing = some (.stoppingEngine awaited))
    (hDrained : NodeLife.drained s.followed.node awaited = true)
    (hStep : s.followed.node.step s.followed.log .shutdownEngineStopped = some next) :
    s.resolved = false ∧ Ended (closeRevoker { s with followed := { s.followed with node := next } }) := by
  have hPhase := h.phase
  rw [hClosing] at hPhase
  obtain ⟨rfl, hResolved⟩ := hPhase
  have hIdle : ∀ inst ∈ s.followed.node.instances, inst.engine.rotating = none := by
    intro inst hMem
    obtain ⟨i, hInst⟩ := List.mem_iff_getElem?.mp hMem
    by_cases hEngine : s.followed.node.engine = some i
    · simpa [NodeLife.drained, hEngine, hInst] using hDrained
    · exact h.drained i inst hInst hEngine
  have hNext : next.shuttingDown = true ∧ next.rebootstrapTimer = false ∧ next.engine = none ∧
      next.revoker = s.followed.node.revoker ∧ ∀ inst ∈ next.instances, ∃ old ∈ s.followed.node.instances,
        inst.engine = old.engine := by
    simp only [RevokerNode.step, h.shuttingDown, if_true] at hStep
    split at hStep <;> cases hStep
    · rename_i revoker hRevoker
      rw [RevokerNode.close_keeps]
      refine ⟨rfl, h.timer, rfl, rfl, fun inst hMem => ?_⟩
      obtain ⟨i, hInst⟩ := List.mem_iff_getElem?.mp hMem
      obtain ⟨old, closed, hOld, rfl⟩ := RevokerNode.close_get hInst
      exact ⟨old, List.mem_of_getElem? hOld, rfl⟩
    · exact ⟨rfl, h.timer, rfl, rfl, fun inst hMem => ⟨inst, hMem, rfl⟩⟩
  obtain ⟨hDown, hTimer, hEngine, hRevoker, hInstances⟩ := hNext
  refine ⟨hResolved, closeRevoker_ended hDown hTimer ?_ ?_ hEngine (hRevoker.symm ▸ h.torn) h.timed
    h.destroying
    hResolved⟩
  · intro inst hMem
    obtain ⟨old, hOld, hEq⟩ := hInstances inst hMem
    exact hEq ▸ h.stopped old hOld
  · intro inst hMem
    obtain ⟨old, hOld, hEq⟩ := hInstances inst hMem
    exact hEq ▸ hIdle old hOld

/-- The owner destroys the revoker. -/
theorem Ended.destroy (h : Ended s) {revoker : Nat} (hRevoker : s.followed.node.revoker = some revoker)
    (hNext : t = { s with
      followed := { s.followed with node := s.followed.node.close revoker }
      managers := s.managers.modify revoker FileActivity.teardown
      destroying := s.destroying + 1 }) : Ended t ∧ (s.resolved = true → Untouched s t) := by
  subst hNext
  have hInstances : ∀ (i : Nat) (inst : Instance), (s.followed.node.close revoker).instances[i]? = some inst →
      ∃ old, s.followed.node.instances[i]? = some old ∧ inst.engine = old.engine := by
    intro i inst hInst
    obtain ⟨old, closed, hOld, rfl⟩ := RevokerNode.close_get hInst
    exact ⟨old, hOld, rfl⟩
  have hFrame := RevokerNode.close_keeps s.followed.node revoker
  have hTorn : TornBut s.managers (some revoker) := hRevoker ▸ h.torn
  have hNone := hTorn.teardown
  have hSettled : TornBut s.managers none → (∀ manager ∈ s.managers, manager.Settled) →
      ∀ manager ∈ s.managers.modify revoker FileActivity.teardown, manager.Settled := by
    intro _ hSettled manager hMem
    obtain ⟨before, hBefore, hEq⟩ := mem_modify hMem
    have hIdle := hSettled before hBefore
    rcases hEq with rfl | rfl
    · exact hIdle
    · exact ⟨hIdle.holder, hIdle.queue, hIdle.retrying, hIdle.flushing⟩
  have hOperations : (s.managers.modify revoker FileActivity.teardown).map (·.operations) =
      s.managers.map (·.operations) := map_modify_of_eq (g := FileActivity.teardown) (fun _ => rfl)
        s.managers revoker
  refine ⟨⟨?_, ?_, ?_, ?_, hNone.of_none _, h.timed.teardown revoker, fun _ => hNone, ?_⟩,
    fun hResolved => ⟨hResolved, rfl, hOperations, ?_⟩⟩
  · rw [hFrame]
    exact h.shuttingDown
  · rw [hFrame]
    exact h.timer
  · intro inst hMem
    obtain ⟨i, hInst⟩ := List.mem_iff_getElem?.mp hMem
    obtain ⟨old, hOld, hEq⟩ := hInstances i inst hInst
    exact hEq ▸ h.stopped old (List.mem_of_getElem? hOld)
  · intro i inst hInst hEngine
    obtain ⟨old, hOld, hEq⟩ := hInstances i inst hInst
    rw [hFrame] at hEngine
    exact hEq ▸ h.drained i old hOld hEngine
  · rw [hFrame]
    exact h.phase.managers (fun other _ => hNone.of_none other) hSettled
  · exact close_persisted s.followed.node revoker

theorem Ended.step (h : Ended s) (hClear : s.Clear a) (hStep : s.step periodic maxBufferSize a = some t) :
    Ended t ∧ (s.resolved = true → Untouched s t) := by
  have hSame : Ended s ∧ (s.resolved = true → Untouched s s) :=
    ⟨h, fun hResolved => ⟨hResolved, rfl, rfl, rfl⟩⟩
  have hPhase := h.phase
  cases a with
  | publish call =>
      cases hStep
      exact ⟨{ h with }, fun hResolved => ⟨hResolved, rfl, rfl, rfl⟩⟩
  | node a =>
      rw [NodeLife.step, Option.ite_none_left_eq_some] at hStep
      obtain ⟨hCannot, hStep⟩ := hStep
      obtain ⟨next, hNext, hEq⟩ := Option.map_eq_some_iff.mp hStep
      simp only [Bool.or_eq_true, not_or, Bool.not_eq_true] at hCannot
      exact h.nodeStep hCannot.1 (hClear h.shuttingDown) hNext hEq.symm
  | manager i a =>
      simp only [NodeLife.step] at hStep
      split_ifs at hStep
      obtain ⟨old, hOld, hStep⟩ := Option.bind_eq_some_iff.mp hStep
      obtain ⟨new, hNew, rfl⟩ := Option.map_eq_some_iff.mp hStep
      exact h.managerStep hOld hNew
  | shutdown =>
      simp only [NodeLife.step, Clear, h.shuttingDown, if_true] at hStep hClear
      rw [← hClear] at hStep
      cases hStep
      exact hSame
  | engineStopped =>
      simp only [NodeLife.step] at hStep
      split at hStep
      · rename_i awaited hClosing
        split_ifs at hStep with hDrained
        obtain ⟨next, hNext, rfl⟩ := Option.map_eq_some_iff.mp hStep
        obtain ⟨hResolved, hEnded⟩ := h.engineStopped hClosing hDrained hNext
        exact ⟨hEnded, fun hAlready => by simp [hResolved] at hAlready⟩
      · cases hStep
  | revokerShutDown =>
      simp only [NodeLife.step] at hStep
      split at hStep
      · rename_i revoker hClosing
        split_ifs at hStep with hDestroyed
        cases hStep
        rw [hClosing] at hPhase
        obtain ⟨hEngine, hTorn, hResolved⟩ := hPhase
        have hNone : TornBut s.managers none := by
          intro i manager hGet _
          by_cases hOther : revoker = i
          · subst hOther
            simpa [hGet] using hDestroyed
          · exact hTorn i manager hGet (by simpa using hOther)
        exact ⟨{ h with phase := ⟨hEngine, hNone, hResolved⟩ },
          fun hAlready => by simp [hResolved] at hAlready⟩
      · cases hStep
  | shutdownReturned =>
      simp only [NodeLife.step] at hStep
      split_ifs at hStep with hClosing
      cases hStep
      rw [hClosing] at hPhase
      obtain ⟨hEngine, hTorn, hResolved⟩ := hPhase
      exact ⟨{ h with phase := ⟨hEngine, hTorn, hClear, rfl⟩ },
        fun hAlready => by simp [hResolved] at hAlready⟩
  | destroy =>
      simp only [NodeLife.step, h.shuttingDown, if_true] at hStep
      split at hStep
      · rename_i revoker hRevoker
        cases hStep
        exact h.destroy hRevoker rfl
      · cases hStep
        exact hSame
  | destroyReturned =>
      simp only [NodeLife.step, RevokerNode.step, h.shuttingDown, if_true] at hStep
      split_ifs at hStep with hPos
      cases hStep
      have hNone := h.destroying hPos
      refine ⟨⟨rfl, h.timer, h.stopped, h.drained, hNone.of_none _, h.timed, fun _ => hNone, h.phase⟩,
        fun hResolved => ⟨hResolved, rfl, rfl, rfl⟩⟩

/-- `shutdown` is called. -/
theorem Alive.shutdown (h : Alive s) (hFirst : awaitStop s.followed.node = s.followed.node.engine) :
    Ended s.shutdown := by
  have hGated := h.serves.gated h.serving
  obtain ⟨hClosing, hResolved, hDestroying⟩ := h.idle
  have hDrained : ∀ (i : Nat) (inst : Instance), s.followed.node.instances[i]? = some inst →
      s.followed.node.engine ≠ some i → inst.engine.stopped = true ∧ inst.engine.rotating = none := by
    intro i inst hInst hOther
    have hStopped := hGated.stopped i inst hInst hOther
    exact ⟨hStopped, (h.drained i inst hInst hStopped).resolve_right fun hAwaits => hOther hAwaits.1⟩
  have hNoDestroy : ∀ managers : List FileActivity, 0 < s.destroying → TornBut managers none := by
    intro managers hPos
    omega
  cases hEngine : s.followed.node.engine with
  | some e =>
      obtain ⟨-, hStopped⟩ := hGated.stopEngine h.serves.follows hEngine
      have hFrame := RevokerNode.stopEngine_keeps s.followed.node e
      rw [NodeLife.shutdown, shutdown_eq_stopEngine hEngine, if_pos (by simp [hEngine])]
      refine ⟨rfl, rfl, hStopped, ?_, ?_, h.timed, hNoDestroy s.managers, ?_, hResolved⟩
      · intro i inst hInst hOther
        have hNe : e ≠ i := by
          rintro rfl
          rw [hFrame] at hOther
          exact hOther hEngine
        exact (hDrained i inst (stopEngine_other hNe hInst) (by simpa [hEngine] using hNe)).2
      · rw [hFrame]
        exact h.torn
      · rw [hFrame]
        exact hFirst
  | none =>
      have hAll : ∀ inst ∈ s.followed.node.instances, inst.engine.stopped = true ∧
        inst.engine.rotating = none := by
        intro inst hMem
        obtain ⟨i, hInst⟩ := List.mem_iff_getElem?.mp hMem
        exact hDrained i inst hInst (by simp [hEngine])
      obtain ⟨hDown, hTimer, hEngine', hRevoker, hInstances⟩ := shutdown_of_none hEngine
      rw [NodeLife.shutdown, if_neg (by simp [hEngine])]
      refine closeRevoker_ended hDown hTimer ?_ ?_ hEngine' (hRevoker.symm ▸ h.torn) h.timed
        (hNoDestroy s.managers) hResolved
      · intro inst hMem
        obtain ⟨old, hOld, hEq⟩ := hInstances inst hMem
        exact hEq ▸ (hAll old hOld).1
      · intro inst hMem
        obtain ⟨old, hOld, hEq⟩ := hInstances inst hMem
        exact hEq ▸ (hAll old hOld).2

theorem Alive.step (h : Alive s) (hClear : s.Clear a) (hStep : s.step periodic maxBufferSize a = some t) :
    Alive t ∨ Ended t := by
  obtain ⟨hClosing, hResolved, hDestroying⟩ := h.idle
  cases a with
  | publish call =>
      cases hStep
      exact Or.inl { h with serves := FollowedLog.step_serves h.serves (a := .publish call) rfl }
  | node a =>
      rw [NodeLife.step, Option.ite_none_left_eq_some] at hStep
      obtain ⟨hCan, hStep⟩ := hStep
      obtain ⟨next, hNext, rfl⟩ := Option.map_eq_some_iff.mp hStep
      simp only [Bool.or_eq_true, not_or, Bool.not_eq_true] at hCan
      exact Or.inl (h.nodeStep hCan.1 (by simpa using hCan.2) hNext _)
  | manager i a =>
      simp only [NodeLife.step] at hStep
      split_ifs at hStep
      obtain ⟨old, hOld, hStep⟩ := Option.bind_eq_some_iff.mp hStep
      obtain ⟨new, hNew, rfl⟩ := Option.map_eq_some_iff.mp hStep
      refine Or.inl { h with parallel := ?_, torn := ?_, timed := ?_ }
      · exact (List.length_set ..).trans h.parallel
      · exact h.torn.set hOld (FileActivity.step_destroyed hNew)
      · exact h.timed.set hOld fun hTimed => FileActivity.tornDown_step hTimed hNew
  | shutdown =>
      simp only [NodeLife.step, Clear, h.serving] at hStep hClear
      cases hStep
      exact Or.inr (h.shutdown hClear)
  | engineStopped | revokerShutDown =>
      simp only [NodeLife.step, hClosing] at hStep
      cases hStep
  | shutdownReturned =>
      simp [NodeLife.step, hClosing] at hStep
  | destroy =>
      simp only [NodeLife.step, h.serving] at hStep
      cases hStep
      exact Or.inr (h.shutdown (hClear h.serving))
  | destroyReturned =>
      simp [NodeLife.step, hDestroying] at hStep

/-- After `shutdown` has resolved no revoker and no engine is created or runs, no timer is
armed and no file is written, in every run in which what is suspended when `shutdown` is
called goes on only to fail, `shutdown` is called before anybody stopped the engine, is not
called again before it has resolved, and returns with no backup under way or in line. -/
theorem final_of_clear {log : List RevokerCall} {actions : List Action}
    (run : Run (restrict (ofStep (NodeLife.step periodic maxBufferSize)) Clear) { followed := { log := log } }
      actions s) (hResolved : s.resolved = true) (later : List Action)
    (rest : Run (restrict (ofStep (NodeLife.step periodic maxBufferSize)) Clear) s later t) : Final s t := by
  have hEnded : Alive s ∨ Ended s := by
    refine run.invariant (P := fun s => Alive s ∨ Ended s) (fun u a v h hStep => ?_) (Or.inl (alive_init log))
    rcases h with h | h
    · exact h.step hStep.2 hStep.1
    · exact Or.inr (h.step hStep.2 hStep.1).1
  have hEnded : Ended s := by
    refine hEnded.resolve_left fun hAlive => ?_
    rw [hAlive.idle.2.1] at hResolved
    cases hResolved
  have hEnd : Ended t ∧ Untouched s t := by
    induction rest with
    | nil => exact ⟨hEnded, hResolved, rfl, rfl, rfl⟩
    | snoc prior last ih =>
        obtain ⟨hMiddle, hUntouched⟩ := ih
        obtain ⟨hLast, hSame⟩ := hMiddle.step last.2 last.1
        exact ⟨hLast, hUntouched.trans (hSame hUntouched.resolved)⟩
  exact hEnd.1.final hEnd.2

/-- A node joins and rotates itself; its rebootstrap waits for a snapshot. -/
def rebootstrapping : List Action :=
  [.node (.init none), .node (.snapshot 0 (.ok ⟨0, 0⟩) (.ok ())), .node (.created 0 true), .node (.returned 0),
    .node (.inst 0 (.subscribed 0)), .node (.inst 0 (.accept 0)), .node .coreRotation, .node .timer,
    .node (.inst 0 (.deliver 0 1)), .node (.inst 0 (.internal (.apply (.ok ()) (.ok ()))))]

/-- `shutdown` waits for the rotation that the engine applies, and the snapshot never comes. -/
def failing : List Action :=
  [.shutdown, .node (.inst 0 (.internal (.rotated (.ok ()) (.ok ())))), .engineStopped,
    .node (.snapshot 0 (.error "cancelled") (.ok ())), .manager 0 .acquireMutex, .manager 0 .destroyFlushed,
    .revokerShutDown, .shutdownReturned]

theorem final_of_clear_failing : ∃ s t : NodeLife, s.resolved = true ∧
    Run (restrict (ofStep (NodeLife.step true 100)) Clear) s [.node (.returned 0), .node .coreRotation, .destroy] t ∧
    Final s t := by
  have hRun : ((exec (guarded (fun s a => decide (Clear s a)) (NodeLife.step true 100))
      { followed := { log := [.rotateOnDemand] } } (rebootstrapping ++ failing)).bind fun s =>
        (exec (guarded (fun s a => decide (Clear s a)) (NodeLife.step true 100)) s
          [.node (.returned 0), .node .coreRotation, .destroy]).map fun _ => s.resolved) = some true := by
    decide +kernel
  obtain ⟨s, hFirst, hRest⟩ := Option.bind_eq_some_iff.mp hRun
  obtain ⟨t, hLater, hResolved⟩ := Option.map_eq_some_iff.mp hRest
  have run := (run_of_exec hFirst).of_guarded fun _ _ h => of_decide_eq_true h
  have rest := (run_of_exec hLater).of_guarded fun _ _ h => of_decide_eq_true h
  exact ⟨s, t, hResolved, rest, final_of_clear run hResolved _ rest⟩

/-- The snapshot comes while `shutdown` waits: `stop` returns at once for the bootstrap, which
creates a revoker and starts an engine that `shutdown` then forgets. -/
def resuming : List Action :=
  [.shutdown, .node (.snapshot 0 (.ok ⟨1, 1⟩) (.ok ())), .node (.engineStopped 0 (.ok ())),
    .node (.destroyed 0 (.ok ())), .node (.created 0 true),
    .node (.inst 0 (.internal (.rotated (.ok ()) (.ok ())))), .engineStopped, .manager 1 .acquireMutex,
    .manager 1 .destroyFlushed, .revokerShutDown, .shutdownReturned]

theorem not_final : ¬ ∀ (periodic : Bool) (maxBufferSize : Nat) (log : List RevokerCall) (actions : List Action)
    (s : NodeLife), Run (ofStep (NodeLife.step periodic maxBufferSize)) { followed := { log := log } } actions s →
      s.resolved = true → ∀ (later : List Action) (t : NodeLife),
        Run (ofStep (NodeLife.step periodic maxBufferSize)) s later t → Final s t := by
  intro h
  have hEnd : (exec (NodeLife.step true 100) { followed := { log := [.rotateOnDemand] } }
      (rebootstrapping ++ resuming)).map (fun s =>
        (s.resolved, s.followed.node.instances.all (·.engine.stopped))) = some (true, false) := by
    decide +kernel
  obtain ⟨s, hRun, hEq⟩ := Option.map_eq_some_iff.mp hEnd
  obtain ⟨hResolved, hRunning⟩ := Prod.mk.inj hEq
  have hFinal := h _ _ _ _ s (run_of_exec hRun) hResolved [] s (Run.nil s)
  rw [List.all_eq_true.mpr hFinal.engines] at hRunning
  cases hRunning

end NodeLife

end TokenRevoker
