import TokenRevoker.Core.Teardown
import TokenRevoker.Node.ServingGate

/-! One life of a node with its owner: the bootstraps and the engines of `RevokerNode`,
the managers of the revokers that it creates, and the calls of `shutdown` and `destroy`. -/
namespace TokenRevoker

open Text Transition

/-- Where `shutdown` is suspended: on `stop` of the engine, by the engine whose chain that
awaits; on `shutdown` of a revoker; or it is about to return. -/
inductive ShutdownPhase where
  | stoppingEngine (awaited : Option Nat)
  | closingRevoker (revoker : Nat)
  | returning
  deriving DecidableEq

/-- A node with the managers of its revokers and the calls of its owner. It is the level at
which `shutdown` can be judged: everything that might go on is part of it. -/
structure NodeLife where
  followed : FollowedLog := {}
  /-- The manager of each revoker, in the order of the instances. -/
  managers : List FileActivity := []
  /-- How often the node has replaced its files or marked its sync state dirty. -/
  written : Nat := 0
  /-- The engine whose chain a bootstrap awaits. -/
  awaited : Option Nat := none
  closing : Option ShutdownPhase := none
  /-- Calls of `destroy` on a revoker that have not settled. -/
  destroying : Nat := 0
  /-- A call of `shutdown` has resolved. -/
  resolved : Bool := false
  deriving DecidableEq

/-- It is suspended on `createRevoker`. -/
def Task.creates : Task → Bool
  | .resuming _ _ | .bootstrap _ (.creating _) => true
  | .bootstrap _ _ => false

/-- It is suspended on `stop` of the engine. -/
def Task.stopping : Task → Bool
  | .bootstrap _ (.stopping _) => true
  | .resuming _ _ | .bootstrap _ _ => false

namespace SyncEngineProcess

variable {toNumber : JsString → Option Nat} {s t : SyncEngineProcess} {a : Action}

/-- An engine that is stopped with no rotation under way does nothing more. -/
theorem step_spent (h : s.step toNumber a = some t) (hStopped : s.stopped = true)
    (hRotating : s.rotating = none) : Quiet s t := by
  cases a with
  | apply applied updated =>
      simp only [step] at h
      split at h
      · rename_i enqueued rest hIdle hChain
        cases h
        exact passedOver_quiet hChain (by simp [hStopped]) applied updated
      · cases h
  | rotated outcome updated =>
      rw [step, hRotating] at h
      cases h
  | _ => exact step_quiet h (by simp) (by simp)

end SyncEngineProcess

namespace Instance

variable {log : List RevokerCall} {inst next : Instance} {a : Action}

theorem step_stopped (hStep : inst.step log a = some next) : next.engine.stopped = inst.engine.stopped := by
  obtain ⟨engine, streams, firstAccepted, rfl, hEngine, -⟩ := step_moves hStep
  rcases hEngine with rfl | ⟨b, hOwner, hEngine⟩
  · rfl
  · exact (SyncEngineProcess.step_proceeds hEngine hOwner.2).stopped

theorem step_spent (hStep : inst.step log a = some next) (hStopped : inst.engine.stopped = true)
    (hRotating : inst.engine.rotating = none) :
    next.engine.rotating = none ∧ next.engine.history.persisted = inst.engine.history.persisted := by
  obtain ⟨engine, streams, firstAccepted, rfl, hEngine, -⟩ := step_moves hStep
  rcases hEngine with rfl | ⟨b, -, hEngine⟩
  · exact ⟨hRotating, rfl⟩
  · have hQuiet := SyncEngineProcess.step_spent hEngine hStopped hRotating
    exact ⟨hQuiet.rotating.trans hRotating, hQuiet.persisted⟩

end Instance

namespace NodeLife

inductive Action where
  | publish (call : RevokerCall)
  | node (a : RevokerNode.Action)
  | manager (index : Nat) (a : FileActivity.Action)
  | shutdown
  | engineStopped
  | revokerShutDown
  | shutdownReturned
  | destroy
  | destroyReturned
  deriving DecidableEq

/-- The owner calls it, or it goes on with such a call. -/
def ofOwner : RevokerNode.Action → Bool
  | .shutdown | .shutdownEngineStopped | .destroy | .destroyReturned => true
  | _ => false

/-- `stop` returns at once where it was called before. Else it awaits the chain. -/
def awaitStop (node : RevokerNode) : Option Nat :=
  node.engine.filter fun engine => node.instances[engine]?.any fun inst => !inst.engine.stopped

/-- No event of the chain is being applied. Those behind it return at once. -/
def drained (node : RevokerNode) (awaited : Option Nat) : Bool :=
  (awaited.bind fun engine => node.instances[engine]?).all fun inst => inst.engine.rotating.isNone

/-- The step replaces the files of the node or marks its sync state dirty. Writes of core are
counted by its own manager. -/
def writesFiles (node : RevokerNode) : RevokerNode.Action → Bool
  | .snapshot _ (.ok _) _ => node.engine.isNone && node.revoker.isNone
  | .engineStopped _ _ => node.revoker.isNone
  | .destroyed _ _ => true
  | .coreRotation => !node.shuttingDown && !node.isRotationExternallyDriven
  | _ => false

/-- The engine whose chain the bootstrap awaits after the step. -/
def awaitedAfter (s : NodeLife) : RevokerNode.Action → Option Nat
  | .snapshot _ (.ok _) _ => awaitStop s.followed.node
  | _ => s.awaited

/-- The promise that the step waits for has resolved. -/
def ready (s : NodeLife) : RevokerNode.Action → Bool
  | .engineStopped _ _ => drained s.followed.node s.awaited
  | _ => true

/-- A revoker that a bootstrap lets go is destroyed, and one that it creates has a manager
of its own, with no write buffer. -/
def managersAfter (periodic : Bool) (maxBufferSize : Nat) (s : NodeLife) (next : RevokerNode) :
    List FileActivity :=
  let kept := match s.followed.node.revoker, next.revoker with
    | some old, none => s.managers.modify old FileActivity.teardown
    | _, _ => s.managers
  if s.followed.node.instances.length < next.instances.length then
    kept ++ [FileActivity.init false periodic maxBufferSize]
  else kept

/-- `shutdown` comes to the revoker. -/
def closeRevoker (s : NodeLife) : NodeLife :=
  match s.followed.node.revoker with
  | some revoker => { s with
      managers := s.managers.modify revoker fun manager => (manager.step .shutdown).getD manager
      closing := some (.closingRevoker revoker) }
  | none => { s with closing := some .returning }

/-- `shutdown` up to its first await. -/
def shutdown (s : NodeLife) : NodeLife :=
  let called : NodeLife := { s with followed := { s.followed with node := s.followed.node.shutdown } }
  if s.followed.node.engine.isSome then
    { called with closing := some (.stoppingEngine (awaitStop s.followed.node)) }
  else called.closeRevoker

/-- One synchronous stretch of the program, `none` where it cannot run now. -/
def step (periodic : Bool) (maxBufferSize : Nat) (s : NodeLife) : Action → Option NodeLife
  | .publish call => some { s with followed := { s.followed with log := s.followed.log ++ [call] } }
  | .node a =>
      if ofOwner a || !s.ready a then none
      else (s.followed.node.step s.followed.log a).map fun next =>
        { s with
          followed := { s.followed with node := next }
          managers := s.managersAfter periodic maxBufferSize next
          written := if writesFiles s.followed.node a then s.written + 1 else s.written
          awaited := s.awaitedAfter a }
  | .manager index a =>
      if a = .shutdown ∨ a = .destroy then none
      else s.managers[index]?.bind fun manager => (manager.step a).map fun next =>
        { s with managers := s.managers.set index next }
  | .shutdown =>
      -- the second call returns at once, wherever the first is
      if s.followed.node.shuttingDown then some { s with resolved := true } else some s.shutdown
  | .engineStopped =>
      match s.closing with
      | some (.stoppingEngine awaited) =>
          if drained s.followed.node awaited then
            (s.followed.node.step s.followed.log .shutdownEngineStopped).map fun next =>
              closeRevoker { s with followed := { s.followed with node := next } }
          else none
      | _ => none
  | .revokerShutDown =>
      match s.closing with
      | some (.closingRevoker revoker) =>
          if s.managers[revoker]?.any (·.destroyed) then some { s with closing := some .returning } else none
      | _ => none
  | .shutdownReturned =>
      if s.closing = some .returning then some { s with closing := none, resolved := true } else none
  | .destroy =>
      if s.followed.node.shuttingDown then
        match s.followed.node.revoker with
        | some revoker => some { s with
            followed := { s.followed with node := s.followed.node.close revoker }
            managers := s.managers.modify revoker FileActivity.teardown
            destroying := s.destroying + 1 }
        | none => some s
      else some s.shutdown
  | .destroyReturned =>
      if 0 < s.destroying then
        (s.followed.node.step s.followed.log .destroyReturned).map fun next =>
          { s with followed := { s.followed with node := next }, destroying := s.destroying - 1 }
      else none

/-- `init` is called, or a call that was suspended goes on to its next stretch. -/
def resumes : RevokerNode.Action → Bool
  | .init _ | .snapshot _ (.ok _) _ | .engineStopped _ _ | .destroyed _ _ => true
  | .resumed _ created | .created _ created => created
  | _ => false

variable {log : List RevokerCall} {node next : RevokerNode} {periodic : Bool} {maxBufferSize : Nat}
  {s t u : NodeLife} {a : Action}

/-- It neither brings a snapshot nor the end of a chain. -/
def plain : RevokerNode.Action → Bool
  | .snapshot _ (.ok _) _ | .engineStopped _ _ => false
  | _ => true

/-- What a step of the node does to its instances and to what it refers to. All that is created,
closed or started by a step is named. -/
inductive Effect (log : List RevokerCall) (node : RevokerNode) : RevokerNode.Action → RevokerNode → Prop where
  | kept {a : RevokerNode.Action} {next : RevokerNode} (hPlain : plain a = true)
      (hInstances : next.instances = node.instances) (hEngine : next.engine = node.engine)
      (hRevoker : next.revoker = node.revoker) : Effect log node a next
  | moved {i : Nat} {b : Instance.Action} {inst later : Instance} {next : RevokerNode}
      (hInst : node.instances[i]? = some inst) (hStep : inst.step log b = some later)
      (hInstances : next.instances = node.instances.set i later) (hEngine : next.engine = node.engine)
      (hRevoker : next.revoker = node.revoker) : Effect log node (.inst i b) next
  | stopping {task e : Nat} {caller : Caller} {snapshot : SnapshotHeader} {installed : Except String Unit}
      {next : RevokerNode} (hTask : node.tasks[task]? = some (.bootstrap caller .requesting))
      (hStop : node.engine = some e) (hInstances : next.instances = (node.stopEngine e).instances)
      (hEngine : next.engine = node.engine) (hRevoker : next.revoker = node.revoker)
      (hTasks : next.tasks = node.tasks.set task (.bootstrap caller (.stopping snapshot))) :
      Effect log node (.snapshot task (.ok snapshot) installed) next
  | letGo {a : RevokerNode.Action} {next : RevokerNode} (hResumes : resumes a = true)
      (hCause : node.engine = none ∨ ∃ (task : Nat) (caller : Caller) (snapshot : SnapshotHeader)
        (installed : Except String Unit), a = .engineStopped task installed ∧
          node.tasks[task]? = some (.bootstrap caller (.stopping snapshot)))
      (hInstances : ∀ (i : Nat) (inst : Instance), next.instances[i]? = some inst →
        ∃ old closed, node.instances[i]? = some old ∧ inst = { old with closed := closed })
      (hLength : next.instances.length = node.instances.length)
      (hEngine : next.engine = none) (hRevoker : next.revoker = none) : Effect log node a next
  | created {a : RevokerNode.Action} {next : RevokerNode} {bootstrapped : Bool} {lastLsn : Nat}
      {generation : Int} {task : Nat} {t : Task} (hPlain : plain a = true) (hResumes : resumes a = true)
      (hTask : node.tasks[task]? = some t) (hCreating : t.creates = true)
      (hInstances : next.instances = node.instances ++ [Instance.create bootstrapped lastLsn generation])
      (hEngine : next.engine = some node.instances.length)
      (hRevoker : next.revoker = some node.instances.length) : Effect log node a next

theorem close_length (node : RevokerNode) (index : Nat) :
    (node.close index).instances.length = node.instances.length := by
  unfold RevokerNode.close
  split <;> simp

theorem teardown_effect (base : RevokerNode) {a : RevokerNode.Action} (hResumes : resumes a = true)
    (hCause : node.engine = none ∨ ∃ (task : Nat) (caller : Caller) (snapshot : SnapshotHeader)
      (installed : Except String Unit), a = .engineStopped task installed ∧
        node.tasks[task]? = some (.bootstrap caller (.stopping snapshot)))
    (hInstances : base.instances = node.instances) (hEngine : base.engine = none)
    (task : Nat) (caller : Caller) (snapshot : SnapshotHeader) (installed : Except String Unit) :
    Effect log node a (base.teardown task caller snapshot installed) := by
  unfold RevokerNode.teardown
  split
  · rename_i old hOld
    have hFrame := RevokerNode.close_keeps { base with revoker := none } old
    refine .letGo hResumes hCause (fun i inst hInst => ?_) ?_ ?_ ?_
    · obtain ⟨before, closed, hBefore, rfl⟩ := RevokerNode.close_get hInst
      exact ⟨before, closed, hInstances ▸ hBefore, rfl⟩
    · exact (close_length { base with revoker := none } old).trans (congrArg _ hInstances)
    · rw [RevokerNode.setTask, hFrame]
      exact hEngine
    · rw [RevokerNode.setTask, hFrame]
  · rename_i hNone
    refine .letGo hResumes hCause (fun i inst hInst => ?_) ?_ ?_ ?_
    · refine ⟨inst, inst.closed, ?_, rfl⟩
      rw [← hInstances]
      cases installed <;> exact hInst
    · cases installed <;> exact congrArg _ hInstances
    · cases installed <;> exact hEngine
    · cases installed <;> exact hNone

/-- `#scheduleRebootstrap` arms the timer, unless the node is shutting down. -/
theorem scheduleRebootstrap_eq (node : RevokerNode) : ∃ pending timer,
    node.scheduleRebootstrap = { node with rebootstrapPending := pending, rebootstrapTimer := timer } ∧
      (node.shuttingDown = true → timer = node.rebootstrapTimer) := by
  unfold RevokerNode.scheduleRebootstrap
  split_ifs with hBusy
  · exact ⟨_, _, rfl, fun _ => rfl⟩
  · refine ⟨_, _, rfl, fun hDown => ?_⟩
    simp [hDown] at hBusy

theorem onRebootstrapRequired_eq (node : RevokerNode) : ∃ pending timer,
    node.onRebootstrapRequired = { node with rebootstrapPending := pending, rebootstrapTimer := timer } ∧
      (node.shuttingDown = true → timer = node.rebootstrapTimer) := by
  unfold RevokerNode.onRebootstrapRequired
  split_ifs
  · exact ⟨_, _, rfl, fun _ => rfl⟩
  · exact scheduleRebootstrap_eq node

theorem onCoreRotation_eq (node : RevokerNode) : ∃ pending timer,
    node.onCoreRotation = { node with rebootstrapPending := pending, rebootstrapTimer := timer } ∧
      (node.shuttingDown = true → timer = node.rebootstrapTimer) := by
  unfold RevokerNode.onCoreRotation
  split_ifs
  · exact ⟨_, _, rfl, fun _ => rfl⟩
  · exact ⟨_, _, rfl, fun _ => rfl⟩
  · exact scheduleRebootstrap_eq node

theorem instanceStep_eq {i : Nat} {b : Instance.Action} (hStep : node.instanceStep log i b = some next) :
    ∃ inst later catchingUp pending timer, node.instances[i]? = some inst ∧ inst.step log b = some later ∧
      next = { node with
        instances := node.instances.set i later
        catchingUp := catchingUp
        rebootstrapPending := pending
        rebootstrapTimer := timer } ∧
      (node.shuttingDown = true → timer = node.rebootstrapTimer) := by
  unfold RevokerNode.instanceStep at hStep
  split at hStep
  · cases hStep
  · rename_i inst hInst
    obtain ⟨later, hLater, hNext⟩ := Option.map_eq_some_iff.mp hStep
    have hReported : ∀ stepped : RevokerNode, ∃ pending timer,
        (if later.engine.rebootstrapFired && !inst.engine.rebootstrapFired then stepped.onRebootstrapRequired
          else stepped) = { stepped with rebootstrapPending := pending, rebootstrapTimer := timer } ∧
          (stepped.shuttingDown = true → timer = stepped.rebootstrapTimer) := by
      intro stepped
      split_ifs
      · exact onRebootstrapRequired_eq stepped
      · exact ⟨_, _, rfl, fun _ => rfl⟩
    obtain ⟨pending, timer, hEq, hTimer⟩ := hReported _
    exact ⟨inst, later, _, pending, timer, hInst, hLater, hNext.symm.trans hEq, hTimer⟩

/-- What a step leaves alone: the flag, a timer that `shutdown` has cleared, and a bootstrap
that awaits a chain. -/
structure Keeps (node : RevokerNode) (a : RevokerNode.Action) (next : RevokerNode) : Prop where
  shuttingDown : next.shuttingDown = node.shuttingDown
  timer : node.shuttingDown = true → node.rebootstrapTimer = false → next.rebootstrapTimer = false
  stopping : (∀ task installed, a ≠ .engineStopped task installed) →
    ∀ t ∈ node.tasks, t.stopping = true → t ∈ next.tasks

theorem Keeps.set {a : RevokerNode.Action} {task : Nat} {old new : Task}
    (hTask : node.tasks[task]? = some old)
    (hOld : (∀ task installed, a ≠ .engineStopped task installed) → old.stopping = false)
    (hTasks : next.tasks = node.tasks.set task new) (hDown : next.shuttingDown = node.shuttingDown)
    (hTimer : next.rebootstrapTimer = node.rebootstrapTimer) : Keeps node a next := by
  refine ⟨hDown, fun _ => hTimer.trans, fun hAction t hMem hStopping => ?_⟩
  obtain ⟨j, hj⟩ := List.mem_iff_getElem?.mp hMem
  have hOther : task ≠ j := by
    rintro rfl
    rw [hTask] at hj
    cases hj
    rw [hOld hAction] at hStopping
    cases hStopping
  rw [hTasks]
  exact List.mem_iff_getElem?.mpr ⟨j, by rw [List.getElem?_set_ne hOther, hj]⟩

theorem Keeps.erase {a : RevokerNode.Action} {task : Nat} {old : Task} (hTask : node.tasks[task]? = some old)
    (hOld : old.stopping = false) (hTasks : next.tasks = node.tasks.eraseIdx task)
    (hDown : next.shuttingDown = node.shuttingDown)
    (hTimer : node.shuttingDown = true → next.rebootstrapTimer = node.rebootstrapTimer) :
    Keeps node a next := by
  refine ⟨hDown, fun hShut => (hTimer hShut).trans, fun _ t hMem hStopping => ?_⟩
  obtain ⟨j, hj⟩ := List.mem_iff_getElem?.mp hMem
  rw [hTasks, List.mem_eraseIdx_iff_getElem?]
  refine ⟨j, ?_, hj⟩
  rintro rfl
  rw [hTask] at hj
  cases hj
  rw [hOld] at hStopping
  cases hStopping

theorem teardown_frame (base : RevokerNode) (task : Nat) (caller : Caller) (snapshot : SnapshotHeader)
    (installed : Except String Unit) : ∃ new,
      (base.teardown task caller snapshot installed).tasks = base.tasks.set task new ∧
      (base.teardown task caller snapshot installed).shuttingDown = base.shuttingDown ∧
      (base.teardown task caller snapshot installed).rebootstrapTimer = base.rebootstrapTimer := by
  unfold RevokerNode.teardown
  split
  · rename_i old hOld
    rw [RevokerNode.setTask, RevokerNode.close_keeps]
    exact ⟨_, rfl, rfl, rfl⟩
  · cases installed <;> exact ⟨_, rfl, rfl, rfl⟩

theorem step_effect_keeps {a : RevokerNode.Action} (hOwner : ofOwner a = false)
    (hStep : node.step log a = some next) : Effect log node a next ∧ Keeps node a next := by
  cases a with
  | init resume =>
      simp only [RevokerNode.step] at hStep
      split_ifs at hStep
      cases resume <;> cases hStep <;>
        exact ⟨.kept rfl rfl rfl rfl, rfl, fun _ => id, fun _ t hMem _ => List.mem_append_left _ hMem⟩
  | resumed task created =>
      simp only [RevokerNode.step] at hStep
      split at hStep
      · rename_i lastLsn generation hTask
        split_ifs at hStep with hCreated <;> cases hStep
        · exact ⟨.created rfl hCreated hTask rfl rfl rfl rfl, .erase hTask rfl rfl rfl fun _ => rfl⟩
        · exact ⟨.kept rfl rfl rfl rfl, .erase hTask rfl rfl rfl fun _ => rfl⟩
      · cases hStep
  | snapshot task snapshot installed =>
      simp only [RevokerNode.step] at hStep
      split at hStep
      · rename_i caller hTask
        cases snapshot with
        | error message =>
            cases hStep
            exact ⟨.kept rfl rfl rfl rfl, .set hTask (fun _ => rfl) rfl rfl rfl⟩
        | ok snapshot =>
            cases hEngine : node.engine with
            | some e =>
                simp only [hEngine] at hStep
                cases hStep
                rw [← hEngine]
                have hFrame := RevokerNode.stopEngine_keeps { node with catchingUp := true } e
                refine ⟨.stopping hTask hEngine ?_ ?_ ?_ ?_, ?_⟩
                · rw [RevokerNode.stopEngine_catchingUp]
                  rfl
                · rw [RevokerNode.setTask, hFrame]
                · rw [RevokerNode.setTask, hFrame]
                · rw [RevokerNode.setTask, hFrame]
                · rw [RevokerNode.setTask, hFrame]
                  exact .set hTask (fun _ => rfl) rfl rfl rfl
            | none =>
                simp only [hEngine] at hStep
                cases hStep
                obtain ⟨new, hTasks, hDown, hTimer⟩ := teardown_frame
                  { node with engine := none, catchingUp := true } task caller snapshot installed
                exact ⟨teardown_effect { node with engine := none, catchingUp := true } rfl
                  (Or.inl hEngine) rfl rfl task caller snapshot installed,
                  .set hTask (fun _ => rfl) hTasks hDown hTimer⟩
      · cases hStep
  | engineStopped task installed =>
      simp only [RevokerNode.step] at hStep
      split at hStep
      · rename_i caller snapshot hTask
        cases hStep
        obtain ⟨new, hTasks, hDown, hTimer⟩ :=
          teardown_frame { node with engine := none } task caller snapshot installed
        exact ⟨teardown_effect { node with engine := none } rfl
          (Or.inr ⟨task, caller, snapshot, installed, rfl, hTask⟩) rfl rfl task caller snapshot installed,
          .set hTask (fun hAction => absurd rfl (hAction task installed)) hTasks hDown hTimer⟩
      · cases hStep
  | destroyed task installed =>
      simp only [RevokerNode.step] at hStep
      split at hStep
      · rename_i caller snapshot hTask
        cases hStep
        cases installed <;> exact ⟨.kept rfl rfl rfl rfl, .set hTask (fun _ => rfl) rfl rfl rfl⟩
      · cases hStep
  | created task created =>
      simp only [RevokerNode.step] at hStep
      split at hStep
      · rename_i caller snapshot hTask
        split_ifs at hStep with hCreated <;> cases hStep
        · exact ⟨.created rfl hCreated hTask rfl rfl rfl rfl, .set hTask (fun _ => rfl) rfl rfl rfl⟩
        · exact ⟨.kept rfl rfl rfl rfl, .set hTask (fun _ => rfl) rfl rfl rfl⟩
      · cases hStep
  | returned task =>
      simp only [RevokerNode.step] at hStep
      split at hStep
      · rename_i caller ok hTask
        split at hStep <;> cases hStep
        · exact ⟨.kept rfl rfl rfl rfl, .erase hTask rfl rfl rfl fun _ => rfl⟩
        · exact ⟨.kept rfl rfl rfl rfl, .erase hTask rfl rfl rfl fun _ => rfl⟩
        · exact ⟨.kept rfl rfl rfl rfl, .erase hTask rfl rfl rfl fun _ => rfl⟩
        · obtain ⟨pending, timer, hEq, hTimer⟩ := scheduleRebootstrap_eq { node with
            tasks := node.tasks.eraseIdx task, rebootstrapPending := false }
          rw [hEq]
          exact ⟨.kept rfl rfl rfl rfl, .erase hTask rfl rfl rfl hTimer⟩
      · cases hStep
  | timer =>
      simp only [RevokerNode.step] at hStep
      split_ifs at hStep <;> cases hStep
      · exact ⟨.kept rfl rfl rfl rfl, rfl, fun _ _ => rfl, fun _ t hMem _ => hMem⟩
      · exact ⟨.kept rfl rfl rfl rfl, rfl, fun _ _ => rfl, fun _ t hMem _ => List.mem_append_left _ hMem⟩
  | coreRotation =>
      simp only [RevokerNode.step] at hStep
      split_ifs at hStep
      cases hStep
      obtain ⟨pending, timer, hEq, hTimer⟩ := onCoreRotation_eq node
      rw [hEq]
      exact ⟨.kept rfl rfl rfl rfl, rfl, fun hDown => (hTimer hDown).trans, fun _ t hMem _ => hMem⟩
  | inst index b =>
      obtain ⟨inst, later, catchingUp, pending, timer, hInst, hLater, rfl, hTimer⟩ := instanceStep_eq hStep
      exact ⟨.moved hInst hLater rfl rfl rfl, rfl, fun hDown => (hTimer hDown).trans, fun _ t hMem _ => hMem⟩
  | shutdown | shutdownEngineStopped | destroy | destroyReturned => cases hOwner

theorem step_effect {a : RevokerNode.Action} (hOwner : ofOwner a = false)
    (hStep : node.step log a = some next) : Effect log node a next :=
  (step_effect_keeps hOwner hStep).1

theorem step_keeps {a : RevokerNode.Action} (hOwner : ofOwner a = false)
    (hStep : node.step log a = some next) : Keeps node a next :=
  (step_effect_keeps hOwner hStep).2

end NodeLife

end TokenRevoker
