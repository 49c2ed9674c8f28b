import TokenRevoker.Node.ServingGate

/-! The requests for a rebootstrap. One that comes while a flag is set is dropped, so the
flag has to stand for a rebootstrap that is still to answer it. What a bootstrap does
after its last await on the coordinator or on its old engine happens in one step of the
event loop, and no request comes from within that step. -/
namespace TokenRevoker

open Text Transition

/-- It waits for nothing but promise jobs: `destroy` and `createRevoker` without a gRPC
server await no event, and neither does the caller of a bootstrap that has ended. -/
def Task.immediate : Task → Bool
  | .resuming _ _ | .bootstrap _ (.destroying _) | .bootstrap _ (.creating _)
  | .bootstrap _ (.finished _) => true
  | .bootstrap _ .requesting | .bootstrap _ (.stopping _) => false

namespace SyncEngineProcess

variable {toNumber : JsString → Option Nat} {s t : SyncEngineProcess} {a : Action}

/-- It has been given nothing yet, and waits for no page. -/
structure Idle (s : SyncEngineProcess) : Prop where
  chain : s.chain = []
  rotating : s.rotating = none
  polling : s.polling = none
  fired : s.rebootstrapFired = false

theorem idle_init (initialLsn : Nat) (initialGeneration : Int) :
    (init initialLsn initialGeneration).trySubscribe.Idle := ⟨rfl, rfl, rfl, rfl⟩

theorem Idle.enterReconnecting (h : s.Idle) : s.enterReconnecting.Idle := by
  unfold SyncEngineProcess.enterReconnecting scheduleReconnect startPolling
  split_ifs <;> exact ⟨h.chain, h.rotating, h.polling, h.fired⟩

/-- A promise job finds nothing to do for an idle engine but its first subscription. -/
theorem Idle.job (h : s.Idle) (hStep : s.step toNumber a = some t)
    (hJob : (∃ index, a = .subscribed index ∨ a = .subscribeFailed index) ∨ a = .pollNext ∨
      (∃ applied updated, a = .apply applied updated) ∨ ∃ outcome updated, a = .rotated outcome updated) :
    t.Idle := by
  rcases hJob with ⟨index, rfl | rfl⟩ | rfl | ⟨applied, updated, rfl⟩ | ⟨outcome, updated, rfl⟩
  · simp only [step] at hStep
    split_ifs at hStep <;> cases hStep <;> exact ⟨h.chain, h.rotating, h.polling, h.fired⟩
  · simp only [step] at hStep
    split_ifs at hStep
    cases hStep
    have hSettled : Idle { s with subscribing := s.subscribing.eraseIdx index } :=
      ⟨h.chain, h.rotating, h.polling, h.fired⟩
    exact hSettled.enterReconnecting
  · simp [step, h.polling] at hStep
  · simp [step, h.rotating, h.chain] at hStep
  · simp [step, h.rotating] at hStep

end SyncEngineProcess

namespace Instance

/-- The step is begun by an event of its own: by a message, a failed call, or a timer. The
others are promise jobs, or steps of the coordinator. -/
def ownEvent : Action → Bool
  | .deliver _ _ | .keepalive _ | .resnapshot _ | .page _ _ | .resnapshotPage => true
  | .internal a =>
    match a with
    | .streamDown _ | .watchdog | .wake _ | .pollTick | .pollFailed => true
    | _ => false
  | .subscribed _ | .accept _ => false

variable {log : List RevokerCall} {inst next : Instance} {a : Action}

theorem idle_of_job (h : inst.engine.Idle) (hStep : inst.step log a = some next)
    (hJob : ownEvent a = false) : next.engine.Idle := by
  cases a with
  | internal a =>
      simp only [step] at hStep
      split_ifs at hStep with hInternal
      obtain ⟨engine, hEngine, rfl⟩ := Option.map_eq_some_iff.mp hStep
      refine h.job hEngine ?_
      cases a with
      | subscribeFailed index => exact Or.inl ⟨index, Or.inr rfl⟩
      | pollNext => exact Or.inr (Or.inl rfl)
      | apply applied updated => exact Or.inr (Or.inr (Or.inl ⟨applied, updated, rfl⟩))
      | rotated outcome updated => exact Or.inr (Or.inr (Or.inr ⟨outcome, updated, rfl⟩))
      | streamDown | watchdog | wake | pollTick | pollFailed => cases hJob
      | start | subscribed | data | pollResponse | stop => cases hInternal
  | subscribed index =>
      obtain ⟨engine, hEngine, rfl⟩ := Option.map_eq_some_iff.mp hStep
      exact h.job hEngine (Or.inl ⟨index, Or.inl rfl⟩)
  | accept stream =>
      simp only [step] at hStep
      split at hStep
      · split_ifs at hStep
        cases hStep
        exact h
      · cases hStep
  | deliver | keepalive | resnapshot | page | resnapshotPage => cases hJob

end Instance

namespace RevokerNode

/-- The step is begun by an event of its own: by a call of the owner, an answer of the
coordinator, a timer, or the file operation that ends a rotation of the core. -/
def ownEvent : Action → Bool
  | .init _ | .snapshot _ _ _ | .timer | .coreRotation | .shutdown | .destroy => true
  | .inst _ a => Instance.ownEvent a
  | .resumed _ _ | .engineStopped _ _ | .destroyed _ _ | .created _ _ | .returned _
  | .shutdownEngineStopped | .destroyReturned => false

def liveInstance (node : RevokerNode) : Option Instance :=
  node.engine.bind fun engine => node.instances[engine]?

/-- The live engine has called `onRebootstrapRequired`. -/
def firedEngine (node : RevokerNode) : Bool :=
  node.liveInstance.any fun inst => inst.engine.rebootstrapFired

/-- How many rebootstraps are armed or running. -/
def rebootstraps (node : RevokerNode) : Nat :=
  (if node.rebootstrapTimer then 1 else 0) + node.tasks.countP Task.timed

/-- `#dirty` after the files were replaced, or after an error, which leaves it as it was
unless it came from the write of the state file. -/
def dirtyAfterInstall (dirty cleared : Bool) : Except String Unit → Bool
  | .ok () => false
  | .error _ => dirty && !cleared

/-- `#dirty` after a step. -/
def dirtyAfter (node : RevokerNode) (dirty cleared : Bool) : Action → Bool
  | .init (some _) => false
  | .snapshot _ (.ok _) installed =>
      if node.engine.isNone && node.revoker.isNone then dirtyAfterInstall dirty cleared installed else dirty
  | .engineStopped _ installed =>
      if node.revoker.isNone then dirtyAfterInstall dirty cleared installed else dirty
  | .destroyed _ installed => dirtyAfterInstall dirty cleared installed
  | .coreRotation => dirty || (!node.shuttingDown && !node.isRotationExternallyDriven)
  | _ => dirty

variable {log : List RevokerCall} {node next : RevokerNode} {dirty later : Bool}

/-- A rebootstrap is armed or running. -/
def Rebootstraps (node : RevokerNode) : Prop :=
  node.rebootstrapTimer = true ∨ ∃ t ∈ node.tasks, t.timed = true

/-- What holds while this call goes on without an event in between: no request has come
since the files were replaced. -/
def Clean (node : RevokerNode) (dirty : Bool) : Task → Prop
  | .resuming _ _ => dirty = false ∧ node.bootstrapping = false
  | .bootstrap _ (.creating _) => dirty = false
  | .bootstrap _ (.finished true) => dirty = false ∧ ∀ inst, node.liveInstance = some inst → inst.engine.Idle
  | .bootstrap _ _ => True

/-- What holds of a node in every state of a run before its shutdown: each flag that drops
requests, and each reason for one, stands for a rebootstrap. -/
structure Owed (node : RevokerNode) (dirty : Bool) : Prop where
  alone : node.tasks.length ≤ 1
  pending : node.rebootstrapPending = true → node.Rebootstraps
  bootstrapping : node.bootstrapping = true → ∃ t ∈ node.tasks, t.active = true
  request : dirty = true ∨ node.firedEngine = true → node.Rebootstraps
  clean : ∀ t ∈ node.tasks, node.Clean dirty t
  blank : node.instances = [] → dirty = false

theorem Rebootstraps.same (h : node.Rebootstraps) (hTimer : next.rebootstrapTimer = node.rebootstrapTimer)
    (hTasks : next.tasks = node.tasks) : next.Rebootstraps := by
  rwa [Rebootstraps, hTimer, hTasks]

/-- A bootstrap that is active is the timer's, once an `init` has succeeded. -/
theorem timed_of_active {t : Task} (hActive : t.active = true) (hStarted : t.starting = false) :
    t.timed = true := by
  cases t with
  | resuming => cases hStarted
  | bootstrap caller phase =>
      cases caller with
      | timer => rfl
      | init =>
          cases phase with
          | finished => cases hActive
          | requesting | stopping | destroying | creating => cases hStarted

theorem scheduleRebootstrap_keeps (node : RevokerNode) :
    node.scheduleRebootstrap = { node with
      rebootstrapPending := node.scheduleRebootstrap.rebootstrapPending
      rebootstrapTimer := node.scheduleRebootstrap.rebootstrapTimer } := by
  unfold scheduleRebootstrap
  split_ifs <;> rfl

theorem onRebootstrapRequired_of_serving (hServing : node.shuttingDown = false) :
    node.onRebootstrapRequired = node.scheduleRebootstrap := by
  simp only [onRebootstrapRequired, hServing, Bool.false_eq_true, if_false]

theorem scheduleRebootstrap_idle (hServing : node.shuttingDown = false)
    (hPending : node.rebootstrapPending = false) (hBootstrapping : node.bootstrapping = false) :
    node.scheduleRebootstrap = { node with rebootstrapPending := true, rebootstrapTimer := true } := by
  simp only [scheduleRebootstrap, hServing, hPending, hBootstrapping, Bool.or_self, Bool.false_eq_true, if_false]

/-- A request is dropped only where a rebootstrap is armed or running. -/
theorem rebootstraps_scheduleRebootstrap (node : RevokerNode) (hServing : node.shuttingDown = false)
    (hPending : node.rebootstrapPending = true → node.Rebootstraps)
    (hBootstrapping : node.bootstrapping = true → ∃ t ∈ node.tasks, t.active = true)
    (hStarted : ∀ t ∈ node.tasks, t.starting = false) : node.scheduleRebootstrap.Rebootstraps := by
  unfold scheduleRebootstrap
  split_ifs with hBusy
  · simp only [hServing, Bool.false_or, Bool.or_eq_true] at hBusy
    rcases hBusy with hBusy | hBusy
    · exact hPending hBusy
    · obtain ⟨t, hMem, hActive⟩ := hBootstrapping hBusy
      exact Or.inr ⟨t, hMem, timed_of_active hActive (hStarted t hMem)⟩
  · exact Or.inl rfl

theorem Owed.scheduleRebootstrap (h : Owed node dirty) (hServing : node.shuttingDown = false)
    (hStarted : ∀ t ∈ node.tasks, t.starting = false) {instances : List Instance} (hSome : instances ≠ [])
    {catchingUp : Bool}
    (hClean : ∀ t ∈ node.tasks, { node with instances := instances, catchingUp := catchingUp }.Clean later t) :
    Owed { node with instances := instances, catchingUp := catchingUp }.scheduleRebootstrap later := by
  have hArmed := rebootstraps_scheduleRebootstrap
    { node with instances := instances, catchingUp := catchingUp } hServing
    (fun hPending => h.pending hPending) h.bootstrapping hStarted
  have hKeeps := scheduleRebootstrap_keeps { node with instances := instances, catchingUp := catchingUp }
  refine ⟨?_, fun _ => hArmed, ?_, fun _ => hArmed, ?_, ?_⟩
  · rw [hKeeps]
    exact h.alone
  · rw [hKeeps]
    exact h.bootstrapping
  · rw [hKeeps]
    exact hClean
  · rw [hKeeps]
    exact fun hNone => absurd hNone hSome

/-- The live instance after a step of one of them. -/
theorem liveInstance_set {i : Nat} {inst later : Instance} (hInst : node.instances[i]? = some inst)
    (catchingUp : Bool) :
    { node with instances := node.instances.set i later, catchingUp := catchingUp }.liveInstance =
      if node.engine = some i then some later else node.liveInstance := by
  have hBounds := (List.getElem?_eq_some_iff.mp hInst).1
  unfold liveInstance
  cases hEngine : node.engine with
  | none => simp
  | some e =>
      by_cases hSame : e = i
      · subst hSame
        simp [hBounds]
      · simp [hSame, List.getElem?_set_ne (Ne.symm hSame)]

theorem Clean.set {i : Nat} {inst later : Instance} {t : Task} (h : node.Clean dirty t)
    (hInst : node.instances[i]? = some inst)
    (hIdle : t.immediate = true → inst.engine.Idle → later.engine.Idle) (catchingUp : Bool) :
    { node with instances := node.instances.set i later, catchingUp := catchingUp }.Clean dirty t := by
  cases t with
  | resuming => exact h
  | bootstrap caller phase =>
      cases phase with
      | requesting | stopping | destroying | creating => exact h
      | finished ok =>
          cases ok with
          | false => exact h
          | true =>
              refine ⟨h.1, fun live hLive => ?_⟩
              rw [liveInstance_set hInst] at hLive
              split_ifs at hLive with hEngine
              · cases hLive
                exact hIdle rfl (h.2 inst (by rw [liveInstance, hEngine]; exact hInst))
              · exact h.2 live hLive

theorem Owed.instanceStep (h : Owed node dirty) (hGated : Gated node) (hServing : node.shuttingDown = false)
    {i : Nat} {a : Instance.Action} (hStep : node.instanceStep log i a = some next)
    (hLoop : Instance.ownEvent a = true → ∀ t ∈ node.tasks, t.immediate = false) : Owed next dirty := by
  unfold RevokerNode.instanceStep at hStep
  split at hStep
  · cases hStep
  · rename_i inst hInst
    obtain ⟨later, hLater, rfl⟩ := Option.map_eq_some_iff.mp hStep
    have hSome : node.instances.set i later ≠ [] := by
      intro hNone
      rw [List.set_eq_nil_iff] at hNone
      simp [hNone] at hInst
    have hIdle : ∀ t ∈ node.tasks, t.immediate = true → inst.engine.Idle → later.engine.Idle := by
      intro t hMem hImmediate hIdle
      refine Instance.idle_of_job hIdle hLater ?_
      by_contra hOwn
      rw [hLoop (by simpa using hOwn) t hMem] at hImmediate
      cases hImmediate
    have hClean : ∀ t ∈ node.tasks, ∀ catchingUp : Bool,
        { node with instances := node.instances.set i later, catchingUp := catchingUp }.Clean dirty t :=
      fun t hMem catchingUp => (h.clean t hMem).set hInst (hIdle t hMem) catchingUp
    generalize (if inst.receivesKeepalive a then false else node.catchingUp) = catchingUp
    dsimp only
    split_ifs with hFired
    · rw [onRebootstrapRequired_of_serving]
      · exact h.scheduleRebootstrap hServing (hGated.started hInst).1 hSome fun t hMem => hClean t hMem _
      · exact hServing
    · refine ⟨h.alone, h.pending, h.bootstrapping, fun hRequest => ?_, fun t hMem => hClean t hMem _,
        fun hNone => absurd hNone hSome⟩
      refine (h.request (hRequest.imp id fun hLive => ?_)).same rfl rfl
      rw [firedEngine, liveInstance_set hInst] at hLive
      split_ifs at hLive with hEngine
      · rw [firedEngine, liveInstance, hEngine, Option.bind_some, hInst]
        by_contra hOld
        simp only [Option.any_some] at hLive hOld
        simp [hLive, hOld] at hFired
      · exact hLive

theorem Owed.tasks_eq (h : Owed node dirty) {task : Nat} {t : Task} (hTask : node.tasks[task]? = some t) :
    node.tasks = [t] ∧ task = 0 := by
  have hAlone := h.alone
  cases hTasks : node.tasks with
  | nil => simp [hTasks] at hTask
  | cons first rest =>
      rw [hTasks, List.length_cons] at hAlone
      have hRest : rest = [] := List.length_eq_zero_iff.mp (by omega)
      subst hRest
      rw [hTasks, List.getElem?_singleton] at hTask
      split_ifs at hTask with hZero
      cases hTask
      exact ⟨rfl, hZero⟩

/-- A call goes on to its next await, or ends. -/
theorem Owed.advance (h : Owed node dirty) {task : Nat} {old new : Task} (hTask : node.tasks[task]? = some old)
    (hTimed : new.timed = old.timed) (hTasks : next.tasks = node.tasks.set task new)
    (hTimer : next.rebootstrapTimer = node.rebootstrapTimer)
    (hPending : next.rebootstrapPending = node.rebootstrapPending)
    (hBootstrapping : next.bootstrapping = true → new.active = true)
    (hDirty : later = true → dirty = true) (hFired : next.firedEngine = true → node.firedEngine = true)
    (hClean : next.Clean later new) (hInstances : next.instances = [] → node.instances = []) :
    Owed next later := by
  obtain ⟨hOnly, rfl⟩ := h.tasks_eq hTask
  rw [hOnly, List.set_cons_zero] at hTasks
  have hRuns : node.Rebootstraps → next.Rebootstraps := by
    rintro (hArmed | ⟨t, hMem, hRuns⟩)
    · exact Or.inl (hTimer.trans hArmed)
    · rw [hOnly, List.mem_singleton] at hMem
      refine Or.inr ⟨new, by simp [hTasks], ?_⟩
      rw [hTimed, ← hMem, hRuns]
  refine ⟨?_, ?_, ?_, ?_, ?_, ?_⟩
  · simp [hTasks]
  · rw [hPending]
    exact fun hFlag => hRuns (h.pending hFlag)
  · exact fun hFlag => ⟨new, by simp [hTasks], hBootstrapping hFlag⟩
  · exact fun hRequest => hRuns (h.request (hRequest.imp hDirty hFired))
  · intro t hMem
    rw [hTasks, List.mem_singleton] at hMem
    rw [hMem]
    exact hClean
  · intro hNone
    by_contra hFlag
    have hOld := h.blank (hInstances hNone)
    rw [hDirty (by simpa using hFlag)] at hOld
    cases hOld

theorem Owed.finish (h : Owed node dirty) {task : Nat} {caller : Caller} {phase : BootstrapPhase}
    (hTask : node.tasks[task]? = some (.bootstrap caller phase)) (hDirty : later = true → dirty = true) :
    Owed (node.finish task caller false) later :=
  h.advance hTask (Task.timed_eq caller phase _) rfl rfl rfl (fun hFlag => by cases hFlag) hDirty id trivial id

/-- The engine is let go. -/
theorem Owed.drop (h : Owed node dirty) (catchingUp : Bool) :
    Owed { node with engine := none, catchingUp := catchingUp } dirty where
  alone := h.alone
  pending := h.pending
  bootstrapping := h.bootstrapping
  request := by
    rintro (hDirty | hFired)
    · exact h.request (Or.inl hDirty)
    · cases hFired
  clean := by
    intro t hMem
    have hClean := h.clean t hMem
    cases t with
    | resuming => exact hClean
    | bootstrap caller phase =>
        cases phase with
        | requesting | stopping | destroying | creating => exact hClean
        | finished ok =>
            cases ok with
            | false => exact hClean
            | true => exact ⟨hClean.1, fun inst hLive => by cases hLive⟩
  blank := h.blank

theorem Owed.install (h : Owed node dirty) (hEngine : node.engine = none) {task : Nat} {caller : Caller}
    {phase : BootstrapPhase} (hTask : node.tasks[task]? = some (.bootstrap caller phase))
    (snapshot : SnapshotHeader) (installed : Except String Unit) (cleared : Bool) :
    Owed (node.install task caller snapshot installed) (dirtyAfterInstall dirty cleared installed) := by
  cases installed with
  | ok =>
      refine h.advance hTask (Task.timed_eq caller phase _) rfl rfl rfl (fun _ => rfl)
        (fun hFlag => by cases hFlag) (fun hFired => ?_) rfl id
      simp [RevokerNode.install, setTask, firedEngine, liveInstance, hEngine] at hFired
  | error message => exact h.finish hTask fun hFlag => (Bool.and_eq_true_iff.mp hFlag).1

theorem Owed.teardown (h : Owed node dirty) (hEngine : node.engine = none) {task : Nat} {caller : Caller}
    {phase : BootstrapPhase} (hTask : node.tasks[task]? = some (.bootstrap caller phase))
    (snapshot : SnapshotHeader) (installed : Except String Unit) (cleared : Bool) :
    Owed (node.teardown task caller snapshot installed)
      (if node.revoker.isNone then dirtyAfterInstall dirty cleared installed else dirty) := by
  cases hRevoker : node.revoker with
  | none =>
      simp only [RevokerNode.teardown, hRevoker, Option.isNone_none, if_true]
      exact h.install hEngine hTask snapshot installed cleared
  | some old =>
      simp only [RevokerNode.teardown, hRevoker, Option.isNone_some, Bool.false_eq_true, if_false]
      rw [close_keeps]
      refine h.advance hTask (Task.timed_eq caller phase _) rfl rfl rfl (fun _ => rfl) id
        (fun hFired => ?_) trivial fun hNone => ?_
      · simp [setTask, firedEngine, liveInstance, hEngine] at hFired
      · by_contra hSome
        obtain ⟨inst, hInst⟩ := List.exists_mem_of_ne_nil _ hSome
        simp only [setTask, RevokerNode.close] at hNone
        split at hNone
        · rw [List.set_eq_nil_iff] at hNone
          exact hSome hNone
        · exact hSome hNone

/-- `init` begins. -/
theorem Owed.begin (h : Owed node dirty) (hGated : Gated node) (hFresh : node.initialized = false)
    {t : Task} (hTasks : next.tasks = node.tasks ++ [t])
    (hTimer : next.rebootstrapTimer = node.rebootstrapTimer)
    (hPending : next.rebootstrapPending = node.rebootstrapPending)
    (hBootstrapping : next.bootstrapping = true → t.active = true) (hEngine : next.engine = node.engine)
    (hInstances : next.instances = node.instances) (hDirty : later = true → dirty = true)
    (hClean : next.Clean later t) : Owed next later := by
  obtain ⟨hNone, hNoInstance, -⟩ := hGated.fresh hFresh
  rw [hNone, List.nil_append] at hTasks
  have hLater : later = false := by
    by_contra hFlag
    have hOld := h.blank hNoInstance
    rw [hDirty (by simpa using hFlag)] at hOld
    cases hOld
  refine ⟨?_, ?_, ?_, ?_, ?_, fun _ => hLater⟩
  · simp [hTasks]
  · intro hFlag
    rcases h.pending (hPending ▸ hFlag) with hArmed | ⟨u, hMem, -⟩
    · exact Or.inl (hTimer.trans hArmed)
    · rw [hNone] at hMem
      cases hMem
  · exact fun hFlag => ⟨t, by simp [hTasks], hBootstrapping hFlag⟩
  · rintro (hFlag | hFired)
    · rw [hLater] at hFlag
      cases hFlag
    · simp [firedEngine, liveInstance, hEngine, hInstances, hNoInstance] at hFired
  · intro u hMem
    rw [hTasks, List.mem_singleton] at hMem
    rw [hMem]
    exact hClean

/-- Nothing runs any more. -/
theorem Owed.clear (hTasks : next.tasks = [])
    (hPending : next.rebootstrapPending = true → next.rebootstrapTimer = true)
    (hBootstrapping : next.bootstrapping = false)
    (hRequest : later = true ∨ next.firedEngine = true → next.rebootstrapTimer = true)
    (hBlank : next.instances = [] → later = false) : Owed next later where
  alone := by simp [hTasks]
  pending := fun hFlag => Or.inl (hPending hFlag)
  bootstrapping := by simp [hBootstrapping]
  request := fun hFlag => Or.inl (hRequest hFlag)
  clean := by simp [hTasks]
  blank := hBlank

theorem liveInstance_startEngine (node : RevokerNode) (bootstrapped : Bool) (lastLsn : Nat) (generation : Int) :
    (node.startEngine bootstrapped lastLsn generation).liveInstance =
      some (Instance.create bootstrapped lastLsn generation) := by
  simp [startEngine, liveInstance]

theorem Owed.resumed (h : Owed node dirty) (hGated : Gated node) {task lastLsn : Nat} {generation : Int}
    (hTask : node.tasks[task]? = some (.resuming lastLsn generation)) (created : Bool) :
    Owed (if created then
      ({ node with tasks := node.tasks.eraseIdx task } : RevokerNode).startEngine false lastLsn generation
      else { node with tasks := node.tasks.eraseIdx task, initialized := false }) dirty := by
  obtain ⟨hNone, hNoInstance, hNoTimer, -⟩ := hGated.alone hTask rfl
  obtain ⟨hDirty, hBootstrapping⟩ := h.clean _ (List.mem_of_getElem? hTask)
  have hNotPending : ¬ node.rebootstrapPending = true := by
    intro hFlag
    rcases h.pending hFlag with hArmed | ⟨u, hMem, hTimed⟩
    · rw [hNoTimer] at hArmed
      cases hArmed
    · rw [(h.tasks_eq hTask).1, List.mem_singleton] at hMem
      subst hMem
      cases hTimed
  cases created with
  | true =>
      refine Owed.clear hNone (fun hFlag => absurd hFlag hNotPending) hBootstrapping ?_ fun _ => hDirty
      rintro (hFlag | hFired)
      · rw [hDirty] at hFlag
        cases hFlag
      · rw [if_pos rfl, firedEngine, liveInstance_startEngine] at hFired
        cases hFired
  | false =>
      refine Owed.clear hNone (fun hFlag => absurd hFlag hNotPending) hBootstrapping ?_ fun _ => hDirty
      rintro (hFlag | hFired)
      · rw [hDirty] at hFlag
        cases hFlag
      · simp [firedEngine, liveInstance, hNoInstance] at hFired

theorem stop_fired {engine later : SyncEngineProcess} (hStep : engine.step safeIntegerOf .stop = some later) :
    later.rebootstrapFired = engine.rebootstrapFired := by
  simp only [SyncEngineProcess.step] at hStep
  split_ifs at hStep <;> cases hStep <;> rfl

/-- The engine that is stopped has called what it had called. -/
theorem firedEngine_stopEngine (node : RevokerNode) (index : Nat) :
    (node.stopEngine index).firedEngine = node.firedEngine := by
  cases hInst : node.instances[index]? with
  | none => rw [stopEngine_absent hInst]
  | some inst =>
      obtain ⟨engine, hStep, -, hEq⟩ := stopEngine_eq hInst
      rw [stopEngine_keeps, hEq, firedEngine, liveInstance_set hInst]
      split_ifs with hEngine
      · rw [firedEngine, liveInstance, hEngine, Option.bind_some, hInst]
        exact stop_fired hStep
      · rfl

theorem stopEngine_nil (node : RevokerNode) (index : Nat) (h : (node.stopEngine index).instances = []) :
    node.instances = [] := by
  cases hInst : node.instances[index]? with
  | none => rwa [stopEngine_absent hInst] at h
  | some inst =>
      obtain ⟨engine, -, -, hEq⟩ := stopEngine_eq hInst
      rwa [hEq, List.set_eq_nil_iff] at h

theorem Owed.stopping (h : Owed node dirty) {task engine : Nat} {caller : Caller}
    (hTask : node.tasks[task]? = some (.bootstrap caller .requesting)) (snapshot : SnapshotHeader) :
    Owed ((({ node with catchingUp := true } : RevokerNode).stopEngine engine).setTask task
      (.bootstrap caller (.stopping snapshot))) dirty := by
  have hKeeps := stopEngine_keeps { node with catchingUp := true } engine
  have hFired := firedEngine_stopEngine { node with catchingUp := true } engine
  refine h.advance hTask (Task.timed_eq caller .requesting (.stopping snapshot)) ?_ ?_ ?_ (fun _ => rfl) id
    (fun hLater => ?_) trivial (stopEngine_nil { node with catchingUp := true } engine)
  · rw [hKeeps]
    rfl
  · rw [hKeeps]
    rfl
  · rw [hKeeps]
    rfl
  · exact hFired.symm.trans hLater

/-- The new revoker is published, and its engine has been given nothing yet. -/
theorem Owed.created (h : Owed node dirty) {task : Nat} {caller : Caller} {snapshot : SnapshotHeader}
    (hTask : node.tasks[task]? = some (.bootstrap caller (.creating snapshot))) (lastLsn : Nat)
    (generation : Int) : Owed ((node.startEngine true lastLsn generation).finish task caller true) dirty := by
  have hDirty : dirty = false := h.clean _ (List.mem_of_getElem? hTask)
  have hLive : ((node.startEngine true lastLsn generation).finish task caller true).liveInstance =
      some (Instance.create true lastLsn generation) := liveInstance_startEngine node true lastLsn generation
  refine h.advance hTask (Task.timed_eq caller _ _) rfl rfl rfl (fun hFlag => by cases hFlag) id ?_ ?_ ?_
  · intro hFired
    rw [firedEngine, hLive] at hFired
    cases hFired
  · refine ⟨hDirty, fun inst hInst => ?_⟩
    rw [hLive] at hInst
    cases hInst
    exact SyncEngineProcess.idle_init lastLsn generation
  · intro hNone
    simp [RevokerNode.finish, setTask, startEngine] at hNone

/-- The caller of a bootstrap that has ended is the only call left. -/
theorem Owed.finished (h : Owed node dirty) {task : Nat} {caller : Caller} {ok : Bool}
    (hTask : node.tasks[task]? = some (.bootstrap caller (.finished ok))) :
    node.tasks.eraseIdx task = [] ∧ node.bootstrapping = false := by
  obtain ⟨hOnly, rfl⟩ := h.tasks_eq hTask
  refine ⟨by simp [hOnly], ?_⟩
  by_contra hFlag
  obtain ⟨t, hMem, hActive⟩ := h.bootstrapping (by simpa using hFlag)
  rw [hOnly, List.mem_singleton] at hMem
  subst hMem
  cases hActive

/-- Nothing has been requested since the files were replaced. -/
theorem Owed.served (h : Owed node dirty) {task : Nat} {caller : Caller}
    (hTask : node.tasks[task]? = some (.bootstrap caller (.finished true))) :
    ¬ (dirty = true ∨ node.firedEngine = true) := by
  obtain ⟨hDirty, hIdle⟩ := h.clean _ (List.mem_of_getElem? hTask)
  rintro (hFlag | hFired)
  · rw [hDirty] at hFlag
    cases hFlag
  · cases hLive : node.liveInstance with
    | none => simp [firedEngine, hLive] at hFired
    | some inst =>
        rw [firedEngine, hLive, Option.any_some, (hIdle inst hLive).fired] at hFired
        cases hFired

/-- A flag that is still set is that of an armed timer, when `init` comes back. -/
theorem Owed.armed (h : Owed node dirty) {task : Nat} {ok : Bool}
    (hTask : node.tasks[task]? = some (.bootstrap .init (.finished ok)))
    (hPending : node.rebootstrapPending = true) : node.rebootstrapTimer = true := by
  rcases h.pending hPending with hArmed | ⟨t, hMem, hTimed⟩
  · exact hArmed
  · rw [(h.tasks_eq hTask).1, List.mem_singleton] at hMem
    subst hMem
    cases hTimed

theorem Owed.returned (h : Owed node dirty) (hGated : Gated node) (hServing : node.shuttingDown = false)
    {task : Nat} (hStep : node.step log (.returned task) = some next) : Owed next dirty := by
  simp only [step] at hStep
  split at hStep
  · rename_i caller ok hTask
    obtain ⟨hNone, hBootstrapping⟩ := h.finished hTask
    cases caller with
    | init =>
        cases ok with
        | true =>
            cases hStep
            exact Owed.clear hNone (h.armed hTask) hBootstrapping
              (fun hRequest => absurd hRequest (h.served hTask)) h.blank
        | false =>
            cases hStep
            have hNoInstance := (hGated.alone hTask rfl).2.1
            refine Owed.clear hNone (h.armed hTask) hBootstrapping ?_ h.blank
            rintro (hFlag | hFired)
            · rw [h.blank hNoInstance] at hFlag
              cases hFlag
            · simp [firedEngine, liveInstance, hNoInstance] at hFired
    | timer =>
        cases ok with
        | true =>
            cases hStep
            exact Owed.clear hNone (fun hFlag => by cases hFlag) hBootstrapping
              (fun hRequest => absurd hRequest (h.served hTask)) h.blank
        | false =>
            cases hStep
            rw [scheduleRebootstrap_idle]
            · exact Owed.clear hNone (fun _ => rfl) hBootstrapping (fun _ => rfl) h.blank
            · exact hServing
            · rfl
            · exact hBootstrapping
  · cases hStep

/-- The timer fires when every call has returned. -/
theorem Owed.timer (h : Owed node dirty) (hGated : Gated node) (hArmed : node.rebootstrapTimer = true)
    (hLoop : ∀ t ∈ node.tasks, t.immediate = false) :
    Owed { node with
      rebootstrapTimer := false
      bootstrapping := true
      tasks := node.tasks ++ [.bootstrap .timer .requesting] } dirty := by
  have hNone : node.tasks = [] := by
    by_contra hSome
    obtain ⟨t, hMem⟩ := List.exists_mem_of_ne_nil _ hSome
    have hInactive := (hGated.toBooked.timer hArmed).2 t hMem
    have hWaits := hLoop t hMem
    cases t with
    | resuming => cases hInactive
    | bootstrap caller phase =>
        cases phase with
        | requesting | stopping | destroying | creating => cases hInactive
        | finished => cases hWaits
  have hRuns : ∃ t ∈ node.tasks ++ [.bootstrap .timer .requesting], t.timed = true :=
    ⟨.bootstrap .timer .requesting, by simp, rfl⟩
  refine ⟨by simp [hNone], fun _ => Or.inr hRuns, fun _ => ?_, fun _ => Or.inr hRuns, ?_, h.blank⟩
  · exact ⟨.bootstrap .timer .requesting, by simp, rfl⟩
  · intro t hMem
    rw [hNone, List.nil_append, List.mem_singleton] at hMem
    rw [hMem]
    trivial

theorem Owed.coreRotation (h : Owed node dirty) (hGated : Gated node) (hServing : node.shuttingDown = false)
    (hSome : node.instances ≠ []) (hLoop : ∀ t ∈ node.tasks, t.immediate = false) :
    Owed node.onCoreRotation (dirty || (!node.shuttingDown && !node.isRotationExternallyDriven)) := by
  simp only [onCoreRotation, hServing, Bool.false_eq_true, if_false, Bool.not_false, Bool.true_and]
  split_ifs with hDriven
  · simp only [hDriven, Bool.not_true, Bool.or_false]
    exact h
  · obtain ⟨inst, hMem⟩ := List.exists_mem_of_ne_nil _ hSome
    obtain ⟨i, hInst⟩ := List.mem_iff_getElem?.mp hMem
    refine h.scheduleRebootstrap hServing (hGated.started hInst).1 hSome fun t hMem => ?_
    have hWaits := hLoop t hMem
    cases t with
    | resuming => cases hWaits
    | bootstrap caller phase =>
        cases phase with
        | requesting | stopping => trivial
        | destroying | creating | finished => cases hWaits

/-- Every step of the event loop keeps it. -/
theorem Owed.step (h : Owed node dirty) (hGated : Gated node) (hServing : node.shuttingDown = false)
    {a : Action} (hStep : node.step log a = some next) (hNext : next.shuttingDown = false) (cleared : Bool)
    (hLoop : ownEvent a = true → ∀ t ∈ node.tasks, t.immediate = false) :
    Owed next (node.dirtyAfter dirty cleared a) := by
  cases a with
  | init resume =>
      simp only [RevokerNode.step] at hStep
      split_ifs at hStep with hFresh
      have hFresh : node.initialized = false := by simpa using hFresh
      cases resume with
      | none =>
          cases hStep
          exact h.begin hGated hFresh rfl rfl rfl (fun _ => rfl) rfl rfl id trivial
      | some state =>
          cases hStep
          refine h.begin hGated hFresh rfl rfl rfl (fun _ => rfl) rfl rfl (fun hFlag => ?_) ⟨rfl, ?_⟩
          · cases hFlag
          · by_contra hFlag
            obtain ⟨t, hMem, -⟩ := h.bootstrapping (by simpa using hFlag)
            rw [(hGated.fresh hFresh).1] at hMem
            cases hMem
  | resumed task created =>
      simp only [RevokerNode.step] at hStep
      split at hStep
      · rename_i lastLsn generation hTask
        have hResumed := h.resumed hGated hTask created
        split_ifs at hStep hResumed <;> cases hStep <;> exact hResumed
      · cases hStep
  | snapshot task snapshot installed =>
      simp only [RevokerNode.step] at hStep
      split at hStep
      · rename_i caller hTask
        cases snapshot with
        | error message =>
            cases hStep
            exact h.finish hTask id
        | ok snapshot =>
            cases hEngine : node.engine with
            | some engine =>
                simp only [hEngine] at hStep
                cases hStep
                simp only [dirtyAfter, hEngine, Option.isNone_some, Bool.false_and, Bool.false_eq_true, if_false]
                rw [← hEngine]
                exact h.stopping hTask snapshot
            | none =>
                simp only [hEngine] at hStep
                cases hStep
                simp only [dirtyAfter, hEngine, Option.isNone_none, Bool.true_and]
                exact (h.drop true).teardown rfl hTask snapshot installed cleared
      · cases hStep
  | engineStopped task installed =>
      simp only [RevokerNode.step] at hStep
      split at hStep
      · rename_i caller snapshot hTask
        cases hStep
        exact (h.drop node.catchingUp).teardown rfl hTask snapshot installed cleared
      · cases hStep
  | destroyed task installed =>
      simp only [RevokerNode.step] at hStep
      split at hStep
      · rename_i caller snapshot hTask
        cases hStep
        obtain ⟨hEngine, -, -, -⟩ := hGated.stage _ (List.mem_of_getElem? hTask) rfl
        exact h.install hEngine hTask snapshot installed cleared
      · cases hStep
  | created task created =>
      simp only [RevokerNode.step] at hStep
      split at hStep
      · rename_i caller snapshot hTask
        split_ifs at hStep <;> cases hStep
        · exact h.created hTask _ _
        · exact h.finish hTask id
      · cases hStep
  | returned task => exact h.returned hGated hServing hStep
  | timer =>
      simp only [RevokerNode.step] at hStep
      split_ifs at hStep with hArmed hDown <;> cases hStep
      · rw [hServing] at hDown
        cases hDown
      · exact h.timer hGated hArmed (hLoop rfl)
  | coreRotation =>
      simp only [RevokerNode.step] at hStep
      split_ifs at hStep with hEmpty
      cases hStep
      exact h.coreRotation hGated hServing (by simpa using hEmpty) (hLoop rfl)
  | inst index a => exact h.instanceStep hGated hServing hStep hLoop
  | shutdown | shutdownEngineStopped | destroy | destroyReturned =>
      rcases shuttingDown_of_owner hStep (by simp) with hDown | rfl
      · rw [hDown] at hNext
        cases hNext
      · exact h

theorem owed_init : Owed {} false where
  alone := by simp
  pending := fun hFlag => by cases hFlag
  bootstrapping := fun hFlag => by cases hFlag
  request := by
    rintro (hFlag | hFired)
    · cases hFlag
    · cases hFired
  clean := by simp
  blank := fun _ => rfl

/-- Never two at once. -/
theorem Owed.rebootstraps_le (h : Owed node dirty) (hGated : Gated node) : node.rebootstraps ≤ 1 := by
  have hAlone := h.alone
  unfold rebootstraps
  split_ifs with hArmed
  · rw [List.countP_eq_zero.mpr fun t hMem hTimed => ?_]
    rw [(hGated.timed t hMem hTimed).2] at hArmed
    cases hArmed
  · have hCount := List.countP_le_length (p := Task.timed) (l := node.tasks)
    omega

theorem Rebootstraps.pos (h : node.Rebootstraps) : 1 ≤ node.rebootstraps := by
  unfold rebootstraps
  rcases h with hArmed | ⟨t, hMem, hTimed⟩
  · rw [hArmed, if_pos rfl]
    omega
  · have hCount := List.countP_pos_iff.mpr ⟨t, hMem, hTimed⟩
    omega

end RevokerNode

/-- A node with its `#dirty`. The mark in the state file is that of `SelfRotation`; this is the
flag in memory. -/
structure DirtyNode where
  followed : FollowedLog := {}
  dirty : Bool := false
  deriving DecidableEq

namespace DirtyNode

open RevokerNode

inductive Action where
  | publish (call : RevokerCall)
  /-- `cleared`: an error of the installation comes after `#dirty` was cleared. -/
  | node (a : RevokerNode.Action) (cleared : Bool)
  deriving DecidableEq

def step (s : DirtyNode) : Action → Option DirtyNode
  | .publish call => (s.followed.step (.publish call)).map fun followed => { s with followed := followed }
  | .node a cleared =>
      (s.followed.step (.node a)).map fun followed =>
        { followed := followed, dirty := s.followed.node.dirtyAfter s.dirty cleared a }

/-- The event loop takes up an event when no promise job is left. Without it a timer could fire
between a promise and its continuation. -/
def EventLoop (s : DirtyNode) : Action → Prop
  | .publish _ => True
  | .node a _ => ownEvent a = true → ∀ t ∈ s.followed.node.tasks, t.immediate = false

instance (s : DirtyNode) (a : Action) : Decidable (s.EventLoop a) :=
  match a with
  | .publish _ => inferInstanceAs (Decidable True)
  | .node a _ =>
      inferInstanceAs (Decidable (ownEvent a = true → ∀ t ∈ s.followed.node.tasks, t.immediate = false))

/-- A node before its first `init`, and what its coordinator has logged. -/
def start (log : List RevokerCall) : DirtyNode where
  followed := { log := log }

/-- What holds in every state of a run. Each request is matched with what will serve it. -/
structure Answers (s : DirtyNode) : Prop where
  serves : s.followed.Serves
  owed : s.followed.node.shuttingDown = false → Owed s.followed.node s.dirty

theorem step_answers {s t : DirtyNode} {a : Action} (h : s.Answers) (hStep : s.step a = some t)
    (hLoop : s.EventLoop a) : t.Answers := by
  cases a with
  | publish call =>
      simp only [step] at hStep
      obtain ⟨followed, hFollowed, rfl⟩ := Option.map_eq_some_iff.mp hStep
      have hServes := FollowedLog.step_serves h.serves hFollowed
      cases hFollowed
      exact ⟨hServes, h.owed⟩
  | node a cleared =>
      simp only [step] at hStep
      obtain ⟨followed, hFollowed, rfl⟩ := Option.map_eq_some_iff.mp hStep
      have hServes := FollowedLog.step_serves h.serves hFollowed
      obtain ⟨next, hNext, rfl⟩ := Option.map_eq_some_iff.mp hFollowed
      refine ⟨hServes, fun hLater => ?_⟩
      have hServing : s.followed.node.shuttingDown = false := by
        by_contra hDown
        rw [(step_extends hNext).shuttingDown (by simpa using hDown)] at hLater
        cases hLater
      exact (h.owed hServing).step (h.serves.gated hServing) hServing hNext hLater cleared hLoop

theorem run_answers {log : List RevokerCall} {s : DirtyNode}
    (reach : Reachable (restrict (ofStep step) EventLoop) (start log) s) : s.Answers :=
  reach.invariant (fun _ _ _ h hStep => step_answers h hStep.1 hStep.2)
    ⟨⟨by simp [start], fun _ => gated_init⟩, fun _ => owed_init⟩

/-- While the node is dirty or its live engine has asked for one, a rebootstrap is armed or
running, until the node shuts down; and there are never two. Whether it succeeds is up to the
coordinator: one that fails arms the next. -/
theorem rebootstraps_of_requested (log : List RevokerCall) {s : DirtyNode}
    (reach : Reachable (restrict (ofStep step) EventLoop) (start log) s)
    (hServing : s.followed.node.shuttingDown = false) :
    (s.dirty = true ∨ s.followed.node.firedEngine = true → s.followed.node.rebootstraps = 1) ∧
      s.followed.node.rebootstraps ≤ 1 := by
  have hAnswers := run_answers reach
  have hOwed := hAnswers.owed hServing
  have hOne := hOwed.rebootstraps_le (hAnswers.serves.gated hServing)
  exact ⟨fun hRequest => Nat.le_antisymm hOne (hOwed.request hRequest).pos, hOne⟩

/-- A node that has joined rotates by itself while its coordinator is away; the stream asks
for a snapshot while the rebootstrap runs, which fails for its geometry. -/
def rotatesAlone : List Action :=
  FollowedLog.joining.map (fun a =>
    match a with
    | .publish call => .publish call
    | .node a => .node a false) ++
  [.node .coreRotation false, .node .timer false, .node (.inst 0 (.resnapshot 0)) false,
    .node (.inst 0 (.internal (.apply (.ok ()) (.ok ())))) false,
    .node (.snapshot 0 (.error "Snapshot geometry mismatch") (.ok ())) false, .node (.returned 0) false]

theorem rebootstraps_of_requested_rotatesAlone :
    ∃ s : DirtyNode, exec (guarded (fun s a => decide (s.EventLoop a)) step) (start [.applyEntry [97]])
        rotatesAlone = some s ∧
      s.followed.node.shuttingDown = false ∧ s.dirty = true ∧ s.followed.node.firedEngine = true ∧
        s.followed.node.rebootstraps = 1 := by
  have hRun : ∃ s : DirtyNode, exec (guarded (fun s a => decide (s.EventLoop a)) step)
      (start [.applyEntry [97]]) rotatesAlone = some s ∧
        s.followed.node.shuttingDown = false ∧ s.dirty = true ∧ s.followed.node.firedEngine = true :=
    ⟨_, by rfl, by rfl, by rfl, by rfl⟩
  obtain ⟨s, hExec, hServing, hDirty, hFired⟩ := hRun
  have hReach : Reachable (restrict (ofStep step) EventLoop) (start [.applyEntry [97]]) s :=
    ⟨_, (run_of_exec hExec).of_guarded fun _ _ h => of_decide_eq_true h⟩
  exact ⟨s, hExec, hServing, hDirty, hFired,
    (rebootstraps_of_requested _ hReach hServing).1 (Or.inl hDirty)⟩

end DirtyNode

end TokenRevoker
