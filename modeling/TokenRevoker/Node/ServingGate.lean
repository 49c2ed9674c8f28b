import TokenRevoker.Library.Transition
import TokenRevoker.Node.Backlog

/-! The serving gate of a node. A revoker is published behind a closed gate, which only
its own engine can open, and it is let go before it is destroyed: an engine is stopped
in the turn in which the gate closes, and one bootstrap runs at a time. -/
namespace TokenRevoker

open Instance

/-- It has not returned or thrown yet. -/
def Task.active : Task → Bool
  | .resuming _ _ => true
  | .bootstrap _ (.finished _) => false
  | .bootstrap _ _ => true

/-- It belongs to a call of `init` that may still throw. -/
def Task.starting : Task → Bool
  | .resuming _ _ => true
  | .bootstrap .init (.finished ok) => !ok
  | .bootstrap .init _ => true
  | .bootstrap .timer _ => false

/-- It was called by the timer. -/
def Task.timed : Task → Bool
  | .resuming _ _ | .bootstrap .init _ => false
  | .bootstrap .timer _ => true

theorem Task.timed_eq (caller : Caller) (phase later : BootstrapPhase) :
    (Task.bootstrap caller later).timed = (Task.bootstrap caller phase).timed := by
  cases caller <;> rfl

theorem Task.starting_of_later {caller : Caller} {phase later : BootstrapPhase}
    (hActive : (Task.bootstrap caller phase).active = true)
    (hStarting : (Task.bootstrap caller later).starting = true) :
    (Task.bootstrap caller phase).starting = true := by
  cases caller with
  | init => cases phase <;> first | rfl | cases hActive
  | timer => cases hStarting

namespace RevokerNode

variable {log : List RevokerCall} {node next : RevokerNode}

/-- Who runs, and who may run next. At most one call is active, at most one was made by the
timer, and none is active while the timer is set. -/
structure Booked (node : RevokerNode) : Prop where
  one : ∀ (i j : Nat) (t u : Task), node.tasks[i]? = some t → node.tasks[j]? = some u →
    (t.active = true ∧ u.active = true) ∨ (t.timed = true ∧ u.timed = true) → i = j
  timed : ∀ t ∈ node.tasks, t.timed = true →
    node.rebootstrapPending = true ∧ node.rebootstrapTimer = false
  timer : node.rebootstrapTimer = true →
    node.rebootstrapPending = true ∧ ∀ t ∈ node.tasks, t.active = false
  starting : ∀ t ∈ node.tasks, t.starting = true →
    node.tasks = [t] ∧ node.instances = [] ∧ node.rebootstrapTimer = false
  fresh : node.initialized = false →
    node.tasks = [] ∧ node.instances = [] ∧ node.rebootstrapTimer = false

/-- What holds of the node while this call is suspended. From the closing of the gate to the new
revoker there is nothing to consult, or nothing that runs behind it. -/
def Stage (node : RevokerNode) : Task → Prop
  | .resuming _ _ => node.engine = none ∧ node.revoker = none
  | .bootstrap _ .requesting => node.engine = node.revoker ∧ node.bootstrapping = true
  | .bootstrap _ (.stopping _) =>
      node.engine = node.revoker ∧ node.bootstrapping = true ∧ node.catchingUp = true ∧
        ∀ inst ∈ node.instances, inst.engine.stopped = true
  | .bootstrap _ (.destroying _) | .bootstrap _ (.creating _) =>
      node.engine = none ∧ node.revoker = none ∧ node.bootstrapping = true ∧ node.catchingUp = true
  | .bootstrap _ (.finished _) => True

/-- What holds of a node in every state of a run before its shutdown. An open gate belongs to a
revoker that is not closed, and that has caught up if it was bootstrapped. -/
structure Gated (node : RevokerNode) : Prop extends Booked node where
  live : ∀ i : Nat, node.revoker = some i → ∃ inst : Instance, node.instances[i]? = some inst ∧ inst.closed = false
  /-- Only the engine that the node refers to runs. -/
  stopped : ∀ (i : Nat) (inst : Instance), node.instances[i]? = some inst → node.engine ≠ some i →
    inst.engine.stopped = true
  gate : node.catchingUp = false → ∀ (i : Nat) (inst : Instance), node.revoker = some i →
    node.instances[i]? = some inst → inst.bootstrapped = true → inst.Ready
  stage : ∀ t ∈ node.tasks, t.active = true → node.Stage t
  idle : (∀ t ∈ node.tasks, t.active = false) → node.engine = node.revoker

/-- A call goes on: the other calls stay as they are. -/
theorem Booked.set (h : Booked node) {task : Nat} {old new : Task} (hTask : node.tasks[task]? = some old)
    (hActive : old.active = true) (hTimed : new.timed = old.timed)
    (hStarting : new.starting = true → old.starting = true ∧ next.instances = [])
    (hTasks : next.tasks = node.tasks.set task new)
    (hTimer : next.rebootstrapTimer = node.rebootstrapTimer)
    (hPending : next.rebootstrapPending = node.rebootstrapPending)
    (hInitialized : next.initialized = node.initialized) : Booked next := by
  have hMem := List.mem_of_getElem? hTask
  have hNoTimer : node.rebootstrapTimer = false := by
    by_contra hTimer'
    rw [(h.timer (by simpa using hTimer')).2 old hMem] at hActive
    cases hActive
  have hGet : ∀ i t, next.tasks[i]? = some t →
      (i = task ∧ t = new) ∨ (i ≠ task ∧ node.tasks[i]? = some t) := by
    intro i t hGet
    rw [hTasks, List.getElem?_set] at hGet
    split_ifs at hGet with hEq hLt
    · cases hGet
      exact Or.inl ⟨hEq.symm, rfl⟩
    · exact Or.inr ⟨fun hEq' => hEq hEq'.symm, hGet⟩
  refine ⟨?_, ?_, ?_, ?_, ?_⟩
  · intro i j t u hi hj hBoth
    rcases hGet i t hi with ⟨rfl, rfl⟩ | ⟨hNe, hi⟩ <;> rcases hGet j u hj with ⟨rfl, rfl⟩ | ⟨hNe', hj⟩
    · rfl
    · refine h.one _ _ _ _ hTask hj (hBoth.imp (fun hBoth => ⟨hActive, hBoth.2⟩) fun hBoth => ?_)
      exact ⟨hTimed ▸ hBoth.1, hBoth.2⟩
    · refine h.one _ _ _ _ hi hTask (hBoth.imp (fun hBoth => ⟨hBoth.1, hActive⟩) fun hBoth => ?_)
      exact ⟨hBoth.1, hTimed ▸ hBoth.2⟩
    · exact h.one _ _ _ _ hi hj hBoth
  · intro t ht hTimed'
    rw [hPending, hTimer]
    rw [hTasks] at ht
    rcases List.mem_or_eq_of_mem_set ht with ht | rfl
    · exact h.timed t ht hTimed'
    · exact h.timed old hMem (hTimed ▸ hTimed')
  · rw [hTimer, hNoTimer]
    exact fun hTimer' => absurd hTimer' (by simp)
  · intro t ht hStarting'
    have hOld : old.starting = true ∧ next.instances = [] ∧ t = new := by
      rw [hTasks] at ht
      rcases List.mem_or_eq_of_mem_set ht with ht' | rfl
      · have hOnly := (h.starting t ht' hStarting').1
        rw [hOnly, List.mem_singleton] at hMem
        rw [hOnly, List.getElem?_singleton] at hTask
        split_ifs at hTask with hZero
        rw [hOnly, hZero, List.set_cons_zero, List.mem_singleton] at ht
        exact ⟨hMem ▸ hStarting', (hStarting (ht ▸ hStarting')).2, ht⟩
      · exact ⟨(hStarting hStarting').1, (hStarting hStarting').2, rfl⟩
    obtain ⟨hStartingOld, hInstances, rfl⟩ := hOld
    have hOnly := (h.starting old hMem hStartingOld).1
    rw [hOnly, List.getElem?_singleton] at hTask
    split_ifs at hTask with hZero
    rw [hTasks, hOnly, hZero, List.set_cons_zero, hTimer]
    exact ⟨rfl, hInstances, hNoTimer⟩
  · rw [hInitialized]
    intro hFresh
    rw [(h.fresh hFresh).1] at hMem
    cases hMem

/-- While one call is active, no other is. -/
theorem Booked.inactive (h : Booked node) {task : Nat} {old new : Task}
    (hTask : node.tasks[task]? = some old) (hActive : old.active = true) :
    ∀ t ∈ node.tasks.set task new, t = new ∨ t.active = false := by
  intro t ht
  obtain ⟨i, hi⟩ := List.mem_iff_getElem?.mp ht
  rw [List.getElem?_set] at hi
  split_ifs at hi with hEq hLt
  · cases hi
    exact Or.inl rfl
  · cases hOther : t.active
    · exact Or.inr rfl
    · exact absurd (h.one _ _ _ _ hTask hi (Or.inl ⟨hActive, hOther⟩)) hEq

/-- A call has returned. -/
theorem Booked.returned (h : Booked node) {task : Nat} {old : Task} (hTask : node.tasks[task]? = some old)
    (hKept : old.starting = false)
    (hTimer : ∀ t ∈ node.tasks.eraseIdx task, t.timed = true → next.rebootstrapPending = true)
    (hTasks : next.tasks = node.tasks.eraseIdx task)
    (hRebootstrap : next.rebootstrapTimer = node.rebootstrapTimer)
    (hPending : node.rebootstrapTimer = true → next.rebootstrapPending = true)
    (hInitialized : next.initialized = node.initialized) : Booked next := by
  have hMem := List.mem_of_getElem? hTask
  have hNone : ∀ t ∈ node.tasks, t.starting = false := by
    intro t ht
    by_contra hStarting
    rw [(h.starting t ht (by simpa using hStarting)).1, List.mem_singleton] at hMem
    rw [hMem] at hKept
    exact hStarting hKept
  refine ⟨?_, ?_, ?_, ?_, ?_⟩
  · intro i j t u hi hj hBoth
    rw [hTasks, List.getElem?_eraseIdx] at hi hj
    split_ifs at hi hj
    all_goals
      have hEq := h.one _ _ _ _ hi hj hBoth
      omega
  · intro t ht hTimed
    rw [hTasks] at ht
    rw [hRebootstrap]
    exact ⟨hTimer t ht hTimed, (h.timed t (List.mem_of_mem_eraseIdx ht) hTimed).2⟩
  · rw [hRebootstrap, hTasks]
    intro hTimer'
    exact ⟨hPending hTimer', fun t ht => (h.timer hTimer').2 t (List.mem_of_mem_eraseIdx ht)⟩
  · intro t ht hStarting
    rw [hTasks] at ht
    rw [hNone t (List.mem_of_mem_eraseIdx ht)] at hStarting
    cases hStarting
  · rw [hInitialized]
    intro hFresh
    rw [(h.fresh hFresh).1] at hMem
    cases hMem

/-- Before the first revoker there is nothing to refer to. -/
theorem Gated.blank (h : Gated node) (hInstances : node.instances = []) : node.revoker = none := by
  cases hRevoker : node.revoker with
  | none => rfl
  | some i =>
      obtain ⟨inst, hInst, -⟩ := h.live i hRevoker
      simp [hInstances] at hInst

/-- The engine that runs is the one of the published revoker. -/
theorem Gated.owned (h : Gated node) {i : Nat} {inst : Instance} (hInst : node.instances[i]? = some inst)
    (hRunning : inst.engine.stopped = false) : node.revoker = some i := by
  have hEngine : node.engine = some i := by
    by_contra hOther
    rw [h.stopped i inst hInst hOther] at hRunning
    cases hRunning
  by_cases hIdle : ∀ t ∈ node.tasks, t.active = false
  · rw [← h.idle hIdle, hEngine]
  · push Not at hIdle
    obtain ⟨t, ht, hActive⟩ := hIdle
    have hStage := h.stage t ht (by simpa using hActive)
    cases t with
    | resuming lastLsn generation =>
        rw [hStage.1] at hEngine
        cases hEngine
    | bootstrap caller phase =>
        cases phase with
        | requesting => rw [← hStage.1, hEngine]
        | stopping snapshot =>
            rw [hStage.2.2.2 inst (List.mem_of_getElem? hInst)] at hRunning
            cases hRunning
        | destroying snapshot | creating snapshot =>
            rw [hStage.1] at hEngine
            cases hEngine
        | finished ok => exact absurd rfl hActive

/-- Nothing is starting once an instance exists. -/
theorem Booked.started (h : Booked node) {i : Nat} {inst : Instance}
    (hInst : node.instances[i]? = some inst) :
    (∀ t ∈ node.tasks, t.starting = false) ∧ node.initialized = true := by
  refine ⟨fun t ht => ?_, ?_⟩
  · by_contra hStarting
    rw [(h.starting t ht (by simpa using hStarting)).2.1] at hInst
    simp at hInst
  · by_contra hFresh
    rw [(h.fresh (by simpa using hFresh)).2.1] at hInst
    simp at hInst

theorem Gated.scheduleRebootstrap (h : Gated node) (hStarting : ∀ t ∈ node.tasks, t.starting = false)
    (hInitialized : node.initialized = true) : Gated node.scheduleRebootstrap := by
  unfold RevokerNode.scheduleRebootstrap
  split_ifs with hBusy
  · exact h
  · simp only [Bool.or_eq_true, not_or, Bool.not_eq_true] at hBusy
    obtain ⟨⟨-, hPending⟩, hBootstrapping⟩ := hBusy
    have hInactive : ∀ t ∈ node.tasks, t.active = false := by
      intro t ht
      by_contra hActive
      have hStage := h.stage t ht (by simpa using hActive)
      cases t with
      | resuming lastLsn generation => cases hStarting _ ht
      | bootstrap caller phase =>
          have hFlag : node.bootstrapping = true := by
            cases phase with
            | requesting => exact hStage.2
            | stopping snapshot => exact hStage.2.1
            | destroying snapshot | creating snapshot => exact hStage.2.2.1
            | finished ok => exact absurd rfl hActive
          rw [hFlag] at hBootstrapping
          cases hBootstrapping
    have hUntimed : ∀ t ∈ node.tasks, t.timed = false := by
      intro t ht
      by_contra hTimed
      rw [(h.timed t ht (by simpa using hTimed)).1] at hPending
      cases hPending
    refine ⟨⟨h.one, ?_, fun _ => ⟨rfl, hInactive⟩, ?_, ?_⟩, h.live, h.stopped, h.gate, ?_, h.idle⟩
    · intro t ht hTimed
      rw [hUntimed t ht] at hTimed
      cases hTimed
    · intro t ht hStarting'
      rw [hStarting t ht] at hStarting'
      cases hStarting'
    · intro hFresh
      rw [show node.initialized = false from hFresh] at hInitialized
      cases hInitialized
    · intro t ht hActive
      rw [hInactive t ht] at hActive
      cases hActive

/-- One instance comes further. -/
theorem Gated.set (h : Gated node) {i : Nat} {inst later : Instance} (hInst : node.instances[i]? = some inst)
    (hEndures : inst.Endures later) (hClosed : later.closed = inst.closed) :
    Gated { node with instances := node.instances.set i later } := by
  have hBounds := (List.getElem?_eq_some_iff.mp hInst).1
  have hGet : ∀ (j : Nat) (other : Instance), (node.instances.set i later)[j]? = some other →
      ∃ old, node.instances[j]? = some old ∧ old.Endures other ∧ other.closed = old.closed := by
    intro j other hOther
    rw [List.getElem?_set] at hOther
    split_ifs at hOther with hEq
    · cases hOther
      exact ⟨inst, hEq ▸ hInst, hEndures, hClosed⟩
    · exact ⟨other, hOther, .refl other, rfl⟩
  have hEmpty : node.instances ≠ [] := by
    intro hEmpty
    simp [hEmpty] at hInst
  refine ⟨⟨h.one, h.timed, h.timer, ?_, ?_⟩, ?_, ?_, ?_, ?_, h.idle⟩
  · exact fun t ht hStarting => absurd (h.starting t ht hStarting).2.1 hEmpty
  · exact fun hFresh => absurd (h.fresh hFresh).2.1 hEmpty
  · intro j hRevoker
    obtain ⟨old, hOld, hOpen⟩ := h.live j hRevoker
    by_cases hEq : i = j
    · subst hEq
      rw [hInst] at hOld
      cases hOld
      exact ⟨later, by simp [hBounds], hClosed.trans hOpen⟩
    · exact ⟨old, by simpa [List.getElem?_set, hEq] using hOld, hOpen⟩
  · intro j other hOther hEngine
    obtain ⟨old, hOld, hLater, -⟩ := hGet j other hOther
    exact hLater.stopped (h.stopped j old hOld hEngine)
  · intro hGate j other hRevoker hOther hBootstrapped
    obtain ⟨old, hOld, hLater, -⟩ := hGet j other hOther
    exact hLater.ready (h.gate hGate j old hRevoker hOld (hLater.bootstrapped ▸ hBootstrapped))
  · intro t ht hActive
    have hStage := h.stage t ht hActive
    cases t with
    | resuming lastLsn generation => exact hStage
    | bootstrap caller phase =>
        cases phase with
        | stopping snapshot =>
            refine ⟨hStage.1, hStage.2.1, hStage.2.2.1, fun other hOther => ?_⟩
            obtain ⟨j, hj⟩ := List.mem_iff_getElem?.mp hOther
            obtain ⟨old, hOld, hLater, -⟩ := hGet j other hj
            exact hLater.stopped (hStage.2.2.2 old (List.mem_of_getElem? hOld))
        | requesting | destroying snapshot | creating snapshot | finished ok => exact hStage

/-- The gate opens: the engine that received the keepalive has applied the backlog. -/
theorem Gated.opened (h : Gated node) {i : Nat} {inst : Instance} (hInst : node.instances[i]? = some inst)
    (hReady : inst.Ready) (hRunning : inst.engine.stopped = false) :
    Gated { node with catchingUp := false } := by
  have hRevoker := h.owned hInst hRunning
  refine ⟨⟨h.one, h.timed, h.timer, h.starting, h.fresh⟩, h.live, h.stopped, ?_, ?_, h.idle⟩
  · intro _ j other hOther hGet _
    have hIndex : i = j := Option.some.inj (hRevoker.symm.trans hOther)
    have hSame : inst = other := by
      subst hIndex
      exact Option.some.inj (hInst.symm.trans hGet)
    exact hSame ▸ hReady
  · intro t ht hActive
    have hStage := h.stage t ht hActive
    cases t with
    | resuming lastLsn generation => exact hStage
    | bootstrap caller phase =>
        cases phase with
        | stopping snapshot =>
            rw [hStage.2.2.2 inst (List.mem_of_getElem? hInst)] at hRunning
            cases hRunning
        | destroying snapshot | creating snapshot =>
            rw [hStage.2.1] at hRevoker
            cases hRevoker
        | requesting | finished ok => exact hStage

theorem stopEngine_keeps (node : RevokerNode) (index : Nat) :
    node.stopEngine index = { node with instances := (node.stopEngine index).instances } := by
  unfold stopEngine
  split
  · split <;> rfl
  · rfl

theorem close_keeps (node : RevokerNode) (index : Nat) :
    node.close index = { node with instances := (node.close index).instances } := by
  unfold close
  split <;> rfl

theorem shutdown_shuttingDown (node : RevokerNode) : node.shutdown.shuttingDown = true := by
  unfold shutdown
  split
  · rw [stopEngine_keeps]
  · split
    · rw [close_keeps]
    · rfl

/-- A stop always runs, and the engine is stopped in that turn. -/
theorem stop_stopped (s : SyncEngineProcess) :
    ∃ t, s.step safeIntegerOf .stop = some t ∧ t.stopped = true := by
  simp only [SyncEngineProcess.step]
  split_ifs with hStopped
  · exact ⟨s, rfl, hStopped⟩
  · exact ⟨_, rfl, rfl⟩

theorem stopEngine_eq {i : Nat} {inst : Instance} (hInst : node.instances[i]? = some inst) :
    ∃ engine, inst.engine.step safeIntegerOf .stop = some engine ∧ engine.stopped = true ∧
      (node.stopEngine i).instances = node.instances.set i { inst with engine := engine } := by
  obtain ⟨engine, hStep, hStopped⟩ := stop_stopped inst.engine
  refine ⟨engine, hStep, hStopped, ?_⟩
  simp only [stopEngine, hInst, hStep]

theorem stopEngine_absent {i : Nat} (hInst : node.instances[i]? = none) : node.stopEngine i = node := by
  simp only [stopEngine, hInst]

/-- A revoker is closed, and that is all. -/
theorem close_get {index i : Nat} {inst : Instance} (hInst : (node.close index).instances[i]? = some inst) :
    ∃ old closed, node.instances[i]? = some old ∧ inst = { old with closed := closed } := by
  unfold close at hInst
  split at hInst
  · rename_i old hOld
    simp only [List.getElem?_set] at hInst
    split_ifs at hInst with hEq
    · cases hInst
      exact ⟨old, true, hEq ▸ hOld, rfl⟩
    · exact ⟨inst, inst.closed, hInst, rfl⟩
  · exact ⟨inst, inst.closed, hInst, rfl⟩

theorem close_nil (index : Nat) (h : node.instances = []) : (node.close index).instances = [] := by
  simp [close, h]

/-- The engine of a node that closes its gate is stopped, and with it every engine. -/
theorem Gated.stopEngine (h : Gated node) (hFollows : ∀ inst ∈ node.instances, inst.Follows log) {e : Nat}
    (hEngine : node.engine = some e) : Gated (node.stopEngine e) ∧
      ∀ inst ∈ (node.stopEngine e).instances, inst.engine.stopped = true := by
  cases hInst : node.instances[e]? with
  | none =>
      rw [stopEngine_absent hInst]
      refine ⟨h, fun inst hMem => ?_⟩
      obtain ⟨i, hi⟩ := List.mem_iff_getElem?.mp hMem
      refine h.stopped i inst hi fun hOther => ?_
      rw [hEngine] at hOther
      cases hOther
      rw [hInst] at hi
      cases hi
  | some inst =>
      obtain ⟨engine, hStep, hStopped, hEq⟩ := stopEngine_eq hInst
      have hEndures := engine_endures (hFollows inst (List.mem_of_getElem? hInst)) hStep
      refine ⟨?_, fun other hMem => ?_⟩
      · rw [stopEngine_keeps, hEq]
        exact h.set hInst hEndures rfl
      · rw [hEq] at hMem
        obtain ⟨i, hi⟩ := List.mem_iff_getElem?.mp hMem
        rw [List.getElem?_set] at hi
        split_ifs at hi with hIndex
        · cases hi
          exact hStopped
        · refine h.stopped i other hi fun hOther => ?_
          rw [hEngine] at hOther
          cases hOther
          exact hIndex rfl

/-- A call goes on to its next await, or ends. -/
theorem Gated.advance (h : Gated node) {task : Nat} {old new : Task} (hTask : node.tasks[task]? = some old)
    (hActive : old.active = true) (hTimed : new.timed = old.timed)
    (hStarting : new.starting = true → old.starting = true ∧ (node.instances = [] → next.instances = []))
    (hTasks : next.tasks = node.tasks.set task new)
    (hTimer : next.rebootstrapTimer = node.rebootstrapTimer)
    (hPending : next.rebootstrapPending = node.rebootstrapPending)
    (hInitialized : next.initialized = node.initialized)
    (hLive : ∀ i : Nat, next.revoker = some i →
      ∃ inst : Instance, next.instances[i]? = some inst ∧ inst.closed = false)
    (hStopped : ∀ (i : Nat) (inst : Instance), next.instances[i]? = some inst → next.engine ≠ some i →
      inst.engine.stopped = true)
    (hGate : next.catchingUp = false → ∀ (i : Nat) (inst : Instance), next.revoker = some i →
      next.instances[i]? = some inst → inst.bootstrapped = true → inst.Ready)
    (hStage : new.active = true → next.Stage new)
    (hIdle : new.active = false → next.engine = next.revoker) : Gated next := by
  have hMem := List.mem_of_getElem? hTask
  refine ⟨h.toBooked.set hTask hActive hTimed ?_ hTasks hTimer hPending hInitialized,
    hLive, hStopped, hGate, ?_, ?_⟩
  · intro hNew
    obtain ⟨hOld, hBlank⟩ := hStarting hNew
    exact ⟨hOld, hBlank (h.starting old hMem hOld).2.1⟩
  · intro t ht hActive'
    rw [hTasks] at ht
    rcases h.inactive hTask hActive t ht with rfl | hInactive
    · exact hStage hActive'
    · rw [hInactive] at hActive'
      cases hActive'
  · intro hInactive
    refine hIdle (hInactive new ?_)
    rw [hTasks]
    exact List.mem_set (List.getElem?_eq_some_iff.mp hTask).1 new

theorem Gated.finish (h : Gated node) {task : Nat} {caller : Caller} {phase : BootstrapPhase}
    (hTask : node.tasks[task]? = some (.bootstrap caller phase))
    (hActive : (Task.bootstrap caller phase).active = true) (hSame : node.engine = node.revoker) :
    Gated (node.finish task caller false) :=
  h.advance hTask hActive (Task.timed_eq caller phase _)
    (fun hStarting => ⟨Task.starting_of_later hActive hStarting, id⟩) rfl rfl rfl rfl h.live h.stopped h.gate
    (fun hFinished => by cases hFinished) fun _ => hSame

theorem gated_eq (hEngine : node.engine = none) (hRevoker : node.revoker = none)
    (hGate : node.catchingUp = true) :
    node = { node with engine := none, revoker := none, catchingUp := true } := by
  rw [← hGate]
  cases node
  cases hEngine
  cases hRevoker
  rfl

/-- The files are written while no revoker is published and no engine runs. -/
theorem Gated.install (h : Gated node) {base : RevokerNode}
    (hBase : base = { node with engine := none, revoker := none, catchingUp := true }) {task : Nat}
    {caller : Caller} {phase : BootstrapPhase}
    (hTask : node.tasks[task]? = some (.bootstrap caller phase))
    (hActive : (Task.bootstrap caller phase).active = true) (hBootstrapping : node.bootstrapping = true)
    (hStopped : ∀ inst ∈ node.instances, inst.engine.stopped = true) (snapshot : SnapshotHeader)
    (installed : Except String Unit) : Gated (base.install task caller snapshot installed) := by
  subst hBase
  have hAll : ∀ (i : Nat) (inst : Instance), node.instances[i]? = some inst → inst.engine.stopped = true :=
    fun i inst hInst => hStopped inst (List.mem_of_getElem? hInst)
  cases installed with
  | ok =>
      exact h.advance hTask hActive (Task.timed_eq caller phase _)
        (fun hStarting => ⟨Task.starting_of_later hActive hStarting, id⟩) rfl rfl rfl rfl
        (fun i hRevoker => by cases hRevoker) (fun i inst hInst _ => hAll i inst hInst)
        (fun hGate => by cases hGate) (fun _ => ⟨rfl, rfl, hBootstrapping, rfl⟩)
        fun hInactive => by cases hInactive
  | error message =>
      exact h.advance hTask hActive (Task.timed_eq caller phase _)
        (fun hStarting => ⟨Task.starting_of_later hActive hStarting, id⟩) rfl rfl rfl rfl
        (fun i hRevoker => by cases hRevoker) (fun i inst hInst _ => hAll i inst hInst)
        (fun hGate => by cases hGate) (fun hFinished => by cases hFinished) fun _ => rfl

/-- The old revoker is let go in the turn in which it is destroyed. -/
theorem Gated.teardown (h : Gated node) {base : RevokerNode}
    (hBase : base = { node with engine := none, catchingUp := true }) {task : Nat}
    {caller : Caller} {phase : BootstrapPhase}
    (hTask : node.tasks[task]? = some (.bootstrap caller phase))
    (hActive : (Task.bootstrap caller phase).active = true) (hBootstrapping : node.bootstrapping = true)
    (hStopped : ∀ inst ∈ node.instances, inst.engine.stopped = true) (snapshot : SnapshotHeader)
    (installed : Except String Unit) : Gated (base.teardown task caller snapshot installed) := by
  subst hBase
  unfold RevokerNode.teardown
  split
  · rename_i old hRevoker
    rw [close_keeps]
    refine h.advance hTask hActive
      (Task.timed_eq caller phase _) ?_ rfl rfl rfl rfl
      (fun i hRevoker => by cases hRevoker) ?_ (fun hGate => by cases hGate)
      (fun _ => ⟨rfl, rfl, hBootstrapping, rfl⟩) fun hInactive => by cases hInactive
    · intro hStarting
      refine ⟨Task.starting_of_later hActive hStarting, fun hBlank => ?_⟩
      exact close_nil old hBlank
    · intro i inst hInst _
      obtain ⟨before, closed, hBefore, rfl⟩ := close_get hInst
      exact hStopped before (List.mem_of_getElem? hBefore)
  · rename_i hRevoker
    refine h.install ?_ hTask hActive hBootstrapping hStopped snapshot installed
    rw [← show node.revoker = none from hRevoker]

/-- A revoker is published behind the closed gate, with its engine. -/
theorem Gated.created (h : Gated node) {task : Nat} {caller : Caller} {snapshot : SnapshotHeader}
    (hTask : node.tasks[task]? = some (.bootstrap caller (.creating snapshot))) (lastLsn : Nat)
    (generation : Int) : Gated ((node.startEngine true lastLsn generation).finish task caller true) := by
  obtain ⟨hEngine, hRevoker, hBootstrapping, hGate⟩ := h.stage _ (List.mem_of_getElem? hTask) rfl
  refine h.advance hTask rfl (Task.timed_eq caller _ _) ?_ rfl rfl rfl rfl ?_ ?_ ?_ ?_ fun _ => rfl
  · intro hStarting
    cases caller <;> cases hStarting
  · intro i hPublished
    cases hPublished
    exact ⟨Instance.create true lastLsn generation, by simp [startEngine, RevokerNode.finish, setTask], rfl⟩
  · intro i inst hInst hOther
    simp only [startEngine, RevokerNode.finish, setTask, List.getElem?_append] at hInst
    split_ifs at hInst with hLt
    · exact h.stopped i inst hInst (by simp [hEngine])
    · rw [List.getElem?_singleton] at hInst
      split_ifs at hInst with hZero
      refine absurd ?_ hOther
      simp only [startEngine, RevokerNode.finish, setTask, Option.some.injEq]
      omega
  · intro hOpen
    rw [show node.catchingUp = false from hOpen] at hGate
    cases hGate
  · intro hFinished
    cases hFinished

theorem stopEngine_catchingUp (node : RevokerNode) (e : Nat) :
    ({ node with catchingUp := true } : RevokerNode).stopEngine e =
      { node.stopEngine e with catchingUp := true } := by
  cases hInst : node.instances[e]? with
  | none => simp only [RevokerNode.stopEngine, hInst]
  | some inst =>
      obtain ⟨engine, hStep, -⟩ := stop_stopped inst.engine
      simp only [RevokerNode.stopEngine, hInst, hStep]

theorem Gated.stopping (h : Gated node) (hFollows : ∀ inst ∈ node.instances, inst.Follows log) {task e : Nat}
    {caller : Caller} (hTask : node.tasks[task]? = some (.bootstrap caller .requesting))
    (hEngine : node.engine = some e) (snapshot : SnapshotHeader) :
    Gated ((({ node with catchingUp := true } : RevokerNode).stopEngine e).setTask task
      (.bootstrap caller (.stopping snapshot))) := by
  obtain ⟨hSame, hBootstrapping⟩ := h.stage _ (List.mem_of_getElem? hTask) rfl
  obtain ⟨hStop, hStopped⟩ := h.stopEngine hFollows hEngine
  have hFrame := stopEngine_keeps node e
  rw [stopEngine_catchingUp]
  have hTask' : (node.stopEngine e).tasks[task]? = some (.bootstrap caller .requesting) := by
    rw [hFrame]
    exact hTask
  refine hStop.advance hTask' rfl (Task.timed_eq caller _ _)
    (fun hStarting => ⟨Task.starting_of_later rfl hStarting, id⟩) rfl rfl rfl rfl hStop.live hStop.stopped
    (fun hGate => by cases hGate) (fun _ => ⟨?_, ?_, rfl, hStopped⟩) fun hInactive => by cases hInactive
  · simp only [setTask]
    rw [hFrame]
    exact hSame
  · simp only [setTask]
    rw [hFrame]
    exact hBootstrapping

/-- The state in which `init` has returned or thrown. -/
theorem Booked.clear (hTasks : node.tasks = []) (hTimer : node.rebootstrapTimer = false)
    (hFresh : node.initialized = false → node.instances = []) : Booked node where
  one := by simp [hTasks]
  timed := by simp [hTasks]
  timer := by simp [hTimer]
  starting := by simp [hTasks]
  fresh := fun h => ⟨hTasks, hFresh h, hTimer⟩

/-- A call of `init` is the only task there is. -/
theorem Gated.alone (h : Gated node) {task : Nat} {t : Task} (hTask : node.tasks[task]? = some t)
    (hStarting : t.starting = true) : node.tasks.eraseIdx task = [] ∧ node.instances = [] ∧
      node.rebootstrapTimer = false ∧ node.initialized = true := by
  obtain ⟨hTasks, hInstances, hTimer⟩ := h.starting t (List.mem_of_getElem? hTask) hStarting
  refine ⟨?_, hInstances, hTimer, ?_⟩
  · rw [hTasks, List.getElem?_singleton] at hTask
    split_ifs at hTask with hZero
    rw [hTasks, hZero]
    rfl
  · by_contra hFresh
    rw [(h.fresh (by simpa using hFresh)).1] at hTasks
    cases hTasks

/-- Nothing is published and nothing runs: `init` may be called, or called again. -/
theorem Gated.fail (h : Gated node) {task : Nat} {t : Task} (hTask : node.tasks[task]? = some t)
    (hStarting : t.starting = true) (hEngine : node.engine = none) :
    Gated { node with tasks := node.tasks.eraseIdx task, initialized := false } := by
  obtain ⟨hTasks, hInstances, hTimer, -⟩ := h.alone hTask hStarting
  have hRevoker := h.blank hInstances
  refine ⟨Booked.clear hTasks hTimer fun _ => hInstances, ?_, ?_, ?_, ?_,
    fun _ => hEngine.trans hRevoker.symm⟩
  · exact h.live
  · exact h.stopped
  · exact h.gate
  · intro u hu
    rw [show node.tasks.eraseIdx task = [] from hTasks] at hu
    cases hu

/-- The local resume: nothing has been installed, so the gate is as it was. -/
theorem Gated.resumed (h : Gated node) {task lastLsn : Nat} {generation : Int}
    (hTask : node.tasks[task]? = some (.resuming lastLsn generation)) :
    Gated (({ node with tasks := node.tasks.eraseIdx task } : RevokerNode).startEngine false lastLsn
      generation) := by
  obtain ⟨hTasks, hInstances, hTimer, hInitialized⟩ := h.alone hTask rfl
  refine ⟨Booked.clear hTasks hTimer ?_, ?_, ?_, ?_, ?_, fun _ => rfl⟩
  · intro hFresh
    rw [show node.initialized = false from hFresh] at hInitialized
    cases hInitialized
  · intro i hPublished
    cases hPublished
    exact ⟨Instance.create false lastLsn generation, by simp [startEngine, hInstances], rfl⟩
  · intro i inst hInst hOther
    simp only [startEngine, hInstances, List.nil_append, List.getElem?_singleton] at hInst
    split_ifs at hInst with hZero
    exact absurd (by simp [startEngine, hInstances, hZero]) hOther
  · intro _ i inst _ hInst hBootstrapped
    simp only [startEngine, hInstances, List.nil_append, List.getElem?_singleton] at hInst
    split_ifs at hInst
    cases hInst
    cases hBootstrapped
  · intro t ht
    simp only [startEngine, hTasks] at ht
    cases ht

/-- `init` begins while there is nothing else. -/
theorem Gated.begin (h : Gated node) (hFresh : node.initialized = false) {t : Task}
    (hUntimed : t.timed = false)
    (hTasks : next.tasks = node.tasks ++ [t]) (hInitialized : next.initialized = true)
    (hTimer : next.rebootstrapTimer = node.rebootstrapTimer) (hInstances : next.instances = node.instances)
    (hEngine : next.engine = node.engine) (hRevoker : next.revoker = node.revoker)
    (hStage : next.engine = none → next.revoker = none → next.Stage t) :
    Gated next := by
  obtain ⟨hNoTask, hNoInstance, hNoTimer⟩ := h.fresh hFresh
  rw [hNoTask, List.nil_append] at hTasks
  have hNoRevoker := h.blank hNoInstance
  have hNoEngine : node.engine = none := by
    rw [h.idle (by simp [hNoTask]), hNoRevoker]
  have hOnly : ∀ u ∈ next.tasks, u = t := by
    intro u hu
    rw [hTasks] at hu
    exact List.mem_singleton.mp hu
  refine ⟨⟨?_, ?_, ?_, ?_, ?_⟩, ?_, ?_, ?_, ?_, fun _ => by rw [hEngine, hRevoker, hNoEngine, hNoRevoker]⟩
  · intro i j u v hi hj _
    rw [hTasks, List.getElem?_singleton] at hi hj
    split_ifs at hi hj with hI hJ
    rw [hI, hJ]
  · intro u hu hTimed
    rw [hOnly u hu, hUntimed] at hTimed
    cases hTimed
  · rw [hTimer, hNoTimer]
    intro hTimer'
    cases hTimer'
  · intro u hu _
    rw [hOnly u hu, hTasks, hInstances, hTimer]
    exact ⟨rfl, hNoInstance, hNoTimer⟩
  · rw [hInitialized]
    intro hFresh'
    cases hFresh'
  · intro i hPublished
    rw [hRevoker, hNoRevoker] at hPublished
    cases hPublished
  · intro i inst hInst
    rw [hInstances, hNoInstance] at hInst
    simp at hInst
  · intro _ i inst hPublished
    rw [hRevoker, hNoRevoker] at hPublished
    cases hPublished
  · intro u hu _
    rw [hOnly u hu]
    exact hStage (hEngine.trans hNoEngine) (hRevoker.trans hNoRevoker)

/-- The timer fires while no call is active. -/
theorem Gated.fired (h : Gated node) (hTimer : node.rebootstrapTimer = true) :
    Gated { node with
      rebootstrapTimer := false
      bootstrapping := true
      tasks := node.tasks ++ [.bootstrap .timer .requesting] } := by
  obtain ⟨hPending, hInactive⟩ := h.toBooked.timer hTimer
  have hUntimed : ∀ t ∈ node.tasks, t.timed = false := by
    intro t ht
    by_contra hTimed
    rw [(h.timed t ht (by simpa using hTimed)).2] at hTimer
    cases hTimer
  have hKept : ∀ t ∈ node.tasks, t.starting = false := by
    intro t ht
    by_contra hStarting
    rw [(h.starting t ht (by simpa using hStarting)).2.2] at hTimer
    cases hTimer
  have hOld : ∀ (i : Nat) (t : Task),
      (node.tasks ++ [Task.bootstrap .timer .requesting])[i]? = some t →
      (t.active = true ∨ t.timed = true) → i = node.tasks.length := by
    intro i t hi hEither
    rw [List.getElem?_append] at hi
    split_ifs at hi with hLt
    · have hMem := List.mem_of_getElem? hi
      rw [hInactive t hMem, hUntimed t hMem] at hEither
      simp at hEither
    · rw [List.getElem?_singleton] at hi
      split_ifs at hi with hZero
      omega
  refine ⟨⟨?_, ?_, ?_, ?_, ?_⟩, h.live, h.stopped, h.gate, ?_, ?_⟩
  · intro i j t u hi hj hBoth
    rw [hOld i t hi (hBoth.imp And.left And.left), hOld j u hj (hBoth.imp And.right And.right)]
  · exact fun _ _ _ => ⟨hPending, rfl⟩
  · exact fun hTimer' => by cases hTimer'
  · intro t ht hStarting
    rcases List.mem_append.mp ht with ht | ht
    · rw [hKept t ht] at hStarting
      cases hStarting
    · cases List.mem_singleton.mp ht
      cases hStarting
  · intro hFresh
    rw [(h.fresh hFresh).2.2] at hTimer
    cases hTimer
  · intro t ht hActive
    rcases List.mem_append.mp ht with ht | ht
    · rw [hInactive t ht] at hActive
      cases hActive
    · cases List.mem_singleton.mp ht
      exact ⟨h.idle hInactive, rfl⟩
  · intro hAll
    exact absurd (hAll (.bootstrap .timer .requesting) (by simp)) (by simp [Task.active])

/-- The call of the timer was the only one that the timer had made. -/
theorem Booked.untimed (h : Booked node) {task : Nat} {old : Task} (hTask : node.tasks[task]? = some old)
    (hTimed : old.timed = true) : ∀ t ∈ node.tasks.eraseIdx task, t.timed = false := by
  intro t ht
  by_contra hOther
  obtain ⟨j, hj⟩ := List.mem_iff_getElem?.mp ht
  rw [List.getElem?_eraseIdx] at hj
  split_ifs at hj
  all_goals
    have hEq := h.one _ _ _ _ hTask hj (Or.inr ⟨hTimed, by simpa using hOther⟩)
    omega

theorem Gated.returned (h : Gated node) {task : Nat} {old : Task} (hTask : node.tasks[task]? = some old)
    (hInactive : old.active = false) (hKept : old.starting = false) {pending : Bool}
    (hTimed : ∀ t ∈ node.tasks.eraseIdx task, t.timed = true → pending = true)
    (hTimer : node.rebootstrapTimer = true → pending = true) :
    Gated { node with tasks := node.tasks.eraseIdx task, rebootstrapPending := pending } := by
  refine ⟨h.toBooked.returned hTask hKept hTimed rfl rfl hTimer rfl, h.live, h.stopped, h.gate, ?_, ?_⟩
  · intro t ht hActive
    have hStage := h.stage t (List.mem_of_mem_eraseIdx ht) hActive
    cases t with
    | resuming lastLsn generation => exact hStage
    | bootstrap caller phase => cases phase <;> exact hStage
  · intro hAll
    refine h.idle fun t ht => ?_
    obtain ⟨i, hi⟩ := List.mem_iff_getElem?.mp ht
    by_cases hEq : i = task
    · subst hEq
      rw [hTask] at hi
      cases hi
      exact hInactive
    · refine hAll t (List.mem_iff_getElem?.mpr ?_)
      rcases Nat.lt_or_gt_of_ne hEq with hLt | hGt
      · exact ⟨i, by rw [List.getElem?_eraseIdx_of_lt hLt, hi]⟩
      · refine ⟨i - 1, ?_⟩
        rw [List.getElem?_eraseIdx_of_ge (by omega)]
        have hSucc : i - 1 + 1 = i := by omega
        rw [hSucc, hi]

/-- A bootstrap that the timer called has returned; its caller is over. -/
theorem Gated.returnedTimer (h : Gated node) {task : Nat} {ok : Bool}
    (hTask : node.tasks[task]? = some (.bootstrap .timer (.finished ok))) :
    Gated { node with tasks := node.tasks.eraseIdx task, rebootstrapPending := false } := by
  have hMem := List.mem_of_getElem? hTask
  refine h.returned hTask rfl rfl ?_ ?_
  · intro t ht hTimed
    rw [h.untimed hTask rfl t ht] at hTimed
    cases hTimed
  · intro hTimer
    rw [(h.timed _ hMem rfl).2] at hTimer
    cases hTimer

/-- A bootstrap that `init` called has returned to it. -/
theorem Gated.returnedInit (h : Gated node) {task : Nat}
    (hTask : node.tasks[task]? = some (.bootstrap .init (.finished true))) :
    Gated { node with tasks := node.tasks.eraseIdx task } := by
  refine h.returned hTask rfl rfl (fun t ht hTimed => ?_) fun hTimer => (h.toBooked.timer hTimer).1
  exact (h.timed t (List.mem_of_mem_eraseIdx ht) hTimed).1

/-- `init` fails with the bootstrap that it called. -/
theorem Gated.failedInit (h : Gated node) {task : Nat}
    (hTask : node.tasks[task]? = some (.bootstrap .init (.finished false))) :
    Gated { node with initialized := false, tasks := node.tasks.eraseIdx task } := by
  obtain ⟨-, hInstances, -, -⟩ := h.alone hTask rfl
  refine h.fail hTask rfl ?_
  rw [h.idle ?_, h.blank hInstances]
  intro t ht
  rw [(h.starting _ (List.mem_of_getElem? hTask) rfl).1, List.mem_singleton] at ht
  rw [ht]
  rfl

/-- The timer tries again after the bootstrap that it called. -/
theorem Gated.failedTimer (h : Gated node) {task : Nat} {ok : Bool}
    (hTask : node.tasks[task]? = some (.bootstrap .timer (.finished ok))) :
    Gated ({ node with tasks := node.tasks.eraseIdx task, rebootstrapPending := false } :
      RevokerNode).scheduleRebootstrap := by
  refine (h.returnedTimer hTask).scheduleRebootstrap (fun t ht => ?_) ?_
  · by_contra hStarting
    have hOnly := (h.starting t (List.mem_of_mem_eraseIdx ht) (by simpa using hStarting)).1
    have hMem := List.mem_of_getElem? hTask
    rw [hOnly, List.mem_singleton] at hMem
    rw [← hMem] at hStarting
    exact hStarting rfl
  · by_contra hFresh
    have hNone := (h.fresh (by simpa using hFresh)).1
    rw [hNone] at hTask
    simp at hTask

theorem Gated.onRebootstrapRequired (h : Gated node) {i : Nat} {inst : Instance}
    (hInst : node.instances[i]? = some inst) : Gated node.onRebootstrapRequired := by
  unfold RevokerNode.onRebootstrapRequired
  split_ifs
  · exact h
  · exact h.scheduleRebootstrap (h.started hInst).1 (h.started hInst).2

theorem Gated.instanceStep (h : Gated node) (hFollows : ∀ inst ∈ node.instances, inst.Follows log) {i : Nat}
    {a : Instance.Action} (hStep : node.instanceStep log i a = some next) : Gated next := by
  unfold RevokerNode.instanceStep at hStep
  split at hStep
  · cases hStep
  · rename_i inst hInst
    obtain ⟨later, hLater, hNext⟩ := Option.map_eq_some_iff.mp hStep
    have hInstFollows := hFollows inst (List.mem_of_getElem? hInst)
    obtain ⟨hEndures, hClosed⟩ := step_endures hInstFollows hLater
    have hStepped : Gated { node with
        instances := node.instances.set i later
        catchingUp := if inst.receivesKeepalive a then false else node.catchingUp } := by
      by_cases hKeepalive : inst.receivesKeepalive a = true
      · obtain ⟨hReady, hRunning⟩ := hInstFollows.ready_of_keepalive hKeepalive
        rw [if_pos hKeepalive]
        exact (h.opened hInst hReady hRunning).set hInst hEndures hClosed
      · rw [if_neg hKeepalive]
        exact h.set hInst hEndures hClosed
    have hGet : (node.instances.set i later)[i]? = some later := by
      simp [(List.getElem?_eq_some_iff.mp hInst).1]
    have hReported : ∀ stepped : RevokerNode, Gated stepped → stepped.instances[i]? = some later →
        Gated (if later.engine.rebootstrapFired && !inst.engine.rebootstrapFired then
          stepped.onRebootstrapRequired else stepped) := by
      intro stepped hGated hLaterGet
      split_ifs
      · exact hGated.onRebootstrapRequired hLaterGet
      · exact hGated
    subst hNext
    exact hReported _ hStepped hGet

/-- A step of `shutdown` or `destroy` leaves the node shutting down, or as it was. -/
theorem shuttingDown_of_owner {a : Action} (hStep : node.step log a = some next)
    (hOwner : a = .shutdown ∨ a = .shutdownEngineStopped ∨ a = .destroy ∨ a = .destroyReturned) :
    next.shuttingDown = true ∨ next = node := by
  rcases hOwner with rfl | rfl | rfl | rfl
  · simp only [step] at hStep
    split_ifs at hStep with hDown <;> cases hStep
    · exact Or.inr rfl
    · exact Or.inl (shutdown_shuttingDown _)
  · simp only [step] at hStep
    split_ifs at hStep with hDown
    split at hStep <;> cases hStep
    · exact Or.inl (by rw [close_keeps]; exact hDown)
    · exact Or.inl hDown
  · simp only [step] at hStep
    split_ifs at hStep with hDown
    · split at hStep <;> cases hStep
      · exact Or.inl (by rw [close_keeps]; exact hDown)
      · exact Or.inl hDown
    · cases hStep
      exact Or.inl (shutdown_shuttingDown _)
  · simp only [step] at hStep
    split_ifs at hStep with hDown
    cases hStep
    exact Or.inl hDown

theorem step_gated {a : Action} (h : Gated node) (hFollows : ∀ inst ∈ node.instances, inst.Follows log)
    (hStep : node.step log a = some next) (hServing : next.shuttingDown = false) : Gated next := by
  cases a with
  | init resume =>
      simp only [step] at hStep
      split_ifs at hStep with hFresh
      cases resume with
      | none =>
          cases hStep
          refine h.begin (by simpa using hFresh) rfl rfl rfl rfl rfl rfl rfl ?_
          exact fun hEngine hRevoker => ⟨hEngine.trans hRevoker.symm, rfl⟩
      | some state =>
          cases hStep
          refine h.begin (by simpa using hFresh) rfl rfl rfl rfl rfl rfl rfl ?_
          exact fun hEngine hRevoker => ⟨hEngine, hRevoker⟩
  | resumed task created =>
      simp only [step] at hStep
      split at hStep
      · rename_i lastLsn generation hTask
        split_ifs at hStep <;> cases hStep
        · exact h.resumed hTask
        · exact h.fail hTask rfl (h.stage _ (List.mem_of_getElem? hTask) rfl).1
      · cases hStep
  | snapshot task snapshot installed =>
      simp only [step] at hStep
      split at hStep
      · rename_i caller hTask
        obtain ⟨hSame, hBootstrapping⟩ := h.stage _ (List.mem_of_getElem? hTask) rfl
        cases snapshot with
        | error message =>
            cases hStep
            exact h.finish hTask rfl hSame
        | ok snapshot =>
            cases hEngine : node.engine with
            | some e =>
                simp only [hEngine] at hStep
                cases hStep
                rw [← hEngine]
                exact h.stopping hFollows hTask hEngine snapshot
            | none =>
                simp only [hEngine] at hStep
                cases hStep
                rw [← hEngine]
                refine h.teardown (by rw [hEngine]) hTask rfl hBootstrapping ?_ snapshot installed
                intro inst hMem
                obtain ⟨i, hi⟩ := List.mem_iff_getElem?.mp hMem
                exact h.stopped i inst hi (by simp [hEngine])
      · cases hStep
  | engineStopped task installed =>
      simp only [step] at hStep
      split at hStep
      · rename_i caller snapshot hTask
        cases hStep
        obtain ⟨-, hBootstrapping, hGate, hStopped⟩ := h.stage _ (List.mem_of_getElem? hTask) rfl
        exact h.teardown (by rw [hGate]) hTask rfl hBootstrapping hStopped snapshot installed
      · cases hStep
  | destroyed task installed =>
      simp only [step] at hStep
      split at hStep
      · rename_i caller snapshot hTask
        cases hStep
        obtain ⟨hEngine, hRevoker, hBootstrapping, hGate⟩ := h.stage _ (List.mem_of_getElem? hTask) rfl
        refine h.install (gated_eq hEngine hRevoker hGate) hTask rfl hBootstrapping ?_ snapshot installed
        intro inst hMem
        obtain ⟨i, hi⟩ := List.mem_iff_getElem?.mp hMem
        exact h.stopped i inst hi (by simp [hEngine])
      · cases hStep
  | created task created =>
      simp only [step] at hStep
      split at hStep
      · rename_i caller snapshot hTask
        obtain ⟨hEngine, hRevoker, -, -⟩ := h.stage _ (List.mem_of_getElem? hTask) rfl
        split_ifs at hStep <;> cases hStep
        · exact h.created hTask _ _
        · exact h.finish hTask rfl (hEngine.trans hRevoker.symm)
      · cases hStep
  | returned task =>
      simp only [step] at hStep
      split at hStep
      · rename_i caller ok hTask
        cases caller with
        | init =>
            cases ok <;> cases hStep
            · exact h.failedInit hTask
            · exact h.returnedInit hTask
        | timer =>
            cases ok <;> cases hStep
            · exact h.failedTimer hTask
            · exact h.returnedTimer hTask
      · cases hStep
  | timer =>
      simp only [step] at hStep
      split_ifs at hStep with hTimer hDown <;> cases hStep
      · rw [show node.shuttingDown = false from hServing] at hDown
        cases hDown
      · exact h.fired hTimer
  | coreRotation =>
      simp only [step] at hStep
      split_ifs at hStep with hEmpty
      cases hStep
      unfold onCoreRotation
      split_ifs
      · exact h
      · exact h
      · cases hInstances : node.instances with
        | nil => simp [hInstances] at hEmpty
        | cons inst rest =>
            have hFirst : node.instances[0]? = some inst := by rw [hInstances]; rfl
            exact h.scheduleRebootstrap (h.started hFirst).1 (h.started hFirst).2
  | inst index a => exact h.instanceStep hFollows hStep
  | shutdown | shutdownEngineStopped | destroy | destroyReturned =>
      rcases shuttingDown_of_owner hStep (by simp) with hDown | rfl
      · rw [hDown] at hServing
        cases hServing
      · exact h

/-- What a step keeps of a node, whatever its flags are. -/
structure Extends (log : List RevokerCall) (node next : RevokerNode) : Prop where
  follows : (∀ inst ∈ node.instances, inst.Follows log) → ∀ inst ∈ next.instances, inst.Follows log
  shuttingDown : node.shuttingDown = true → next.shuttingDown = true

theorem Extends.same (hInstances : next.instances = node.instances)
    (hDown : next.shuttingDown = node.shuttingDown) : Extends log node next :=
  ⟨fun h => hInstances ▸ h, fun h => hDown.trans h⟩

theorem Extends.trans {later : RevokerNode} (h : Extends log node next) (h' : Extends log next later) :
    Extends log node later := ⟨h'.follows ∘ h.follows, h'.shuttingDown ∘ h.shuttingDown⟩

theorem Extends.set {i : Nat} {later : Instance}
    (hLater : (∀ inst ∈ node.instances, inst.Follows log) → later.Follows log)
    (hInstances : next.instances = node.instances.set i later)
    (hDown : next.shuttingDown = node.shuttingDown) : Extends log node next := by
  refine ⟨fun h inst hMem => ?_, fun h => hDown.trans h⟩
  rw [hInstances] at hMem
  rcases List.mem_or_eq_of_mem_set hMem with hMem | rfl
  · exact h inst hMem
  · exact hLater h

theorem stopEngine_extends (node : RevokerNode) (index : Nat) : Extends log node (node.stopEngine index) := by
  cases hInst : node.instances[index]? with
  | none =>
      rw [stopEngine_absent hInst]
      exact .same rfl rfl
  | some inst =>
      obtain ⟨engine, hStep, -, hEq⟩ := stopEngine_eq hInst
      refine .set (fun h => ?_) hEq (by rw [stopEngine_keeps])
      exact (h inst (List.mem_of_getElem? hInst)).silent hStep (by simp) (by simp) (by simp) (by simp)

theorem close_extends (node : RevokerNode) (index : Nat) : Extends log node (node.close index) := by
  unfold close
  split
  · rename_i inst hInst
    refine .set (fun h => ?_) rfl rfl
    exact { h inst (List.mem_of_getElem? hInst) with }
  · exact .same rfl rfl

theorem startEngine_extends (node : RevokerNode) (bootstrapped : Bool) (lastLsn : Nat) (generation : Int) :
    Extends log node (node.startEngine bootstrapped lastLsn generation) := by
  refine ⟨fun h inst hMem => ?_, id⟩
  rcases List.mem_append.mp hMem with hMem | hMem
  · exact h inst hMem
  · rw [List.mem_singleton.mp hMem]
    exact create_follows log bootstrapped lastLsn generation

theorem scheduleRebootstrap_extends (node : RevokerNode) : Extends log node node.scheduleRebootstrap := by
  unfold scheduleRebootstrap
  split_ifs <;> exact .same rfl rfl

theorem onRebootstrapRequired_extends (node : RevokerNode) : Extends log node node.onRebootstrapRequired := by
  unfold onRebootstrapRequired
  split_ifs
  · exact .same rfl rfl
  · exact scheduleRebootstrap_extends node

theorem install_extends (node : RevokerNode) (task : Nat) (caller : Caller) (snapshot : SnapshotHeader)
    (installed : Except String Unit) : Extends log node (node.install task caller snapshot installed) := by
  cases installed <;> exact .same rfl rfl

theorem teardown_extends (node : RevokerNode) (task : Nat) (caller : Caller) (snapshot : SnapshotHeader)
    (installed : Except String Unit) : Extends log node (node.teardown task caller snapshot installed) := by
  unfold teardown
  split
  · rename_i old hRevoker
    have hLet : Extends log node { node with revoker := none } := .same rfl rfl
    exact (hLet.trans (close_extends _ old)).trans (.same rfl rfl)
  · exact install_extends node task caller snapshot installed

theorem shutdown_extends (node : RevokerNode) : Extends log node node.shutdown := by
  have hMarked : Extends log node
      { node with shuttingDown := true, rebootstrapTimer := false, rebootstrapPending := false } :=
    ⟨id, fun _ => rfl⟩
  unfold shutdown
  split
  · exact hMarked.trans (stopEngine_extends _ _)
  · split
    · exact hMarked.trans (close_extends _ _)
    · exact hMarked

theorem instanceStep_extends {i : Nat} {a : Instance.Action} (hStep : node.instanceStep log i a = some next) :
    Extends log node next := by
  unfold RevokerNode.instanceStep at hStep
  split at hStep
  · cases hStep
  · rename_i inst hInst
    obtain ⟨later, hLater, rfl⟩ := Option.map_eq_some_iff.mp hStep
    have hStepped : ∀ stepped : RevokerNode, stepped.instances = node.instances.set i later →
        stepped.shuttingDown = node.shuttingDown → Extends log node stepped := by
      intro stepped hInstances hDown
      exact .set (fun h => (h inst (List.mem_of_getElem? hInst)).step hLater) hInstances hDown
    have hReported : ∀ stepped : RevokerNode, Extends log node stepped →
        Extends log node (if later.engine.rebootstrapFired && !inst.engine.rebootstrapFired then
          stepped.onRebootstrapRequired else stepped) := by
      intro stepped hExtends
      split_ifs
      · exact hExtends.trans (onRebootstrapRequired_extends stepped)
      · exact hExtends
    exact hReported _ (hStepped _ rfl rfl)

theorem step_extends {a : Action} (hStep : node.step log a = some next) : Extends log node next := by
  cases a with
  | init resume =>
      simp only [step] at hStep
      split_ifs at hStep
      cases resume <;> cases hStep <;> exact .same rfl rfl
  | resumed task created =>
      simp only [step] at hStep
      split at hStep
      · split_ifs at hStep <;> cases hStep
        · have hEnded : Extends log node { node with tasks := node.tasks.eraseIdx task } := .same rfl rfl
          exact hEnded.trans (startEngine_extends _ _ _ _)
        · exact .same rfl rfl
      · cases hStep
  | snapshot task snapshot installed =>
      simp only [step] at hStep
      split at hStep
      · cases snapshot with
        | error message =>
            cases hStep
            exact .same rfl rfl
        | ok snapshot =>
            have hGated : Extends log node { node with catchingUp := true } := .same rfl rfl
            simp only at hStep
            split at hStep <;> cases hStep
            · exact (hGated.trans (stopEngine_extends _ _)).trans (.same rfl rfl)
            · exact hGated.trans (teardown_extends _ _ _ _ _)
      · cases hStep
  | engineStopped task installed =>
      simp only [step] at hStep
      split at hStep
      · cases hStep
        have hCleared : Extends log node { node with engine := none } := .same rfl rfl
        exact hCleared.trans (teardown_extends _ _ _ _ _)
      · cases hStep
  | destroyed task installed =>
      simp only [step] at hStep
      split at hStep
      · cases hStep
        exact install_extends _ _ _ _ _
      · cases hStep
  | created task created =>
      simp only [step] at hStep
      split at hStep
      · split_ifs at hStep <;> cases hStep
        · exact (startEngine_extends _ _ _ _).trans (.same rfl rfl)
        · exact .same rfl rfl
      · cases hStep
  | returned task =>
      simp only [step] at hStep
      split at hStep
      · split at hStep <;> cases hStep
        · exact .same rfl rfl
        · exact .same rfl rfl
        · exact .same rfl rfl
        · have hEnded : Extends log node
              { node with tasks := node.tasks.eraseIdx task, rebootstrapPending := false } := .same rfl rfl
          exact hEnded.trans (scheduleRebootstrap_extends _)
      · cases hStep
  | timer =>
      simp only [step] at hStep
      split_ifs at hStep <;> cases hStep <;> exact .same rfl rfl
  | coreRotation =>
      simp only [step] at hStep
      split_ifs at hStep
      cases hStep
      unfold onCoreRotation
      split_ifs
      · exact .same rfl rfl
      · exact .same rfl rfl
      · exact scheduleRebootstrap_extends node
  | inst index a => exact instanceStep_extends hStep
  | shutdown =>
      simp only [step] at hStep
      split_ifs at hStep <;> cases hStep
      · exact .same rfl rfl
      · exact shutdown_extends node
  | shutdownEngineStopped =>
      simp only [step] at hStep
      split_ifs at hStep
      have hCleared : Extends log node { node with engine := none } := .same rfl rfl
      split at hStep <;> cases hStep
      · exact hCleared.trans (close_extends _ _)
      · exact hCleared
  | destroy =>
      simp only [step] at hStep
      split_ifs at hStep
      · split at hStep <;> cases hStep
        · exact close_extends _ _
        · exact .same rfl rfl
      · cases hStep
        exact shutdown_extends node
  | destroyReturned =>
      simp only [step] at hStep
      split_ifs at hStep
      cases hStep
      exact .same rfl rfl

theorem gated_init : Gated {} where
  one := by simp
  timed := by simp
  timer := by simp
  starting := by simp
  fresh := fun _ => ⟨rfl, rfl, rfl⟩
  live := by simp
  stopped := by simp
  gate := by simp
  stage := by simp
  idle := fun _ => rfl

/-- A revoker that is consulted is the published one, behind an open gate. -/
theorem has_eq_ok {revoker : Nat} (h : node.has = .ok revoker) :
    node.revoker = some revoker ∧ node.shuttingDown = false ∧ node.catchingUp = false := by
  unfold has at h
  split at h
  · cases h
  · rename_i published hPublished
    split_ifs at h with hClosed
    cases h
    simp only [Bool.or_eq_true, not_or, Bool.not_eq_true] at hClosed
    exact ⟨hPublished, hClosed⟩

theorem handler_eq_ok {revoker : Nat} (h : node.handler = .ok revoker) : node.has = .ok revoker := by
  unfold handler at h
  unfold has
  split at h
  · cases h
  · split_ifs at h ⊢ with hClosed
    exact h

theorem getMiddleware_eq_ok {middleware : RevokerNode → Except String Nat}
    (h : node.getMiddleware = .ok middleware) : middleware = handler := by
  unfold getMiddleware at h
  split_ifs at h
  cases h
  rfl

end RevokerNode

/-- A node, and the log of the coordinator that it follows. -/
structure FollowedLog where
  log : List RevokerCall := []
  node : RevokerNode := {}
  deriving DecidableEq

namespace FollowedLog

inductive Action where
  | publish (call : RevokerCall)
  | node (a : RevokerNode.Action)
  deriving DecidableEq

def step (s : FollowedLog) : Action → Option FollowedLog
  | .publish call => some { s with log := s.log ++ [call] }
  | .node a => (s.node.step s.log a).map fun node => { s with node := node }

/-- What holds in every state of a run. -/
structure Serves (s : FollowedLog) : Prop where
  follows : ∀ inst ∈ s.node.instances, inst.Follows s.log
  gated : s.node.shuttingDown = false → s.node.Gated

theorem step_serves {s t : FollowedLog} {a : Action} (h : Serves s) (hStep : s.step a = some t) :
    Serves t := by
  cases a with
  | publish call =>
      cases hStep
      exact ⟨fun inst hMem => (h.follows inst hMem).append call, h.gated⟩
  | node a =>
      obtain ⟨next, hNext, rfl⟩ := Option.map_eq_some_iff.mp hStep
      have hExtends := RevokerNode.step_extends hNext
      refine ⟨hExtends.follows h.follows, fun hServing => ?_⟩
      refine RevokerNode.step_gated (h.gated ?_) h.follows hNext hServing
      by_contra hDown
      rw [hExtends.shuttingDown (by simpa using hDown)] at hServing
      cases hServing

theorem run_serves {log : List RevokerCall} {s : FollowedLog}
    (reach : Transition.Reachable (Transition.ofStep step) { log := log } s) : Serves s :=
  reach.invariant (fun _ _ _ h hStep => step_serves h hStep)
    ⟨by simp, fun _ => RevokerNode.gated_init⟩

/-- Whenever a check consults a revoker instead of throwing, that revoker is neither destroyed
nor shut down, and if it was bootstrapped it has applied all that the coordinator had when it
accepted the engine's first subscription. A revoker that resumed from its own files may still be
behind. -/
theorem consults_caughtUp (log : List RevokerCall) {s : FollowedLog}
    (reach : Transition.Reachable (Transition.ofStep step) { log := log } s) {revoker : Nat}
    (hConsults : s.node.has = .ok revoker ∨
      ∃ (captured : RevokerNode) (middleware : RevokerNode → Except String Nat),
        captured.getMiddleware = .ok middleware ∧ middleware s.node = .ok revoker) :
    ∃ inst, s.node.instances[revoker]? = some inst ∧ inst.closed = false ∧
      (inst.bootstrapped = true → inst.CaughtUp s.log) := by
  have hServes := run_serves reach
  have hHas : s.node.has = .ok revoker := by
    rcases hConsults with hHas | ⟨captured, middleware, hMiddleware, hHandler⟩
    · exact hHas
    · rw [RevokerNode.getMiddleware_eq_ok hMiddleware] at hHandler
      exact RevokerNode.handler_eq_ok hHandler
  obtain ⟨hRevoker, hServing, hGate⟩ := RevokerNode.has_eq_ok hHas
  have hGated := hServes.gated hServing
  obtain ⟨inst, hInst, hOpen⟩ := hGated.live revoker hRevoker
  refine ⟨inst, hInst, hOpen, fun hBootstrapped => ?_⟩
  exact (hServes.follows inst (List.mem_of_getElem? hInst)).caughtUp
    (hGated.gate hGate revoker inst hRevoker hInst hBootstrapped)

/-- A node joins a coordinator with one entry and serves after its keepalive. -/
def joining : List Action :=
  [.node (.init none), .node (.snapshot 0 (.ok ⟨0, 0⟩) (.ok ())), .node (.created 0 true),
    .node (.returned 0), .node (.inst 0 (.subscribed 0)), .node (.inst 0 (.accept 0)),
    .node (.inst 0 (.deliver 0 0)), .node (.inst 0 (.keepalive 0)),
    .node (.inst 0 (.internal (.apply (.ok ()) (.ok ())))),
    .node (.inst 0 (.internal (.apply (.ok ()) (.ok ()))))]

/-- The coordinator wants it to start over, and rotates while it does. -/
def rejoining : List Action :=
  [.node (.inst 0 (.resnapshot 0)), .node (.inst 0 (.internal (.apply (.ok ()) (.ok ())))), .node .timer,
    .node (.snapshot 0 (.ok ⟨1, 0⟩) (.ok ())), .publish .rotateOnDemand, .node (.engineStopped 0 (.ok ())),
    .node (.destroyed 0 (.ok ())), .node (.created 0 true), .node (.returned 0),
    .node (.inst 1 (.subscribed 0)), .node (.inst 1 (.accept 0)), .node (.inst 1 (.deliver 0 1)),
    .node (.inst 1 (.keepalive 0)), .node (.inst 1 (.internal (.apply (.ok ()) (.ok ())))),
    .node (.inst 1 (.internal (.rotated (.ok ()) (.ok ())))),
    .node (.inst 1 (.internal (.apply (.ok ()) (.ok ()))))]

/-- A handler from before the swap consults the new revoker, which has rotated. -/
theorem consults_caughtUp_rejoined :
    ∃ served s : FollowedLog, Transition.exec step { log := [.applyEntry [97]] } joining = some served ∧
      Transition.exec step served rejoining = some s ∧
      served.node.getMiddleware = .ok RevokerNode.handler ∧ served.node.has = .ok 0 ∧
      s.node.handler = .ok 1 ∧
      ∃ inst, s.node.instances[1]? = some inst ∧ inst.closed = false ∧
        (inst.bootstrapped = true → inst.CaughtUp s.log) := by
  have hRun : ∃ served s : FollowedLog,
      Transition.exec step { log := [.applyEntry [97]] } joining = some served ∧
      Transition.exec step served rejoining = some s ∧
      served.node.getMiddleware = .ok RevokerNode.handler ∧ served.node.has = .ok 0 ∧
      s.node.handler = .ok 1 := ⟨_, _, by rfl, by rfl, by rfl, by rfl, by rfl⟩
  obtain ⟨served, s, hJoining, hRejoining, hMiddleware, hServed, hHandler⟩ := hRun
  have hReach : Transition.Reachable (Transition.ofStep step) { log := [.applyEntry [97]] } s :=
    ⟨_, (Transition.run_of_exec hJoining).trans (Transition.run_of_exec hRejoining)⟩
  exact ⟨served, s, hJoining, hRejoining, hMiddleware, hServed, hHandler,
    consults_caughtUp _ hReach (Or.inr ⟨served.node, _, hMiddleware, hHandler⟩)⟩

end FollowedLog

end TokenRevoker
