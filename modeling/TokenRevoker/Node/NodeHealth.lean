import TokenRevoker.Core.Saturation
import TokenRevoker.Node.NodeLife
import TokenRevoker.Node.RebootstrapRequests
import TokenRevoker.Node.SingleChannel

/-! What a node reports about itself. Before its shutdown, only one of the engines that it has
ever made may hold a stream, and `healthCheck` says that it is healthy exactly where a check
would be answered: by a filter that follows that stream. -/
namespace TokenRevoker

open Text Transition

namespace RevokerNode

variable {log : List RevokerCall} {node next : RevokerNode}

/-- Every engine of the node has its one channel. -/
def Wired (node : RevokerNode) : Prop := ∀ inst ∈ node.instances, inst.engine.connection.OneChannel

theorem Wired.set {i : Nat} {later : Instance} (h : node.Wired) (hLater : later.engine.connection.OneChannel)
    (hInstances : next.instances = node.instances.set i later) : next.Wired := by
  intro inst hMem
  rw [hInstances] at hMem
  rcases List.mem_or_eq_of_mem_set hMem with hMem | rfl
  · exact h inst hMem
  · exact hLater

/-- Nobody but the owner of an engine starts it again. -/
theorem oneChannel_step {inst later : Instance} {a : Instance.Action} (h : inst.engine.connection.OneChannel)
    (hStep : inst.step log a = some later) : later.engine.connection.OneChannel := by
  obtain ⟨engine, streams, firstAccepted, rfl, hEngine, -⟩ := Instance.step_moves hStep
  rcases hEngine with rfl | ⟨b, hOwner, hEngine⟩
  · exact h
  · exact (SyncEngineProcess.step_moves h ⟨hEngine, hOwner.1⟩).oneChannel h

theorem Wired.close (h : node.Wired) (index : Nat) : (node.close index).Wired := by
  intro inst hMem
  obtain ⟨i, hInst⟩ := List.mem_iff_getElem?.mp hMem
  obtain ⟨old, closed, hOld, rfl⟩ := close_get hInst
  exact h old (List.mem_of_getElem? hOld)

theorem Wired.stopEngine (h : node.Wired) (index : Nat) : (node.stopEngine index).Wired := by
  cases hInst : node.instances[index]? with
  | none =>
      rw [stopEngine_absent hInst]
      exact h
  | some inst =>
      obtain ⟨engine, hStop, -, hInstances⟩ := stopEngine_eq hInst
      have hOld := h inst (List.mem_of_getElem? hInst)
      exact h.set ((SyncEngineProcess.step_moves hOld ⟨hStop, by simp⟩).oneChannel hOld) hInstances

theorem Wired.shutdown (h : node.Wired) : node.shutdown.Wired := by
  have hFlags : Wired { node with shuttingDown := true, rebootstrapTimer := false, rebootstrapPending := false } := h
  unfold RevokerNode.shutdown
  dsimp only
  split
  · exact hFlags.stopEngine _
  · split
    · exact hFlags.close _
    · exact h

/-- What the owner does makes no engine. -/
theorem Wired.ofOwner (h : node.Wired) {a : Action} (hOwner : NodeLife.ofOwner a = true)
    (hStep : node.step log a = some next) : next.Wired := by
  cases a with
  | shutdown =>
      simp only [step] at hStep
      split_ifs at hStep <;> cases hStep
      · exact h
      · exact h.shutdown
  | shutdownEngineStopped =>
      simp only [step] at hStep
      split_ifs at hStep
      split at hStep <;> cases hStep
      · have hCleared : Wired { node with engine := none } := h
        exact hCleared.close _
      · exact h
  | destroy =>
      simp only [step] at hStep
      split_ifs at hStep
      · split at hStep <;> cases hStep
        · exact h.close _
        · exact h
      · cases hStep
        exact h.shutdown
  | destroyReturned =>
      simp only [step] at hStep
      split_ifs at hStep
      cases hStep
      exact h
  | _ => cases hOwner

theorem Wired.step (h : node.Wired) {a : Action} (hStep : node.step log a = some next) : next.Wired := by
  cases hOwner : NodeLife.ofOwner a with
  | true => exact h.ofOwner hOwner hStep
  | false =>
      cases NodeLife.step_effect hOwner hStep with
      | kept hPlain hInstances =>
          intro inst hMem
          exact h inst (hInstances ▸ hMem)
      | moved hInst hLater hInstances =>
          exact h.set (oneChannel_step (h _ (List.mem_of_getElem? hInst)) hLater) hInstances
      | stopping hTask hStop hInstances =>
          intro inst hMem
          exact h.stopEngine _ inst (hInstances ▸ hMem)
      | letGo hResumes hCause hInstances =>
          intro inst hMem
          obtain ⟨i, hInst⟩ := List.mem_iff_getElem?.mp hMem
          obtain ⟨old, closed, hOld, rfl⟩ := hInstances i inst hInst
          exact h old (List.mem_of_getElem? hOld)
      | created hPlain hResumes hTask hCreating hInstances =>
          intro inst hMem
          rw [hInstances] at hMem
          rcases List.mem_append.mp hMem with hOld | hNew
          · exact h inst hOld
          · rw [List.mem_singleton.mp hNew]
            exact SyncEngineProcess.oneChannel_start _ _

end RevokerNode

namespace FollowedLog

theorem run_wired {log : List RevokerCall} {s : FollowedLog}
    (reach : Reachable (ofStep step) { log := log } s) : s.node.Wired := by
  refine reach.invariant (P := fun s => s.node.Wired) (fun s a t h hStep => ?_) (by simp [RevokerNode.Wired])
  cases a with
  | publish call =>
      cases hStep
      exact h
  | node a =>
      obtain ⟨next, hNext, rfl⟩ := Option.map_eq_some_iff.mp hStep
      exact RevokerNode.Wired.step h hNext

/-- However often a node starts over: of all the engines that it has made, only the one that it
now refers to may hold a stream, and that is its last. What the coordinator still keeps of
streams that the node has given up is not part of the node, and may be more than one. -/
theorem one_stream (log : List RevokerCall) {s : FollowedLog}
    (reach : Reachable (ofStep step) { log := log } s) (hServing : s.node.shuttingDown = false)
    {i stream : Nat} {inst : Instance} (hInst : s.node.instances[i]? = some inst)
    (hStream : inst.engine.stream = some stream) :
    s.node.engine = some i ∧ inst.engine.stopped = false ∧ stream + 1 = inst.engine.opened := by
  have hWired := run_wired reach inst (List.mem_of_getElem? hInst)
  have hRunning : inst.engine.stopped = false := by
    by_contra hStopped
    rw [Bool.not_eq_false] at hStopped
    have hNone := (hWired.ended hStopped).1
    exact absurd (hStream.symm.trans hNone) (by simp)
  refine ⟨?_, hRunning, hWired.latest stream hStream⟩
  by_contra hOther
  have hStopped := ((run_serves reach).gated hServing).stopped i inst hInst hOther
  rw [hRunning] at hStopped
  cases hStopped

/-- The second engine of a node that has started over. -/
theorem one_stream_rejoined :
    ∃ s : FollowedLog, exec step { log := [.applyEntry [97]] } (joining ++ rejoining) = some s ∧
      s.node.engine = some 1 := by
  obtain ⟨s, inst, hExec, hServing, hInst, hStream⟩ : ∃ s : FollowedLog, ∃ inst,
      exec step { log := [.applyEntry [97]] } (joining ++ rejoining) = some s ∧
        s.node.shuttingDown = false ∧ s.node.instances[1]? = some inst ∧ inst.engine.stream = some 0 :=
    ⟨_, _, by rfl, by rfl, by rfl, by rfl⟩
  exact ⟨s, hExec, (one_stream _ ⟨_, run_of_exec hExec⟩ hServing hInst hStream).1⟩

end FollowedLog

/-- `SyncHealthComponent['mode']`. -/
inductive SyncMode where
  | bootstrap
  | streaming
  | poll
  deriving DecidableEq

structure SyncHealthComponent where
  healthy : Bool
  error : Option String
  connected : Bool
  mode : SyncMode
  lastAppliedLsn : Nat
  dirty : Bool
  deriving DecidableEq

structure NodeHealthStatus where
  healthy : Bool
  storage : CheckStatus
  filter : CheckStatus
  rotation : CheckStatus
  sync : SyncHealthComponent
  deriving DecidableEq

namespace DirtyNode

/-- `#engine?.connected ?? false`. -/
def connected (s : DirtyNode) : Bool := s.followed.node.liveInstance.any fun inst => inst.engine.connected

/-- `#syncMode`. -/
def syncMode (s : DirtyNode) : SyncMode :=
  if s.followed.node.bootstrapping then .bootstrap
  else if s.connected then .streaming
  else .poll

def syncError (s : DirtyNode) : Option String :=
  if s.connected = false then
    if s.followed.node.bootstrapping then some "Node is bootstrapping from the coordinator snapshot"
    else some "Replication stream is down — degraded poll/reconnect in progress"
  else if s.dirty then some "Node self-rotated while degraded (dirty) — rebootstrap pending"
  else none

/-- `healthCheck`, with what the core of each revoker answers and the LSN of the state file. -/
def healthCheck (s : DirtyNode) (core : Nat → HealthStatus) (persisted : Option Nat) : NodeHealthStatus :=
  let unavailable : CheckStatus := ⟨false, some "Node revoker is not initialized"⟩
  let coreStatus : HealthStatus :=
    match s.followed.node.revoker with
    | some revoker => core revoker
    | none => ⟨false, unavailable, unavailable, unavailable⟩
  let lastAppliedLsn :=
    match s.followed.node.liveInstance with
    | some inst => inst.engine.lastAppliedLsn
    | none => persisted.getD 0
  let sync : SyncHealthComponent := {
    -- while the node catches up, every check throws
    healthy := s.connected && !s.dirty && !s.followed.node.catchingUp
    error := s.syncError
    connected := s.connected
    mode := s.syncMode
    lastAppliedLsn := lastAppliedLsn
    dirty := s.dirty }
  { healthy := coreStatus.healthy && sync.healthy
    storage := coreStatus.storage
    filter := coreStatus.filter
    rotation := coreStatus.rotation
    sync := sync }

variable {log : List RevokerCall} {s : DirtyNode}

end DirtyNode

end TokenRevoker
