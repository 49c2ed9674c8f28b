import TokenRevoker.Node.SyncEngineSafety

/-! The node around its engines. It bootstraps from snapshots, replaces its revoker and
its engine each time, and lets a check through only where its flags allow it. Every
await is a place where anything else may happen. -/
namespace TokenRevoker

open Text

/-- `Number` on an LSN in decimal digits, where it is a safe integer. -/
def safeIntegerOf (lsn : JsString) : Option Nat :=
  (numberOf lsn).filter fun n => decide (n ≤ maxSafeInteger)

/-- The wire event that carries a canonical event. -/
def RevokerCall.toWire (lsn : Nat) (generation : Int) : RevokerCall → WireStreamEvent
  | .applyEntry item => .entry (some ⟨decimal lsn, generation, item⟩)
  | .rotateOnDemand => .rotate (some ⟨decimal lsn, generation⟩)

/-- The canonical event with this LSN, as the wire carries it. The log holds one event
for every LSN from 1 on, as the call that it asks for. -/
def canonicalEvent (log : List RevokerCall) (lsn : Nat) (generation : Int) : Option WireStreamEvent :=
  if lsn = 0 then none else log[lsn - 1]?.map (RevokerCall.toWire lsn generation)

/-- A stream and what the coordinator has sent on it. No event of the log is sent on it before
it is accepted. -/
structure OpenStream where
  /-- `lastLsn` of the coordinator when it accepted the subscription. -/
  acceptedAt : Option Nat := none
  /-- The LSN of the last event that was sent, at first the one the node resumes after. -/
  delivered : Nat
  deriving DecidableEq

/-- A core revoker and the engine that was started on it, with the engine's streams. Instances
are kept in the list after they are closed, since their engines and streams may still have
something under way. -/
structure Instance where
  /-- It was created by `#bootstrapFromSnapshot`. -/
  bootstrapped : Bool
  initialLsn : Nat
  initialGeneration : Int
  /-- `destroy` or `shutdown` of the revoker has been called. -/
  closed : Bool := false
  engine : SyncEngineProcess
  streams : List OpenStream := []
  /-- `lastLsn` of the coordinator when it accepted the first subscription. -/
  firstAccepted : Option Nat := none
  deriving DecidableEq

namespace Instance

inductive Action where
  | internal (a : SyncEngineProcess.Action)
  | subscribed (index : Nat)
  | accept (stream : Nat)
  | deliver (stream : Nat) (generation : Int)
  | keepalive (stream : Nat)
  | resnapshot (stream : Nat)
  | page (events : List (Nat × Int)) (moreAvailable : Bool)
  | resnapshotPage
  deriving DecidableEq

/-- Steps of the engine that neither the wire nor its owner takes. -/
def isInternal : SyncEngineProcess.Action → Bool
  | .subscribeFailed _ | .streamDown _ | .watchdog | .wake _ | .pollTick | .pollFailed | .pollNext
  | .apply _ _ | .rotated _ _ => true
  | .start | .subscribed _ | .data _ _ | .pollResponse _ _ | .stop => false

def create (bootstrapped : Bool) (initialLsn : Nat) (initialGeneration : Int) : Instance where
  bootstrapped := bootstrapped
  initialLsn := initialLsn
  initialGeneration := initialGeneration
  engine := (SyncEngineProcess.init initialLsn initialGeneration).trySubscribe

def engineStep (inst : Instance) (a : SyncEngineProcess.Action) : Option Instance :=
  (inst.engine.step safeIntegerOf a).map fun engine => { inst with engine := engine }

/-- A step of the engine against a coordinator. Every subscription it accepts delivers the
events after the LSN it was called with, one after the other, and a keepalive only
after those that were in the log by then. -/
def step (log : List RevokerCall) (inst : Instance) : Action → Option Instance
  | .internal a => if isInternal a then inst.engineStep a else none
  | .subscribed index =>
      (inst.engine.step safeIntegerOf (.subscribed index)).map fun engine =>
        { inst with
          engine := engine
          streams :=
            if inst.engine.opened < engine.opened then
              inst.streams ++ [{ delivered := inst.engine.subscribing.getD index 0 }]
            else inst.streams }
  | .accept stream =>
      match inst.streams[stream]? with
      | some opened =>
        if opened.acceptedAt.isSome then none
        else some { inst with
          streams := inst.streams.set stream { opened with acceptedAt := some log.length }
          firstAccepted := inst.firstAccepted <|> some log.length }
      | none => none
  | .deliver stream generation =>
      match inst.streams[stream]? with
      | some opened =>
        if opened.acceptedAt.isSome then
          (canonicalEvent log (opened.delivered + 1) generation).bind fun event =>
            ({ inst with
              streams := inst.streams.set stream { opened with delivered := opened.delivered + 1 } }
              : Instance).engineStep (.data stream event)
        else none
      | none => none
  | .keepalive stream =>
      match inst.streams[stream]? with
      | some opened =>
        match opened.acceptedAt with
        | some lastLsn => if lastLsn ≤ opened.delivered then inst.engineStep (.data stream .keepalive) else none
        | none => none
      | none => none
  | .resnapshot stream => inst.engineStep (.data stream .resnapshot)
  | .page events moreAvailable =>
      inst.engineStep (.pollResponse
        (events.filterMap fun event => canonicalEvent log event.1 event.2) moreAvailable)
  | .resnapshotPage => inst.engineStep (.pollResponse [.resnapshot] false)

/-- The step makes the engine call `onKeepaliveReceived`. -/
def receivesKeepalive (inst : Instance) : Action → Bool
  | .internal a => inst.engine.receivesKeepalive a
  | _ => false

end Instance

/-- `init`, or the timer of `#scheduleRebootstrap`. -/
inductive Caller where
  | init
  | timer
  deriving DecidableEq

/-- What a node uses of a snapshot besides its blobs. The blobs themselves play no part here. -/
structure SnapshotHeader where
  lastBackupLsn : Nat
  generation : Int
  deriving DecidableEq

/-- Where `#bootstrapFromSnapshot` is suspended: on `getSnapshot`, on `stop` of the old
engine, on `destroy` of the old revoker, on `createRevoker`; or it has returned or
thrown, and its caller is next. -/
inductive BootstrapPhase where
  | requesting
  | stopping (snapshot : SnapshotHeader)
  | destroying (snapshot : SnapshotHeader)
  | creating (snapshot : SnapshotHeader)
  | finished (ok : Bool)
  deriving DecidableEq

/-- An asynchronous function of the node that has not returned. `resuming` is `init`
suspended on `createRevoker` on the local-resume path. -/
inductive Task where
  | resuming (lastLsn : Nat) (generation : Int)
  | bootstrap (caller : Caller) (phase : BootstrapPhase)
  deriving DecidableEq

structure RevokerNode where
  instances : List Instance := []
  /-- `#revoker` and `#engine`, by the instance they belong to. -/
  revoker : Option Nat := none
  engine : Option Nat := none
  /-- `init` has been called; it is called again only after it has thrown. -/
  initialized : Bool := false
  catchingUp : Bool := false
  bootstrapping : Bool := false
  rebootstrapTimer : Bool := false
  rebootstrapPending : Bool := false
  shuttingDown : Bool := false
  tasks : List Task := []
  deriving DecidableEq

namespace RevokerNode

inductive Action where
  | init (resume : Option (Nat × Int))
  | resumed (task : Nat) (created : Bool)
  | snapshot (task : Nat) (snapshot : Except String SnapshotHeader) (installed : Except String Unit)
  | engineStopped (task : Nat) (installed : Except String Unit)
  | destroyed (task : Nat) (installed : Except String Unit)
  | created (task : Nat) (created : Bool)
  | returned (task : Nat)
  | timer
  | coreRotation
  | inst (index : Nat) (a : Instance.Action)
  | shutdown
  | shutdownEngineStopped
  | destroy
  | destroyReturned
  deriving DecidableEq

def unavailableMessage : String :=
  "Node revoker is unavailable (shutting down, re-bootstrapping or catching up) — failing closed"

/-- The revoker that `has` consults. It throws while there is none, during catch-up and after
the shutdown has begun. -/
def has (node : RevokerNode) : Except String Nat :=
  match node.revoker with
  | none => .error "Node revoker is not initialized (possibly re-bootstrapping — retry shortly)"
  | some revoker =>
    if node.shuttingDown || node.catchingUp then
      .error "Node revoker is not initialized (possibly re-bootstrapping — retry shortly)"
    else .ok revoker

/-- The revoker that a handler consults: it looks at the node anew for every request. -/
def handler (node : RevokerNode) : Except String Nat :=
  match node.revoker with
  | none => .error unavailableMessage
  | some revoker =>
    if node.shuttingDown || node.catchingUp then .error unavailableMessage else .ok revoker

/-- `getMiddleware`. -/
def getMiddleware (node : RevokerNode) : Except String (RevokerNode → Except String Nat) :=
  if node.revoker.isSome then .ok handler else .error "Node revoker is not initialized"

/-- `#scheduleRebootstrap`. One at a time: nothing is scheduled while one is pending or running.
-/
def scheduleRebootstrap (node : RevokerNode) : RevokerNode :=
  if node.shuttingDown || node.rebootstrapPending || node.bootstrapping then node
  else { node with rebootstrapPending := true, rebootstrapTimer := true }

/-- `#onRebootstrapRequired`. -/
def onRebootstrapRequired (node : RevokerNode) : RevokerNode :=
  if node.shuttingDown then node else node.scheduleRebootstrap

/-- `#engine?.isRotationExternallyDriven()`. -/
def isRotationExternallyDriven (node : RevokerNode) : Bool :=
  match node.engine.bind fun engine => node.instances[engine]? with
  | some inst => inst.engine.isRotationExternallyDriven
  | none => false

/-- `#onCoreRotation`. -/
def onCoreRotation (node : RevokerNode) : RevokerNode :=
  if node.shuttingDown then node
  else if node.isRotationExternallyDriven then node
  else node.scheduleRebootstrap

/-- `engine.stop()` up to its await. From then on the engine calls the revoker no more. -/
def stopEngine (node : RevokerNode) (index : Nat) : RevokerNode :=
  match node.instances[index]? with
  | some inst =>
    match inst.engine.step safeIntegerOf .stop with
    | some engine => { node with instances := node.instances.set index { inst with engine := engine } }
    | none => node
  | none => node

/-- The revoker is destroyed or shut down. -/
def close (node : RevokerNode) (index : Nat) : RevokerNode :=
  match node.instances[index]? with
  | some inst => { node with instances := node.instances.set index { inst with closed := true } }
  | none => node

def setTask (node : RevokerNode) (task : Nat) (next : Task) : RevokerNode :=
  { node with tasks := node.tasks.set task next }

/-- `#bootstrapFromSnapshot` returns or throws; its `finally` runs. What comes after its return
is up to the caller. -/
def finish (node : RevokerNode) (task : Nat) (caller : Caller) (ok : Bool) : RevokerNode :=
  { node.setTask task (.bootstrap caller (.finished ok)) with bootstrapping := false }

/-- The files and the sync state are replaced, then `createRevoker` is called. -/
def install (node : RevokerNode) (task : Nat) (caller : Caller) (snapshot : SnapshotHeader)
    (installed : Except String Unit) : RevokerNode :=
  match installed with
  | .ok () => node.setTask task (.bootstrap caller (.creating snapshot))
  | .error _ => node.finish task caller false

/-- The old revoker is let go before it is destroyed. -/
def teardown (node : RevokerNode) (task : Nat) (caller : Caller) (snapshot : SnapshotHeader)
    (installed : Except String Unit) : RevokerNode :=
  match node.revoker with
  | some old =>
      ({ node with revoker := none } : RevokerNode).close old |>.setTask task
        (.bootstrap caller (.destroying snapshot))
  | none => node.install task caller snapshot installed

/-- The new revoker is published and `#startEngine` starts an engine on it; only
microtasks separate the two. -/
def startEngine (node : RevokerNode) (bootstrapped : Bool) (lastLsn : Nat) (generation : Int) :
    RevokerNode :=
  { node with
    revoker := some node.instances.length
    engine := some node.instances.length
    instances := node.instances ++ [Instance.create bootstrapped lastLsn generation] }

/-- A step of an engine, with the callbacks it makes. -/
def instanceStep (node : RevokerNode) (log : List RevokerCall) (index : Nat) (a : Instance.Action) :
    Option RevokerNode :=
  match node.instances[index]? with
  | none => none
  | some inst =>
    (inst.step log a).map fun next =>
      let stepped : RevokerNode := { node with
        instances := node.instances.set index next
        catchingUp := if inst.receivesKeepalive a then false else node.catchingUp }
      if next.engine.rebootstrapFired && !inst.engine.rebootstrapFired then stepped.onRebootstrapRequired
      else stepped

/-- `shutdown` up to its first await. -/
def shutdown (node : RevokerNode) : RevokerNode :=
  let marked : RevokerNode :=
    { node with shuttingDown := true, rebootstrapTimer := false, rebootstrapPending := false }
  match node.engine with
  | some engine => marked.stopEngine engine
  | none =>
    match node.revoker with
    | some revoker => marked.close revoker
    | none => marked

/-- One synchronous stretch of the node, `none` where it cannot run now. -/
def step (log : List RevokerCall) (node : RevokerNode) : Action → Option RevokerNode
  | .init resume =>
      if node.initialized then none
      else
        let begun : RevokerNode := { node with initialized := true }
        match resume with
        | some (lastLsn, generation) =>
            some { begun with tasks := node.tasks ++ [.resuming lastLsn generation] }
        | none =>
            some { begun with
              bootstrapping := true
              tasks := node.tasks ++ [.bootstrap .init .requesting] }
  | .resumed task created =>
      match node.tasks[task]? with
      | some (.resuming lastLsn generation) =>
          let ended : RevokerNode := { node with tasks := node.tasks.eraseIdx task }
          if created then some (ended.startEngine false lastLsn generation)
          else some { ended with initialized := false }
      | _ => none
  | .snapshot task snapshot installed =>
      match node.tasks[task]? with
      | some (.bootstrap caller .requesting) =>
          match snapshot with
          -- the call failed, or the geometry is another one
          | .error _ => some (node.finish task caller false)
          | .ok snapshot =>
              let gated : RevokerNode := { node with catchingUp := true }
              match node.engine with
              | some engine =>
                  some ((gated.stopEngine engine).setTask task (.bootstrap caller (.stopping snapshot)))
              | none => some (gated.teardown task caller snapshot installed)
      | _ => none
  | .engineStopped task installed =>
      match node.tasks[task]? with
      | some (.bootstrap caller (.stopping snapshot)) =>
          some (({ node with engine := none } : RevokerNode).teardown task caller snapshot installed)
      | _ => none
  | .destroyed task installed =>
      match node.tasks[task]? with
      | some (.bootstrap caller (.destroying snapshot)) => some (node.install task caller snapshot installed)
      | _ => none
  | .created task created =>
      match node.tasks[task]? with
      | some (.bootstrap caller (.creating snapshot)) =>
          if created then
            some ((node.startEngine true snapshot.lastBackupLsn snapshot.generation).finish task caller true)
          else some (node.finish task caller false)
      | _ => none
  | .returned task =>
      match node.tasks[task]? with
      | some (.bootstrap caller (.finished ok)) =>
          let ended : RevokerNode := { node with tasks := node.tasks.eraseIdx task }
          match caller, ok with
          | .init, true => some ended
          | .init, false => some { ended with initialized := false }
          | .timer, true => some { ended with rebootstrapPending := false }
          | .timer, false =>
              some ({ ended with rebootstrapPending := false } : RevokerNode).scheduleRebootstrap
      | _ => none
  | .timer =>
      if node.rebootstrapTimer then
        let fired : RevokerNode := { node with rebootstrapTimer := false }
        if node.shuttingDown then some { fired with rebootstrapPending := false }
        else some { fired with
          bootstrapping := true
          tasks := node.tasks ++ [.bootstrap .timer .requesting] }
      else none
  | .coreRotation => if node.instances.isEmpty then none else some node.onCoreRotation
  | .inst index a => node.instanceStep log index a
  | .shutdown => if node.shuttingDown then some node else some node.shutdown
  | .shutdownEngineStopped =>
      if node.shuttingDown then
        match node.revoker with
        | some revoker => some (({ node with engine := none } : RevokerNode).close revoker)
        | none => some { node with engine := none }
      else none
  | .destroy =>
      if node.shuttingDown then
        match node.revoker with
        | some revoker => some (node.close revoker)
        | none => some node
      else some node.shutdown
  | .destroyReturned => if node.shuttingDown then some { node with revoker := none } else none

end RevokerNode

end TokenRevoker
