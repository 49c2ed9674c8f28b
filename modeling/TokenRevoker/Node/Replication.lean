import TokenRevoker.Node.Backlog
import TokenRevoker.Node.Channels

/-! A coordinator with nodes that joined it while its log was empty: the log, the write
chains of the subscriptions and the answers to polls on one side, the whole engines on
the filters of their nodes on the other. Nothing fails and no node rotates by itself;
streams break at any place and polls overlap with them. -/
namespace TokenRevoker

open Text LsnContiguity

/-- What the engine waits for with a poll: the events after this LSN. -/
def SyncEngineProcess.requested (s : SyncEngineProcess) : Option Nat :=
  match s.polling with
  | some (.requesting fromLsn _) => some fromLsn
  | _ => none

/-- The call of the revoker that an event comes to. -/
def Verdict.call : Verdict → Option RevokerCall
  | .entry _ item => some (.applyEntry item)
  | .rotate _ => some .rotateOnDemand
  | .skip | .rebootstrap _ => none

/-- The call that the next event of the chain comes to. -/
def SyncEngineProcess.nextCall (s : SyncEngineProcess) : Option RevokerCall :=
  match s.rotating, s.chain with
  | none, enqueued :: _ =>
    if s.stopped || s.rebootstrapFired then none
    else (s.check safeIntegerOf enqueued.event).call
  | _, _ => none

/-- Steps of the engine in which nothing arrives and nothing is applied. -/
def SyncEngineProcess.Action.isSilent : SyncEngineProcess.Action → Bool
  | .data _ _ | .pollResponse _ _ | .apply _ _ | .rotated _ _ => false
  | .start | .subscribed _ | .subscribeFailed _ | .streamDown _ | .watchdog | .wake _ | .pollTick
  | .pollFailed | .pollNext | .stop => true

/-- A call of the engine, up to where it returns or is suspended. A rotation only asks for the
mutex here; core goes on with it by steps of its own. -/
def Store.call {g : Geometry} (s : Store g) : RevokerCall → Store g × Except String Unit
  | .applyEntry item =>
    match s.applyEntry [] item with
    | (s, .ok ()) => (s, .ok ())
    | (s, .error error) => (s, .error error.message)
  | .rotateOnDemand => ({ s with waiting := s.waiting + 1 }, .ok ())

/-- A stream of a node, with the server's end of it. `delivered` counts a prefix of what was
written: messages of one stream are neither lost nor reordered, but the stream may end before
the last of them. -/
structure NodeStream where
  requested : Nat
  /-- None until the server turns to the call. -/
  connection : Option NodeConnection := none
  /-- How many of the messages that were written have reached the node. -/
  delivered : Nat := 0
  deriving DecidableEq

namespace NodeStream

/-- What the server does on a stream. -/
inductive Action where
  | accept
  | work
  | keepalive
  | close
  deriving DecidableEq

def step (c : Coordinator) (stream : NodeStream) : Action → Option NodeStream
  | .accept =>
      if stream.connection.isSome then none
      else some { stream with connection := some (c.subscribe stream.requested) }
  | .work =>
      (stream.connection.bind fun connection => connection.work c).map fun connection =>
        { stream with connection := some connection }
  | .keepalive =>
      stream.connection.map fun connection => { stream with
        connection := some (connection.enqueue (.keepalive c.lastLsn c.metaState.generation)) }
  | .close => stream.connection.map fun connection => { stream with connection := some connection.close }

/-- The broadcast of these events. A call that the server has not turned to yet gets none of
them. -/
def enqueue (stream : NodeStream) (events : List OutboundEvent) : NodeStream :=
  { stream with
    connection := stream.connection.map fun connection => events.foldl NodeConnection.enqueue connection }

/-- The messages that were written, as the node reads them. What is written is not yet
delivered. -/
def sent (wire : Wire) (stream : NodeStream) : List StreamEvent :=
  (stream.connection.elim [] NodeConnection.written).map (outboundToStreamEvent wire)

end NodeStream

/-- A node: its engine and its filters, its streams, and the answer to a poll that is on
its way. -/
structure Replica (g : Geometry) where
  engine : SyncEngineProcess
  revoker : Store g
  /-- `rotateOnDemand` has swapped the filters, and its caller has not gone on yet. -/
  swapped : Bool := false
  streams : List NodeStream := []
  answer : Option (List StreamEvent × Bool) := none
  deriving DecidableEq

namespace Replica

variable {g : Geometry}

inductive Action (g : Geometry) where
  | silent (action : SyncEngineProcess.Action)
  | stream (index : Nat) (action : NodeStream.Action)
  | deliver (index : Nat)
  | servePoll (maxEvents : Option Nat)
  | pollResponse
  | apply
  | core (action : Store.Action g)
  | swap
  | rotated

/-- `#bootstrapFromSnapshot` on whatever files there are, with the engine it starts. -/
def join (g : Geometry) (numItems : Nat) (periodic : Bool) (files : NodeFiles) (snapshot : SnapshotData) :
    Replica g where
  engine := (SyncEngineProcess.init snapshot.lastBackupLsn snapshot.generation).trySubscribe
  revoker := Store.boot g numItems periodic
    ((NodeFiles.bootstrapSteps snapshot).foldl (fun files step => step files) files).disk

/-- One synchronous stretch of a node, or of the server for it. The engine, the server and core
are interleaved at will: `none` only says that this step cannot come now. -/
def step (wire : Wire) (c : Coordinator) (r : Replica g) : Action g → Option (Replica g)
  | .silent action =>
      if action.isSilent then
        (r.engine.step safeIntegerOf action).map fun engine => { r with
          engine := engine
          answer := if action = .pollFailed then none else r.answer
          streams := match action with
            | .subscribed index =>
              if r.engine.opened < engine.opened then
                r.streams ++ [{ requested := r.engine.subscribing.getD index 0 }]
              else r.streams
            | _ => r.streams }
      else none
  | .stream index action =>
      (r.streams[index]?.bind fun stream => stream.step c action).map fun stream =>
        { r with streams := r.streams.set index stream }
  | .deliver index =>
      r.streams[index]?.bind fun stream => (stream.sent wire)[stream.delivered]?.bind fun event =>
        (r.engine.step safeIntegerOf (.data index event.toWire)).map fun engine => { r with
          engine := engine
          streams := r.streams.set index { stream with delivered := stream.delivered + 1 } }
  | .servePoll maxEvents =>
      if r.answer.isSome then none
      else r.engine.requested.bind fun fromLsn =>
        match c.pollDeltas wire fromLsn maxEvents with
        | .ok answer => some { r with answer := some answer }
        | .error _ => none
  | .pollResponse =>
      r.answer.bind fun answer =>
        (r.engine.step safeIntegerOf (.pollResponse (answer.1.map StreamEvent.toWire) answer.2)).map
          fun engine => { r with engine := engine, answer := none }
  | .apply =>
      let (revoker, applied) :=
        match r.engine.nextCall with
        | some call => r.revoker.call call
        | none => (r.revoker, .ok ())
      (r.engine.step safeIntegerOf (.apply applied (.ok ()))).map fun engine =>
        { r with engine := engine, revoker := revoker }
  | .core action =>
      if action.isProgress then
        (r.revoker.step action).map fun revoker => { r with revoker := revoker }
      else none
  | .swap =>
      if r.engine.rotating.isSome && !r.swapped then
        (r.revoker.step .swap).map fun revoker => { r with revoker := revoker, swapped := true }
      else none
  | .rotated =>
      if r.swapped then
        (r.engine.step safeIntegerOf (.rotated (.ok ()) (.ok ()))).map fun engine =>
          { r with engine := engine, swapped := false }
      else none

/-- The broadcast of these events to all streams of the node. -/
def enqueue (r : Replica g) (events : List OutboundEvent) : Replica g :=
  { r with streams := r.streams.map fun stream => stream.enqueue events }

end Replica

structure Replication (g : Geometry) where
  log : LoggedCoordinator
  replicas : List (Replica g)
  deriving DecidableEq

namespace Replication

variable {g : Geometry}

inductive Action (g : Geometry) where
  | add (applied : Except RevokerError Unit) (item : JsString)
  | rotation (unlinkFails : Nat → Bool)
  | node (index : Nat) (action : Replica.Action g)

/-- The coordinator goes on, and what its listener is passed is broadcast. -/
def broadcast (t : Replication g) (log : LoggedCoordinator) : Replication g where
  log := log
  replicas := t.replicas.map fun r =>
    r.enqueue (log.coordinator.sent.drop t.log.coordinator.sent.length)

def step (wire : Wire) (t : Replication g) : Action g → Option (Replication g)
  | .add applied item => some (t.broadcast (t.log.add applied item))
  | .rotation unlinkFails => some (t.broadcast (t.log.rotation unlinkFails))
  | .node index action =>
      (t.replicas[index]?.bind fun r => r.step wire t.log.coordinator action).map fun r =>
        { t with replicas := t.replicas.set index r }

/-- What a coordinator serves whose log and blobs are empty. -/
def emptySnapshot (g : Geometry) (config : FilterConfig) : SnapshotData :=
  ⟨[], [], 0, 0, config.numItems, config.fpRate, g.k, config.rotateTime⟩

/-- A coordinator with an empty log, and nodes that have joined it on these files. The files may
hold anything; joining replaces them. -/
def start (g : Geometry) (id walDir : String) (config : FilterConfig) (periodic : Bool)
    (files : List NodeFiles) : Replication g where
  log := LoggedCoordinator.start id walDir
  replicas := files.map fun files => .join g config.numItems periodic files (emptySnapshot g config)

/-- Retention deletes nothing that a running drain has yet to read. A stream without one asks
for nothing. -/
def Retains (t : Replication g) : Action g → Prop
  | .rotation unlinkFails => ∀ r ∈ t.replicas, ∀ stream ∈ r.streams, ∀ connection ∈ stream.connection,
      ∀ cursor ∈ connection.readCursor,
        (t.log.rotation unlinkFails).coordinator.canonical.deletedMaxLsn ≤ cursor
  | _ => True

def Steps (g : Geometry) (wire : Wire) : Replication g → Action g → Replication g → Prop :=
  Transition.restrict (Transition.ofStep (step wire)) Retains

end Replication

end TokenRevoker
