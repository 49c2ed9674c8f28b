import Mathlib.Data.List.AList
import TokenRevoker.Server.Delivery

/-! The streams of the coordinator's gRPC service: the registry of the nodes, the
connections of the server, and the callbacks of gRPC that change both, in whatever order
they come. -/
namespace TokenRevoker

open Text Transition LsnContiguity

/-- `NodeEntryView`. -/
structure NodeEntryView where
  nodeId : JsString
  lastLsn : Nat
  lastSeenMs : Nat
  connected : Bool
  deriving DecidableEq

/-- `InternalNodeEntry`, whose connection is one of those that the server has made. -/
structure NodeEntry extends NodeEntryView where
  connection : Nat
  deriving DecidableEq

/-- An id as text; ids are ASCII. -/
def idText (id : JsString) : String := String.ofList (id.map fun unit => Char.ofNat unit.toNat)

/-- `NodeRegistry`. There is no map before `init` and after `destroy`. An entry refers to its
connection by number, as the server counts them. -/
structure NodeRegistry where
  nodes : Option (AList fun _ : JsString => NodeEntry) := none

namespace NodeRegistry

def notInitialized : RevokerError := .internalError "Node registry is not initialized"

def activeStream (nodeId : JsString) : RevokerError :=
  let text := idText nodeId
  .validationError s!"Node \"{text}\" is already registered with an active stream"

def init (r : NodeRegistry) : Except RevokerError NodeRegistry :=
  match r.nodes with
  | some _ => .error (.internalError "Node registry is already initialized")
  | none => .ok { nodes := some ∅ }

def requireMap (r : NodeRegistry) : Except RevokerError (AList fun _ : JsString => NodeEntry) :=
  match r.nodes with
  | some nodes => .ok nodes
  | none => .error notInitialized

def registerNode (r : NodeRegistry) (nodeId : JsString) (connection now : Nat) :
    Except RevokerError NodeRegistry := do
  let nodes ← r.requireMap
  if (nodes.lookup nodeId).any fun existing => existing.connected then .error (activeStream nodeId)
  else return { nodes := some (nodes.insert nodeId {
    nodeId := nodeId
    lastLsn := 0
    lastSeenMs := now
    connected := true
    connection := connection }) }

def unregisterNode (r : NodeRegistry) (nodeId : JsString) : Except RevokerError NodeRegistry := do
  let nodes ← r.requireMap
  return { nodes := some (nodes.erase nodeId) }

def findNode (r : NodeRegistry) (nodeId : JsString) : Except RevokerError (Option NodeEntryView) := do
  let nodes ← r.requireMap
  return (nodes.lookup nodeId).map NodeEntry.toNodeEntryView

def recordSent (r : NodeRegistry) (nodeId : JsString) (lsn now : Nat) : Except RevokerError NodeRegistry := do
  let nodes ← r.requireMap
  match nodes.lookup nodeId with
  | none => return r
  | some entry => return { nodes := some (nodes.insert nodeId { entry with
      lastLsn := max lsn entry.lastLsn
      lastSeenMs := now }) }

def touch (r : NodeRegistry) (nodeId : JsString) (now : Nat) : Except RevokerError NodeRegistry := do
  let nodes ← r.requireMap
  match nodes.lookup nodeId with
  | none => return r
  | some entry => return { nodes := some (nodes.insert nodeId { entry with lastSeenMs := now }) }

end NodeRegistry

/-- `try { … } catch {}` around a change of the registry. What is thrown there leaves the
registry as it was. -/
def orSame (r : NodeRegistry) : Except RevokerError NodeRegistry → NodeRegistry
  | .ok r' => r'
  | .error _ => r

namespace NodeConnection

/-- The LSN that the first task records once its message is through. A keepalive has none. -/
def delivered (c : NodeConnection) : Option Nat :=
  match c.waiting, c.tasks with
  | true, .drain _ (event :: _) :: _ => some event.lsn
  | true, .write event :: _ => lsnOf event
  | _, _ => none

/-- The first task has thrown. -/
def dropTask (c : NodeConnection) : NodeConnection := { c with tasks := c.tasks.tail, waiting := false }

end NodeConnection

/-- `NodeConnectionImpl` around its write chain, with the listeners of its call. -/
structure NodeConnectionImpl where
  nodeId : JsString
  connection : NodeConnection
  keepaliveTimer : Bool := false
  /-- The listeners abort the connection; those of a registered one close it. -/
  rejected : Bool := false
  /-- How often `onCleanup` has run. -/
  cleanups : Nat := 0
  deriving DecidableEq

/-- `close` up to `onCleanup`, which it counts. Nothing asks here whether it is closed already;
its callers do. -/
def NodeConnectionImpl.close (stream : NodeConnectionImpl) : NodeConnectionImpl :=
  { stream with
    connection := stream.connection.close
    keepaliveTimer := false
    cleanups := stream.cleanups + 1 }

/-- `toLsn` of an `int64`: what is negative or beyond the safe integers is refused. -/
def toLsn (value : Int) : Option Nat :=
  if value < 0 ∨ 2 ^ 53 ≤ value then none else some value.toNat

/-- How `Subscribe` answers the call. Only in the last case does the call stay open. -/
inductive SubscribeReply where
  | invalidArgument (message : String)
  | resnapshot (generation : Nat)
  | alreadyExists (message : String)
  | streaming
  deriving DecidableEq

/-- A server that has been started. `made` are the connections there have been, and
`connections` is `#connections`. -/
structure DistributedServer where
  coordinator : Coordinator
  /-- The coordinator's listener is `#broadcast`. -/
  listening : Bool
  registry : NodeRegistry
  made : List NodeConnectionImpl := []
  connections : List Nat := []

namespace DistributedServer

inductive Action where
  | add (append : Option String) (applied : Except RevokerError Unit) (tombstone : Option String)
      (item : JsString)
  | rotation (append metaWrite : Option String) (unlinkFails : Nat → Bool)
  | subscribe (nodeId : JsString) (lastLsn : Int) (now : Nat)
  /-- `cancelled` or `close` of a call. -/
  | ended (k : Nat)
  | work (k now : Nat)
  /-- The running task throws. -/
  | fail (k : Nat)
  | keepalive (k now : Nat)
  | stop

/-- `cleanup` of a connection that was registered. Other connections and other nodes keep what
they have. -/
def cleanup (s : DistributedServer) (k : Nat) (nodeId : JsString) : DistributedServer :=
  { s with
    connections := s.connections.filter (· ≠ k)
    registry := orSame s.registry (s.registry.unregisterNode nodeId) }

def setStream (s : DistributedServer) (k : Nat) (stream : NodeConnectionImpl) : DistributedServer :=
  { s with made := s.made.set k stream }

def close (s : DistributedServer) (k : Nat) : DistributedServer :=
  match s.made[k]? with
  | none => s
  | some stream =>
    if stream.connection.closed then s
    else (s.setStream k stream.close).cleanup k stream.nodeId

def abortUnregistered (s : DistributedServer) (k : Nat) : DistributedServer :=
  match s.made[k]? with
  | none => s
  | some stream =>
    if stream.connection.closed then s
    else s.setStream k { stream with connection := stream.connection.close }

/-- `Subscribe`. The registry is asked only once the arguments are in order and the log can
serve the LSN. A refused node gets a connection of its own, which is aborted at once. -/
def subscribe (s : DistributedServer) (nodeId : JsString) (lastLsn : Int) (now : Nat) :
    DistributedServer × SubscribeReply :=
  if idPattern nodeId = false then
    (s, .invalidArgument "nodeId must match [a-zA-Z0-9][a-zA-Z0-9_-]\x7b0,63\x7d")
  else match toLsn lastLsn with
  | none => (s, .invalidArgument "lastLsn must be a non-negative integer")
  | some requestedLsn =>
    if s.coordinator.canServeFrom requestedLsn = false then
      (s, .resnapshot s.coordinator.metaState.generation)
    else match s.registry.registerNode nodeId s.made.length now with
    | .error error =>
        let stream : NodeConnectionImpl :=
          { nodeId := nodeId, connection := { lastWrittenLsn := requestedLsn }, rejected := true }
        (abortUnregistered { s with made := s.made ++ [stream] } s.made.length, .alreadyExists error.message)
    | .ok registry =>
        let stream : NodeConnectionImpl :=
          { nodeId := nodeId
            connection := .subscribe requestedLsn s.coordinator.lastLsn s.coordinator.metaState.generation
            keepaliveTimer := true }
        ({ s with
          registry := registry
          made := s.made ++ [stream]
          connections := s.connections ++ [s.made.length] }, .streaming)

/-- The listeners of `cancelled` and `close`. Both may come for one call, in any order, and also
after the connection was closed. -/
def ended (s : DistributedServer) (k : Nat) : DistributedServer :=
  match s.made[k]? with
  | none => s
  | some stream => if stream.rejected then s.abortUnregistered k else s.close k

/-- The chain of a connection goes on to its next `await`. What a task throws, its
`recordSent` included, closes the connection. -/
def work (s : DistributedServer) (k now : Nat) : Option DistributedServer := do
  let stream ← s.made[k]?
  let connection ← stream.connection.work s.coordinator
  match stream.connection.delivered with
  | some lsn =>
    match s.registry.recordSent stream.nodeId lsn now with
    | .ok registry =>
        return { s.setStream k { stream with connection := connection } with registry := registry }
    | .error _ =>
        let thrown := { stream.connection.dropTask with lastWrittenLsn := connection.lastWrittenLsn }
        return (s.setStream k { stream with connection := thrown }).close k
  | none =>
    if connection.closed then
      let thrown := { connection with closed := stream.connection.closed }
      return (s.setStream k { stream with connection := thrown }).close k
    else return s.setStream k { stream with connection := connection }

/-- The write of the running task, or its read of the log, throws. Nothing of the task is
recorded as sent. -/
def fail (s : DistributedServer) (k : Nat) : Option DistributedServer := do
  let stream ← s.made[k]?
  guard (stream.connection.tasks ≠ [] ∧ stream.connection.waiting = false ∧ stream.connection.closed = false)
  return (s.setStream k { stream with connection := stream.connection.dropTask }).close k

/-- The callback of the keepalive timer. The event joins the queue of the chain like any other.
-/
def keepalive (s : DistributedServer) (k now : Nat) : Option DistributedServer := do
  let stream ← s.made[k]?
  guard (stream.keepaliveTimer = true)
  let event : OutboundEvent := .keepalive s.coordinator.lastLsn s.coordinator.metaState.generation
  return { s.setStream k { stream with connection := stream.connection.enqueue event } with
    registry := orSame s.registry (s.registry.touch stream.nodeId now) }

/-- `#broadcast` of what the coordinator has passed to its listener since. Connections that the
server does not hold any more get nothing. -/
def broadcast (s : DistributedServer) (coordinator : Coordinator) : DistributedServer :=
  let events := coordinator.sent.drop s.coordinator.sent.length
  { s with
    coordinator := coordinator
    made := s.made.mapIdx fun k stream =>
      if s.listening ∧ k ∈ s.connections then
        { stream with connection := events.foldl NodeConnection.enqueue stream.connection }
      else stream }

/-- `destroy` of the registry, and `null` in the place of its map. -/
def destroyRegistry (s : DistributedServer) : DistributedServer :=
  match s.registry.nodes with
  | none => s
  | some nodes =>
      { (nodes.entries.map fun entry => entry.2.connection).foldl close s with registry := {} }

/-- `stop`. The listener goes first, then the connections are closed, then the registry. -/
def stop (s : DistributedServer) : DistributedServer :=
  let closed := s.connections.foldl close { s with listening := false }
  destroyRegistry { closed with connections := [] }

def step (s : DistributedServer) : Action → Option DistributedServer
  | .add append applied tombstone item => some (s.broadcast (s.coordinator.add append applied tombstone item).1)
  | .rotation append metaWrite unlinkFails =>
      some (s.broadcast (s.coordinator.onCoreRotation append metaWrite unlinkFails).1)
  | .subscribe nodeId lastLsn now => some (s.subscribe nodeId lastLsn now).1
  | .ended k => some (s.ended k)
  | .work k now => s.work k now
  | .fail k => s.fail k
  | .keepalive k now => s.keepalive k now
  | .stop => some s.stop

/-- `start` has returned. -/
def start (coordinator : Coordinator) : DistributedServer where
  coordinator := coordinator
  listening := true
  registry := orSame {} (NodeRegistry.init {})

/-- What the callbacks and the chain of one connection do. -/
def Action.concerns (k : Nat) : Action → Bool
  | .ended j | .fail j | .work j _ | .keepalive j _ => j = k
  | .add _ _ _ _ | .rotation _ _ _ | .subscribe _ _ _ | .stop => false

/-- The connection serves a node. -/
def Serves (s : DistributedServer) (k : Nat) (nodeId : JsString) : Prop :=
  k ∈ s.connections ∧ ∃ stream, s.made[k]? = some stream ∧ stream.nodeId = nodeId ∧
    stream.connection.closed = false

end DistributedServer

end TokenRevoker
