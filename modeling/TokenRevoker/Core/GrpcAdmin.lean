import Mathlib.Data.List.AList
import TokenRevoker.Library.Text
import TokenRevoker.Library.Transition

/-! The admin server that the revokers of a process share. The first one that is created
starts it and the last one that leaves stops it; both take as long as they like, and the
store, the started flag, the shared promise and the server change at different awaits. -/
namespace TokenRevoker

open Text Transition

/-- Where a call of `createRevoker` is: it awaits the start of the server or, when that has
failed, the `destroy` of its revoker; or it has ended. -/
inductive Creation where
  | awaiting
  | failing
  | resolved
  | rejected
  deriving DecidableEq

/-- A revoker with `grpcEnabled`, as far as the admin server goes. Its filters are in
`AdminService`; what matters here is who can be found. -/
structure GrpcRevoker where
  id : JsString
  grpcEnabled : Bool := true
  /-- `bloomFilterManager` is not `null`. -/
  managed : Bool := true
  /-- Its manager has been destroyed, which stops every timer of it. -/
  managerDestroyed : Bool := false
  creation : Creation := .awaiting
  /-- `shutdown` or `destroy` has been called. -/
  closing : Bool := false
  deriving DecidableEq

structure GrpcConfig where
  id : JsString
  grpcPort : Nat
  grpcHost : List Char := ['1', '2', '7', '.', '0', '.', '0', '.', '1']
  grpcAllowInsecureRemote : Bool := false
  deriving DecidableEq

/-- `isLoopbackHost`. -/
def isLoopbackHost (host : List Char) : Bool :=
  host = ['l', 'o', 'c', 'a', 'l', 'h', 'o', 's', 't'] || host = [':', ':', '1'] ||
    ['1', '2', '7', '.'].isPrefixOf host

inductive ServerPhase where
  | binding
  | failed
  | running
  | stopping
  | stopped
  deriving DecidableEq

/-- `grpcServerInitPromise`: something threw before the bind, or the server is binding, or
it has been bound. -/
inductive InitPromise where
  | thrown
  | binding (server : Nat)
  | fulfilled
  deriving DecidableEq

/-- Who awaits `#cleanupGrpc`; `grpcInit` does through `destroy`. All three go on behind it
differently. -/
inductive CleanupCaller where
  | shutdown
  | destroy (revoker : Nat)
  | grpcInit (revoker : Nat)
  deriving DecidableEq

/-- A call of `stopServer`. It is settled by its timer or by the callback of
`tryShutdown`, whichever comes first; the other one may still come. -/
structure ServerStop where
  server : Option Nat
  caller : CleanupCaller
  timer : Bool
  answered : Bool
  settled : Bool
  /-- `#cleanupGrpc` has gone on. -/
  returned : Bool := false
  deriving DecidableEq

/-- `tryShutdown` has been called and the timer of `forceShutdown` runs. -/
def ServerStop.pending (server : Nat) (caller : CleanupCaller) : ServerStop where
  server := some server
  caller := caller
  timer := true
  answered := false
  settled := false

/-- There was no server to stop. -/
def ServerStop.settledAtOnce (caller : CleanupCaller) : ServerStop where
  server := none
  caller := caller
  timer := false
  answered := true
  settled := true

structure GrpcAdmin where
  revokers : List GrpcRevoker := []
  instancesMap : Option (AList fun _ : JsString => Nat) := none
  grpcServerStarted : Bool := false
  grpcServerInitPromise : Option InitPromise := none
  /-- Every server there has been, and the one that the module refers to. -/
  servers : List ServerPhase := []
  server : Option Nat := none
  /-- Calls of `shutdown` that await their manager. -/
  shutdowns : List Nat := []
  stops : List ServerStop := []
  /-- Calls of `destroy` that `#cleanupGrpc` has returned to. -/
  destroys : List Nat := []

namespace GrpcAdmin

inductive Action where
  | createRevoker (config : GrpcConfig)
  /-- The shared promise settles, and everything that awaits it goes on in that turn. -/
  | settled (ok : Bool)
  /-- A call that the start of the server has failed for destroys its manager and throws. -/
  | failed (revoker : Nat)
  | shutdown (revoker : Nat)
  | managerShutdown (call : Nat) (ok : Bool)
  | destroy (revoker : Nat)
  | destroyed (call : Nat)
  | forceShutdown (stop : Nat)
  | tryShutdown (stop : Nat)
  | stopped (stop : Nat)
  deriving DecidableEq

def setRevoker (s : GrpcAdmin) (i : Nat) (r : GrpcRevoker) : GrpcAdmin :=
  { s with revokers := s.revokers.set i r }

/-- The caller of `#cleanupGrpc` goes on. -/
def cleaned (s : GrpcAdmin) : CleanupCaller → GrpcAdmin
  | .shutdown => s
  | .destroy i => { s with destroys := s.destroys ++ [i] }
  | .grpcInit i =>
      match s.revokers[i]? with
      | some r => s.setRevoker i { r with creation := .failing }
      | none => s

/-- `stopServer`, which resolves at once where there is no server. -/
def stopServer (s : GrpcAdmin) (caller : CleanupCaller) : GrpcAdmin :=
  match s.server with
  | some server =>
      { s with
        servers := s.servers.set server .stopping
        stops := s.stops ++ [.pending server caller] }
  | none => { s with stops := s.stops ++ [.settledAtOnce caller] }

/-- `#cleanupGrpc` up to its await, `none` where it throws. -/
def cleanupGrpc (s : GrpcAdmin) (i : Nat) (r : GrpcRevoker) (caller : CleanupCaller) : Option GrpcAdmin :=
  if r.grpcEnabled && s.grpcServerStarted then
    s.instancesMap.map fun map =>
      let unregistered := s.setRevoker i { r with grpcEnabled := false }
      if (map.erase r.id).entries.isEmpty then { unregistered with instancesMap := none }.stopServer caller
      else { unregistered with instancesMap := some (map.erase r.id) }.cleaned caller
  else some (s.cleaned caller)

/-- The `catch` of `_grpcInit`, up to the end of the cleanup. -/
def failInit (s : GrpcAdmin) (i : Nat) (r : GrpcRevoker) : GrpcAdmin :=
  let emptied : GrpcAdmin :=
    match s.instancesMap with
    | some map =>
        if !s.grpcServerStarted && map.entries.isEmpty then { s with instancesMap := none } else s
    | none => s
  match emptied.cleanupGrpc i r (.grpcInit i) with
  | some next => next
  | none => emptied.setRevoker i { r with creation := .rejected }

/-- A call that awaited the shared promise registers its revoker. -/
def join (s : GrpcAdmin) (i : Nat) (r : GrpcRevoker) : GrpcAdmin :=
  match s.instancesMap with
  | some map =>
      { s with instancesMap := some (map.insert r.id i) }.setRevoker i { r with creation := .resolved }
  | none => s.failInit i r

/-- Everything that awaits the shared promise goes on, in the order it was called. -/
def resume (next : GrpcAdmin → Nat → GrpcRevoker → GrpcAdmin) (s : GrpcAdmin) : GrpcAdmin :=
  (List.range s.revokers.length).foldl (fun s i =>
    match s.revokers[i]? with
    | some r => if r.creation = .awaiting then next s i r else s
    | none => s) s

/-- The function behind the shared promise, up to the bind. -/
def startInit (s : GrpcAdmin) (config : GrpcConfig) : GrpcAdmin :=
  match s.instancesMap with
  | some _ => { s with grpcServerInitPromise := some .thrown }
  | none =>
      if isLoopbackHost config.grpcHost || config.grpcAllowInsecureRemote then
        { s with
          instancesMap := some ∅
          grpcServerInitPromise := some (.binding s.servers.length)
          servers := s.servers ++ [.binding]
          server := some s.servers.length }
      else { s with instancesMap := some ∅, grpcServerInitPromise := some .thrown }

/-- `createRevoker` up to its first await. Without a port nothing is started, and in the
branch of a started server nothing catches what `registerInstance` throws. -/
def createRevoker (s : GrpcAdmin) (config : GrpcConfig) : GrpcAdmin :=
  let called (creation : Creation) : GrpcAdmin :=
    { s with revokers := s.revokers ++ [{ id := config.id, creation := creation }] }
  if config.grpcPort = 0 then called .resolved
  else if s.grpcServerStarted then
    match s.instancesMap with
    | some map => { called .resolved with instancesMap := some (map.insert config.id s.revokers.length) }
    | none => called .rejected
  else if s.grpcServerInitPromise.isSome then called .awaiting
  else (called .awaiting).startInit config

/-- One synchronous stretch, `none` where it cannot run now. `shutdown` and `destroy` are
called on a revoker that `createRevoker` has returned. -/
def step (s : GrpcAdmin) : Action → Option GrpcAdmin
  | .createRevoker config => some (s.createRevoker config)
  | .settled ok =>
      match s.grpcServerInitPromise, ok with
      | some .thrown, false => some ({ s with grpcServerInitPromise := none }.resume failInit)
      | some (.binding server), true =>
          some ({ s with
            servers := s.servers.set server .running
            grpcServerStarted := true
            grpcServerInitPromise := some .fulfilled }.resume join)
      | some (.binding server), false =>
          some ({ s with
            servers := s.servers.set server .failed
            grpcServerInitPromise := none }.resume failInit)
      | _, _ => none
  | .failed i =>
      match s.revokers[i]? with
      | some r =>
          if r.creation = .failing then
            some (s.setRevoker i { r with
              managed := false
              managerDestroyed := r.managed || r.managerDestroyed
              creation := .rejected })
          else none
      | none => none
  | .shutdown i =>
      match s.revokers[i]? with
      | some r =>
          if r.creation = .resolved then
            let called := s.setRevoker i { r with closing := true }
            if r.managed then some { called with shutdowns := s.shutdowns ++ [i] }
            else some ((called.cleanupGrpc i { r with closing := true } .shutdown).getD called)
          else none
      | none => none
  | .managerShutdown call ok =>
      match s.shutdowns[call]? with
      | some i =>
          match s.revokers[i]? with
          | some r =>
              let returned : GrpcAdmin := { s with shutdowns := s.shutdowns.eraseIdx call }
              if ok then
                let later : GrpcRevoker := { r with managed := false, managerDestroyed := true }
                let unmanaged := returned.setRevoker i later
                some ((unmanaged.cleanupGrpc i later .shutdown).getD unmanaged)
              else some returned
          | none => none
      | none => none
  | .destroy i =>
      match s.revokers[i]? with
      | some r =>
          if r.creation = .resolved then
            let called := s.setRevoker i { r with closing := true }
            some ((called.cleanupGrpc i { r with closing := true } (.destroy i)).getD called)
          else none
      | none => none
  | .destroyed call =>
      match s.destroys[call]? with
      | some i =>
          match s.revokers[i]? with
          | some r =>
              some ({ s with destroys := s.destroys.eraseIdx call }.setRevoker i { r with
                managed := false
                managerDestroyed := r.managed || r.managerDestroyed })
          | none => none
      | none => none
  | .forceShutdown k =>
      match s.stops[k]? with
      | some stop =>
          if stop.timer then
            let forced : GrpcAdmin :=
              { s with stops := s.stops.set k { stop with timer := false, settled := true } }
            match stop.server with
            | some server =>
                if s.server = some server then
                  some { forced with servers := s.servers.set server .stopped, server := none }
                else some forced
            | none => some forced
          else none
      | none => none
  | .tryShutdown k =>
      match s.stops[k]? with
      | some stop =>
          match stop.server with
          | some server =>
              if stop.answered then none
              else some { s with
                stops := s.stops.set k { stop with timer := false, answered := true, settled := true }
                servers := s.servers.set server .stopped
                server := if s.server = some server then none else s.server }
          | none => none
      | none => none
  | .stopped k =>
      match s.stops[k]? with
      | some stop =>
          if stop.settled && !stop.returned then
            some ({ s with
              stops := s.stops.set k { stop with returned := true }
              grpcServerStarted := false
              grpcServerInitPromise := none }.cleaned stop.caller)
          else none
      | none => none

def init : GrpcAdmin := {}

/-- The ids of all revokers are distinct. The store is a map by id, so two of one id would take
each other's place. -/
def Distinct (s : GrpcAdmin) : Action → Prop
  | .createRevoker config => config.id ∉ s.revokers.map GrpcRevoker.id
  | _ => True

/-- A revoker is created with a port, and not while the server is being stopped. Both cases are
refused by nothing in the source. -/
def Clear (s : GrpcAdmin) : Action → Prop
  | .createRevoker config => config.grpcPort ≠ 0 ∧ ∀ stop ∈ s.stops, stop.returned = true
  | _ => True

/-- What the life cycle of the service says of a state. Calls that are still open are described
by what they wait for. -/
structure Consistent (s : GrpcAdmin) : Prop where
  resolved : ∀ (i : Nat) (r : GrpcRevoker), s.revokers[i]? = some r → r.creation = .resolved →
    r.closing = false → (∃ map, s.instancesMap = some map ∧ map.lookup r.id = some i) ∧
      ∃ server, s.server = some server ∧ s.servers[server]? = some .running
  rejected : ∀ r ∈ s.revokers, r.creation = .rejected → r.managerDestroyed = true
  /-- Every other call is still to be answered. -/
  awaiting : ∀ r ∈ s.revokers, r.creation = .awaiting →
    ∃ promise, s.grpcServerInitPromise = some promise ∧ promise ≠ .fulfilled
  stopping : ∀ server : Nat, s.servers[server]? = some .stopping →
    s.instancesMap = none ∧ ∀ r ∈ s.revokers, r.creation = .resolved → r.closing = true

end GrpcAdmin

end TokenRevoker
