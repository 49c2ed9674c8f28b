import TokenRevoker.Library.Transition
import TokenRevoker.Node.SyncEngine

/-! The whole sync engine, against a wire that may send anything. Streams, old ones
too, and the pages of polls put their events on one chain, and whatever reaches the
revoker does so from there. Timers and sleeps end at any time. -/
namespace TokenRevoker

open Text

/-- The `entry` of a wire event. -/
structure WireEntry where
  lsn : JsString
  generation : Int
  item : JsString
  deriving DecidableEq

/-- The `rotate` of a wire event. -/
structure WireRotate where
  lsn : JsString
  generation : Int
  deriving DecidableEq

/-- `WireStreamEvent`: the kind is what the sender set, the payload need not be there. -/
inductive WireStreamEvent where
  | entry (payload : Option WireEntry)
  | rotate (payload : Option WireRotate)
  | keepalive
  | resnapshot
  | unset
  deriving DecidableEq

inductive SyncEngineMode where
  | idle
  | streaming
  | reconnecting
  | stopped
  deriving DecidableEq

/-- What the engine calls on its revoker. -/
inductive RevokerCall where
  | applyEntry (item : JsString)
  | rotateOnDemand
  deriving DecidableEq

def RevokerCall.isRotation : RevokerCall → Bool
  | .applyEntry _ => false
  | .rotateOnDemand => true

/-- An event on the chain, and whether `#pollOnce` waits for it. Events of streams and of pages
wait on one chain, in the order they came. -/
structure Enqueued where
  event : WireStreamEvent
  polled : Bool
  deriving DecidableEq

/-- `#applyEvent` while it waits for `rotateOnDemand`. `expected` is the generation that it
takes on if the call succeeds. -/
structure CoordinatedRotation where
  lsn : Nat
  expected : Int
  polled : Bool
  deriving DecidableEq

/-- Where `#pollOnce` is suspended: on a page, on an event of its page, or about to go
on after that event. -/
inductive Poll where
  | requesting (fromLsn : Nat) (pages : Nat)
  | applying (rest : List WireStreamEvent) (moreAvailable : Bool) (pages : Nat)
  | resumed (rest : List WireStreamEvent) (moreAvailable : Bool) (pages : Nat)
  deriving DecidableEq

/-- What the engine was given, did and reported, in order. No function of the engine reads it.
-/
structure EngineHistory where
  received : List WireStreamEvent := []
  attempted : List (Nat × RevokerCall) := []
  completed : List (Nat × RevokerCall) := []
  persisted : List (Nat × Int) := []
  anomalies : List String := []
  deriving DecidableEq

structure SyncEngineProcess where
  mode : SyncEngineMode := .idle
  lastAppliedLsn : Nat
  generation : Int
  stream : Option Nat := none
  /-- Streams that got their listeners, which they keep. -/
  opened : Nat := 0
  /-- Calls of `subscribe` that have not settled, by the LSN they resume after. -/
  subscribing : List Nat := []
  /-- Reconnect sleeps, by the token that was current when they began. -/
  sleeping : List Nat := []
  scheduleToken : Nat := 0
  keepaliveWatchdog : Bool := false
  pollTimer : Bool := false
  polling : Option Poll := none
  rebootstrapFired : Bool := false
  stopped : Bool := false
  chain : List Enqueued := []
  rotating : Option CoordinatedRotation := none
  history : EngineHistory := {}
  deriving DecidableEq

namespace SyncEngineProcess

/-- `MAX_POLL_PAGES`. -/
def maxPollPages : Nat := 100

inductive Action where
  | start
  | subscribed (index : Nat)
  | subscribeFailed (index : Nat)
  | data (stream : Nat) (event : WireStreamEvent)
  | streamDown (stream : Nat)
  | watchdog
  | wake (index : Nat)
  | pollTick
  | pollResponse (events : List WireStreamEvent) (moreAvailable : Bool)
  | pollFailed
  | pollNext
  | apply (applied updated : Except String Unit)
  | rotated (outcome updated : Except String Unit)
  | stop
  deriving DecidableEq

/-- `connected`. -/
def connected (s : SyncEngineProcess) : Bool := s.mode = .streaming

/-- `isRotationExternallyDriven`: `#inCoordinatedRotation` is set exactly while `rotateOnDemand`
is awaited. Waiting for the mutex and retrying count as awaiting. -/
def isRotationExternallyDriven (s : SyncEngineProcess) : Bool := s.rotating.isSome

/-- A new engine. It has no stream and no timer before `start`. -/
def init (initialLsn : Nat) (initialGeneration : Int) : SyncEngineProcess where
  lastAppliedLsn := initialLsn
  generation := initialGeneration

/-- `#trySubscribe` up to the call of the client. It asks for what comes after the cursor of
now. -/
def trySubscribe (s : SyncEngineProcess) : SyncEngineProcess :=
  if s.stopped || s.connected then s
  else { s with subscribing := s.subscribing ++ [s.lastAppliedLsn] }

/-- `#scheduleReconnect`. A sleep acts on waking only if its token is still the current one. -/
def scheduleReconnect (s : SyncEngineProcess) : SyncEngineProcess :=
  if s.stopped then s else { s with sleeping := s.sleeping ++ [s.scheduleToken] }

/-- `#startPolling`. -/
def startPolling (s : SyncEngineProcess) : SyncEngineProcess :=
  if s.pollTimer || s.stopped then s else { s with pollTimer := true }

/-- `#enterReconnecting`. -/
def enterReconnecting (s : SyncEngineProcess) : SyncEngineProcess :=
  if s.stopped then s
  else scheduleReconnect (startPolling { s with mode := .reconnecting })

/-- `#handleStreamDown`; an event of a stream that was replaced is stale. -/
def handleStreamDown (s : SyncEngineProcess) (stream : Nat) : SyncEngineProcess :=
  if s.stopped || s.stream ≠ some stream then s
  else enterReconnecting { s with stream := none }

/-- `#enqueueApply`. The guards on the state are looked at when its turn comes, not now. -/
def enqueueApply (s : SyncEngineProcess) (event : WireStreamEvent) (polled : Bool) : SyncEngineProcess :=
  { s with chain := s.chain ++ [⟨event, polled⟩] }

def receive (s : SyncEngineProcess) (events : List WireStreamEvent) : SyncEngineProcess :=
  { s with history := { s.history with received := s.history.received ++ events } }

/-- The head of the loop of `#pollOnce`. It stops after the last page, after `MAX_POLL_PAGES`,
and as soon as a stream is open. -/
def nextPage (s : SyncEngineProcess) (moreAvailable : Bool) (pages : Nat) : SyncEngineProcess :=
  if moreAvailable && decide (pages < maxPollPages) && !s.stopped && !s.connected then
    { s with polling := some (.requesting s.lastAppliedLsn pages) }
  else { s with polling := none }

/-- The events of a page, one after the other, then the next page. -/
def nextEvent (s : SyncEngineProcess) (moreAvailable : Bool) (pages : Nat) :
    List WireStreamEvent → SyncEngineProcess
  | [] => s.nextPage moreAvailable (pages + 1)
  | event :: rest =>
      { s.enqueueApply event true with polling := some (.applying rest moreAvailable pages) }

/-- The promise of an event of the chain resolves. Only a poll waits for its event; nothing
waits for those of a stream. -/
def resolve (s : SyncEngineProcess) (polled : Bool) : SyncEngineProcess :=
  match polled, s.polling with
  | true, some (.applying rest moreAvailable pages) =>
      { s with polling := some (.resumed rest moreAvailable pages) }
  | _, _ => s

/-- `#rebootstrap`: the first reason is reported to the owner, unless the engine was stopped.
The chain keeps its events, and calls of `subscribe` in flight go on. -/
def rebootstrap (s : SyncEngineProcess) (reason : String) : SyncEngineProcess :=
  let noted : SyncEngineProcess :=
    { s with history := { s.history with anomalies := s.history.anomalies ++ [reason] } }
  if s.rebootstrapFired || s.stopped then noted
  else { noted with
    rebootstrapFired := true
    scheduleToken := s.scheduleToken + 1
    pollTimer := false
    stream := none
    mode := .reconnecting }

/-- The checks of `#applyEvent` on the LSN; `none` stands for every value that is not a
safe integer from 0 on. -/
def checkLsn (s : SyncEngineProcess) (next : Nat → Verdict) : Option Nat → Verdict
  | none => .rebootstrap "malformed event lsn on the replication stream"
  | some lsn =>
    if lsn ≤ s.lastAppliedLsn then .skip
    else if lsn ≠ s.lastAppliedLsn + 1 then
      .rebootstrap s!"LSN gap detected: expected {s.lastAppliedLsn + 1}, got {lsn}"
    else next lsn

/-- `#applyEvent` between the guards on its state and the call of the revoker.
`toNumber` is `Number`, where that is a safe integer from 0 on. -/
def check (toNumber : JsString → Option Nat) (s : SyncEngineProcess) : WireStreamEvent → Verdict
  | .keepalive | .unset => .skip
  | .resnapshot => .rebootstrap "coordinator sent ResnapshotRequired (retention floor exceeded)"
  | .entry payload =>
      match payload with
      | none => s.checkLsn (fun _ => .skip) none
      | some payload => s.checkLsn (fun lsn => .entry lsn payload.item) (toNumber payload.lsn)
  | .rotate payload =>
      match payload with
      | none => s.checkLsn (fun _ => .skip) none
      | some payload => s.checkLsn (fun lsn =>
          if payload.generation ≠ s.generation + 1 then .rebootstrap "rotation generation mismatch"
          else .rotate lsn) (toNumber payload.lsn)

/-- A call of the revoker is made. -/
def attempt (s : SyncEngineProcess) (lsn : Nat) (call : RevokerCall) : SyncEngineProcess :=
  { s with history := { s.history with attempted := s.history.attempted ++ [(lsn, call)] } }

/-- A call of the revoker has returned normally. -/
def complete (s : SyncEngineProcess) (lsn : Nat) (call : RevokerCall) : SyncEngineProcess :=
  { s with history := { s.history with completed := s.history.completed ++ [(lsn, call)] } }

/-- The end of `#applyEvent`: the state is persisted, then the cursor moves. The cursor stays
where the write fails, although core has applied the event. -/
def persist (s : SyncEngineProcess) (lsn : Nat) (updated : Except String Unit) : SyncEngineProcess :=
  match updated with
  | .ok () =>
      { s with
        history := { s.history with persisted := s.history.persisted ++ [(lsn, s.generation)] }
        lastAppliedLsn := lsn }
  | .error _ => s.rebootstrap "sync-state persistence failed (never stall the apply chain)"

/-- `#applyEvent` up to its end, or up to the suspension of a rotation. `applied` and `updated`
are what the revoker and the state file answer, if they are asked. -/
def applyEvent (toNumber : JsString → Option Nat) (s : SyncEngineProcess) (enqueued : Enqueued)
    (applied updated : Except String Unit) : SyncEngineProcess :=
  if s.stopped || s.rebootstrapFired then s.resolve enqueued.polled
  else
    match s.check toNumber enqueued.event with
    | .skip => s.resolve enqueued.polled
    | .rebootstrap reason => (s.rebootstrap reason).resolve enqueued.polled
    | .entry lsn item =>
        let called := s.attempt lsn (.applyEntry item)
        match applied with
        | .ok () => ((called.complete lsn (.applyEntry item)).persist lsn updated).resolve enqueued.polled
        | .error _ =>
            (called.rebootstrap "unappliable replicated entry (never drop silently)").resolve
              enqueued.polled
    | .rotate lsn =>
        { s.attempt lsn .rotateOnDemand with
          rotating := some ⟨lsn, s.generation + 1, enqueued.polled⟩ }

/-- `#applyEvent` after `rotateOnDemand`. The generation moves as soon as the call has
succeeded, the cursor only with the write after it. -/
def finishRotation (s : SyncEngineProcess) (rotation : CoordinatedRotation)
    (outcome updated : Except String Unit) : SyncEngineProcess :=
  let awaited : SyncEngineProcess := { s with rotating := none }
  match outcome with
  | .ok () =>
      (({ awaited.complete rotation.lsn .rotateOnDemand with generation := rotation.expected }
        : SyncEngineProcess).persist rotation.lsn updated).resolve rotation.polled
  | .error _ => (awaited.rebootstrap "coordinated rotation failed").resolve rotation.polled

/-- The step calls `onKeepaliveReceived`. It is called from the chain, behind everything that
was enqueued before. -/
def receivesKeepalive (s : SyncEngineProcess) : Action → Bool
  | .apply _ _ =>
      match s.rotating, s.chain with
      | none, enqueued :: _ => !(s.stopped || s.rebootstrapFired) && enqueued.event == .keepalive
      | _, _ => false
  | _ => false

/-- One synchronous stretch of the engine, `none` where it cannot run now. What arrives and what
the calls answer is chosen by the action. -/
def step (toNumber : JsString → Option Nat) (s : SyncEngineProcess) : Action → Option SyncEngineProcess
  | .start => some s.trySubscribe
  | .subscribed index =>
      if index < s.subscribing.length then
        let settled : SyncEngineProcess := { s with subscribing := s.subscribing.eraseIdx index }
        -- a stream that comes after `stop` is cancelled, with no listener on it
        if s.stopped then some settled
        else some { settled with
          stream := some s.opened
          opened := s.opened + 1
          mode := .streaming
          pollTimer := false
          keepaliveWatchdog := true }
      else none
  | .subscribeFailed index =>
      if index < s.subscribing.length then
        some ({ s with subscribing := s.subscribing.eraseIdx index } : SyncEngineProcess).enterReconnecting
      else none
  | .data stream event =>
      if stream < s.opened then some ((s.receive [event]).enqueueApply event false) else none
  | .streamDown stream => if stream < s.opened then some (s.handleStreamDown stream) else none
  | .watchdog =>
      if s.keepaliveWatchdog && s.connected then
        match s.stream with
        | some stream => some (s.handleStreamDown stream)
        | none => some s
      else none
  | .wake index =>
      match s.sleeping[index]? with
      | some token =>
          let awake : SyncEngineProcess := { s with sleeping := s.sleeping.eraseIdx index }
          if s.stopped || token ≠ s.scheduleToken then some awake else some awake.trySubscribe
      | none => none
  | .pollTick =>
      if s.pollTimer then
        if s.stopped || s.polling.isSome || s.connected then some s else some (s.nextPage true 0)
      else none
  | .pollResponse events moreAvailable =>
      match s.polling with
      | some (.requesting _ pages) =>
          if s.stopped then some { s with polling := none }
          else some ((s.receive events).nextEvent moreAvailable pages events)
      | _ => none
  | .pollFailed =>
      match s.polling with
      | some (.requesting _ _) => some { s with polling := none }
      | _ => none
  | .pollNext =>
      match s.polling with
      | some (.resumed rest moreAvailable pages) =>
          if s.stopped || s.rebootstrapFired then some { s with polling := none }
          else some (s.nextEvent moreAvailable pages rest)
      | _ => none
  | .apply applied updated =>
      match s.rotating, s.chain with
      | none, enqueued :: rest =>
          some (({ s with chain := rest } : SyncEngineProcess).applyEvent toNumber enqueued applied updated)
      | _, _ => none
  | .rotated outcome updated => s.rotating.map fun rotation => s.finishRotation rotation outcome updated
  | .stop =>
      if s.stopped then some s
      else some { s with
        stopped := true
        mode := .stopped
        scheduleToken := s.scheduleToken + 1
        pollTimer := false
        keepaliveWatchdog := false
        stream := none }

variable {toNumber : JsString → Option Nat} {s t u : SyncEngineProcess} {a : Action} {n : Nat} {g : Int}

/-- The events that still wait for their turn on the chain. -/
def waiting (s : SyncEngineProcess) : List WireStreamEvent :=
  s.chain.map (·.event) ++ s.polling.elim [] fun
    | .requesting _ _ => []
    | .applying rest _ _ | .resumed rest _ _ => rest

/-- Nothing is applied between `s` and `t`; what waits in `t` was received by then. -/
structure Quiet (s t : SyncEngineProcess) : Prop where
  attempted : t.history.attempted = s.history.attempted
  completed : t.history.completed = s.history.completed
  persisted : t.history.persisted = s.history.persisted
  anomalies : t.history.anomalies = s.history.anomalies
  cursor : t.lastAppliedLsn = s.lastAppliedLsn
  generation : t.generation = s.generation
  rotating : t.rotating = s.rotating
  fired : t.rebootstrapFired = s.rebootstrapFired
  stopped : s.stopped = true → t.stopped = true
  received : s.history.received ⊆ t.history.received
  waiting : ∀ event ∈ t.waiting, event ∈ s.waiting ∨ event ∈ t.history.received

theorem Quiet.refl (s : SyncEngineProcess) : Quiet s s :=
  ⟨rfl, rfl, rfl, rfl, rfl, rfl, rfl, rfl, id, List.Subset.refl _, fun _ h => Or.inl h⟩

theorem Quiet.trans (h : Quiet s t) (h' : Quiet t u) : Quiet s u where
  attempted := h'.attempted.trans h.attempted
  completed := h'.completed.trans h.completed
  persisted := h'.persisted.trans h.persisted
  anomalies := h'.anomalies.trans h.anomalies
  cursor := h'.cursor.trans h.cursor
  generation := h'.generation.trans h.generation
  rotating := h'.rotating.trans h.rotating
  fired := h'.fired.trans h.fired
  stopped := h'.stopped ∘ h.stopped
  received := List.Subset.trans h.received h'.received
  waiting := by
    intro event hEvent
    rcases h'.waiting event hEvent with hEvent | hEvent
    · exact (h.waiting event hEvent).imp id fun hMem => h'.received hMem
    · exact Or.inr hEvent

/-- The state of the streams, the timers and the mode is none of the chain's business. -/
theorem Quiet.connection (s : SyncEngineProcess) (mode : SyncEngineMode) (stream : Option Nat)
    (opened : Nat) (subscribing sleeping : List Nat) (scheduleToken : Nat)
    (keepaliveWatchdog pollTimer : Bool) :
    Quiet s { s with
      mode := mode, stream := stream, opened := opened, subscribing := subscribing
      sleeping := sleeping, scheduleToken := scheduleToken
      keepaliveWatchdog := keepaliveWatchdog, pollTimer := pollTimer } :=
  ⟨rfl, rfl, rfl, rfl, rfl, rfl, rfl, rfl, id, List.Subset.refl _, fun _ h => Or.inl h⟩

theorem trySubscribe_quiet (s : SyncEngineProcess) : Quiet s s.trySubscribe := by
  unfold trySubscribe
  split_ifs
  · exact .refl s
  · exact .connection s ..

theorem enterReconnecting_quiet (s : SyncEngineProcess) : Quiet s s.enterReconnecting := by
  unfold enterReconnecting scheduleReconnect startPolling
  split_ifs <;> exact .connection s ..

theorem handleStreamDown_quiet (s : SyncEngineProcess) (stream : Nat) :
    Quiet s (s.handleStreamDown stream) := by
  unfold handleStreamDown
  split_ifs
  · exact .refl s
  · exact (Quiet.connection s ..).trans (enterReconnecting_quiet _)

/-- A poll that is over, or that waits for its next page, has no events to enqueue. -/
theorem Quiet.page (s : SyncEngineProcess) {polling : Option Poll}
    (hPage : ∀ poll, polling = some poll → ∃ fromLsn pages, poll = .requesting fromLsn pages) :
    Quiet s { s with polling := polling } := by
  refine ⟨rfl, rfl, rfl, rfl, rfl, rfl, rfl, rfl, id, List.Subset.refl _, ?_⟩
  intro event hEvent
  left
  cases polling with
  | none =>
      simp only [SyncEngineProcess.waiting, Option.elim_none, List.append_nil] at hEvent
      exact List.mem_append.mpr (Or.inl hEvent)
  | some poll =>
      obtain ⟨fromLsn, pages, rfl⟩ := hPage poll rfl
      simp only [SyncEngineProcess.waiting, Option.elim_some, List.append_nil] at hEvent
      exact List.mem_append.mpr (Or.inl hEvent)

theorem nextPage_quiet (s : SyncEngineProcess) (moreAvailable : Bool) (pages : Nat) :
    Quiet s (s.nextPage moreAvailable pages) := by
  unfold nextPage
  split_ifs
  · exact Quiet.page s (by simp)
  · exact Quiet.page s (by simp)

theorem nextEvent_quiet (s : SyncEngineProcess) (moreAvailable : Bool) (pages : Nat)
    {events : List WireStreamEvent}
    (hEvents : ∀ event ∈ events, event ∈ s.waiting ∨ event ∈ s.history.received) :
    Quiet s (s.nextEvent moreAvailable pages events) := by
  cases events with
  | nil => exact nextPage_quiet s moreAvailable (pages + 1)
  | cons event rest =>
      refine ⟨rfl, rfl, rfl, rfl, rfl, rfl, rfl, rfl, id, List.Subset.refl _, ?_⟩
      intro other hOther
      simp only [nextEvent, enqueueApply, SyncEngineProcess.waiting, List.map_append, List.map_cons,
        List.map_nil, Option.elim_some, List.append_assoc, List.singleton_append] at hOther
      rcases List.mem_append.mp hOther with hChain | hPage
      · exact Or.inl (List.mem_append.mpr (Or.inl hChain))
      · exact hEvents other hPage

theorem enqueueApply_quiet (s : SyncEngineProcess) {event : WireStreamEvent} {polled : Bool}
    (hEvent : event ∈ s.history.received) : Quiet s (s.enqueueApply event polled) := by
  refine ⟨rfl, rfl, rfl, rfl, rfl, rfl, rfl, rfl, id, List.Subset.refl _, ?_⟩
  intro other hOther
  simp only [enqueueApply, SyncEngineProcess.waiting, List.map_append, List.map_cons, List.map_nil,
    List.append_assoc, List.singleton_append] at hOther
  rcases List.mem_append.mp hOther with hChain | hRest
  · exact Or.inl (List.mem_append.mpr (Or.inl hChain))
  · rcases List.mem_cons.mp hRest with rfl | hPoll
    · exact Or.inr hEvent
    · exact Or.inl (List.mem_append.mpr (Or.inr hPoll))

theorem receive_quiet (s : SyncEngineProcess) (events : List WireStreamEvent) :
    Quiet s (s.receive events) :=
  ⟨rfl, rfl, rfl, rfl, rfl, rfl, rfl, rfl, id, List.subset_append_left _ _, fun _ h => Or.inl h⟩

theorem resolve_quiet (s : SyncEngineProcess) (polled : Bool) : Quiet s (s.resolve polled) := by
  unfold resolve
  split
  · rename_i rest moreAvailable pages hPolling
    refine ⟨rfl, rfl, rfl, rfl, rfl, rfl, rfl, rfl, id, List.Subset.refl _, ?_⟩
    intro event hEvent
    left
    simpa only [SyncEngineProcess.waiting, hPolling, Option.elim_some] using hEvent
  · exact .refl s

/-- Only the chain applies anything. -/
theorem step_quiet (h : step toNumber s a = some t) (hApply : ∀ applied updated, a ≠ .apply applied updated)
    (hRotated : ∀ outcome updated, a ≠ .rotated outcome updated) : Quiet s t := by
  cases a with
  | start =>
      cases h
      exact trySubscribe_quiet s
  | subscribed index =>
      simp only [step] at h
      split_ifs at h <;> cases h <;> exact .connection s ..
  | subscribeFailed index =>
      simp only [step] at h
      split_ifs at h
      cases h
      exact (Quiet.connection s ..).trans (enterReconnecting_quiet _)
  | data stream event =>
      simp only [step] at h
      split_ifs at h
      cases h
      exact (receive_quiet s [event]).trans (enqueueApply_quiet _ (by simp [receive]))
  | streamDown stream =>
      simp only [step] at h
      split_ifs at h
      cases h
      exact handleStreamDown_quiet s stream
  | watchdog =>
      simp only [step] at h
      split_ifs at h
      split at h <;> cases h
      · exact handleStreamDown_quiet s _
      · exact .refl s
  | wake index =>
      simp only [step] at h
      split at h
      · split_ifs at h <;> cases h
        · exact .connection s ..
        · exact (Quiet.connection s ..).trans (trySubscribe_quiet _)
      · cases h
  | pollTick =>
      simp only [step] at h
      split_ifs at h <;> cases h
      · exact .refl s
      · exact nextPage_quiet s true 0
  | pollResponse events moreAvailable =>
      simp only [step] at h
      split at h
      · split_ifs at h <;> cases h
        · exact Quiet.page s (by simp)
        · exact (receive_quiet s events).trans (nextEvent_quiet _ _ _ fun event hEvent =>
            Or.inr (List.mem_append.mpr (Or.inr hEvent)))
      · cases h
  | pollFailed =>
      simp only [step] at h
      split at h <;> cases h
      exact Quiet.page s (by simp)
  | pollNext =>
      simp only [step] at h
      split at h
      · rename_i rest moreAvailable pages hPolling
        split_ifs at h <;> cases h
        · exact Quiet.page s (by simp)
        · refine nextEvent_quiet s _ _ fun event hEvent => Or.inl ?_
          simp [SyncEngineProcess.waiting, hPolling, hEvent]
      · cases h
  | apply applied updated => exact absurd rfl (hApply applied updated)
  | rotated outcome updated => exact absurd rfl (hRotated outcome updated)
  | stop =>
      simp only [step] at h
      split_ifs at h <;> cases h
      · exact .refl s
      · exact ⟨rfl, rfl, rfl, rfl, rfl, rfl, rfl, rfl, fun _ => rfl, List.Subset.refl _,
          fun _ hEvent => Or.inl hEvent⟩

/-- The engine is not stopped between `s` and `t`, and a sleep begins under the token that is
current then. -/
structure Proceeds (s t : SyncEngineProcess) : Prop where
  stopped : t.stopped = s.stopped
  scheduleToken : s.scheduleToken ≤ t.scheduleToken
  sleeping : ∀ token ∈ t.sleeping, token ∈ s.sleeping ∨ token ≤ t.scheduleToken

theorem Proceeds.refl (s : SyncEngineProcess) : Proceeds s s := ⟨rfl, Nat.le_refl _, fun _ => Or.inl⟩

theorem Proceeds.trans (h : Proceeds s t) (h' : Proceeds t u) : Proceeds s u where
  stopped := h'.stopped.trans h.stopped
  scheduleToken := Nat.le_trans h.scheduleToken h'.scheduleToken
  sleeping := by
    intro token hToken
    rcases h'.sleeping token hToken with hToken | hToken
    · exact (h.sleeping token hToken).imp id fun hLe => Nat.le_trans hLe h'.scheduleToken
    · exact Or.inr hToken

/-- Neither `stopped` nor a sleep is touched. -/
theorem Proceeds.same (hStopped : t.stopped = s.stopped) (hToken : t.scheduleToken = s.scheduleToken)
    (hSleeping : t.sleeping = s.sleeping) : Proceeds s t where
  stopped := hStopped
  scheduleToken := Nat.le_of_eq hToken.symm
  sleeping := by
    rw [hSleeping]
    exact fun _ => Or.inl

theorem trySubscribe_proceeds (s : SyncEngineProcess) : Proceeds s s.trySubscribe := by
  unfold trySubscribe
  split_ifs <;> exact .same rfl rfl rfl

theorem startPolling_proceeds (s : SyncEngineProcess) : Proceeds s s.startPolling := by
  unfold startPolling
  split_ifs <;> exact .same rfl rfl rfl

theorem scheduleReconnect_proceeds (s : SyncEngineProcess) : Proceeds s s.scheduleReconnect := by
  unfold scheduleReconnect
  split_ifs
  · exact .refl s
  · refine ⟨rfl, Nat.le_refl _, fun token hToken => ?_⟩
    rcases List.mem_append.mp hToken with hToken | hToken
    · exact Or.inl hToken
    · exact Or.inr (Nat.le_of_eq (List.mem_singleton.mp hToken))

theorem enterReconnecting_proceeds (s : SyncEngineProcess) : Proceeds s s.enterReconnecting := by
  unfold enterReconnecting
  split_ifs
  · exact .refl s
  · have hMode : Proceeds s { s with mode := .reconnecting } := .same rfl rfl rfl
    exact (hMode.trans (startPolling_proceeds _)).trans (scheduleReconnect_proceeds _)

theorem handleStreamDown_proceeds (s : SyncEngineProcess) (stream : Nat) :
    Proceeds s (s.handleStreamDown stream) := by
  unfold handleStreamDown
  split_ifs
  · exact .refl s
  · have hCleared : Proceeds s { s with stream := none } := .same rfl rfl rfl
    exact hCleared.trans (enterReconnecting_proceeds _)

theorem nextPage_proceeds (s : SyncEngineProcess) (moreAvailable : Bool) (pages : Nat) :
    Proceeds s (s.nextPage moreAvailable pages) := by
  unfold nextPage
  split_ifs <;> exact .same rfl rfl rfl

theorem nextEvent_proceeds (s : SyncEngineProcess) (moreAvailable : Bool) (pages : Nat)
    (events : List WireStreamEvent) : Proceeds s (s.nextEvent moreAvailable pages events) := by
  cases events with
  | nil => exact nextPage_proceeds s moreAvailable (pages + 1)
  | cons event rest => exact .same rfl rfl rfl

theorem resolve_proceeds (s : SyncEngineProcess) (polled : Bool) : Proceeds s (s.resolve polled) := by
  unfold resolve
  split <;> exact .same rfl rfl rfl

theorem rebootstrap_proceeds (s : SyncEngineProcess) (reason : String) :
    Proceeds s (s.rebootstrap reason) := by
  unfold rebootstrap
  split_ifs
  · exact .same rfl rfl rfl
  · exact ⟨rfl, Nat.le_succ _, fun _ => Or.inl⟩

theorem persist_proceeds (s : SyncEngineProcess) (lsn : Nat) (updated : Except String Unit) :
    Proceeds s (s.persist lsn updated) := by
  cases updated with
  | error message => exact rebootstrap_proceeds s _
  | ok => exact .same rfl rfl rfl

theorem applyEvent_proceeds (s : SyncEngineProcess) (enqueued : Enqueued)
    (applied updated : Except String Unit) : Proceeds s (s.applyEvent toNumber enqueued applied updated) := by
  unfold applyEvent
  split_ifs
  · exact resolve_proceeds s _
  · split
    · exact resolve_proceeds s _
    · exact (rebootstrap_proceeds s _).trans (resolve_proceeds _ _)
    · rename_i lsn item hCheck
      have hCalled : Proceeds s (s.attempt lsn (.applyEntry item)) := .same rfl rfl rfl
      cases applied with
      | error message => exact (hCalled.trans (rebootstrap_proceeds _ _)).trans (resolve_proceeds _ _)
      | ok =>
          have hCompleted : Proceeds s
              ((s.attempt lsn (.applyEntry item)).complete lsn (.applyEntry item)) := .same rfl rfl rfl
          exact (hCompleted.trans (persist_proceeds _ _ _)).trans (resolve_proceeds _ _)
    · exact .same rfl rfl rfl

theorem finishRotation_proceeds (s : SyncEngineProcess) (rotation : CoordinatedRotation)
    (outcome updated : Except String Unit) : Proceeds s (s.finishRotation rotation outcome updated) := by
  have hAwaited : Proceeds s { s with rotating := none } := .same rfl rfl rfl
  cases outcome with
  | error message => exact (hAwaited.trans (rebootstrap_proceeds _ _)).trans (resolve_proceeds _ _)
  | ok =>
      have hCompleted : Proceeds s { ({ s with rotating := none } : SyncEngineProcess).complete rotation.lsn
          .rotateOnDemand with generation := rotation.expected } := .same rfl rfl rfl
      exact (hCompleted.trans (persist_proceeds _ _ _)).trans (resolve_proceeds _ _)

/-- Nothing but `stop` stops an engine. -/
theorem step_proceeds (h : step toNumber s a = some t) (hStop : a ≠ .stop) : Proceeds s t := by
  cases a with
  | start =>
      cases h
      exact trySubscribe_proceeds s
  | subscribed index =>
      simp only [step] at h
      split_ifs at h <;> cases h <;> exact .same rfl rfl rfl
  | subscribeFailed index =>
      simp only [step] at h
      split_ifs at h
      cases h
      have hSettled : Proceeds s { s with subscribing := s.subscribing.eraseIdx index } := .same rfl rfl rfl
      exact hSettled.trans (enterReconnecting_proceeds _)
  | data stream event =>
      simp only [step] at h
      split_ifs at h
      cases h
      exact .same rfl rfl rfl
  | streamDown stream =>
      simp only [step] at h
      split_ifs at h
      cases h
      exact handleStreamDown_proceeds s stream
  | watchdog =>
      simp only [step] at h
      split_ifs at h
      split at h <;> cases h
      · exact handleStreamDown_proceeds s _
      · exact .refl s
  | wake index =>
      simp only [step] at h
      have hAwake : Proceeds s { s with sleeping := s.sleeping.eraseIdx index } :=
        ⟨rfl, Nat.le_refl _, fun _ hToken => Or.inl (List.mem_of_mem_eraseIdx hToken)⟩
      split at h
      · split_ifs at h <;> cases h
        · exact hAwake
        · exact hAwake.trans (trySubscribe_proceeds _)
      · cases h
  | pollTick =>
      simp only [step] at h
      split_ifs at h <;> cases h
      · exact .refl s
      · exact nextPage_proceeds s true 0
  | pollResponse events moreAvailable =>
      simp only [step] at h
      split at h
      · split_ifs at h <;> cases h
        · exact .same rfl rfl rfl
        · have hReceived : Proceeds s (s.receive events) := .same rfl rfl rfl
          exact hReceived.trans (nextEvent_proceeds _ _ _ _)
      · cases h
  | pollFailed =>
      simp only [step] at h
      split at h <;> cases h
      exact .same rfl rfl rfl
  | pollNext =>
      simp only [step] at h
      split at h
      · split_ifs at h <;> cases h
        · exact .same rfl rfl rfl
        · exact nextEvent_proceeds _ _ _ _
      · cases h
  | apply applied updated =>
      simp only [step] at h
      split at h
      · rename_i enqueued rest hIdle hChain
        cases h
        have hTaken : Proceeds s { s with chain := rest } := .same rfl rfl rfl
        exact hTaken.trans (applyEvent_proceeds _ enqueued applied updated)
      · cases h
  | rotated outcome updated =>
      obtain ⟨rotation, -, rfl⟩ := Option.map_eq_some_iff.mp h
      exact finishRotation_proceeds s rotation outcome updated
  | stop => exact absurd rfl hStop

end SyncEngineProcess

/-- The event as `longs: String` delivers it. -/
def StreamEvent.toWire : StreamEvent → WireStreamEvent
  | .entry lsn generation item => .entry (some ⟨decimal lsn, generation, item⟩)
  | .rotate lsn generation => .rotate (some ⟨decimal lsn, generation⟩)
  | .keepalive _ _ => .keepalive
  | .resnapshot _ => .resnapshot

/-- On what a coordinator sends, the engine that reads strings checks what the one that
reads numbers does. -/
theorem SyncEngineProcess.check_toWire {toNumber : JsString → Option Nat}
    (hNumber : ∀ n, toNumber (decimal n) = if n ≤ maxSafeInteger then some n else none)
    {s : SyncEngineProcess} {e : SyncEngine} (hCursor : s.lastAppliedLsn = e.lastAppliedLsn)
    (hGeneration : s.generation = e.generation) (hRunning : e.rebootstrap = none) (event : StreamEvent) :
    s.check toNumber event.toWire = e.check event := by
  have hLsn : ∀ (next : Nat → Verdict) (lsn : Nat),
      s.checkLsn next (toNumber (decimal lsn)) = (e.checkLsn lsn).getD (next lsn) := by
    intro next lsn
    rw [hNumber]
    by_cases hSafe : lsn ≤ maxSafeInteger
    · rw [if_pos hSafe]
      simp only [checkLsn, SyncEngine.checkLsn, hCursor, if_neg (Nat.not_lt.mpr hSafe)]
      split_ifs <;> rfl
    · rw [if_neg hSafe]
      simp [checkLsn, SyncEngine.checkLsn, Nat.lt_of_not_le hSafe]
  unfold SyncEngine.check
  rw [hRunning]
  cases event with
  | keepalive | resnapshot => rfl
  | entry lsn generation item => exact hLsn _ lsn
  | rotate lsn generation =>
      have hRotate := hLsn (fun lsn =>
        if generation ≠ s.generation + 1 then .rebootstrap "rotation generation mismatch"
        else .rotate lsn) lsn
      rw [hGeneration] at hRotate
      simpa [StreamEvent.toWire, SyncEngineProcess.check, hGeneration] using hRotate

end TokenRevoker
