import TokenRevoker.Node.FiredEngine

/-! How an engine comes to a stream. A call of `subscribe`, the stream that it opens and the
sleep that leads to the next call follow one another, so there is one of them at a time: an
engine never holds two streams, and it never ends up with none of the three. -/
namespace TokenRevoker

open Text Transition

/-- The part of the engine that the chain has no hand in, except when it fires. -/
structure Connection where
  mode : SyncEngineMode
  stream : Option Nat
  opened : Nat
  subscribing : List Nat
  sleeping : List Nat
  scheduleToken : Nat
  keepaliveWatchdog : Bool
  pollTimer : Bool
  fired : Bool
  stopped : Bool
  deriving DecidableEq

namespace Connection

/-- Sleeps that end in a call of `subscribe`: they began under the token of now. -/
def alarms (c : Connection) : Nat := c.sleeping.countP fun token => token = c.scheduleToken

/-- The stream, the calls of `subscribe` in flight and the sleeps that lead to one. -/
def channels (c : Connection) : Nat := c.stream.toList.length + c.subscribing.length + c.alarms

/-- `#rebootstrap`. -/
def fire (c : Connection) : Connection :=
  { c with
    fired := true
    scheduleToken := c.scheduleToken + 1
    pollTimer := false
    stream := none
    mode := .reconnecting }

/-- The call of `subscribe` is over. -/
def settle (c : Connection) (index : Nat) : Connection :=
  { c with subscribing := c.subscribing.eraseIdx index }

/-- It has opened a stream. -/
def openStream (c : Connection) : Connection :=
  { c with
    stream := some c.opened
    opened := c.opened + 1
    mode := .streaming
    pollTimer := false
    keepaliveWatchdog := true }

/-- `#enterReconnecting`, with no stream left. -/
def reconnect (c : Connection) : Connection :=
  { c with
    stream := none
    mode := .reconnecting
    pollTimer := true
    sleeping := c.sleeping ++ [c.scheduleToken] }

/-- A sleep is over. -/
def awake (c : Connection) (index : Nat) : Connection :=
  { c with sleeping := c.sleeping.eraseIdx index }

/-- `#trySubscribe`. -/
def subscribe (c : Connection) (lsn : Nat) : Connection :=
  { c with subscribing := c.subscribing ++ [lsn] }

def stop (c : Connection) : Connection :=
  { c with
    stopped := true
    mode := .stopped
    scheduleToken := c.scheduleToken + 1
    pollTimer := false
    keepaliveWatchdog := false
    stream := none }

/-- What a step of the engine can do to its connection, and which sleep it ends. -/
inductive Moves (c : Connection) : Option Nat → Connection → Prop where
  | same : Moves c none c
  | fired (hRunning : c.stopped = false) : Moves c none c.fire
  | settled {index : Nat} (hIndex : index < c.subscribing.length) (hStopped : c.stopped = true) :
      Moves c none (c.settle index)
  | opened {index : Nat} (hIndex : index < c.subscribing.length) (hRunning : c.stopped = false) :
      Moves c none (c.settle index).openStream
  | failed {index : Nat} (hIndex : index < c.subscribing.length) (hRunning : c.stopped = false)
      (hStream : c.stream = none) : Moves c none (c.settle index).reconnect
  | down {stream : Nat} (hStream : c.stream = some stream) (hRunning : c.stopped = false) :
      Moves c none c.reconnect
  | awake {index token : Nat} (hToken : c.sleeping[index]? = some token)
      (hIdle : c.stopped = true ∨ token ≠ c.scheduleToken) : Moves c (some index) (c.awake index)
  | subscribed {index : Nat} (lsn : Nat) (hToken : c.sleeping[index]? = some c.scheduleToken)
      (hRunning : c.stopped = false) : Moves c (some index) ((c.awake index).subscribe lsn)
  | stopped : Moves c none c.stop

structure OneChannel (c : Connection) : Prop where
  dated : ∀ token ∈ c.sleeping, token ≤ c.scheduleToken
  atMost : c.channels ≤ 1
  atLeast : c.stopped = false → c.fired = false →
    1 ≤ c.channels ∧ (c.pollTimer = true ↔ c.mode = .reconnecting)
  streaming : c.mode = .streaming ↔ c.stream.isSome = true
  watched : c.stream.isSome = true → c.keepaliveWatchdog = true
  ended : c.stopped = true → c.stream = none ∧ c.alarms = 0
  latest : ∀ stream, c.stream = some stream → stream + 1 = c.opened

variable {c d : Connection} {index token : Nat}

theorem OneChannel.of_stream {stream : Nat} (h : c.OneChannel) (hStream : c.stream = some stream) :
    c.subscribing = [] ∧ c.alarms = 0 := by
  have hAtMost := h.atMost
  simp only [channels, hStream, Option.toList_some, List.length_singleton] at hAtMost
  exact ⟨List.eq_nil_of_length_eq_zero (by omega), by omega⟩

theorem OneChannel.of_subscribing (h : c.OneChannel) (hIndex : index < c.subscribing.length) :
    c.stream = none ∧ c.alarms = 0 ∧ c.subscribing.eraseIdx index = [] := by
  have hAtMost := h.atMost
  simp only [channels] at hAtMost
  refine ⟨?_, by omega, List.eq_nil_of_length_eq_zero ?_⟩
  · rw [← Option.toList_eq_nil_iff]
    exact List.eq_nil_of_length_eq_zero (by omega)
  · rw [List.length_eraseIdx_of_lt hIndex]
    omega

/-- The sleep that ends was an alarm or not. -/
theorem alarms_awake (hToken : c.sleeping[index]? = some token) :
    c.alarms = (c.awake index).alarms + if token = c.scheduleToken then 1 else 0 := by
  obtain ⟨hLt, rfl⟩ := List.getElem?_eq_some_iff.mp hToken
  rw [alarms, ← (List.getElem_cons_eraseIdx_perm hLt).countP_eq, List.countP_cons]
  simp only [decide_eq_true_eq]
  rfl

theorem OneChannel.of_alarm (h : c.OneChannel) (hToken : c.sleeping[index]? = some c.scheduleToken) :
    c.stream = none ∧ c.subscribing = [] ∧ (c.awake index).alarms = 0 := by
  have hCount := alarms_awake hToken
  rw [if_pos rfl] at hCount
  have hAtMost := h.atMost
  rw [channels] at hAtMost
  refine ⟨?_, List.eq_nil_of_length_eq_zero (by omega), by omega⟩
  rw [← Option.toList_eq_nil_iff]
  exact List.eq_nil_of_length_eq_zero (by omega)

/-- Under a new token no sleep is an alarm. -/
theorem OneChannel.outdated (h : c.OneChannel) :
    c.sleeping.countP (fun token => token = c.scheduleToken + 1) = 0 := by
  rw [List.countP_eq_zero]
  intro token hToken hEq
  exact Nat.ne_of_lt (Nat.lt_succ_of_le (h.dated token hToken)) (of_decide_eq_true hEq)

theorem OneChannel.fire (h : c.OneChannel) (hRunning : c.stopped = false) : c.fire.OneChannel where
  dated token hToken := Nat.le_succ_of_le (h.dated token hToken)
  atMost := by
    have hAlarms : c.fire.alarms = 0 := h.outdated
    have hAtMost := h.atMost
    simp only [channels] at hAtMost
    rw [channels, hAlarms]
    simp only [Connection.fire, Option.toList_none, List.length_nil]
    omega
  atLeast _ hFired := absurd hFired (by simp [Connection.fire])
  streaming := by simp [Connection.fire]
  watched := by simp [Connection.fire]
  ended hStopped := absurd (hRunning.symm.trans hStopped) (by simp)
  latest _ hStream := by cases hStream

/-- `stop` leaves a call of `subscribe` in flight at most. -/
theorem OneChannel.stop (h : c.OneChannel) : c.stop.OneChannel where
  dated token hToken := Nat.le_succ_of_le (h.dated token hToken)
  atMost := by
    have hAlarms : c.stop.alarms = 0 := h.outdated
    have hAtMost := h.atMost
    simp only [channels] at hAtMost
    rw [channels, hAlarms]
    simp only [Connection.stop, Option.toList_none, List.length_nil]
    omega
  atLeast hRunning := absurd hRunning (by simp [Connection.stop])
  streaming := by simp [Connection.stop]
  watched := by simp [Connection.stop]
  ended _ := ⟨rfl, h.outdated⟩
  latest _ hStream := by cases hStream

theorem OneChannel.settle (h : c.OneChannel) (hIndex : index < c.subscribing.length)
    (hStopped : c.stopped = true) : (c.settle index).OneChannel := by
  obtain ⟨hStream, hAlarms, hRest⟩ := h.of_subscribing hIndex
  refine ⟨h.dated, ?_, fun hRunning => ?_, h.streaming, h.watched, h.ended, h.latest⟩
  · rw [alarms] at hAlarms
    simp [channels, alarms, hAlarms, hRest, hStream, Connection.settle]
  · exact absurd (hRunning.symm.trans hStopped) (by simp)

theorem OneChannel.openStream (h : c.OneChannel) (hIndex : index < c.subscribing.length)
    (hRunning : c.stopped = false) : (c.settle index).openStream.OneChannel := by
  obtain ⟨-, hAlarms, hRest⟩ := h.of_subscribing hIndex
  have hOne : (c.settle index).openStream.channels = 1 := by
    rw [alarms] at hAlarms
    simp [channels, alarms, hAlarms, hRest, Connection.settle, Connection.openStream]
  refine ⟨h.dated, Nat.le_of_eq hOne, fun _ _ => ⟨Nat.le_of_eq hOne.symm, ?_⟩, ?_, fun _ => rfl,
    fun hStopped => ?_, ?_⟩
  · simp [Connection.openStream]
  · simp [Connection.openStream]
  · exact absurd (hRunning.symm.trans hStopped) (by simp)
  · intro stream hStream
    cases hStream
    rfl

/-- With none of the three left, a sleep begins. -/
theorem OneChannel.reconnect (h : c.OneChannel) (hRunning : c.stopped = false) (hAlarms : c.alarms = 0)
    (hSubscribing : d.subscribing = []) (hSame : { d with subscribing := c.subscribing } = c) :
    d.reconnect.OneChannel := by
  rw [← hSame] at h hAlarms hRunning
  have hOne : d.reconnect.channels = 1 := by
    rw [alarms] at hAlarms
    simp [channels, alarms, hAlarms, hSubscribing, Connection.reconnect]
  refine ⟨?_, Nat.le_of_eq hOne, fun _ _ => ⟨Nat.le_of_eq hOne.symm, ?_⟩, ?_, ?_, fun hStopped => ?_, ?_⟩
  · intro token hToken
    rcases List.mem_append.mp hToken with hToken | hToken
    · exact h.dated token hToken
    · exact Nat.le_of_eq (List.mem_singleton.mp hToken)
  · simp [Connection.reconnect]
  · simp [Connection.reconnect]
  · simp [Connection.reconnect]
  · exact absurd (hRunning.symm.trans hStopped) (by simp)
  · simp [Connection.reconnect]

/-- A sleep that was no alarm ends. -/
theorem OneChannel.awake (h : c.OneChannel) (hToken : c.sleeping[index]? = some token)
    (hIdle : c.stopped = true ∨ token ≠ c.scheduleToken) : (c.awake index).OneChannel := by
  have hCount := alarms_awake hToken
  have hSame : (c.awake index).alarms = c.alarms := by
    rcases hIdle with hStopped | hOther
    · have hNone := (h.ended hStopped).2
      omega
    · rw [hCount, if_neg hOther, Nat.add_zero]
  have hChannels : (c.awake index).channels = c.channels := by
    rw [channels, hSame, channels]
    rfl
  refine ⟨fun token hToken => h.dated token (List.mem_of_mem_eraseIdx hToken), ?_, ?_, h.streaming,
    h.watched, ?_, h.latest⟩
  · rw [hChannels]
    exact h.atMost
  · rw [hChannels]
    exact h.atLeast
  · rw [hSame]
    exact h.ended

/-- An alarm ends in a call of `subscribe`. -/
theorem OneChannel.subscribe (h : c.OneChannel) (hToken : c.sleeping[index]? = some c.scheduleToken)
    (hRunning : c.stopped = false) (lsn : Nat) : ((c.awake index).subscribe lsn).OneChannel := by
  obtain ⟨hStream, hSubscribing, hAlarms⟩ := h.of_alarm hToken
  have hOne : ((c.awake index).subscribe lsn).channels = 1 := by
    have hSame : ((c.awake index).subscribe lsn).alarms = 0 := hAlarms
    rw [channels, hSame]
    simp [Connection.subscribe, Connection.awake, hStream, hSubscribing]
  refine ⟨fun token hToken => h.dated token (List.mem_of_mem_eraseIdx hToken), Nat.le_of_eq hOne,
    fun _ hFired => ⟨Nat.le_of_eq hOne.symm, (h.atLeast hRunning hFired).2⟩, h.streaming, h.watched,
    fun hStopped => ?_, h.latest⟩
  exact absurd (hRunning.symm.trans hStopped) (by simp)

theorem Moves.oneChannel {sleep : Option Nat} (hMoves : Moves c sleep d) (h : c.OneChannel) :
    d.OneChannel := by
  cases hMoves with
  | same => exact h
  | fired hRunning => exact h.fire hRunning
  | settled hIndex hStopped => exact h.settle hIndex hStopped
  | opened hIndex hRunning => exact h.openStream hIndex hRunning
  | failed hIndex hRunning =>
      obtain ⟨-, hAlarms, hRest⟩ := h.of_subscribing hIndex
      exact h.reconnect hRunning hAlarms hRest rfl
  | down hStream hRunning =>
      obtain ⟨hSubscribing, hAlarms⟩ := h.of_stream hStream
      exact h.reconnect hRunning hAlarms hSubscribing rfl
  | awake hToken hIdle => exact h.awake hToken hIdle
  | subscribed lsn hToken hRunning => exact h.subscribe hToken hRunning lsn
  | stopped => exact h.stop

end Connection

namespace SyncEngineProcess

variable {toNumber : JsString → Option Nat} {s t : SyncEngineProcess} {a : Action}

def connection (s : SyncEngineProcess) : Connection where
  mode := s.mode
  stream := s.stream
  opened := s.opened
  subscribing := s.subscribing
  sleeping := s.sleeping
  scheduleToken := s.scheduleToken
  keepaliveWatchdog := s.keepaliveWatchdog
  pollTimer := s.pollTimer
  fired := s.rebootstrapFired
  stopped := s.stopped

/-- The sleep that the action ends. -/
def Action.sleep : Action → Option Nat
  | .wake index => some index
  | _ => none

theorem resolve_connection (s : SyncEngineProcess) (polled : Bool) :
    (s.resolve polled).connection = s.connection := by
  unfold resolve
  split <;> rfl

theorem nextPage_connection (s : SyncEngineProcess) (moreAvailable : Bool) (pages : Nat) :
    (s.nextPage moreAvailable pages).connection = s.connection := by
  unfold nextPage
  split_ifs <;> rfl

theorem nextEvent_connection (s : SyncEngineProcess) (moreAvailable : Bool) (pages : Nat)
    (events : List WireStreamEvent) : (s.nextEvent moreAvailable pages events).connection = s.connection := by
  cases events with
  | nil => exact nextPage_connection s moreAvailable (pages + 1)
  | cons event rest => rfl

theorem rebootstrap_moves (s : SyncEngineProcess) (reason : String) :
    s.connection.Moves none (s.rebootstrap reason).connection := by
  unfold rebootstrap
  split_ifs with hHalted
  · exact .same
  · simp only [Bool.or_eq_true, not_or, Bool.not_eq_true] at hHalted
    exact .fired hHalted.2

theorem persist_moves (s : SyncEngineProcess) (lsn : Nat) (updated : Except String Unit) :
    s.connection.Moves none (s.persist lsn updated).connection := by
  cases updated with
  | ok => exact .same
  | error message => exact rebootstrap_moves s _

theorem applyEvent_moves (s : SyncEngineProcess) (enqueued : Enqueued) (applied updated : Except String Unit) :
    s.connection.Moves none (s.applyEvent toNumber enqueued applied updated).connection := by
  unfold applyEvent
  split_ifs
  · rw [resolve_connection]
    exact .same
  · split
    · rw [resolve_connection]
      exact .same
    · rw [resolve_connection]
      exact rebootstrap_moves s _
    · rename_i lsn item hCheck
      cases applied with
      | ok =>
          simp only [resolve_connection]
          exact persist_moves ((s.attempt lsn _).complete lsn _) lsn updated
      | error message =>
          simp only [resolve_connection]
          exact rebootstrap_moves (s.attempt lsn _) _
    · exact .same

theorem finishRotation_moves (s : SyncEngineProcess) (rotation : CoordinatedRotation)
    (outcome updated : Except String Unit) :
    s.connection.Moves none (s.finishRotation rotation outcome updated).connection := by
  cases outcome with
  | ok =>
      simp only [finishRotation, resolve_connection]
      exact persist_moves
        { ({ s with rotating := none } : SyncEngineProcess).complete rotation.lsn .rotateOnDemand with
          generation := rotation.expected } rotation.lsn updated
  | error message =>
      simp only [finishRotation, resolve_connection]
      exact rebootstrap_moves { s with rotating := none } _

theorem enterReconnecting_connection (hRunning : s.stopped = false) :
    s.enterReconnecting.connection = { s.connection with
      mode := .reconnecting
      pollTimer := true
      sleeping := s.sleeping ++ [s.scheduleToken] } := by
  cases hTimer : s.pollTimer <;>
    simp [enterReconnecting, startPolling, scheduleReconnect, hRunning, hTimer, connection]

theorem handleStreamDown_moves (s : SyncEngineProcess) (stream : Nat) :
    s.connection.Moves none (s.handleStreamDown stream).connection := by
  unfold handleStreamDown
  split_ifs with hStale
  · exact .same
  · simp only [ne_eq, Bool.or_eq_true, decide_eq_true_eq, not_or, not_not, Bool.not_eq_true] at hStale
    obtain ⟨hRunning, hStream⟩ := hStale
    rw [enterReconnecting_connection (s := { s with stream := none }) hRunning]
    exact .down (c := s.connection) hStream hRunning

/-- A step that neither starts nor stops the engine moves its connection in one of these
ways. A call of `subscribe` is in flight only where there is no stream. -/
theorem step_moves (h : s.connection.OneChannel) (hWorks : Works toNumber s a t) :
    s.connection.Moves a.sleep t.connection := by
  obtain ⟨hStep, hStart⟩ := hWorks
  cases a with
  | start => exact absurd rfl hStart
  | subscribed index =>
      simp only [ofStep, step] at hStep
      split_ifs at hStep with hIndex hStopped <;> cases hStep
      · exact .settled (c := s.connection) hIndex hStopped
      · exact .opened (c := s.connection) hIndex (Bool.not_eq_true _ ▸ hStopped)
  | subscribeFailed index =>
      simp only [ofStep, step] at hStep
      split_ifs at hStep with hIndex
      cases hStep
      by_cases hStopped : s.stopped = true
      · rw [enterReconnecting, if_pos hStopped]
        exact .settled (c := s.connection) hIndex hStopped
      · rw [Bool.not_eq_true] at hStopped
        have hStream := (h.of_subscribing hIndex).1
        have hEq : (s.connection.settle index).reconnect =
            { (s.connection.settle index) with
              mode := .reconnecting
              pollTimer := true
              sleeping := s.sleeping ++ [s.scheduleToken] } := by
          simp only [Connection.reconnect, Connection.settle, hStream]
          rfl
        rw [enterReconnecting_connection
          (s := { s with subscribing := s.subscribing.eraseIdx index }) hStopped]
        exact hEq ▸ Connection.Moves.failed (c := s.connection) hIndex hStopped hStream
  | data stream event =>
      simp only [ofStep, step] at hStep
      split_ifs at hStep
      cases hStep
      exact .same
  | streamDown stream =>
      simp only [ofStep, step] at hStep
      split_ifs at hStep
      cases hStep
      exact handleStreamDown_moves s stream
  | watchdog =>
      simp only [ofStep, step] at hStep
      split_ifs at hStep
      split at hStep <;> cases hStep
      · exact handleStreamDown_moves s _
      · exact .same
  | wake index =>
      simp only [ofStep, step] at hStep
      split at hStep
      · rename_i token hToken
        split_ifs at hStep with hIdle <;> cases hStep
        · simp only [ne_eq, Bool.or_eq_true, decide_eq_true_eq] at hIdle
          exact .awake (c := s.connection) hToken hIdle
        · simp only [ne_eq, Bool.or_eq_true, decide_eq_true_eq, not_or, not_not, Bool.not_eq_true] at hIdle
          obtain ⟨hRunning, rfl⟩ := hIdle
          -- the alarm is all there is, so the engine is not connected
          have hStream : s.stream = none := (h.of_alarm hToken).1
          have hMode : s.mode ≠ .streaming := fun hMode => by simpa [connection, hStream] using h.streaming.mp hMode
          rw [trySubscribe, if_neg (by simp [hRunning, connected, hMode])]
          exact .subscribed (c := s.connection) s.lastAppliedLsn hToken hRunning
      · cases hStep
  | pollTick =>
      simp only [ofStep, step] at hStep
      split_ifs at hStep <;> cases hStep
      · exact .same
      · rw [nextPage_connection]
        exact .same
  | pollResponse events moreAvailable =>
      simp only [ofStep, step] at hStep
      split at hStep
      · split_ifs at hStep <;> cases hStep
        · exact .same
        · rw [nextEvent_connection]
          exact .same
      · cases hStep
  | pollFailed =>
      simp only [ofStep, step] at hStep
      split at hStep <;> cases hStep
      exact .same
  | pollNext =>
      simp only [ofStep, step] at hStep
      split at hStep
      · split_ifs at hStep <;> cases hStep
        · exact .same
        · rw [nextEvent_connection]
          exact .same
      · cases hStep
  | apply applied updated =>
      simp only [ofStep, step] at hStep
      split at hStep
      · rename_i enqueued rest hIdle hChain
        cases hStep
        exact applyEvent_moves { s with chain := rest } enqueued applied updated
      · cases hStep
  | rotated outcome updated =>
      obtain ⟨rotation, -, rfl⟩ := Option.map_eq_some_iff.mp hStep
      exact finishRotation_moves s rotation outcome updated
  | stop =>
      simp only [ofStep, step] at hStep
      split_ifs at hStep <;> cases hStep
      · exact .same
      · exact .stopped

theorem oneChannel_start (initialLsn : Nat) (initialGeneration : Int) :
    (init initialLsn initialGeneration).trySubscribe.connection.OneChannel := by
  refine ⟨?_, ?_, ?_, ?_, ?_, ?_, ?_⟩ <;>
    simp [connection, trySubscribe, init, connected, Connection.channels, Connection.alarms]

/-- An engine that was started once never has more than one of a stream, a call of
`subscribe` in flight and a sleep that leads to one; its stream is the last that was
opened, and it is watched. Until it is stopped or fires it always has one of the three: it
is never stranded, and the polls run exactly while it reconnects. -/
theorem one_channel {initialLsn : Nat} {initialGeneration : Int} {actions : List Action}
    (run : Run (Works toNumber) (init initialLsn initialGeneration).trySubscribe actions s) :
    s.connection.channels ≤ 1 ∧
      (∀ stream, s.stream = some stream → stream + 1 = s.opened ∧ s.keepaliveWatchdog = true) ∧
      (s.connected = true ↔ s.stream.isSome = true) ∧
      (s.stopped = false → s.rebootstrapFired = false →
        s.connection.channels = 1 ∧ (s.pollTimer = true ↔ s.mode = .reconnecting)) := by
  have h : s.connection.OneChannel := run.invariant (P := fun s => s.connection.OneChannel)
    (fun _ _ _ h hWorks => (step_moves h hWorks).oneChannel h) (oneChannel_start initialLsn initialGeneration)
  refine ⟨h.atMost, fun stream hStream => ⟨h.latest stream hStream, h.watched ?_⟩,
    decide_eq_true_iff.trans h.streaming, fun hRunning hFired => ?_⟩
  · exact Option.isSome_of_mem hStream
  · obtain ⟨hAtLeast, hPolling⟩ := h.atLeast hRunning hFired
    exact ⟨Nat.le_antisymm h.atMost hAtLeast, hPolling⟩

/-- The stream breaks twice, and the call that follows is in flight. -/
def flapping : List Action :=
  [.subscribed 0, .streamDown 0, .pollTick, .wake 0, .subscribed 0, .streamDown 0, .streamDown 1,
    .pollFailed, .wake 0]

theorem one_channel_flapping :
    ∃ s, exec (step numberOf) (init 5 2).trySubscribe flapping = some s ∧ s.subscribing = [5] ∧
      s.connection.channels = 1 ∧ (s.pollTimer = true ↔ s.mode = .reconnecting) := by
  obtain ⟨s, hExec, hSubscribing, hRunning, hFired⟩ : ∃ s,
      exec (step numberOf) (init 5 2).trySubscribe flapping = some s ∧ s.subscribing = [5] ∧
        s.stopped = false ∧ s.rebootstrapFired = false := ⟨_, by rfl, by rfl, by rfl, by rfl⟩
  have hRun : Run (Works numberOf) (init 5 2).trySubscribe flapping s :=
    (run_of_exec hExec).restrict (by decide)
  exact ⟨s, hExec, hSubscribing, (one_channel hRun).2.2.2 hRunning hFired⟩

end SyncEngineProcess

end TokenRevoker
