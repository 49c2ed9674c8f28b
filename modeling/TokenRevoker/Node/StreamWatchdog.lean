import TokenRevoker.Library.Timers
import TokenRevoker.Node.SingleChannel

/-! The timers of the engine, in milliseconds, where timers are on time. A stream on which
nothing gets applied is given up within four keepalive intervals, and never within three; an
engine without a stream calls `subscribe` again before the longest backoff is over. -/
namespace TokenRevoker

open Text Transition Timers

/-- The intervals and delays of `SyncEngineOptions`. -/
structure EngineTiming where
  keepaliveIntervalMs : Nat := 5000
  baseReconnectDelayMs : Nat := 1000
  maxReconnectDelayMs : Nat := 30000
  deriving DecidableEq

namespace EngineTiming

/-- `MISSED_KEEPALIVES`. -/
def missedKeepalives : Nat := 3

/-- The silence that the watchdog bears. -/
def patience (timing : EngineTiming) : Nat := missedKeepalives * timing.keepaliveIntervalMs

/-- `rawDelay` of `#scheduleReconnect`. -/
def rawDelay (timing : EngineTiming) (attempt : Nat) : Nat :=
  min (timing.baseReconnectDelayMs * 2 ^ min attempt 14) timing.maxReconnectDelayMs

/-- `withJitter` can make `delayMs` of `rawDelay`: 20 percent to either side, rounded to the
nearest millisecond. A fifth of a whole number is never halfway between two. -/
def jittered (rawDelay delayMs : Nat) : Bool :=
  decide (4 * rawDelay ≤ 5 * delayMs + 2) && decide (5 * delayMs ≤ 6 * rawDelay + 2)

/-- No backoff lasts longer. -/
def longestDelay (timing : EngineTiming) : Nat := (6 * timing.maxReconnectDelayMs + 2) / 5

theorem le_longestDelay {timing : EngineTiming} {attempt delayMs : Nat}
    (hJitter : jittered (timing.rawDelay attempt) delayMs = true) : delayMs ≤ timing.longestDelay := by
  simp only [jittered, Bool.and_eq_true, decide_eq_true_eq] at hJitter
  have hRaw : timing.rawDelay attempt ≤ timing.maxReconnectDelayMs := Nat.min_le_right _ _
  rw [longestDelay, Nat.le_div_iff_mul_le (by decide)]
  omega

end EngineTiming

/-- The engine with its clock. `wakes` are the ends of its sleeps, in their order. -/
structure TimedEngine where
  engine : SyncEngineProcess
  now : Nat
  lastStreamActivityAt : Nat := 0
  watchdogDue : Option Nat := none
  reconnectAttempt : Nat := 0
  wakes : List Nat := []
  deriving DecidableEq

namespace TimedEngine

inductive Action where
  /-- A millisecond passes. -/
  | tick
  /-- The callback of the watchdog's interval. -/
  | watchdog (delayMs : Nat)
  /-- Anything else; `delayMs` is the delay that `#scheduleReconnect` draws, if it is called. -/
  | engine (a : SyncEngineProcess.Action) (delayMs : Nat)
  deriving DecidableEq

/-- A new engine, after `start`. -/
def start (initialLsn : Nat) (initialGeneration : Int) (now : Nat) : TimedEngine where
  engine := (SyncEngineProcess.init initialLsn initialGeneration).trySubscribe
  now := now

/-- The step opens a stream. -/
def opens (s next : SyncEngineProcess) : Bool := next.opened ≠ s.opened

/-- `#scheduleReconnect` is called. -/
def retries (s next : SyncEngineProcess) : Bool := s.sleeping.length < next.sleeping.length

/-- `#lastStreamActivityAt` is stamped: a stream opens, or `#applyEvent` comes to the end of a
keepalive or of an event that it applied. -/
def beats (s : SyncEngineProcess) (a : SyncEngineProcess.Action) (next : SyncEngineProcess) : Bool :=
  opens s next || s.receivesKeepalive a || decide (next.lastAppliedLsn ≠ s.lastAppliedLsn)

/-- The clock's side of a step of the engine. -/
def advance (timing : EngineTiming) (s : TimedEngine) (a : SyncEngineProcess.Action) (delayMs : Nat)
    (next : SyncEngineProcess) : TimedEngine where
  engine := next
  now := s.now
  lastStreamActivityAt := if beats s.engine a next then s.now else s.lastStreamActivityAt
  watchdogDue :=
    if next.keepaliveWatchdog = false then none
    else if opens s.engine next then some (s.now + timing.keepaliveIntervalMs)
    else s.watchdogDue
  reconnectAttempt :=
    if opens s.engine next then 0
    else if retries s.engine next then s.reconnectAttempt + 1
    else s.reconnectAttempt
  wakes :=
    a.sleep.elim s.wakes s.wakes.eraseIdx ++ if retries s.engine next then [s.now + delayMs] else []

/-- A step of the engine, with a delay that `withJitter` can make. -/
def perform (timing : EngineTiming) (toNumber : JsString → Option Nat) (s : TimedEngine)
    (a : SyncEngineProcess.Action) (delayMs : Nat) : Option TimedEngine :=
  (s.engine.step toNumber a).bind fun next =>
    if retries s.engine next && !EngineTiming.jittered (timing.rawDelay s.reconnectAttempt) delayMs then none
    else some (s.advance timing a delayMs next)

/-- The callback of `#startKeepaliveWatchdog`. -/
def look (timing : EngineTiming) (toNumber : JsString → Option Nat) (s : TimedEngine) (delayMs : Nat) :
    Option TimedEngine :=
  if s.engine.stopped || !s.engine.connected || s.engine.stream.isNone then some s
  else if s.now - s.lastStreamActivityAt > timing.patience then s.perform timing toNumber .watchdog delayMs
  else some s

def step (timing : EngineTiming) (toNumber : JsString → Option Nat) (s : TimedEngine) :
    Action → Option TimedEngine
  | .tick =>
      if idle s.now (s.watchdogDue.toList ++ s.wakes) then some { s with now := s.now + 1 } else none
  | .watchdog delayMs =>
      match s.watchdogDue with
      | some due =>
          if due ≤ s.now then
            look timing toNumber { s with watchdogDue := some (s.now + timing.keepaliveIntervalMs) } delayMs
          else none
      | none => none
  | .engine a delayMs =>
      match a with
      | .start | .watchdog => none
      | .wake index =>
          match s.wakes[index]? with
          | some due => if due ≤ s.now then s.perform timing toNumber (.wake index) delayMs else none
          | none => none
      | a => s.perform timing toNumber a delayMs

/-- The step gives a sign of life. -/
def beat (s : TimedEngine) (a : Action) (t : TimedEngine) : Bool :=
  match a with
  | .engine a _ => beats s.engine a t.engine
  | _ => false

/-- The steps without one. -/
def Silent (timing : EngineTiming) (toNumber : JsString → Option Nat) (s : TimedEngine) (a : Action)
    (t : TimedEngine) : Prop :=
  step timing toNumber s a = some t ∧ beat s a t = false

/-- The engine works, with neither a stream nor a call of `subscribe` in flight. -/
def waits (s : TimedEngine) : Bool :=
  !s.engine.stopped && !s.engine.rebootstrapFired && s.engine.stream.isNone && s.engine.subscribing.isEmpty

/-- The steps after which it still waits. -/
def Waits (timing : EngineTiming) (toNumber : JsString → Option Nat) (s : TimedEngine) (a : Action)
    (t : TimedEngine) : Prop :=
  step timing toNumber s a = some t ∧ t.waits = true

variable {timing : EngineTiming} {toNumber : JsString → Option Nat} {s t : TimedEngine}
  {a : SyncEngineProcess.Action} {next : SyncEngineProcess} {delayMs : Nat}

/-- The timers are on time, and none of them is far away. -/
structure Timely (timing : EngineTiming) (s : TimedEngine) : Prop where
  channel : s.engine.connection.OneChannel
  last_le : s.lastStreamActivityAt ≤ s.now
  length : s.wakes.length = s.engine.sleeping.length
  punctual : Punctual s.now s.wakes
  near : ∀ due ∈ s.wakes, due ≤ s.now + timing.longestDelay

/-- The watchdog still trusts the stream, if there is one. -/
def Watched (timing : EngineTiming) (s : TimedEngine) : Prop :=
  s.engine.stream.isSome = true → ∃ due, s.watchdogDue = some due ∧
    Trusts timing.keepaliveIntervalMs timing.patience s.now s.lastStreamActivityAt due

theorem jittered_rawDelay (rawDelay : Nat) : EngineTiming.jittered rawDelay rawDelay = true := by
  simp only [EngineTiming.jittered, Bool.and_eq_true, decide_eq_true_eq]
  omega

/-- What a move does to the sleeps: one ends or one begins. -/
theorem sleeping_of_moves {c d : Connection} {sleep : Option Nat} (hMoves : c.Moves sleep d) :
    d.sleeping = sleep.elim c.sleeping c.sleeping.eraseIdx ++
      if c.sleeping.length < d.sleeping.length then [c.scheduleToken] else [] := by
  cases hMoves with
  | same | fired | settled | opened | stopped =>
      simp [Connection.fire, Connection.settle, Connection.openStream, Connection.stop]
  | failed | down => simp [Connection.reconnect, Connection.settle]
  | awake | subscribed =>
      simp [Connection.awake, Connection.subscribe, Nat.not_lt.mpr (List.length_eraseIdx_le ..)]

/-- Without a new stream, the stream is the one that was there. -/
theorem stream_of_moves {c d : Connection} {sleep : Option Nat} (hMoves : c.Moves sleep d)
    (hOpened : d.opened = c.opened) (hStream : d.stream.isSome = true) : c.stream.isSome = true := by
  cases hMoves with
  | same | settled | awake | subscribed => exact hStream
  | fired | failed | down | stopped => cases hStream
  | opened => exact absurd hOpened (Nat.succ_ne_self _)

theorem advance_timely (h : Timely timing s) (hWorks : SyncEngineProcess.Works toNumber s.engine a next)
    (hJitter : retries s.engine next = true →
      EngineTiming.jittered (timing.rawDelay s.reconnectAttempt) delayMs = true) :
    Timely timing (s.advance timing a delayMs next) := by
  have hMoves := SyncEngineProcess.step_moves h.channel hWorks
  have hSleeping := sleeping_of_moves hMoves
  have hWake : ∀ due ∈ (s.advance timing a delayMs next).wakes,
      due ∈ s.wakes ∨ (due = s.now + delayMs ∧ retries s.engine next = true) := by
    intro due hDue
    rcases List.mem_append.mp hDue with hOld | hNew
    · cases hSleep : a.sleep with
      | none => exact Or.inl (by simpa [hSleep] using hOld)
      | some index => exact Or.inl (List.mem_of_mem_eraseIdx (by simpa [hSleep] using hOld))
    · split_ifs at hNew with hRetries
      · exact Or.inr ⟨List.mem_singleton.mp hNew, hRetries⟩
      · cases hNew
  refine ⟨hMoves.oneChannel h.channel, ?_, ?_, ?_, ?_⟩
  · show (if beats s.engine a next then s.now else s.lastStreamActivityAt) ≤ s.now
    split_ifs
    · exact Nat.le_refl _
    · exact h.last_le
  · show (a.sleep.elim s.wakes s.wakes.eraseIdx ++ _).length = next.connection.sleeping.length
    rw [hSleeping]
    by_cases hRetries : s.engine.sleeping.length < next.sleeping.length <;> cases a.sleep <;>
      simp [SyncEngineProcess.connection, retries, List.length_eraseIdx, h.length, hRetries]
  · intro due hDue
    rcases hWake due hDue with hOld | ⟨rfl, -⟩
    · exact h.punctual due hOld
    · exact Nat.le_add_right _ _
  · intro due hDue
    rcases hWake due hDue with hOld | ⟨rfl, hRetries⟩
    · exact h.near due hOld
    · exact Nat.add_le_add_left (EngineTiming.le_longestDelay (hJitter hRetries)) _

/-- A stream that opens is trusted, and a stream that stays is trusted as before. -/
theorem advance_watched (h : Timely timing s) (hWatched : Watched timing s)
    (hWorks : SyncEngineProcess.Works toNumber s.engine a next) :
    Watched timing (s.advance timing a delayMs next) := by
  intro hStream
  have hMoves := SyncEngineProcess.step_moves h.channel hWorks
  have hArmed : next.keepaliveWatchdog = true := (hMoves.oneChannel h.channel).watched hStream
  by_cases hOpens : opens s.engine next = true
  · refine ⟨s.now + timing.keepaliveIntervalMs, by simp [advance, hArmed, hOpens], ?_⟩
    have hStamp : (s.advance timing a delayMs next).lastStreamActivityAt = s.now := by
      simp [advance, beats, hOpens]
    rw [hStamp]
    exact Trusts.start ..
  · have hOpened : next.opened = s.engine.opened := by simpa [opens] using hOpens
    obtain ⟨due, hDue, hTrusts⟩ := hWatched (stream_of_moves hMoves hOpened hStream)
    refine ⟨due, by simp [advance, hArmed, hOpens, hDue], ?_⟩
    show Trusts _ _ s.now (if beats s.engine a next then s.now else s.lastStreamActivityAt) due
    split_ifs
    · exact hTrusts.beat
    · exact hTrusts

theorem perform_eq_some (hPerform : s.perform timing toNumber a delayMs = some t) :
    ∃ next, s.engine.step toNumber a = some next ∧ t = s.advance timing a delayMs next ∧
      (retries s.engine next = true →
        EngineTiming.jittered (timing.rawDelay s.reconnectAttempt) delayMs = true) := by
  obtain ⟨next, hStep, hNext⟩ := Option.bind_eq_some_iff.mp hPerform
  split_ifs at hNext with hBad
  cases hNext
  refine ⟨next, hStep, rfl, fun hRetries => ?_⟩
  simpa [hRetries] using hBad

/-- The step of the engine behind an action. -/
theorem engine_step {action : SyncEngineProcess.Action}
    (hStep : step timing toNumber s (.engine action delayMs) = some t) :
    s.perform timing toNumber action delayMs = some t ∧ action ≠ .start ∧
      ∀ index, action = .wake index → ∃ due, s.wakes[index]? = some due ∧ due ≤ s.now := by
  cases action with
  | start | watchdog => cases hStep
  | wake index =>
      simp only [step] at hStep
      split at hStep
      · rename_i due hDue
        split_ifs at hStep with hLate
        exact ⟨hStep, by simp, fun _ hEq => by cases hEq; exact ⟨due, hDue, hLate⟩⟩
      · cases hStep
  | _ => exact ⟨hStep, by simp, by simp⟩

/-- The callback gives a stream up that was silent for too long, or does nothing. -/
theorem look_cases (hLook : look timing toNumber s delayMs = some t) :
    (t = s ∧ (s.engine.stream.isSome = true → s.engine.stopped = false → s.engine.connected = true →
      s.now - s.lastStreamActivityAt ≤ timing.patience)) ∨
    (timing.patience < s.now - s.lastStreamActivityAt ∧ s.engine.stopped = false ∧
      s.perform timing toNumber .watchdog delayMs = some t) := by
  unfold look at hLook
  split_ifs at hLook with hIdle hSilent
  · cases hLook
    refine Or.inl ⟨rfl, fun hStream hRunning hConnected => ?_⟩
    cases hSome : s.engine.stream with
    | none => simp [hSome] at hStream
    | some stream => simp [hSome, hRunning, hConnected] at hIdle
  · simp only [Bool.or_eq_true, not_or, Bool.not_eq_true] at hIdle
    exact Or.inr ⟨hSilent, hIdle.1.1, hLook⟩
  · cases hLook
    exact Or.inl ⟨rfl, fun _ _ _ => Nat.le_of_not_lt hSilent⟩

theorem watchdog_step {due : Nat} (hDue : s.watchdogDue = some due)
    (hStep : step timing toNumber s (.watchdog delayMs) = some t) :
    due ≤ s.now ∧
      look timing toNumber { s with watchdogDue := some (s.now + timing.keepaliveIntervalMs) } delayMs =
        some t := by
  simp only [step, hDue] at hStep
  split_ifs at hStep with hLate
  exact ⟨hLate, hStep⟩

/-- A stream that the watchdog gives up is gone, without a sign of life. -/
theorem given_up {s t : SyncEngineProcess} (hRunning : s.stopped = false)
    (hStep : s.step toNumber .watchdog = some t) :
    t.stream = none ∧ beats s .watchdog t = false := by
  simp only [SyncEngineProcess.step] at hStep
  split_ifs at hStep
  split at hStep <;> cases hStep
  · rename_i stream hStream
    have hConnection := SyncEngineProcess.enterReconnecting_connection
      (s := { s with stream := none }) hRunning
    have hDown : s.handleStreamDown stream = ({ s with stream := none } : SyncEngineProcess).enterReconnecting := by
      simp [SyncEngineProcess.handleStreamDown, hRunning, hStream]
    have hOpened : (s.handleStreamDown stream).opened = s.opened := by
      rw [hDown]
      exact congrArg (·.opened) hConnection
    have hCursor := (SyncEngineProcess.handleStreamDown_quiet s stream).cursor
    refine ⟨?_, by simp [beats, opens, hOpened, hCursor, SyncEngineProcess.receivesKeepalive]⟩
    rw [hDown]
    exact congrArg (·.stream) hConnection
  · rename_i hStream
    exact ⟨hStream, by simp [beats, opens, SyncEngineProcess.receivesKeepalive]⟩

theorem step_timely {action : Action} (h : Timely timing s) (hWatched : Watched timing s)
    (hStep : step timing toNumber s action = some t) : Timely timing t ∧ Watched timing t := by
  cases action with
  | tick =>
      simp only [step] at hStep
      split_ifs at hStep with hIdle
      cases hStep
      simp only [idle, List.all_append, Bool.and_eq_true] at hIdle
      refine ⟨⟨h.channel, Nat.le_succ_of_le h.last_le, h.length, Punctual.pass hIdle.2, ?_⟩, ?_⟩
      · intro due hDue
        have := h.near due hDue
        show due ≤ s.now + 1 + timing.longestDelay
        omega
      · intro hStream
        obtain ⟨due, hDue, hTrusts⟩ := hWatched hStream
        have hNotDue : s.now < due := by simpa [hDue] using hIdle.1
        exact ⟨due, hDue, hTrusts.pass hNotDue⟩
  | watchdog delayMs =>
      cases hDue : s.watchdogDue with
      | none => simp [step, hDue] at hStep
      | some due =>
          obtain ⟨-, hLook⟩ := watchdog_step hDue hStep
          -- the interval goes on whatever the callback finds
          have hAgain : Timely timing { s with watchdogDue := some (s.now + timing.keepaliveIntervalMs) } :=
            ⟨h.channel, h.last_le, h.length, h.punctual, h.near⟩
          rcases look_cases hLook with ⟨rfl, hBorne⟩ | ⟨-, hRunning, hPerform⟩
          · refine ⟨hAgain, fun hStream => ⟨_, rfl, ?_⟩⟩
            obtain ⟨due, -, hTrusts⟩ := hWatched hStream
            have hRunning : s.engine.stopped = false := by
              by_contra hStopped
              have hNone := (h.channel.ended (Bool.not_eq_false _ ▸ hStopped)).1
              rw [show s.engine.stream = none from hNone] at hStream
              cases hStream
            exact hTrusts.look (hBorne hStream hRunning (decide_eq_true (h.channel.streaming.mpr hStream)))
          · obtain ⟨next, hNext, rfl, hJitter⟩ := perform_eq_some hPerform
            refine ⟨advance_timely hAgain ⟨hNext, by simp⟩ hJitter, fun hStream => ?_⟩
            rw [show (advance timing _ _ _ next).engine.stream = none from (given_up hRunning hNext).1] at hStream
            cases hStream
  | engine action delayMs =>
      obtain ⟨hPerform, hStart, -⟩ := engine_step hStep
      obtain ⟨next, hNext, rfl, hJitter⟩ := perform_eq_some hPerform
      exact ⟨advance_timely h ⟨hNext, hStart⟩ hJitter, advance_watched h hWatched ⟨hNext, hStart⟩⟩

theorem run_timely {actions : List Action} (run : Run (ofStep (step timing toNumber)) s actions t)
    (h : Timely timing s) (hWatched : Watched timing s) : Timely timing t ∧ Watched timing t :=
  run.invariant (P := fun s => Timely timing s ∧ Watched timing s)
    (fun _ _ _ h hStep => step_timely h.1 h.2 hStep) ⟨h, hWatched⟩

theorem start_timely (timing : EngineTiming) (initialLsn : Nat) (initialGeneration : Int) (now : Nat) :
    Timely timing (start initialLsn initialGeneration now) ∧
      Watched timing (start initialLsn initialGeneration now) := by
  refine ⟨⟨SyncEngineProcess.oneChannel_start initialLsn initialGeneration, Nat.zero_le _, rfl, ?_, ?_⟩, ?_⟩
  · exact fun due hDue => absurd hDue List.not_mem_nil
  · exact fun due hDue => absurd hDue List.not_mem_nil
  · intro hStream
    cases hStream

/-- The step, where it ends in a state that meets a test. -/
def stepWhere (test : TimedEngine → Action → TimedEngine → Bool) (timing : EngineTiming)
    (toNumber : JsString → Option Nat) (s : TimedEngine) (action : Action) : Option TimedEngine :=
  (step timing toNumber s action).filter (test s action)

theorem run_of_stepWhere {test : TimedEngine → Action → TimedEngine → Bool} {actions : List Action}
    {R : TimedEngine → Action → TimedEngine → Prop}
    (hTest : ∀ s action t, step timing toNumber s action = some t → test s action t = true → R s action t)
    (hExec : exec (stepWhere test timing toNumber) s actions = some t) : Run R s actions t := by
  refine (run_of_exec hExec).mono fun s action t hStep => ?_
  obtain ⟨hStep, hMeets⟩ := Option.filter_eq_some_iff.mp hStep
  exact hTest s action t hStep hMeets

/-- A watchdog that looks every millisecond. -/
def hasty : EngineTiming := ⟨1, 1, 2⟩

/-- Four milliseconds of silence, until the last look of the watchdog. -/
def silence : List Action := [.tick, .watchdog 0, .tick, .watchdog 0, .tick, .watchdog 0, .tick]

theorem waits_iff : s.waits = true ↔ s.engine.stopped = false ∧ s.engine.rebootstrapFired = false ∧
    s.engine.stream = none ∧ s.engine.subscribing = [] := by
  simp only [waits, Bool.and_eq_true, Bool.not_eq_true', Option.isNone_iff_eq_none, List.isEmpty_iff]
  tauto

/-- The sleep of now rings by `bound`. -/
def Rings (s : TimedEngine) (bound : Nat) : Prop :=
  ∃ index due : Nat, s.engine.sleeping[index]? = some s.engine.scheduleToken ∧ s.wakes[index]? = some due ∧
    due ≤ bound

theorem Timely.rings (h : Timely timing s) (hWaits : s.waits = true) :
    Rings s (s.now + timing.longestDelay) := by
  obtain ⟨hRunning, hFired, hStream, hSubscribing⟩ := waits_iff.mp hWaits
  have hAtLeast := (h.channel.atLeast hRunning hFired).1
  have hAlarm : 0 < s.engine.sleeping.countP fun token => token = s.engine.scheduleToken := by
    simpa [Connection.channels, Connection.alarms, SyncEngineProcess.connection, hStream, hSubscribing]
      using hAtLeast
  obtain ⟨token, hMem, hToken⟩ := List.countP_pos_iff.mp hAlarm
  obtain ⟨index, hLt, rfl⟩ := List.mem_iff_getElem.mp hMem
  have hWake : index < s.wakes.length := h.length ▸ hLt
  refine ⟨index, s.wakes[index], ?_, List.getElem?_eq_getElem hWake, h.near _ (List.getElem_mem hWake)⟩
  rw [List.getElem?_eq_getElem hLt, of_decide_eq_true hToken]

/-- An engine that waits before and after a move has at most got rid of a sleep that leads
nowhere. -/
theorem waiting_move {c d : Connection} {sleep : Option Nat} (hMoves : c.Moves sleep d)
    (hRunning : d.stopped = false) (hFired : d.fired = false) (hStream : c.stream = none)
    (hBefore : c.subscribing = []) (hAfter : d.subscribing = []) :
    d.scheduleToken = c.scheduleToken ∧
      ((sleep = none ∧ d.sleeping = c.sleeping) ∨ ∃ index, sleep = some index ∧
        d.sleeping = c.sleeping.eraseIdx index ∧ c.sleeping[index]? ≠ some c.scheduleToken) := by
  cases hMoves with
  | same => exact ⟨rfl, Or.inl ⟨rfl, rfl⟩⟩
  | fired => cases hFired
  | settled hIndex | opened hIndex | failed hIndex => simp [hBefore] at hIndex
  | down hSome => simp [hStream] at hSome
  | awake hToken hIdle =>
      refine ⟨rfl, Or.inr ⟨_, rfl, rfl, fun hAlarm => ?_⟩⟩
      rw [hToken, Option.some_inj] at hAlarm
      rcases hIdle with hStopped | hOther
      · exact absurd (hRunning.symm.trans hStopped) (by simp)
      · exact hOther hAlarm
  | subscribed => simp [Connection.subscribe] at hAfter
  | stopped => cases hRunning

/-- A sleep keeps its end, wherever it moves to in the list. -/
theorem getElem?_eraseIdx_pair {α β : Type} {xs : List α} {ys : List β} {x : α} {y : β} {i j : Nat}
    (hX : xs[i]? = some x) (hY : ys[i]? = some y) (hOther : i ≠ j) :
    ∃ k : Nat, (xs.eraseIdx j)[k]? = some x ∧ (ys.eraseIdx j)[k]? = some y := by
  by_cases hLt : i < j
  · exact ⟨i, by rw [List.getElem?_eraseIdx_of_lt hLt, hX], by rw [List.getElem?_eraseIdx_of_lt hLt, hY]⟩
  · refine ⟨i - 1, ?_, ?_⟩
    · rw [List.getElem?_eraseIdx_of_ge (by omega), Nat.sub_add_cancel (by omega), hX]
    · rw [List.getElem?_eraseIdx_of_ge (by omega), Nat.sub_add_cancel (by omega), hY]

theorem step_rings {action : Action} {bound : Nat} (h : Timely timing s) (hBefore : s.waits = true)
    (hRings : Rings s bound) (hStep : Waits timing toNumber s action t) : Rings t bound := by
  obtain ⟨hStep, hAfter⟩ := hStep
  obtain ⟨-, -, hStream, hSubscribing⟩ := waits_iff.mp hBefore
  obtain ⟨hRunning, hFired, -, hSubscribing'⟩ := waits_iff.mp hAfter
  obtain ⟨index, due, hToken, hDue, hLe⟩ := hRings
  cases action with
  | tick =>
      simp only [step] at hStep
      split_ifs at hStep
      cases hStep
      exact ⟨index, due, hToken, hDue, hLe⟩
  | watchdog delayMs =>
      have hMode : s.engine.connected = false := by
        rw [SyncEngineProcess.connected, decide_eq_false_iff_not]
        intro hMode
        have hSome : s.engine.stream.isSome = true := h.channel.streaming.mp hMode
        simp [hStream] at hSome
      cases hWatchdog : s.watchdogDue with
      | none => simp [step, hWatchdog] at hStep
      | some due =>
          obtain ⟨-, hLook⟩ := watchdog_step hWatchdog hStep
          simp only [look, hMode, Bool.not_false, Bool.or_true, Bool.true_or, if_true] at hLook
          cases hLook
          exact ⟨index, _, hToken, hDue, hLe⟩
  | engine action delayMs =>
      obtain ⟨hPerform, hStart, -⟩ := engine_step hStep
      obtain ⟨next, hNext, rfl, -⟩ := perform_eq_some hPerform
      obtain ⟨hSame, hSleep⟩ := waiting_move (SyncEngineProcess.step_moves h.channel ⟨hNext, hStart⟩)
        hRunning hFired hStream hSubscribing hSubscribing'
      have hSame : next.scheduleToken = s.engine.scheduleToken := hSame
      rcases hSleep with ⟨hNone, hSleeping⟩ | ⟨ended, hEnded, hSleeping, hOther⟩
      · have hSleeping : next.sleeping = s.engine.sleeping := hSleeping
        refine ⟨index, due, ?_, ?_, hLe⟩
        · rw [show (s.advance timing action delayMs next).engine = next from rfl, hSame, hSleeping, hToken]
        · simp [advance, hNone, retries, hSleeping, hDue]
      · have hSleeping : next.sleeping = s.engine.sleeping.eraseIdx ended := hSleeping
        have hNe : index ≠ ended := by
          rintro rfl
          exact hOther hToken
        obtain ⟨moved, hMovedToken, hMovedDue⟩ := getElem?_eraseIdx_pair hToken hDue hNe
        refine ⟨moved, due, ?_, ?_, hLe⟩
        · rw [show (s.advance timing action delayMs next).engine = next from rfl, hSame, hSleeping,
            hMovedToken]
        · have hNoRetry : retries s.engine next = false := by
            simp [retries, hSleeping, List.length_eraseIdx_le]
          simp [advance, hEnded, hNoRetry, hMovedDue]

/-- With the delay in the middle, what the engine can do it can do now. -/
theorem exists_perform (hStep : s.engine.step toNumber a = some next) :
    ∃ t, s.perform timing toNumber a (timing.rawDelay s.reconnectAttempt) = some t := by
  rw [perform, hStep, Option.bind_some, if_neg (by simp [jittered_rawDelay])]
  exact ⟨_, rfl⟩

/-- The callback of a timer. -/
def Action.isCallback : Action → Bool
  | .tick => false
  | .watchdog _ => true
  | .engine a _ => a.sleep.isSome

/-- Time can pass, or a callback that is due can run. -/
theorem Timely.proceeds (h : Timely timing s) (toNumber : JsString → Option Nat) :
    ∃ action t, step timing toNumber s action = some t ∧
      (action = .tick ∨ action.isCallback = true) := by
  by_cases hIdle : idle s.now (s.watchdogDue.toList ++ s.wakes) = true
  · exact ⟨.tick, _, if_pos hIdle, Or.inl rfl⟩
  · obtain ⟨due, hDue, hLate⟩ : ∃ due ∈ s.watchdogDue.toList ++ s.wakes, due ≤ s.now := by
      simp only [idle, List.all_eq_true, decide_eq_true_eq] at hIdle
      push Not at hIdle
      exact hIdle
    rcases List.mem_append.mp hDue with hWatchdog | hWake
    · have hWatchdog : s.watchdogDue = some due := by simpa using hWatchdog
      let again : TimedEngine := { s with watchdogDue := some (s.now + timing.keepaliveIntervalMs) }
      obtain ⟨t, hLook⟩ : ∃ t, look timing toNumber again (timing.rawDelay s.reconnectAttempt) = some t := by
        unfold look
        split_ifs with hNothing hSilent
        · exact ⟨_, rfl⟩
        · simp only [Bool.or_eq_true, not_or, Bool.not_eq_true, Bool.not_eq_false'] at hNothing
          obtain ⟨⟨-, hConnected⟩, -⟩ := hNothing
          have hArmed : s.engine.keepaliveWatchdog = true :=
            h.channel.watched (h.channel.streaming.mp (of_decide_eq_true hConnected))
          obtain ⟨next, hNext⟩ : ∃ next, again.engine.step toNumber .watchdog = some next := by
            simp only [SyncEngineProcess.step, again, hArmed]
            rw [show s.engine.connected = true from hConnected]
            cases s.engine.stream <;> exact ⟨_, rfl⟩
          exact exists_perform (s := again) hNext
        · exact ⟨_, rfl⟩
      refine ⟨.watchdog (timing.rawDelay s.reconnectAttempt), t, ?_, Or.inr rfl⟩
      simp only [step, hWatchdog, hLate, if_true]
      exact hLook
    · obtain ⟨index, hLt, rfl⟩ := List.mem_iff_getElem.mp hWake
      have hSleep : index < s.engine.sleeping.length := h.length ▸ hLt
      obtain ⟨next, hNext⟩ : ∃ next, s.engine.step toNumber (.wake index) = some next := by
        simp only [SyncEngineProcess.step, List.getElem?_eq_getElem hSleep]
        split_ifs <;> exact ⟨_, rfl⟩
      obtain ⟨t, hPerform⟩ : ∃ t,
          s.perform timing toNumber (.wake index) (timing.rawDelay s.reconnectAttempt) = some t :=
        exists_perform hNext
      refine ⟨.engine (.wake index) (timing.rawDelay s.reconnectAttempt), t, ?_, Or.inr rfl⟩
      simp only [step, List.getElem?_eq_getElem hLt, hLate, if_true]
      exact hPerform

/-- An engine that works, without a stream and without a call of `subscribe` in flight, does
not stay so for longer than the longest backoff: a sleep is going to end by then, its end is a
call of `subscribe`, and nothing holds the clock up but callbacks that can run. -/
theorem reconnects_within {initialLsn : Nat} {initialGeneration : Int} {now : Nat} {actions waiting : List Action}
    {s t : TimedEngine}
    (run : Run (ofStep (step timing toNumber)) (start initialLsn initialGeneration now) actions s)
    (hWaits : s.waits = true) (hWaiting : Run (Waits timing toNumber) s waiting t) :
    t.now ≤ s.now + timing.longestDelay ∧
      (∃ index due : Nat, t.wakes[index]? = some due ∧ t.now ≤ due ∧ due ≤ s.now + timing.longestDelay ∧
        ∀ delayMs u, step timing toNumber t (.engine (.wake index) delayMs) = some u →
          u.engine.subscribing = [t.engine.lastAppliedLsn]) ∧
      ∃ action u, step timing toNumber t action = some u ∧ (action = .tick ∨ action.isCallback = true) := by
  obtain ⟨hTimely, hWatched⟩ := start_timely timing initialLsn initialGeneration now
  obtain ⟨hTimely, hWatched⟩ := run_timely run hTimely hWatched
  obtain ⟨hEnd, -, hWaitsEnd, index, due, hToken, hDue, hLe⟩ := hWaiting.invariant
    (P := fun u => Timely timing u ∧ Watched timing u ∧ u.waits = true ∧
      Rings u (s.now + timing.longestDelay))
    (fun u action v hu hStep => by
      obtain ⟨hTimely, hWatched, hWaits, hRings⟩ := hu
      obtain ⟨hTimely', hWatched'⟩ := step_timely hTimely hWatched hStep.1
      exact ⟨hTimely', hWatched', hStep.2, step_rings hTimely hWaits hRings hStep⟩)
    ⟨hTimely, hWatched, hWaits, hTimely.rings hWaits⟩
  have hNow : t.now ≤ due := hEnd.punctual due (List.mem_of_getElem? hDue)
  refine ⟨Nat.le_trans hNow hLe, ⟨index, due, hDue, hNow, hLe, fun delayMs u hWake => ?_⟩,
    hEnd.proceeds toNumber⟩
  obtain ⟨hRunning, -, hStream, hSubscribing⟩ := waits_iff.mp hWaitsEnd
  obtain ⟨next, hNext, rfl, -⟩ := perform_eq_some (engine_step hWake).1
  have hMode : t.engine.mode ≠ .streaming := fun hMode => by
    have hSome : t.engine.stream.isSome = true := hEnd.channel.streaming.mp hMode
    simp [hStream] at hSome
  simp [SyncEngineProcess.step, hToken, hRunning, SyncEngineProcess.trySubscribe,
    SyncEngineProcess.connected, hMode, hSubscribing] at hNext
  rw [← hNext]
  rfl

theorem reconnects_within_hasty :
    ∃ s t, exec (step hasty numberOf) (start 5 2 0) [.engine (.subscribeFailed 0) 1] = some s ∧
      exec (step hasty numberOf) s [.engine .pollTick 0, .tick] = some t ∧
      t.now ≤ s.now + 2 := by
  obtain ⟨s, t, hFailed, hTicked, hWaits, hWaiting⟩ : ∃ s t,
      exec (step hasty numberOf) (start 5 2 0) [.engine (.subscribeFailed 0) 1] = some s ∧
        exec (step hasty numberOf) s [.engine .pollTick 0, .tick] = some t ∧
        s.waits = true ∧
        exec (stepWhere (fun _ _ t => t.waits) hasty numberOf) s
          [.engine .pollTick 0, .tick] = some t :=
    ⟨_, _, by rfl, by rfl, by rfl, by rfl⟩
  exact ⟨s, t, hFailed, hTicked, (reconnects_within (run_of_exec hFailed) hWaits
    (run_of_stepWhere (fun _ _ _ hStep hTest => ⟨hStep, hTest⟩) hWaiting)).1⟩

end TimedEngine

end TokenRevoker
