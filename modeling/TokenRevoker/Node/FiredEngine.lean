import TokenRevoker.Node.SyncEngineSafety

/-! What an engine still does after it has asked for a rebootstrap. Its effects end there,
but a `subscribe` that was in flight, or an empty page that says there is more, finds no
check of `rebootstrapFired`, and brings the engine back to its coordinator. -/
namespace TokenRevoker

open Text Transition

namespace SyncEngineProcess

variable {toNumber : JsString → Option Nat} {s t u : SyncEngineProcess} {a : Action} {n : Nat} {g : Int}

/-- The step from `s` to `t` calls `subscribe` or `pollDeltas`. -/
def CallsClient (s t : SyncEngineProcess) : Prop :=
  s.subscribing.length < t.subscribing.length ∨
    (t.polling ≠ s.polling ∧ ∃ fromLsn pages, t.polling = some (.requesting fromLsn pages))

/-- The engine at work: whatever settles, fails, sleeps or is delivered, in any order. Its
owner calls `start` once, before all of it. -/
def Works (toNumber : JsString → Option Nat) : SyncEngineProcess → Action → SyncEngineProcess → Prop :=
  restrict (ofStep (step toNumber)) fun _ a => a ≠ .start

/-- From `t` on the engine is not connected, calls nobody and has no effect. Events that still
come on an old stream are dropped. -/
def StaysStopped (toNumber : JsString → Option Nat) (t : SyncEngineProcess) : Prop :=
  ∀ actions u, Run (Works toNumber) t actions u →
    u.connected = false ∧ u.history.attempted = t.history.attempted ∧
      u.history.completed = t.history.completed ∧ u.history.persisted = t.history.persisted ∧
      ∀ a v, Works toNumber u a v → ¬ CallsClient u v

/-- No answer that is still to come makes the engine go on: no `subscribe` is in flight, and
a poll is on its last page if it waits for one. -/
def Unanswered (s : SyncEngineProcess) : Prop :=
  s.subscribing = [] ∧
    ∀ fromLsn pages, s.polling = some (.requesting fromLsn pages) → maxPollPages ≤ pages + 1

/-- No sleep began under a token that is still to come. -/
def Dated (s : SyncEngineProcess) : Prop := ∀ token ∈ s.sleeping, token ≤ s.scheduleToken

/-- What the chain does to the rest of the engine: nothing, or it fires. Streams and sleeps are
touched in the second case only. -/
structure Applies (s t : SyncEngineProcess) : Prop where
  subscribing : t.subscribing = s.subscribing
  sleeping : t.sleeping = s.sleeping
  scheduleToken : s.scheduleToken ≤ t.scheduleToken
  requesting : ∀ fromLsn pages,
    t.polling = some (.requesting fromLsn pages) ↔ s.polling = some (.requesting fromLsn pages)
  fires : s.rebootstrapFired = false → t.rebootstrapFired = true →
    t.stopped = false ∧ t.connected = false ∧ t.stream = none ∧ t.pollTimer = false ∧
      s.scheduleToken < t.scheduleToken

theorem Applies.refl (s : SyncEngineProcess) : Applies s s where
  subscribing := rfl
  sleeping := rfl
  scheduleToken := Nat.le_refl _
  requesting _ _ := Iff.rfl
  fires hRunning hFired := absurd (hRunning.symm.trans hFired) (by simp)

/-- The promise of a polled event moves a poll that waits for it, and no other. -/
theorem Applies.resolve (h : Applies s t) (polled : Bool) : Applies s (t.resolve polled) := by
  unfold SyncEngineProcess.resolve
  split
  · rename_i rest moreAvailable pages hPolling
    refine ⟨h.subscribing, h.sleeping, h.scheduleToken, fun fromLsn page => ?_, h.fires⟩
    rw [← h.requesting, hPolling]
    simp
  · exact h

theorem rebootstrap_applies (s : SyncEngineProcess) (reason : String) : Applies s (s.rebootstrap reason) := by
  unfold rebootstrap
  split_ifs with hHalted
  · exact ⟨rfl, rfl, Nat.le_refl _, fun _ _ => Iff.rfl, (Applies.refl s).fires⟩
  · simp only [Bool.or_eq_true, not_or, Bool.not_eq_true] at hHalted
    exact ⟨rfl, rfl, Nat.le_succ _, fun _ _ => Iff.rfl,
      fun _ _ => ⟨hHalted.2, rfl, rfl, rfl, Nat.lt_succ_self _⟩⟩

theorem persist_applies (s : SyncEngineProcess) (lsn : Nat) (updated : Except String Unit) :
    Applies s (s.persist lsn updated) := by
  cases updated with
  | ok => exact ⟨rfl, rfl, Nat.le_refl _, fun _ _ => Iff.rfl, (Applies.refl s).fires⟩
  | error message => exact rebootstrap_applies s _

theorem applyEvent_applies (s : SyncEngineProcess) (enqueued : Enqueued)
    (applied updated : Except String Unit) : Applies s (s.applyEvent toNumber enqueued applied updated) := by
  unfold applyEvent
  split_ifs
  · exact (Applies.refl s).resolve enqueued.polled
  · split
    · exact (Applies.refl s).resolve enqueued.polled
    · exact (rebootstrap_applies s _).resolve enqueued.polled
    · rename_i lsn item hCheck
      cases applied with
      | ok =>
          refine Applies.resolve ?_ enqueued.polled
          have h := persist_applies ((s.attempt lsn (.applyEntry item)).complete lsn (.applyEntry item))
            lsn updated
          exact ⟨h.subscribing, h.sleeping, h.scheduleToken, h.requesting, h.fires⟩
      | error message =>
          refine Applies.resolve ?_ enqueued.polled
          have h := rebootstrap_applies (s.attempt lsn (.applyEntry item))
            "unappliable replicated entry (never drop silently)"
          exact ⟨h.subscribing, h.sleeping, h.scheduleToken, h.requesting, h.fires⟩
    · exact ⟨rfl, rfl, Nat.le_refl _, fun _ _ => Iff.rfl, (Applies.refl s).fires⟩

theorem finishRotation_applies (s : SyncEngineProcess) (rotation : CoordinatedRotation)
    (outcome updated : Except String Unit) : Applies s (s.finishRotation rotation outcome updated) := by
  cases outcome with
  | ok =>
      refine Applies.resolve ?_ rotation.polled
      have h := persist_applies ({ ({ s with rotating := none } : SyncEngineProcess).complete rotation.lsn
        .rotateOnDemand with generation := rotation.expected }) rotation.lsn updated
      exact ⟨h.subscribing, h.sleeping, h.scheduleToken, h.requesting, h.fires⟩
  | error message =>
      refine Applies.resolve ?_ rotation.polled
      have h := rebootstrap_applies { s with rotating := none } "coordinated rotation failed"
      exact ⟨h.subscribing, h.sleeping, h.scheduleToken, h.requesting, h.fires⟩

/-- A step fires, if at all, from the chain. -/
theorem step_applies (hStep : step toNumber s a = some t)
    (hChain : (∃ applied updated, a = .apply applied updated) ∨ ∃ outcome updated,
      a = .rotated outcome updated) :
    Applies s t := by
  rcases hChain with ⟨applied, updated, rfl⟩ | ⟨outcome, updated, rfl⟩
  · simp only [step] at hStep
    split at hStep
    · rename_i enqueued rest hIdle hChain
      cases hStep
      have h := @applyEvent_applies toNumber { s with chain := rest } enqueued applied updated
      exact ⟨h.subscribing, h.sleeping, h.scheduleToken, h.requesting, h.fires⟩
    · cases hStep
  · obtain ⟨rotation, -, rfl⟩ := Option.map_eq_some_iff.mp hStep
    exact finishRotation_applies s rotation outcome updated

theorem step_dated (hStep : step toNumber s a = some t) (h : Dated s) : Dated t := by
  intro token hToken
  by_cases hStop : a = .stop
  · subst hStop
    simp only [step] at hStep
    split_ifs at hStep <;> cases hStep
    · exact h token hToken
    · exact Nat.le_succ_of_le (h token hToken)
  · have hProceeds := step_proceeds hStep hStop
    rcases hProceeds.sleeping token hToken with hBefore | hNew
    · exact Nat.le_trans (h token hBefore) hProceeds.scheduleToken
    · exact hNew

/-- What holds from the moment the engine fires, if nothing was left unanswered. -/
structure Disconnected (s : SyncEngineProcess) : Prop where
  fired : s.rebootstrapFired = true
  connected : s.connected = false
  stream : s.stream = none
  pollTimer : s.pollTimer = false
  rotating : s.rotating = none
  unanswered : Unanswered s
  outdated : ∀ token ∈ s.sleeping, token < s.scheduleToken

theorem Disconnected.step (h : Disconnected s) (hWorks : Works toNumber s a t) : Disconnected t ∧
    ¬ CallsClient s t := by
  obtain ⟨hStep, hStart⟩ := hWorks
  have hNone : ¬ CallsClient s s := fun h => h.elim (Nat.lt_irrefl _) fun h => h.1 rfl
  obtain ⟨hSubscribing, hPage⟩ := h.unanswered
  cases a with
  | start => exact absurd rfl hStart
  | subscribed index | subscribeFailed index =>
      simp only [ofStep, SyncEngineProcess.step, hSubscribing, List.length_nil, Nat.not_lt_zero,
        if_false] at hStep
      cases hStep
  | data stream event =>
      simp only [ofStep, SyncEngineProcess.step] at hStep
      split_ifs at hStep
      cases hStep
      exact ⟨⟨h.fired, h.connected, h.stream, h.pollTimer, h.rotating, h.unanswered, h.outdated⟩, hNone⟩
  | streamDown stream =>
      -- the engine holds no stream, so every stream is a stale one
      simp only [ofStep, SyncEngineProcess.step, handleStreamDown, h.stream] at hStep
      simp only [ne_eq, reduceCtorEq, not_false_eq_true, decide_true, Bool.or_true, if_true] at hStep
      split_ifs at hStep
      cases hStep
      exact ⟨h, hNone⟩
  | watchdog =>
      simp [ofStep, SyncEngineProcess.step, h.connected] at hStep
  | wake index =>
      simp only [ofStep, SyncEngineProcess.step] at hStep
      split at hStep
      · rename_i token hToken
        have hOutdated := h.outdated token (List.mem_of_getElem? hToken)
        rw [if_pos (by simp [Nat.ne_of_lt hOutdated])] at hStep
        cases hStep
        exact ⟨⟨h.fired, h.connected, h.stream, h.pollTimer, h.rotating, h.unanswered,
          fun token hToken => h.outdated token (List.mem_of_mem_eraseIdx hToken)⟩, hNone⟩
      · cases hStep
  | pollTick =>
      simp [ofStep, SyncEngineProcess.step, h.pollTimer] at hStep
  | pollResponse events moreAvailable =>
      simp only [ofStep, SyncEngineProcess.step] at hStep
      split at hStep
      · rename_i fromLsn pages hPolling
        have hLast := hPage fromLsn pages hPolling
        split_ifs at hStep <;> cases hStep
        · exact ⟨⟨h.fired, h.connected, h.stream, h.pollTimer, h.rotating, ⟨hSubscribing, by simp⟩,
            h.outdated⟩, by simp [CallsClient]⟩
        · cases events with
          | nil =>
              simp only [nextEvent, nextPage, Nat.not_lt.mpr hLast, decide_false, Bool.and_false,
                Bool.false_and, Bool.false_eq_true, if_false]
              exact ⟨⟨h.fired, h.connected, h.stream, h.pollTimer, h.rotating, ⟨hSubscribing, by simp⟩,
                h.outdated⟩, by simp [CallsClient, receive]⟩
          | cons event rest =>
              exact ⟨⟨h.fired, h.connected, h.stream, h.pollTimer, h.rotating,
                ⟨hSubscribing, by simp [nextEvent]⟩, h.outdated⟩,
                by simp [CallsClient, nextEvent, enqueueApply, receive]⟩
      · cases hStep
  | pollFailed =>
      simp only [ofStep, SyncEngineProcess.step] at hStep
      split at hStep <;> cases hStep
      exact ⟨⟨h.fired, h.connected, h.stream, h.pollTimer, h.rotating, ⟨hSubscribing, by simp⟩,
        h.outdated⟩, by simp [CallsClient]⟩
  | pollNext =>
      simp only [ofStep, SyncEngineProcess.step] at hStep
      split at hStep
      · rw [if_pos (by simp [h.fired])] at hStep
        cases hStep
        exact ⟨⟨h.fired, h.connected, h.stream, h.pollTimer, h.rotating, ⟨hSubscribing, by simp⟩,
          h.outdated⟩, by simp [CallsClient]⟩
      · cases hStep
  | apply applied updated =>
      simp only [ofStep, SyncEngineProcess.step] at hStep
      split at hStep
      · rename_i enqueued rest hIdle hChain
        cases hStep
        simp only [SyncEngineProcess.applyEvent, h.fired, Bool.or_true, if_true, resolve]
        split
        · exact ⟨⟨rfl, h.connected, h.stream, h.pollTimer, h.rotating, ⟨hSubscribing, by simp⟩,
            h.outdated⟩, by simp [CallsClient]⟩
        · exact ⟨⟨rfl, h.connected, h.stream, h.pollTimer, h.rotating, h.unanswered, h.outdated⟩,
            hNone⟩
      · cases hStep
  | rotated outcome updated =>
      simp only [ofStep, SyncEngineProcess.step, h.rotating, Option.map_none] at hStep
      cases hStep
  | stop =>
      simp only [ofStep, SyncEngineProcess.step] at hStep
      split_ifs at hStep <;> cases hStep
      · exact ⟨h, hNone⟩
      · exact ⟨⟨h.fired, rfl, rfl, rfl, h.rotating, h.unanswered,
          fun token hToken => Nat.lt_succ_of_lt (h.outdated token hToken)⟩, hNone⟩

theorem Disconnected.staysStopped (h : Disconnected t) (hOrderly : Orderly toNumber n g t)
    (hAnomalies : t.history.anomalies ≠ []) : StaysStopped toNumber t := by
  intro actions u run
  have hSilent : Disconnected u := run.invariant (fun _ _ _ h hWorks => (Disconnected.step h hWorks).1) h
  have hQuiet := run_halted run.unrestrict hOrderly hAnomalies
  exact ⟨hSilent.connected, hQuiet.attempted, hQuiet.completed, hQuiet.persisted,
    fun a v hWorks => (hSilent.step hWorks).2⟩

/-- What still awaits an answer at the moment of firing brings the engine back. -/
theorem StaysStopped.unanswered (h : StaysStopped toNumber t) (hStopped : t.stopped = false)
    (hConnected : t.connected = false) : Unanswered t := by
  constructor
  · by_contra hSubscribing
    obtain ⟨v, hStep, hMode⟩ : ∃ v, step toNumber t (.subscribed 0) = some v ∧ v.connected = true := by
      rw [step, if_pos (List.length_pos_of_ne_nil hSubscribing), hStopped]
      exact ⟨_, rfl, rfl⟩
    have hGone := (h _ v (Run.single ⟨hStep, by simp⟩)).1
    rw [hMode] at hGone
    cases hGone
  · intro fromLsn pages hPolling
    by_contra hPages
    obtain ⟨v, hStep, hPage⟩ : ∃ v, step toNumber t (.pollResponse [] true) = some v ∧
        v.polling = some (.requesting t.lastAppliedLsn (pages + 1)) := by
      have hConnected' : (t.receive []).connected = false := hConnected
      simp only [step, hPolling, hStopped, nextEvent, nextPage, hConnected']
      exact ⟨_, rfl, by simp [receive, hStopped, Nat.not_le.mp hPages]⟩
    refine (h [] t (Run.nil t)).2.2.2.2 _ v ⟨hStep, by simp⟩ (Or.inr ⟨?_, _, _, hPage⟩)
    rw [hPage, hPolling]
    simp

/-- From whatever state of its streams, sleeps and polls it fires, an engine that has asked for
a rebootstrap stays stopped exactly if no answer to it is still to come that makes it go on. To
go on is to hold a stream or to call the coordinator again; that it applies something is not
meant. -/
theorem staysStopped_iff {initialLsn : Nat} {initialGeneration : Int} {before : List Action}
    (hBefore : Run (ofStep (step toNumber)) (init initialLsn initialGeneration) before s)
    (hStep : step toNumber s a = some t) (hRunning : s.rebootstrapFired = false)
    (hFired : t.rebootstrapFired = true) : StaysStopped toNumber t ↔ Unanswered s := by
  have hOrderly := run_orderly hBefore (init_orderly toNumber initialLsn initialGeneration)
  have hDated : Dated s := hBefore.invariant (fun _ _ _ h hStep => step_dated hStep h) (by simp [Dated, init])
  have hChain : (∃ applied updated, a = .apply applied updated) ∨ ∃ outcome updated,
    a = .rotated outcome updated := by
    by_contra hOther
    push Not at hOther
    have hQuiet := step_quiet hStep hOther.1 hOther.2
    rw [hQuiet.fired, hRunning] at hFired
    cases hFired
  have hApplies := step_applies hStep hChain
  obtain ⟨hStopped, hConnected, hStream, hTimer, hToken⟩ := hApplies.fires hRunning hFired
  have hNext := step_orderly hStep hOrderly
  have hAnomalies : t.history.anomalies ≠ [] := by
    intro hClean
    rw [(hNext.steady hClean).1] at hFired
    cases hFired
  have hUnanswered : Unanswered t ↔ Unanswered s := by
    simp only [Unanswered, hApplies.subscribing, hApplies.requesting]
  rw [← hUnanswered]
  constructor
  · exact fun h => h.unanswered hStopped hConnected
  · intro h
    refine Disconnected.staysStopped ⟨hFired, hConnected, hStream, hTimer, (hNext.halted hAnomalies).2, h, ?_⟩
      hNext hAnomalies
    intro token hSleeping
    rw [hApplies.sleeping] at hSleeping
    exact Nat.lt_of_le_of_lt (hDated token hSleeping) hToken

/-- A poll finds a gap while nothing else is in flight. -/
theorem staysStopped_iff_gap :
    ∃ s t : SyncEngineProcess,
      exec (step numberOf) (init 5 2) [.start, .subscribed 0, .streamDown 0, .pollTick,
        .pollResponse [.entry (some ⟨[0x38], 2, [97]⟩)] false] = some s ∧
      step numberOf s (.apply (.ok ()) (.ok ())) = some t ∧ StaysStopped numberOf t := by
  obtain ⟨s, t, hBefore, hStep, hRunning, hFired, hUnanswered⟩ : ∃ s t : SyncEngineProcess,
      exec (step numberOf) (init 5 2) [.start, .subscribed 0, .streamDown 0, .pollTick,
        .pollResponse [.entry (some ⟨[0x38], 2, [97]⟩)] false] = some s ∧
      step numberOf s (.apply (.ok ()) (.ok ())) = some t ∧
      s.rebootstrapFired = false ∧ t.rebootstrapFired = true ∧ Unanswered s :=
    ⟨_, _, by rfl, by rfl, by rfl, by rfl, rfl, by simp [nextEvent]⟩
  exact ⟨s, t, hBefore, hStep, (staysStopped_iff (run_of_exec hBefore) hStep hRunning hFired).mpr hUnanswered⟩

/-- The first subscribe fails, the reconnect is under way when a poll finds the gap, and its
stream opens after that: the engine that has fired is connected. -/
theorem not_staysStopped :
    ¬ ∀ (before : List Action) (s t : SyncEngineProcess) (a : Action),
      Run (ofStep (step numberOf)) (init 5 2) before s → step numberOf s a = some t →
        s.rebootstrapFired = false → t.rebootstrapFired = true → StaysStopped numberOf t := by
  intro h
  obtain ⟨s, t, u, hBefore, hStep, hRunning, hFired, hAfter, hConnected⟩ : ∃ s t u : SyncEngineProcess,
      exec (step numberOf) (init 5 2) [.start, .subscribeFailed 0, .wake 0, .pollTick,
        .pollResponse [.entry (some ⟨[0x38], 2, [97]⟩)] false] = some s ∧
      step numberOf s (.apply (.ok ()) (.ok ())) = some t ∧
      s.rebootstrapFired = false ∧ t.rebootstrapFired = true ∧
      step numberOf t (.subscribed 0) = some u ∧ u.connected = true :=
    ⟨_, _, _, by rfl, by rfl, by rfl, by rfl, by rfl, by rfl⟩
  have hStays := h _ s t _ (run_of_exec hBefore) hStep hRunning hFired
  have hGone := (hStays _ u (Run.single ⟨hAfter, by simp⟩)).1
  rw [hConnected] at hGone
  cases hGone

end SyncEngineProcess

end TokenRevoker
