import TokenRevoker.Node.SyncEngineProcess

/-! What a wire that may send anything can make the engine do. The revoker is called for
one LSN after the other, and only for the next one; the record of an event comes after
its effect; the first anomaly ends everything. -/
namespace TokenRevoker

open Text

namespace SyncEngineProcess

variable {toNumber : JsString → Option Nat} {s t : SyncEngineProcess} {a : Action} {n : Nat} {g : Int}

/-- The event that makes the engine call the revoker for this LSN. -/
def Denotes (toNumber : JsString → Option Nat) (lsn : Nat) : RevokerCall → WireStreamEvent → Prop
  | .applyEntry item, event =>
      ∃ payload, event = .entry (some payload) ∧ toNumber payload.lsn = some lsn ∧ payload.item = item
  | .rotateOnDemand, event =>
      ∃ payload, event = .rotate (some payload) ∧ toNumber payload.lsn = some lsn

/-- Only the next LSN gets past the checks. -/
theorem of_checkLsn {next : Nat → Verdict} {lsn? : Option Nat} {verdict : Verdict}
    (h : s.checkLsn next lsn? = verdict) (hSkip : verdict ≠ .skip)
    (hApplied : ∀ reason, verdict ≠ .rebootstrap reason) :
    lsn? = some (s.lastAppliedLsn + 1) ∧ next (s.lastAppliedLsn + 1) = verdict := by
  unfold checkLsn at h
  split at h
  · exact absurd h.symm (hApplied _)
  · split_ifs at h with hOld hGap
    · exact absurd h.symm hSkip
    · exact absurd h.symm (hApplied _)
    · rw [not_not.mp hGap] at h ⊢
      exact ⟨rfl, h⟩

theorem check_eq_entry {event : WireStreamEvent} {lsn : Nat} {item : JsString}
    (h : s.check toNumber event = .entry lsn item) :
    lsn = s.lastAppliedLsn + 1 ∧ Denotes toNumber lsn (.applyEntry item) event := by
  unfold check at h
  split at h
  · cases h
  · cases h
  · cases h
  · split at h
    · cases h
    · rename_i payload
      obtain ⟨hNumber, hEq⟩ := of_checkLsn h (by simp) (by simp)
      cases hEq
      exact ⟨rfl, payload, rfl, hNumber, rfl⟩
  · split at h
    · cases h
    · obtain ⟨-, hEq⟩ := of_checkLsn h (by simp) (by simp)
      split_ifs at hEq

theorem check_eq_rotate {event : WireStreamEvent} {lsn : Nat}
    (h : s.check toNumber event = .rotate lsn) :
    lsn = s.lastAppliedLsn + 1 ∧ Denotes toNumber lsn .rotateOnDemand event := by
  unfold check at h
  split at h
  · cases h
  · cases h
  · cases h
  · split at h
    · cases h
    · obtain ⟨-, hEq⟩ := of_checkLsn h (by simp) (by simp)
      cases hEq
  · split at h
    · cases h
    · rename_i payload
      obtain ⟨hNumber, hEq⟩ := of_checkLsn h (by simp) (by simp)
      split_ifs at hEq
      cases hEq
      exact ⟨rfl, payload, rfl, hNumber⟩

/-- What holds of the effects of a run in every state. -/
structure Safe (toNumber : JsString → Option Nat) (n : Nat) (g : Int) (s : SyncEngineProcess) : Prop where
  /-- The revoker is called for one LSN after the other, once for each. -/
  attempted : s.history.attempted.map Prod.fst = List.range' (n + 1) s.history.attempted.length
  /-- Every call is the one a received event asks for. -/
  received : ∀ lsn call, (lsn, call) ∈ s.history.attempted →
    ∃ event ∈ s.history.received, Denotes toNumber lsn call event
  /-- The calls that returned normally are the first ones. -/
  completed : s.history.completed <+: s.history.attempted
  persisted : s.history.persisted.map Prod.fst = List.range' (n + 1) s.history.persisted.length
  /-- What is persisted is the LSN of a call that has returned normally. -/
  persisted_completed :
    s.history.persisted.map Prod.fst <+: s.history.completed.map Prod.fst
  generation : s.generation = g + s.history.completed.countP fun call => call.2.isRotation

/-- What every step keeps: up to the first anomaly every call is followed by its
completion and its record, one event at a time. -/
structure Orderly (toNumber : JsString → Option Nat) (n : Nat) (g : Int) (s : SyncEngineProcess) : Prop
    extends Safe toNumber n g s where
  cursor : s.lastAppliedLsn = n + s.history.persisted.length
  waiting : ∀ event ∈ s.waiting, event ∈ s.history.received
  rotation : ∀ rotation, s.rotating = some rotation →
    rotation.lsn = s.lastAppliedLsn + 1 ∧ rotation.expected = s.generation + 1
  steady : s.history.anomalies = [] → s.rebootstrapFired = false ∧
    s.history.persisted.length = s.history.completed.length ∧
    s.history.attempted = s.history.completed ++
      s.rotating.elim [] fun rotation => [(rotation.lsn, .rotateOnDemand)]
  halted : s.history.anomalies ≠ [] →
    (s.rebootstrapFired = true ∨ s.stopped = true) ∧ s.rotating = none

theorem Orderly.quiet (h : Orderly toNumber n g s) (quiet : Quiet s t) : Orderly toNumber n g t where
  attempted := by simpa only [quiet.attempted] using h.attempted
  received := by
    rw [quiet.attempted]
    intro lsn call hCall
    obtain ⟨event, hEvent, hDenotes⟩ := h.received lsn call hCall
    exact ⟨event, quiet.received hEvent, hDenotes⟩
  completed := by simpa only [quiet.completed, quiet.attempted] using h.completed
  persisted := by simpa only [quiet.persisted] using h.persisted
  persisted_completed := by
    simpa only [quiet.persisted, quiet.completed] using h.persisted_completed
  generation := by simpa only [quiet.generation, quiet.completed] using h.generation
  cursor := by simpa only [quiet.cursor, quiet.persisted] using h.cursor
  waiting := by
    intro event hEvent
    rcases quiet.waiting event hEvent with hEvent | hEvent
    · exact quiet.received (h.waiting event hEvent)
    · exact hEvent
  rotation := by simpa only [quiet.rotating, quiet.cursor, quiet.generation] using h.rotation
  steady := by
    simpa only [quiet.anomalies, quiet.fired, quiet.persisted, quiet.completed, quiet.attempted,
      quiet.rotating] using h.steady
  halted := by
    rw [quiet.anomalies, quiet.fired, quiet.rotating]
    intro hAnomalies
    obtain ⟨hHalted, hRotating⟩ := h.halted hAnomalies
    exact ⟨hHalted.imp id quiet.stopped, hRotating⟩

theorem init_orderly (toNumber : JsString → Option Nat) (n : Nat) (g : Int) :
    Orderly toNumber n g (init n g) where
  attempted := rfl
  received := by simp [init]
  completed := List.prefix_rfl
  persisted := rfl
  persisted_completed := List.prefix_rfl
  generation := by simp [init]
  cursor := rfl
  waiting := by simp [init, SyncEngineProcess.waiting]
  rotation := by simp [init]
  steady := fun _ => ⟨rfl, rfl, rfl⟩
  halted := fun h => absurd rfl h

/-- A call for `lsn` has been made and has not returned yet. -/
structure Calling (toNumber : JsString → Option Nat) (n : Nat) (g : Int) (lsn : Nat) (call : RevokerCall)
    (s : SyncEngineProcess) : Prop extends Safe toNumber n g s where
  next : lsn = s.lastAppliedLsn + 1
  cursor : s.lastAppliedLsn = n + s.history.persisted.length
  waiting : ∀ event ∈ s.waiting, event ∈ s.history.received
  idle : s.rotating = none
  clean : s.history.anomalies = []
  running : s.rebootstrapFired = false
  pending : s.history.attempted = s.history.completed ++ [(lsn, call)]
  recorded : s.history.persisted.length = s.history.completed.length

/-- A list of consecutive LSNs goes on with the next one. -/
theorem map_fst_snoc {α : Type} {calls : List (Nat × α)} {lsn : Nat}
    (h : calls.map Prod.fst = List.range' (n + 1) calls.length) (hNext : lsn = n + calls.length + 1)
    (value : α) : (calls ++ [(lsn, value)]).map Prod.fst =
      List.range' (n + 1) (calls ++ [(lsn, value)]).length := by
  rw [List.map_append, h, List.length_append, List.length_singleton, List.range'_concat]
  simp only [List.map_cons, List.map_nil, hNext]
  congr 2
  omega

theorem Orderly.clean (h : Orderly toNumber n g s) (hRunning : s.stopped = false)
    (hFired : s.rebootstrapFired = false) : s.history.anomalies = [] := by
  by_contra hAnomalies
  rcases (h.halted hAnomalies).1 with hHalted | hHalted
  · rw [hFired] at hHalted
    cases hHalted
  · rw [hRunning] at hHalted
    cases hHalted

/-- The engine turns to the next LSN. -/
theorem Orderly.attempt (h : Orderly toNumber n g s) (hClean : s.history.anomalies = [])
    (hIdle : s.rotating = none) {lsn : Nat} {call : RevokerCall} {event : WireStreamEvent}
    (hNext : lsn = s.lastAppliedLsn + 1) (hEvent : event ∈ s.history.received)
    (hDenotes : Denotes toNumber lsn call event) : Calling toNumber n g lsn call (s.attempt lsn call) := by
  obtain ⟨hFired, hRecorded, hAttempted⟩ := h.steady hClean
  rw [hIdle, Option.elim_none, List.append_nil] at hAttempted
  refine ⟨⟨?_, ?_, ?_, h.persisted, h.persisted_completed, h.generation⟩, hNext, h.cursor, h.waiting,
    hIdle, hClean, hFired, ?_, hRecorded⟩
  · refine map_fst_snoc h.attempted ?_ call
    rw [hNext, h.cursor, hRecorded, hAttempted]
  · intro lsn' call' hCall
    rcases List.mem_append.mp hCall with hCall | hCall
    · exact h.received lsn' call' hCall
    · cases List.mem_singleton.mp hCall
      exact ⟨event, hEvent, hDenotes⟩
  · exact h.completed.trans (List.prefix_append _ _)
  · simp only [SyncEngineProcess.attempt, hAttempted]

/-- An anomaly ends everything. -/
theorem rebootstrap_orderly (h : Safe toNumber n g s)
    (hCursor : s.lastAppliedLsn = n + s.history.persisted.length)
    (hWaiting : ∀ event ∈ s.waiting, event ∈ s.history.received) (hIdle : s.rotating = none)
    (reason : String) : Orderly toNumber n g (s.rebootstrap reason) := by
  unfold rebootstrap
  split_ifs with hHalted
  · refine ⟨⟨h.attempted, h.received, h.completed, h.persisted, h.persisted_completed, h.generation⟩,
      hCursor, hWaiting, by simp [hIdle], by simp, fun _ => ⟨?_, hIdle⟩⟩
    simpa using hHalted
  · exact ⟨⟨h.attempted, h.received, h.completed, h.persisted, h.persisted_completed, h.generation⟩,
      hCursor, hWaiting, by simp [hIdle], by simp, fun _ => ⟨Or.inl rfl, hIdle⟩⟩

theorem Calling.rebootstrap {lsn : Nat} {call : RevokerCall} (h : Calling toNumber n g lsn call s)
    (reason : String) : Orderly toNumber n g (s.rebootstrap reason) :=
  rebootstrap_orderly h.toSafe h.cursor h.waiting h.idle reason

/-- The call returns normally; what follows is its record. -/
theorem Calling.persist {lsn : Nat} {call : RevokerCall} (h : Calling toNumber n g lsn call s)
    {generation : Int} (hGeneration : generation = s.generation + if call.isRotation then 1 else 0)
    (updated : Except String Unit) :
    Orderly toNumber n g
      (({ s.complete lsn call with generation := generation } : SyncEngineProcess).persist lsn updated) := by
  have hCompleted : s.history.completed ++ [(lsn, call)] = s.history.attempted := h.pending.symm
  have hSafe : Safe toNumber n g { s.complete lsn call with generation := generation } := by
    refine ⟨h.attempted, h.received, ?_, h.persisted, ?_, ?_⟩
    · simp only [complete, hCompleted]
      exact List.prefix_rfl
    · simp only [complete, List.map_append]
      exact h.persisted_completed.trans (List.prefix_append _ _)
    · simp only [complete, List.countP_append, List.countP_singleton, hGeneration, h.generation]
      push_cast
      ring
  cases updated with
  | error message => exact rebootstrap_orderly hSafe h.cursor h.waiting h.idle _
  | ok =>
      have hNext : lsn = n + s.history.persisted.length + 1 := by rw [h.next, h.cursor]
      have hPersisted := map_fst_snoc h.persisted hNext generation
      have hAttempted := h.attempted
      rw [← hCompleted] at hAttempted
      refine ⟨⟨hSafe.attempted, hSafe.received, hSafe.completed, hPersisted, ?_, hSafe.generation⟩,
        ?_, h.waiting, ?_, ?_, ?_⟩
      · simp only [SyncEngineProcess.persist, complete]
        rw [hPersisted, hAttempted, List.length_append, List.length_append, h.recorded]
        exact List.prefix_rfl
      · simp only [SyncEngineProcess.persist, complete, List.length_append, List.length_singleton, hNext]
        omega
      · simp [SyncEngineProcess.persist, complete, h.idle]
      · intro _
        refine ⟨h.running, ?_, ?_⟩
        · simp only [SyncEngineProcess.persist, complete, List.length_append, h.recorded,
            List.length_singleton]
        · simp only [SyncEngineProcess.persist, complete, hCompleted, h.idle, Option.elim_none,
            List.append_nil]
      · intro hAnomalies
        exact absurd h.clean hAnomalies

theorem Orderly.resolve (h : Orderly toNumber n g s) (polled : Bool) :
    Orderly toNumber n g (s.resolve polled) := h.quiet (resolve_quiet s polled)

theorem Orderly.applyEvent (h : Orderly toNumber n g s) {enqueued : Enqueued}
    (hEvent : enqueued.event ∈ s.history.received) (hIdle : s.rotating = none)
    (applied updated : Except String Unit) :
    Orderly toNumber n g (s.applyEvent toNumber enqueued applied updated) := by
  unfold SyncEngineProcess.applyEvent
  by_cases hStopped : (s.stopped || s.rebootstrapFired) = true
  · rw [if_pos hStopped]
    exact h.resolve enqueued.polled
  · rw [if_neg hStopped]
    simp only [Bool.or_eq_true, not_or, Bool.not_eq_true] at hStopped
    have hClean := h.clean hStopped.1 hStopped.2
    split
    · exact h.resolve enqueued.polled
    · exact (rebootstrap_orderly h.toSafe h.cursor h.waiting hIdle _).resolve enqueued.polled
    · rename_i lsn item hCheck
      obtain ⟨hNext, hDenotes⟩ := check_eq_entry hCheck
      have hCalling := h.attempt hClean hIdle hNext hEvent hDenotes
      cases applied with
      | error message => exact (hCalling.rebootstrap _).resolve enqueued.polled
      | ok =>
          refine Orderly.resolve ?_ enqueued.polled
          exact hCalling.persist (by simp [RevokerCall.isRotation]) updated
    · rename_i lsn hCheck
      obtain ⟨hNext, hDenotes⟩ := check_eq_rotate hCheck
      have hCalling := h.attempt hClean hIdle hNext hEvent hDenotes
      refine ⟨⟨hCalling.attempted, hCalling.received, hCalling.completed, hCalling.persisted,
        hCalling.persisted_completed, hCalling.generation⟩, hCalling.cursor, hCalling.waiting, ?_, ?_, ?_⟩
      · intro rotation hRotating
        cases hRotating
        exact ⟨hNext, rfl⟩
      · exact fun _ => ⟨hCalling.running, hCalling.recorded, hCalling.pending⟩
      · exact fun hAnomalies => absurd hClean hAnomalies

theorem Orderly.finishRotation (h : Orderly toNumber n g s) {rotation : CoordinatedRotation}
    (hRotating : s.rotating = some rotation) (outcome updated : Except String Unit) :
    Orderly toNumber n g (s.finishRotation rotation outcome updated) := by
  have hClean : s.history.anomalies = [] := by
    by_contra hAnomalies
    rw [(h.halted hAnomalies).2] at hRotating
    cases hRotating
  obtain ⟨hFired, hRecorded, hAttempted⟩ := h.steady hClean
  rw [hRotating, Option.elim_some] at hAttempted
  obtain ⟨hNext, hExpected⟩ := h.rotation rotation hRotating
  have hCalling : Calling toNumber n g rotation.lsn .rotateOnDemand { s with rotating := none } :=
    ⟨⟨h.attempted, h.received, h.completed, h.persisted, h.persisted_completed, h.generation⟩, hNext,
      h.cursor, h.waiting, rfl, hClean, hFired, hAttempted, hRecorded⟩
  cases outcome with
  | error message => exact (hCalling.rebootstrap _).resolve rotation.polled
  | ok => exact Orderly.resolve (hCalling.persist (by simp [hExpected, RevokerCall.isRotation]) updated) _

theorem step_orderly (h : step toNumber s a = some t) (hOrderly : Orderly toNumber n g s) :
    Orderly toNumber n g t := by
  cases a with
  | apply applied updated =>
      simp only [step] at h
      split at h
      · rename_i enqueued rest hIdle hChain
        cases h
        have hWaiting : ∀ event ∈ ({ s with chain := rest } : SyncEngineProcess).waiting,
            event ∈ s.waiting := by
          intro event hEvent
          simp only [waiting, hChain, List.map_cons, List.cons_append]
          exact List.mem_cons_of_mem _ hEvent
        have hRest : Orderly toNumber n g { s with chain := rest } :=
          hOrderly.quiet ⟨rfl, rfl, rfl, rfl, rfl, rfl, rfl, rfl, id, List.Subset.refl _,
            fun event hEvent => Or.inl (hWaiting event hEvent)⟩
        refine hRest.applyEvent ?_ hIdle applied updated
        exact hOrderly.waiting _ (by simp [waiting, hChain])
      · cases h
  | rotated outcome updated =>
      obtain ⟨rotation, hRotating, rfl⟩ := Option.map_eq_some_iff.mp h
      exact hOrderly.finishRotation hRotating outcome updated
  | _ => exact hOrderly.quiet (step_quiet h (by simp) (by simp))

theorem run_orderly {actions : List Action}
    (run : Transition.Run (Transition.ofStep (step toNumber)) s actions t) (h : Orderly toNumber n g s) :
    Orderly toNumber n g t :=
  run.invariant (fun _ _ _ h hStep => step_orderly hStep h) h

/-- A stopped engine, or one that has fired, passes over the next event of its chain. -/
theorem passedOver_quiet {enqueued : Enqueued} {rest : List Enqueued} (hChain : s.chain = enqueued :: rest)
    (hHalted : (s.stopped || s.rebootstrapFired) = true) (applied updated : Except String Unit) :
    Quiet s (({ s with chain := rest } : SyncEngineProcess).applyEvent toNumber enqueued applied
      updated) := by
  unfold SyncEngineProcess.applyEvent
  rw [if_pos hHalted]
  refine Quiet.trans ?_ (resolve_quiet _ enqueued.polled)
  refine ⟨rfl, rfl, rfl, rfl, rfl, rfl, rfl, rfl, id, List.Subset.refl _, ?_⟩
  intro event hEvent
  simp only [waiting, hChain, List.map_cons, List.cons_append]
  exact Or.inl (List.mem_cons_of_mem _ hEvent)

/-- After an anomaly the chain passes over its events, and no rotation is awaited. -/
theorem step_halted (h : step toNumber s a = some t) (hOrderly : Orderly toNumber n g s)
    (hAnomalies : s.history.anomalies ≠ []) : Quiet s t := by
  obtain ⟨hHalted, hIdle⟩ := hOrderly.halted hAnomalies
  have hStopped : (s.stopped || s.rebootstrapFired) = true := by
    rcases hHalted with hHalted | hHalted <;> simp [hHalted]
  cases a with
  | apply applied updated =>
      simp only [step] at h
      split at h
      · rename_i enqueued rest hIdle hChain
        cases h
        exact passedOver_quiet hChain hStopped applied updated
      · cases h
  | rotated outcome updated =>
      simp only [step, hIdle, Option.map_none] at h
      cases h
  | _ => exact step_quiet h (by simp) (by simp)

theorem run_halted {actions : List Action}
    (run : Transition.Run (Transition.ofStep (step toNumber)) s actions t)
    (h : Orderly toNumber n g s) (hAnomalies : s.history.anomalies ≠ []) : Quiet s t := by
  have hRun : Orderly toNumber n g t ∧ Quiet s t := by
    induction run with
    | nil => exact ⟨h, .refl _⟩
    | snoc prior last ih =>
        obtain ⟨hMiddle, hQuiet⟩ := ih
        rw [← hQuiet.anomalies] at hAnomalies
        exact ⟨step_orderly last hMiddle, hQuiet.trans (step_halted last hMiddle hAnomalies)⟩
  exact hRun.2

/-- Whatever the wire sends, on whichever stream or page, whatever the revoker and the state
file do and whenever the engine is stopped: the revoker is called for the LSNs after the initial
one in their order, once each, every record follows its call, and after the first anomaly
nothing is called, completed or recorded any more. That the engine gets anywhere is not said
here. -/
theorem safe_of_run (toNumber : JsString → Option Nat) (initialLsn : Nat) (initialGeneration : Int)
    {before after : List Action} {s t : SyncEngineProcess}
    (hBefore : Transition.Run (Transition.ofStep (step toNumber)) (init initialLsn initialGeneration) before s)
    (hAfter : Transition.Run (Transition.ofStep (step toNumber)) s after t) :
    Safe toNumber initialLsn initialGeneration s ∧
      (s.history.anomalies ≠ [] →
        t.history.attempted = s.history.attempted ∧ t.history.completed = s.history.completed ∧
          t.history.persisted = s.history.persisted) := by
  have hOrderly := run_orderly hBefore (init_orderly toNumber initialLsn initialGeneration)
  refine ⟨hOrderly.toSafe, fun hAnomalies => ?_⟩
  have hQuiet := run_halted hAfter hOrderly hAnomalies
  exact ⟨hQuiet.attempted, hQuiet.completed, hQuiet.persisted⟩

/-- A node at LSN 5 applies an entry and a rotation from a stream, the stream breaks, and
a poll brings the entry again and then leaves one out. -/
theorem safe_of_run_gap :
    ∃ s t : SyncEngineProcess,
      Transition.exec (step numberOf) (init 5 2) [.start, .subscribed 0,
        .data 0 (.entry (some ⟨[0x36], 2, [97]⟩)), .data 0 (.rotate (some ⟨[0x37], 3⟩)),
        .apply (.ok ()) (.ok ()), .apply (.ok ()) (.ok ()), .streamDown 0, .rotated (.ok ()) (.ok ()),
        .pollTick, .pollResponse [.entry (some ⟨[0x36], 2, [97]⟩), .entry (some ⟨[0x39], 3, [98]⟩)] false,
        .apply (.ok ()) (.ok ()), .pollNext, .apply (.ok ()) (.ok ())] = some s ∧
      Transition.exec (step numberOf) s [.pollNext, .stop] = some t ∧
      s.history.anomalies = ["LSN gap detected: expected 8, got 9"] ∧
      t.history.attempted = [(6, .applyEntry [97]), (7, .rotateOnDemand)] ∧
      Safe numberOf 5 2 s ∧ t.history.persisted = s.history.persisted := by
  have hRun : ∃ s t : SyncEngineProcess,
      Transition.exec (step numberOf) (init 5 2) [.start, .subscribed 0,
        .data 0 (.entry (some ⟨[0x36], 2, [97]⟩)), .data 0 (.rotate (some ⟨[0x37], 3⟩)),
        .apply (.ok ()) (.ok ()), .apply (.ok ()) (.ok ()), .streamDown 0, .rotated (.ok ()) (.ok ()),
        .pollTick, .pollResponse [.entry (some ⟨[0x36], 2, [97]⟩), .entry (some ⟨[0x39], 3, [98]⟩)] false,
        .apply (.ok ()) (.ok ()), .pollNext, .apply (.ok ()) (.ok ())] = some s ∧
      Transition.exec (step numberOf) s [.pollNext, .stop] = some t ∧
      s.history.anomalies = ["LSN gap detected: expected 8, got 9"] ∧
      t.history.attempted = [(6, .applyEntry [97]), (7, .rotateOnDemand)] :=
    ⟨_, _, by rfl, by rfl, by rfl, by rfl⟩
  obtain ⟨s, t, hBefore, hAfter, hAnomalies, hAttempted⟩ := hRun
  obtain ⟨hSafe, hQuiet⟩ := safe_of_run numberOf 5 2 (Transition.run_of_exec hBefore)
    (Transition.run_of_exec hAfter)
  exact ⟨s, t, hBefore, hAfter, hAnomalies, hAttempted, hSafe, (hQuiet (by simp [hAnomalies])).2.2⟩

end SyncEngineProcess

end TokenRevoker
