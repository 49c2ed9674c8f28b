import TokenRevoker.Node.Replication

/-! What the channels of a node bring to its engine. Whatever waits on the chain, or on a
page for the chain, has in front of it all that comes before it in the log, or the
engine has come past that. So the engine finds no gap, and every event it applies is the
next one of the log. -/
namespace TokenRevoker

open Text LsnContiguity

theorem StreamEvent.lsnText_toWire (event : StreamEvent) : event.toWire.lsnText = event.lsn.map decimal := by
  cases event <;> rfl

theorem StreamEvent.lsn_of_lsnText {event : StreamEvent} {lsn : Nat}
    (h : event.toWire.lsnText = some (decimal lsn)) : event.lsn = some lsn := by
  rw [lsnText_toWire] at h
  obtain ⟨other, hLsn, hText⟩ := Option.map_eq_some_iff.mp h
  rw [hLsn, decimal_injective hText]

namespace SyncEngineProcess

variable {toNumber : JsString → Option Nat} {s t : SyncEngineProcess} {a : Action} {lsn l : Nat}
  {enqueued : Enqueued} {rest ahead behind : List Enqueued}

/-- The events that wait for their turn, those of the page behind the chain. -/
def line (s : SyncEngineProcess) : List Enqueued := s.chain ++ s.page.map fun event => ⟨event, true⟩

/-- Nothing joins the line, and nothing comes past it. Timers, sleeps and failures are such
steps. -/
structure Silent (a : Action) (s t : SyncEngineProcess) : Prop where
  chain : s.chain <+: t.chain
  line : t.line <+: s.line
  requested : ∀ fromLsn, t.requested = some fromLsn → s.requested = some fromLsn ∨ fromLsn = s.lastAppliedLsn
  kept : a ≠ .pollFailed → ∀ fromLsn, s.requested = some fromLsn → t.requested = some fromLsn
  subscribing : ∀ lsn ∈ t.subscribing, lsn ∈ s.subscribing ∨ lsn = s.lastAppliedLsn
  received : t.history.received = s.history.received

theorem Silent.keep (hChain : t.chain = s.chain) (hPolling : t.polling = s.polling)
    (hHistory : t.history.received = s.history.received)
    (hSubscribing : ∀ lsn ∈ t.subscribing, lsn ∈ s.subscribing ∨ lsn = s.lastAppliedLsn) : Silent a s t where
  chain := by rw [hChain]
  line := by rw [SyncEngineProcess.line, SyncEngineProcess.line, hChain, page_congr hPolling]
  requested := by
    unfold SyncEngineProcess.requested
    rw [hPolling]
    exact fun _ h => Or.inl h
  kept := by
    unfold SyncEngineProcess.requested
    rw [hPolling]
    exact fun _ _ h => h
  subscribing := hSubscribing
  received := hHistory

theorem enterReconnecting_eq (s : SyncEngineProcess) : s.enterReconnecting.chain = s.chain ∧
    s.enterReconnecting.polling = s.polling ∧ s.enterReconnecting.history = s.history ∧
    s.enterReconnecting.subscribing = s.subscribing := by
  unfold enterReconnecting scheduleReconnect startPolling
  split_ifs <;> exact ⟨rfl, rfl, rfl, rfl⟩

theorem handleStreamDown_eq (s : SyncEngineProcess) (stream : Nat) :
    (s.handleStreamDown stream).chain = s.chain ∧ (s.handleStreamDown stream).polling = s.polling ∧
      (s.handleStreamDown stream).history = s.history ∧
      (s.handleStreamDown stream).subscribing = s.subscribing := by
  unfold handleStreamDown
  split_ifs
  · exact ⟨rfl, rfl, rfl, rfl⟩
  · exact enterReconnecting_eq { s with stream := none }

theorem trySubscribe_silent (s : SyncEngineProcess) : Silent a s s.trySubscribe := by
  unfold trySubscribe
  split_ifs
  · exact .keep rfl rfl rfl fun _ h => Or.inl h
  · exact .keep rfl rfl rfl fun lsn hLsn => by simpa using hLsn

/-- A poll asks for its next page, or ends. -/
theorem nextPage_silent (more : Bool) (pages : Nat) (hRequested : s.requested = none) (hPage : s.page = []) :
    Silent a s (s.nextPage more pages) := by
  unfold nextPage
  split_ifs
  all_goals
    refine ⟨List.prefix_rfl, ?_, ?_, ?_, fun _ h => Or.inl h, rfl⟩
    · rw [SyncEngineProcess.line, SyncEngineProcess.line, hPage]
      simp [SyncEngineProcess.page]
    · simp [SyncEngineProcess.requested]
    · simp [hRequested]

theorem step_silent (h : step toNumber s a = some t) (hSilent : a.isSilent = true) : Silent a s t := by
  cases a with
  | data | pollResponse | apply | rotated => cases hSilent
  | start =>
      cases h
      exact trySubscribe_silent s
  | subscribed index =>
      simp only [step] at h
      split_ifs at h <;> cases h <;>
        exact .keep rfl rfl rfl fun _ hLsn => Or.inl (List.mem_of_mem_eraseIdx hLsn)
  | subscribeFailed index =>
      simp only [step] at h
      split_ifs at h
      cases h
      obtain ⟨hChain, hPolling, hHistory, hSubscribing⟩ :=
        enterReconnecting_eq { s with subscribing := s.subscribing.eraseIdx index }
      refine .keep hChain hPolling (by rw [hHistory]) fun lsn hLsn => Or.inl ?_
      rw [hSubscribing] at hLsn
      exact List.mem_of_mem_eraseIdx hLsn
  | streamDown stream =>
      simp only [step] at h
      split_ifs at h
      cases h
      obtain ⟨hChain, hPolling, hHistory, hSubscribing⟩ := handleStreamDown_eq s stream
      exact .keep hChain hPolling (by rw [hHistory]) fun lsn hLsn => Or.inl (hSubscribing ▸ hLsn)
  | watchdog =>
      simp only [step] at h
      split_ifs at h
      split at h <;> cases h
      · obtain ⟨hChain, hPolling, hHistory, hSubscribing⟩ := handleStreamDown_eq s _
        exact .keep hChain hPolling (by rw [hHistory]) fun lsn hLsn => Or.inl (hSubscribing ▸ hLsn)
      · exact .keep rfl rfl rfl fun _ hLsn => Or.inl hLsn
  | wake index =>
      simp only [step] at h
      split at h
      · split_ifs at h <;> cases h
        · exact .keep rfl rfl rfl fun _ hLsn => Or.inl hLsn
        · have hAwake : Silent (.wake index) { s with sleeping := s.sleeping.eraseIdx index }
              ({ s with sleeping := s.sleeping.eraseIdx index } : SyncEngineProcess).trySubscribe :=
            trySubscribe_silent _
          exact ⟨hAwake.chain, hAwake.line, hAwake.requested, hAwake.kept, hAwake.subscribing,
            hAwake.received⟩
      · cases h
  | pollTick =>
      simp only [step] at h
      split_ifs at h with hTimer hBusy <;> cases h
      · exact .keep rfl rfl rfl fun _ hLsn => Or.inl hLsn
      · simp only [Bool.or_eq_true, not_or, Option.isSome_iff_ne_none, not_not] at hBusy
        exact nextPage_silent true 0 (by simp [SyncEngineProcess.requested, hBusy.1.2])
          (by simp [SyncEngineProcess.page, hBusy.1.2])
  | pollFailed =>
      simp only [step] at h
      split at h <;> cases h
      rename_i hPolling
      refine ⟨List.prefix_rfl, ?_, ?_, fun hNe => absurd rfl hNe, fun _ hLsn => Or.inl hLsn, rfl⟩
      · simp [SyncEngineProcess.line, SyncEngineProcess.page]
      · simp [SyncEngineProcess.requested]
  | pollNext =>
      simp only [step] at h
      split at h
      · rename_i rest more pages hPolling
        have hRequested : s.requested = none := by simp [SyncEngineProcess.requested, hPolling]
        have hPage : s.page = rest := by simp [SyncEngineProcess.page, hPolling]
        split_ifs at h <;> cases h
        · refine ⟨List.prefix_rfl, ?_, ?_, by simp [hRequested], fun _ hLsn => Or.inl hLsn, rfl⟩
          · simp [SyncEngineProcess.line, SyncEngineProcess.page]
          · simp [SyncEngineProcess.requested]
        · cases rest with
          | nil => exact nextPage_silent more (pages + 1) hRequested hPage
          | cons event rest =>
              refine ⟨List.prefix_append _ _, ?_, ?_, by simp [hRequested], fun _ hLsn => Or.inl hLsn, rfl⟩
              · rw [SyncEngineProcess.line, SyncEngineProcess.line, hPage]
                simp [nextEvent, enqueueApply, SyncEngineProcess.page]
              · simp [nextEvent, SyncEngineProcess.requested]
      · cases h
  | stop =>
      simp only [step] at h
      split_ifs at h <;> cases h <;> exact .keep rfl rfl rfl fun _ hLsn => Or.inl hLsn

/-- In front of every event of a line is all that comes before it in the log, unless the
engine has come past that. -/
def Gapless (s : SyncEngineProcess) (line : List Enqueued) : Prop :=
  ∀ ahead enqueued behind lsn l, line = ahead ++ enqueued :: behind →
    enqueued.event.lsnText = some (decimal lsn) → l < lsn → Passed l ahead s

theorem Gapless.shorten (h : Gapless s rest) (hPrefix : ahead <+: rest) : Gapless s ahead := by
  obtain ⟨more, rfl⟩ := hPrefix
  intro before enqueued behind lsn l hSplit
  exact h before enqueued (behind ++ more) lsn l (by rw [hSplit, List.append_assoc, List.cons_append])

theorem Gapless.quiet (h : Gapless s rest) (quiet : Quiet s t) : Gapless t rest :=
  fun ahead enqueued behind lsn l hSplit hText hLt =>
    quiet.passed (h ahead enqueued behind lsn l hSplit hText hLt)

/-- An event joins the line behind all that comes before it. -/
theorem Gapless.insert (h : Gapless s (ahead ++ behind))
    (hPassed : ∀ lsn l, enqueued.event.lsnText = some (decimal lsn) → l < lsn → Passed l ahead s) :
    Gapless s (ahead ++ enqueued :: behind) := by
  intro before other after lsn l hSplit hText hLt
  rcases List.append_eq_append_iff.mp hSplit with ⟨rest, hBefore, hRest⟩ | ⟨rest, hAhead, hRest⟩
  · cases rest with
    | nil =>
        cases hRest
        rw [hBefore, List.append_nil]
        exact hPassed lsn l hText hLt
    | cons first rest =>
        cases hRest
        have hOld := h (ahead ++ rest) other after lsn l (List.append_assoc _ _ _).symm hText hLt
        rw [hBefore]
        exact hOld.subset (List.append_subset.mpr
          ⟨List.subset_append_left _ _, fun e he => by simp [he]⟩)
  · cases rest with
    | nil =>
        cases hRest
        rw [List.append_nil] at hAhead
        rw [← hAhead]
        exact hPassed lsn l hText hLt
    | cons first rest =>
        cases hRest
        exact h before other (rest ++ behind) lsn l
          (by rw [hAhead, List.append_assoc, List.cons_append]) hText hLt

/-- The engine comes past the head of the line. -/
theorem Gapless.advance {dropped : List Enqueued} (h : Gapless s (dropped ++ rest))
    (hPassed : ∀ l ahead, Passed l (dropped ++ ahead) s → Passed l ahead t) : Gapless t rest := by
  intro ahead enqueued behind lsn l hSplit hText hLt
  refine hPassed l ahead (h (dropped ++ ahead) enqueued behind lsn l ?_ hText hLt)
  rw [hSplit, List.append_assoc]

/-- A page that goes on after an LSN the engine has come past. -/
theorem Gapless.extend {history : List LogRecord} {fromLsn : Nat} {events : List StreamEvent}
    (h : Gapless s rest) (hContinues : Continues history fromLsn events)
    (hFrom : fromLsn ≤ s.lastAppliedLsn) :
    Gapless s (rest ++ events.map fun event => ⟨event.toWire, true⟩) := by
  intro before other after lsn l hSplit hText hLt
  -- a split behind the old line is one of the page
  have hPage : ∀ more, before = rest ++ more →
      events.map (fun event : StreamEvent => (⟨event.toWire, true⟩ : Enqueued)) = more ++ other :: after →
      Passed l before s := by
    rintro more rfl hMore
    obtain ⟨ahead, behind, rfl, rfl, hBehind⟩ := List.map_eq_append_iff.mp hMore
    obtain ⟨event, later, rfl, rfl, -⟩ := List.map_eq_cons_iff.mp hBehind
    rcases hContinues.ahead (StreamEvent.lsn_of_lsnText hText) hLt with hOld | hAhead
    · exact Or.inl (hOld.trans hFrom)
    · obtain ⟨earlier, hMem, hLsn⟩ := List.mem_filterMap.mp hAhead
      refine Or.inr (Or.inr (Or.inl ⟨⟨earlier.toWire, true⟩, ?_, ?_⟩))
      · exact List.mem_append_right _ (List.mem_map_of_mem hMem)
      · rw [StreamEvent.lsnText_toWire, hLsn, Option.map_some]
  rcases List.append_eq_append_iff.mp hSplit with ⟨more, hBefore, hMore⟩ | ⟨more, hRest, hMore⟩
  · exact hPage more hBefore hMore
  · cases more with
    | nil => exact hPage [] (by simpa using hRest.symm) hMore.symm
    | cons first more =>
        cases hMore
        exact h before other more lsn l hRest hText hLt

/-- What a page does to the line. -/
theorem step_pollResponse {events : List WireStreamEvent} {more : Bool}
    (h : s.step toNumber (.pollResponse events more) = some t) :
    s.chain <+: t.chain ∧ t.line <+: s.line ++ events.map (fun event => ⟨event, true⟩) ∧
      (∀ fromLsn, t.requested = some fromLsn → fromLsn = s.lastAppliedLsn) ∧
      t.subscribing = s.subscribing ∧ t.history.received ⊆ s.history.received ++ events := by
  simp only [step] at h
  split at h
  · rename_i fromLsn pages hPolling
    have hLine : s.line = s.chain := by simp [SyncEngineProcess.line, SyncEngineProcess.page, hPolling]
    rw [hLine]
    split_ifs at h <;> cases h
    · exact ⟨List.prefix_rfl, by simp [SyncEngineProcess.line, SyncEngineProcess.page],
        by simp [SyncEngineProcess.requested], rfl, List.subset_append_left _ _⟩
    · cases events with
      | nil =>
          unfold nextEvent nextPage
          split_ifs
          all_goals
            refine ⟨List.prefix_rfl, ?_, ?_, rfl, List.Subset.refl _⟩
            · simp [SyncEngineProcess.line, SyncEngineProcess.page, receive]
            · simp [SyncEngineProcess.requested, receive, eq_comm]
      | cons event rest =>
          refine ⟨List.prefix_append _ _, ?_, ?_, rfl, List.Subset.refl _⟩
          · simp [SyncEngineProcess.line, SyncEngineProcess.page, nextEvent, enqueueApply, receive]
          · simp [SyncEngineProcess.requested, nextEvent]
  · cases h

/-- An event that is behind all that comes before it is old, or next. -/
theorem checkLsn_passed (s : SyncEngineProcess) (next : Nat → Verdict) (hSafe : lsn ≤ maxSafeInteger)
    (hPassed : ∀ l < lsn, l ≤ s.lastAppliedLsn) :
    s.checkLsn next (safeIntegerOf (decimal lsn)) = .skip ∨
      lsn = s.lastAppliedLsn + 1 ∧ s.checkLsn next (safeIntegerOf (decimal lsn)) = next lsn := by
  rw [safeIntegerOf_decimal, if_pos hSafe]
  simp only [checkLsn]
  split_ifs with hOld hGap
  · exact Or.inl rfl
  · have := hPassed (lsn - 1) (by omega)
    omega
  · exact Or.inr ⟨not_not.mp hGap, rfl⟩

@[simp] theorem requested_resolve (s : SyncEngineProcess) (polled : Bool) :
    (s.resolve polled).requested = s.requested := by
  unfold resolve
  split
  · rename_i hPolling
    simp [SyncEngineProcess.requested, hPolling]
  · rfl

@[simp] theorem requested_rebootstrap (s : SyncEngineProcess) (reason : String) :
    (s.rebootstrap reason).requested = s.requested := by
  unfold rebootstrap
  split_ifs <;> rfl

@[simp] theorem requested_persist (s : SyncEngineProcess) (lsn : Nat) (updated : Except String Unit) :
    (s.persist lsn updated).requested = s.requested := by
  cases updated with
  | ok => rfl
  | error message => exact requested_rebootstrap s _

theorem requested_applyEvent (enqueued : Enqueued) (applied updated : Except String Unit) :
    (s.applyEvent toNumber enqueued applied updated).requested = s.requested := by
  unfold applyEvent
  split_ifs
  · exact requested_resolve s _
  · split
    · exact requested_resolve s _
    · rw [requested_resolve, requested_rebootstrap]
    · cases applied with
      | ok =>
          rw [requested_resolve, requested_persist]
          rfl
      | error message =>
          rw [requested_resolve, requested_rebootstrap]
          rfl
    · rfl

theorem requested_finishRotation (rotation : CoordinatedRotation) (outcome updated : Except String Unit) :
    (s.finishRotation rotation outcome updated).requested = s.requested := by
  cases outcome with
  | ok =>
      rw [finishRotation, requested_resolve, requested_persist]
      rfl
  | error message =>
      rw [finishRotation, requested_resolve, requested_rebootstrap]
      rfl

/-- What the next event of the chain does while the revoker and the state file do not
fail: nothing, or a call of the revoker. -/
inductive Turn (s : SyncEngineProcess) (enqueued : Enqueued) (t : SyncEngineProcess) : Prop where
  | passed (call : s.nextCall = none) (completed : t.history.completed = s.history.completed)
      (persisted : t.history.persisted = s.history.persisted) (rotating : t.rotating = none)
      (fired : t.rebootstrapFired = true → s.rebootstrapFired = true ∨
        (s.stopped || s.rebootstrapFired) = false ∧
          ∃ reason, s.check safeIntegerOf enqueued.event = .rebootstrap reason)
  | entered (lsn : Nat) (item : JsString) (call : s.nextCall = some (.applyEntry item))
      (running : (s.stopped || s.rebootstrapFired) = false)
      (check : s.check safeIntegerOf enqueued.event = .entry lsn item)
      (completed : t.history.completed = s.history.completed ++ [(lsn, .applyEntry item)])
      (persisted : t.history.persisted.length = s.history.persisted.length + 1) (rotating : t.rotating = none)
      (fired : t.rebootstrapFired = s.rebootstrapFired)
  | rotates (call : s.nextCall = some .rotateOnDemand) (completed : t.history.completed = s.history.completed)
      (persisted : t.history.persisted = s.history.persisted) (rotating : t.rotating.isSome = true)
      (fired : t.rebootstrapFired = s.rebootstrapFired)

@[simp] theorem history_resolve (s : SyncEngineProcess) (polled : Bool) :
    (s.resolve polled).history = s.history := by
  unfold resolve
  split <;> rfl

@[simp] theorem rotating_resolve (s : SyncEngineProcess) (polled : Bool) :
    (s.resolve polled).rotating = s.rotating := (resolve_quiet s polled).rotating

@[simp] theorem fired_resolve (s : SyncEngineProcess) (polled : Bool) :
    (s.resolve polled).rebootstrapFired = s.rebootstrapFired := (resolve_quiet s polled).fired

theorem rebootstrap_eq (s : SyncEngineProcess) (reason : String) :
    (s.rebootstrap reason).history.completed = s.history.completed ∧
      (s.rebootstrap reason).history.persisted = s.history.persisted ∧
      (s.rebootstrap reason).rotating = s.rotating := by
  unfold rebootstrap
  split_ifs <;> exact ⟨rfl, rfl, rfl⟩

theorem turn_of_apply (h : s.step safeIntegerOf (.apply (.ok ()) (.ok ())) = some t) :
    ∃ enqueued rest, s.rotating = none ∧ s.chain = enqueued :: rest ∧
      t = ({ s with chain := rest } : SyncEngineProcess).applyEvent safeIntegerOf enqueued (.ok ()) (.ok ()) ∧
      s.Turn enqueued t := by
  simp only [step] at h
  split at h
  · rename_i enqueued rest hIdle hChain
    cases h
    refine ⟨enqueued, rest, hIdle, hChain, rfl, ?_⟩
    unfold applyEvent
    by_cases hHalted : (s.stopped || s.rebootstrapFired) = true
    · rw [if_pos hHalted]
      refine .passed ?_ (by simp) (by simp) (by simpa using hIdle) fun hFired =>
        Or.inl (by simpa using hFired)
      simp only [nextCall, hIdle, hChain, if_pos hHalted]
    · rw [if_neg hHalted]
      have hRunning : (s.stopped || s.rebootstrapFired) = false := by simpa using hHalted
      have hCheck : ({ s with chain := rest } : SyncEngineProcess).check safeIntegerOf enqueued.event =
          s.check safeIntegerOf enqueued.event := rfl
      rw [hCheck]
      have hCall : s.nextCall = (s.check safeIntegerOf enqueued.event).call := by
        simp only [nextCall, hIdle, hChain, hHalted, Bool.false_eq_true, if_false]
      cases hVerdict : s.check safeIntegerOf enqueued.event with
      | skip =>
          rw [hVerdict] at hCall
          exact .passed hCall (by simp) (by simp) (by simpa using hIdle) fun hFired =>
            Or.inl (by simpa using hFired)
      | rebootstrap reason =>
          rw [hVerdict] at hCall
          obtain ⟨hCompleted, hPersisted, hRotating⟩ :=
            rebootstrap_eq ({ s with chain := rest } : SyncEngineProcess) reason
          exact .passed hCall (by rw [history_resolve, hCompleted]) (by rw [history_resolve, hPersisted])
            (((rotating_resolve _ _).trans hRotating).trans hIdle) fun _ =>
            Or.inr ⟨hRunning, reason, hVerdict⟩
      | entry lsn item =>
          rw [hVerdict] at hCall
          exact .entered lsn item hCall hRunning hVerdict (by simp [persist, complete, attempt])
            (by simp [persist, complete, attempt]) (by simpa [persist, complete, attempt] using hIdle)
            (by simp [persist, complete, attempt])
      | rotate lsn =>
          rw [hVerdict] at hCall
          exact .rotates hCall rfl rfl rfl rfl
  · cases h

/-- The rotation that is awaited ends. -/
theorem turn_of_rotated (h : s.step safeIntegerOf (.rotated (.ok ()) (.ok ())) = some t) :
    ∃ rotation, s.rotating = some rotation ∧ t = s.finishRotation rotation (.ok ()) (.ok ()) ∧
      t.history.completed = s.history.completed ++ [(rotation.lsn, .rotateOnDemand)] ∧
      t.history.persisted.length = s.history.persisted.length + 1 ∧
      t.rotating = none ∧ t.rebootstrapFired = s.rebootstrapFired := by
  obtain ⟨rotation, hRotating, rfl⟩ := Option.map_eq_some_iff.mp h
  exact ⟨rotation, hRotating, rfl, by simp [finishRotation, persist, complete],
    by simp [finishRotation, persist, complete], by simp [finishRotation, persist, complete],
    by simp [finishRotation, persist, complete]⟩

end SyncEngineProcess

/-- A number has outgrown its field: the LSNs are no safe integers any more, or the
generations no `int32`. -/
def Outgrown (history : List LogRecord) : Prop :=
  maxSafeInteger < history.length ∨ 2 ^ 31 ≤ (markersOf history).length

theorem Outgrown.append {history : List LogRecord} (h : Outgrown history) (more : List LogRecord) :
    Outgrown (history ++ more) := by
  unfold Outgrown at h ⊢
  rw [markersOf_append, List.length_append, List.length_append]
  omega

/-- A stream resumed no later than the engine has come, and what it has delivered is on
the chain, or past it. -/
structure NodeStream.Fed (wire : Wire) (log : LoggedCoordinator) (engine : SyncEngineProcess)
    (stream : NodeStream) : Prop where
  resumes : stream.requested ≤ engine.lastAppliedLsn
  answers : ∀ connection, stream.connection = some connection →
    connection.Answers wire log.history log.coordinator.canonical.deletedMaxLsn stream.requested
  delivered_le : stream.delivered ≤ (stream.sent wire).length
  delivered : ∀ lsn ∈ ((stream.sent wire).take stream.delivered).filterMap StreamEvent.lsn,
    SyncEngineProcess.Passed lsn engine.chain engine

/-- What holds of an engine and its channels in every state of a run. What is on the way
continues what has been applied, whichever channel it takes. -/
structure Replica.Fed {g : Geometry} (wire : Wire) (log : LoggedCoordinator) (r : Replica g) : Prop where
  orderly : SyncEngineProcess.Orderly safeIntegerOf 0 0 r.engine
  received : ∀ wired ∈ r.engine.history.received,
    ∃ event : StreamEvent, event.Logged log.history ∧ wired = event.toWire
  resumes : ∀ lsn ∈ r.engine.subscribing, lsn ≤ r.engine.lastAppliedLsn
  polls : ∀ fromLsn, r.engine.requested = some fromLsn → fromLsn ≤ r.engine.lastAppliedLsn
  answered : ∀ answer, r.answer = some answer →
    ∃ fromLsn, r.engine.requested = some fromLsn ∧ Continues log.history fromLsn answer.1
  streams : ∀ stream ∈ r.streams, stream.Fed wire log r.engine
  gapless : r.engine.Gapless r.engine.line
  recorded : r.engine.history.persisted.length = r.engine.history.completed.length
  asked : r.engine.rebootstrapFired = true →
    .resnapshot ∈ r.engine.history.received ∨ Outgrown log.history

namespace NodeStream

variable {wire : Wire} {log log' : LoggedCoordinator} {engine engine' : SyncEngineProcess}
  {stream stream' : NodeStream} {segments : List Segment}

/-- The engine comes further. -/
theorem Fed.advance (h : stream.Fed wire log engine)
    (hCursor : engine.lastAppliedLsn ≤ engine'.lastAppliedLsn)
    (hPassed : ∀ lsn, SyncEngineProcess.Passed lsn engine.chain engine →
      SyncEngineProcess.Passed lsn engine'.chain engine') : stream.Fed wire log engine' :=
  ⟨h.resumes.trans hCursor, h.answers, h.delivered_le, fun lsn hLsn => hPassed lsn (h.delivered lsn hLsn)⟩

/-- The server's end of the stream goes on. -/
theorem Fed.serve (h : stream.Fed wire log engine) {connection : NodeConnection}
    (hAnswers : connection.Answers wire log'.history log'.coordinator.canonical.deletedMaxLsn
      stream.requested)
    (hWritten : stream.connection.elim [] NodeConnection.written <+: connection.written) :
    NodeStream.Fed wire log' engine { stream with connection := some connection } := by
  have hSent : stream.sent wire <+: NodeStream.sent wire { stream with connection := some connection } :=
    hWritten.map _
  refine ⟨h.resumes, ?_, h.delivered_le.trans hSent.length_le, ?_⟩
  · intro other hOther
    cases hOther
    exact hAnswers
  · intro lsn hLsn
    refine h.delivered lsn ?_
    obtain ⟨more, hMore⟩ := hSent
    rwa [← hMore, List.take_append_of_le_length h.delivered_le] at hLsn

theorem Fed.step (h : stream.Fed wire log engine) {a : Action}
    (hEndures : log.coordinator.Endures segments log.history)
    (hLe : engine.lastAppliedLsn ≤ log.history.length)
    (hStep : stream.step log.coordinator a = some stream') : stream'.Fed wire log engine := by
  cases a with
  | accept =>
      simp only [NodeStream.step, Option.ite_none_left_eq_some, Option.isSome_iff_ne_none, not_not] at hStep
      obtain ⟨hNone, hEq⟩ := hStep
      cases hEq
      exact h.serve (.subscribe log.coordinator (h.resumes.trans hLe)) (by simp [hNone])
  | work =>
      obtain ⟨connection, hWork, rfl⟩ := Option.map_eq_some_iff.mp hStep
      obtain ⟨old, hOld, hWork⟩ := Option.bind_eq_some_iff.mp hWork
      refine h.serve ((h.answers old hOld).work hEndures hWork) ?_
      rw [hOld]
      exact NodeConnection.written_grows hWork
  | keepalive =>
      obtain ⟨old, hOld, rfl⟩ := Option.map_eq_some_iff.mp hStep
      have hOpen := h.answers old hOld
      refine h.serve (hOpen.enqueue (List.append_nil _).symm hOpen.kept trivial) ?_
      rw [hOld, NodeConnection.written_enqueue]
      exact List.prefix_rfl
  | close =>
      obtain ⟨old, hOld, rfl⟩ := Option.map_eq_some_iff.mp hStep
      refine h.serve (h.answers old hOld).close ?_
      rw [hOld]
      exact List.prefix_rfl

end NodeStream

/-- The call that applies a record. -/
def Payload.call : Payload → RevokerCall
  | .entry item => .applyEntry item
  | .rotate _ => .rotateOnDemand

theorem length_markersOf (history : List LogRecord) :
    (markersOf history).length = history.countP fun r => r.2.call.isRotation := by
  rw [markersOf, List.length_filterMap_eq_countP]
  refine List.countP_congr fun r _ => ?_
  obtain ⟨lsn, payload⟩ := r
  cases payload <;> simp [Payload.call, RevokerCall.isRotation]

/-- The marker behind so many markers. -/
theorem Coordinator.Endures.marker_eq {c : Coordinator} {segments : List Segment} {history : List LogRecord}
    (h : c.Endures segments history) {i lsn marker : Nat} (hAt : history[i]? = some (lsn, .rotate marker)) :
    marker = (markersOf (history.take i)).length + 1 ∧ marker ≤ (markersOf history).length := by
  obtain ⟨hLt, hEq⟩ := List.getElem?_eq_some_iff.mp hAt
  have hSplit : markersOf history =
      markersOf (history.take i) ++ marker :: markersOf (history.drop (i + 1)) := by
    conv_lhs => rw [← List.take_append_drop i history, List.drop_eq_getElem_cons hLt, hEq, markersOf_append]
    rfl
  have hMarkers := h.markers
  rw [hSplit] at hMarkers
  obtain ⟨k, hk, hAhead, hRest⟩ := List.range'_eq_append_iff.mp hMarkers.symm
  have hLength : (markersOf (history.take i)).length = k := by rw [hAhead, List.length_range']
  cases hCount : c.metaState.generation - k with
  | zero => simp [hCount] at hRest
  | succ rest =>
      rw [hCount, List.range'_succ, List.cons.injEq] at hRest
      rw [hSplit, List.length_append, List.length_cons]
      omega

/-- An event of the log asks for the call of its record. -/
theorem StreamEvent.Logged.call {history : List LogRecord} {event : StreamEvent} (h : event.Logged history)
    {lsn : Nat} {call : RevokerCall} (hDenotes : SyncEngineProcess.Denotes safeIntegerOf lsn call
      event.toWire) :
    ∃ payload : Payload, (lsn, payload) ∈ history ∧ payload.call = call := by
  have hOne : ∀ other, safeIntegerOf (decimal other) = some lsn → other = lsn := by
    intro other hOther
    rw [safeIntegerOf_decimal] at hOther
    split_ifs at hOther
    exact Option.some.inj hOther
  cases call with
  | applyEntry item =>
      obtain ⟨payload, hEq, hNumber, hItem⟩ := hDenotes
      cases event <;> cases hEq
      cases hOne _ hNumber
      exact ⟨.entry item, hItem ▸ h, rfl⟩
  | rotateOnDemand =>
      obtain ⟨payload, hEq, hNumber⟩ := hDenotes
      cases event <;> cases hEq
      cases hOne _ hNumber
      obtain ⟨marker, hMem, -⟩ := h
      exact ⟨.rotate marker, hMem, rfl⟩

namespace Replica

variable {g : Geometry} {wire : Wire} {log log' : LoggedCoordinator} {r r' : Replica g}
  {segments : List Segment}

namespace Fed

theorem cursor_eq (h : r.Fed wire log) : r.engine.lastAppliedLsn = r.engine.history.completed.length := by
  rw [h.orderly.cursor, h.recorded, Nat.zero_add]

/-- What the engine has called on the revoker is the log up to where it has come. -/
theorem completed_isPrefix (h : r.Fed wire log) (hEndures : log.coordinator.Endures segments log.history) :
    r.engine.history.completed <+: log.history.map fun record => (record.1, record.2.call) := by
  have hLsns : r.engine.history.completed.map Prod.fst =
      List.range' 1 r.engine.history.completed.length := by
    have hPrefix := h.orderly.completed.map Prod.fst
    rw [h.orderly.attempted] at hPrefix
    rw [List.prefix_iff_eq_take.mp hPrefix, List.length_map]
    exact List.take_range'_of_length_ge h.orderly.completed.length_le
  rw [List.prefix_iff_getElem?]
  intro i hi
  obtain ⟨⟨lsn, call⟩, hPair⟩ : ∃ pair, r.engine.history.completed[i] = pair := ⟨_, rfl⟩
  have hMem : (lsn, call) ∈ r.engine.history.completed := hPair ▸ List.getElem_mem hi
  have hLsn : lsn = i + 1 := by
    have hGet : (r.engine.history.completed.map Prod.fst)[i]? = some lsn := by
      rw [List.getElem?_map, List.getElem?_eq_getElem hi, hPair, Option.map_some]
    rw [hLsns, List.getElem?_range' hi] at hGet
    simpa [Nat.add_comm] using (Option.some.inj hGet).symm
  obtain ⟨wired, hReceived, hDenotes⟩ := h.orderly.received _ _ (h.orderly.completed.subset hMem)
  obtain ⟨event, hLogged, rfl⟩ := h.received wired hReceived
  obtain ⟨payload, hRecord, rfl⟩ := hLogged.call hDenotes
  obtain ⟨place, hAt, hPlace⟩ := getElem?_of_mem hEndures.lsns hRecord
  obtain rfl : place = i := by
    simp only at hPlace
    omega
  rw [hPair, List.getElem?_map, hAt, Option.map_some]

theorem cursor_le (h : r.Fed wire log) (hEndures : log.coordinator.Endures segments log.history) :
    r.engine.lastAppliedLsn ≤ log.history.length := by
  rw [h.cursor_eq]
  simpa using (h.completed_isPrefix hEndures).length_le

theorem completed_eq (h : r.Fed wire log) (hEndures : log.coordinator.Endures segments log.history) :
    r.engine.history.completed =
      (log.history.take r.engine.lastAppliedLsn).map fun record => (record.1, record.2.call) := by
  rw [List.map_take, h.cursor_eq]
  exact List.prefix_iff_eq_take.mp (h.completed_isPrefix hEndures)

theorem generation_eq (h : r.Fed wire log) (hEndures : log.coordinator.Endures segments log.history) :
    r.engine.generation = (markersOf (log.history.take r.engine.lastAppliedLsn)).length := by
  rw [h.orderly.generation, h.completed_eq hEndures, List.countP_map, length_markersOf]
  simp [Function.comp_def]

/-- The head of the chain is behind everything that comes before it in the log. -/
theorem head (h : r.Fed wire log) {enqueued : Enqueued} {rest : List Enqueued}
    (hChain : r.engine.chain = enqueued :: rest) (hIdle : r.engine.rotating = none)
    (hRunning : (r.engine.stopped || r.engine.rebootstrapFired) = false) :
    ∃ event : StreamEvent, event.Logged log.history ∧ enqueued.event = event.toWire ∧
      event.toWire ∈ r.engine.history.received ∧
      ∀ lsn, event.toWire.lsnText = some (decimal lsn) → ∀ l < lsn, l ≤ r.engine.lastAppliedLsn := by
  have hReceived : enqueued.event ∈ r.engine.history.received :=
    h.orderly.waiting _ (by simp [SyncEngineProcess.waiting, hChain])
  obtain ⟨event, hLogged, hEvent⟩ := h.received _ hReceived
  refine ⟨event, hLogged, hEvent, hEvent ▸ hReceived, fun lsn hText l hLt => ?_⟩
  have hPassed : SyncEngineProcess.Passed l [] r.engine :=
    h.gapless [] enqueued _ lsn l (by rw [SyncEngineProcess.line, hChain]; rfl) (hEvent ▸ hText) hLt
  simp only [Bool.or_eq_false_iff] at hRunning
  simpa [SyncEngineProcess.Passed, hIdle, hRunning.1, hRunning.2] using hPassed

/-- Only a refusal, or a number that has outgrown its field, makes the engine ask for a
snapshot. -/
theorem asks (h : r.Fed wire log) (hEndures : log.coordinator.Endures segments log.history)
    {enqueued : Enqueued} {rest : List Enqueued} (hChain : r.engine.chain = enqueued :: rest)
    (hIdle : r.engine.rotating = none) (hRunning : (r.engine.stopped || r.engine.rebootstrapFired) = false)
    {reason : String} (hCheck : r.engine.check safeIntegerOf enqueued.event = .rebootstrap reason) :
    .resnapshot ∈ r.engine.history.received ∨ Outgrown log.history := by
  obtain ⟨event, hLogged, hEvent, hReceived, hPassed⟩ := h.head hChain hIdle hRunning
  rw [hEvent] at hCheck
  cases event with
  | keepalive => cases hCheck
  | resnapshot => exact Or.inl hReceived
  | entry lsn generation item =>
      right
      by_contra hFits
      have hSafe : lsn ≤ maxSafeInteger := by
        have hLe : lsn ≤ log.history.length := hEndures.le_length hLogged
        unfold Outgrown at hFits
        omega
      rcases r.engine.checkLsn_passed (fun lsn => .entry lsn item) hSafe (hPassed lsn rfl) with
        hSkip | ⟨-, hNext⟩
      · cases hSkip.symm.trans hCheck
      · cases hNext.symm.trans hCheck
  | rotate lsn generation =>
      right
      by_contra hFits
      obtain ⟨marker, hMem, rfl⟩ := hLogged
      have hSafe : lsn ≤ maxSafeInteger := by
        have hLe : lsn ≤ log.history.length := hEndures.le_length hMem
        unfold Outgrown at hFits
        omega
      rcases r.engine.checkLsn_passed (fun lsn => if int32 marker ≠ r.engine.generation + 1 then
          .rebootstrap "rotation generation mismatch" else .rotate lsn) hSafe (hPassed lsn rfl) with
        hSkip | ⟨hLsn, hNext⟩
      · cases hSkip.symm.trans hCheck
      · -- the marker is the one after those that the engine has applied
        obtain ⟨place, hAt, hPlace⟩ := getElem?_of_mem hEndures.lsns hMem
        obtain rfl : place = r.engine.lastAppliedLsn := by
          simp only at hPlace
          omega
        obtain ⟨hMarker, hLe⟩ := hEndures.marker_eq hAt
        have hSmall : marker < 2 ^ 31 := by
          unfold Outgrown at hFits
          omega
        have hGeneration : int32 marker = r.engine.generation + 1 := by
          rw [int32_eq hSmall, h.generation_eq hEndures, hMarker]
          push_cast
          rfl
        rw [if_neg (not_not.mpr hGeneration)] at hNext
        cases hNext.symm.trans hCheck

/-- An entry that is next has an item that can be applied. -/
theorem acceptable (h : r.Fed wire log) (hEndures : log.coordinator.Endures segments log.history)
    {enqueued : Enqueued} {rest : List Enqueued} (hChain : r.engine.chain = enqueued :: rest)
    (hIdle : r.engine.rotating = none) (hRunning : (r.engine.stopped || r.engine.rebootstrapFired) = false)
    {lsn : Nat} {item : JsString} (hCheck : r.engine.check safeIntegerOf enqueued.event = .entry lsn item) :
    Acceptable item := by
  obtain ⟨event, hLogged, hEvent, -⟩ := h.head hChain hIdle hRunning
  rw [hEvent] at hCheck
  obtain ⟨payload, hRecord, hCall⟩ := hLogged.call (SyncEngineProcess.check_eq_entry hCheck).2
  cases payload <;> cases hCall
  exact (hEndures.items lsn item hRecord).1

theorem congr (h : r.Fed wire log) (hEngine : r'.engine = r.engine) (hStreams : r'.streams = r.streams)
    (hAnswer : r'.answer = r.answer) : r'.Fed wire log := by
  obtain ⟨hOrderly, hReceived, hResumes, hPolls, hAnswered, hFed, hGapless, hRecorded, hAsked⟩ := h
  rw [← hEngine] at hOrderly hReceived hResumes hPolls hAnswered hFed hGapless hRecorded hAsked
  rw [← hAnswer] at hAnswered
  rw [← hStreams] at hFed
  exact ⟨hOrderly, hReceived, hResumes, hPolls, hAnswered, hFed, hGapless, hRecorded, hAsked⟩

/-- The engine comes further: it drops the head of its chain, or ends a rotation. -/
theorem advance (h : r.Fed wire log) {engine : SyncEngineProcess} {dropped rest : List Enqueued}
    (hChain : r.engine.chain = dropped ++ rest)
    (hOrderly : SyncEngineProcess.Orderly safeIntegerOf 0 0 engine)
    (hAdvances : SyncEngineProcess.Advances { r.engine with chain := rest } engine)
    (hRequested : engine.requested = r.engine.requested)
    (hPassed : ∀ lsn ahead, SyncEngineProcess.Passed lsn (dropped ++ ahead) r.engine →
      SyncEngineProcess.Passed lsn ahead engine)
    (hRecorded : engine.history.persisted.length = engine.history.completed.length)
    (hAsked : engine.rebootstrapFired = true →
      .resnapshot ∈ r.engine.history.received ∨ Outgrown log.history) :
    Fed wire log { r with engine := engine } := by
  have hReceived : engine.history.received = r.engine.history.received := hAdvances.received
  have hCursor : r.engine.lastAppliedLsn ≤ engine.lastAppliedLsn := hAdvances.cursor
  have hRest : engine.chain = rest := hAdvances.chain
  refine ⟨hOrderly, ?_, ?_, ?_, ?_, ?_, ?_, hRecorded, ?_⟩
  · rw [hReceived]
    exact h.received
  · intro lsn hLsn
    rw [hAdvances.subscribing] at hLsn
    exact (h.resumes lsn hLsn).trans hCursor
  · intro fromLsn hFrom
    rw [hRequested] at hFrom
    exact (h.polls fromLsn hFrom).trans hCursor
  · simp only [hRequested]
    exact h.answered
  · intro stream hStream
    refine (h.streams stream hStream).advance hCursor fun lsn hLsn => ?_
    rw [hRest]
    exact hPassed lsn rest (hChain ▸ hLsn)
  · have hLine : r.engine.line = dropped ++ engine.line := by
      rw [SyncEngineProcess.line, SyncEngineProcess.line, hChain, hRest, hAdvances.page, List.append_assoc]
      rfl
    have hGapless := h.gapless
    rw [hLine] at hGapless
    exact hGapless.advance hPassed
  · rw [hReceived]
    exact hAsked

theorem apply (h : r.Fed wire log) (hEndures : log.coordinator.Endures segments log.history)
    {engine : SyncEngineProcess} (hStep : r.engine.step safeIntegerOf (.apply (.ok ()) (.ok ())) = some
      engine) :
    Fed wire log { r with engine := engine } := by
  have hOrderly := SyncEngineProcess.step_orderly hStep h.orderly
  obtain ⟨enqueued, rest, hIdle, hChain, rfl, hTurn⟩ := SyncEngineProcess.turn_of_apply hStep
  have hHead : r.engine.chain = [enqueued] ++ rest := hChain
  refine h.advance hHead hOrderly (SyncEngineProcess.applyEvent_advances safeIntegerOf enqueued (.ok ())
    (.ok ()))
    (SyncEngineProcess.requested_applyEvent enqueued (.ok ()) (.ok ())) ?_ ?_ ?_
  · intro lsn ahead hPassed
    exact SyncEngineProcess.Passed.applyEvent (s := { r.engine with chain := rest }) hPassed hIdle
      (.ok ()) (.ok ())
  · cases hTurn with
    | passed call completed persisted => rw [completed, persisted, h.recorded]
    | entered lsn item call running check completed persisted =>
        rw [completed, persisted, h.recorded, List.length_append, List.length_singleton]
    | rotates call completed persisted => rw [completed, persisted, h.recorded]
  · intro hFired
    cases hTurn with
    | passed call completed persisted rotating fired =>
        rcases fired hFired with hOld | ⟨hRunning, reason, hCheck⟩
        · exact h.asked hOld
        · exact h.asks hEndures hChain hIdle hRunning hCheck
    | entered lsn item call running check completed persisted rotating fired =>
        exact h.asked (fired ▸ hFired)
    | rotates call completed persisted rotating fired => exact h.asked (fired ▸ hFired)

theorem rotated (h : r.Fed wire log) {engine : SyncEngineProcess}
    (hStep : r.engine.step safeIntegerOf (.rotated (.ok ()) (.ok ())) = some engine) :
    Fed wire log { r with engine := engine } := by
  have hOrderly := SyncEngineProcess.step_orderly hStep h.orderly
  obtain ⟨rotation, hRotating, rfl, hCompleted, hPersisted, -, hFired⟩ :=
    SyncEngineProcess.turn_of_rotated hStep
  have hNext := (h.orderly.rotation rotation hRotating).1
  refine h.advance (List.nil_append _).symm hOrderly
    (SyncEngineProcess.finishRotation_advances hNext (.ok ()) (.ok ()))
    (SyncEngineProcess.requested_finishRotation rotation (.ok ()) (.ok ())) ?_ ?_ ?_
  · intro lsn ahead hPassed
    exact hPassed.finishRotation hRotating hNext (.ok ()) (.ok ())
  · rw [hCompleted, hPersisted, h.recorded, List.length_append, List.length_singleton]
  · rw [hFired]
    exact h.asked

/-- Nothing arrives, and nothing is applied. -/
theorem silent (h : r.Fed wire log) {action : SyncEngineProcess.Action} {engine : SyncEngineProcess}
    (hStep : r.engine.step safeIntegerOf action = some engine) (hSilent : action.isSilent = true) :
    Fed wire log { r with
      engine := engine
      answer := if action = .pollFailed then none else r.answer } := by
  have hQuiet : SyncEngineProcess.Quiet r.engine engine := by
    refine SyncEngineProcess.step_quiet hStep ?_ ?_ <;> rintro _ _ rfl <;> cases hSilent
  obtain ⟨hChain, hLine, hRequested, hKept, hSubscribing, hReceived⟩ :=
    SyncEngineProcess.step_silent hStep hSilent
  refine ⟨h.orderly.quiet hQuiet, ?_, ?_, ?_, ?_, ?_, (h.gapless.shorten hLine).quiet hQuiet, ?_, ?_⟩
  · rw [hReceived]
    exact h.received
  · intro lsn hLsn
    simp only [hQuiet.cursor]
    rcases hSubscribing lsn hLsn with hOld | rfl
    · exact h.resumes lsn hOld
    · exact Nat.le_refl _
  · intro fromLsn hFrom
    simp only [hQuiet.cursor]
    rcases hRequested fromLsn hFrom with hOld | rfl
    · exact h.polls fromLsn hOld
    · exact Nat.le_refl _
  · intro answer hAnswer
    simp only at hAnswer
    split_ifs at hAnswer with hFailed
    obtain ⟨fromLsn, hFrom, hContinues⟩ := h.answered answer hAnswer
    exact ⟨fromLsn, hKept hFailed fromLsn hFrom, hContinues⟩
  · intro stream hStream
    refine (h.streams stream hStream).advance hQuiet.cursor.ge fun lsn hLsn => ?_
    exact (hQuiet.passed hLsn).subset hChain.subset
  · rw [hQuiet.persisted, hQuiet.completed]
    exact h.recorded
  · rw [hQuiet.fired, hReceived]
    exact h.asked

/-- A new stream has delivered nothing. -/
theorem opened (h : r.Fed wire log) {requested : Nat} (hLe : requested ≤ r.engine.lastAppliedLsn) :
    Fed wire log { r with streams := r.streams ++ [{ requested := requested }] } where
  orderly := h.orderly
  received := h.received
  resumes := h.resumes
  polls := h.polls
  answered := h.answered
  streams := by
    intro stream hStream
    rcases List.mem_append.mp hStream with hOld | hNew
    · exact h.streams stream hOld
    · cases List.mem_singleton.mp hNew
      exact ⟨hLe, by simp, Nat.zero_le _, by simp⟩
  gapless := h.gapless
  recorded := h.recorded
  asked := h.asked

/-- A message of a stream reaches the node. -/
theorem deliver (h : r.Fed wire log) (hEndures : log.coordinator.Endures segments log.history) {index : Nat}
    {stream : NodeStream} {event : StreamEvent} {engine : SyncEngineProcess}
    (hStream : r.streams[index]? = some stream) (hEvent : (stream.sent wire)[stream.delivered]? = some event)
    (hStep : r.engine.step safeIntegerOf (.data index event.toWire) = some engine) :
    Fed wire log { r with
      engine := engine
      streams := r.streams.set index { stream with delivered := stream.delivered + 1 } } := by
  have hOrderly := SyncEngineProcess.step_orderly hStep h.orderly
  have hQuiet : SyncEngineProcess.Quiet r.engine engine :=
    SyncEngineProcess.step_quiet hStep (by simp) (by simp)
  have hOld := h.streams stream (List.mem_of_getElem? hStream)
  have hContinues : Continues log.history stream.requested (stream.sent wire) := by
    cases hConnection : stream.connection with
    | none => simp [NodeStream.sent, hConnection] at hEvent
    | some connection =>
        rw [NodeStream.sent, hConnection]
        exact (hOld.answers connection hConnection).continues hEndures
  have hSplit : stream.sent wire =
      (stream.sent wire).take stream.delivered ++ event :: (stream.sent wire).drop
      (stream.delivered + 1) := by
    obtain ⟨hLt, rfl⟩ := List.getElem?_eq_some_iff.mp hEvent
    rw [← List.drop_eq_getElem_cons hLt, List.take_append_drop]
  have hLogged : event.Logged log.history := hContinues.logged event (List.mem_of_getElem? hEvent)
  have hAhead : ∀ lsn l, event.toWire.lsnText = some (decimal lsn) → l < lsn →
      SyncEngineProcess.Passed l r.engine.chain r.engine := by
    intro lsn l hText hLt
    rw [hSplit] at hContinues
    rcases hContinues.ahead (StreamEvent.lsn_of_lsnText hText) hLt with hLe | hMem
    · exact Or.inl (hLe.trans hOld.resumes)
    · exact hOld.delivered l hMem
  simp only [SyncEngineProcess.step] at hStep
  split_ifs at hStep
  cases hStep
  refine ⟨hOrderly, ?_, h.resumes, h.polls, h.answered, ?_, ?_, h.recorded, ?_⟩
  · intro wired hWired
    rcases List.mem_append.mp hWired with hReceived | hNew
    · exact h.received wired hReceived
    · cases List.mem_singleton.mp hNew
      exact ⟨event, hLogged, rfl⟩
  · intro other hOther
    rcases List.mem_or_eq_of_mem_set hOther with hMem | rfl
    · exact (h.streams other hMem).advance (Nat.le_refl _) fun lsn hLsn =>
        (hQuiet.passed hLsn).subset (List.subset_append_left _ _)
    · refine ⟨hOld.resumes, hOld.answers, (List.getElem?_eq_some_iff.mp hEvent).1, fun lsn hLsn => ?_⟩
      have hTaken : (stream.sent wire).take (stream.delivered + 1) =
          (stream.sent wire).take stream.delivered ++ [event] := by
        rw [List.take_add_one, hEvent, Option.toList_some]
      replace hLsn : lsn ∈ ((stream.sent wire).take (stream.delivered + 1)).filterMap StreamEvent.lsn := hLsn
      rw [hTaken, List.filterMap_append, List.mem_append] at hLsn
      rcases hLsn with hBefore | hNew
      · exact (hQuiet.passed (hOld.delivered lsn hBefore)).subset (List.subset_append_left _ _)
      · obtain ⟨other, hMem, hEq⟩ := List.mem_filterMap.mp hNew
        cases List.mem_singleton.mp hMem
        refine Or.inr (Or.inr (Or.inl ⟨⟨event.toWire, false⟩, ?_, ?_⟩))
        · exact List.mem_append_right _ (List.mem_singleton_self _)
        · rw [StreamEvent.lsnText_toWire, hEq, Option.map_some]
  · have hLine : SyncEngineProcess.line ((r.engine.receive [event.toWire]).enqueueApply event.toWire false) =
        r.engine.chain ++ ⟨event.toWire, false⟩ :: r.engine.page.map fun event => ⟨event, true⟩ :=
      List.append_assoc _ _ _
    rw [hLine]
    exact (h.gapless.insert hAhead).quiet hQuiet
  · exact fun hFired => (h.asked hFired).imp (List.mem_append_left _) id

/-- The answer to a poll reaches the node. -/
theorem pollResponse (h : r.Fed wire log) {answer : List StreamEvent × Bool}
    (hAnswer : r.answer = some answer)
    {engine : SyncEngineProcess}
    (hStep : r.engine.step safeIntegerOf (.pollResponse (answer.1.map StreamEvent.toWire)
      answer.2) = some engine) :
    Fed wire log { r with engine := engine, answer := none } := by
  have hQuiet : SyncEngineProcess.Quiet r.engine engine :=
    SyncEngineProcess.step_quiet hStep (by simp) (by simp)
  obtain ⟨hChain, hLine, hRequested, hSubscribing, hReceived⟩ := SyncEngineProcess.step_pollResponse hStep
  obtain ⟨fromLsn, hFrom, hContinues⟩ := h.answered answer hAnswer
  refine ⟨h.orderly.quiet hQuiet, ?_, ?_, ?_, by simp, ?_, ?_, ?_, ?_⟩
  · intro wired hWired
    rcases List.mem_append.mp (hReceived hWired) with hOld | hNew
    · exact h.received wired hOld
    · obtain ⟨event, hMem, rfl⟩ := List.mem_map.mp hNew
      exact ⟨event, hContinues.logged event hMem, rfl⟩
  · rw [hSubscribing, hQuiet.cursor]
    exact h.resumes
  · intro other hOther
    rw [hRequested other hOther, hQuiet.cursor]
  · intro stream hStream
    refine (h.streams stream hStream).advance hQuiet.cursor.ge fun lsn hLsn => ?_
    exact (hQuiet.passed hLsn).subset hChain.subset
  · rw [List.map_map] at hLine
    exact ((h.gapless.extend hContinues (h.polls fromLsn hFrom)).shorten hLine).quiet hQuiet
  · rw [hQuiet.persisted, hQuiet.completed]
    exact h.recorded
  · rw [hQuiet.fired]
    exact fun hFired => (h.asked hFired).imp (fun hMem => hQuiet.received hMem) id

/-- The server answers the poll. -/
theorem servePoll (h : r.Fed wire log) (hEndures : log.coordinator.Endures segments log.history)
    {fromLsn : Nat} (hFrom : r.engine.requested = some fromLsn) {maxEvents : Option Nat}
    {answer : List StreamEvent × Bool} (hPoll : log.coordinator.pollDeltas wire fromLsn maxEvents = .ok
      answer) :
    Fed wire log { r with answer := some answer } := by
  obtain ⟨hOrderly, hReceived, hResumes, hPolls, -, hStreams, hGapless, hRecorded, hAsked⟩ := h
  refine ⟨hOrderly, hReceived, hResumes, hPolls, ?_, hStreams, hGapless, hRecorded, hAsked⟩
  intro other hOther
  cases hOther
  exact ⟨fromLsn, hFrom, hEndures.pollDeltas hPoll⟩

/-- The streams go on, and nothing else. -/
theorem serve (h : r.Fed wire log) {streams : List NodeStream}
    (hStreams : ∀ stream ∈ streams, stream.Fed wire log r.engine) :
    Fed wire log { r with streams := streams } := by
  obtain ⟨hOrderly, hReceived, hResumes, hPolls, hAnswered, -, hGapless, hRecorded, hAsked⟩ := h
  exact ⟨hOrderly, hReceived, hResumes, hPolls, hAnswered, hStreams, hGapless, hRecorded, hAsked⟩

/-- The log grows, and its new event is broadcast. -/
theorem publish (h : r.Fed wire log) (hEndures : log.coordinator.Endures segments log.history)
    {record : LogRecord} {event : OutboundEvent} (hPublishes : log.Publishes log' record event)
    (hAgrees : event.Agrees wire)
    (hKept : ∀ stream ∈ r.streams, ∀ connection ∈ stream.connection, ∀ cursor ∈ connection.readCursor,
      log'.coordinator.canonical.deletedMaxLsn ≤ cursor) :
    (r.enqueue [event]).Fed wire log' := by
  have hHistory := hPublishes.history
  have hMessages := hPublishes.messages_gained hEndures
  refine ⟨h.orderly, ?_, h.resumes, h.polls, ?_, ?_, h.gapless, h.recorded, ?_⟩
  · intro wired hWired
    obtain ⟨logged, hLogged, rfl⟩ := h.received wired hWired
    exact ⟨logged, hHistory ▸ hLogged.append [record], rfl⟩
  · intro answer hAnswer
    obtain ⟨fromLsn, hFrom, hContinues⟩ := h.answered answer hAnswer
    exact ⟨fromLsn, hFrom, hHistory ▸ hContinues.append [record]⟩
  · intro stream hStream
    obtain ⟨old, hMem, rfl⟩ := List.mem_map.mp hStream
    have hOld := h.streams old hMem
    cases hConnection : old.connection with
    | none =>
        refine ⟨hOld.resumes, by simp [NodeStream.enqueue, hConnection], ?_, ?_⟩
        · simpa [NodeStream.enqueue, NodeStream.sent, hConnection] using hOld.delivered_le
        · simp [NodeStream.enqueue, NodeStream.sent, hConnection]
    | some connection =>
        have hEq : old.enqueue [event] = { old with connection := some (connection.enqueue event) } := by
          rw [NodeStream.enqueue, hConnection]
          rfl
        rw [hEq]
        refine hOld.serve ((hOld.answers connection hConnection).enqueue hMessages
          (hKept old hMem connection hConnection) hAgrees) ?_
        rw [hConnection, NodeConnection.written_enqueue]
        exact List.prefix_rfl
  · exact fun hFired => (h.asked hFired).imp id fun hOutgrown => hHistory ▸ hOutgrown.append [record]

/-- A node that has joined the empty log. -/
theorem join (g : Geometry) (wire : Wire) (id walDir : String) (config : FilterConfig) (periodic : Bool)
    (files : NodeFiles) : (join g config.numItems periodic files
      (Replication.emptySnapshot g config)).Fed wire
      (LoggedCoordinator.start id walDir) where
  orderly := (SyncEngineProcess.init_orderly safeIntegerOf 0 0).quiet (SyncEngineProcess.trySubscribe_quiet _)
  received := by simp [Replica.join, SyncEngineProcess.trySubscribe, SyncEngineProcess.init,
    SyncEngineProcess.connected]
  resumes := by simp [Replica.join, SyncEngineProcess.trySubscribe, SyncEngineProcess.init,
    SyncEngineProcess.connected, Replication.emptySnapshot]
  polls := by simp [Replica.join, SyncEngineProcess.trySubscribe, SyncEngineProcess.init,
    SyncEngineProcess.connected, SyncEngineProcess.requested]
  answered := by simp [Replica.join]
  streams := by simp [Replica.join]
  gapless := by
    intro ahead enqueued behind lsn l hSplit
    simp [Replica.join, SyncEngineProcess.trySubscribe, SyncEngineProcess.init, SyncEngineProcess.connected,
      SyncEngineProcess.line, SyncEngineProcess.page] at hSplit
  recorded := rfl
  asked := fun hFired => by cases hFired

end Fed

end Replica

end TokenRevoker
