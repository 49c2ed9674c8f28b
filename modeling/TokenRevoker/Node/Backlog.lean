import TokenRevoker.Node.RevokerNode

/-! What an engine has come past. The events of a stream are on the chain in the order in
which they were sent, and the first keepalive of a subscription behind its whole
backlog. An engine that comes to the keepalive without an anomaly has applied all of
that. -/
namespace TokenRevoker

open Text

theorem safeIntegerOf_decimal (n : Nat) :
    safeIntegerOf (decimal n) = if n ≤ maxSafeInteger then some n else none := by
  rw [safeIntegerOf, numberOf_decimal, Option.filter_some]
  simp

/-- The LSN of an event, as the wire spells it. -/
def WireStreamEvent.lsnText : WireStreamEvent → Option JsString
  | .entry (some payload) => some payload.lsn
  | .rotate (some payload) => some payload.lsn
  | _ => none

namespace SyncEngineProcess

variable {toNumber : JsString → Option Nat} {s t : SyncEngineProcess} {a : Action} {n : Nat} {g : Int}

/-- The events of the current page that are not on the chain yet. -/
def page (s : SyncEngineProcess) : List WireStreamEvent :=
  match s.polling with
  | some (.applying rest _ _) | some (.resumed rest _ _) => rest
  | some (.requesting _ _) | none => []

/-- The event is sent on a stream or on a page by this action. -/
def Action.Brings (a : Action) (event : WireStreamEvent) : Prop :=
  (∃ stream, a = .data stream event) ∨ ∃ events more, a = .pollResponse events more ∧ event ∈ events

/-- A step other than one of the chain only adds to the chain, and only what is sent on
a stream or comes from a page. -/
structure Grows (a : Action) (s t : SyncEngineProcess) : Prop where
  chain : ∃ added, t.chain = s.chain ++ added ∧
    ∀ enqueued ∈ added, enqueued.event ∈ s.page ∨ a.Brings enqueued.event
  page : ∀ event ∈ t.page, event ∈ s.page ∨ ∃ events more, a = .pollResponse events more ∧ event ∈ events
  received : ∀ event ∈ t.history.received, event ∈ s.history.received ∨ a.Brings event
  subscribing : ∀ lsn ∈ t.subscribing, lsn ∈ s.subscribing ∨ lsn = s.lastAppliedLsn

theorem Grows.keep (hChain : t.chain = s.chain) (hPage : ∀ event ∈ t.page, event ∈ s.page)
    (hHistory : t.history = s.history)
    (hSubscribing : ∀ lsn ∈ t.subscribing, lsn ∈ s.subscribing ∨ lsn = s.lastAppliedLsn) : Grows a s t where
  chain := ⟨[], by simpa using hChain, by simp⟩
  page := fun event hEvent => Or.inl (hPage event hEvent)
  received := by
    rw [hHistory]
    exact fun _ hEvent => Or.inl hEvent
  subscribing := hSubscribing

theorem page_congr (h : t.polling = s.polling) : t.page = s.page := by
  unfold page
  rw [h]

theorem trySubscribe_grows (s : SyncEngineProcess) : Grows a s s.trySubscribe := by
  unfold trySubscribe
  split_ifs
  · exact .keep rfl (fun _ hEvent => hEvent) rfl fun _ hLsn => Or.inl hLsn
  · refine .keep rfl (fun _ hEvent => hEvent) rfl fun lsn hLsn => ?_
    simpa using hLsn

theorem enterReconnecting_grows (s : SyncEngineProcess) : Grows a s s.enterReconnecting := by
  unfold enterReconnecting scheduleReconnect startPolling
  split_ifs <;> exact .keep rfl (fun _ hEvent => hEvent) rfl fun _ hLsn => Or.inl hLsn

theorem handleStreamDown_grows (s : SyncEngineProcess) (stream : Nat) :
    Grows a s (s.handleStreamDown stream) := by
  unfold handleStreamDown
  split_ifs
  · exact .keep rfl (fun _ hEvent => hEvent) rfl fun _ hLsn => Or.inl hLsn
  · have hDown : Grows a { s with stream := none }
        ({ s with stream := none } : SyncEngineProcess).enterReconnecting :=
      enterReconnecting_grows _
    exact ⟨hDown.chain, hDown.page, hDown.received, hDown.subscribing⟩

theorem nextPage_grows (s : SyncEngineProcess) (more : Bool) (pages : Nat) :
    Grows a s (s.nextPage more pages) := by
  unfold nextPage
  split_ifs <;> exact .keep rfl (by simp [page]) rfl fun _ hLsn => Or.inl hLsn

theorem nextEvent_grows (s : SyncEngineProcess) (more : Bool) (pages : Nat) {events : List WireStreamEvent}
    (hEvents : ∀ event ∈ events, event ∈ s.page ∨
      ∃ events more, a = .pollResponse events more ∧ event ∈ events) :
    Grows a s (s.nextEvent more pages events) := by
  cases events with
  | nil => exact nextPage_grows s more (pages + 1)
  | cons event rest =>
      refine ⟨⟨[⟨event, true⟩], rfl, ?_⟩, ?_, fun _ hEvent => Or.inl hEvent, fun _ hLsn => Or.inl hLsn⟩
      · intro enqueued hEnqueued
        cases List.mem_singleton.mp hEnqueued
        exact (hEvents event (by simp)).imp id Or.inr
      · intro other hOther
        exact hEvents other (List.mem_cons_of_mem _ hOther)

theorem step_grows (h : step toNumber s a = some t) (hApply : ∀ applied updated, a ≠ .apply applied updated)
    (hRotated : ∀ outcome updated, a ≠ .rotated outcome updated) : Grows a s t := by
  cases a with
  | start =>
      cases h
      exact trySubscribe_grows s
  | subscribed index =>
      simp only [step] at h
      split_ifs at h <;> cases h <;>
        exact .keep rfl (fun _ hEvent => hEvent) rfl fun _ hLsn => Or.inl (List.mem_of_mem_eraseIdx hLsn)
  | subscribeFailed index =>
      simp only [step] at h
      split_ifs at h
      cases h
      have hGrows : Grows (.subscribeFailed index) { s with subscribing := s.subscribing.eraseIdx index }
          ({ s with subscribing := s.subscribing.eraseIdx index } : SyncEngineProcess).enterReconnecting :=
        enterReconnecting_grows _
      exact ⟨hGrows.chain, hGrows.page, hGrows.received, fun lsn hLsn =>
        (hGrows.subscribing lsn hLsn).imp List.mem_of_mem_eraseIdx id⟩
  | data stream event =>
      simp only [step] at h
      split_ifs at h
      cases h
      have hBrings : (Action.data stream event).Brings event := Or.inl ⟨stream, rfl⟩
      refine ⟨⟨[⟨event, false⟩], rfl, ?_⟩, fun _ hEvent => Or.inl hEvent, ?_, fun _ hLsn => Or.inl hLsn⟩
      · intro enqueued hEnqueued
        cases List.mem_singleton.mp hEnqueued
        exact Or.inr hBrings
      · intro other hOther
        rcases List.mem_append.mp hOther with hOld | hNew
        · exact Or.inl hOld
        · cases List.mem_singleton.mp hNew
          exact Or.inr hBrings
  | streamDown stream =>
      simp only [step] at h
      split_ifs at h
      cases h
      exact handleStreamDown_grows s stream
  | watchdog =>
      simp only [step] at h
      split_ifs at h
      split at h <;> cases h
      · exact handleStreamDown_grows s _
      · exact .keep rfl (fun _ hEvent => hEvent) rfl fun _ hLsn => Or.inl hLsn
  | wake index =>
      simp only [step] at h
      split at h
      · split_ifs at h <;> cases h
        · exact .keep rfl (fun _ hEvent => hEvent) rfl fun _ hLsn => Or.inl hLsn
        · have hGrows : Grows (.wake index) { s with sleeping := s.sleeping.eraseIdx index }
              ({ s with sleeping := s.sleeping.eraseIdx index } : SyncEngineProcess).trySubscribe :=
            trySubscribe_grows _
          exact ⟨hGrows.chain, hGrows.page, hGrows.received, hGrows.subscribing⟩
      · cases h
  | pollTick =>
      simp only [step] at h
      split_ifs at h <;> cases h
      · exact .keep rfl (fun _ hEvent => hEvent) rfl fun _ hLsn => Or.inl hLsn
      · exact nextPage_grows s true 0
  | pollResponse events moreAvailable =>
      simp only [step] at h
      split at h
      · rename_i fromLsn pages hPolling
        split_ifs at h <;> cases h
        · exact .keep rfl (by simp [page]) rfl fun _ hLsn => Or.inl hLsn
        · have hGrows : Grows (.pollResponse events moreAvailable) (s.receive events)
              ((s.receive events).nextEvent moreAvailable pages events) :=
            nextEvent_grows _ _ _ fun event hEvent => Or.inr ⟨events, moreAvailable, rfl, hEvent⟩
          refine ⟨hGrows.chain, hGrows.page, ?_, hGrows.subscribing⟩
          intro event hEvent
          rcases hGrows.received event hEvent with hReceived | hBrings
          · rcases List.mem_append.mp hReceived with hOld | hNew
            · exact Or.inl hOld
            · exact Or.inr (Or.inr ⟨events, moreAvailable, rfl, hNew⟩)
          · exact Or.inr hBrings
      · cases h
  | pollFailed =>
      simp only [step] at h
      split at h <;> cases h
      exact .keep rfl (by simp [page]) rfl fun _ hLsn => Or.inl hLsn
  | pollNext =>
      simp only [step] at h
      split at h
      · rename_i rest moreAvailable pages hPolling
        split_ifs at h <;> cases h
        · exact .keep rfl (by simp [page]) rfl fun _ hLsn => Or.inl hLsn
        · exact nextEvent_grows s _ _ fun event hEvent => Or.inl (by simpa [page, hPolling] using hEvent)
      · cases h
  | apply applied updated => exact absurd rfl (hApply applied updated)
  | rotated outcome updated => exact absurd rfl (hRotated outcome updated)
  | stop =>
      simp only [step] at h
      split_ifs at h <;> cases h <;>
        exact .keep rfl (fun _ hEvent => hEvent) rfl fun _ hLsn => Or.inl hLsn

/-- The engine has come past this LSN, or will when it has handled these events, unless
it stops before. -/
def Passed (lsn : Nat) (ahead : List Enqueued) (s : SyncEngineProcess) : Prop :=
  lsn ≤ s.lastAppliedLsn ∨ (∃ rotation, s.rotating = some rotation ∧ rotation.lsn = lsn) ∨
    (∃ enqueued ∈ ahead, enqueued.event.lsnText = some (decimal lsn)) ∨
    s.rebootstrapFired = true ∨ s.stopped = true

theorem Passed.subset {lsn : Nat} {ahead ahead' : List Enqueued} (h : Passed lsn ahead s)
    (hSubset : ahead ⊆ ahead') : Passed lsn ahead' s := by
  rcases h with h | h | ⟨enqueued, hMem, hText⟩ | h
  · exact Or.inl h
  · exact Or.inr (Or.inl h)
  · exact Or.inr (Or.inr (Or.inl ⟨enqueued, hSubset hMem, hText⟩))
  · exact Or.inr (Or.inr (Or.inr h))

theorem Quiet.passed {lsn : Nat} {ahead : List Enqueued} (quiet : Quiet s t) (h : Passed lsn ahead s) :
    Passed lsn ahead t := by
  unfold Passed at h ⊢
  rw [quiet.cursor, quiet.rotating, quiet.fired]
  exact h.imp id (Or.imp id (Or.imp id (Or.imp id quiet.stopped)))

/-- What a step of the chain leaves alone, and the one way its results change. -/
structure Advances (s t : SyncEngineProcess) : Prop where
  chain : t.chain = s.chain
  page : t.page = s.page
  subscribing : t.subscribing = s.subscribing
  cursor : s.lastAppliedLsn ≤ t.lastAppliedLsn
  fired : s.rebootstrapFired = true → t.rebootstrapFired = true
  stopped : t.stopped = s.stopped
  received : t.history.received = s.history.received

theorem Advances.refl (s : SyncEngineProcess) : Advances s s := ⟨rfl, rfl, rfl, le_rfl, id, rfl, rfl⟩

theorem Advances.trans {u : SyncEngineProcess} (h : Advances s t) (h' : Advances t u) : Advances s u :=
  ⟨h'.chain.trans h.chain, h'.page.trans h.page, h'.subscribing.trans h.subscribing,
    h.cursor.trans h'.cursor, h'.fired ∘ h.fired, h'.stopped.trans h.stopped,
    h'.received.trans h.received⟩

theorem resolve_advances (s : SyncEngineProcess) (polled : Bool) : Advances s (s.resolve polled) := by
  unfold resolve
  split
  · rename_i rest moreAvailable pages hPolling
    exact ⟨rfl, by simp [page, hPolling], rfl, le_rfl, id, rfl, rfl⟩
  · exact .refl s

theorem rebootstrap_advances (s : SyncEngineProcess) (reason : String) :
    Advances s (s.rebootstrap reason) := by
  unfold rebootstrap
  split_ifs
  · exact ⟨rfl, rfl, rfl, le_rfl, id, rfl, rfl⟩
  · exact ⟨rfl, rfl, rfl, le_rfl, fun _ => rfl, rfl, rfl⟩

theorem rebootstrap_halts (s : SyncEngineProcess) (reason : String) :
    (s.rebootstrap reason).rebootstrapFired = true ∨ (s.rebootstrap reason).stopped = true := by
  unfold rebootstrap
  split_ifs with hHalted
  · simpa using hHalted
  · exact Or.inl rfl

theorem persist_advances (s : SyncEngineProcess) {lsn : Nat} (hNext : lsn = s.lastAppliedLsn + 1)
    (updated : Except String Unit) :
    Advances s (s.persist lsn updated) := by
  cases updated with
  | error message => exact rebootstrap_advances s _
  | ok => exact ⟨rfl, rfl, rfl, by simp [persist, hNext], id, rfl, rfl⟩

/-- A record that is made takes the cursor to its LSN. -/
theorem persist_passed (lsn : Nat) (updated : Except String Unit) (ahead : List Enqueued) :
    Passed lsn ahead (s.persist lsn updated) := by
  cases updated with
  | error message => exact Or.inr (Or.inr (Or.inr (rebootstrap_halts s _)))
  | ok => exact Or.inl (le_refl lsn)

theorem Passed.resolve {lsn : Nat} {ahead : List Enqueued} (h : Passed lsn ahead s) (polled : Bool) :
    Passed lsn ahead (s.resolve polled) := (resolve_quiet s polled).passed h

theorem rebootstrap_passed (s : SyncEngineProcess) (reason : String) (lsn : Nat) (ahead : List Enqueued) :
    Passed lsn ahead (s.rebootstrap reason) := Or.inr (Or.inr (Or.inr (rebootstrap_halts s reason)))

theorem applyEvent_advances (toNumber : JsString → Option Nat) (enqueued : Enqueued)
    (applied updated : Except String Unit) : Advances s (s.applyEvent toNumber enqueued applied updated) := by
  unfold applyEvent
  by_cases hHalted : (s.stopped || s.rebootstrapFired) = true
  · rw [if_pos hHalted]
    exact resolve_advances s _
  · rw [if_neg hHalted]
    split
    · exact resolve_advances s _
    · exact (rebootstrap_advances s _).trans (resolve_advances _ _)
    · rename_i lsn item hCheck
      have hCalled : Advances s (s.attempt lsn (.applyEntry item)) := ⟨rfl, rfl, rfl, le_rfl, id, rfl, rfl⟩
      cases applied with
      | error message => exact (hCalled.trans (rebootstrap_advances _ _)).trans (resolve_advances _ _)
      | ok =>
          have hCompleted : Advances s ((s.attempt lsn (.applyEntry item)).complete lsn (.applyEntry item)) :=
            ⟨rfl, rfl, rfl, le_rfl, id, rfl, rfl⟩
          refine (hCompleted.trans ?_).trans (resolve_advances _ _)
          refine persist_advances _ ?_ updated
          exact (check_eq_entry hCheck).1
    · exact ⟨rfl, rfl, rfl, le_rfl, id, rfl, rfl⟩

theorem finishRotation_advances {rotation : CoordinatedRotation}
    (hNext : rotation.lsn = s.lastAppliedLsn + 1) (outcome updated : Except String Unit) :
    Advances s (s.finishRotation rotation outcome updated) := by
  have hAwaited : Advances s { s with rotating := none } := ⟨rfl, rfl, rfl, le_rfl, id, rfl, rfl⟩
  cases outcome with
  | error message => exact (hAwaited.trans (rebootstrap_advances _ _)).trans (resolve_advances _ _)
  | ok =>
      have hCompleted : Advances s ({ ({ s with rotating := none } : SyncEngineProcess).complete
          rotation.lsn .rotateOnDemand with generation := rotation.expected } : SyncEngineProcess) :=
        ⟨rfl, rfl, rfl, le_rfl, id, rfl, rfl⟩
      refine (hCompleted.trans ?_).trans (resolve_advances _ _)
      refine persist_advances _ ?_ updated
      exact hNext

/-- What the checks say about an LSN that is printed in decimal. -/
theorem checkLsn_decimal (next : Nat → Verdict) (lsn : Nat) :
    (∃ reason, s.checkLsn next (safeIntegerOf (decimal lsn)) = .rebootstrap reason) ∨
      (s.checkLsn next (safeIntegerOf (decimal lsn)) = .skip ∧ lsn ≤ s.lastAppliedLsn) ∨
      s.checkLsn next (safeIntegerOf (decimal lsn)) = next lsn := by
  rw [safeIntegerOf_decimal]
  by_cases hSafe : lsn ≤ maxSafeInteger
  · rw [if_pos hSafe]
    simp only [checkLsn]
    split_ifs with hOld hGap
    · exact Or.inr (Or.inl ⟨rfl, hOld⟩)
    · exact Or.inl ⟨_, rfl⟩
    · exact Or.inr (Or.inr rfl)
  · rw [if_neg hSafe]
    exact Or.inl ⟨_, rfl⟩

/-- An engine that handles the event of an LSN has come past that LSN. -/
theorem applyEvent_passed {enqueued : Enqueued} {lsn : Nat}
    (hText : enqueued.event.lsnText = some (decimal lsn)) (applied updated : Except String Unit)
    (ahead : List Enqueued) : Passed lsn ahead (s.applyEvent safeIntegerOf enqueued applied updated) := by
  have hVerdict : (∃ reason, s.check safeIntegerOf enqueued.event = .rebootstrap reason) ∨
      (s.check safeIntegerOf enqueued.event = .skip ∧ lsn ≤ s.lastAppliedLsn) ∨
      (∃ item, s.check safeIntegerOf enqueued.event = .entry lsn item) ∨
      s.check safeIntegerOf enqueued.event = .rotate lsn := by
    rcases hEvent : enqueued.event with (_ | payload) | (_ | payload) | _ | _ | _ <;>
      simp only [hEvent, WireStreamEvent.lsnText, Option.some.injEq, reduceCtorEq] at hText
    · rw [check, hText]
      rcases checkLsn_decimal (s := s) (fun lsn => .entry lsn payload.item) lsn with h | h | h
      · exact Or.inl h
      · exact Or.inr (Or.inl h)
      · exact Or.inr (Or.inr (Or.inl ⟨payload.item, h⟩))
    · rw [check, hText]
      rcases checkLsn_decimal (s := s) (fun lsn =>
        if payload.generation ≠ s.generation + 1 then .rebootstrap "rotation generation mismatch"
        else .rotate lsn) lsn with h | h | h
      · exact Or.inl h
      · exact Or.inr (Or.inl h)
      · by_cases hGeneration : payload.generation ≠ s.generation + 1
        · rw [if_pos hGeneration] at h
          exact Or.inl ⟨_, h⟩
        · rw [if_neg hGeneration] at h
          exact Or.inr (Or.inr (Or.inr h))
  unfold applyEvent
  by_cases hHalted : (s.stopped || s.rebootstrapFired) = true
  · rw [if_pos hHalted]
    have hPassed : Passed lsn ahead s := by
      rcases Bool.or_eq_true_iff.mp hHalted with hHalted | hHalted
      · exact Or.inr (Or.inr (Or.inr (Or.inr hHalted)))
      · exact Or.inr (Or.inr (Or.inr (Or.inl hHalted)))
    exact hPassed.resolve enqueued.polled
  · rw [if_neg hHalted]
    rcases hVerdict with ⟨reason, hCheck⟩ | ⟨hCheck, hLe⟩ | ⟨item, hCheck⟩ | hCheck <;> simp only [hCheck]
    · exact (rebootstrap_passed s reason lsn ahead).resolve enqueued.polled
    · exact Passed.resolve (Or.inl hLe) enqueued.polled
    · cases applied with
      | error message => exact (rebootstrap_passed _ _ lsn ahead).resolve enqueued.polled
      | ok => exact (persist_passed lsn updated ahead).resolve enqueued.polled
    · exact Or.inr (Or.inl ⟨_, rfl, rfl⟩)

/-- The chain goes on with its next event. -/
theorem Passed.applyEvent {enqueued : Enqueued} {ahead : List Enqueued} {lsn : Nat}
    (h : Passed lsn (enqueued :: ahead) s) (hIdle : s.rotating = none)
    (applied updated : Except String Unit) :
    Passed lsn ahead (s.applyEvent safeIntegerOf enqueued applied updated) := by
  have hAdvances := applyEvent_advances (s := s) safeIntegerOf enqueued applied updated
  rcases h with h | ⟨rotation, hRotating, -⟩ | ⟨other, hMem, hText⟩ | h | h
  · exact Or.inl (h.trans hAdvances.cursor)
  · rw [hIdle] at hRotating
    cases hRotating
  · rcases List.mem_cons.mp hMem with rfl | hMem
    · exact applyEvent_passed hText applied updated ahead
    · exact Or.inr (Or.inr (Or.inl ⟨other, hMem, hText⟩))
  · exact Or.inr (Or.inr (Or.inr (Or.inl (hAdvances.fired h))))
  · exact Or.inr (Or.inr (Or.inr (Or.inr (hAdvances.stopped.trans h))))

theorem Passed.finishRotation {rotation : CoordinatedRotation} {ahead : List Enqueued} {lsn : Nat}
    (h : Passed lsn ahead s) (hRotating : s.rotating = some rotation)
    (hNext : rotation.lsn = s.lastAppliedLsn + 1) (outcome updated : Except String Unit) :
    Passed lsn ahead (s.finishRotation rotation outcome updated) := by
  have hAdvances := finishRotation_advances hNext outcome updated
  rcases h with h | ⟨other, hOther, hLsn⟩ | h | h | h
  · exact Or.inl (h.trans hAdvances.cursor)
  · rw [hRotating] at hOther
    cases hOther
    subst hLsn
    cases outcome with
    | error message => exact (rebootstrap_passed _ _ _ ahead).resolve rotation.polled
    | ok => exact (persist_passed _ updated ahead).resolve rotation.polled
  · exact Or.inr (Or.inr (Or.inl h))
  · exact Or.inr (Or.inr (Or.inr (Or.inl (hAdvances.fired h))))
  · exact Or.inr (Or.inr (Or.inr (Or.inr (hAdvances.stopped.trans h))))

end SyncEngineProcess

namespace Instance

open SyncEngineProcess

variable {log : List RevokerCall} {inst next : Instance}

/-- An event that a coordinator with this log may send. -/
def Known (log : List RevokerCall) (event : WireStreamEvent) : Prop :=
  event = .keepalive ∨ event = .resnapshot ∨
    ∃ lsn generation, canonicalEvent log lsn generation = some event

/-- What holds of an engine and its streams in every state of a run. It relates what waits, what
was applied and what the coordinator had logged. -/
structure Follows (log : List RevokerCall) (inst : Instance) : Prop where
  orderly : Orderly safeIntegerOf inst.initialLsn inst.initialGeneration inst.engine
  canonical : ∀ event ∈ inst.engine.history.received, Known log event
  resumes : ∀ lsn ∈ inst.engine.subscribing, lsn ≤ inst.engine.lastAppliedLsn
  pages : ∀ event ∈ inst.engine.page, event ≠ .keepalive
  /-- What a stream has delivered is on the chain, or past it. -/
  delivered : ∀ opened ∈ inst.streams, ∀ lsn ≤ opened.delivered,
    Passed lsn inst.engine.chain inst.engine
  accepted : ∀ opened ∈ inst.streams, ∀ lastLsn, opened.acceptedAt = some lastLsn →
    ∃ first, inst.firstAccepted = some first ∧ first ≤ lastLsn
  first_le : ∀ first, inst.firstAccepted = some first → first ≤ log.length
  /-- A keepalive waits behind the backlog of the first subscription. -/
  keepalives : ∀ ahead enqueued behind, inst.engine.chain = ahead ++ enqueued :: behind →
    enqueued.event = .keepalive →
    ∃ first, inst.firstAccepted = some first ∧ Passed first ahead inst.engine

/-- The engine has applied the backlog of its first subscription. -/
def Ready (inst : Instance) : Prop :=
  ∃ first, inst.firstAccepted = some first ∧ first ≤ inst.engine.lastAppliedLsn

theorem create_follows (log : List RevokerCall) (bootstrapped : Bool) (initialLsn : Nat)
    (initialGeneration : Int) : Follows log (create bootstrapped initialLsn initialGeneration) where
  orderly := (init_orderly _ _ _).quiet (trySubscribe_quiet _)
  canonical := by simp [create, trySubscribe, SyncEngineProcess.init, connected]
  resumes := by simp [create, trySubscribe, SyncEngineProcess.init, connected]
  pages := by simp [create, trySubscribe, SyncEngineProcess.init, connected, SyncEngineProcess.page]
  delivered := by simp [create]
  accepted := by simp [create]
  first_le := by simp [create]
  keepalives := by simp [create, trySubscribe, SyncEngineProcess.init, connected]

theorem Known.append {event : WireStreamEvent} (h : Known log event) (call : RevokerCall) :
    Known (log ++ [call]) event := by
  rcases h with h | h | ⟨lsn, generation, hEvent⟩
  · exact Or.inl h
  · exact Or.inr (Or.inl h)
  · refine Or.inr (Or.inr ⟨lsn, generation, ?_⟩)
    unfold canonicalEvent at hEvent ⊢
    split_ifs at hEvent ⊢
    obtain ⟨old, hOld, rfl⟩ := Option.map_eq_some_iff.mp hEvent
    rw [List.getElem?_append_left (List.getElem?_eq_some_iff.mp hOld).1, hOld, Option.map_some]

/-- The log grows. -/
theorem Follows.append (h : Follows log inst) (call : RevokerCall) : Follows (log ++ [call]) inst :=
  { h with
    canonical := fun event hEvent => (h.canonical event hEvent).append call
    first_le := by
      intro first hFirst
      have hLe := h.first_le first hFirst
      rw [List.length_append]
      omega }

/-- A step of the engine that handles no event of the chain. What it brings is known,
and a keepalive comes on a stream, after the backlog. -/
theorem Follows.grows (h : Follows log inst) {a : SyncEngineProcess.Action} {engine : SyncEngineProcess}
    (hStep : inst.engine.step safeIntegerOf a = some engine)
    (hApply : ∀ applied updated, a ≠ .apply applied updated)
    (hRotated : ∀ outcome updated, a ≠ .rotated outcome updated)
    (hKnown : ∀ event, a.Brings event → Known log event)
    (hPage : ∀ events more, a = .pollResponse events more → ∀ event ∈ events, event ≠ .keepalive)
    (hData : ∀ stream, a = .data stream .keepalive → ∃ first, inst.firstAccepted = some first ∧
      Passed first inst.engine.chain inst.engine) : Follows log { inst with engine := engine } := by
  have hQuiet := step_quiet hStep hApply hRotated
  have hGrows := step_grows hStep hApply hRotated
  obtain ⟨added, hChain, hAdded⟩ := hGrows.chain
  refine ⟨h.orderly.quiet hQuiet, ?_, ?_, ?_, ?_, h.accepted, h.first_le, ?_⟩
  · intro event hEvent
    rcases hGrows.received event hEvent with hOld | hBrings
    · exact h.canonical event hOld
    · exact hKnown event hBrings
  · intro lsn hLsn
    simp only [hQuiet.cursor]
    rcases hGrows.subscribing lsn hLsn with hOld | rfl
    · exact h.resumes lsn hOld
    · exact le_rfl
  · intro event hEvent
    rcases hGrows.page event hEvent with hOld | ⟨events, more, rfl, hMem⟩
    · exact h.pages event hOld
    · exact hPage events more rfl event hMem
  · intro opened hOpened lsn hLsn
    simp only [hChain]
    exact (hQuiet.passed (h.delivered opened hOpened lsn hLsn)).subset (List.subset_append_left _ _)
  · intro ahead enqueued behind hSplit hKeepalive
    simp only [hChain] at hSplit
    -- the keepalive is one of those that wait already, or the one that is sent now
    have hNew : ∀ rest, ahead = inst.engine.chain ++ rest → enqueued ∈ added →
        ∃ first, inst.firstAccepted = some first ∧ Passed first ahead engine := by
      rintro rest rfl hMem
      rcases hAdded enqueued hMem with hOld | ⟨stream, rfl⟩ | ⟨events, more, rfl, hEvent⟩
      · exact absurd hKeepalive (h.pages _ hOld)
      · rw [hKeepalive] at hData
        obtain ⟨first, hFirst, hPassed⟩ := hData stream rfl
        exact ⟨first, hFirst, (hQuiet.passed hPassed).subset (List.subset_append_left _ _)⟩
      · exact absurd hKeepalive (hPage events more rfl _ hEvent)
    rcases List.append_eq_append_iff.mp hSplit with ⟨rest, hAhead, hBehind⟩ | ⟨rest, hOld, hBehind⟩
    · exact hNew rest hAhead (by simp [hBehind])
    · cases rest with
      | nil =>
          refine hNew [] (by simpa using hOld.symm) ?_
          rw [List.nil_append] at hBehind
          simp [← hBehind]
      | cons first rest =>
          cases hBehind
          obtain ⟨first, hFirst, hPassed⟩ := h.keepalives ahead enqueued rest hOld hKeepalive
          exact ⟨first, hFirst, hQuiet.passed hPassed⟩

/-- The engine comes further: it drops the head of its chain, or ends a rotation. -/
theorem Follows.advance (h : Follows log inst) {engine : SyncEngineProcess} {dropped rest : List Enqueued}
    (hChain : inst.engine.chain = dropped ++ rest)
    (hOrderly : Orderly safeIntegerOf inst.initialLsn inst.initialGeneration engine)
    (hAdvances : Advances { inst.engine with chain := rest } engine)
    (hPassed : ∀ lsn ahead, Passed lsn (dropped ++ ahead) inst.engine → Passed lsn ahead engine) :
    Follows log { inst with engine := engine } := by
  refine ⟨hOrderly, ?_, ?_, ?_, ?_, h.accepted, h.first_le, ?_⟩
  · simp only [hAdvances.received]
    exact h.canonical
  · simp only [hAdvances.subscribing]
    exact fun lsn hLsn => (h.resumes lsn hLsn).trans hAdvances.cursor
  · simp only [hAdvances.page]
    exact h.pages
  · intro opened hOpened lsn hLsn
    have hOld := h.delivered opened hOpened lsn hLsn
    rw [hChain] at hOld
    simp only [hAdvances.chain]
    exact hPassed lsn rest hOld
  · intro ahead keepalive behind hSplit hKeepalive
    simp only [hAdvances.chain] at hSplit
    obtain ⟨first, hFirst, hOld⟩ := h.keepalives (dropped ++ ahead) keepalive behind
      (by rw [hChain, hSplit, List.append_assoc]) hKeepalive
    exact ⟨first, hFirst, hPassed first ahead hOld⟩

theorem Follows.apply (h : Follows log inst) {engine : SyncEngineProcess}
    {applied updated : Except String Unit}
    (hStep : inst.engine.step safeIntegerOf (.apply applied updated) = some engine) :
    Follows log { inst with engine := engine } := by
  have hOrderly := step_orderly hStep h.orderly
  simp only [SyncEngineProcess.step] at hStep
  split at hStep
  · rename_i enqueued rest hIdle hChain
    cases hStep
    have hHead : inst.engine.chain = [enqueued] ++ rest := hChain
    refine h.advance hHead hOrderly (applyEvent_advances safeIntegerOf enqueued applied updated) ?_
    intro lsn ahead hPassed
    exact Passed.applyEvent (s := { inst.engine with chain := rest }) hPassed hIdle applied updated
  · cases hStep

theorem Follows.rotated (h : Follows log inst) {engine : SyncEngineProcess}
    {outcome updated : Except String Unit}
    (hStep : inst.engine.step safeIntegerOf (.rotated outcome updated) = some engine) :
    Follows log { inst with engine := engine } := by
  have hOrderly := step_orderly hStep h.orderly
  obtain ⟨rotation, hRotating, rfl⟩ := Option.map_eq_some_iff.mp hStep
  have hNext := (h.orderly.rotation rotation hRotating).1
  have hAdvances := finishRotation_advances hNext outcome updated
  have hChain : inst.engine.chain = [] ++ inst.engine.chain := rfl
  exact h.advance hChain hOrderly hAdvances fun lsn ahead hPassed =>
    hPassed.finishRotation hRotating hNext outcome updated

theorem canonicalEvent_ne_keepalive {lsn : Nat} {generation : Int} {event : WireStreamEvent}
    (h : canonicalEvent log lsn generation = some event) :
    event ≠ .keepalive ∧ event.lsnText = some (decimal lsn) := by
  unfold canonicalEvent at h
  split_ifs at h
  obtain ⟨call, -, rfl⟩ := Option.map_eq_some_iff.mp h
  cases call <;> exact ⟨by simp [RevokerCall.toWire], rfl⟩

/-- A step that nothing comes in by. -/
theorem Follows.silent (h : Follows log inst) {a : SyncEngineProcess.Action} {engine : SyncEngineProcess}
    (hStep : inst.engine.step safeIntegerOf a = some engine)
    (hApply : ∀ applied updated, a ≠ .apply applied updated)
    (hRotated : ∀ outcome updated, a ≠ .rotated outcome updated)
    (hData : ∀ stream event, a ≠ .data stream event)
    (hPage : ∀ events more, a ≠ .pollResponse events more) : Follows log { inst with engine := engine } := by
  refine h.grows hStep hApply hRotated ?_ ?_ ?_
  · rintro event (⟨stream, rfl⟩ | ⟨events, more, rfl, -⟩)
    · exact absurd rfl (hData stream event)
    · exact absurd rfl (hPage events more)
  · rintro events more rfl
    exact absurd rfl (hPage events more)
  · rintro stream rfl
    exact absurd rfl (hData stream .keepalive)

theorem Follows.internal (h : Follows log inst) {a : SyncEngineProcess.Action} {engine : SyncEngineProcess}
    (hInternal : isInternal a = true) (hStep : inst.engine.step safeIntegerOf a = some engine) :
    Follows log { inst with engine := engine } := by
  cases a with
  | apply applied updated => exact h.apply hStep
  | rotated outcome updated => exact h.rotated hStep
  | start | subscribed | data | pollResponse | stop => cases hInternal
  | subscribeFailed | streamDown | watchdog | wake | pollTick | pollFailed | pollNext =>
      exact h.silent hStep (by simp) (by simp) (by simp) (by simp)

/-- The streams change, and what they have delivered is on the chain. -/
theorem Follows.streams (h : Follows log inst) {streams : List OpenStream} {firstAccepted : Option Nat}
    (hDelivered : ∀ opened ∈ streams, ∀ lsn ≤ opened.delivered, Passed lsn inst.engine.chain inst.engine)
    (hAccepted : ∀ opened ∈ streams, ∀ lastLsn, opened.acceptedAt = some lastLsn →
      ∃ first, firstAccepted = some first ∧ first ≤ lastLsn)
    (hLe : ∀ first, firstAccepted = some first → first ≤ log.length)
    (hKept : ∀ first, inst.firstAccepted = some first → firstAccepted = some first) :
    Follows log { inst with streams := streams, firstAccepted := firstAccepted } where
  orderly := h.orderly
  canonical := h.canonical
  resumes := h.resumes
  pages := h.pages
  delivered := hDelivered
  accepted := hAccepted
  first_le := hLe
  keepalives := by
    intro ahead enqueued behind hSplit hKeepalive
    obtain ⟨first, hFirst, hPassed⟩ := h.keepalives ahead enqueued behind hSplit hKeepalive
    exact ⟨first, hKept first hFirst, hPassed⟩

/-- A stream that the engine subscribes with delivers from the cursor it asked for. -/
theorem Follows.subscribed (h : Follows log inst) {index : Nat}
    (hStep : inst.step log (.subscribed index) = some next) : Follows log next := by
  obtain ⟨engine, hEngine, rfl⟩ := Option.map_eq_some_iff.mp hStep
  have hNext := h.silent hEngine (by simp) (by simp) (by simp) (by simp)
  refine hNext.streams ?_ ?_ hNext.first_le fun _ hFirst => hFirst
  · split_ifs
    · intro opened hOpened
      rcases List.mem_append.mp hOpened with hOld | hNew
      · exact hNext.delivered opened hOld
      · cases List.mem_singleton.mp hNew
        intro lsn hLsn
        have hIndex : index < inst.engine.subscribing.length := by
          simp only [SyncEngineProcess.step] at hEngine
          split_ifs at hEngine <;> assumption
        rw [List.getD_eq_getElem?_getD, List.getElem?_eq_getElem hIndex, Option.getD_some] at hLsn
        have hResumes := h.resumes _ (List.getElem_mem hIndex)
        have hQuiet := step_quiet hEngine (by simp) (by simp)
        exact Or.inl (hQuiet.cursor ▸ hLsn.trans hResumes)
    · exact hNext.delivered
  · split_ifs
    · intro opened hOpened
      rcases List.mem_append.mp hOpened with hOld | hNew
      · exact hNext.accepted opened hOld
      · cases List.mem_singleton.mp hNew
        simp
    · exact hNext.accepted

/-- The coordinator accepts a stream where its log is then. -/
theorem Follows.accept (h : Follows log inst) {stream : Nat}
    (hStep : inst.step log (.accept stream) = some next) : Follows log next := by
  simp only [Instance.step] at hStep
  split at hStep
  · rename_i opened hOpened
    split_ifs at hStep with hNew
    cases hStep
    have hMem := List.mem_of_getElem? hOpened
    have hFirst : ∃ first, (inst.firstAccepted <|> some log.length) = some first ∧
        first ≤ log.length ∧ ∀ old, inst.firstAccepted = some old → old = first := by
      cases hOld : inst.firstAccepted with
      | none => exact ⟨log.length, rfl, le_rfl, by simp⟩
      | some first => exact ⟨first, rfl, h.first_le first hOld, by simp⟩
    obtain ⟨first, hEq, hLe, hOld⟩ := hFirst
    refine h.streams ?_ ?_ ?_ ?_
    · intro other hOther
      rcases List.mem_or_eq_of_mem_set hOther with hOther | rfl
      · exact h.delivered other hOther
      · exact h.delivered opened hMem
    · intro other hOther lastLsn hLastLsn
      rcases List.mem_or_eq_of_mem_set hOther with hOther | rfl
      · obtain ⟨old, hOldFirst, hOldLe⟩ := h.accepted other hOther lastLsn hLastLsn
        exact ⟨first, hEq, hOld old hOldFirst ▸ hOldLe⟩
      · cases hLastLsn
        exact ⟨first, hEq, hLe⟩
    · intro other hOther
      rw [hEq] at hOther
      cases hOther
      exact hLe
    · intro old hOldFirst
      rw [hEq, hOld old hOldFirst]
  · cases hStep

/-- An event that a stream delivers is known and waits in the chain. -/
theorem Follows.deliver (h : Follows log inst) {stream : Nat} {generation : Int}
    (hStep : inst.step log (.deliver stream generation) = some next) : Follows log next := by
  simp only [Instance.step] at hStep
  split at hStep
  · rename_i opened hOpened
    split_ifs at hStep with hAccepted
    obtain ⟨event, hEvent, hStep⟩ := Option.bind_eq_some_iff.mp hStep
    obtain ⟨engine, hEngine, rfl⟩ := Option.map_eq_some_iff.mp hStep
    obtain ⟨hNe, hText⟩ := canonicalEvent_ne_keepalive hEvent
    have hMem := List.mem_of_getElem? hOpened
    have hNext : Follows log { inst with engine := engine } := by
      refine h.grows hEngine (by simp) (by simp) ?_ (by simp) ?_
      · rintro other (⟨stream', hEq⟩ | ⟨events, more, hEq, -⟩) <;> cases hEq
        exact Or.inr (Or.inr ⟨_, _, hEvent⟩)
      · intro stream' hEq
        cases hEq
        exact absurd rfl hNe
    have hChain : (⟨event, false⟩ : Enqueued) ∈ engine.chain := by
      simp only [SyncEngineProcess.step] at hEngine
      split_ifs at hEngine
      cases hEngine
      simp [enqueueApply]
    refine hNext.streams ?_ ?_ hNext.first_le fun _ hFirst => hFirst
    · intro other hOther lsn hLsn
      rcases List.mem_or_eq_of_mem_set hOther with hOther | rfl
      · exact hNext.delivered other hOther lsn hLsn
      · rcases Nat.le_succ_iff.mp hLsn with hLsn | rfl
        · exact hNext.delivered opened hMem lsn hLsn
        · exact Or.inr (Or.inr (Or.inl ⟨_, hChain, hText⟩))
    · intro other hOther
      rcases List.mem_or_eq_of_mem_set hOther with hOther | rfl
      · exact hNext.accepted other hOther
      · exact hNext.accepted opened hMem
  · cases hStep

theorem Follows.step (h : Follows log inst) {a : Action} (hStep : inst.step log a = some next) :
    Follows log next := by
  cases a with
  | internal a =>
      simp only [Instance.step] at hStep
      split_ifs at hStep with hInternal
      obtain ⟨engine, hEngine, rfl⟩ := Option.map_eq_some_iff.mp hStep
      exact h.internal hInternal hEngine
  | subscribed index => exact h.subscribed hStep
  | accept stream => exact h.accept hStep
  | deliver stream generation => exact h.deliver hStep
  | keepalive stream =>
      simp only [Instance.step] at hStep
      split at hStep
      · rename_i opened hOpened
        split at hStep
        · rename_i lastLsn hAccepted
          split_ifs at hStep with hDelivered
          obtain ⟨engine, hEngine, rfl⟩ := Option.map_eq_some_iff.mp hStep
          have hMem := List.mem_of_getElem? hOpened
          refine h.grows hEngine (by simp) (by simp) ?_ (by simp) ?_
          · rintro other (⟨stream', hEq⟩ | ⟨events, more, hEq, -⟩) <;> cases hEq
            exact Or.inl rfl
          · intro stream' hEq
            obtain ⟨first, hFirst, hLe⟩ := h.accepted opened hMem lastLsn hAccepted
            exact ⟨first, hFirst, h.delivered opened hMem first (hLe.trans hDelivered)⟩
        · cases hStep
      · cases hStep
  | resnapshot stream =>
      obtain ⟨engine, hEngine, rfl⟩ := Option.map_eq_some_iff.mp hStep
      refine h.grows hEngine (by simp) (by simp) ?_ (by simp) (by simp)
      rintro other (⟨stream', hEq⟩ | ⟨events, more, hEq, -⟩) <;> cases hEq
      exact Or.inr (Or.inl rfl)
  | page events moreAvailable =>
      obtain ⟨engine, hEngine, rfl⟩ := Option.map_eq_some_iff.mp hStep
      have hCanonical : ∀ event ∈ events.filterMap fun event => canonicalEvent log event.1 event.2,
          ∃ lsn generation, canonicalEvent log lsn generation = some event := by
        intro event hEvent
        obtain ⟨⟨lsn, generation⟩, -, hEq⟩ := List.mem_filterMap.mp hEvent
        exact ⟨lsn, generation, hEq⟩
      refine h.grows hEngine (by simp) (by simp) ?_ ?_ (by simp)
      · rintro other (⟨stream', hEq⟩ | ⟨events', more, hEq, hMem⟩) <;> cases hEq
        exact Or.inr (Or.inr (hCanonical other hMem))
      · intro events' more hEq event hMem
        cases hEq
        obtain ⟨lsn, generation, hEvent⟩ := hCanonical event hMem
        exact (canonicalEvent_ne_keepalive hEvent).1
  | resnapshotPage =>
      obtain ⟨engine, hEngine, rfl⟩ := Option.map_eq_some_iff.mp hStep
      refine h.grows hEngine (by simp) (by simp) ?_ ?_ (by simp)
      · rintro other (⟨stream', hEq⟩ | ⟨events, more, hEq, hMem⟩) <;> cases hEq
        exact Or.inr (Or.inl (List.mem_singleton.mp hMem))
      · intro events more hEq event hMem
        cases hEq
        cases List.mem_singleton.mp hMem
        simp

/-- What the later states of an instance keep. With it, what was caught up stays caught up. -/
structure Endures (inst next : Instance) : Prop where
  bootstrapped : next.bootstrapped = inst.bootstrapped
  initialLsn : next.initialLsn = inst.initialLsn
  firstAccepted : ∀ first, inst.firstAccepted = some first → next.firstAccepted = some first
  cursor : inst.engine.lastAppliedLsn ≤ next.engine.lastAppliedLsn
  stopped : inst.engine.stopped = true → next.engine.stopped = true

theorem Endures.refl (inst : Instance) : Endures inst inst := ⟨rfl, rfl, fun _ h => h, le_rfl, id⟩

theorem Endures.ready (h : Endures inst next) (hReady : inst.Ready) : next.Ready := by
  obtain ⟨first, hFirst, hLe⟩ := hReady
  exact ⟨first, h.firstAccepted first hFirst, hLe.trans h.cursor⟩

theorem step_cursor {s t : SyncEngineProcess} {a : SyncEngineProcess.Action}
    {toNumber : JsString → Option Nat}
    {n : Nat} {g : Int} (hOrderly : Orderly toNumber n g s) (hStep : s.step toNumber a = some t) :
    s.lastAppliedLsn ≤ t.lastAppliedLsn ∧ (s.stopped = true → t.stopped = true) := by
  cases a with
  | apply applied updated =>
      simp only [SyncEngineProcess.step] at hStep
      split at hStep
      · rename_i enqueued rest hIdle hChain
        cases hStep
        have hAdvances : Advances { s with chain := rest } _ :=
          applyEvent_advances toNumber enqueued applied updated
        exact ⟨hAdvances.cursor, fun hStopped => hAdvances.stopped.trans hStopped⟩
      · cases hStep
  | rotated outcome updated =>
      obtain ⟨rotation, hRotating, rfl⟩ := Option.map_eq_some_iff.mp hStep
      have hAdvances := finishRotation_advances (hOrderly.rotation rotation hRotating).1 outcome updated
      exact ⟨hAdvances.cursor, fun hStopped => hAdvances.stopped.trans hStopped⟩
  | _ =>
      have hQuiet := step_quiet hStep (by simp) (by simp)
      exact ⟨hQuiet.cursor.ge, hQuiet.stopped⟩

theorem engine_endures (h : Follows log inst) {a : SyncEngineProcess.Action} {engine : SyncEngineProcess}
    (hStep : inst.engine.step safeIntegerOf a = some engine) : Endures inst { inst with engine := engine } :=
  ⟨rfl, rfl, fun _ hFirst => hFirst, (step_cursor h.orderly hStep).1, (step_cursor h.orderly hStep).2⟩

/-- A step moves the streams and the engine, and what was accepted first stays first. -/
theorem step_moves {a : Action} (hStep : inst.step log a = some next) :
    ∃ engine streams firstAccepted,
      next = { inst with engine := engine, streams := streams, firstAccepted := firstAccepted } ∧
      (engine = inst.engine ∨
        ∃ b, (b ≠ .start ∧ b ≠ .stop) ∧ inst.engine.step safeIntegerOf b = some engine) ∧
      ∀ first, inst.firstAccepted = some first → firstAccepted = some first := by
  cases a with
  | internal a =>
      simp only [Instance.step] at hStep
      split_ifs at hStep with hInternal
      obtain ⟨engine, hEngine, rfl⟩ := Option.map_eq_some_iff.mp hStep
      have hOwner : a ≠ .start ∧ a ≠ .stop := by
        constructor <;>
          · rintro rfl
            cases hInternal
      exact ⟨engine, _, _, rfl, Or.inr ⟨_, hOwner, hEngine⟩, fun _ h => h⟩
  | subscribed index =>
      obtain ⟨engine, hEngine, rfl⟩ := Option.map_eq_some_iff.mp hStep
      exact ⟨engine, _, _, rfl, Or.inr ⟨_, by simp, hEngine⟩, fun _ h => h⟩
  | accept stream =>
      simp only [Instance.step] at hStep
      split at hStep
      · split_ifs at hStep
        cases hStep
        exact ⟨_, _, _, rfl, Or.inl rfl, fun first hFirst => by simp [hFirst]⟩
      · cases hStep
  | deliver stream generation =>
      simp only [Instance.step] at hStep
      split at hStep
      · split_ifs at hStep
        obtain ⟨event, -, hStep⟩ := Option.bind_eq_some_iff.mp hStep
        obtain ⟨engine, hEngine, rfl⟩ := Option.map_eq_some_iff.mp hStep
        exact ⟨engine, _, _, rfl, Or.inr ⟨_, by simp, hEngine⟩, fun _ h => h⟩
      · cases hStep
  | keepalive stream =>
      simp only [Instance.step] at hStep
      split at hStep
      · split at hStep
        · split_ifs at hStep
          obtain ⟨engine, hEngine, rfl⟩ := Option.map_eq_some_iff.mp hStep
          exact ⟨engine, _, _, rfl, Or.inr ⟨_, by simp, hEngine⟩, fun _ h => h⟩
        · cases hStep
      · cases hStep
  | resnapshot | page | resnapshotPage =>
      obtain ⟨engine, hEngine, rfl⟩ := Option.map_eq_some_iff.mp hStep
      exact ⟨engine, _, _, rfl, Or.inr ⟨_, by simp, hEngine⟩, fun _ h => h⟩

theorem step_endures (h : Follows log inst) {a : Action} (hStep : inst.step log a = some next) :
    Endures inst next ∧ next.closed = inst.closed := by
  obtain ⟨engine, streams, firstAccepted, rfl, hEngine, hFirst⟩ := step_moves hStep
  rcases hEngine with rfl | ⟨b, -, hEngine⟩
  · exact ⟨⟨rfl, rfl, hFirst, le_rfl, id⟩, rfl⟩
  · have hEndures := engine_endures h hEngine
    exact ⟨⟨rfl, rfl, hFirst, hEndures.cursor, hEndures.stopped⟩, rfl⟩

/-- An engine that calls `onKeepaliveReceived` has applied the backlog. -/
theorem Follows.ready_of_keepalive (h : Follows log inst) {a : Action}
    (hKeepalive : inst.receivesKeepalive a = true) : inst.Ready ∧ inst.engine.stopped = false := by
  cases a with
  | internal a =>
      cases a with
      | apply applied updated =>
          simp only [receivesKeepalive, SyncEngineProcess.receivesKeepalive] at hKeepalive
          split at hKeepalive
          · rename_i enqueued rest hIdle hChain
            simp only [Bool.and_eq_true, Bool.not_eq_true', Bool.or_eq_false_iff, beq_iff_eq] at hKeepalive
            obtain ⟨⟨hStopped, hFired⟩, hEvent⟩ := hKeepalive
            obtain ⟨first, hFirst, hPassed⟩ := h.keepalives [] enqueued rest hChain hEvent
            refine ⟨⟨first, hFirst, ?_⟩, hStopped⟩
            rcases hPassed with hLe | ⟨rotation, hRotating, -⟩ | ⟨other, hMem, -⟩ | hHalted | hHalted
            · exact hLe
            · rw [hIdle] at hRotating
              cases hRotating
            · cases hMem
            · rw [hFired] at hHalted
              cases hHalted
            · rw [hStopped] at hHalted
              cases hHalted
          · cases hKeepalive
      | _ => cases hKeepalive
  | _ => cases hKeepalive

/-- A call that a known event asks for is the one of the log. -/
theorem call_of_denotes {event : WireStreamEvent} {lsn : Nat} {call : RevokerCall}
    (hKnown : Known log event) (hDenotes : Denotes safeIntegerOf lsn call event) :
    log[lsn - 1]? = some call := by
  have hOne : ∀ {other : Nat}, safeIntegerOf (decimal other) = some lsn → other = lsn := by
    intro other hOther
    rw [safeIntegerOf_decimal] at hOther
    split_ifs at hOther
    exact Option.some.inj hOther
  rcases hKnown with rfl | rfl | ⟨other, generation, hEvent⟩
  · cases call <;> obtain ⟨payload, hEq, -⟩ := hDenotes <;> cases hEq
  · cases call <;> obtain ⟨payload, hEq, -⟩ := hDenotes <;> cases hEq
  · unfold canonicalEvent at hEvent
    split_ifs at hEvent
    obtain ⟨logged, hLogged, rfl⟩ := Option.map_eq_some_iff.mp hEvent
    cases call with
    | applyEntry item =>
        obtain ⟨payload, hEq, hNumber, hItem⟩ := hDenotes
        cases logged <;> cases hEq
        rw [← hOne hNumber, hLogged, ← hItem]
    | rotateOnDemand =>
        obtain ⟨payload, hEq, hNumber⟩ := hDenotes
        cases logged <;> cases hEq
        rw [← hOne hNumber, hLogged]

/-- Every canonical event after the snapshot and up to the coordinator's `lastLsn` when it
accepted the first subscription has been applied to the revoker. -/
def CaughtUp (log : List RevokerCall) (inst : Instance) : Prop :=
  ∃ first, inst.firstAccepted = some first ∧ ∀ lsn call, inst.initialLsn < lsn → lsn ≤ first →
    log[lsn - 1]? = some call → (lsn, call) ∈ inst.engine.history.completed

theorem Follows.caughtUp (h : Follows log inst) (hReady : inst.Ready) : inst.CaughtUp log := by
  obtain ⟨first, hFirst, hLe⟩ := hReady
  refine ⟨first, hFirst, fun lsn call hAfter hBefore hCall => ?_⟩
  have hPersisted : lsn ∈ inst.engine.history.completed.map Prod.fst := by
    refine h.orderly.persisted_completed.subset ?_
    rw [h.orderly.persisted, List.mem_range'_1]
    have hCursor := h.orderly.cursor
    omega
  obtain ⟨⟨lsn', call'⟩, hMem, rfl⟩ := List.mem_map.mp hPersisted
  obtain ⟨event, hReceived, hDenotes⟩ := h.orderly.received _ _ (h.orderly.completed.subset hMem)
  have hLog := call_of_denotes (h.canonical event hReceived) hDenotes
  rw [hCall] at hLog
  cases hLog
  exact hMem

end Instance

end TokenRevoker
