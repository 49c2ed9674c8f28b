import TokenRevoker.Server.Delivery

/-! A backlog drain against a retention that runs meanwhile. `Subscribe` compares the
requested LSN with the retention floor once, but the drain reads the log again after every
batch, however long the batch was in being written. -/
namespace TokenRevoker

open Text LsnContiguity Transition

namespace Subscription

variable {s t : Subscription} {requested subscribed : Nat} {history : List LogRecord}
  {segments : List Segment}
  {c d : NodeConnection}

/-- No entry and no marker is written past an LSN that was not. -/
def NoHole (requestedLsn : Nat) (written : List OutboundEvent) : Prop :=
  (requestedLsn :: written.filterMap lsnOf).IsChain fun previous lsn => lsn ≤ previous + 1

instance (requestedLsn : Nat) (written : List OutboundEvent) : Decidable (NoHole requestedLsn written) :=
  inferInstanceAs (Decidable (List.IsChain _ _))

/-- The drain reads its next batch from where the log can still be served. -/
def ReadsServed (s : Subscription) : Action → Bool
  | .work =>
      match s.connection.closed, s.connection.tasks with
      | false, .drain fromLsn [] :: _ => s.log.coordinator.canServeFrom fromLsn
      | _, _ => true
  | _ => true

/-- What was written goes up to position `p`, wherever the requested LSN was. -/
structure Steady (history : List LogRecord) (requested subscribed p : Nat) (c : NodeConnection) : Prop where
  low : requested ≤ p
  lsns : c.written.filterMap lsnOf = List.range' (requested + 1) (p - requested)
  phase : c.closed = false → c.Phase history subscribed p

theorem Steady.noHole {p : Nat} (h : Steady history requested subscribed p c) :
    NoHole requested c.written := by
  have hChain : List.range' requested (p - requested + 1) = requested :: c.written.filterMap lsnOf := by
    rw [h.lsns, List.range'_succ]
  rw [NoHole, ← hChain]
  exact (List.isChain_range' requested (p - requested + 1) 1).imp fun _ _ hNext => Nat.le_of_eq hNext

theorem steady_subscribe (requested lastLsn generation : Nat) :
    Steady history requested history.length requested (.subscribe requested lastLsn generation) where
  low := Nat.le_refl _
  lsns := by
    rw [Nat.sub_self]
    rfl
  phase := by
    intro _
    have hQueue : NodeConnection.Queued history history.length [.write (.keepalive lastLsn generation)] := by
      refine ⟨[.keepalive lastLsn generation], rfl, Nat.le_refl _, ?_⟩
      rw [List.drop_of_length_le (by rw [length_messages])]
      rfl
    exact .draining [] _ rfl rfl rfl List.nil_prefix hQueue

theorem Steady.enqueue {p : Nat} {history' : List LogRecord} {event : OutboundEvent}
    (h : Steady history requested subscribed p c)
    (hMessages : messages history' = messages history ++ NodeConnection.gained event) :
    Steady history' requested subscribed p (c.enqueue event) := by
  cases hClosed : c.closed with
  | true =>
      rw [NodeConnection.enqueue_closed hClosed]
      refine ⟨h.low, h.lsns, fun hOpen => ?_⟩
      rw [hClosed] at hOpen
      cases hOpen
  | false =>
      rw [NodeConnection.enqueue_open hClosed]
      exact ⟨h.low, h.lsns, fun _ => (h.phase hClosed).concat hMessages⟩

theorem Steady.work {p : Nat} {coordinator : Coordinator} (h : Steady history requested subscribed p c)
    (hEndures : coordinator.Endures segments history)
    (hServed : ∀ fromLsn rest, c.closed = false → c.tasks = .drain fromLsn [] :: rest →
      coordinator.canServeFrom fromLsn = true)
    (hWork : c.work coordinator = some d) : ∃ p', Steady history requested subscribed p' d := by
  cases hClosed : c.closed with
  | true =>
      obtain ⟨hStays, hSame⟩ := NodeConnection.work_closed hClosed hWork
      refine ⟨p, h.low, hSame ▸ h.lsns, fun hOpen => ?_⟩
      rw [hStays] at hOpen
      cases hOpen
  | false =>
      obtain ⟨p', hProgress⟩ := (h.phase hClosed).work hClosed hEndures
        (fun fromLsn rest => hServed fromLsn rest hClosed) hWork
      refine ⟨p', ?_⟩
      cases hProgress with
      | silent hWritten hPhase => exact ⟨h.low, hWritten ▸ h.lsns, fun _ => hPhase⟩
      | next event hCanonical hNext hWritten hPhase =>
          refine ⟨Nat.le_succ_of_le h.low, ?_, fun _ => hPhase⟩
          have hLsn := (hEndures.lsnOf_of_drop hNext).1
          rw [lsnOf_wellFormed] at hLsn
          have hLow := h.low
          rw [hWritten, List.filterMap_append, h.lsns, Nat.sub_add_comm hLow, List.range'_concat]
          simp only [List.filterMap_cons, hLsn, List.filterMap_nil]
          congr 2
          omega
      | control event hControl hSubscribed hWritten hPhase =>
          refine ⟨h.low, ?_, fun _ => hPhase⟩
          have hLsn : lsnOf event = none := by simpa [OutboundEvent.isCanonical] using hControl
          rw [hWritten, List.filterMap_append, h.lsns]
          simp [hLsn]

/-- The connection goes through the log without a hole. -/
def Drains (requested subscribed : Nat) (s : Subscription) : Prop :=
  ∃ segments p, s.log.coordinator.Endures segments s.log.history ∧
    Steady s.log.history requested subscribed p s.connection

theorem Drains.publish (h : s.Drains requested subscribed) {log : LoggedCoordinator} {r : LogRecord}
    {event : OutboundEvent} (hPublishes : s.log.Publishes log r event)
    (hEndures : ∃ segments, log.coordinator.Endures segments log.history) :
    (s.broadcast log).Drains requested subscribed := by
  obtain ⟨segments, p, hOld, hSteady⟩ := h
  obtain ⟨segments', hNew⟩ := hEndures
  rw [broadcast_published hPublishes]
  exact ⟨segments', p, hNew, hSteady.enqueue (hPublishes.messages_gained hOld)⟩

theorem Drains.step (h : s.Drains requested subscribed) {a : Action} (hStep : s.step a = some t)
    (hReads : s.ReadsServed a = true) : t.Drains requested subscribed := by
  obtain ⟨segments, p, hEndures, hSteady⟩ := h
  cases a with
  | add item applied =>
      cases hStep
      rcases LoggedCoordinator.add_publishes hEndures applied item with hSame | ⟨⟨r, hPublishes⟩, -⟩
      · rw [hSame, broadcast_self s rfl]
        exact ⟨segments, p, hEndures, hSteady⟩
      · exact Drains.publish ⟨segments, p, hEndures, hSteady⟩ hPublishes (hEndures.add applied item)
  | rotation unlinkFails =>
      cases hStep
      obtain ⟨r, hPublishes⟩ := LoggedCoordinator.rotation_publishes hEndures unlinkFails
      exact Drains.publish ⟨segments, p, hEndures, hSteady⟩ hPublishes (hEndures.rotation unlinkFails)
  | keepalive =>
      cases hStep
      exact ⟨segments, p, hEndures, hSteady.enqueue (List.append_nil _).symm⟩
  | work =>
      obtain ⟨connection, hWork, rfl⟩ := Option.map_eq_some_iff.mp hStep
      obtain ⟨p', hSteady'⟩ := hSteady.work hEndures
        (fun fromLsn rest hClosed hTasks => by simpa [ReadsServed, hClosed, hTasks] using hReads) hWork
      exact ⟨segments, p', hEndures, hSteady'⟩
  | close =>
      cases hStep
      refine ⟨segments, p, hEndures, hSteady.low, hSteady.lsns, fun hOpen => ?_⟩
      cases hOpen

/-- A subscription is never sent an LSN past one that it was not sent, as long as every batch of
its drain, the first one included, is read from an LSN that can still be served, whatever is
appended, rotated and deleted between the batches. The drain itself does not check that. -/
theorem no_hole (id walDir : String) (prior : List CoordinatorLives.Action) {requestedLsn : Nat}
    {log : LoggedCoordinator}
    (hLog : log = ⟨CoordinatorLives.run (CoordinatorRestart.start id walDir) prior,
      CoordinatorLives.history (CoordinatorRestart.start id walDir) prior⟩)
    {actions : List Action} {s : Subscription}
    (run : Run (restrict (ofStep step) fun s a => s.ReadsServed a = true) (start log requestedLsn) actions s) :
    NoHole requestedLsn s.connection.written := by
  obtain ⟨segments, hStart⟩ := CoordinatorLives.endures_start id walDir prior
  have hLogged : log.coordinator.Endures segments log.history := by
    rw [hLog]
    exact hStart
  have hDrains : s.Drains requestedLsn log.history.length :=
    run.invariant (fun _ _ _ h hStep => h.step hStep.1 hStep.2)
      ⟨segments, requestedLsn, hLogged, steady_subscribe requestedLsn _ _⟩
  obtain ⟨segments', p, -, hSteady⟩ := hDrains
  exact hSteady.noHole

/-- The drain is done before the two rotations that delete what it has read. -/
theorem no_hole_two_rotations :
    ∃ s : Subscription, s.connection.written = [.entry 1 0 [0x61], .keepalive 1 0, .rotate 2 1, .rotate 3 2] ∧
      s.log.coordinator.canServeFrom 0 = false ∧ NoHole 0 s.connection.written := by
  have hEnd : (exec (guarded ReadsServed step) (start (logAfter [.step (.add [0x61] (.ok ()))]) 0)
      [.work, .work, .work, .work, .rotation fun _ => false, .rotation fun _ => false, .work, .work, .work,
        .work, .work]).map
        (fun s => (s.connection.written, s.log.coordinator.canServeFrom 0)) =
      some ([.entry 1 0 [0x61], .keepalive 1 0, .rotate 2 1, .rotate 3 2], false) := by decide +kernel
  obtain ⟨s, hRun, hEq⟩ := Option.map_eq_some_iff.mp hEnd
  obtain ⟨hWritten, hFloor⟩ := Prod.mk.inj hEq
  exact ⟨s, hWritten, hFloor, no_hole "r" "canonical" _ rfl
    ((run_of_exec hRun).of_guarded fun _ _ h => h)⟩

/-- Without it: the drain waits for the kernel buffer with the first LSN, the two events after
it are deleted by the second rotation, and the drain goes on with the fourth. -/
theorem not_no_hole :
    ¬ ∀ (prior : List CoordinatorLives.Action) (requestedLsn : Nat) (actions : List Action) (s : Subscription),
      (logAfter prior).coordinator.canServeFrom requestedLsn = true →
        Run (ofStep step) (start (logAfter prior) requestedLsn) actions s →
          NoHole requestedLsn s.connection.written := by
  intro h
  have hEnd : (exec step (start (logAfter [.step (.add [0x61] (.ok ()))]) 0)
      [.work, .work, .add [0x62] (.ok ()), .rotation fun _ => false, .rotation fun _ => false, .work, .work,
        .work]).map (fun s => decide (NoHole 0 s.connection.written)) = some false := by decide +kernel
  obtain ⟨s, hRun, hHole⟩ := Option.map_eq_some_iff.mp hEnd
  exact of_decide_eq_false hHole (h _ 0 _ s (by decide) (run_of_exec hRun))

end Subscription

end TokenRevoker
