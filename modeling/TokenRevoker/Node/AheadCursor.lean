import TokenRevoker.Node.Channels

/-! A cursor that is ahead of the log. The floor is the only bound that is checked, so the
request is served; the read of the log, the cursor of the connection and the read of a poll
all leave out what is appended up to it. -/
namespace TokenRevoker

open Text LsnContiguity Transition

/-- This task can be waiting, with something above the LSN. -/
def WriteTask.Writes (requested : Nat) : WriteTask → Prop
  | .drain _ batch => batch ≠ []
  | .write event => ∀ lsn, lsnOf event = some lsn → requested < lsn

namespace NodeConnection

variable {requested : Nat} {c d : NodeConnection}

/-- Nothing up to the requested LSN was written, nor will be. So an event with a lower LSN can
reach its node no more. -/
structure Above (requested : Nat) (c : NodeConnection) : Prop where
  written : ∀ event ∈ c.written, ∀ lsn, lsnOf event = some lsn → requested < lsn
  cursor : requested ≤ c.lastWrittenLsn
  drains : ∀ fromLsn batch, .drain fromLsn batch ∈ c.tasks →
    requested ≤ fromLsn ∧ ∀ event ∈ batch, requested < event.lsn
  writing : c.waiting = true → ∃ task rest, c.tasks = task :: rest ∧ task.Writes requested

theorem above_subscribe (requested lastLsn generation : Nat) :
    Above requested (.subscribe requested lastLsn generation) where
  written := by simp [NodeConnection.subscribe, NodeConnection.enqueue, enqueueTask]
  cursor := Nat.le_refl _
  drains := by
    intro fromLsn batch hTask
    rcases List.mem_cons.mp hTask with hDrain | hMarker
    · cases hDrain
      exact ⟨Nat.le_refl _, by simp⟩
    · cases List.mem_singleton.mp hMarker
  writing := by
    intro hWaiting
    cases hWaiting

theorem Above.enqueue (h : c.Above requested) (event : OutboundEvent) :
    (c.enqueue event).Above requested := by
  cases hClosed : c.closed with
  | true => rwa [enqueue_closed hClosed]
  | false =>
      rw [enqueue_open hClosed]
      refine ⟨h.written, h.cursor, fun fromLsn batch hTask => ?_, fun hWaiting => ?_⟩
      · rcases List.mem_append.mp hTask with hOld | hNew
        · exact h.drains fromLsn batch hOld
        · cases List.mem_singleton.mp hNew
      · obtain ⟨task, rest, hTasks, hWrites⟩ := h.writing hWaiting
        exact ⟨task, _, by rw [hTasks]; rfl, hWrites⟩

theorem Above.tail (h : c.Above requested) {task : WriteTask} {rest : List WriteTask}
    (hTasks : c.tasks = task :: rest) (fromLsn : Nat) (batch : List CanonicalEvent)
    (hTask : .drain fromLsn batch ∈ rest) : requested ≤ fromLsn ∧ ∀ event ∈ batch, requested < event.lsn :=
  h.drains fromLsn batch (hTasks ▸ List.mem_cons_of_mem _ hTask)

theorem Above.push {event : OutboundEvent} (h : ∀ event ∈ c.written, ∀ lsn, lsnOf event = some lsn →
    requested < lsn)
    (hLsn : ∀ lsn, lsnOf event = some lsn → requested < lsn) :
    ∀ other ∈ c.written ++ [event], ∀ lsn, lsnOf other = some lsn → requested < lsn := by
  intro other hOther
  rcases List.mem_append.mp hOther with hOld | hNew
  · exact h other hOld
  · cases List.mem_singleton.mp hNew
    exact hLsn

theorem Above.writes (h : c.Above requested) {task : WriteTask} {rest : List WriteTask}
    (hTasks : c.tasks = task :: rest) (hWaiting : c.waiting = true) : task.Writes requested := by
  obtain ⟨head, rest', hHead, hWrites⟩ := h.writing hWaiting
  cases hTasks.symm.trans hHead
  exact hWrites

/-- A read brings only what lies above it, and the rest is compared with what was written. -/
theorem Above.work {coordinator : Coordinator} (h : c.Above requested) (hWork : c.work coordinator = some d) :
    d.Above requested := by
  unfold NodeConnection.work at hWork
  split at hWork
  · cases hWork
  · rename_i fromLsn rest hTasks
    have hFrom := (h.drains fromLsn [] (hTasks ▸ List.mem_cons_self)).1
    have hIdle : c.waiting = false := by
      by_contra hWaiting
      exact h.writes hTasks (by simpa using hWaiting) rfl
    have hDone : ∀ closed, Above requested { c with tasks := rest, closed := closed } := fun _ =>
      ⟨h.written, h.cursor, h.tail hTasks, fun hWaiting => absurd (hIdle.symm.trans hWaiting) (by simp)⟩
    split_ifs at hWork
    · cases hWork
      exact hDone c.closed
    · split at hWork <;> cases hWork
      · exact hDone true
      · exact hDone c.closed
      · rename_i batch hRead
        refine ⟨h.written, h.cursor, fun other later hTask => ?_, fun hWaiting =>
          absurd (hIdle.symm.trans hWaiting) (by simp)⟩
        rcases List.mem_cons.mp hTask with hDrain | hRest
        · cases hDrain
          exact ⟨hFrom, fun event hEvent => Nat.lt_of_le_of_lt hFrom
            (CanonicalWal.mem_readSince hRead hEvent).2⟩
        · exact h.tail hTasks other later hRest
  · rename_i fromLsn event batch rest hTasks
    obtain ⟨hFrom, hBatch⟩ := h.drains fromLsn (event :: batch) (hTasks ▸ List.mem_cons_self)
    have hEvent := hBatch event List.mem_cons_self
    split_ifs at hWork with hWaiting <;> cases hWork
    · refine ⟨h.written, Nat.le_of_lt hEvent, fun other later hTask => ?_, fun hWaiting => by cases hWaiting⟩
      rcases List.mem_cons.mp hTask with hDrain | hRest
      · cases hDrain
        exact ⟨Nat.le_of_lt hEvent, fun event hMem => hBatch event (List.mem_cons_of_mem _ hMem)⟩
      · exact h.tail hTasks other later hRest
    · exact ⟨h.written, h.cursor, h.tail hTasks, fun hOn => absurd hOn hWaiting⟩
    · refine ⟨Above.push h.written fun lsn hLsn => ?_, h.cursor, h.drains, fun _ =>
        ⟨_, rest, hTasks, List.cons_ne_nil _ _⟩⟩
      rw [lsnOf_message, Option.some_inj] at hLsn
      exact hLsn ▸ hEvent
  · rename_i event rest hTasks
    split_ifs at hWork with hWaiting hClosed hCovered <;> cases hWork
    · have hLsn := h.writes hTasks hWaiting
      refine ⟨h.written, ?_, h.tail hTasks, fun hOn => by cases hOn⟩
      cases hEvent : lsnOf event with
      | none => exact h.cursor
      | some lsn => exact Nat.le_of_lt (hLsn lsn hEvent)
    · exact ⟨h.written, h.cursor, h.tail hTasks, fun hOn => absurd hOn hWaiting⟩
    · exact ⟨h.written, h.cursor, h.tail hTasks, fun hOn => absurd hOn hWaiting⟩
    · have hLsn : ∀ lsn, lsnOf event = some lsn → requested < lsn := by
        intro lsn hEvent
        have hBeyond : c.lastWrittenLsn < lsn := by simpa [hEvent] using hCovered
        exact Nat.lt_of_le_of_lt h.cursor hBeyond
      exact ⟨Above.push h.written hLsn, h.cursor, h.drains, fun _ => ⟨_, rest, hTasks, hLsn⟩⟩

end NodeConnection

namespace Subscription

variable {s t : Subscription} {requestedLsn : Nat} {wire : Wire}

/-- The action appends an event to the log. -/
def Appends : Action → Prop
  | .add item _ => Acceptable item
  | .rotation _ => True
  | .keepalive | .work | .close => False

instance : DecidablePred Appends
  | .add item _ => inferInstanceAs (Decidable (Acceptable item))
  | .rotation _ => inferInstanceAs (Decidable True)
  | .keepalive | .work | .close => inferInstanceAs (Decidable False)

/-- Sooner or later the record is written to the subscriber, or a poll from the requested
LSN returns it. -/
def MayReach (wire : Wire) (requestedLsn : Nat) (s : Subscription) (r : LogRecord) : Prop :=
  ∃ more t, Run (ofStep step) s more t ∧
    ((∃ event ∈ t.connection.written, lsnOf event = some r.1) ∨
      ∃ maxEvents answer, t.log.coordinator.pollDeltas wire requestedLsn maxEvents = .ok answer ∧
        ∃ event ∈ answer.1, event.lsn = some r.1)

/-- The connection leaves out what the cursor claims to have. -/
theorem step_above {a : Action} (hStep : s.step a = some t) (h : s.connection.Above requestedLsn) :
    t.connection.Above requestedLsn := by
  have hEnqueued : ∀ (events : List OutboundEvent) (c : NodeConnection), c.Above requestedLsn →
      (events.foldl NodeConnection.enqueue c).Above requestedLsn := by
    intro events
    induction events with
    | nil => exact fun _ h => h
    | cons event rest ih => exact fun c h => ih _ (h.enqueue event)
  cases a with
  | add item applied =>
      cases hStep
      exact hEnqueued _ _ h
  | rotation unlinkFails =>
      cases hStep
      exact hEnqueued _ _ h
  | keepalive =>
      cases hStep
      exact h.enqueue _
  | work =>
      obtain ⟨connection, hWork, rfl⟩ := Option.map_eq_some_iff.mp hStep
      exact h.work hWork
  | close =>
      cases hStep
      exact ⟨h.written, h.cursor, h.drains, h.writing⟩

theorem run_above {actions : List Action} (run : Run (ofStep step) s actions t)
    (h : s.connection.Above requestedLsn) : t.connection.Above requestedLsn :=
  run.invariant (P := fun s => s.connection.Above requestedLsn) (fun _ _ _ h hStep => step_above hStep h) h

/-- The log grows by one record with every action that appends. -/
theorem step_grows {a : Action} (hStep : s.step a = some t)
    (h : ∃ segments, s.log.coordinator.Endures segments s.log.history) :
    (∃ segments, t.log.coordinator.Endures segments t.log.history) ∧
      t.log.history.length = s.log.history.length + if Appends a then 1 else 0 := by
  obtain ⟨segments, hEndures⟩ := h
  cases a with
  | add item applied =>
      cases hStep
      refine ⟨hEndures.add applied item, ?_⟩
      simp only [broadcast, LoggedCoordinator.add, Coordinator.entryRecords, Appends, List.length_append]
      by_cases hItem : Acceptable item <;> simp [hItem]
  | rotation unlinkFails =>
      cases hStep
      exact ⟨hEndures.rotation unlinkFails, by simp [broadcast, LoggedCoordinator.rotation, Appends]⟩
  | keepalive | close =>
      cases hStep
      exact ⟨⟨segments, hEndures⟩, by simp [Appends]⟩
  | work =>
      obtain ⟨connection, -, rfl⟩ := Option.map_eq_some_iff.mp hStep
      exact ⟨⟨segments, hEndures⟩, by simp [Appends]⟩

/-- A poll brings only what lies above it. -/
theorem lt_of_mem_pollDeltas {coordinator : Coordinator} {maxEvents : Option Nat}
    {answer : List StreamEvent × Bool}
    (hPoll : coordinator.pollDeltas wire requestedLsn maxEvents = .ok answer)
    {event : StreamEvent} (hEvent : event ∈ answer.1) {lsn : Nat} (hLsn : event.lsn = some lsn) :
    requestedLsn < lsn := by
  unfold Coordinator.pollDeltas at hPoll
  split_ifs at hPoll with hServed
  · dsimp only at hPoll
    split at hPoll
    · cases hPoll
    · rename_i batch hRead
      cases hPoll
      obtain ⟨canonical, hMem, rfl⟩ := List.mem_map.mp hEvent
      have hAbove := (CanonicalWal.mem_readSince hRead (List.mem_of_mem_take hMem)).2
      rw [lsn_toStreamEvent, Option.some_inj] at hLsn
      simpa [← hLsn] using hAbove
  · cases hPoll
    cases List.mem_singleton.mp hEvent
    cases hLsn

theorem lt_of_mayReach (h : s.connection.Above requestedLsn) {r : LogRecord}
    (hReach : MayReach wire requestedLsn s r) : requestedLsn < r.1 := by
  obtain ⟨more, t, run, hWritten | ⟨maxEvents, answer, hPoll, event, hEvent, hLsn⟩⟩ := hReach
  · obtain ⟨event, hEvent, hLsn⟩ := hWritten
    exact (run_above run h).written event hEvent r.1 hLsn
  · exact lt_of_mem_pollDeltas hPoll hEvent hLsn

/-- A request with a cursor that is ahead of the log is served, but all that is appended may
reach its node only if nothing is: the first event that is appended has an LSN the cursor
claims to have. -/
theorem ahead_reached_iff (id walDir : String) (prior : List CoordinatorLives.Action) (wire : Wire)
    {requestedLsn : Nat} {log : LoggedCoordinator}
    (hLog : log = ⟨CoordinatorLives.run (CoordinatorRestart.start id walDir) prior,
      CoordinatorLives.history (CoordinatorRestart.start id walDir) prior⟩)
    (hAhead : log.coordinator.lastLsn < requestedLsn) {actions : List Action} {s : Subscription}
    (run : Run (ofStep step) (start log requestedLsn) actions s) :
    (log.coordinator.canServeFrom requestedLsn = false ∨
        ∀ r ∈ s.log.history.drop log.history.length, MayReach wire requestedLsn s r) ↔
      ∀ a ∈ actions, ¬ Appends a := by
  obtain ⟨segments, hStart⟩ := CoordinatorLives.endures_start id walDir prior
  have hLogged : log.coordinator.Endures segments log.history := by
    rw [hLog]
    exact hStart
  rw [hLogged.lastLsn_eq] at hAhead
  have hServed : log.coordinator.canServeFrom requestedLsn = true := by
    have := hLogged.deleted
    have := hLogged.backup_le
    simp only [Coordinator.canServeFrom, CanonicalWal.canServeFrom, decide_eq_true_eq]
    omega
  have hAbove := run_above run (NodeConnection.above_subscribe requestedLsn _ _)
  obtain ⟨⟨segments', hEndures⟩, hLength⟩ : (∃ segments, s.log.coordinator.Endures segments s.log.history) ∧
      s.log.history.length = log.history.length + (0 + actions.countP fun a => decide (Appends a)) :=
    run.counted (fun a => decide (Appends a))
      (P := fun n s => (∃ segments, s.log.coordinator.Endures segments s.log.history) ∧
        s.log.history.length = log.history.length + n)
      (by
        rintro n s a t ⟨hOld, hLength⟩ hStep
        obtain ⟨hNew, hMore⟩ := step_grows hStep hOld
        refine ⟨hNew, ?_⟩
        rw [hMore, hLength]
        by_cases hAppends : Appends a <;> simp [hAppends, Nat.add_assoc])
      ⟨⟨segments, hLogged⟩, rfl⟩
  rw [Nat.zero_add] at hLength
  constructor
  · rintro (hRefused | hReach) a ha hAppends
    · rw [hServed] at hRefused
      cases hRefused
    · have hCount : 0 < actions.countP fun a => decide (Appends a) :=
        List.countP_pos_iff.mpr ⟨a, ha, decide_eq_true hAppends⟩
      obtain ⟨r, hRecord, hLsn⟩ := Coordinator.exists_record hEndures.lsns
        (Nat.succ_pos log.history.length) (by omega)
      rw [← List.take_append_drop log.history.length s.log.history] at hRecord
      rcases List.mem_append.mp hRecord with hOld | hNew
      · have hLe : r.1 ∈ (s.log.history.take log.history.length).map Prod.fst := List.mem_map_of_mem hOld
        rw [List.map_take, hEndures.lsns, List.take_range'_of_length_ge (by omega), List.mem_range'_1] at hLe
        omega
      · have hLt := lt_of_mayReach hAbove (hReach r hNew)
        omega
  · intro hNone
    right
    have hCount : actions.countP (fun a => decide (Appends a)) = 0 :=
      List.countP_eq_zero.mpr fun a ha => by simpa using hNone a ha
    intro r hRecord
    rw [List.drop_of_length_le (by omega)] at hRecord
    cases hRecord

/-- A node at LSN 7 subscribes to a coordinator that has two events and appends a third. -/
theorem ahead_reached_iff_third :
    ∃ s : Subscription,
      exec step (start (logAfter [.step (.add [0x61] (.ok ())), .step (.add [0x62] (.ok ()))]) 7)
        [.work, .add [0x63] (.ok ()), .work, .work] = some s ∧
      ¬ ∀ r ∈ s.log.history.drop 2, MayReach Wire.utf8 7 s r := by
  have hEnd : (exec step (start (logAfter [.step (.add [0x61] (.ok ())), .step (.add [0x62] (.ok ()))]) 7)
      [.work, .add [0x63] (.ok ()), .work, .work]).isSome = true := by decide +kernel
  obtain ⟨s, hRun⟩ := Option.isSome_iff_exists.mp hEnd
  refine ⟨s, hRun, fun hReach => ?_⟩
  exact (ahead_reached_iff "r" "canonical" _ Wire.utf8 rfl (by decide) (run_of_exec hRun)).mp (Or.inr hReach)
    (.add [0x63] (.ok ())) (by simp) (by decide)

/-- A coordinator with nothing in its log serves a cursor at LSN 1, and its first revocation
never reaches it. -/
theorem not_ahead_reached :
    ¬ ∀ (prior : List CoordinatorLives.Action) (requestedLsn : Nat) (actions : List Action) (s : Subscription),
      (logAfter prior).coordinator.lastLsn < requestedLsn →
        Run (ofStep step) (start (logAfter prior) requestedLsn) actions s →
          (logAfter prior).coordinator.canServeFrom requestedLsn = false ∨
            ∀ r ∈ s.log.history.drop (logAfter prior).history.length,
              MayReach Wire.utf8 requestedLsn s r := by
  intro h
  obtain ⟨s, hRun, hRecord⟩ : ∃ s, exec step (start (logAfter []) 1) [.add [0x61] (.ok ())] = some s ∧
      s.log.history = [(1, .entry [0x61])] := ⟨_, rfl, by decide +kernel⟩
  rcases h [] 1 _ s (by decide) (run_of_exec hRun) with hRefused | hReach
  · exact absurd hRefused (by decide)
  · have hAbove := run_above (run_of_exec hRun) (NodeConnection.above_subscribe 1 _ _)
    exact absurd (lt_of_mayReach hAbove (hReach (1, .entry [0x61])
      (by rw [hRecord]; exact List.mem_cons_self)))
      (Nat.lt_irrefl 1)

end Subscription

end TokenRevoker
