import TokenRevoker.Node.Replica
import TokenRevoker.Server.Delivery

/-! The two channels from a coordinator to its nodes. What a subscription writes and what
a poll is answered with continue the log after the LSN that was asked for: in front of
every event stands all that comes before it. -/
namespace TokenRevoker

open Text LsnContiguity

/-- `MAX_POLL_EVENTS`. -/
def maxPollEvents : Nat := 10000

/-- A call of `Subscribe` that is written one message and ended. It never joins the live events.
-/
def NodeConnection.refused (requestedLsn generation : Nat) : NodeConnection where
  lastWrittenLsn := requestedLsn
  closed := true
  written := [.resnapshot generation]

/-- `Subscribe`. The check of the LSN and the registry are not part of this. -/
def Coordinator.subscribe (c : Coordinator) (requestedLsn : Nat) : NodeConnection :=
  if c.canServeFrom requestedLsn then
    .subscribe requestedLsn c.lastLsn c.metaState.generation
  else .refused requestedLsn c.metaState.generation

/-- `PollDeltas`; `maxEvents` is what `toLsn` makes of the field. One event more than the limit
is read, to see whether there are more. -/
def Coordinator.pollDeltas (c : Coordinator) (wire : Wire) (fromLsn : Nat) (maxEvents : Option Nat) :
    Except RevokerError (List StreamEvent × Bool) :=
  if c.canServeFrom fromLsn then
    let requested := maxEvents.getD 0
    let limit := min (if 0 < requested then requested else drainBatchSize) maxPollEvents
    match c.readSince fromLsn (limit + 1) with
    | .error error => .error error
    | .ok batch => .ok ((batch.take limit).map (toStreamEvent wire), decide (limit < batch.length))
  else .ok ([.resnapshot (int32 c.metaState.generation)], false)

/-- The LSN of an entry or a marker. -/
def StreamEvent.lsn : StreamEvent → Option Nat
  | .entry lsn _ _ | .rotate lsn _ => some lsn
  | .keepalive _ _ | .resnapshot _ => none

/-- The event is delivered as the log has it. Lone surrogates are what may keep it from that. -/
def OutboundEvent.Agrees (wire : Wire) : OutboundEvent → Prop
  | .entry _ _ item => wire.deliver item = toWellFormed item
  | _ => True

/-- These events are of the log, and leave nothing out after an LSN. Where they end may be
before the end of the log. Events without an LSN may stand anywhere. -/
structure Continues (history : List LogRecord) (fromLsn : Nat) (events : List StreamEvent) : Prop where
  lsns : ∃ count, events.filterMap StreamEvent.lsn = List.range' (fromLsn + 1) count
  logged : ∀ event ∈ events, event.Logged history

section Events

variable {wire : Wire} {history : List LogRecord} {segments : List Segment} {c : Coordinator}
  {event : OutboundEvent} {fromLsn lsn l : Nat}

@[simp] theorem lsn_outboundToStreamEvent (wire : Wire) (event : OutboundEvent) :
    (outboundToStreamEvent wire event).lsn = lsnOf event := by
  cases event <;> rfl

@[simp] theorem lsn_toStreamEvent (wire : Wire) (event : CanonicalEvent) :
    (toStreamEvent wire event).lsn = some event.record.1 := by
  cases event <;> rfl

theorem StreamEvent.Logged.append {event : StreamEvent} (h : event.Logged history) (more : List LogRecord) :
    event.Logged (history ++ more) := by
  cases event with
  | entry lsn generation item => exact List.mem_append_left _ h
  | rotate lsn generation =>
      obtain ⟨marker, hMem, hEq⟩ := h
      exact ⟨marker, List.mem_append_left _ hMem, hEq⟩
  | keepalive | resnapshot => trivial

theorem Continues.append {events : List StreamEvent} (h : Continues history fromLsn events)
    (more : List LogRecord) : Continues (history ++ more) fromLsn events :=
  ⟨h.lsns, fun event hEvent => (h.logged event hEvent).append more⟩

/-- A refusal leaves nothing out. -/
theorem continues_resnapshot (history : List LogRecord) (fromLsn : Nat) (generation : Int) :
    Continues history fromLsn [.resnapshot generation] where
  lsns := ⟨0, rfl⟩
  logged := by
    intro event hEvent
    cases List.mem_singleton.mp hEvent
    trivial

/-- What comes before an event in the log comes before it on the channel. -/
theorem Continues.ahead {ahead behind : List StreamEvent} {event : StreamEvent}
    (h : Continues history fromLsn (ahead ++ event :: behind)) (hLsn : event.lsn = some lsn) (hLt : l < lsn) :
    l ≤ fromLsn ∨ l ∈ ahead.filterMap StreamEvent.lsn := by
  obtain ⟨count, hLsns⟩ := h.lsns
  rw [List.filterMap_append, List.filterMap_cons_some hLsn] at hLsns
  obtain ⟨k, hk, hAhead, hRest⟩ := List.range'_eq_append_iff.mp hLsns.symm
  rw [hAhead, List.mem_range'_1]
  cases hCount : count - k with
  | zero => simp [hCount] at hRest
  | succ rest =>
      rw [hCount, List.range'_succ, List.cons.injEq] at hRest
      omega

theorem agrees_of_wellFormed (hWellFormed : event.wellFormed = event) : event.Agrees wire := by
  cases event with
  | entry lsn generation item =>
      rw [OutboundEvent.wellFormed, OutboundEvent.entry.injEq] at hWellFormed
      have hItem : IsWellFormed item := hWellFormed.2.2
      rw [OutboundEvent.Agrees, wire.deliver_eq item hItem, hWellFormed.2.2]
  | rotate | keepalive | resnapshot => trivial

/-- A message of the log is delivered as its record. -/
theorem logged_outboundToStreamEvent (hMessage : event.wellFormed ∈ messages history)
    (hAgrees : event.Agrees wire) : (outboundToStreamEvent wire event).Logged history := by
  obtain ⟨⟨lsn, payload⟩, hRecord, hEq⟩ := List.mem_map.mp hMessage
  cases event with
  | entry lsn' generation item =>
      cases payload <;> cases hEq
      show (lsn, Payload.entry (wire.deliver item)) ∈ history
      rw [hAgrees]
      exact hRecord
  | rotate lsn' generation =>
      cases payload <;> cases hEq
      exact ⟨generation, hRecord, rfl⟩
  | keepalive | resnapshot => trivial

/-- A page continues the log. -/
theorem Coordinator.Endures.pollDeltas (h : c.Endures segments history) {maxEvents : Option Nat}
    {answer : List StreamEvent × Bool} (hPoll : c.pollDeltas wire fromLsn maxEvents = .ok answer) :
    Continues history fromLsn answer.1 := by
  unfold Coordinator.pollDeltas at hPoll
  split_ifs at hPoll with hServed
  · dsimp only at hPoll
    generalize min (if 0 < maxEvents.getD 0 then maxEvents.getD 0 else drainBatchSize) maxPollEvents =
      limit at hPoll
    obtain ⟨batch, hRead, hRecords⟩ := h.readSince hServed (limit + 1)
    rw [hRead] at hPoll
    cases hPoll
    rw [page, if_pos (Nat.succ_pos limit), h.filter_eq_drop] at hRecords
    have hTaken : (batch.take limit).map CanonicalEvent.record = (history.drop fromLsn).take limit := by
      rw [List.map_take, hRecords, List.take_take, Nat.min_eq_left (Nat.le_succ limit)]
    constructor
    · have hLsns : ((batch.take limit).map (toStreamEvent wire)).filterMap StreamEvent.lsn =
          ((history.map Prod.fst).drop fromLsn).take limit := by
        calc ((batch.take limit).map (toStreamEvent wire)).filterMap StreamEvent.lsn
            = (batch.take limit).map fun event => event.record.1 := by
              rw [List.filterMap_map, ← List.filterMap_eq_map]
              exact List.filterMap_congr fun event _ => lsn_toStreamEvent wire event
          _ = ((batch.take limit).map CanonicalEvent.record).map Prod.fst := by
              rw [List.map_map]
              rfl
          _ = ((history.map Prod.fst).drop fromLsn).take limit := by
              rw [hTaken, List.map_take, List.map_drop]
      rw [hLsns, h.lsns, List.drop_range', Nat.add_comm, Nat.mul_one]
      rcases Nat.le_total (history.length - fromLsn) limit with hShort | hLong
      · exact ⟨_, List.take_range'_of_length_le hShort⟩
      · exact ⟨_, List.take_range'_of_length_ge hLong⟩
    · intro event hEvent
      obtain ⟨canonical, hCanonical, rfl⟩ := List.mem_map.mp hEvent
      have hMem : canonical.record ∈ (history.drop fromLsn).take limit := by
        rw [← hTaken]
        exact List.mem_map_of_mem hCanonical
      exact logged_toStreamEvent wire (List.mem_of_mem_drop (List.mem_of_mem_take hMem))
        fun lsn x hEntry => (h.items lsn x hEntry).2
  · cases hPoll
    exact continues_resnapshot history fromLsn _

end Events

namespace NodeConnection

/-- Whatever it has written or is about to write is delivered as the log has it. -/
structure Carries (wire : Wire) (c : NodeConnection) : Prop where
  written : ∀ event ∈ c.written, event.Agrees wire
  queued : ∀ event, .write event ∈ c.tasks → event.Agrees wire

/-- A call of `Subscribe`: it was refused, or it follows the log. -/
inductive Answers (wire : Wire) (history : List LogRecord) (deletedMaxLsn requested : Nat) (c : NodeConnection) :
    Prop where
  | refused (generation : Nat) (eq : c = .refused requested generation)
  | served (subscribed p : Nat) (follows : c.Follows history deletedMaxLsn requested subscribed p)
      (carries : c.Carries wire)

variable {wire : Wire} {c d : NodeConnection} {history history' : List LogRecord} {segments : List Segment}
  {deletedMaxLsn requested subscribed p : Nat} {event : OutboundEvent}

/-- What a step writes comes from the queue, or from the batch of the drain. -/
theorem work_writes {coordinator : Coordinator} (hWork : c.work coordinator = some d) :
    (∀ event, .write event ∈ d.tasks → .write event ∈ c.tasks) ∧ (d.written = c.written ∨
      ∃ event, d.written = c.written ++ [event] ∧ (.write event ∈ c.tasks ∨ c.closed = false ∧
        c.waiting = false ∧ ∃ fromLsn head batch rest, c.tasks = .drain fromLsn (head :: batch) :: rest ∧
          event = head.message)) := by
  unfold work at hWork
  split at hWork
  · cases hWork
  · rename_i fromLsn rest hTasks
    have hRest : ∀ event, .write event ∈ rest → .write event ∈ c.tasks :=
      fun event hEvent => hTasks ▸ List.mem_cons_of_mem _ hEvent
    split_ifs at hWork
    · cases hWork
      exact ⟨hRest, Or.inl rfl⟩
    · split at hWork <;> cases hWork
      · exact ⟨hRest, Or.inl rfl⟩
      · exact ⟨hRest, Or.inl rfl⟩
      · exact ⟨fun event hEvent => hRest event (by simpa using hEvent), Or.inl rfl⟩
  · rename_i fromLsn head batch rest hTasks
    have hRest : ∀ event, .write event ∈ rest → .write event ∈ c.tasks :=
      fun event hEvent => hTasks ▸ List.mem_cons_of_mem _ hEvent
    split_ifs at hWork with hWaiting hClosed <;> cases hWork
    · exact ⟨fun event hEvent => hRest event (by simpa using hEvent), Or.inl rfl⟩
    · exact ⟨hRest, Or.inl rfl⟩
    · exact ⟨fun _ hEvent => hEvent, Or.inr ⟨_, rfl, Or.inr ⟨by simpa using hClosed, by simpa using hWaiting,
        fromLsn, head, batch, rest, hTasks, rfl⟩⟩⟩
  · rename_i head rest hTasks
    have hRest : ∀ event, .write event ∈ rest → .write event ∈ c.tasks :=
      fun event hEvent => hTasks ▸ List.mem_cons_of_mem _ hEvent
    split_ifs at hWork <;> cases hWork
    · exact ⟨hRest, Or.inl rfl⟩
    · exact ⟨hRest, Or.inl rfl⟩
    · exact ⟨hRest, Or.inl rfl⟩
    · exact ⟨fun _ hEvent => hEvent, Or.inr ⟨_, rfl, Or.inl (hTasks ▸ List.mem_cons_self)⟩⟩

theorem written_grows {coordinator : Coordinator} (hWork : c.work coordinator = some d) :
    c.written <+: d.written := by
  rcases (work_writes hWork).2 with hSame | ⟨event, hMore, -⟩
  · rw [hSame]
  · rw [hMore]
    exact List.prefix_append _ _

@[simp] theorem written_enqueue (c : NodeConnection) (event : OutboundEvent) :
    (c.enqueue event).written = c.written := by
  unfold NodeConnection.enqueue enqueueTask
  split_ifs <;> rfl

theorem Carries.work {coordinator : Coordinator} (h : c.Carries wire)
    (hFollows : Follows history deletedMaxLsn requested subscribed p c)
    (hEndures : coordinator.Endures segments history) (hWork : c.work coordinator = some d) :
    d.Carries wire := by
  obtain ⟨hTasks, hWritten⟩ := work_writes hWork
  refine ⟨?_, fun event hEvent => h.queued event (hTasks event hEvent)⟩
  rcases hWritten with hSame | ⟨event, hMore, hSource⟩
  · rw [hSame]
    exact h.written
  rw [hMore]
  intro other hOther
  rcases List.mem_append.mp hOther with hOld | hNew
  · exact h.written other hOld
  cases List.mem_singleton.mp hNew
  rcases hSource with hQueued | ⟨hOpen, hIdle, fromLsn, head, batch, rest, hDrain, rfl⟩
  · exact h.queued event hQueued
  · -- only a drain that is not waiting writes from its batch, and its batch is of the log
    cases hFollows.phase hOpen with
    | draining batch' rest' hTasks' hWaiting hLast hBatch hQueue =>
        cases hDrain.symm.trans hTasks'
        have hMem : head.message ∈ messages history :=
          List.mem_of_mem_drop (hBatch.subset List.mem_cons_self)
        exact agrees_of_wellFormed (hEndures.wellFormed_of_mem hMem)
    | blocked fromLsn' head' batch' rest' hTasks' hWaiting hEvent hBatch hQueue =>
        rw [hIdle] at hWaiting
        cases hWaiting
    | live q hWaiting hLast hQueue hQ hSubscribed =>
        obtain ⟨event', rest', hTasks'⟩ := hQueue.exists_write hWork
        cases hDrain.symm.trans hTasks'
    | writing event' rest' q hTasks' hWaiting hLast hQueue hQ hSubscribed =>
        cases hDrain.symm.trans hTasks'

namespace Answers

theorem subscribe (coordinator : Coordinator) (hLe : requested ≤ history.length) :
    Answers wire history coordinator.canonical.deletedMaxLsn requested (coordinator.subscribe requested) := by
  unfold Coordinator.subscribe
  split_ifs with hServed
  · have hDeleted : coordinator.canonical.deletedMaxLsn ≤ requested := by
      simpa [Coordinator.canServeFrom, CanonicalWal.canServeFrom] using hServed
    refine .served _ _ (follows_subscribe hLe hDeleted _ _) ⟨?_, fun event hEvent => ?_⟩
    · simp [NodeConnection.subscribe, NodeConnection.enqueue, enqueueTask]
    · have hMarker : event = .keepalive coordinator.lastLsn coordinator.metaState.generation := by
        simpa [NodeConnection.subscribe, NodeConnection.enqueue, enqueueTask] using hEvent
      rw [hMarker]
      trivial
  · exact .refused _ rfl

theorem enqueue (h : Answers wire history deletedMaxLsn requested c)
    (hMessages : messages history' = messages history ++ gained event) {deletedMaxLsn' : Nat}
    (hKept : ∀ cursor, c.readCursor = some cursor → deletedMaxLsn' ≤ cursor) (hAgrees : event.Agrees wire) :
    Answers wire history' deletedMaxLsn' requested (c.enqueue event) := by
  cases h with
  | refused generation eq =>
      subst eq
      exact .refused generation rfl
  | served subscribed p follows carries =>
      refine .served subscribed p (follows.enqueue hMessages hKept) ?_
      unfold NodeConnection.enqueue enqueueTask
      split_ifs
      · exact carries
      · refine ⟨carries.written, fun other hOther => ?_⟩
        rcases List.mem_append.mp hOther with hOld | hNew
        · exact carries.queued other hOld
        · cases List.mem_singleton.mp hNew
          exact hAgrees

theorem kept (h : Answers wire history deletedMaxLsn requested c) :
    ∀ cursor, c.readCursor = some cursor → deletedMaxLsn ≤ cursor := by
  cases h with
  | refused generation eq =>
      subst eq
      intro cursor hCursor
      cases hCursor
  | served subscribed p follows carries => exact follows.kept

theorem work {coordinator : Coordinator}
    (h : Answers wire history coordinator.canonical.deletedMaxLsn requested c)
    (hEndures : coordinator.Endures segments history) (hWork : c.work coordinator = some d) :
    Answers wire history coordinator.canonical.deletedMaxLsn requested d := by
  cases h with
  | refused generation eq =>
      subst eq
      cases hWork
  | served subscribed p follows carries =>
      obtain ⟨p', hFollows⟩ := follows.work hEndures hWork
      exact .served subscribed p' hFollows (carries.work follows hEndures hWork)

theorem close (h : Answers wire history deletedMaxLsn requested c) :
    Answers wire history deletedMaxLsn requested c.close := by
  cases h with
  | refused generation eq =>
      subst eq
      exact .refused generation rfl
  | served subscribed p follows carries =>
      exact .served subscribed p follows.close ⟨carries.written, carries.queued⟩

/-- What was written continues the log. -/
theorem continues {coordinator : Coordinator} (h : Answers wire history deletedMaxLsn requested c)
    (hEndures : coordinator.Endures segments history) :
    Continues history requested (c.written.map (outboundToStreamEvent wire)) := by
  cases h with
  | refused generation eq =>
      subst eq
      exact continues_resnapshot history requested _
  | served subscribed p follows carries =>
      constructor
      · refine ⟨p - requested, ?_⟩
        rw [List.filterMap_map, ← Subscription.lsns_written hEndures follows.wrote]
        exact List.filterMap_congr fun event _ => lsn_outboundToStreamEvent wire event
      · intro delivered hDelivered
        obtain ⟨event, hEvent, rfl⟩ := List.mem_map.mp hDelivered
        cases hCanonical : event.isCanonical with
        | false =>
            cases event with
            | entry | rotate => cases hCanonical
            | keepalive | resnapshot => trivial
        | true =>
            refine logged_outboundToStreamEvent ?_ (carries.written event hEvent)
            have hMem : event.wellFormed ∈
                (c.written.filter OutboundEvent.isCanonical).map OutboundEvent.wellFormed :=
              List.mem_map_of_mem (List.mem_filter.mpr ⟨hEvent, hCanonical⟩)
            rw [follows.wrote.canonical] at hMem
            exact List.mem_of_mem_take (List.mem_of_mem_drop hMem)

end Answers

end NodeConnection

end TokenRevoker
