import TokenRevoker.Library.Transition
import TokenRevoker.Server.CoordinatorLives
import TokenRevoker.Server.LsnContiguity

/-! What a subscribed node is sent. Everything goes through one promise chain for each
connection: first a task that drains the backlog from the log, batch by batch, and behind
it the events that the coordinator has broadcast meanwhile. -/
namespace TokenRevoker

open Text LsnContiguity

/-- `toStreamEvent`: a tombstone is delivered as the entry it stands for. -/
def CanonicalEvent.message : CanonicalEvent → OutboundEvent
  | .entry lsn generation item | .tombstone lsn generation item => .entry lsn generation item
  | .rotate lsn generation => .rotate lsn generation

/-- The message as UTF-8, which the log and the wire are written in. -/
def OutboundEvent.wellFormed : OutboundEvent → OutboundEvent
  | .entry lsn generation item => .entry lsn generation (toWellFormed item)
  | event => event

/-- The message of an entry or a marker. -/
def OutboundEvent.isCanonical (event : OutboundEvent) : Bool := (lsnOf event).isSome

/-- The message that belongs to a record of the log. -/
def recordMessage (history : List LogRecord) : LogRecord → OutboundEvent
  | (lsn, .entry item) => .entry lsn (generationAt history lsn) item
  | (lsn, .rotate generation) => .rotate lsn generation

/-- The messages of the whole log. -/
def messages (history : List LogRecord) : List OutboundEvent := history.map (recordMessage history)

/-- `DRAIN_BATCH_SIZE`. -/
def drainBatchSize : Nat := 1000

/-- A task of the write chain: the rest of the backlog drain, with what is left of its
last batch, or one event. -/
inductive WriteTask where
  | drain (fromLsn : Nat) (batch : List CanonicalEvent)
  | write (event : OutboundEvent)
  deriving DecidableEq

/-- `NodeConnectionImpl`. The first task is running; it is `waiting` when its message was
handed to the call and the chain waits for the kernel buffer. -/
structure NodeConnection where
  lastWrittenLsn : Nat
  tasks : List WriteTask := []
  waiting : Bool := false
  closed : Bool := false
  /-- What `call.write` was called with. -/
  written : List OutboundEvent := []
  deriving DecidableEq

namespace NodeConnection

def enqueueTask (c : NodeConnection) (task : WriteTask) : NodeConnection :=
  if c.closed then c else { c with tasks := c.tasks ++ [task] }

def enqueue (c : NodeConnection) (event : OutboundEvent) : NodeConnection :=
  c.enqueueTask (.write event)

def close (c : NodeConnection) : NodeConnection := { c with closed := true }

/-- `Subscribe` on a log that can serve the LSN: the drain, and the marker behind it. -/
def subscribe (requestedLsn coordinatorLastLsn generation : Nat) : NodeConnection :=
  ({ lastWrittenLsn := requestedLsn : NodeConnection }.enqueueTask (.drain requestedLsn [])).enqueue
    (.keepalive coordinatorLastLsn generation)

/-- The first task up to its next `await`, or from there on: `writeDirect` and the loop of
the drain, or `#write`. -/
def work (c : NodeConnection) (coordinator : Coordinator) : Option NodeConnection :=
  match c.tasks with
  | [] => none
  | .drain fromLsn [] :: rest =>
      if c.closed then some { c with tasks := rest }
      else match coordinator.readSince fromLsn drainBatchSize with
      | .error _ => some { c with tasks := rest, closed := true }
      | .ok [] => some { c with tasks := rest }
      | .ok batch => some { c with tasks := .drain fromLsn batch :: rest }
  | .drain _ (event :: batch) :: rest =>
      if c.waiting then some { c with
        lastWrittenLsn := event.lsn
        tasks := .drain event.lsn batch :: rest
        waiting := false }
      else if c.closed then some { c with tasks := rest }
      else some { c with written := c.written ++ [event.message], waiting := true }
  | .write event :: rest =>
      if c.waiting then some { c with
        lastWrittenLsn := (lsnOf event).getD c.lastWrittenLsn
        tasks := rest
        waiting := false }
      else if c.closed then some { c with tasks := rest }
      else if (lsnOf event).any (· ≤ c.lastWrittenLsn) then some { c with tasks := rest }
      else some { c with written := c.written ++ [event], waiting := true }

/-- The broadcast event that the chain hands to the call next: the drain has not covered it. -/
def nextWrite (c : NodeConnection) : Option OutboundEvent :=
  match c.closed, c.waiting, c.tasks with
  | false, false, .write event :: _ => if (lsnOf event).any (· ≤ c.lastWrittenLsn) then none else some event
  | _, _, _ => none

/-- Up to where an unfinished drain has read the log. -/
def readCursor (c : NodeConnection) : Option Nat :=
  match c.closed, c.tasks with
  | false, .drain fromLsn batch :: _ => some ((batch.map CanonicalEvent.lsn).getLastD fromLsn)
  | _, _ => none

end NodeConnection

/-- One connection next to the coordinator. -/
structure Subscription where
  log : LoggedCoordinator
  connection : NodeConnection
  deriving DecidableEq

namespace Subscription

inductive Action where
  | add (item : JsString) (applied : Except RevokerError Unit)
  | rotation (unlinkFails : Nat → Bool)
  | keepalive
  | work
  | close

/-- The broadcast of what the coordinator has passed to its listener since. -/
def broadcast (s : Subscription) (log : LoggedCoordinator) : Subscription where
  log := log
  connection :=
    (log.coordinator.sent.drop s.log.coordinator.sent.length).foldl NodeConnection.enqueue s.connection

def step (s : Subscription) : Action → Option Subscription
  | .add item applied => some (s.broadcast (s.log.add applied item))
  | .rotation unlinkFails => some (s.broadcast (s.log.rotation unlinkFails))
  | .keepalive => some { s with
      connection := s.connection.enqueue
        (.keepalive s.log.coordinator.lastLsn s.log.coordinator.metaState.generation) }
  | .work => (s.connection.work s.log.coordinator).map fun connection => { s with connection := connection }
  | .close => some { s with connection := s.connection.close }

/-- `Subscribe`. -/
def start (log : LoggedCoordinator) (requestedLsn : Nat) : Subscription where
  log := log
  connection := .subscribe requestedLsn log.coordinator.lastLsn log.coordinator.metaState.generation

/-- Retention deletes nothing that the unfinished drain has yet to read. -/
def Retains (s : Subscription) : Action → Prop
  | .rotation unlinkFails => ∀ cursor ∈ s.connection.readCursor,
      (s.log.rotation unlinkFails).coordinator.canonical.deletedMaxLsn ≤ cursor
  | _ => True

instance (s : Subscription) : (a : Action) → Decidable (s.Retains a)
  | .rotation unlinkFails => inferInstanceAs (Decidable (∀ cursor ∈ s.connection.readCursor,
      (s.log.rotation unlinkFails).coordinator.canonical.deletedMaxLsn ≤ cursor))
  | .add _ _ | .keepalive | .work | .close => inferInstanceAs (Decidable True)

/-- An event that is written as it was broadcast has an item without lone surrogates: the
broadcast has the item of the call, the log has it as UTF-8. -/
def WritesPlain (s : Subscription) : Action → Prop
  | .work => ∀ event ∈ s.connection.nextWrite, event.wellFormed = event
  | _ => True

instance (s : Subscription) : (a : Action) → Decidable (s.WritesPlain a)
  | .work => inferInstanceAs (Decidable (∀ event ∈ s.connection.nextWrite, event.wellFormed = event))
  | .add _ _ | .rotation _ | .keepalive | .close => inferInstanceAs (Decidable True)

/-- The messages that are written, but for keepalives, are those of the log from the LSN
after the requested one on, each once and in order, and no keepalive is written before
everything that was in the log at the subscription. -/
def InOrder (requestedLsn subscribed : Nat) (s : Subscription) : Prop :=
  (∃ p, requestedLsn ≤ p ∧ p ≤ s.log.coordinator.lastLsn ∧
    s.connection.written.filterMap lsnOf = List.range' (requestedLsn + 1) (p - requestedLsn) ∧
    s.connection.written.filter OutboundEvent.isCanonical =
      ((messages s.log.history).take p).drop requestedLsn) ∧
  ∀ k lastLsn generation, s.connection.written[k]? = some (.keepalive lastLsn generation) →
    ∀ lsn, requestedLsn < lsn → lsn ≤ subscribed →
      lsn ∈ (s.connection.written.take k).filterMap lsnOf

end Subscription

section Messages

variable {history : List LogRecord} {segments : List Segment} {c : Coordinator} {p : Nat}

@[simp] theorem lsnOf_wellFormed (event : OutboundEvent) : lsnOf event.wellFormed = lsnOf event := by
  cases event <;> rfl

@[simp] theorem length_messages (history : List LogRecord) : (messages history).length = history.length :=
  List.length_map _

@[simp] theorem lsnOf_message (event : CanonicalEvent) : lsnOf event.message = some event.lsn := by
  cases event <;> rfl

@[simp] theorem isCanonical_message (event : CanonicalEvent) : event.message.isCanonical = true := by
  cases event <;> rfl

theorem lsnOf_recordMessage (history : List LogRecord) (r : LogRecord) :
    lsnOf (recordMessage history r) = some r.1 := by
  obtain ⟨lsn, payload⟩ := r
  cases payload <;> rfl

/-- A new record leaves the older messages as they were. -/
theorem messages_append {r : LogRecord} (hNew : ∀ old ∈ history, old.1 < r.1) :
    messages (history ++ [r]) = messages history ++ [recordMessage (history ++ [r]) r] := by
  have hOld : history.map (recordMessage (history ++ [r])) = messages history := by
    refine List.map_congr_left fun old hMem => ?_
    obtain ⟨lsn, payload⟩ := old
    cases payload with
    | entry item => rw [recordMessage, recordMessage, generationAt_append_of_lt (hNew _ hMem)]
    | rotate generation => rfl
  rw [messages, List.map_append, hOld, List.map_singleton]

namespace Coordinator.Endures

/-- The message at position `p` has the LSN `p + 1`. -/
theorem map_lsnOf_drop (h : c.Endures segments history) (p : Nat) :
    ((messages history).drop p).map lsnOf = (List.range' (p + 1) (history.length - p)).map some := by
  have hLsns : (messages history).map lsnOf = (List.range' 1 history.length).map some := by
    rw [messages, List.map_map, ← h.lsns, List.map_map]
    exact List.map_congr_left fun r _ => lsnOf_recordMessage history r
  rw [List.map_drop, hLsns, ← List.map_drop, List.drop_range']
  simp [Nat.add_comm]

theorem lsnOf_of_drop (h : c.Endures segments history) {message : OutboundEvent} {rest : List OutboundEvent}
    (hDrop : message :: rest <+: (messages history).drop p) :
    lsnOf message = some (p + 1) ∧ p < history.length := by
  have hLt : p < history.length := by
    have hLength := hDrop.length_le
    simp only [List.length_cons, List.length_drop, length_messages] at hLength
    omega
  refine ⟨?_, hLt⟩
  have hMap := hDrop.map lsnOf
  obtain ⟨count, hCount⟩ := Nat.exists_eq_add_of_lt hLt
  rw [h.map_lsnOf_drop, hCount, show p + count + 1 - p = count + 1 by omega, List.range'_succ,
    List.map_cons, List.map_cons] at hMap
  exact (List.cons_prefix_cons.mp hMap).1

/-- What a read returns is the log from that LSN on, generations and all. -/
theorem readSince_messages (h : c.Endures segments history) {fromLsn : Nat}
    (hServed : c.canServeFrom fromLsn = true) (maxEvents : Nat) :
    ∃ events, c.readSince fromLsn maxEvents = .ok events ∧
      events.map CanonicalEvent.message = page maxEvents ((messages history).drop fromLsn) := by
  obtain ⟨events, hRead, hMap⟩ := h.readSince hServed maxEvents
  refine ⟨events, hRead, ?_⟩
  have hEvents : ∀ event ∈ events, event.message = recordMessage history event.record := by
    intro event hEvent
    have hFile := (CanonicalWal.mem_readSince hRead hEvent).1
    rw [CanonicalWal.events, h.live.holds.events] at hFile
    obtain ⟨segment, hSegment, hMem⟩ := List.mem_flatMap.mp hFile
    have hStamp := h.stamped.events segment hSegment event hMem
    cases event with
    | entry | tombstone =>
        rw [CanonicalEvent.message, CanonicalEvent.record, recordMessage]
        exact congrArg₂ _ hStamp rfl
    | rotate => rfl
  have hPage : page maxEvents ((messages history).drop fromLsn) =
      (page maxEvents (history.drop fromLsn)).map (recordMessage history) := by
    rw [messages, ← List.map_drop, page, page]
    split_ifs
    · rw [List.map_take]
    · rfl
  rw [hPage, ← h.filter_eq_drop, ← hMap, List.map_map]
  exact List.map_congr_left hEvents

end Coordinator.Endures

end Messages

/-- One more record is in the log, and its event was passed to the listener. -/
structure LoggedCoordinator.Publishes (c c' : LoggedCoordinator) (r : LogRecord) (event : OutboundEvent) :
    Prop where
  history : c'.history = c.history ++ [r]
  lsn : r.1 = c.history.length + 1
  sent : c'.coordinator.sent = c.coordinator.sent ++ [event]
  message : event.wellFormed = recordMessage c'.history r

namespace LoggedCoordinator

variable {c : LoggedCoordinator} {segments : List Segment}

theorem add_publishes (h : c.coordinator.Endures segments c.history) (applied : Except RevokerError Unit)
    (item : JsString) : c.add applied item = c ∨
      (∃ r, c.Publishes (c.add applied item) r
        (.entry c.coordinator.canonical.nextLsn c.coordinator.canonical.generation item)) ∧
      (c.add applied item).coordinator.canonical.deletedMaxLsn = c.coordinator.canonical.deletedMaxLsn := by
  rw [add, Coordinator.entryRecords]
  by_cases hItem : Acceptable item
  · right
    rw [if_pos hItem, Coordinator.add_sent h.live hItem (Or.inr rfl)]
    refine ⟨⟨_, rfl, h.next, rfl, ?_⟩, rfl⟩
    have hMarkers : markersOf (c.history ++ [(c.coordinator.canonical.nextLsn, .entry (toWellFormed item))]) =
        List.range' 1 c.coordinator.canonical.generation := by
      rw [markersOf_append, h.markers, h.live.generation]
      exact List.append_nil _
    rw [OutboundEvent.wellFormed, recordMessage, h.generationAt_next, hMarkers, List.length_range']
  · left
    rw [if_neg hItem, List.append_nil, Coordinator.add_refused hItem]

theorem rotation_publishes (h : c.coordinator.Endures segments c.history) (unlinkFails : Nat → Bool) :
    ∃ r, c.Publishes (c.rotation unlinkFails) r
      (.rotate c.coordinator.canonical.nextLsn (c.coordinator.metaState.generation + 1)) := by
  rw [rotation, Coordinator.rotation_sent h.live]
  exact ⟨_, rfl, h.next, rfl, rfl⟩

theorem Publishes.messages {c' : LoggedCoordinator} {r : LogRecord} {event : OutboundEvent}
    (hPublishes : c.Publishes c' r event) (h : c.coordinator.Endures segments c.history) :
    messages c'.history = messages c.history ++ [event.wellFormed] := by
  rw [hPublishes.message, hPublishes.history]
  refine messages_append fun old hOld => ?_
  have := h.le_length hOld
  have := hPublishes.lsn
  omega

end LoggedCoordinator

section Messages

variable {history : List LogRecord} {segments : List Segment} {c : Coordinator} {p : Nat}

/-- The log is written in UTF-8. -/
theorem Coordinator.Endures.wellFormed_of_mem (h : c.Endures segments history) {message : OutboundEvent}
    (hMem : message ∈ messages history) : message.wellFormed = message := by
  obtain ⟨⟨lsn, payload⟩, hRecord, rfl⟩ := List.mem_map.mp hMem
  cases payload with
  | entry item =>
      have hItem := (h.items lsn item hRecord).2
      rw [recordMessage, OutboundEvent.wellFormed, hItem]
  | rotate => rfl

end Messages

/-- What was written, but for keepalives, is the log between two positions; keepalives
come behind everything up to `subscribed`. -/
structure Wrote (history : List LogRecord) (requested subscribed p : Nat)
    (written : List OutboundEvent) : Prop where
  low : requested ≤ p
  high : p ≤ history.length
  canonical : (written.filter OutboundEvent.isCanonical).map OutboundEvent.wellFormed =
    ((messages history).take p).drop requested
  behind : ∀ k lastLsn generation, written[k]? = some (.keepalive lastLsn generation) →
    subscribed ≤ requested + ((written.take k).filter OutboundEvent.isCanonical).length

namespace Wrote

variable {history history' : List LogRecord} {requested subscribed p : Nat} {written : List OutboundEvent}
  {event : OutboundEvent}

theorem nil (hLe : requested ≤ history.length) : Wrote history requested subscribed requested [] where
  low := Nat.le_refl _
  high := hLe
  canonical := by simp
  behind := by simp

/-- A longer log begins with the same messages. -/
theorem grow (h : Wrote history requested subscribed p written) {more : List OutboundEvent}
    (hMessages : messages history' = messages history ++ more) :
    Wrote history' requested subscribed p written where
  low := h.low
  high := by
    have hLength := congrArg List.length hMessages
    rw [List.length_append, length_messages, length_messages] at hLength
    have := h.high
    omega
  canonical := by
    rw [h.canonical, hMessages, List.take_append_of_le_length]
    rw [length_messages]
    exact h.high
  behind := h.behind

theorem length_canonical (h : Wrote history requested subscribed p written) :
    (written.filter OutboundEvent.isCanonical).length = p - requested := by
  have hLength := congrArg List.length h.canonical
  rw [List.length_map, List.length_drop, List.length_take, length_messages, Nat.min_eq_left h.high] at hLength
  exact hLength

/-- The next message of the log is written. -/
theorem next (h : Wrote history requested subscribed p written) (hCanonical : event.isCanonical = true)
    (hNext : [event.wellFormed] <+: (messages history).drop p) :
    Wrote history requested subscribed (p + 1) (written ++ [event]) where
  low := Nat.le_succ_of_le h.low
  high := by
    have hLength := hNext.length_le
    rw [List.length_singleton, List.length_drop, length_messages] at hLength
    omega
  canonical := by
    have hTake : (messages history).take (p + 1) = (messages history).take p ++ [event.wellFormed] := by
      obtain ⟨rest, hRest⟩ := hNext
      rw [List.take_add, ← hRest]
      rfl
    have hLow : requested ≤ ((messages history).take p).length := by
      rw [List.length_take, length_messages, Nat.min_eq_left h.high]
      exact h.low
    rw [List.filter_append, List.map_append, h.canonical, hTake, List.drop_append_of_le_length hLow,
      List.filter_cons_of_pos hCanonical, List.filter_nil, List.map_singleton]
  behind := by
    intro k lastLsn generation hAt
    have hLt : k < written.length := by
      rcases Nat.lt_trichotomy k written.length with hLt | rfl | hGt
      · exact hLt
      · rw [List.getElem?_concat_length] at hAt
        cases hAt
        cases hCanonical
      · rw [List.getElem?_eq_none (by rw [List.length_append]; exact hGt)] at hAt
        cases hAt
    rw [List.getElem?_append_left hLt] at hAt
    rw [List.take_append_of_le_length (Nat.le_of_lt hLt)]
    exact h.behind k lastLsn generation hAt

/-- A keepalive is written once everything up to `subscribed` was. -/
theorem control (h : Wrote history requested subscribed p written) (hControl : event.isCanonical = false)
    (hSubscribed : subscribed ≤ p) : Wrote history requested subscribed p (written ++ [event]) where
  low := h.low
  high := h.high
  canonical := by
    rw [List.filter_append, List.filter_cons_of_neg (by simp [hControl]), List.filter_nil, List.append_nil,
      h.canonical]
  behind := by
    intro k lastLsn generation hAt
    rcases Nat.lt_or_ge k written.length with hLt | hGe
    · rw [List.getElem?_append_left hLt] at hAt
      rw [List.take_append_of_le_length (Nat.le_of_lt hLt)]
      exact h.behind k lastLsn generation hAt
    · have hLength := h.length_canonical
      have := h.low
      rw [List.take_append, List.take_of_length_le hGe, List.filter_append, List.length_append]
      omega

end Wrote

namespace NodeConnection

/-- What waits in the queue, but for keepalives, is the log from position `q` on. -/
def Queued (history : List LogRecord) (q : Nat) (tasks : List WriteTask) : Prop :=
  ∃ events : List OutboundEvent, tasks = events.map WriteTask.write ∧ q ≤ history.length ∧
    (events.filter OutboundEvent.isCanonical).map OutboundEvent.wellFormed = (messages history).drop q

/-- Where the chain is when the log was written up to position `p`. While it drains, it
need not have reached the position `subscribed` from which the queue goes on; afterwards
the queue may repeat what is written, but leaves nothing out. -/
inductive Phase (history : List LogRecord) (subscribed p : Nat) (c : NodeConnection) : Prop where
  | draining (batch : List CanonicalEvent) (rest : List WriteTask) (hTasks : c.tasks = .drain p batch :: rest)
      (hWaiting : c.waiting = false) (hWritten : c.lastWrittenLsn = p)
      (hBatch : batch.map CanonicalEvent.message <+: (messages history).drop p)
      (hQueue : Queued history subscribed rest)
  | blocked (fromLsn : Nat) (event : CanonicalEvent) (batch : List CanonicalEvent) (rest : List WriteTask)
      (hTasks : c.tasks = .drain fromLsn (event :: batch) :: rest) (hWaiting : c.waiting = true)
      (hEvent : event.lsn = p) (hBatch : batch.map CanonicalEvent.message <+: (messages history).drop p)
      (hQueue : Queued history subscribed rest)
  | live (q : Nat) (hWaiting : c.waiting = false) (hWritten : c.lastWrittenLsn = p)
      (hQueue : Queued history q c.tasks) (hQ : q ≤ p) (hSubscribed : subscribed ≤ p)
  | writing (event : OutboundEvent) (rest : List WriteTask) (q : Nat)
      (hTasks : c.tasks = .write event :: rest) (hWaiting : c.waiting = true)
      (hWritten : (lsnOf event).getD c.lastWrittenLsn = p) (hQueue : Queued history q rest) (hQ : q ≤ p)
      (hSubscribed : subscribed ≤ p)

/-- The log is written up to position `p`, and the drain can read on from where it is. -/
structure Follows (history : List LogRecord) (deletedMaxLsn requested subscribed p : Nat)
    (c : NodeConnection) : Prop where
  wrote : Wrote history requested subscribed p c.written
  kept : ∀ cursor, c.readCursor = some cursor → deletedMaxLsn ≤ cursor
  phase : c.closed = false → c.Phase history subscribed p

variable {c d : NodeConnection} {history history' : List LogRecord} {segments : List Segment}
  {deletedMaxLsn requested subscribed p q : Nat} {event : OutboundEvent}

/-- What the queue gains from an event: nothing from a keepalive. -/
def gained (event : OutboundEvent) : List OutboundEvent :=
  if event.isCanonical then [event.wellFormed] else []

theorem Queued.concat {tasks : List WriteTask} (h : Queued history q tasks)
    (hMessages : messages history' = messages history ++ gained event) :
    Queued history' q (tasks ++ [.write event]) := by
  obtain ⟨events, rfl, hQ, hEvents⟩ := h
  have hLength := congrArg List.length hMessages
  rw [List.length_append, length_messages, length_messages] at hLength
  refine ⟨events ++ [event], by simp, by omega, ?_⟩
  rw [List.filter_append, List.map_append, hEvents, hMessages,
    List.drop_append_of_le_length (by rwa [length_messages])]
  cases event <;> rfl

/-- The next canonical event of the queue is the next message of the log. -/
theorem Queued.cons {rest : List WriteTask} (h : Queued history q (.write event :: rest)) :
    event.isCanonical = true ∧ [event.wellFormed] <+: (messages history).drop q ∧
      Queued history (q + 1) rest ∨
      event.isCanonical = false ∧ Queued history q rest := by
  obtain ⟨events, hTasks, hQ, hEvents⟩ := h
  cases events with
  | nil => cases hTasks
  | cons head events =>
      cases hTasks
      cases hCanonical : event.isCanonical with
      | false =>
          rw [List.filter_cons_of_neg (by simp [hCanonical])] at hEvents
          exact Or.inr ⟨rfl, events, rfl, hQ, hEvents⟩
      | true =>
          rw [List.filter_cons_of_pos hCanonical, List.map_cons] at hEvents
          have hLength := congrArg List.length hEvents
          rw [List.length_cons, List.length_drop, length_messages] at hLength
          have hTail := congrArg List.tail hEvents
          rw [List.tail_cons, List.tail_drop] at hTail
          exact Or.inl ⟨rfl, ⟨_, hEvents⟩, events, rfl, by omega, hTail⟩

theorem enqueue_open (hClosed : c.closed = false) (event : OutboundEvent) :
    c.enqueue event = { c with tasks := c.tasks ++ [.write event] } := by
  rw [enqueue, enqueueTask, if_neg (by simp [hClosed])]

theorem enqueue_closed (hClosed : c.closed = true) (event : OutboundEvent) : c.enqueue event = c := by
  rw [enqueue, enqueueTask, if_pos hClosed]

theorem readCursor_enqueue (c : NodeConnection) (event : OutboundEvent) :
    (c.enqueue event).readCursor = c.readCursor := by
  cases hClosed : c.closed with
  | true => rw [enqueue_closed hClosed]
  | false =>
      rw [enqueue_open hClosed, readCursor, readCursor, hClosed]
      cases hTasks : c.tasks with
      | nil => rfl
      | cons task rest => cases task <;> rfl

/-- An event joins the queue when its record joins the log. -/
theorem Phase.concat (h : c.Phase history subscribed p)
    (hMessages : messages history' = messages history ++ gained event) :
    Phase history' subscribed p { c with tasks := c.tasks ++ [.write event] } := by
  have hPrefix : (messages history).drop p <+: (messages history').drop p := by
    rw [hMessages, List.drop_append]
    exact List.prefix_append _ _
  cases h with
  | draining batch rest hTasks hWaiting hWritten hBatch hQueue =>
      exact .draining batch _ (by rw [hTasks]; rfl) hWaiting hWritten (hBatch.trans hPrefix)
        (hQueue.concat hMessages)
  | blocked fromLsn head batch rest hTasks hWaiting hEvent hBatch hQueue =>
      exact .blocked fromLsn head batch _ (by rw [hTasks]; rfl) hWaiting hEvent (hBatch.trans hPrefix)
        (hQueue.concat hMessages)
  | live q hWaiting hWritten hQueue hQ hSubscribed =>
      exact .live q hWaiting hWritten (hQueue.concat hMessages) hQ hSubscribed
  | writing head rest q hTasks hWaiting hWritten hQueue hQ hSubscribed =>
      exact .writing head _ q (by rw [hTasks]; rfl) hWaiting hWritten (hQueue.concat hMessages) hQ hSubscribed

theorem Follows.enqueue (h : Follows history deletedMaxLsn requested subscribed p c)
    (hMessages : messages history' = messages history ++ gained event) {deletedMaxLsn' : Nat}
    (hKept : ∀ cursor, c.readCursor = some cursor → deletedMaxLsn' ≤ cursor) :
    Follows history' deletedMaxLsn' requested subscribed p (c.enqueue event) where
  wrote := by
    have hWrote := h.wrote.grow hMessages
    rw [NodeConnection.enqueue, enqueueTask]
    split_ifs
    · exact hWrote
    · exact hWrote
  kept := by
    rw [readCursor_enqueue]
    exact hKept
  phase := by
    intro hOpen
    cases hClosed : c.closed with
    | true =>
        rw [enqueue_closed hClosed, hClosed] at hOpen
        cases hOpen
    | false =>
        rw [enqueue_open hClosed]
        exact (h.phase hClosed).concat hMessages

theorem Follows.close (h : Follows history deletedMaxLsn requested subscribed p c) :
    Follows history deletedMaxLsn requested subscribed p c.close where
  wrote := h.wrote
  kept := by
    intro cursor hCursor
    simp [NodeConnection.close, readCursor] at hCursor
  phase := by
    intro hOpen
    cases hOpen

theorem follows_subscribe (hLe : requested ≤ history.length) (hDeleted : deletedMaxLsn ≤ requested)
    (lastLsn generation : Nat) :
    Follows history deletedMaxLsn requested history.length requested
      (subscribe requested lastLsn generation) where
  wrote := .nil hLe
  kept := by
    intro cursor hCursor
    cases hCursor
    exact hDeleted
  phase := by
    intro _
    have hQueue : Queued history history.length [.write (.keepalive lastLsn generation)] := by
      refine ⟨[.keepalive lastLsn generation], rfl, Nat.le_refl _, ?_⟩
      rw [List.drop_of_length_le (by rw [length_messages])]
      rfl
    exact .draining [] _ rfl rfl rfl (List.nil_prefix) hQueue

/-- A closed connection only clears its queue. -/
theorem work_closed {coordinator : Coordinator} (hClosed : c.closed = true)
    (hWork : c.work coordinator = some d) : d.closed = true ∧ d.written = c.written := by
  rw [work] at hWork
  split at hWork
  · cases hWork
  · rw [if_pos hClosed] at hWork
    cases hWork
    exact ⟨hClosed, rfl⟩
  · split_ifs at hWork
    · cases hWork
      exact ⟨hClosed, rfl⟩
    · cases hWork
      exact ⟨hClosed, rfl⟩
  · split_ifs at hWork
    · cases hWork
      exact ⟨hClosed, rfl⟩
    · cases hWork
      exact ⟨hClosed, rfl⟩

/-- The read cursor of a drain that goes on with another batch. -/
theorem readCursor_drain {fromLsn : Nat} {batch : List CanonicalEvent} {rest : List WriteTask}
    (hClosed : c.closed = false) (hTasks : c.tasks = .drain fromLsn batch :: rest) :
    c.readCursor = some ((batch.map CanonicalEvent.lsn).getLastD fromLsn) := by
  rw [readCursor, hClosed, hTasks]

theorem readCursor_write {rest : List WriteTask} (hTasks : c.tasks = .write event :: rest) :
    c.readCursor = none := by
  rw [readCursor, hTasks]
  cases c.closed <;> rfl

/-- A queue that can go on begins with an event. -/
theorem Queued.exists_write {coordinator : Coordinator} (h : Queued history q c.tasks)
    (hWork : c.work coordinator = some d) : ∃ event rest, c.tasks = .write event :: rest := by
  obtain ⟨events, hTasks, -⟩ := h
  cases events with
  | nil => simp [work, hTasks] at hWork
  | cons event events => exact ⟨event, _, hTasks⟩

theorem Queued.readCursor (h : Queued history q c.tasks) : c.readCursor = none := by
  obtain ⟨events, hTasks, -⟩ := h
  rw [NodeConnection.readCursor, hTasks]
  cases events <;> cases c.closed <;> rfl

/-- The LSNs of a batch follow on the position it was read from. -/
theorem lsn_batch {coordinator : Coordinator} (h : coordinator.Endures segments history)
    {batch : List CanonicalEvent}
    (hBatch : batch.map CanonicalEvent.message <+: (messages history).drop p) :
    batch.map CanonicalEvent.lsn = List.range' (p + 1) batch.length := by
  have hLsns : (batch.map CanonicalEvent.lsn).map some <+: (List.range' (p + 1) (history.length - p)).map some := by
    rw [← h.map_lsnOf_drop, List.map_map]
    have hMap := hBatch.map lsnOf
    rw [List.map_map] at hMap
    convert hMap using 2
    funext event
    exact (lsnOf_message event).symm
  rw [List.prefix_map_iff_of_injective (Option.some_injective _)] at hLsns
  rw [List.prefix_iff_eq_take.mp hLsns, List.length_map]
  exact List.take_range'_of_length_ge (by simpa using hLsns.length_le)

theorem work_read {coordinator : Coordinator} {fromLsn : Nat} {batch : List CanonicalEvent}
    {rest : List WriteTask} (hClosed : c.closed = false) (hTasks : c.tasks = .drain fromLsn [] :: rest)
    (hRead : coordinator.readSince fromLsn drainBatchSize = .ok batch) :
    c.work coordinator = some { c with
      tasks := if batch = [] then rest else .drain fromLsn batch :: rest } := by
  rw [work]
  simp only [hTasks]
  rw [if_neg (by simp [hClosed]), hRead]
  cases batch <;> rfl

theorem work_drain {coordinator : Coordinator} {fromLsn : Nat} {head : CanonicalEvent}
    {batch : List CanonicalEvent} {rest : List WriteTask} (hClosed : c.closed = false)
    (hWaiting : c.waiting = false) (hTasks : c.tasks = .drain fromLsn (head :: batch) :: rest) :
    c.work coordinator = some { c with written := c.written ++ [head.message], waiting := true } := by
  rw [work]
  simp only [hTasks]
  rw [if_neg (by simp [hWaiting]), if_neg (by simp [hClosed])]

theorem work_drained {coordinator : Coordinator} {fromLsn : Nat} {head : CanonicalEvent}
    {batch : List CanonicalEvent} {rest : List WriteTask}
    (hWaiting : c.waiting = true) (hTasks : c.tasks = .drain fromLsn (head :: batch) :: rest) :
    c.work coordinator = some { c with
      lastWrittenLsn := head.lsn
      tasks := .drain head.lsn batch :: rest
      waiting := false } := by
  rw [work]
  simp only [hTasks]
  rw [if_pos hWaiting]

theorem work_write {coordinator : Coordinator} {rest : List WriteTask} (hClosed : c.closed = false)
    (hWaiting : c.waiting = false) (hTasks : c.tasks = .write event :: rest) :
    c.work coordinator = some (if (lsnOf event).any (· ≤ c.lastWrittenLsn) then { c with tasks := rest }
      else { c with written := c.written ++ [event], waiting := true }) := by
  rw [work]
  simp only [hTasks]
  rw [if_neg (by simp [hWaiting]), if_neg (by simp [hClosed])]
  split_ifs <;> rfl

theorem work_wrote {coordinator : Coordinator} {rest : List WriteTask}
    (hWaiting : c.waiting = true) (hTasks : c.tasks = .write event :: rest) :
    c.work coordinator = some { c with
      lastWrittenLsn := (lsnOf event).getD c.lastWrittenLsn
      tasks := rest
      waiting := false } := by
  rw [work]
  simp only [hTasks]
  rw [if_pos hWaiting]

/-- What a step hands to the call: nothing, an event of the broadcast, or an event of a batch. -/
theorem work_written {coordinator : Coordinator} (hWork : c.work coordinator = some d) :
    (d.written = c.written ∧ c.nextWrite = none) ∨
      (∃ event, c.nextWrite = some event ∧ d.written = c.written ++ [event]) ∨
      ∃ fromLsn head batch rest, c.tasks = .drain fromLsn (head :: batch) :: rest ∧ c.waiting = false ∧
        c.closed = false ∧ d.written = c.written ++ [head.message] := by
  cases hTasks : c.tasks with
  | nil =>
      rw [work] at hWork
      simp [hTasks] at hWork
  | cons task rest =>
      cases task with
      | drain fromLsn batch =>
          have hNone : c.nextWrite = none := by simp [nextWrite, hTasks]
          cases batch with
          | nil =>
              refine Or.inl ⟨?_, hNone⟩
              rw [work] at hWork
              simp only [hTasks] at hWork
              split_ifs at hWork with hClosed
              · cases hWork
                rfl
              · split at hWork <;> cases hWork <;> rfl
          | cons head batch =>
              cases hWaiting : c.waiting with
              | true =>
                  rw [work_drained hWaiting hTasks] at hWork
                  cases hWork
                  exact Or.inl ⟨rfl, hNone⟩
              | false =>
                  cases hClosed : c.closed with
                  | true => exact Or.inl ⟨(work_closed hClosed hWork).2, hNone⟩
                  | false =>
                      rw [work_drain hClosed hWaiting hTasks] at hWork
                      cases hWork
                      exact Or.inr (Or.inr ⟨fromLsn, head, batch, rest, rfl, rfl, rfl, rfl⟩)
      | write event =>
          cases hWaiting : c.waiting with
          | true =>
              rw [work_wrote hWaiting hTasks] at hWork
              cases hWork
              exact Or.inl ⟨rfl, by simp [nextWrite, hWaiting]⟩
          | false =>
              cases hClosed : c.closed with
              | true => exact Or.inl ⟨(work_closed hClosed hWork).2, by simp [nextWrite, hClosed]⟩
              | false =>
                  rw [work_write hClosed hWaiting hTasks] at hWork
                  cases hWork
                  split_ifs with hCovered
                  · exact Or.inl ⟨rfl, by simp [nextWrite, hClosed, hWaiting, hTasks, hCovered]⟩
                  · exact Or.inr (Or.inl ⟨event, by simp [nextWrite, hClosed, hWaiting, hTasks, hCovered], rfl⟩)

/-- What a step of the chain writes: nothing, the next message of the log, or a keepalive
once everything up to `subscribed` is written. -/
inductive Progress (history : List LogRecord) (subscribed p : Nat) (c d : NodeConnection) : Nat → Prop where
  | silent (hWritten : d.written = c.written) (hPhase : d.Phase history subscribed p) :
      Progress history subscribed p c d p
  | next (event : OutboundEvent) (hCanonical : event.isCanonical = true)
      (hNext : [event.wellFormed] <+: (messages history).drop p)
      (hWritten : d.written = c.written ++ [event]) (hPhase : d.Phase history subscribed (p + 1)) :
      Progress history subscribed p c d (p + 1)
  | control (event : OutboundEvent) (hControl : event.isCanonical = false) (hSubscribed : subscribed ≤ p)
      (hWritten : d.written = c.written ++ [event]) (hPhase : d.Phase history subscribed p) :
      Progress history subscribed p c d p

/-- The drain reads its next batch, or finds that it has reached the end of the log. -/
theorem Progress.read {coordinator : Coordinator} {rest : List WriteTask}
    (hEndures : coordinator.Endures segments history) (hServed : coordinator.canServeFrom p = true)
    (hClosed : c.closed = false) (hTasks : c.tasks = .drain p [] :: rest) (hWaiting : c.waiting = false)
    (hWritten : c.lastWrittenLsn = p) (hQueue : Queued history subscribed rest)
    (hWork : c.work coordinator = some d) : Progress history subscribed p c d p := by
  obtain ⟨batch, hRead, hMessages⟩ := hEndures.readSince_messages hServed drainBatchSize
  rw [page, if_pos (by decide)] at hMessages
  rw [work_read hClosed hTasks hRead] at hWork
  cases hWork
  by_cases hEmpty : batch = []
  · rw [if_pos hEmpty]
    have hEnd : history.length ≤ p := by
      have hLength := congrArg List.length hMessages
      rw [hEmpty, List.map_nil, List.length_take, List.length_drop, length_messages, drainBatchSize,
        List.length_nil] at hLength
      omega
    have hSubscribed : subscribed ≤ p := by
      obtain ⟨_, _, hQ, _⟩ := hQueue
      omega
    exact .silent rfl (.live subscribed hWaiting hWritten hQueue hSubscribed hSubscribed)
  · rw [if_neg hEmpty]
    have hBatch : batch.map CanonicalEvent.message <+: (messages history).drop p := by
      rw [hMessages]
      exact List.take_prefix _ _
    exact .silent rfl (.draining batch rest rfl hWaiting hWritten hBatch hQueue)

/-- An event is written unless the drain has covered it. -/
theorem Progress.live {coordinator : Coordinator} {rest : List WriteTask}
    (hEndures : coordinator.Endures segments history) (hClosed : c.closed = false)
    (hWaiting : c.waiting = false) (hWritten : c.lastWrittenLsn = p) (hTasks : c.tasks = .write event :: rest)
    (hQueue : Queued history q (.write event :: rest)) (hQ : q ≤ p) (hSubscribed : subscribed ≤ p)
    (hWork : c.work coordinator = some d) : ∃ p', Progress history subscribed p c d p' := by
  rw [work_write hClosed hWaiting hTasks] at hWork
  cases hWork
  rcases hQueue.cons with ⟨hCanonical, hNext, hRest⟩ | ⟨hControl, hRest⟩
  · have hLsn := (hEndures.lsnOf_of_drop hNext).1
    rw [lsnOf_wellFormed] at hLsn
    by_cases hCovered : q + 1 ≤ p
    · rw [if_pos (by simpa [hLsn, hWritten] using hCovered)]
      exact ⟨p, .silent rfl (.live (q + 1) hWaiting hWritten hRest hCovered hSubscribed)⟩
    · rw [if_neg (by simpa [hLsn, hWritten] using hCovered)]
      obtain rfl : q = p := by omega
      exact ⟨q + 1, .next event hCanonical hNext rfl (.writing event rest (q + 1) hTasks rfl
        (by rw [hLsn]; rfl) hRest (Nat.le_refl _) (Nat.le_succ_of_le hSubscribed))⟩
  · have hLsn : lsnOf event = none := by simpa [OutboundEvent.isCanonical] using hControl
    rw [if_neg (by simp [hLsn])]
    exact ⟨p, .control event hControl hSubscribed rfl
      (.writing event rest q hTasks rfl (by rw [hLsn]; exact hWritten) hRest hQ hSubscribed)⟩

/-- One step of the chain, where the drain reads only what the log can still serve. -/
theorem Phase.work {coordinator : Coordinator} (h : c.Phase history subscribed p) (hClosed : c.closed = false)
    (hEndures : coordinator.Endures segments history)
    (hServed : ∀ fromLsn rest, c.tasks = .drain fromLsn [] :: rest → coordinator.canServeFrom fromLsn = true)
    (hWork : c.work coordinator = some d) : ∃ p', Progress history subscribed p c d p' := by
  cases h with
  | draining batch rest hTasks hWaiting hWritten hBatch hQueue =>
      cases batch with
      | nil => exact ⟨p, .read hEndures (hServed p rest hTasks) hClosed hTasks hWaiting hWritten hQueue hWork⟩
      | cons head batch =>
          rw [work_drain hClosed hWaiting hTasks] at hWork
          cases hWork
          have hLsn := (hEndures.lsnOf_of_drop hBatch).1
          rw [lsnOf_message, Option.some_inj] at hLsn
          have hHead : head.message ∈ messages history :=
            List.mem_of_mem_drop (hBatch.subset List.mem_cons_self)
          have hNext : [head.message.wellFormed] <+: (messages history).drop p := by
            rw [hEndures.wellFormed_of_mem hHead]
            exact (List.prefix_append [head.message] (batch.map CanonicalEvent.message)).trans hBatch
          have hRest : batch.map CanonicalEvent.message <+: (messages history).drop (p + 1) := by
            have hTail := hBatch.drop 1
            rwa [List.drop_drop] at hTail
          exact ⟨p + 1, .next head.message (isCanonical_message head) hNext rfl
            (.blocked p head batch rest hTasks rfl hLsn hRest hQueue)⟩
  | blocked fromLsn head batch rest hTasks hWaiting hEvent hBatch hQueue =>
      rw [work_drained hWaiting hTasks] at hWork
      cases hWork
      exact ⟨p, .silent rfl (.draining batch rest (by rw [hEvent]) rfl hEvent hBatch hQueue)⟩
  | live q hWaiting hWritten hQueue hQ hSubscribed =>
      obtain ⟨event, rest, hTasks⟩ := hQueue.exists_write hWork
      rw [hTasks] at hQueue
      exact Progress.live hEndures hClosed hWaiting hWritten hTasks hQueue hQ hSubscribed hWork
  | writing event rest q hTasks hWaiting hWritten hQueue hQ hSubscribed =>
      rw [work_wrote hWaiting hTasks] at hWork
      cases hWork
      exact ⟨p, .silent rfl (.live q rfl hWritten hQueue hQ hSubscribed)⟩

/-- A drain reads on: what lay below where it has read stays below. -/
theorem Phase.kept_work {coordinator : Coordinator} (h : c.Phase history subscribed p)
    (hClosed : c.closed = false) (hEndures : coordinator.Endures segments history)
    (hServed : ∀ fromLsn rest, c.tasks = .drain fromLsn [] :: rest → coordinator.canServeFrom fromLsn = true)
    (hKept : ∀ cursor, c.readCursor = some cursor → deletedMaxLsn ≤ cursor)
    (hWork : c.work coordinator = some d) :
    ∀ cursor, d.readCursor = some cursor → deletedMaxLsn ≤ cursor := by
  intro cursor hCursor
  cases h with
  | draining batch rest hTasks hWaiting hWritten hBatch hQueue =>
      cases batch with
      | nil =>
          have hRead := hKept p (readCursor_drain hClosed hTasks)
          obtain ⟨batch, hEvents, hMessages⟩ :=
            hEndures.readSince_messages (hServed p rest hTasks) drainBatchSize
          rw [work_read hClosed hTasks hEvents] at hWork
          cases hWork
          by_cases hEmpty : batch = []
          · have hNone : readCursor { c with tasks := rest } = none :=
              Queued.readCursor (c := { c with tasks := rest }) hQueue
            rw [if_pos hEmpty, hNone] at hCursor
            cases hCursor
          · have hBatch : batch.map CanonicalEvent.message <+: (messages history).drop p := by
              rw [hMessages, page, if_pos (by decide)]
              exact List.take_prefix _ _
            rw [if_neg hEmpty, readCursor_drain (c := { c with tasks := .drain p batch :: rest }) hClosed rfl,
              lsn_batch hEndures hBatch, Option.some_inj] at hCursor
            obtain ⟨last, hLast⟩ := Nat.exists_eq_add_one.mpr (List.length_pos_of_ne_nil hEmpty)
            rw [hLast, List.range'_concat, List.getLastD_concat] at hCursor
            omega
      | cons head batch =>
          rw [work_drain hClosed hWaiting hTasks] at hWork
          cases hWork
          exact hKept cursor hCursor
  | blocked fromLsn head batch rest hTasks hWaiting hEvent hBatch hQueue =>
      rw [work_drained hWaiting hTasks] at hWork
      cases hWork
      refine hKept cursor ?_
      rw [readCursor_drain hClosed hTasks, List.map_cons, List.getLastD_cons, ← hCursor]
      simp [readCursor, hClosed]
  | live q hWaiting hWritten hQueue hQ hSubscribed =>
      obtain ⟨event, rest, hTasks⟩ := hQueue.exists_write hWork
      rw [work_write hClosed hWaiting hTasks] at hWork
      cases hWork
      rw [hTasks] at hQueue
      split_ifs at hCursor
      · have hRest : readCursor { c with tasks := rest } = none := by
          rcases hQueue.cons with ⟨-, -, hRest⟩ | ⟨-, hRest⟩ <;>
            exact Queued.readCursor (c := { c with tasks := rest }) hRest
        rw [hRest] at hCursor
        cases hCursor
      · rw [readCursor_write (c := { c with written := _, waiting := true }) hTasks] at hCursor
        cases hCursor
  | writing event rest q hTasks hWaiting hWritten hQueue hQ hSubscribed =>
      rw [work_wrote hWaiting hTasks] at hWork
      cases hWork
      have hNone : readCursor { c with
          lastWrittenLsn := (lsnOf event).getD c.lastWrittenLsn
          tasks := rest
          waiting := false } = none := hQueue.readCursor
      rw [hNone] at hCursor
      cases hCursor

/-- One step of the chain. -/
theorem Follows.work {coordinator : Coordinator}
    (h : Follows history coordinator.canonical.deletedMaxLsn requested subscribed p c)
    (hEndures : coordinator.Endures segments history) (hWork : c.work coordinator = some d) :
    ∃ p', Follows history coordinator.canonical.deletedMaxLsn requested subscribed p' d := by
  cases hClosed : c.closed with
  | true =>
      obtain ⟨hStays, hSame⟩ := work_closed hClosed hWork
      refine ⟨p, hSame ▸ h.wrote, fun cursor hCursor => ?_, fun hOpen => ?_⟩
      · rw [readCursor, hStays] at hCursor
        cases hCursor
      · rw [hStays] at hOpen
        cases hOpen
  | false =>
      have hServed : ∀ fromLsn rest, c.tasks = .drain fromLsn [] :: rest →
          coordinator.canServeFrom fromLsn = true := by
        intro fromLsn rest hTasks
        simpa [Coordinator.canServeFrom, CanonicalWal.canServeFrom] using
          h.kept fromLsn (readCursor_drain hClosed hTasks)
      have hKept := (h.phase hClosed).kept_work hClosed hEndures hServed h.kept hWork
      obtain ⟨p', hProgress⟩ := (h.phase hClosed).work hClosed hEndures hServed hWork
      refine ⟨p', ?_⟩
      cases hProgress with
      | silent hWritten hPhase => exact ⟨hWritten ▸ h.wrote, hKept, fun _ => hPhase⟩
      | next event hCanonical hNext hWritten hPhase =>
          exact ⟨hWritten ▸ h.wrote.next hCanonical hNext, hKept, fun _ => hPhase⟩
      | control event hControl hSubscribed hWritten hPhase =>
          exact ⟨hWritten ▸ h.wrote.control hControl hSubscribed, hKept, fun _ => hPhase⟩

end NodeConnection

/-- The queue gains what joins the log. -/
theorem LoggedCoordinator.Publishes.messages_gained {c c' : LoggedCoordinator} {segments : List Segment}
    {r : LogRecord} {event : OutboundEvent} (hPublishes : c.Publishes c' r event)
    (h : c.coordinator.Endures segments c.history) :
    TokenRevoker.messages c'.history = TokenRevoker.messages c.history ++ NodeConnection.gained event := by
  have hCanonical : event.isCanonical = true := by
    rw [OutboundEvent.isCanonical, ← lsnOf_wellFormed, hPublishes.message, lsnOf_recordMessage]
    rfl
  rw [hPublishes.messages h, NodeConnection.gained, if_pos hCanonical]

namespace Subscription

variable {s t : Subscription} {requested subscribed : Nat}

theorem broadcast_self (s : Subscription) {log : LoggedCoordinator}
    (hSent : log.coordinator.sent = s.log.coordinator.sent) : s.broadcast log = { s with log := log } := by
  rw [broadcast, hSent, List.drop_length]
  rfl

theorem broadcast_published {log : LoggedCoordinator} {r : LogRecord} {event : OutboundEvent}
    (h : s.log.Publishes log r event) :
    s.broadcast log = { log := log, connection := s.connection.enqueue event } := by
  rw [broadcast, h.sent, List.drop_left]
  rfl

/-- The connection follows the log of its coordinator. -/
def Delivers (requested subscribed : Nat) (s : Subscription) : Prop :=
  ∃ segments p, s.log.coordinator.Endures segments s.log.history ∧ s.connection.Follows s.log.history
    s.log.coordinator.canonical.deletedMaxLsn requested subscribed p

theorem Delivers.publish (h : s.Delivers requested subscribed) {log : LoggedCoordinator} {r : LogRecord}
    {event : OutboundEvent} (hPublishes : s.log.Publishes log r event)
    (hEndures : ∃ segments, log.coordinator.Endures segments log.history)
    (hKept : ∀ cursor, s.connection.readCursor = some cursor →
      log.coordinator.canonical.deletedMaxLsn ≤ cursor) :
    (s.broadcast log).Delivers requested subscribed := by
  obtain ⟨segments, p, hOld, hFollows⟩ := h
  obtain ⟨segments', hNew⟩ := hEndures
  rw [broadcast_published hPublishes]
  exact ⟨segments', p, hNew, hFollows.enqueue (hPublishes.messages_gained hOld) hKept⟩

theorem Delivers.step (h : s.Delivers requested subscribed) {a : Action} (hStep : s.step a = some t)
    (hRetains : s.Retains a) : t.Delivers requested subscribed := by
  obtain ⟨segments, p, hEndures, hFollows⟩ := h
  cases a with
  | add item applied =>
      cases hStep
      have hAfter : ∃ segments', (s.log.add applied item).coordinator.Endures segments' _ :=
        hEndures.add applied item
      rcases LoggedCoordinator.add_publishes hEndures applied item with hSame | ⟨⟨r, hPublishes⟩, hDeleted⟩
      · rw [hSame, broadcast_self s rfl]
        exact ⟨segments, p, hEndures, hFollows⟩
      · exact Delivers.publish ⟨segments, p, hEndures, hFollows⟩ hPublishes hAfter
          (by rw [hDeleted]; exact hFollows.kept)
  | rotation unlinkFails =>
      cases hStep
      obtain ⟨r, hPublishes⟩ := LoggedCoordinator.rotation_publishes hEndures unlinkFails
      exact Delivers.publish ⟨segments, p, hEndures, hFollows⟩ hPublishes
        (hEndures.rotation unlinkFails) hRetains
  | keepalive =>
      cases hStep
      exact ⟨segments, p, hEndures, hFollows.enqueue (List.append_nil _).symm hFollows.kept⟩
  | work =>
      obtain ⟨connection, hWork, rfl⟩ := Option.map_eq_some_iff.mp hStep
      obtain ⟨p', hFollows'⟩ := hFollows.work hEndures hWork
      exact ⟨segments, p', hEndures, hFollows'⟩
  | close =>
      cases hStep
      exact ⟨segments, p, hEndures, hFollows.close⟩

theorem Delivers.start {log : LoggedCoordinator} {segments : List Segment}
    (hEndures : log.coordinator.Endures segments log.history)
    (hServed : log.coordinator.canServeFrom requested = true) (hLe : requested ≤ log.coordinator.lastLsn) :
    (start log requested).Delivers requested log.coordinator.lastLsn := by
  have hDeleted : log.coordinator.canonical.deletedMaxLsn ≤ requested := by
    simpa [Coordinator.canServeFrom, CanonicalWal.canServeFrom] using hServed
  rw [hEndures.lastLsn_eq] at hLe ⊢
  exact ⟨segments, requested, hEndures, NodeConnection.follows_subscribe hLe hDeleted _ _⟩

theorem map_filterMap_lsnOf (events : List OutboundEvent) :
    (events.filterMap lsnOf).map some = (events.filter OutboundEvent.isCanonical).map lsnOf := by
  induction events with
  | nil => rfl
  | cons event rest ih =>
      cases hLsn : lsnOf event with
      | none => simpa [OutboundEvent.isCanonical, hLsn] using ih
      | some lsn => simpa [OutboundEvent.isCanonical, hLsn] using ih

variable {history : List LogRecord} {segments : List Segment} {c : Coordinator} {p : Nat}
  {written : List OutboundEvent}

/-- What was written, but for keepalives, has consecutive LSNs. -/
theorem lsns_written (hEndures : c.Endures segments history)
    (h : Wrote history requested subscribed p written) :
    written.filterMap lsnOf = List.range' (requested + 1) (p - requested) := by
  have hLow := h.low
  have hHigh := h.high
  have hMap : (written.filterMap lsnOf).map some = (List.range' (requested + 1) (p - requested)).map some := by
    calc (written.filterMap lsnOf).map some
        = (written.filter OutboundEvent.isCanonical).map lsnOf := map_filterMap_lsnOf written
      _ = ((written.filter OutboundEvent.isCanonical).map OutboundEvent.wellFormed).map lsnOf := by
          rw [List.map_map]
          exact List.map_congr_left fun event _ => (lsnOf_wellFormed event).symm
      _ = (((messages history).drop requested).take (p - requested)).map lsnOf := by
          rw [h.canonical, List.drop_take]
      _ = (List.range' (requested + 1) (p - requested)).map some := by
          rw [List.map_take, hEndures.map_lsnOf_drop, ← List.map_take,
            List.take_range'_of_length_ge (by omega)]
  exact (List.map_inj_right fun _ _ => Option.some_inj.mp).mp hMap

/-- What was written before a keepalive reaches the LSN of the subscription. -/
theorem mem_before_keepalive (hEndures : c.Endures segments history)
    (h : Wrote history requested subscribed p written) {k lastLsn generation : Nat}
    (hAt : written[k]? = some (.keepalive lastLsn generation)) {lsn : Nat} (hLow : requested < lsn)
    (hHigh : lsn ≤ subscribed) : lsn ∈ (written.take k).filterMap lsnOf := by
  have hPrefix : (written.take k).filterMap lsnOf <+: written.filterMap lsnOf :=
    (List.take_prefix k written).filterMap lsnOf
  have hLength : ((written.take k).filterMap lsnOf).length =
      ((written.take k).filter OutboundEvent.isCanonical).length := by
    have hMap := congrArg List.length (map_filterMap_lsnOf (written.take k))
    rwa [List.length_map, List.length_map] at hMap
  have hBehind := h.behind k lastLsn generation hAt
  have hLe := hPrefix.length_le
  rw [lsns_written hEndures h, List.length_range'] at hLe
  rw [List.prefix_iff_eq_take.mp hPrefix, lsns_written hEndures h,
    List.take_range'_of_length_ge (by omega), List.mem_range'_1]
  omega

/-- Nothing was written that the log has otherwise. -/
def Plain (s : Subscription) : Prop := ∀ event ∈ s.connection.written, event.wellFormed = event

/-- The messages of the log have no lone surrogates, so what equals them has none. -/
theorem Delivers.inOrder_iff (h : s.Delivers requested subscribed) :
    s.InOrder requested subscribed ↔ s.Plain := by
  obtain ⟨segments, p, hEndures, hFollows⟩ := h
  have hWrote := hFollows.wrote
  constructor
  · rintro ⟨⟨p', -, -, -, hCanonical⟩, -⟩ event hEvent
    cases hKind : event.isCanonical with
    | true =>
        have hMem : event ∈ s.connection.written.filter OutboundEvent.isCanonical :=
          List.mem_filter.mpr ⟨hEvent, hKind⟩
        rw [hCanonical] at hMem
        exact hEndures.wellFormed_of_mem (List.mem_of_mem_take (List.mem_of_mem_drop hMem))
    | false =>
        cases event with
        | entry | rotate => cases hKind
        | _ => rfl
  · intro hPlain
    have hSame : (s.connection.written.filter OutboundEvent.isCanonical).map OutboundEvent.wellFormed =
        s.connection.written.filter OutboundEvent.isCanonical :=
      (List.map_congr_left fun event hEvent => hPlain event (List.mem_filter.mp hEvent).1).trans
        (List.map_id _)
    refine ⟨⟨p, hWrote.low, ?_, lsns_written hEndures hWrote, ?_⟩, ?_⟩
    · rw [hEndures.lastLsn_eq]
      exact hWrote.high
    · rw [← hSame, hWrote.canonical]
    · intro k lastLsn generation hAt lsn hLow hHigh
      exact mem_before_keepalive hEndures hWrote hAt hLow hHigh

/-- What the drain writes, it has read from the log. -/
theorem Delivers.wellFormed_head (h : s.Delivers requested subscribed) (hClosed : s.connection.closed = false)
    (hWaiting : s.connection.waiting = false) {fromLsn : Nat} {head : CanonicalEvent}
    {batch : List CanonicalEvent} {rest : List WriteTask}
    (hTasks : s.connection.tasks = .drain fromLsn (head :: batch) :: rest) :
    head.message.wellFormed = head.message := by
  obtain ⟨segments, p, hEndures, hFollows⟩ := h
  cases hFollows.phase hClosed with
  | draining batch' rest' hTasks' _ _ hBatch _ =>
      rw [hTasks] at hTasks'
      cases hTasks'
      exact hEndures.wellFormed_of_mem (List.mem_of_mem_drop (hBatch.subset List.mem_cons_self))
  | blocked _ _ _ _ _ hBlocked _ _ _ =>
      rw [hWaiting] at hBlocked
      cases hBlocked
  | live q _ _ hQueue _ _ =>
      obtain ⟨events, hEvents, -⟩ := hQueue
      rw [hTasks] at hEvents
      cases events <;> cases hEvents
  | writing event' rest' q hTasks' _ _ _ _ _ =>
      rw [hTasks] at hTasks'
      cases hTasks'

/-- Only the chain writes: the broadcast and a close leave it as it is. -/
theorem written_enqueue (c : NodeConnection) (event : OutboundEvent) : (c.enqueue event).written = c.written := by
  rw [NodeConnection.enqueue, NodeConnection.enqueueTask]
  split_ifs <;> rfl

theorem written_broadcast (s : Subscription) (log : LoggedCoordinator) :
    (s.broadcast log).connection.written = s.connection.written := by
  rw [broadcast]
  generalize log.coordinator.sent.drop s.log.coordinator.sent.length = events
  induction events using List.reverseRecOn with
  | nil => rfl
  | append_singleton events event ih =>
      rw [List.foldl_append, List.foldl_cons, List.foldl_nil, written_enqueue]
      exact ih

/-- A step writes nothing, or one event, which is the log's unless it is written live. -/
theorem Delivers.plain_step (h : s.Delivers requested subscribed) {a : Action} (hStep : s.step a = some t) :
    t.Plain ↔ s.Plain ∧ s.WritesPlain a := by
  cases a with
  | add item applied =>
      cases hStep
      rw [Plain, written_broadcast]
      exact (and_true _).symm.to_iff
  | rotation unlinkFails =>
      cases hStep
      rw [Plain, written_broadcast]
      exact (and_true _).symm.to_iff
  | keepalive =>
      cases hStep
      rw [Plain, written_enqueue]
      exact (and_true _).symm.to_iff
  | close =>
      cases hStep
      exact (and_true _).symm.to_iff
  | work =>
      obtain ⟨connection, hWork, rfl⟩ := Option.map_eq_some_iff.mp hStep
      rw [Plain, Plain, WritesPlain]
      rcases NodeConnection.work_written hWork with ⟨hWritten, hNext⟩ | ⟨event, hNext, hWritten⟩ |
        ⟨fromLsn, head, batch, rest, hTasks, hWaiting, hClosed, hWritten⟩
      · rw [hWritten, hNext]
        simp
      · rw [hWritten, hNext, List.forall_mem_append, List.forall_mem_singleton]
        simp
      · have hNext : s.connection.nextWrite = none := by simp [NodeConnection.nextWrite, hTasks]
        rw [hWritten, hNext, List.forall_mem_append, List.forall_mem_singleton]
        simp [h.wellFormed_head hClosed hWaiting hTasks]

/-- Everything that was written is the log's exactly if every step wrote only that. -/
theorem Delivers.plain_run (hStart : s.Delivers requested subscribed) (hPlain : s.Plain)
    {actions : List Action}
    (run : Transition.Run (Transition.restrict (Transition.ofStep Subscription.step) Retains) s actions t) :
    t.Plain ↔ Transition.Run (Transition.restrict (Transition.ofStep Subscription.step) fun s a =>
      s.Retains a ∧ s.WritesPlain a) s actions t := by
  constructor
  · intro hEnd
    induction run with
    | nil => exact .nil _
    | snoc prior last ih =>
        have hMiddle : Delivers requested subscribed _ :=
          prior.invariant (fun _ _ _ h hStep => h.step hStep.1 hStep.2) hStart
        obtain ⟨hBefore, hWrites⟩ := (hMiddle.plain_step last.1).mp hEnd
        exact .snoc (ih hBefore) ⟨last.1, last.2, hWrites⟩
  · intro hRun
    have hBoth : t.Delivers requested subscribed ∧ t.Plain :=
      hRun.invariant (P := fun u => u.Delivers requested subscribed ∧ u.Plain)
        (fun _ _ _ h hStep => ⟨h.1.step hStep.1 hStep.2.1, (h.1.plain_step hStep.1).mpr ⟨h.2, hStep.2.2⟩⟩)
        ⟨hStart, hPlain⟩
    exact hBoth.2

/-- Whatever comes between the steps of the chain, the messages that are written are those
of the log, from the LSN after the requested one on, each once and in order, and no
keepalive is written before everything that was in the log at the subscription, exactly as
long as no event is written live whose item has a lone surrogate. The same event is the
log's where the drain comes first. Order and completeness need no such condition, and
nothing is said of a connection whose drain the retention overtakes. -/
theorem inOrder_iff_writesPlain (id walDir : String) (prior : List CoordinatorLives.Action)
    {requestedLsn : Nat} {log : LoggedCoordinator}
    (hLog : log = ⟨CoordinatorLives.run (CoordinatorRestart.start id walDir) prior,
      CoordinatorLives.history (CoordinatorRestart.start id walDir) prior⟩)
    (hServed : log.coordinator.canServeFrom requestedLsn = true)
    (hLe : requestedLsn ≤ log.coordinator.lastLsn) {actions : List Action} {s : Subscription}
    (run : Transition.Run (Transition.restrict (Transition.ofStep step) Retains) (start log requestedLsn)
      actions s) :
    s.InOrder requestedLsn log.coordinator.lastLsn ↔
      Transition.Run (Transition.restrict (Transition.ofStep step) fun s a => s.Retains a ∧ s.WritesPlain a)
        (start log requestedLsn) actions s := by
  obtain ⟨segments, hStart⟩ := CoordinatorLives.endures_start id walDir prior
  have hLogged : log.coordinator.Endures segments log.history := by
    rw [hLog]
    exact hStart
  have hFirst : (start log requestedLsn).Delivers requestedLsn log.coordinator.lastLsn :=
    Delivers.start hLogged hServed hLe
  have hLast : s.Delivers requestedLsn log.coordinator.lastLsn :=
    run.invariant (fun _ _ _ h hStep => h.step hStep.1 hStep.2) hFirst
  have hPlain : (start log requestedLsn).Plain := by
    intro event hEvent
    cases hEvent
  exact hLast.inOrder_iff.trans (hFirst.plain_run hPlain run)

/-- The log of a coordinator after these actions of its lives. -/
def logAfter (prior : List CoordinatorLives.Action) : LoggedCoordinator :=
  ⟨CoordinatorLives.run (CoordinatorRestart.start "r" "canonical") prior,
    CoordinatorLives.history (CoordinatorRestart.start "r" "canonical") prior⟩

/-- While the second of two revocations is being written to a node that has the first, a
third is appended, which the coordinator tombstones; a rotation follows once the drain has
read it. -/
def midDrain : List Action :=
  [.work, .work, .add [0x63] (.error (.internalError "saturated")), .work, .work, .work, .work,
    .rotation fun _ => false, .work, .work, .work, .work, .work]

/-- The connection at the end of a run in which everything that is written live is UTF-8. -/
theorem inOrder_mid_drain :
    ∃ s : Subscription, s.connection.written =
        [.entry 2 0 [0x62], .entry 3 0 [0x63], .rotate 4 1, .keepalive 2 0] ∧ s.InOrder 1 2 := by
  have hEnd : (Transition.exec
      (Transition.guarded (fun s a => decide (s.Retains a ∧ s.WritesPlain a)) step)
      (start (logAfter [.step (.add [0x61] (.ok ())), .step (.add [0x62] (.ok ()))]) 1) midDrain).map
        (fun s => s.connection.written) =
      some [.entry 2 0 [0x62], .entry 3 0 [0x63], .rotate 4 1, .keepalive 2 0] := by decide +kernel
  obtain ⟨s, hRun, hWritten⟩ := Option.map_eq_some_iff.mp hEnd
  have hPlain : Transition.Run (Transition.restrict (Transition.ofStep step) fun s a =>
      s.Retains a ∧ s.WritesPlain a) _ midDrain s :=
    (Transition.run_of_exec hRun).of_guarded fun _ _ h => of_decide_eq_true h
  have hRetains : Transition.Run (Transition.restrict (Transition.ofStep step) Retains) _ midDrain s :=
    hPlain.mono fun _ _ _ h => ⟨h.1, h.2.1⟩
  exact ⟨s, hWritten, (inOrder_iff_writesPlain "r" "canonical" _ rfl (by decide) (by decide) hRetains).mpr
    hPlain⟩

/-- A lone surrogate is added while the node waits for nothing. -/
def loneLive : List Action := [.work, .work, .work, .add [0xD800] (.ok ()), .work]

/-- The node is sent the surrogate, the log has the replacement character. -/
theorem not_inOrder_loneLive : (logAfter []).coordinator.canServeFrom 0 = true ∧
    ∃ s : Subscription, Transition.Run (Transition.restrict (Transition.ofStep step) Retains)
        (start (logAfter []) 0) loneLive s ∧
      s.connection.written = [.keepalive 0 0, .entry 1 0 [0xD800]] ∧
      messages s.log.history = [.entry 1 0 [0xFFFD]] ∧ ¬ s.InOrder 0 0 := by
  have hEnd : (Transition.exec (Transition.guarded (fun s a => decide (s.Retains a)) step)
      (start (logAfter []) 0) loneLive).map (fun s => (s.connection.written, messages s.log.history)) =
      some ([.keepalive 0 0, .entry 1 0 [0xD800]], [.entry 1 0 [0xFFFD]]) := by decide +kernel
  obtain ⟨s, hRun, hBoth⟩ := Option.map_eq_some_iff.mp hEnd
  obtain ⟨hWritten, hMessages⟩ := Prod.mk.inj hBoth
  refine ⟨by decide, s, (Transition.run_of_exec hRun).of_guarded fun _ _ h => of_decide_eq_true h, hWritten,
    hMessages, ?_⟩
  rintro ⟨⟨p, -, -, -, hCanonical⟩, -⟩
  have hMem : OutboundEvent.entry 1 0 [0xD800] ∈
      s.connection.written.filter OutboundEvent.isCanonical := by
    rw [hWritten]
    decide
  rw [hCanonical, hMessages] at hMem
  exact absurd (List.mem_of_mem_take (List.mem_of_mem_drop hMem)) (by decide)

end Subscription

end TokenRevoker
