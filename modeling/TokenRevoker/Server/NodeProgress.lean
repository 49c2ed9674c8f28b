import TokenRevoker.Server.ServerStreams

/-! What `ListNodes` says. The progress that the registry keeps for a node is recorded by the
write chains of its connections, each time one of them goes on behind a message. -/
namespace TokenRevoker

open Text Transition LsnContiguity

namespace NodeRegistry

/-- `listNodes`, up to the order of the entries. -/
def listNodes (r : NodeRegistry) : Except RevokerError (List NodeEntryView) := do
  let nodes ← r.requireMap
  return nodes.entries.map fun entry => entry.2.toNodeEntryView

/-- What is said of a node. -/
def view (r : NodeRegistry) (nodeId : JsString) : Option NodeEntryView :=
  r.nodes.bind fun nodes => (nodes.lookup nodeId).map NodeEntry.toNodeEntryView

variable {r r' : NodeRegistry} {nodeId other : JsString} {k lsn now : Nat} {v : NodeEntryView}

theorem view_registerNode (h : r.registerNode nodeId k now = .ok r') (other : JsString) :
    r'.view other = if other = nodeId then some ⟨nodeId, 0, now, true⟩ else r.view other := by
  cases hNodes : r.nodes with
  | none =>
      rw [registerNode, requireMap_of_none hNodes] at h
      cases h
  | some nodes =>
      rw [registerNode, requireMap_eq_ok.mpr hNodes] at h
      simp only [bind, Except.bind] at h
      split_ifs at h
      cases h
      split_ifs with hOther
      · subst hOther
        simp [view]
      · simp [view, hNodes, AList.lookup_insert_ne hOther]

theorem view_unregisterNode (h : (orSame r (r.unregisterNode nodeId)).view other = some v) :
    r.view other = some v := by
  cases hNodes : r.nodes with
  | none =>
      rw [unregisterNode, requireMap_of_none hNodes] at h
      exact h
  | some nodes =>
      rw [unregisterNode, requireMap_eq_ok.mpr hNodes] at h
      by_cases hOther : other = nodeId
      · subst hOther
        simp [orSame, bind, Except.bind, pure, Except.pure, view] at h
      · simpa [orSame, bind, Except.bind, pure, Except.pure, view, hNodes, AList.lookup_erase_ne hOther] using h

theorem view_insert {nodes : AList fun _ : JsString => NodeEntry} (hNodes : r.nodes = some nodes)
    {entry entry' : NodeEntry} (hLookup : nodes.lookup nodeId = some entry) (update : NodeEntryView → NodeEntryView)
    (hUpdate : entry'.toNodeEntryView = update entry.toNodeEntryView) (other : JsString) :
    view { nodes := some (nodes.insert nodeId entry') } other =
      if other = nodeId then (r.view other).map update else r.view other := by
  split_ifs with hOther
  · subst hOther
    simp [view, hNodes, hLookup, hUpdate]
  · simp [view, hNodes, AList.lookup_insert_ne hOther]

theorem view_recordSent (h : r.recordSent nodeId lsn now = .ok r') (other : JsString) :
    r'.view other = if other = nodeId then
      (r.view other).map fun v => { v with lastLsn := max lsn v.lastLsn, lastSeenMs := now } else r.view other := by
  cases hNodes : r.nodes with
  | none =>
      rw [recordSent, requireMap_of_none hNodes] at h
      cases h
  | some nodes =>
      rw [recordSent, requireMap_eq_ok.mpr hNodes] at h
      simp only [bind, Except.bind] at h
      cases hLookup : nodes.lookup nodeId with
      | none =>
          rw [hLookup] at h
          cases h
          split_ifs with hOther
          · subst hOther
            simp [view, hNodes, hLookup]
          · rfl
      | some entry =>
          rw [hLookup] at h
          cases h
          exact view_insert hNodes hLookup _ rfl other

/-- Only a registry that is gone records nothing. -/
theorem recordSent_error {error : RevokerError} (h : r.recordSent nodeId lsn now = .error error) : r.nodes = none := by
  cases hNodes : r.nodes with
  | none => rfl
  | some nodes =>
      rw [recordSent, requireMap_eq_ok.mpr hNodes] at h
      simp only [bind, Except.bind] at h
      cases hLookup : nodes.lookup nodeId with
      | none =>
          rw [hLookup] at h
          cases h
      | some entry =>
          rw [hLookup] at h
          cases h

theorem view_touch (r : NodeRegistry) (nodeId other : JsString) (now : Nat) :
    (orSame r (r.touch nodeId now)).view other =
      if other = nodeId then (r.view other).map fun v => { v with lastSeenMs := now } else r.view other := by
  cases hNodes : r.nodes with
  | none =>
      rw [touch, requireMap_of_none hNodes]
      simp [orSame, bind, Except.bind, view, hNodes]
  | some nodes =>
      rw [touch, requireMap_eq_ok.mpr hNodes]
      cases hLookup : nodes.lookup nodeId with
      | none =>
          simp only [orSame, bind, Except.bind, hLookup]
          split_ifs with hOther
          · subst hOther
            simp [pure, Except.pure, view, hNodes, hLookup]
          · rfl
      | some entry =>
          simp only [orSame, bind, Except.bind, pure, Except.pure, hLookup]
          exact view_insert hNodes hLookup _ rfl other

theorem held_of_view (h : r.view nodeId = some v) : ∃ k, r.held nodeId = some (v.connected, k) := by
  obtain ⟨nodes, hNodes, hView⟩ := Option.bind_eq_some_iff.mp h
  obtain ⟨entry, hLookup, rfl⟩ := Option.map_eq_some_iff.mp hView
  exact ⟨entry.connection, by simp [held, hNodes, hLookup]⟩

end NodeRegistry

namespace NodeConnection

/-- The message of the first task, if it has one left. -/
def first (c : NodeConnection) : Option OutboundEvent :=
  match c.tasks with
  | .drain _ (event :: _) :: _ => some event.message
  | .write event :: _ => some event
  | _ => none

/-- The LSNs of the messages that are through: the chain has gone on behind them. -/
def through (c : NodeConnection) : List Nat :=
  if c.delivered.isSome then (c.written.filterMap lsnOf).dropLast else c.written.filterMap lsnOf

/-- What the chain waits for is the message that was written last. -/
def Handed (c : NodeConnection) : Prop :=
  c.waiting = true → ∃ event before, c.first = some event ∧ c.written = before ++ [event]

variable {c d : NodeConnection} {event : OutboundEvent} {before : List OutboundEvent} {coordinator : Coordinator}

theorem delivered_eq (c : NodeConnection) : c.delivered = if c.waiting then c.first.bind lsnOf else none := by
  obtain ⟨_, tasks, waiting, _, _⟩ := c
  cases waiting with
  | false => cases tasks <;> rfl
  | true =>
      match tasks with
      | [] | .drain _ [] :: _ | .write _ :: _ => rfl
      | .drain _ (event :: _) :: _ => exact (lsnOf_message event).symm

theorem through_idle (h : c.waiting = false) : c.through = c.written.filterMap lsnOf ∧ c.delivered = none := by
  have hNone : c.delivered = none := by rw [delivered_eq, h, if_neg Bool.false_ne_true]
  rw [through, hNone]
  exact ⟨rfl, rfl⟩

theorem through_waiting (hWaiting : c.waiting = true) (hFirst : c.first = some event)
    (hWritten : c.written = before ++ [event]) :
    c.through = before.filterMap lsnOf ∧ c.delivered = lsnOf event := by
  have hDelivered : c.delivered = lsnOf event := by rw [delivered_eq, hWaiting, if_pos rfl, hFirst]; rfl
  refine ⟨?_, hDelivered⟩
  rw [through, hDelivered, hWritten, List.filterMap_append]
  cases hLsn : lsnOf event with
  | none => simp [hLsn]
  | some lsn => simp [hLsn]

theorem handed_idle (h : c.waiting = false) : c.Handed := by
  intro hWaiting
  rw [h] at hWaiting
  cases hWaiting

/-- What a step of the chain has got through is what it was waiting for. -/
theorem Handed.work (h : c.Handed) (hWork : c.work coordinator = some d) :
    d.Handed ∧ d.through = c.through ++ c.delivered.toList := by
  have hIdle : d.waiting = false → d.written = c.written → c.waiting = false →
      d.Handed ∧ d.through = c.through ++ c.delivered.toList := by
    intro hAfter hWritten hBefore
    refine ⟨handed_idle hAfter, ?_⟩
    rw [(through_idle hAfter).1, (through_idle hBefore).1, (through_idle hBefore).2, hWritten]
    exact (List.append_nil _).symm
  have hOver : d.waiting = false → d.written = c.written → c.waiting = true →
      d.Handed ∧ d.through = c.through ++ c.delivered.toList := by
    intro hAfter hWritten hBefore
    obtain ⟨event, before, hFirst, hLast⟩ := h hBefore
    obtain ⟨hThrough, hDelivered⟩ := through_waiting hBefore hFirst hLast
    refine ⟨handed_idle hAfter, ?_⟩
    rw [(through_idle hAfter).1, hThrough, hDelivered, hWritten, hLast, List.filterMap_append]
    cases hLsn : lsnOf event with
    | none => simp [hLsn]
    | some lsn => simp [hLsn]
  have hHands : ∀ event, d.first = some event → d.waiting = true → d.written = c.written ++ [event] →
      c.waiting = false → d.Handed ∧ d.through = c.through ++ c.delivered.toList := by
    intro event hFirst hAfter hWritten hBefore
    refine ⟨fun _ => ⟨event, c.written, hFirst, hWritten⟩, ?_⟩
    rw [(through_waiting hAfter hFirst hWritten).1, (through_idle hBefore).1, (through_idle hBefore).2]
    exact (List.append_nil _).symm
  rw [NodeConnection.work] at hWork
  split at hWork
  · cases hWork
  · next fromLsn rest hTasks =>
    have hBefore : c.waiting = false := by
      by_contra hWaiting
      obtain ⟨event, before, hFirst, -⟩ := h (Bool.eq_true_of_not_eq_false hWaiting)
      rw [first, hTasks] at hFirst
      cases hFirst
    split_ifs at hWork
    · cases hWork
      exact hIdle hBefore rfl hBefore
    · split at hWork <;> cases hWork <;> exact hIdle hBefore rfl hBefore
  · next fromLsn event batch rest hTasks =>
    split_ifs at hWork with hWaiting
    · cases hWork
      exact hOver rfl rfl hWaiting
    · cases hWork
      exact hIdle (Bool.eq_false_iff.mpr hWaiting) rfl (Bool.eq_false_iff.mpr hWaiting)
    · cases hWork
      exact hHands event.message (by rw [first, hTasks]) rfl rfl (Bool.eq_false_iff.mpr hWaiting)
  · next event rest hTasks =>
    split_ifs at hWork with hWaiting
    · cases hWork
      exact hOver rfl rfl hWaiting
    · cases hWork
      exact hIdle (Bool.eq_false_iff.mpr hWaiting) rfl (Bool.eq_false_iff.mpr hWaiting)
    · cases hWork
      exact hIdle (Bool.eq_false_iff.mpr hWaiting) rfl (Bool.eq_false_iff.mpr hWaiting)
    · cases hWork
      exact hHands event (by rw [first, hTasks]) rfl rfl (Bool.eq_false_iff.mpr hWaiting)

/-- An event that joins the queue is not through. -/
theorem Handed.enqueue (h : c.Handed) (event : OutboundEvent) :
    (c.enqueue event).Handed ∧ (c.enqueue event).through = c.through := by
  cases hClosed : c.closed with
  | true =>
      rw [enqueue_closed hClosed]
      exact ⟨h, rfl⟩
  | false =>
      rw [enqueue_open hClosed]
      rcases Bool.eq_false_or_eq_true c.waiting with hWaiting | hWaiting
      · obtain ⟨message, before, hFirst, hWritten⟩ := h hWaiting
        have hSame : ({ c with tasks := c.tasks ++ [.write event] } : NodeConnection).first = some message := by
          rw [first] at hFirst ⊢
          split at hFirst
          · next hTasks =>
            rw [hTasks]
            exact hFirst
          · next hTasks =>
            rw [hTasks]
            exact hFirst
          · cases hFirst
        exact ⟨fun _ => ⟨message, before, hSame, hWritten⟩,
          (through_waiting (by exact hWaiting) hSame hWritten).1.trans
            (through_waiting hWaiting hFirst hWritten).1.symm⟩
      · exact ⟨handed_idle hWaiting, (through_idle (by exact hWaiting)).1.trans (through_idle hWaiting).1.symm⟩

theorem Handed.enqueueAll (h : c.Handed) (events : List OutboundEvent) :
    (events.foldl NodeConnection.enqueue c).Handed ∧ (events.foldl NodeConnection.enqueue c).through = c.through := by
  induction events generalizing c with
  | nil => exact ⟨h, rfl⟩
  | cons event rest ih =>
      obtain ⟨hFirst, hThrough⟩ := h.enqueue event
      exact ⟨(ih hFirst).1, (ih hFirst).2.trans hThrough⟩

end NodeConnection

/-- The stream goes on or ends, and nothing gets through while it is open. -/
structure NodeConnectionImpl.Grew (stream stream' : NodeConnectionImpl) : Prop where
  nodeId : stream'.nodeId = stream.nodeId
  handed : stream.connection.Handed → stream'.connection.Handed
  through : stream.connection.Handed → stream.connection.through ⊆ stream'.connection.through
  isOpen : stream.connection.Handed → stream'.connection.closed = false →
    stream.connection.closed = false ∧ stream'.connection.through = stream.connection.through

namespace NodeConnectionImpl

variable {stream stream' : NodeConnectionImpl}

theorem grew_refl (stream : NodeConnectionImpl) : stream.Grew stream :=
  ⟨rfl, id, fun _ => List.Subset.refl _, fun _ hOpen => ⟨hOpen, rfl⟩⟩

theorem Grew.trans {first last : NodeConnectionImpl} (h : first.Grew stream) (h' : stream.Grew last) :
    first.Grew last where
  nodeId := h'.nodeId.trans h.nodeId
  handed hFirst := h'.handed (h.handed hFirst)
  through hFirst := List.Subset.trans (h.through hFirst) (h'.through (h.handed hFirst))
  isOpen := by
    intro hFirst hOpen
    obtain ⟨hMiddle, hLast⟩ := h'.isOpen (h.handed hFirst) hOpen
    obtain ⟨hStart, hBefore⟩ := h.isOpen hFirst hMiddle
    exact ⟨hStart, hLast.trans hBefore⟩

/-- The queue of a stream may grow. -/
theorem grew_enqueueAll (stream : NodeConnectionImpl) (events : List OutboundEvent) :
    stream.Grew { stream with connection := events.foldl NodeConnection.enqueue stream.connection } where
  nodeId := rfl
  handed h := (h.enqueueAll events).1
  through h := by
    rw [(h.enqueueAll events).2]
    exact List.Subset.refl _
  isOpen h hOpen := ⟨(NodeConnection.closed_foldl_enqueue events stream.connection).1.symm.trans hOpen,
    (h.enqueueAll events).2⟩

/-- A stream that is closed waits for nothing more than before. -/
theorem grew_closed (hId : stream'.nodeId = stream.nodeId) (hClosed : stream'.connection.closed = true)
    (hHanded : stream.connection.Handed → stream'.connection.Handed ∧
      stream.connection.through ⊆ stream'.connection.through) : stream.Grew stream' where
  nodeId := hId
  handed h := (hHanded h).1
  through h := (hHanded h).2
  isOpen := by
    intro _ hOpen
    rw [hClosed] at hOpen
    cases hOpen

end NodeConnectionImpl

namespace DistributedServer

open NodeConnectionImpl

variable {s t u : DistributedServer} {stream stream' : NodeConnectionImpl} {nodeId : JsString} {k now : Nat}
  {v : NodeEntryView}

/-- Nothing is recorded for any node. -/
structure Moves (s t : DistributedServer) : Prop where
  grew : ∀ k : Nat, Option.Rel Grew s.made[k]? t.made[k]?
  views : ∀ nodeId v, t.registry.view nodeId = some v → ∃ old, s.registry.view nodeId = some old ∧
    v.lastLsn = old.lastLsn ∧ v.nodeId = old.nodeId

theorem Moves.later (h : Moves s t) (hAt : s.made[k]? = some stream) :
    ∃ stream', t.made[k]? = some stream' ∧ stream.Grew stream' := by
  have hRel := h.grew k
  rw [hAt] at hRel
  generalize t.made[k]? = found at hRel
  cases hRel with
  | some hGrew => exact ⟨_, rfl, hGrew⟩

theorem Moves.earlier (h : Moves s t) (hAt : t.made[k]? = some stream') :
    ∃ stream, s.made[k]? = some stream ∧ stream.Grew stream' := by
  have hRel := h.grew k
  rw [hAt] at hRel
  generalize s.made[k]? = found at hRel
  cases hRel with
  | some hGrew => exact ⟨_, rfl, hGrew⟩

theorem grew_made (s : DistributedServer) (k : Nat) : Option.Rel Grew s.made[k]? s.made[k]? := by
  cases s.made[k]? with
  | none => exact .none
  | some stream => exact .some (grew_refl stream)

theorem moves_refl (s : DistributedServer) : Moves s s :=
  ⟨grew_made s, fun _ v h => ⟨v, h, rfl, rfl⟩⟩

theorem Moves.trans (h : Moves s t) (h' : Moves t u) : Moves s u where
  grew := by
    intro k
    cases hAt : u.made[k]? with
    | none =>
        cases hFirst : s.made[k]? with
        | none => exact .none
        | some stream =>
            obtain ⟨middle, hMiddle, -⟩ := h.later hFirst
            obtain ⟨last, hLast, -⟩ := h'.later hMiddle
            rw [hAt] at hLast
            cases hLast
    | some last =>
        obtain ⟨middle, hMiddle, hSecond⟩ := h'.earlier hAt
        obtain ⟨stream, hFirst, hGrew⟩ := h.earlier hMiddle
        rw [hFirst]
        exact .some (hGrew.trans hSecond)
  views := by
    intro nodeId v hView
    obtain ⟨middle, hMiddle, hLsn, hId⟩ := h'.views nodeId v hView
    obtain ⟨old, hOld, hLsn', hId'⟩ := h.views nodeId middle hMiddle
    exact ⟨old, hOld, hLsn.trans hLsn', hId.trans hId'⟩

theorem grew_set (hAt : s.made[k]? = some stream) (hGrew : stream.Grew stream') (j : Nat) :
    Option.Rel Grew s.made[j]? (s.setStream k stream').made[j]? := by
  by_cases hEq : k = j
  · subst hEq
    rw [setStream, List.getElem?_set_self (List.getElem?_eq_some_iff.mp hAt).1, hAt]
    exact .some hGrew
  · rw [setStream, List.getElem?_set_ne hEq]
    exact grew_made s j

theorem moves_setStream (hAt : s.made[k]? = some stream) (hGrew : stream.Grew stream') :
    Moves s (s.setStream k stream') :=
  ⟨grew_set hAt hGrew, fun _ v h => ⟨v, h, rfl, rfl⟩⟩

theorem moves_close (s : DistributedServer) (k : Nat) : Moves s (s.close k) := by
  cases hAt : s.made[k]? with
  | none =>
      have hSame : s.close k = s := by rw [close, hAt]
      rw [hSame]
      exact moves_refl s
  | some stream =>
      cases hClosed : stream.connection.closed with
      | true =>
          rw [close_of_closed hAt hClosed]
          exact moves_refl s
      | false =>
          rw [close_of_open hAt hClosed]
          have hGrew : stream.Grew stream.close := grew_closed rfl rfl fun h => ⟨h, List.Subset.refl _⟩
          exact ⟨grew_set hAt hGrew, fun other v h => ⟨v, NodeRegistry.view_unregisterNode h, rfl, rfl⟩⟩

theorem moves_closeAll (s : DistributedServer) (ks : List Nat) : Moves s (ks.foldl close s) := by
  induction ks generalizing s with
  | nil => exact moves_refl s
  | cons k rest ih => exact (moves_close s k).trans (ih _)

theorem moves_broadcast (s : DistributedServer) (coordinator : Coordinator) : Moves s (s.broadcast coordinator) where
  grew := by
    intro k
    rw [broadcast, List.getElem?_mapIdx]
    cases s.made[k]? with
    | none => exact .none
    | some stream =>
        refine .some ?_
        split_ifs
        · exact grew_enqueueAll stream _
        · exact grew_refl stream
  views _ v h := ⟨v, h, rfl, rfl⟩

theorem moves_stop (s : DistributedServer) : Moves s s.stop := by
  have hListening : Moves s { s with listening := false } := ⟨grew_made s, fun _ v h => ⟨v, h, rfl, rfl⟩⟩
  have hClosed := hListening.trans (moves_closeAll { s with listening := false } s.connections)
  have hCleared : ∀ u : DistributedServer, Moves s u → Moves s (destroyRegistry { u with connections := [] }) := by
    intro u hU
    rw [destroyRegistry]
    split
    · exact ⟨hU.grew, hU.views⟩
    · next nodes hNodes =>
      have hEmptied : Moves s { u with connections := [] } := ⟨hU.grew, hU.views⟩
      have hAll := hEmptied.trans (moves_closeAll _ (nodes.entries.map fun entry => entry.2.connection))
      exact ⟨hAll.grew, fun nodeId v h => by cases h⟩
  exact hCleared _ hClosed

/-- The registry knows no more of a node than what has got through to it, and no less than
what has got through on the stream that is open. -/
structure Told (s : DistributedServer) : Prop where
  handed : ∀ (k : Nat) stream, s.made[k]? = some stream → stream.connection.Handed
  reached : ∀ (k : Nat) stream v, s.made[k]? = some stream → stream.connection.closed = false →
    s.registry.view stream.nodeId = some v → ∀ lsn ∈ stream.connection.through, lsn ≤ v.lastLsn
  known : ∀ nodeId v, s.registry.view nodeId = some v → v.lastLsn = 0 ∨ ∃ (k : Nat) (stream : NodeConnectionImpl),
    s.made[k]? = some stream ∧ stream.nodeId = nodeId ∧ v.lastLsn ∈ stream.connection.through
  named : ∀ nodeId v, s.registry.view nodeId = some v → v.nodeId = nodeId

theorem told_start (coordinator : Coordinator) : (start coordinator).Told where
  handed k stream h := by cases h
  reached k stream v h := by cases h
  known nodeId v h := by cases h
  named nodeId v h := by cases h

theorem Told.moves (h : s.Told) (hMoves : Moves s t) : t.Told where
  handed := by
    intro k stream' hAt'
    obtain ⟨stream, hAt, hGrew⟩ := hMoves.earlier hAt'
    exact hGrew.handed (h.handed k stream hAt)
  reached := by
    intro k stream' v hAt' hOpen hView lsn hLsn
    obtain ⟨stream, hAt, hGrew⟩ := hMoves.earlier hAt'
    obtain ⟨hOpen', hSame⟩ := hGrew.isOpen (h.handed k stream hAt) hOpen
    obtain ⟨old, hOld, hLast, -⟩ := hMoves.views _ v hView
    rw [hGrew.nodeId] at hOld
    rw [hSame] at hLsn
    rw [hLast]
    exact h.reached k stream old hAt hOpen' hOld lsn hLsn
  known := by
    intro nodeId v hView
    obtain ⟨old, hOld, hLast, -⟩ := hMoves.views _ v hView
    rw [hLast]
    rcases h.known nodeId old hOld with hZero | ⟨k, stream, hAt, hId, hMem⟩
    · exact Or.inl hZero
    · obtain ⟨stream', hAt', hGrew⟩ := hMoves.later hAt
      exact Or.inr ⟨k, stream', hAt', hGrew.nodeId.trans hId, hGrew.through (h.handed k stream hAt) hMem⟩
  named := by
    intro nodeId v hView
    obtain ⟨old, hOld, -, hId⟩ := hMoves.views _ v hView
    exact hId.trans (h.named nodeId old hOld)

/-- Without a registry nothing is said. -/
theorem Told.setStream (h : s.Told) (hNodes : s.registry.nodes = none) (hHanded : stream'.connection.Handed) (k : Nat) :
    (s.setStream k stream').Told := by
  have hNone : ∀ nodeId v, (s.setStream k stream').registry.view nodeId ≠ some v := by
    intro nodeId v hView
    have hView : s.registry.view nodeId = some v := hView
    rw [NodeRegistry.view, hNodes] at hView
    cases hView
  refine ⟨fun j stream hAt => ?_, fun j stream v _ _ hView => absurd hView (hNone _ v),
    fun nodeId v hView => absurd hView (hNone nodeId v), fun nodeId v hView => absurd hView (hNone nodeId v)⟩
  by_cases hEq : k = j
  · subst hEq
    have hMem := List.mem_of_getElem? hAt
    rcases List.mem_or_eq_of_mem_set hMem with hOld | rfl
    · obtain ⟨i, hOld⟩ := List.getElem?_of_mem hOld
      exact h.handed i stream hOld
    · exact hHanded
  · exact h.handed j stream ((List.getElem?_set_ne hEq).symm.trans hAt)

/-- A chain goes on, and nothing was waiting to be recorded. -/
theorem grew_work {coordinator : Coordinator} {connection : NodeConnection}
    (hWork : stream.connection.work coordinator = some connection) (hDelivered : stream.connection.delivered = none) :
    stream.Grew { stream with connection := { connection with closed := stream.connection.closed } } where
  nodeId := rfl
  handed h := (h.work hWork).1
  through h := by
    have hThrough := (h.work hWork).2
    rw [hDelivered, Option.toList_none, List.append_nil] at hThrough
    have hSame : stream.connection.through ⊆ connection.through := by
      rw [hThrough]
      exact List.Subset.refl _
    exact hSame
  isOpen h hOpen := by
    have hThrough := (h.work hWork).2
    rw [hDelivered, Option.toList_none, List.append_nil] at hThrough
    exact ⟨hOpen, hThrough⟩

/-- What a chain was waiting for is recorded. -/
theorem Told.recorded (h : s.Told) (hAt : s.made[k]? = some stream) {coordinator : Coordinator}
    {connection : NodeConnection} (hWork : stream.connection.work coordinator = some connection) {lsn : Nat}
    (hDelivered : stream.connection.delivered = some lsn) {registry : NodeRegistry}
    (hRecord : s.registry.recordSent stream.nodeId lsn now = .ok registry) :
    Told { s.setStream k { stream with connection := connection } with registry := registry } := by
  have hLt := (List.getElem?_eq_some_iff.mp hAt).1
  obtain ⟨hHanded, hThrough⟩ := (h.handed k stream hAt).work hWork
  rw [hDelivered, Option.toList_some] at hThrough
  have hViews := NodeRegistry.view_recordSent hRecord
  have hMade : ∀ (j : Nat) other, (s.setStream k { stream with connection := connection }).made[j]? = some other →
      j = k ∧ other = { stream with connection := connection } ∨ j ≠ k ∧ s.made[j]? = some other := by
    intro j other hOther
    by_cases hEq : k = j
    · subst hEq
      rw [DistributedServer.setStream, List.getElem?_set_self hLt, Option.some.injEq] at hOther
      exact Or.inl ⟨rfl, hOther.symm⟩
    · exact Or.inr ⟨Ne.symm hEq, (List.getElem?_set_ne hEq).symm.trans hOther⟩
  refine ⟨fun j other hOther => ?_, fun j other v hOther hOpen hSaid l hL => ?_, fun nodeId v hSaid => ?_,
    fun nodeId v hSaid => ?_⟩
  · rcases hMade j other hOther with ⟨-, rfl⟩ | ⟨-, hOld⟩
    · exact hHanded
    · exact h.handed j other hOld
  · have hView : registry.view other.nodeId = some v := hSaid
    rw [hViews] at hView
    rcases hMade j other hOther with ⟨rfl, rfl⟩ | ⟨-, hOld⟩
    · have hClosed := NodeConnection.closed_work hWork (Or.inl hOpen)
      rw [if_pos rfl] at hView
      obtain ⟨old, hOldView, rfl⟩ := Option.map_eq_some_iff.mp hView
      rcases List.mem_append.mp (hThrough ▸ hL) with hBefore | hNew
      · exact le_max_of_le_right (h.reached j stream old hAt (hClosed ▸ hOpen) hOldView l hBefore)
      · rw [List.mem_singleton.mp hNew]
        exact Nat.le_max_left _ _
    · split_ifs at hView
      · obtain ⟨old, hOldView, rfl⟩ := Option.map_eq_some_iff.mp hView
        exact le_max_of_le_right (h.reached j other old hOld hOpen hOldView l hL)
      · exact h.reached j other v hOld hOpen hView l hL
  · have hView : registry.view nodeId = some v := hSaid
    have hOld : ∀ old, s.registry.view nodeId = some old → old.lastLsn = 0 ∨
        ∃ (j : Nat) (other : NodeConnectionImpl),
          (s.setStream k { stream with connection := connection }).made[j]? = some other ∧
            other.nodeId = nodeId ∧ old.lastLsn ∈ other.connection.through := by
      intro old hOldView
      rcases h.known nodeId old hOldView with hZero | ⟨j, other, hOther, hId, hMem⟩
      · exact Or.inl hZero
      · by_cases hEq : k = j
        · subst hEq
          obtain rfl : stream = other := Option.some.inj (hAt.symm.trans hOther)
          exact Or.inr ⟨k, _, List.getElem?_set_self hLt, hId, hThrough ▸ List.mem_append_left _ hMem⟩
        · exact Or.inr ⟨j, other, (List.getElem?_set_ne hEq).trans hOther, hId, hMem⟩
    rw [hViews] at hView
    split_ifs at hView with hId
    · obtain ⟨old, hOldView, rfl⟩ := Option.map_eq_some_iff.mp hView
      rcases Nat.le_total lsn old.lastLsn with hLe | hLe
      · simp only [Nat.max_eq_right hLe]
        exact hOld old hOldView
      · simp only [Nat.max_eq_left hLe]
        exact Or.inr ⟨k, _, List.getElem?_set_self hLt, hId.symm, hThrough ▸ by simp⟩
    · exact hOld v hView
  · have hView : registry.view nodeId = some v := hSaid
    rw [hViews] at hView
    split_ifs at hView
    · obtain ⟨old, hOldView, rfl⟩ := Option.map_eq_some_iff.mp hView
      exact h.named nodeId old hOldView
    · exact h.named nodeId v hView

theorem Told.work (h : s.Told) (hStep : s.work k now = some t) : t.Told := by
  obtain ⟨stream, hAt, hRest⟩ := Option.bind_eq_some_iff.mp hStep
  obtain ⟨connection, hWork, hRest⟩ := Option.bind_eq_some_iff.mp hRest
  cases hDelivered : stream.connection.delivered with
  | some lsn =>
      simp only [hDelivered] at hRest
      cases hRecord : s.registry.recordSent stream.nodeId lsn now with
      | ok registry =>
          rw [hRecord] at hRest
          cases hRest
          exact h.recorded hAt hWork hDelivered hRecord
      | error error =>
          rw [hRecord] at hRest
          cases hRest
          exact (h.setStream (NodeRegistry.recordSent_error hRecord) (NodeConnection.handed_idle rfl) k).moves
            (moves_close _ k)
  | none =>
      have hMoves := moves_setStream hAt (grew_work hWork hDelivered)
      simp only [hDelivered] at hRest
      split_ifs at hRest with hClosed
      · cases hRest
        exact h.moves (hMoves.trans (moves_close _ k))
      · cases hRest
        have hSame := NodeConnection.closed_work hWork (Or.inl (Bool.eq_false_iff.mpr hClosed))
        rw [← hSame] at hMoves
        exact h.moves hMoves

theorem Told.fail (h : s.Told) (hStep : s.fail k = some t) : t.Told := by
  obtain ⟨stream, hAt, hRest⟩ := Option.bind_eq_some_iff.mp hStep
  obtain ⟨_, hGuard, hRest⟩ := Option.bind_eq_some_iff.mp hRest
  have hIdle : stream.connection.waiting = false := by
    by_contra hWaiting
    simp [guard, hWaiting] at hGuard
  cases hRest
  have hGrew : stream.Grew { stream with connection := stream.connection.dropTask } := by
    have hThrough : stream.connection.dropTask.through = stream.connection.through :=
      (NodeConnection.through_idle rfl).1.trans (NodeConnection.through_idle hIdle).1.symm
    exact ⟨rfl, fun _ => NodeConnection.handed_idle rfl, fun _ => by
      have hSame : stream.connection.through ⊆ stream.connection.dropTask.through := by
        rw [hThrough]
        exact List.Subset.refl _
      exact hSame, fun _ hOpen => ⟨hOpen, hThrough⟩⟩
  exact h.moves ((moves_setStream hAt hGrew).trans (moves_close _ k))

theorem Told.keepalive (h : s.Told) (hStep : s.keepalive k now = some t) : t.Told := by
  obtain ⟨stream, hAt, hRest⟩ := Option.bind_eq_some_iff.mp hStep
  obtain ⟨-, -, hRest⟩ := Option.bind_eq_some_iff.mp hRest
  cases hRest
  refine h.moves ⟨grew_set hAt (grew_enqueueAll stream
    [.keepalive s.coordinator.lastLsn s.coordinator.metaState.generation]), fun nodeId v hSaid => ?_⟩
  have hView : (orSame s.registry (s.registry.touch stream.nodeId now)).view nodeId = some v := hSaid
  rw [NodeRegistry.view_touch] at hView
  split_ifs at hView
  · obtain ⟨old, hOld, rfl⟩ := Option.map_eq_some_iff.mp hView
    exact ⟨old, hOld, rfl, rfl⟩
  · exact ⟨v, hView, rfl, rfl⟩

theorem moves_ended (s : DistributedServer) (k : Nat) : Moves s (s.ended k) := by
  rw [ended]
  split
  · exact moves_refl s
  · next stream hAt =>
    split_ifs
    · rw [abortUnregistered, hAt]
      dsimp only
      split_ifs
      · exact moves_refl s
      · exact moves_setStream hAt (grew_closed rfl rfl fun h => ⟨h, List.Subset.refl _⟩)
    · exact moves_close s k

/-- A connection that has just been made, whether or not its node is registered. -/
theorem subscribe_fresh {lastLsn : Int} (h : (s.subscribe nodeId lastLsn now).1.made = s.made ++ [stream]) :
    stream.connection.written = [] ∧ stream.connection.waiting = false := by
  have hNone : s.made ≠ s.made ++ [stream] := by
    intro hEq
    have hLength := congrArg List.length hEq
    simp at hLength
  rw [subscribe] at h
  split_ifs at h
  · exact absurd h hNone
  cases hLsn : toLsn lastLsn with
  | none =>
      rw [hLsn] at h
      exact absurd h hNone
  | some requestedLsn =>
      simp only [hLsn] at h
      split_ifs at h
      · exact absurd h hNone
      cases hRegister : s.registry.registerNode nodeId s.made.length now with
      | error error =>
          simp only [hRegister] at h
          simp only [abortUnregistered, List.getElem?_concat_length, Bool.false_eq_true, if_false,
            DistributedServer.setStream, List.set_append_right _ _ (Nat.le_refl _), Nat.sub_self, List.set_cons_zero,
            List.append_cancel_left_eq, List.cons.injEq, and_true] at h
          rw [← h]
          exact ⟨rfl, rfl⟩
      | ok registry =>
          simp only [hRegister, List.append_cancel_left_eq, List.cons.injEq, and_true] at h
          rw [← h]
          exact ⟨rfl, rfl⟩

/-- A connection joins, which has nothing through; a view that is new says so. -/
theorem Told.append (h : s.Told) (hMade : t.made = s.made ++ [stream])
    (hFresh : stream.connection.written = [] ∧ stream.connection.waiting = false)
    (hViews : ∀ other v, t.registry.view other = some v →
      v.nodeId = other ∧ (v.lastLsn = 0 ∨ s.registry.view other = some v))
    (hOpen : ∀ (k : Nat) old v, s.made[k]? = some old → old.connection.closed = false →
      t.registry.view old.nodeId = some v → s.registry.view old.nodeId = some v) : t.Told := by
  have hThrough : stream.connection.through = [] := by
    rw [(NodeConnection.through_idle hFresh.2).1, hFresh.1]
    rfl
  have hCases : ∀ (k : Nat) found, t.made[k]? = some found → s.made[k]? = some found ∨ found = stream := by
    intro k found hFound
    rw [hMade] at hFound
    rcases Positions.getElem?_concat_cases hFound with hOld | ⟨-, hNew⟩
    · exact Or.inl hOld
    · exact Or.inr hNew
  refine ⟨fun k found hFound => ?_, fun k found v hFound hClosed hView lsn hLsn => ?_, fun nodeId v hView => ?_,
    fun nodeId v hView => (hViews nodeId v hView).1⟩
  · rcases hCases k found hFound with hOld | rfl
    · exact h.handed k found hOld
    · exact NodeConnection.handed_idle hFresh.2
  · rcases hCases k found hFound with hOld | rfl
    · exact h.reached k found v hOld hClosed (hOpen k found v hOld hClosed hView) lsn hLsn
    · rw [hThrough] at hLsn
      cases hLsn
  · rcases (hViews nodeId v hView).2 with hZero | hOld
    · exact Or.inl hZero
    · rcases h.known nodeId v hOld with hZero | ⟨k, found, hFound, hId, hMem⟩
      · exact Or.inl hZero
      · refine Or.inr ⟨k, found, ?_, hId, hMem⟩
        rw [hMade]
        exact Positions.getElem?_append_of_eq_some hFound _

/-- A node is registered only while no connection of it is open, so nothing that got through on
an open one is forgotten. -/
theorem Told.subscribe (h : s.Told) (hAgrees : s.Agrees) (nodeId : JsString) (lastLsn : Int) (now : Nat) :
    (s.subscribe nodeId lastLsn now).1.Told := by
  rcases s.subscribe_cases nodeId lastLsn now with
    hSame | ⟨error, stream, -, -, -, -, hEq⟩ | ⟨registry, stream, hRegister, -, -, -, hEq⟩
  · rw [hSame]
    exact h
  · have hMade : (s.subscribe nodeId lastLsn now).1.made = s.made ++ [stream] := by rw [hEq]
    have hRegistry : (s.subscribe nodeId lastLsn now).1.registry = s.registry := by rw [hEq]
    refine h.append hMade (subscribe_fresh hMade) (fun other v hView => ?_) fun k old v _ _ hView => ?_
    · rw [hRegistry] at hView
      exact ⟨h.named other v hView, Or.inr hView⟩
    · rwa [hRegistry] at hView
  · have hMade : (s.subscribe nodeId lastLsn now).1.made = s.made ++ [stream] := by rw [hEq]
    have hViews : ∀ other, (s.subscribe nodeId lastLsn now).1.registry.view other =
        if other = nodeId then some ⟨nodeId, 0, now, true⟩ else s.registry.view other := by
      intro other
      rw [hEq]
      exact NodeRegistry.view_registerNode hRegister other
    refine h.append hMade (subscribe_fresh hMade) (fun other v hView => ?_) fun k old v hOld hOpen hView => ?_
    · rw [hViews] at hView
      split_ifs at hView with hOther
      · cases hView
        exact ⟨hOther.symm, Or.inl rfl⟩
      · exact ⟨h.named other v hView, Or.inr hView⟩
    · rw [hViews] at hView
      split_ifs at hView with hOther
      · have hHeld := hAgrees.held_of_open hOld hOpen
        rw [hOther] at hHeld
        rw [NodeRegistry.registerNode_held hHeld] at hRegister
        cases hRegister
      · exact hView

theorem Told.step (h : s.Told) (hAgrees : s.Agrees) {a : Action} (hStep : s.step a = some t) : t.Told := by
  cases a with
  | add append applied tombstone item =>
      cases hStep
      exact h.moves (moves_broadcast s _)
  | rotation append metaWrite unlinkFails =>
      cases hStep
      exact h.moves (moves_broadcast s _)
  | subscribe nodeId lastLsn now =>
      cases hStep
      exact h.subscribe hAgrees nodeId lastLsn now
  | ended k =>
      cases hStep
      exact h.moves (moves_ended s k)
  | work k now => exact h.work hStep
  | fail k => exact h.fail hStep
  | keepalive k now => exact h.keepalive hStep
  | stop =>
      cases hStep
      exact h.moves (moves_stop s)

theorem told_run {coordinator : Coordinator} {actions : List Action}
    (run : Run (ofStep step) (start coordinator) actions s) : s.Told ∧ s.Agrees :=
  run.invariant (P := fun u : DistributedServer => u.Told ∧ u.Agrees)
    (fun _ _ _ h hStep => ⟨h.1.step h.2 hStep, h.2.step hStep⟩) ⟨told_start coordinator, agrees_start coordinator⟩

/-- The entries of the registry are its views, each under the id of its node. -/
theorem Told.nodeId_entry (h : s.Told) {nodes : AList fun _ : JsString => NodeEntry}
    (hNodes : s.registry.nodes = some nodes) {entry : Sigma fun _ : JsString => NodeEntry}
    (hMem : entry ∈ nodes.entries) : s.registry.view entry.1 = some entry.2.toNodeEntryView ∧
      entry.2.nodeId = entry.1 := by
  have hView : s.registry.view entry.1 = some entry.2.toNodeEntryView := by
    rw [NodeRegistry.view, hNodes, Option.bind_some, AList.mem_lookup_iff.mpr hMem]
    rfl
  exact ⟨hView, h.named _ _ hView⟩

/-- `ListNodes` lists each node once, exactly those with an open stream, and says of each no
less than what has got through on that stream, and no more than what has got through on some
stream of that node: a chain that ends late may still record on the entry of the next one.
After `stop` it is refused. The order of the list is left out, and `lastSeenMs` may be any
time of a callback. -/
theorem listNodes_progress (coordinator : Coordinator) {actions : List Action}
    (run : Run (ofStep step) (start coordinator) actions s) :
    (.stop ∈ actions → s.registry.listNodes = .error NodeRegistry.notInitialized) ∧
    (.stop ∉ actions → ∃ views, s.registry.listNodes = .ok views ∧ (views.map NodeEntryView.nodeId).Nodup ∧
      (∀ k nodeId, s.Serves k nodeId → ∃ v ∈ views, v.nodeId = nodeId) ∧
      ∀ v ∈ views, v.connected = true ∧
        (∃ (k : Nat) (stream : NodeConnectionImpl), s.Serves k v.nodeId ∧ s.made[k]? = some stream ∧
          ∀ lsn ∈ stream.connection.through, lsn ≤ v.lastLsn) ∧
        (v.lastLsn = 0 ∨ ∃ (j : Nat) (other : NodeConnectionImpl), s.made[j]? = some other ∧
          other.nodeId = v.nodeId ∧ v.lastLsn ∈ other.connection.through)) := by
  obtain ⟨hTold, hAgrees⟩ := told_run run
  obtain ⟨-, hStopped, hRunning⟩ := agrees_run run
  refine ⟨fun hStop => ?_, fun hStop => ?_⟩
  · rw [NodeRegistry.listNodes, NodeRegistry.requireMap_of_none (hStopped hStop)]
    rfl
  obtain ⟨nodes, hNodes⟩ := Option.isSome_iff_exists.mp (hRunning hStop)
  refine ⟨nodes.entries.map fun entry => entry.2.toNodeEntryView, ?_, ?_, fun k nodeId hServes => ?_, fun v hMem => ?_⟩
  · rw [NodeRegistry.listNodes, NodeRegistry.requireMap_eq_ok.mpr hNodes]
    rfl
  · have hIds : (nodes.entries.map fun entry => entry.2.toNodeEntryView).map NodeEntryView.nodeId = nodes.keys := by
      rw [List.map_map]
      exact List.map_congr_left fun entry hEntry => (hTold.nodeId_entry hNodes hEntry).2
    rw [hIds]
    exact nodes.keys_nodup
  · obtain ⟨hOpen, stream, hAt, rfl, -⟩ := hServes
    obtain ⟨other, hOther, -, hHeld⟩ := hAgrees.serves k hOpen
    obtain rfl : stream = other := Option.some.inj (hAt.symm.trans hOther)
    obtain ⟨found, hFound, hEntry⟩ := Option.bind_eq_some_iff.mp hHeld
    obtain rfl : nodes = found := Option.some.inj (hNodes.symm.trans hFound)
    obtain ⟨entry, hLookup, -⟩ := Option.map_eq_some_iff.mp hEntry
    have hMem : (⟨stream.nodeId, entry⟩ : Sigma fun _ : JsString => NodeEntry) ∈ nodes.entries :=
      AList.mem_lookup_iff.mp hLookup
    exact ⟨entry.toNodeEntryView, List.mem_map_of_mem hMem, (hTold.nodeId_entry hNodes hMem).2⟩
  · obtain ⟨entry, hEntry, rfl⟩ := List.mem_map.mp hMem
    obtain ⟨hView, hId⟩ := hTold.nodeId_entry hNodes hEntry
    obtain ⟨k, hHeld⟩ := NodeRegistry.held_of_view hView
    obtain ⟨hConnected, hServes⟩ := hAgrees.held _ _ _ hHeld
    obtain ⟨-, stream, hAt, hNode, hOpen⟩ := id hServes
    refine ⟨hConnected, ⟨k, stream, hId ▸ hServes, hAt, hTold.reached k stream _ hAt hOpen (hNode ▸ hView)⟩, ?_⟩
    rw [hId]
    exact hTold.known _ _ hView

/-- A node that is served and gets the log of two, and one that has come and gone. -/
def visited : List Action :=
  [.subscribe [0x61] 0 1, .subscribe [0x62] 0 2, .work 0 3, .work 0 4, .work 0 5, .ended 1]

theorem listNodes_progress_visited :
    ∃ (s : DistributedServer) (views : List NodeEntryView), s.registry.listNodes = .ok views ∧
      (views.map NodeEntryView.nodeId).Nodup ∧ views = [⟨[0x61], 1, 5, true⟩] := by
  have hEnd : (exec step (start (Subscription.logAfter [.step (.add [0x78] (.ok ()))]).coordinator) visited).map
      (fun s => s.registry.listNodes) = some (.ok [⟨[0x61], 1, 5, true⟩]) := by
    decide +kernel
  obtain ⟨s, hRun, hList⟩ := Option.map_eq_some_iff.mp hEnd
  obtain ⟨views, hViews, hNodup, -⟩ := (listNodes_progress _ (run_of_exec hRun)).2 (by simp [visited])
  rw [hList] at hViews
  cases hViews
  exact ⟨s, _, hList, hNodup, rfl⟩

end DistributedServer

end TokenRevoker
