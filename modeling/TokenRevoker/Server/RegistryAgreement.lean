import TokenRevoker.Server.DistributedServer

/-! The registry and the connections of the server agree: a node has an entry as long as
one connection serves it, whichever callbacks of gRPC still come for connections that are
over. -/
namespace TokenRevoker

open Text Transition

namespace NodeRegistry

variable {r r' : NodeRegistry} {nodeId other : JsString} {k lsn now : Nat}

/-- Whether the entry of a node is connected, and its connection. -/
def held (r : NodeRegistry) (nodeId : JsString) : Option (Bool × Nat) :=
  r.nodes.bind fun nodes => (nodes.lookup nodeId).map fun entry => (entry.connected, entry.connection)

theorem held_eq_none_of_nodes (h : r.nodes = none) (nodeId : JsString) : r.held nodeId = none := by
  simp [held, h]

theorem requireMap_eq_ok {nodes : AList fun _ : JsString => NodeEntry} :
    r.requireMap = .ok nodes ↔ r.nodes = some nodes := by
  rw [requireMap]
  cases r.nodes with
  | none => simp
  | some nodes' => simp

theorem requireMap_of_none (h : r.nodes = none) : r.requireMap = .error notInitialized := by
  rw [requireMap, h]

theorem findNode_ok {nodes : AList fun _ : JsString => NodeEntry} (h : r.nodes = some nodes) :
    r.findNode nodeId = .ok ((nodes.lookup nodeId).map NodeEntry.toNodeEntryView) := by
  rw [findNode, requireMap_eq_ok.mpr h]
  rfl

/-- An entry is found where one is held. -/
theorem findNode_iff :
    (∃ view, r.findNode nodeId = .ok (some view)) ↔ ∃ holder, r.held nodeId = some holder := by
  cases hNodes : r.nodes with
  | none =>
      rw [held_eq_none_of_nodes hNodes, findNode, requireMap_of_none hNodes]
      exact iff_of_false (fun ⟨_, h⟩ => by cases h) (fun ⟨_, h⟩ => by cases h)
  | some nodes =>
      simp only [findNode_ok hNodes, held, hNodes, Option.bind_some, Except.ok.injEq, Option.map_eq_some_iff]
      exact ⟨fun ⟨_, entry, hEntry, _⟩ => ⟨_, entry, hEntry, rfl⟩,
        fun ⟨_, entry, hEntry, _⟩ => ⟨_, entry, hEntry, rfl⟩⟩

theorem held_registerNode (h : r.registerNode nodeId k now = .ok r') (other : JsString) :
    r'.held other = if other = nodeId then some (true, k) else r.held other := by
  cases hNodes : r.nodes with
  | none =>
      rw [registerNode, requireMap_of_none hNodes] at h
      cases h
  | some nodes =>
      rw [registerNode, requireMap_eq_ok.mpr hNodes] at h
      simp only [bind, Except.bind] at h
      split_ifs at h
      cases h
      split_ifs with hOther
      · subst hOther
        simp [held]
      · simp [held, hNodes, AList.lookup_insert_ne hOther]

/-- A node with an active stream is not registered again. -/
theorem registerNode_held {held : Nat} (h : r.held nodeId = some (true, held)) :
    r.registerNode nodeId k now = .error (activeStream nodeId) := by
  obtain ⟨nodes, hNodes, hEntry⟩ := Option.bind_eq_some_iff.mp h
  obtain ⟨entry, hLookup, hHeld⟩ := Option.map_eq_some_iff.mp hEntry
  have hConnected : entry.connected = true := congrArg Prod.fst hHeld
  rw [registerNode, requireMap_eq_ok.mpr hNodes]
  simp [bind, Except.bind, hLookup, hConnected]

theorem registerNode_none (h : r.nodes = none) :
    r.registerNode nodeId k now = .error notInitialized := by
  rw [registerNode, requireMap_of_none h]
  rfl

/-- Only `init` and `destroy` put a map there or take it away. -/
theorem isSome_registerNode (h : r.registerNode nodeId k now = .ok r') : r'.nodes.isSome = r.nodes.isSome := by
  cases hNodes : r.nodes with
  | none =>
      rw [registerNode_none hNodes] at h
      cases h
  | some nodes =>
      rw [registerNode, requireMap_eq_ok.mpr hNodes] at h
      simp only [bind, Except.bind] at h
      split_ifs at h
      cases h
      rfl

theorem isSome_unregisterNode (r : NodeRegistry) (nodeId : JsString) :
    (orSame r (r.unregisterNode nodeId)).nodes.isSome = r.nodes.isSome := by
  cases hNodes : r.nodes with
  | none =>
      rw [unregisterNode, requireMap_of_none hNodes]
      exact congrArg Option.isSome hNodes
  | some nodes =>
      rw [unregisterNode, requireMap_eq_ok.mpr hNodes]
      rfl

theorem isSome_recordSent (h : r.recordSent nodeId lsn now = .ok r') : r'.nodes.isSome = r.nodes.isSome := by
  cases hNodes : r.nodes with
  | none =>
      rw [recordSent, requireMap_of_none hNodes] at h
      cases h
  | some nodes =>
      rw [recordSent, requireMap_eq_ok.mpr hNodes] at h
      simp only [bind, Except.bind] at h
      cases hLookup : nodes.lookup nodeId with
      | none =>
          rw [hLookup] at h
          cases h
          exact congrArg Option.isSome hNodes
      | some entry =>
          rw [hLookup] at h
          cases h
          rfl

theorem isSome_touch (r : NodeRegistry) (nodeId : JsString) (now : Nat) :
    (orSame r (r.touch nodeId now)).nodes.isSome = r.nodes.isSome := by
  cases hNodes : r.nodes with
  | none =>
      rw [touch, requireMap_of_none hNodes]
      exact congrArg Option.isSome hNodes
  | some nodes =>
      rw [touch, requireMap_eq_ok.mpr hNodes]
      cases hLookup : nodes.lookup nodeId with
      | none => simp [orSame, bind, Except.bind, pure, Except.pure, hLookup, hNodes]
      | some entry => simp [orSame, bind, Except.bind, pure, Except.pure, hLookup]

theorem held_unregisterNode (r : NodeRegistry) (nodeId other : JsString) :
    (orSame r (r.unregisterNode nodeId)).held other = if other = nodeId then none else r.held other := by
  cases hNodes : r.nodes with
  | none =>
      rw [unregisterNode, requireMap_of_none hNodes]
      simp [orSame, bind, Except.bind, held, hNodes]
  | some nodes =>
      rw [unregisterNode, requireMap_eq_ok.mpr hNodes]
      by_cases hOther : other = nodeId
      · subst hOther
        simp [orSame, bind, Except.bind, pure, Except.pure, held]
      · simp [orSame, bind, Except.bind, pure, Except.pure, held, hNodes, hOther, AList.lookup_erase_ne hOther]

/-- Another LSN or another time in an entry. -/
theorem held_insert {nodes : AList fun _ : JsString => NodeEntry} (hNodes : r.nodes = some nodes)
    {entry entry' : NodeEntry} (hLookup : nodes.lookup nodeId = some entry)
    (hConnected : entry'.connected = entry.connected) (hConnection : entry'.connection = entry.connection)
    (other : JsString) : held { nodes := some (nodes.insert nodeId entry') } other = r.held other := by
  by_cases hOther : other = nodeId
  · subst hOther
    simp [held, hNodes, hLookup, hConnected, hConnection]
  · simp [held, hNodes, AList.lookup_insert_ne hOther]

theorem held_recordSent (h : r.recordSent nodeId lsn now = .ok r') (other : JsString) :
    r'.held other = r.held other := by
  cases hNodes : r.nodes with
  | none =>
      rw [recordSent, requireMap_of_none hNodes] at h
      cases h
  | some nodes =>
      rw [recordSent, requireMap_eq_ok.mpr hNodes] at h
      simp only [bind, Except.bind] at h
      cases hLookup : nodes.lookup nodeId with
      | none =>
          rw [hLookup] at h
          cases h
          rfl
      | some entry =>
          rw [hLookup] at h
          cases h
          exact held_insert hNodes hLookup (by rfl) (by rfl) other

theorem held_touch (r : NodeRegistry) (nodeId other : JsString) (now : Nat) :
    (orSame r (r.touch nodeId now)).held other = r.held other := by
  cases hNodes : r.nodes with
  | none =>
      rw [touch, requireMap_of_none hNodes]
      rfl
  | some nodes =>
      rw [touch, requireMap_eq_ok.mpr hNodes]
      cases hLookup : nodes.lookup nodeId with
      | none => simp [orSame, bind, Except.bind, pure, Except.pure, hLookup]
      | some entry =>
          simp only [orSame, bind, Except.bind, pure, Except.pure, hLookup]
          exact held_insert hNodes hLookup (by rfl) (by rfl) other

end NodeRegistry

/-- What holds of every connection that was made. -/
structure NodeConnectionImpl.Orderly (stream : NodeConnectionImpl) : Prop where
  timer : stream.connection.closed = true → stream.keepaliveTimer = false
  fresh : stream.connection.closed = false → stream.cleanups = 0
  once : stream.cleanups ≤ 1
  rejected : stream.rejected = true → stream.connection.closed = true ∧ stream.connection.tasks = []

/-- The connection is the same for the registry and for `#connections`. -/
structure NodeConnectionImpl.Keeps (stream stream' : NodeConnectionImpl) : Prop where
  nodeId : stream'.nodeId = stream.nodeId
  closed : stream'.connection.closed = stream.connection.closed
  orderly : stream.Orderly → stream'.Orderly

namespace NodeConnectionImpl

variable {stream : NodeConnectionImpl} {connection : NodeConnection}

theorem Keeps.refl (stream : NodeConnectionImpl) : stream.Keeps stream := ⟨rfl, rfl, id⟩

theorem keeps_connection (hClosed : connection.closed = stream.connection.closed)
    (hTasks : stream.connection.closed = true → stream.connection.tasks = [] → connection.tasks = []) :
    stream.Keeps { stream with connection := connection } where
  nodeId := rfl
  closed := hClosed
  orderly h := {
    timer := fun h' => h.timer (hClosed ▸ h')
    fresh := fun h' => h.fresh (hClosed ▸ h')
    once := h.once
    rejected := fun h' => ⟨hClosed.trans (h.rejected h').1, hTasks (h.rejected h').1 (h.rejected h').2⟩ }

theorem Orderly.close (h : stream.Orderly) (hOpen : stream.connection.closed = false) :
    stream.close.Orderly where
  timer := fun _ => rfl
  fresh := fun h' => by cases h'
  once := by
    have hZero := h.fresh hOpen
    simp [NodeConnectionImpl.close, hZero]
  rejected := fun h' => by
    have hClosed := (h.rejected h').1
    rw [hOpen] at hClosed
    cases hClosed

end NodeConnectionImpl

namespace NodeConnection

variable {c d : NodeConnection} {coordinator : Coordinator}

theorem closed_foldl_enqueue (events : List OutboundEvent) (c : NodeConnection) :
    (events.foldl enqueue c).closed = c.closed ∧ (c.closed = true → events.foldl enqueue c = c) := by
  induction events generalizing c with
  | nil => exact ⟨rfl, fun _ => rfl⟩
  | cons event rest ih =>
      have hOne : (c.enqueue event).closed = c.closed := by
        rw [enqueue, enqueueTask]
        split_ifs <;> rfl
      refine ⟨(ih _).1.trans hOne, fun hClosed => ?_⟩
      have hSame : c.enqueue event = c := by rw [enqueue, enqueueTask, if_pos hClosed]
      rw [List.foldl_cons, hSame]
      exact (ih c).2 hClosed

/-- The chain closes a connection only where the log cannot be read. -/
theorem closed_work (hWork : c.work coordinator = some d) (h : d.closed = false ∨ c.delivered.isSome = true) :
    d.closed = c.closed := by
  rw [work] at hWork
  split at hWork
  · cases hWork
  · next fromLsn rest hTasks =>
      have hDelivered : c.delivered = none := by
        rw [delivered, hTasks]
        cases c.waiting <;> rfl
      split_ifs at hWork
      · cases hWork
        rfl
      · split at hWork <;> cases hWork
        · simp [hDelivered] at h
        · rfl
        · rfl
  · split_ifs at hWork <;> cases hWork <;> rfl
  · split_ifs at hWork <;> cases hWork <;> rfl

theorem tasks_ne_nil_of_work (hWork : c.work coordinator = some d) : c.tasks ≠ [] := by
  intro hNil
  rw [work, hNil] at hWork
  cases hWork

end NodeConnection

namespace DistributedServer

variable {s t : DistributedServer} {stream stream' : NodeConnectionImpl} {nodeId : JsString} {k now : Nat}

/-- The registry has the connections that are open, and so has `#connections`. -/
structure Agrees (s : DistributedServer) : Prop where
  held : ∀ nodeId connected k, s.registry.held nodeId = some (connected, k) →
    connected = true ∧ s.Serves k nodeId
  serves : ∀ k ∈ s.connections, ∃ stream, s.made[k]? = some stream ∧ stream.connection.closed = false ∧
    s.registry.held stream.nodeId = some (true, k)
  isOpen : ∀ (k : Nat) stream, s.made[k]? = some stream → stream.connection.closed = false → k ∈ s.connections
  orderly : ∀ (k : Nat) stream, s.made[k]? = some stream → stream.Orderly

theorem agrees_start (coordinator : Coordinator) : (start coordinator).Agrees where
  held := by
    intro nodeId connected k h
    cases h
  serves := by
    intro k h
    cases h
  isOpen := by
    intro k stream h
    cases h
  orderly := by
    intro k stream h
    cases h

/-- The connections are those that were there, each the same for the registry. -/
def Kept (s t : DistributedServer) : Prop :=
  ∀ k : Nat, Option.Rel NodeConnectionImpl.Keeps s.made[k]? t.made[k]?

theorem Kept.later (h : Kept s t) (hAt : s.made[k]? = some stream) :
    ∃ stream', t.made[k]? = some stream' ∧ stream.Keeps stream' := by
  have hRel := h k
  rw [hAt] at hRel
  generalize t.made[k]? = found at hRel
  cases hRel with
  | some hKeeps => exact ⟨_, rfl, hKeeps⟩

theorem Kept.earlier (h : Kept s t) (hAt : t.made[k]? = some stream') :
    ∃ stream, s.made[k]? = some stream ∧ stream.Keeps stream' := by
  have hRel := h k
  rw [hAt] at hRel
  generalize s.made[k]? = found at hRel
  cases hRel with
  | some hKeeps => exact ⟨_, rfl, hKeeps⟩

theorem kept_refl (s : DistributedServer) : Kept s s := by
  intro k
  cases s.made[k]? with
  | none => exact .none
  | some stream => exact .some (NodeConnectionImpl.Keeps.refl stream)

theorem kept_set (hAt : s.made[k]? = some stream) (hKeeps : stream.Keeps stream') :
    Kept s (s.setStream k stream') := by
  intro j
  have hLt : k < s.made.length := (List.getElem?_eq_some_iff.mp hAt).1
  by_cases hEq : k = j
  · subst hEq
    rw [setStream, List.getElem?_set_self hLt, hAt]
    exact .some hKeeps
  · rw [setStream, List.getElem?_set_ne hEq]
    exact kept_refl s j

/-- A step that changes neither the registry's connections nor `#connections`. -/
theorem Agrees.of_kept (h : s.Agrees) (hKept : Kept s t)
    (hHeld : ∀ nodeId, t.registry.held nodeId = s.registry.held nodeId)
    (hConnections : t.connections = s.connections) : t.Agrees where
  held := by
    intro nodeId connected k hHolder
    rw [hHeld] at hHolder
    obtain ⟨hConnected, hMem, stream, hAt, hId, hOpen⟩ := h.held nodeId connected k hHolder
    obtain ⟨stream', hAt', hKeeps⟩ := hKept.later hAt
    exact ⟨hConnected, hConnections ▸ hMem, stream', hAt', hKeeps.nodeId.trans hId, hKeeps.closed.trans hOpen⟩
  serves := by
    intro k hMem
    rw [hConnections] at hMem
    obtain ⟨stream, hAt, hOpen, hHolder⟩ := h.serves k hMem
    obtain ⟨stream', hAt', hKeeps⟩ := hKept.later hAt
    exact ⟨stream', hAt', hKeeps.closed.trans hOpen, by rw [hKeeps.nodeId, hHeld, hHolder]⟩
  isOpen := by
    intro k stream' hAt' hOpen
    obtain ⟨stream, hAt, hKeeps⟩ := hKept.earlier hAt'
    rw [hConnections]
    exact h.isOpen k stream hAt (hKeeps.closed.symm.trans hOpen)
  orderly := by
    intro k stream' hAt'
    obtain ⟨stream, hAt, hKeeps⟩ := hKept.earlier hAt'
    exact hKeeps.orderly (h.orderly k stream hAt)

/-- Nothing is to be closed of a connection that is closed already. -/
theorem close_of_closed (hAt : s.made[k]? = some stream) (hClosed : stream.connection.closed = true) :
    s.close k = s := by
  rw [close, hAt]
  exact if_pos hClosed

theorem close_of_open (hAt : s.made[k]? = some stream) (hOpen : stream.connection.closed = false) :
    s.close k = (s.setStream k stream.close).cleanup k stream.nodeId := by
  rw [close, hAt]
  exact if_neg (by rw [hOpen]; exact Bool.false_ne_true)

/-- Only open connections are in `#connections`. -/
theorem Agrees.not_mem (h : s.Agrees)
    (hClosed : ∀ stream, s.made[k]? = some stream → stream.connection.closed = true) : k ∉ s.connections := by
  intro hMem
  obtain ⟨stream, hAt, hOpen, -⟩ := h.serves k hMem
  rw [hClosed stream hAt] at hOpen
  cases hOpen

/-- The registry has an open connection for its node. -/
theorem Agrees.held_of_open (h : s.Agrees) (hAt : s.made[k]? = some stream)
    (hOpen : stream.connection.closed = false) : s.registry.held stream.nodeId = some (true, k) := by
  obtain ⟨other, hOther, -, hHolder⟩ := h.serves k (h.isOpen k stream hAt hOpen)
  rw [hAt, Option.some.injEq] at hOther
  rw [hOther, hHolder]

/-- An open connection is taken out of both, and nothing else. -/
theorem Agrees.cleanup (h : s.Agrees) (hAt : s.made[k]? = some stream)
    (hOpen : stream.connection.closed = false) :
    ((s.setStream k stream.close).cleanup k stream.nodeId).Agrees := by
  have hLt : k < s.made.length := (List.getElem?_eq_some_iff.mp hAt).1
  have hOwn := h.held_of_open hAt hOpen
  refine ⟨?_, ?_, ?_, ?_⟩
  · intro nodeId connected j hHolder
    rw [DistributedServer.cleanup, NodeRegistry.held_unregisterNode] at hHolder
    split_ifs at hHolder with hId
    obtain ⟨hConnected, hMem, other, hOther, rfl, hOtherOpen⟩ := h.held nodeId connected j hHolder
    have hNe : k ≠ j := by
      rintro rfl
      rw [hAt, Option.some.injEq] at hOther
      exact hId (by rw [hOther])
    exact ⟨hConnected, by simpa [DistributedServer.cleanup, setStream] using ⟨hMem, hNe.symm⟩, other,
      (List.getElem?_set_ne hNe).trans hOther, rfl, hOtherOpen⟩
  · intro j hMem
    obtain ⟨hMem, hNe⟩ : j ∈ s.connections ∧ j ≠ k := by
      simpa [DistributedServer.cleanup, setStream] using hMem
    obtain ⟨other, hOther, hOtherOpen, hHolder⟩ := h.serves j hMem
    refine ⟨other, (List.getElem?_set_ne hNe.symm).trans hOther, hOtherOpen, ?_⟩
    rw [DistributedServer.cleanup, NodeRegistry.held_unregisterNode, if_neg]
    · exact hHolder
    · -- the node of another connection is another one
      intro hId
      rw [hId, hOwn, Option.some.injEq, Prod.mk.injEq] at hHolder
      exact hNe hHolder.2.symm
  · intro j other hOther hOtherOpen
    have hNe : k ≠ j := by
      rintro rfl
      rw [DistributedServer.cleanup, setStream, List.getElem?_set_self hLt, Option.some.injEq] at hOther
      rw [← hOther] at hOtherOpen
      cases hOtherOpen
    have hMem := h.isOpen j other ((List.getElem?_set_ne hNe).symm.trans hOther) hOtherOpen
    simpa [DistributedServer.cleanup, setStream] using ⟨hMem, hNe.symm⟩
  · intro j other hOther
    by_cases hEq : k = j
    · subst hEq
      rw [DistributedServer.cleanup, setStream, List.getElem?_set_self hLt, Option.some.injEq] at hOther
      rw [← hOther]
      exact (h.orderly k stream hAt).close hOpen
    · exact h.orderly j other ((List.getElem?_set_ne hEq).symm.trans hOther)

/-- `close` and its cleanup take the connection out of both, and nothing else. -/
theorem Agrees.close (h : s.Agrees) (k : Nat) :
    (s.close k).Agrees ∧ ∀ j ∈ (s.close k).connections, j ∈ s.connections ∧ j ≠ k := by
  have hNothing : (∀ stream, s.made[k]? = some stream → stream.connection.closed = true) →
      ∀ j ∈ s.connections, j ∈ s.connections ∧ j ≠ k := by
    intro hClosed j hMem
    refine ⟨hMem, ?_⟩
    rintro rfl
    exact h.not_mem hClosed hMem
  cases hAt : s.made[k]? with
  | none =>
      have hSame : s.close k = s := by rw [DistributedServer.close, hAt]
      rw [hSame]
      exact ⟨h, hNothing fun stream hSome => by rw [hAt] at hSome; cases hSome⟩
  | some stream =>
      cases hClosed : stream.connection.closed with
      | true =>
          rw [close_of_closed hAt hClosed]
          refine ⟨h, hNothing fun other hOther => ?_⟩
          rw [hAt, Option.some.injEq] at hOther
          rw [← hOther, hClosed]
      | false =>
          rw [close_of_open hAt hClosed]
          refine ⟨h.cleanup hAt hClosed, fun j hMem => ?_⟩
          simpa [DistributedServer.cleanup, setStream] using hMem

theorem Agrees.closeAll (h : s.Agrees) (ks : List Nat) :
    (ks.foldl DistributedServer.close s).Agrees ∧
      ∀ j ∈ (ks.foldl DistributedServer.close s).connections, j ∈ s.connections ∧ j ∉ ks := by
  induction ks generalizing s with
  | nil => exact ⟨h, fun j hMem => ⟨hMem, List.not_mem_nil⟩⟩
  | cons k rest ih =>
      obtain ⟨hAgrees, hLeft⟩ := ih (h.close k).1
      refine ⟨hAgrees, fun j hMem => ?_⟩
      obtain ⟨hMem, hRest⟩ := hLeft j hMem
      obtain ⟨hMem, hNe⟩ := (h.close k).2 j hMem
      exact ⟨hMem, by simpa using ⟨hNe, hRest⟩⟩

theorem Agrees.broadcast (h : s.Agrees) (coordinator : Coordinator) : (s.broadcast coordinator).Agrees := by
  refine h.of_kept (fun k => ?_) (fun _ => rfl) rfl
  rw [DistributedServer.broadcast, List.getElem?_mapIdx]
  cases s.made[k]? with
  | none => exact .none
  | some stream =>
      refine .some ?_
      split_ifs
      · obtain ⟨hClosed, hSame⟩ := NodeConnection.closed_foldl_enqueue
          (coordinator.sent.drop s.coordinator.sent.length) stream.connection
        exact NodeConnectionImpl.keeps_connection hClosed fun h hTasks => by rw [hSame h, hTasks]
      · exact NodeConnectionImpl.Keeps.refl stream

/-- `registerNode` has accepted the new connection. -/
theorem Agrees.registered (h : s.Agrees) {registry : NodeRegistry}
    (hRegister : s.registry.registerNode nodeId s.made.length now = .ok registry)
    (hOpen : stream.connection.closed = false) (hId : stream.nodeId = nodeId) (hOrderly : stream.Orderly) :
    Agrees { s with
      registry := registry
      made := s.made ++ [stream]
      connections := s.connections ++ [s.made.length] } where
  held := by
    intro nodeId' connected k hHolder
    rw [NodeRegistry.held_registerNode hRegister] at hHolder
    split_ifs at hHolder with hSame
    · cases hHolder
      exact ⟨rfl, by simp, stream, by simp, hId.trans hSame.symm, hOpen⟩
    · obtain ⟨hConnected, hMem, other, hAt, hOther, hOtherOpen⟩ := h.held nodeId' connected k hHolder
      exact ⟨hConnected, List.mem_append_left _ hMem, other,
        Positions.getElem?_append_of_eq_some hAt _, hOther, hOtherOpen⟩
  serves := by
    intro k hMem
    rcases List.mem_append.mp hMem with hMem | hMem
    · obtain ⟨other, hAt, hOtherOpen, hHolder⟩ := h.serves k hMem
      refine ⟨other, Positions.getElem?_append_of_eq_some hAt _, hOtherOpen, ?_⟩
      rw [NodeRegistry.held_registerNode hRegister, if_neg]
      · exact hHolder
      · -- a node that has a connection would have been refused
        intro hSame
        rw [hSame] at hHolder
        rw [NodeRegistry.registerNode_held hHolder] at hRegister
        cases hRegister
    · obtain rfl := List.mem_singleton.mp hMem
      exact ⟨stream, by simp, hOpen, by rw [NodeRegistry.held_registerNode hRegister, if_pos hId]⟩
  isOpen := by
    intro k other hAt hOtherOpen
    rcases Positions.getElem?_concat_cases hAt with hOld | ⟨rfl, -⟩
    · exact List.mem_append_left _ (h.isOpen k other hOld hOtherOpen)
    · exact List.mem_append_right _ List.mem_cons_self
  orderly := by
    intro k other hAt
    rcases Positions.getElem?_concat_cases hAt with hOld | ⟨-, rfl⟩
    · exact h.orderly k other hOld
    · exact hOrderly

/-- A connection that was refused is closed from the start. -/
theorem Agrees.refused (h : s.Agrees) (hClosed : stream.connection.closed = true) (hOrderly : stream.Orderly) :
    Agrees { s with made := s.made ++ [stream] } where
  held := by
    intro nodeId connected k hHolder
    obtain ⟨hConnected, hMem, other, hAt, hOther, hOpen⟩ := h.held nodeId connected k hHolder
    exact ⟨hConnected, hMem, other, Positions.getElem?_append_of_eq_some hAt _, hOther, hOpen⟩
  serves := by
    intro k hMem
    obtain ⟨other, hAt, hOpen, hHolder⟩ := h.serves k hMem
    exact ⟨other, Positions.getElem?_append_of_eq_some hAt _, hOpen, hHolder⟩
  isOpen := by
    intro k other hAt hOpen
    rcases Positions.getElem?_concat_cases hAt with hOld | ⟨-, rfl⟩
    · exact h.isOpen k other hOld hOpen
    · rw [hClosed] at hOpen
      cases hOpen
  orderly := by
    intro k other hAt
    rcases Positions.getElem?_concat_cases hAt with hOld | ⟨-, rfl⟩
    · exact h.orderly k other hOld
    · exact hOrderly

/-- `Subscribe` registers the node, or it leaves the registry and `#connections` alone. -/
theorem subscribe_cases (s : DistributedServer) (nodeId : JsString) (lastLsn : Int) (now : Nat) :
    (s.subscribe nodeId lastLsn now).1 = s ∨
    (∃ error stream, s.registry.registerNode nodeId s.made.length now = .error error ∧
      stream.rejected = true ∧ stream.connection.closed = true ∧ stream.Orderly ∧
      s.subscribe nodeId lastLsn now = ({ s with made := s.made ++ [stream] }, .alreadyExists error.message)) ∨
    ∃ registry stream, s.registry.registerNode nodeId s.made.length now = .ok registry ∧
      stream.connection.closed = false ∧ stream.nodeId = nodeId ∧ stream.Orderly ∧
      (s.subscribe nodeId lastLsn now).1 = { s with
        registry := registry
        made := s.made ++ [stream]
        connections := s.connections ++ [s.made.length] } := by
  rw [subscribe]
  split_ifs
  · exact Or.inl rfl
  cases hLsn : toLsn lastLsn with
  | none => exact Or.inl rfl
  | some requestedLsn =>
      simp only
      split_ifs
      · exact Or.inl rfl
      cases hRegister : s.registry.registerNode nodeId s.made.length now with
      | error error =>
          refine Or.inr (Or.inl ⟨error,
            { nodeId := nodeId
              connection := { lastWrittenLsn := requestedLsn, closed := true }
              rejected := true },
            rfl, rfl, rfl, ⟨fun _ => rfl, fun _ => rfl, Nat.zero_le _, fun _ => ⟨rfl, rfl⟩⟩, ?_⟩)
          simp [abortUnregistered, setStream, NodeConnection.close]
      | ok registry =>
          refine Or.inr (Or.inr ⟨registry, _, rfl, rfl, rfl, ⟨?_, fun _ => rfl, Nat.zero_le _, ?_⟩, rfl⟩)
          · intro hClosed
            cases hClosed
          · intro hRejected
            cases hRejected

theorem Agrees.subscribe (h : s.Agrees) (nodeId : JsString) (lastLsn : Int) (now : Nat) :
    (s.subscribe nodeId lastLsn now).1.Agrees := by
  rcases s.subscribe_cases nodeId lastLsn now with
    hSame | ⟨error, stream, -, -, hClosed, hOrderly, hEq⟩ |
    ⟨registry, stream, hRegister, hOpen, hId, hOrderly, hEq⟩
  · rw [hSame]
    exact h
  · rw [hEq]
    exact h.refused hClosed hOrderly
  · rw [hEq]
    exact h.registered hRegister hOpen hId hOrderly

/-- The listeners of a refused call find its connection closed. -/
theorem Agrees.ended_rejected (h : s.Agrees) (hAt : s.made[k]? = some stream)
    (hRejected : stream.rejected = true) : s.ended k = s := by
  have hClosed := ((h.orderly k stream hAt).rejected hRejected).1
  simp [ended, abortUnregistered, hAt, hRejected, hClosed]

theorem Agrees.ended (h : s.Agrees) (k : Nat) : (s.ended k).Agrees := by
  cases hAt : s.made[k]? with
  | none =>
      rw [DistributedServer.ended, hAt]
      exact h
  | some stream =>
      cases hRejected : stream.rejected with
      | true =>
          rw [h.ended_rejected hAt hRejected]
          exact h
      | false =>
          simp only [DistributedServer.ended, hAt, hRejected, Bool.false_eq_true, if_false]
          exact (h.close k).1

/-- The first task of the chain is over, or a part of it. -/
theorem Agrees.setConnection (h : s.Agrees) (hAt : s.made[k]? = some stream) {connection : NodeConnection}
    (hTasks : stream.connection.tasks ≠ []) (hClosed : connection.closed = stream.connection.closed) :
    (s.setStream k { stream with connection := connection }).Agrees :=
  h.of_kept (kept_set hAt (NodeConnectionImpl.keeps_connection hClosed fun _ hNil => absurd hNil hTasks))
    (fun _ => rfl) rfl

theorem Agrees.work (h : s.Agrees) (hStep : s.work k now = some t) : t.Agrees := by
  obtain ⟨stream, hAt, hRest⟩ := Option.bind_eq_some_iff.mp hStep
  obtain ⟨connection, hWork, hRest⟩ := Option.bind_eq_some_iff.mp hRest
  have hTasks := NodeConnection.tasks_ne_nil_of_work hWork
  cases hDelivered : stream.connection.delivered with
  | some lsn =>
      have hClosed := NodeConnection.closed_work hWork (Or.inr (by rw [hDelivered]; rfl))
      simp only [hDelivered] at hRest
      cases hRecord : s.registry.recordSent stream.nodeId lsn now with
      | ok registry =>
          rw [hRecord] at hRest
          cases hRest
          exact (h.setConnection hAt hTasks hClosed).of_kept (fun j => kept_refl _ j)
            (NodeRegistry.held_recordSent hRecord) rfl
      | error error =>
          rw [hRecord] at hRest
          cases hRest
          exact ((h.setConnection hAt hTasks (by rfl)).close k).1
  | none =>
      simp only [hDelivered] at hRest
      split_ifs at hRest with hClosed
      · cases hRest
        exact ((h.setConnection hAt hTasks (by rfl)).close k).1
      · cases hRest
        exact h.setConnection hAt hTasks
          (NodeConnection.closed_work hWork (Or.inl (Bool.eq_false_iff.mpr hClosed)))

theorem Agrees.fail (h : s.Agrees) (hStep : s.fail k = some t) : t.Agrees := by
  obtain ⟨stream, hAt, hRest⟩ := Option.bind_eq_some_iff.mp hStep
  obtain ⟨_, hGuard, hRest⟩ := Option.bind_eq_some_iff.mp hRest
  have hTasks : stream.connection.tasks ≠ [] := by
    intro hNil
    simp [guard, hNil] at hGuard
  cases hRest
  exact ((h.setConnection hAt hTasks (by rfl)).close k).1

theorem Agrees.keepalive (h : s.Agrees) (hStep : s.keepalive k now = some t) : t.Agrees := by
  obtain ⟨stream, hAt, hRest⟩ := Option.bind_eq_some_iff.mp hStep
  obtain ⟨-, -, hRest⟩ := Option.bind_eq_some_iff.mp hRest
  cases hRest
  obtain ⟨hClosed, hSame⟩ := NodeConnection.closed_foldl_enqueue
    [.keepalive s.coordinator.lastLsn s.coordinator.metaState.generation] stream.connection
  refine h.of_kept (kept_set hAt (NodeConnectionImpl.keeps_connection hClosed fun h hNil => ?_))
    (fun nodeId => NodeRegistry.held_touch _ _ _ _) rfl
  exact (congrArg NodeConnection.tasks (hSame h)).trans hNil

/-- Every connection is closed before the map of the registry is dropped. -/
theorem Agrees.stop (h : s.Agrees) : s.stop.Agrees ∧ s.stop.registry.nodes = none := by
  have hListening : Agrees { s with listening := false } := ⟨h.held, h.serves, h.isOpen, h.orderly⟩
  obtain ⟨hAgrees, hLeft⟩ := hListening.closeAll s.connections
  have hNone : (s.connections.foldl DistributedServer.close { s with listening := false }).connections = [] :=
    List.eq_nil_iff_forall_not_mem.mpr fun j hMem => (hLeft j hMem).2 (hLeft j hMem).1
  have hCleared : ∀ u : DistributedServer, u.Agrees → u.connections = [] →
      (destroyRegistry { u with connections := [] }).Agrees ∧
        (destroyRegistry { u with connections := [] }).registry.nodes = none := by
    intro u hU hEmpty
    have hSame : ({ u with connections := [] } : DistributedServer) = u := by rw [← hEmpty]
    rw [hSame, destroyRegistry]
    cases hNodes : u.registry.nodes with
    | none => exact ⟨hU, hNodes⟩
    | some nodes =>
        obtain ⟨hAgrees, hLeft⟩ := hU.closeAll (nodes.entries.map fun entry => entry.2.connection)
        refine ⟨⟨?_, ?_, ?_, hAgrees.orderly⟩, rfl⟩
        · intro nodeId connected k hHolder
          cases hHolder
        · intro k hMem
          have hOld := (hLeft k hMem).1
          rw [hEmpty] at hOld
          cases hOld
        · exact hAgrees.isOpen
  exact hCleared _ hAgrees hNone

theorem Agrees.step (h : s.Agrees) {a : Action} (hStep : s.step a = some t) : t.Agrees := by
  cases a with
  | add append applied tombstone item =>
      cases hStep
      exact h.broadcast _
  | rotation append metaWrite unlinkFails =>
      cases hStep
      exact h.broadcast _
  | subscribe nodeId lastLsn now =>
      cases hStep
      exact h.subscribe nodeId lastLsn now
  | ended k =>
      cases hStep
      exact h.ended k
  | work k now => exact h.work hStep
  | fail k => exact h.fail hStep
  | keepalive k now => exact h.keepalive hStep
  | stop =>
      cases hStep
      exact h.stop.1

section Destroyed

theorem isSome_close (s : DistributedServer) (k : Nat) :
    (s.close k).registry.nodes.isSome = s.registry.nodes.isSome := by
  cases hAt : s.made[k]? with
  | none => rw [close, hAt]
  | some stream =>
      cases hClosed : stream.connection.closed with
      | true => rw [close_of_closed hAt hClosed]
      | false =>
          rw [close_of_open hAt hClosed]
          exact NodeRegistry.isSome_unregisterNode s.registry stream.nodeId

theorem isSome_closeAll (s : DistributedServer) (ks : List Nat) :
    (ks.foldl close s).registry.nodes.isSome = s.registry.nodes.isSome := by
  induction ks generalizing s with
  | nil => rfl
  | cons k rest ih => exact (ih _).trans (isSome_close s k)

theorem isSome_work (hStep : s.work k now = some t) : t.registry.nodes.isSome = s.registry.nodes.isSome := by
  obtain ⟨stream, hAt, hRest⟩ := Option.bind_eq_some_iff.mp hStep
  obtain ⟨connection, hWork, hRest⟩ := Option.bind_eq_some_iff.mp hRest
  cases hDelivered : stream.connection.delivered with
  | some lsn =>
      simp only [hDelivered] at hRest
      cases hRecord : s.registry.recordSent stream.nodeId lsn now with
      | ok registry =>
          rw [hRecord] at hRest
          cases hRest
          exact NodeRegistry.isSome_recordSent hRecord
      | error error =>
          rw [hRecord] at hRest
          cases hRest
          exact isSome_close _ k
  | none =>
      simp only [hDelivered] at hRest
      split_ifs at hRest <;> cases hRest
      · exact isSome_close _ k
      · rfl

/-- Only `stop` takes the registry away. -/
theorem isSome_step {a : Action} (hStep : s.step a = some t) (hStop : a ≠ .stop) :
    t.registry.nodes.isSome = s.registry.nodes.isSome := by
  cases a with
  | add append applied tombstone item =>
      cases hStep
      rfl
  | rotation append metaWrite unlinkFails =>
      cases hStep
      rfl
  | subscribe nodeId lastLsn now =>
      cases hStep
      rcases s.subscribe_cases nodeId lastLsn now with
        hSame | ⟨error, stream, -, -, -, -, hEq⟩ | ⟨registry, stream, hRegister, -, -, -, hEq⟩
      · rw [hSame]
      · rw [hEq]
      · rw [hEq]
        exact NodeRegistry.isSome_registerNode hRegister
  | ended k =>
      cases hStep
      rw [ended]
      split
      · rfl
      · split_ifs
        · rw [abortUnregistered]
          split
          · rfl
          · split_ifs <;> rfl
        · exact isSome_close s k
  | work k now => exact isSome_work hStep
  | fail k =>
      obtain ⟨stream, -, hRest⟩ := Option.bind_eq_some_iff.mp hStep
      obtain ⟨-, -, hRest⟩ := Option.bind_eq_some_iff.mp hRest
      cases hRest
      exact isSome_close _ k
  | keepalive k now =>
      obtain ⟨stream, -, hRest⟩ := Option.bind_eq_some_iff.mp hStep
      obtain ⟨-, -, hRest⟩ := Option.bind_eq_some_iff.mp hRest
      cases hRest
      exact NodeRegistry.isSome_touch s.registry stream.nodeId now
  | stop => exact absurd rfl hStop

/-- A registry that was destroyed is not used again. -/
theorem nodes_step (h : s.registry.nodes = none) {a : Action} (hStep : s.step a = some t) :
    t.registry.nodes = none := by
  rw [← Option.isNone_iff_eq_none, ← Option.not_isSome, Bool.not_eq_true'] at h ⊢
  rcases eq_or_ne a .stop with rfl | hStop
  · cases hStep
    rw [stop, destroyRegistry]
    split
    · exact (isSome_closeAll { s with listening := false } s.connections).trans h
    · rfl
  · exact (isSome_step hStep hStop).trans h

end Destroyed

/-- Nothing that comes for a refused connection changes the server. -/
theorem Agrees.step_rejected (h : s.Agrees) (hAt : s.made[k]? = some stream)
    (hRejected : stream.rejected = true) {a : Action} (hConcerns : a.concerns k = true)
    (hStep : s.step a = some t) : t = s := by
  obtain ⟨hClosed, hTasks⟩ := (h.orderly k stream hAt).rejected hRejected
  cases a with
  | ended j =>
      obtain rfl : j = k := of_decide_eq_true hConcerns
      rw [DistributedServer.step, h.ended_rejected hAt hRejected] at hStep
      cases hStep
      rfl
  | work j now =>
      obtain rfl : j = k := of_decide_eq_true hConcerns
      simp [DistributedServer.step, DistributedServer.work, hAt, NodeConnection.work, hTasks] at hStep
  | fail j =>
      obtain rfl : j = k := of_decide_eq_true hConcerns
      simp [DistributedServer.step, DistributedServer.fail, hAt, hTasks, guard] at hStep
  | keepalive j now =>
      obtain rfl : j = k := of_decide_eq_true hConcerns
      have hTimer := (h.orderly j stream hAt).timer hClosed
      simp [DistributedServer.step, DistributedServer.keepalive, hAt, hTimer, guard] at hStep
  | add append applied tombstone item => cases hConcerns
  | rotation append metaWrite unlinkFails => cases hConcerns
  | subscribe nodeId lastLsn now => cases hConcerns
  | stop => cases hConcerns

/-- An entry is that of the one connection that serves the node. -/
theorem Agrees.entry_iff (h : s.Agrees) (nodeId : JsString) :
    (∃ view, s.registry.findNode nodeId = .ok (some view)) ↔ ∃! k, s.Serves k nodeId := by
  rw [NodeRegistry.findNode_iff]
  constructor
  · rintro ⟨⟨connected, k⟩, hHolder⟩
    refine ⟨k, (h.held nodeId connected k hHolder).2, fun j hServes => ?_⟩
    obtain ⟨hMem, stream, hAt, hId, -⟩ := hServes
    obtain ⟨other, hOther, -, hOwn⟩ := h.serves j hMem
    rw [hAt, Option.some.injEq] at hOther
    rw [← hOther, hId, hHolder, Option.some.injEq, Prod.mk.injEq] at hOwn
    exact hOwn.2.symm
  · rintro ⟨k, ⟨hMem, stream, hAt, rfl, -⟩, -⟩
    obtain ⟨other, hOther, -, hOwn⟩ := h.serves k hMem
    rw [hAt, Option.some.injEq] at hOther
    exact ⟨_, hOther ▸ hOwn⟩

/-- After `stop` there is no registry, and nothing is in `#connections`. -/
theorem Agrees.closed_of_destroyed (h : s.Agrees) (hNodes : s.registry.nodes = none)
    (hMem : stream ∈ s.made) : stream.connection.closed = true ∧ stream.keepaliveTimer = false := by
  obtain ⟨k, hAt⟩ := List.getElem?_of_mem hMem
  have hClosed : stream.connection.closed = true := by
    by_contra hOpen
    obtain ⟨other, -, -, hHolder⟩ := h.serves k (h.isOpen k stream hAt (Bool.eq_false_iff.mpr hOpen))
    rw [NodeRegistry.held_eq_none_of_nodes hNodes] at hHolder
    cases hHolder
  exact ⟨hClosed, (h.orderly k stream hAt).timer hClosed⟩

theorem agrees_run {coordinator : Coordinator} {actions : List Action}
    (run : Run (ofStep step) (start coordinator) actions s) :
    s.Agrees ∧ (.stop ∈ actions → s.registry.nodes = none) ∧
      (.stop ∉ actions → s.registry.nodes.isSome = true) := by
  induction run with
  | nil => exact ⟨agrees_start coordinator, fun hMem => absurd hMem List.not_mem_nil, fun _ => rfl⟩
  | @snoc _ _ actions a prior last ih =>
      obtain ⟨hAgrees, hStopped, hRunning⟩ := ih
      refine ⟨hAgrees.step last, fun hMem => ?_, fun hNot => ?_⟩
      · rcases List.mem_append.mp hMem with hBefore | hNow
        · exact nodes_step (hStopped hBefore) last
        · obtain rfl := List.mem_singleton.mp hNow
          cases last
          exact hAgrees.stop.2
      · rw [List.mem_append, not_or, List.mem_singleton] at hNot
        exact (isSome_step last (Ne.symm hNot.2)).trans (hRunning hNot.1)

/-- Whatever callbacks come in whatever order: a node has an entry as long as exactly one
open connection serves it, a refused `Subscribe` touches nothing of the others, then and
later, no cleanup runs twice, and `stop` leaves nothing open. -/
theorem registry_agrees (coordinator : Coordinator) {actions : List Action}
    (run : Run (ofStep step) (start coordinator) actions s) :
    (∀ nodeId, (∃ view, s.registry.findNode nodeId = .ok (some view)) ↔ ∃! k, s.Serves k nodeId) ∧
    (∀ nodeId, (∃ view, s.registry.findNode nodeId = .ok (some view)) → ∀ lastLsn now,
      (s.subscribe nodeId lastLsn now).1 = s ∨
      ∃ stream : NodeConnectionImpl, stream.rejected = true ∧ stream.connection.closed = true ∧
        s.subscribe nodeId lastLsn now = ({ s with made := s.made ++ [stream] },
          .alreadyExists (NodeRegistry.activeStream nodeId).message)) ∧
    (∀ (k : Nat) stream, s.made[k]? = some stream → stream.rejected = true →
      ∀ a t, a.concerns k = true → s.step a = some t → t = s) ∧
    (∀ stream ∈ s.made, stream.cleanups ≤ 1) ∧
    (.stop ∈ actions → ∀ stream ∈ s.made,
      stream.connection.closed = true ∧ stream.keepaliveTimer = false) := by
  obtain ⟨hAgrees, hStopped, -⟩ := agrees_run run
  refine ⟨hAgrees.entry_iff, fun nodeId hEntry lastLsn now => ?_, fun k stream hAt hRejected a t => ?_,
    fun stream hMem => ?_, fun hStop stream hMem => hAgrees.closed_of_destroyed (hStopped hStop) hMem⟩
  · obtain ⟨⟨connected, held⟩, hHolder⟩ := NodeRegistry.findNode_iff.mp hEntry
    obtain rfl : connected = true := (hAgrees.held nodeId connected held hHolder).1
    have hRefused : s.registry.registerNode nodeId s.made.length now =
        .error (NodeRegistry.activeStream nodeId) :=
      NodeRegistry.registerNode_held hHolder
    rcases s.subscribe_cases nodeId lastLsn now with
      hSame | ⟨error, stream, hError, hRejected, hClosed, -, hEq⟩ | ⟨registry, stream, hRegister, -⟩
    · exact Or.inl hSame
    · rw [hRefused] at hError
      cases hError
      exact Or.inr ⟨stream, hRejected, hClosed, hEq⟩
    · rw [hRefused] at hRegister
      cases hRegister
  · exact hAgrees.step_rejected hAt hRejected
  · obtain ⟨k, hAt⟩ := List.getElem?_of_mem hMem
    exact (hAgrees.orderly k stream hAt).once

/-- A node subscribes, a second stream for it is refused, and it subscribes again after its
first call was cancelled; what comes late for the other two calls leaves the new stream. -/
def reconnect : List Action :=
  [.subscribe [0x61] 0 1, .subscribe [0x61] 0 2, .work 0 3, .keepalive 0 4, .ended 0,
    .subscribe [0x61] 0 5, .ended 0, .work 0 6, .ended 1]

theorem registry_agrees_reconnect :
    ∃ s t : DistributedServer, s.connections = [2] ∧ (∃! k, s.Serves k [0x61]) ∧ s.step .stop = some t ∧
      ∀ stream ∈ t.made, stream.connection.closed = true ∧ stream.keepaliveTimer = false := by
  have hEnd : (exec step (start (CoordinatorRestart.start "r" "canonical")) reconnect).map
      (fun s => (s.connections, s.registry.findNode [0x61])) =
      some ([2], .ok (some { nodeId := [0x61], lastLsn := 0, lastSeenMs := 5, connected := true })) := by
    decide +kernel
  obtain ⟨s, hRun, hFound⟩ := Option.map_eq_some_iff.mp hEnd
  have run := run_of_exec hRun
  have hServes := ((registry_agrees _ run).1 [0x61]).mp ⟨_, congrArg Prod.snd hFound⟩
  exact ⟨s, s.stop, congrArg Prod.fst hFound, hServes, rfl,
    (registry_agrees _ (run.snoc (show ofStep step s .stop s.stop from rfl))).2.2.2.2 (by simp)⟩

end DistributedServer

end TokenRevoker
