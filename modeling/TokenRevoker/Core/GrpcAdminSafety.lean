import TokenRevoker.Core.GrpcAdmin

/-! The admin server in every state of a run. The started flag, the shared promise, the
store and the server only ever go together in four ways, and a revoker that is created
while the server is being stopped is the one thing that finds none of them right. -/
namespace TokenRevoker

open Text Transition

namespace GrpcRevoker

/-- The store holds it. -/
def registered (r : GrpcRevoker) : Bool := decide (r.creation = .resolved) && r.grpcEnabled

/-- What the store and the shared promise have to do with it. -/
def status (r : GrpcRevoker) : JsString × Bool × Bool := (r.id, r.registered, decide (r.creation = .awaiting))

structure Sound (r : GrpcRevoker) : Prop where
  rejected : r.creation = .rejected → r.managerDestroyed = true
  unmanaged : r.managed = false → r.managerDestroyed = true
  enabled : r.closing = false → r.grpcEnabled = true
  closing : r.closing = true → r.creation = .resolved

/-- Its manager has been destroyed, now or before. -/
theorem Sound.destroyed {r : GrpcRevoker} (h : r.Sound) : r.managed || r.managerDestroyed := by
  cases hManaged : r.managed with
  | false => rw [h.unmanaged hManaged]; rfl
  | true => rfl

end GrpcRevoker

namespace GrpcAdmin

variable {s t : GrpcAdmin} {i : Nat} {r later : GrpcRevoker}

/-- The store holds exactly the revokers that have been returned and not cleaned up. -/
def Registry (s : GrpcAdmin) (map : AList fun _ : JsString => Nat) : Prop :=
  ∀ id i, map.lookup id = some i ↔ ∃ r, s.revokers[i]? = some r ∧ r.id = id ∧ r.registered = true

def Vacant (s : GrpcAdmin) : Prop := ∀ r ∈ s.revokers, r.registered = false

def Answered (s : GrpcAdmin) : Prop := ∀ r ∈ s.revokers, r.creation ≠ .awaiting

def Quiet (s : GrpcAdmin) : Prop := ∀ stop ∈ s.stops, stop.returned = true

/-- How the started flag, the shared promise, the store and the server go together. There is no
fifth one: this is what the steps are checked against. -/
inductive Stage (s : GrpcAdmin) : Prop where
  | idle (hStarted : s.grpcServerStarted = false) (hPromise : s.grpcServerInitPromise = none)
      (hMap : s.instancesMap = none) (hVacant : s.Vacant) (hAnswered : s.Answered) (hQuiet : s.Quiet)
  | starting (promise : InitPromise) (hStarted : s.grpcServerStarted = false)
      (hPromise : s.grpcServerInitPromise = some promise) (hOpen : promise ≠ .fulfilled)
      (hBinding : ∀ server, promise = .binding server → s.server = some server ∧ server < s.servers.length)
      (hMap : s.instancesMap = some ∅) (hVacant : s.Vacant)
      (hAwaits : ∃ r ∈ s.revokers, r.creation = .awaiting) (hQuiet : s.Quiet)
  | running (map : AList fun _ : JsString => Nat) (server : Nat) (hStarted : s.grpcServerStarted = true)
      (hPromise : s.grpcServerInitPromise = some .fulfilled) (hMap : s.instancesMap = some map)
      (hRegistry : s.Registry map) (hServer : s.server = some server)
      (hRunning : s.servers[server]? = some .running) (hAnswered : s.Answered) (hQuiet : s.Quiet)
  | stopping (k : Nat) (stop : ServerStop) (hStarted : s.grpcServerStarted = true)
      (hPromise : s.grpcServerInitPromise = some .fulfilled) (hMap : s.instancesMap = none)
      (hVacant : s.Vacant) (hAnswered : s.Answered) (hStop : s.stops[k]? = some stop)
      (hOpen : stop.returned = false)
      (hOthers : ∀ (j : Nat) (other : ServerStop), s.stops[j]? = some other → other.returned = false → j = k)

/-- What holds of this call of `stopServer` in every state. -/
structure StopSound (s : GrpcAdmin) (stop : ServerStop) : Prop where
  server : ∀ server, stop.server = some server → server < s.servers.length ∧
    (s.server = some server ↔ stop.settled = false)
  returned : stop.returned = true → stop.settled = true
  caller : ∀ i, stop.caller ≠ .grpcInit i

/-- What holds whatever the stage. It is kept apart from the stage because most steps change
only one of the two. -/
structure Orderly (s : GrpcAdmin) : Prop where
  distinct : (s.revokers.map GrpcRevoker.id).Nodup
  revokers : ∀ r ∈ s.revokers, r.Sound
  stops : ∀ stop ∈ s.stops, s.StopSound stop
  halting : ∀ server : Nat, s.servers[server]? = some .stopping →
    ∃ stop ∈ s.stops, stop.server = some server ∧ stop.settled = false
  shutdowns : ∀ i ∈ s.shutdowns, ∃ r, s.revokers[i]? = some r ∧ r.closing = true

structure Inv (s : GrpcAdmin) : Prop extends Orderly s where
  stage : s.Stage

theorem registered_iff : r.registered = true ↔ r.creation = .resolved ∧ r.grpcEnabled = true := by
  simp [GrpcRevoker.registered]

theorem Vacant.of_status (h : s.Vacant)
    (hStatus : t.revokers.map GrpcRevoker.status = s.revokers.map GrpcRevoker.status) : t.Vacant := by
  intro r hMem
  obtain ⟨old, hOld, hEq⟩ := List.mem_map.mp (hStatus ▸ List.mem_map_of_mem hMem)
  have hRegistered := congrArg (fun p => p.2.1) hEq
  exact hRegistered.symm.trans (h old hOld)

theorem Answered.of_status (h : s.Answered)
    (hStatus : t.revokers.map GrpcRevoker.status = s.revokers.map GrpcRevoker.status) : t.Answered := by
  intro r hMem hAwaits
  obtain ⟨old, hOld, hEq⟩ := List.mem_map.mp (hStatus ▸ List.mem_map_of_mem hMem)
  have hSame := congrArg (fun p => p.2.2) hEq
  simp only [GrpcRevoker.status, hAwaits, decide_true, decide_eq_true_eq] at hSame
  exact h old hOld hSame

theorem Registry.of_status {map : AList fun _ : JsString => Nat} (h : s.Registry map)
    (hStatus : t.revokers.map GrpcRevoker.status = s.revokers.map GrpcRevoker.status) : t.Registry map := by
  intro id i
  rw [h id i]
  have hGet : t.revokers[i]?.map GrpcRevoker.status = s.revokers[i]?.map GrpcRevoker.status := by
    rw [← List.getElem?_map, ← List.getElem?_map, hStatus]
  constructor
  · rintro ⟨r, hr, rfl, hRegistered⟩
    rw [hr, Option.map_some] at hGet
    obtain ⟨new, hNew, hEq⟩ := Option.map_eq_some_iff.mp hGet
    exact ⟨new, hNew, congrArg Prod.fst hEq, (congrArg (fun p => p.2.1) hEq).trans hRegistered⟩
  · rintro ⟨r, hr, rfl, hRegistered⟩
    rw [hr, Option.map_some] at hGet
    obtain ⟨old, hOld, hEq⟩ := Option.map_eq_some_iff.mp hGet.symm
    exact ⟨old, hOld, congrArg Prod.fst hEq, (congrArg (fun p => p.2.1) hEq).trans hRegistered⟩

theorem Stage.of_status (h : s.Stage)
    (hStatus : t.revokers.map GrpcRevoker.status = s.revokers.map GrpcRevoker.status)
    (hMap : t.instancesMap = s.instancesMap) (hStarted : t.grpcServerStarted = s.grpcServerStarted)
    (hPromise : t.grpcServerInitPromise = s.grpcServerInitPromise) (hServers : t.servers = s.servers)
    (hServer : t.server = s.server) (hStops : t.stops = s.stops) : t.Stage := by
  have hQuiet : s.Quiet → t.Quiet := fun hQuiet stop hMem => hQuiet stop (hStops ▸ hMem)
  cases h with
  | idle hStarted' hPromise' hMap' hVacant hAnswered hQuiet' =>
      exact .idle (hStarted.trans hStarted') (hPromise.trans hPromise') (hMap.trans hMap')
        (hVacant.of_status hStatus) (hAnswered.of_status hStatus) (hQuiet hQuiet')
  | starting promise hStarted' hPromise' hOpen hBinding hMap' hVacant hAwaits hQuiet' =>
      refine .starting promise (hStarted.trans hStarted') (hPromise.trans hPromise') hOpen ?_
        (hMap.trans hMap') (hVacant.of_status hStatus) ?_ (hQuiet hQuiet')
      · rw [hServer, hServers]
        exact hBinding
      · obtain ⟨old, hOld, hAwaits⟩ := hAwaits
        obtain ⟨r, hMem, hEq⟩ := List.mem_map.mp (hStatus.symm ▸ List.mem_map_of_mem hOld)
        have hSame := congrArg (fun p => p.2.2) hEq
        simp only [GrpcRevoker.status, hAwaits, decide_true, decide_eq_true_eq] at hSame
        exact ⟨r, hMem, hSame⟩
  | running map server hStarted' hPromise' hMap' hRegistry hServer' hRunning hAnswered hQuiet' =>
      exact .running map server (hStarted.trans hStarted') (hPromise.trans hPromise')
        (hMap.trans hMap') (hRegistry.of_status hStatus)
        (hServer.trans hServer') (hServers ▸ hRunning) (hAnswered.of_status hStatus) (hQuiet hQuiet')
  | stopping k stop hStarted' hPromise' hMap' hVacant hAnswered hStop hOpen hOthers =>
      exact .stopping k stop (hStarted.trans hStarted') (hPromise.trans hPromise')
        (hMap.trans hMap') (hVacant.of_status hStatus)
        (hAnswered.of_status hStatus) (hStops ▸ hStop) hOpen (hStops ▸ hOthers)

theorem map_set_same {α β : Type} (f : α → β) {l : List α} {a b : α} (hGet : l[i]? = some a)
    (hSame : f b = f a) : (l.set i b).map f = l.map f := by
  obtain ⟨hBounds, rfl⟩ := List.getElem?_eq_some_iff.mp hGet
  have hMapped : i < (l.map f).length := by simpa using hBounds
  rw [List.map_set, hSame, ← List.getElem_map f (h := hMapped), List.set_getElem_self]

theorem Orderly.setRevoker (h : s.Orderly) (hGet : s.revokers[i]? = some r) (later : GrpcRevoker)
    (hId : later.id = r.id) (hSound : later.Sound) (hClosing : r.closing = true → later.closing = true) :
    (s.setRevoker i later).Orderly where
  distinct := by
    rw [GrpcAdmin.setRevoker, map_set_same GrpcRevoker.id hGet hId]
    exact h.distinct
  revokers := by
    intro r' hMem
    rcases List.mem_or_eq_of_mem_set hMem with hMem | rfl
    · exact h.revokers r' hMem
    · exact hSound
  stops := fun stop hMem => { h.stops stop hMem with }
  halting := h.halting
  shutdowns := by
    intro j hMem
    obtain ⟨old, hOld, hOldClosing⟩ := h.shutdowns j hMem
    simp only [GrpcAdmin.setRevoker, List.getElem?_set]
    split_ifs with hSame hBounds
    · subst hSame
      rw [hGet, Option.some.injEq] at hOld
      exact ⟨later, rfl, hClosing (hOld ▸ hOldClosing)⟩
    · subst hSame
      exact absurd (List.getElem?_eq_some_iff.mp hGet).1 hBounds
    · exact ⟨old, hOld, hOldClosing⟩

/-- A revoker changes in nothing that the store or the promise depends on. -/
theorem Inv.setRevoker (h : s.Inv) (hGet : s.revokers[i]? = some r) (later : GrpcRevoker)
    (hStatus : later.status = r.status) (hSound : later.Sound)
    (hClosing : r.closing = true → later.closing = true) : (s.setRevoker i later).Inv where
  toOrderly := h.toOrderly.setRevoker hGet later (congrArg Prod.fst hStatus) hSound hClosing
  stage := h.stage.of_status (map_set_same _ hGet hStatus) rfl rfl rfl rfl rfl rfl

theorem Inv.calls (h : s.Inv) {shutdowns : List Nat} (destroys : List Nat)
    (hShutdowns : ∀ i ∈ shutdowns, ∃ r, s.revokers[i]? = some r ∧ r.closing = true) :
    Inv { s with shutdowns := shutdowns, destroys := destroys } where
  distinct := h.distinct
  revokers := h.revokers
  stops := fun stop hMem => { h.stops stop hMem with }
  halting := h.halting
  shutdowns := hShutdowns
  stage := h.stage.of_status rfl rfl rfl rfl rfl rfl rfl

/-- A revoker leaves the store. -/
theorem Registry.erase {map : AList fun _ : JsString => Nat} (h : s.Registry map)
    (hGet : s.revokers[i]? = some r) (hRegistered : r.registered = true) (later : GrpcRevoker)
    (hLater : later.registered = false) :
    (s.setRevoker i later).Registry (map.erase r.id) := by
  have hHeld : map.lookup r.id = some i := (h r.id i).mpr ⟨r, hGet, rfl, hRegistered⟩
  have hBounds := (List.getElem?_eq_some_iff.mp hGet).1
  intro id j
  by_cases hSame : j = i
  · subst hSame
    have hAbsent : ¬ ∃ r', (s.setRevoker j later).revokers[j]? = some r' ∧ r'.id = id ∧
        r'.registered = true := by
      rintro ⟨r', hr, -, hRegistered'⟩
      simp only [setRevoker, List.getElem?_set_self hBounds, Option.some.injEq] at hr
      rw [← hr, hLater] at hRegistered'
      cases hRegistered'
    simp only [hAbsent, iff_false]
    by_cases hId' : id = r.id
    · rw [hId', AList.lookup_erase]
      exact nofun
    · rw [AList.lookup_erase_ne hId', h id j]
      rintro ⟨r', hr, rfl, -⟩
      rw [hGet, Option.some.injEq] at hr
      exact hId' (hr ▸ rfl)
  · rw [setRevoker, List.getElem?_set_ne (Ne.symm hSame), ← h id j]
    by_cases hId' : id = r.id
    · subst hId'
      rw [AList.lookup_erase, hHeld]
      simp [Ne.symm hSame]
    · rw [AList.lookup_erase_ne hId']

theorem Registry.vacant {map : AList fun _ : JsString => Nat} (h : s.Registry map)
    (hEmpty : map.entries.isEmpty = true) : s.Vacant := by
  intro r hMem
  by_contra hRegistered
  obtain ⟨i, hGet⟩ := List.mem_iff_getElem?.mp hMem
  have hHeld := (h r.id i).mpr ⟨r, hGet, rfl, by simpa using hRegistered⟩
  have hKey : r.id ∈ map := AList.lookup_isSome.mp (by rw [hHeld]; rfl)
  rw [AList.mem_keys, AList.keys, List.isEmpty_iff.mp hEmpty] at hKey
  cases hKey

theorem Inv.cleaned (h : s.Inv) {caller : CleanupCaller} (hCaller : ∀ j, caller ≠ .grpcInit j) :
    (s.cleaned caller).Inv := by
  cases caller with
  | shutdown => exact h
  | destroy j => exact h.calls _ h.shutdowns
  | grpcInit j => exact absurd rfl (hCaller j)

theorem Orderly.registry (h : s.Orderly) (map : Option (AList fun _ : JsString => Nat)) :
    Orderly { s with instancesMap := map } where
  distinct := h.distinct
  revokers := h.revokers
  stops := fun stop hMem => { h.stops stop hMem with }
  halting := h.halting
  shutdowns := h.shutdowns

theorem stopServer_eq {server : Nat} (hServer : s.server = some server) (caller : CleanupCaller) :
    s.stopServer caller = { s with
      servers := s.servers.set server .stopping
      stops := s.stops ++ [.pending server caller] } := by
  simp only [GrpcAdmin.stopServer, hServer]

/-- `stopServer` is called on the running server. -/
theorem Orderly.stopServer (h : s.Orderly) {server : Nat} (hServer : s.server = some server)
    (hRunning : s.servers[server]? = some .running) {caller : CleanupCaller}
    (hCaller : ∀ j, caller ≠ .grpcInit j) : (s.stopServer caller).Orderly := by
  have hBounds := (List.getElem?_eq_some_iff.mp hRunning).1
  rw [stopServer_eq hServer]
  refine ⟨h.distinct, h.revokers, fun stop hMem => ?_, fun other hStopping => ?_, h.shutdowns⟩
  · rcases List.mem_append.mp hMem with hMem | hMem
    · have hStop := h.stops stop hMem
      refine ⟨fun other hOther => ?_, hStop.returned, hStop.caller⟩
      rw [List.length_set]
      exact hStop.server other hOther
    · rw [List.mem_singleton.mp hMem]
      refine ⟨fun other hOther => ?_, nofun, hCaller⟩
      cases hOther
      exact ⟨by simpa using hBounds, fun _ => rfl, fun _ => hServer⟩
  · rw [List.getElem?_set] at hStopping
    split_ifs at hStopping with hSame
    · exact ⟨_, List.mem_append_right _ (List.mem_singleton_self _), congrArg some hSame, rfl⟩
    · obtain ⟨stop, hMem, hOf⟩ := h.halting other hStopping
      exact ⟨stop, List.mem_append_left _ hMem, hOf⟩

theorem Answered.set (h : s.Answered) (hLater : later.creation ≠ .awaiting) :
    (s.setRevoker i later).Answered := by
  intro r hMem
  rcases List.mem_or_eq_of_mem_set hMem with hMem | rfl
  · exact h r hMem
  · exact hLater

/-- A revoker that is shut down or destroyed leaves the store once, and the last one to do
so stops the server. -/
theorem Inv.cleanupGrpc (h : s.Inv) (hGet : s.revokers[i]? = some r)
    (hClosing : r.closing = true) {caller : CleanupCaller} (hCaller : ∀ j, caller ≠ .grpcInit j) :
    ((s.cleanupGrpc i r caller).getD s).Inv := by
  unfold GrpcAdmin.cleanupGrpc
  split_ifs with hHeld
  · obtain ⟨hEnabled, hStarted⟩ := Bool.and_eq_true_iff.mp hHeld
    have hSound := h.revokers r (List.mem_of_getElem? hGet)
    have hResolved := hSound.closing hClosing
    have hRegistered := registered_iff.mpr ⟨hResolved, hEnabled⟩
    cases h.stage with
    | idle hStarted' | starting _ hStarted' =>
        rw [hStarted] at hStarted'
        cases hStarted'
    | stopping k stop _ _ _ hVacant =>
        rw [hVacant r (List.mem_of_getElem? hGet)] at hRegistered
        cases hRegistered
    | running map server _ hPromise hMap hRegistry hServer hRunning hAnswered hQuiet =>
        have hLeft : { r with grpcEnabled := false }.Sound :=
          { hSound with enabled := fun hOpen => by cases hOpen.symm.trans hClosing }
        have hUnregistered := h.toOrderly.setRevoker hGet { r with grpcEnabled := false } rfl hLeft id
        have hErased := hRegistry.erase hGet hRegistered { r with grpcEnabled := false }
          (by simp [GrpcRevoker.registered])
        have hAnswered' : (s.setRevoker i { r with grpcEnabled := false }).Answered :=
          hAnswered.set (by rw [hResolved]; decide)
        simp only [hMap, Option.map_some, Option.getD_some]
        split_ifs with hEmpty
        · refine ⟨(hUnregistered.registry none).stopServer hServer hRunning hCaller, ?_⟩
          rw [stopServer_eq (by exact hServer)]
          refine .stopping s.stops.length _ hStarted hPromise rfl (hErased.vacant hEmpty) hAnswered'
            List.getElem?_concat_length rfl ?_
          intro j other hOther hOpen
          rw [List.getElem?_append] at hOther
          split_ifs at hOther with hOld
          · rw [hQuiet other (List.mem_of_getElem? hOther)] at hOpen
            cases hOpen
          · rw [List.getElem?_singleton] at hOther
            split_ifs at hOther with hZero
            exact Nat.le_antisymm (Nat.sub_eq_zero_iff_le.mp hZero) (Nat.le_of_not_lt hOld)
        · refine Inv.cleaned ⟨hUnregistered.registry _, ?_⟩ hCaller
          exact .running _ server hStarted hPromise rfl hErased hServer hRunning hAnswered' hQuiet
  · exact h.cleaned hCaller

/-- A revoker enters the store, by an id that no other revoker has. -/
theorem Registry.insert {map : AList fun _ : JsString => Nat} (h : s.Registry map)
    (hGet : t.revokers[i]? = some r) (hRegistered : r.registered = true) {id : JsString} (hId : r.id = id)
    (hOthers : ∀ j, j ≠ i → t.revokers[j]? = s.revokers[j]?)
    (hNew : ∀ old, s.revokers[i]? = some old → old.registered = false)
    (hFresh : ∀ j other, j ≠ i → s.revokers[j]? = some other → other.id ≠ id) :
    t.Registry (map.insert id i) := by
  intro key j
  by_cases hKey : key = id
  · subst hKey
    rw [AList.lookup_insert, Option.some.injEq]
    constructor
    · rintro rfl
      exact ⟨r, hGet, hId, hRegistered⟩
    · rintro ⟨other, hOther, hSame, -⟩
      by_contra hNe
      rw [hOthers j (Ne.symm hNe)] at hOther
      exact hFresh j other (Ne.symm hNe) hOther hSame
  · rw [AList.lookup_insert_ne hKey, h key j]
    by_cases hSame : j = i
    · subst hSame
      constructor
      · rintro ⟨old, hOld, -, hHeld⟩
        rw [hNew old hOld] at hHeld
        cases hHeld
      · rintro ⟨other, hOther, hSame, -⟩
        rw [hGet, Option.some.injEq] at hOther
        exact absurd (hSame.symm.trans (hOther ▸ hId)) hKey
    · rw [hOthers j hSame]

theorem Orderly.fresh (h : s.Orderly) (hGet : s.revokers[i]? = some r) {j : Nat} {other : GrpcRevoker}
    (hNe : j ≠ i) (hOther : s.revokers[j]? = some other) : other.id ≠ r.id := by
  intro hSame
  have hIds : (s.revokers.map GrpcRevoker.id)[j]? = (s.revokers.map GrpcRevoker.id)[i]? := by
    rw [List.getElem?_map, List.getElem?_map, hGet, hOther, Option.map_some, Option.map_some, hSame]
  exact hNe ((List.getElem?_inj (by simpa using (List.getElem?_eq_some_iff.mp hOther).1) h.distinct).mp hIds)

/-- The call that awaits the shared promise while its first `n` callers have gone on. -/
def AnsweredTo (s : GrpcAdmin) (n : Nat) : Prop :=
  ∀ (i : Nat) (r : GrpcRevoker), s.revokers[i]? = some r → r.creation = .awaiting → n ≤ i

theorem AnsweredTo.all {n : Nat} (h : s.AnsweredTo n) (hLength : s.revokers.length ≤ n) : s.Answered := by
  intro r hMem hAwaits
  obtain ⟨i, hGet⟩ := List.mem_iff_getElem?.mp hMem
  have hBounds := (List.getElem?_eq_some_iff.mp hGet).1
  have hAfter := h i r hGet hAwaits
  omega

theorem AnsweredTo.skip {n : Nat} (h : s.AnsweredTo n)
    (hHere : ∀ r, s.revokers[n]? = some r → r.creation ≠ .awaiting) : s.AnsweredTo (n + 1) := by
  intro i r hGet hAwaits
  have hAfter := h i r hGet hAwaits
  by_contra hBefore
  have hSame : i = n := by omega
  exact hHere r (hSame ▸ hGet) hAwaits

theorem AnsweredTo.set {n : Nat} (h : s.AnsweredTo n) (hLater : later.creation ≠ .awaiting) :
    (s.setRevoker n later).AnsweredTo (n + 1) := by
  intro i r hGet hAwaits
  simp only [setRevoker, List.getElem?_set] at hGet
  split_ifs at hGet with hSame hBounds
  · cases hGet
    exact absurd hAwaits hLater
  · have hAfter := h i r hGet hAwaits
    omega

/-- What each of the callers keeps while they go on, one after the other. -/
theorem resume_invariant {next : GrpcAdmin → Nat → GrpcRevoker → GrpcAdmin} (P : Nat → GrpcAdmin → Prop)
    (hStart : P 0 s)
    (hSkip : ∀ n t, P n t → (∀ r, t.revokers[n]? = some r → r.creation ≠ .awaiting) → P (n + 1) t)
    (hNext : ∀ n t r, P n t → t.revokers[n]? = some r → r.creation = .awaiting → P (n + 1) (next t n r)) :
    P s.revokers.length (s.resume next) := by
  unfold resume
  generalize s.revokers.length = length
  induction length with
  | zero => exact hStart
  | succ n ih =>
      rw [List.range_succ, List.foldl_append, List.foldl_cons, List.foldl_nil]
      split
      · rename_i r hGet
        split_ifs with hAwaits
        · exact hNext n _ r ih hGet hAwaits
        · refine hSkip n _ ih fun other hOther => ?_
          rw [hGet, Option.some.injEq] at hOther
          exact hOther ▸ hAwaits
      · rename_i hNone
        exact hSkip n _ ih fun other hOther => by cases hNone.symm.trans hOther

/-- The start has succeeded, and the callers before `n` have registered. Between two callers the
store is in none of the stages, so the loop has an invariant of its own. -/
structure Joining (n server length : Nat) (s : GrpcAdmin) : Prop extends Orderly s where
  started : s.grpcServerStarted = true
  promise : s.grpcServerInitPromise = some .fulfilled
  registry : ∃ map, s.instancesMap = some map ∧ s.Registry map
  current : s.server = some server
  running : s.servers[server]? = some .running
  answered : s.AnsweredTo n
  quiet : s.Quiet
  length : s.revokers.length = length

theorem Joining.join {n server length : Nat} (h : Joining n server length s) (hGet : s.revokers[n]? = some r)
    (hAwaits : r.creation = .awaiting) : Joining (n + 1) server length (s.join n r) := by
  obtain ⟨map, hMap, hRegistry⟩ := h.registry
  have hBounds := (List.getElem?_eq_some_iff.mp hGet).1
  have hOld : ∀ old, s.revokers[n]? = some old → old.registered = false := by
    intro old hOld
    rw [hGet, Option.some.injEq] at hOld
    simp [GrpcRevoker.registered, ← hOld, hAwaits]
  have hSound := h.revokers r (List.mem_of_getElem? hGet)
  have hOpen : r.closing = false := by
    by_contra hClosing
    rw [hSound.closing (by simpa using hClosing)] at hAwaits
    cases hAwaits
  have hLater : { r with creation := .resolved }.Sound :=
    ⟨fun hRejected => (by cases hRejected), hSound.unmanaged, hSound.enabled, fun _ => rfl⟩
  have hOrderly := (h.toOrderly.registry (some (map.insert r.id n))).setRevoker hGet
    { r with creation := .resolved } rfl hLater id
  simp only [GrpcAdmin.join, hMap]
  refine ⟨hOrderly, h.started, h.promise, ⟨_, rfl, ?_⟩, h.current, h.running, h.answered.set (by simp),
    h.quiet, ?_⟩
  · have hRegistered : { r with creation := .resolved }.registered = true :=
      registered_iff.mpr ⟨rfl, hSound.enabled hOpen⟩
    exact hRegistry.insert (List.getElem?_set_self hBounds) hRegistered rfl
      (fun j hNe => List.getElem?_set_ne (Ne.symm hNe)) hOld
      fun j other hNe hOther => h.toOrderly.fresh hGet hNe hOther
  · rw [← h.length]
    exact List.length_set

theorem Joining.inv {server : Nat} (h : Joining s.revokers.length server s.revokers.length t) : t.Inv where
  toOrderly := h.toOrderly
  stage := by
    obtain ⟨map, hMap, hRegistry⟩ := h.registry
    exact .running map server h.started h.promise hMap hRegistry h.current h.running
      (h.answered.all (Nat.le_of_eq h.length)) h.quiet

/-- The start has failed, and the callers before `n` have been told. -/
structure Failing (n length : Nat) (s : GrpcAdmin) : Prop extends Orderly s where
  started : s.grpcServerStarted = false
  promise : s.grpcServerInitPromise = none
  registry : s.instancesMap = none ∨ (s.instancesMap = some ∅ ∧ ¬ s.Answered)
  vacant : s.Vacant
  answered : s.AnsweredTo n
  quiet : s.Quiet
  length : s.revokers.length = length

theorem failInit_eq (hStarted : s.grpcServerStarted = false)
    (hMap : s.instancesMap = none ∨ s.instancesMap = some ∅) (hGet : s.revokers[i]? = some r) :
    s.failInit i r =
      ({ s with instancesMap := none } : GrpcAdmin).setRevoker i { r with creation := .failing } := by
  have hEmptied : ({ s with instancesMap := none } : GrpcAdmin).cleanupGrpc i r (.grpcInit i) =
      some (({ s with instancesMap := none } : GrpcAdmin).setRevoker i { r with creation := .failing }) := by
    simp [GrpcAdmin.cleanupGrpc, GrpcAdmin.cleaned, hStarted, hGet]
  rcases hMap with hMap | hMap
  · have hSame : ({ s with instancesMap := none } : GrpcAdmin) = s := by rw [← hMap]
    rw [hSame] at hEmptied ⊢
    simp only [failInit, hMap, hEmptied]
  · simp only [failInit, hMap]
    rw [if_pos (by simp [hStarted])]
    simp only [hEmptied]

theorem Failing.failInit {n length : Nat} (h : Failing n length s) (hGet : s.revokers[n]? = some r)
    (hAwaits : r.creation = .awaiting) : Failing (n + 1) length (s.failInit n r) := by
  have hSound := h.revokers r (List.mem_of_getElem? hGet)
  have hLater : { r with creation := .failing }.Sound := by
    refine ⟨fun hRejected => (by cases hRejected), hSound.unmanaged, hSound.enabled, fun hClosing => ?_⟩
    rw [hSound.closing hClosing] at hAwaits
    cases hAwaits
  rw [failInit_eq h.started (h.registry.imp id And.left) hGet]
  have hOrderly := (h.toOrderly.registry none).setRevoker hGet { r with creation := .failing } rfl hLater id
  refine ⟨hOrderly, h.started, h.promise, Or.inl rfl, ?_, h.answered.set (by simp), h.quiet, ?_⟩
  · intro other hMem
    rcases List.mem_or_eq_of_mem_set hMem with hMem | rfl
    · exact h.vacant other hMem
    · rfl
  · rw [← h.length]
    exact List.length_set

theorem Failing.inv (h : Failing s.revokers.length s.revokers.length t) : t.Inv where
  toOrderly := h.toOrderly
  stage := by
    have hAnswered := h.answered.all (Nat.le_of_eq h.length)
    refine .idle h.started h.promise ?_ h.vacant hAnswered h.quiet
    rcases h.registry with hMap | ⟨-, hAwaits⟩
    · exact hMap
    · exact absurd hAnswered hAwaits

theorem Orderly.servers (h : s.Orderly) {servers : List ServerPhase}
    (hLength : servers.length = s.servers.length)
    (hStopping : ∀ j : Nat, servers[j]? = some .stopping → s.servers[j]? = some .stopping)
    (started : Bool) (promise : Option InitPromise) : Orderly { s with
      servers := servers, grpcServerStarted := started, grpcServerInitPromise := promise } where
  distinct := h.distinct
  revokers := h.revokers
  stops := by
    intro stop hMem
    refine { h.stops stop hMem with server := fun server hServer => ?_ }
    rw [hLength]
    exact (h.stops stop hMem).server server hServer
  halting := fun server hServer => h.halting server (hStopping server hServer)
  shutdowns := h.shutdowns

/-- A server that has been bound, or has not, is not being stopped. -/
theorem stopping_of_set {servers : List ServerPhase} {server j : Nat} {phase : ServerPhase}
    (hPhase : phase ≠ .stopping) (h : (servers.set server phase)[j]? = some .stopping) :
    servers[j]? = some .stopping := by
  rw [List.getElem?_set] at h
  split_ifs at h
  · cases h
    exact absurd rfl hPhase
  · exact h

/-- The start fails, and everything that awaited it is told. -/
theorem Inv.initFailed (h : s.Inv) {promise : InitPromise} (hPromise : s.grpcServerInitPromise = some promise)
    (hOpen : promise ≠ .fulfilled) {servers : List ServerPhase} (hLength : servers.length = s.servers.length)
    (hStopping : ∀ j : Nat, servers[j]? = some .stopping → s.servers[j]? = some .stopping) :
    ({ s with servers := servers, grpcServerInitPromise := none }.resume GrpcAdmin.failInit).Inv := by
  cases h.stage with
  | idle _ hNone =>
      rw [hNone] at hPromise
      cases hPromise
  | running _ _ _ hFulfilled | stopping _ _ _ hFulfilled =>
      rw [hFulfilled, Option.some.injEq] at hPromise
      exact absurd hPromise.symm hOpen
  | starting _ hStarted _ _ _ hMap hVacant hAwaits hQuiet =>
      have hStart : Failing 0 s.revokers.length
          { s with servers := servers, grpcServerInitPromise := none } := by
        refine ⟨h.toOrderly.servers hLength hStopping s.grpcServerStarted none, hStarted, rfl,
          Or.inr ⟨hMap, ?_⟩, hVacant, fun _ _ _ _ => Nat.zero_le _, hQuiet, rfl⟩
        intro hAnswered
        obtain ⟨r, hMem, hWaits⟩ := hAwaits
        exact hAnswered r hMem hWaits
      refine Failing.inv (resume_invariant (fun n => Failing n s.revokers.length) hStart
        (fun n t hFailing hHere => ?_) fun n t r hFailing hGet hWaits => ?_)
      · exact { hFailing with answered := hFailing.answered.skip hHere }
      · exact hFailing.failInit hGet hWaits

/-- The server is bound, and everything that awaited it registers. -/
theorem Inv.initDone (h : s.Inv) {server : Nat} (hPromise : s.grpcServerInitPromise = some (.binding server)) :
    ({ s with
      servers := s.servers.set server .running
      grpcServerStarted := true
      grpcServerInitPromise := some .fulfilled }.resume GrpcAdmin.join).Inv := by
  cases h.stage with
  | idle _ hNone =>
      rw [hNone] at hPromise
      cases hPromise
  | running _ _ _ hFulfilled | stopping _ _ _ hFulfilled =>
      rw [hFulfilled] at hPromise
      cases hPromise
  | starting promise hStarted hPromise' _ hBinding hMap hVacant hAwaits hQuiet =>
      rw [hPromise', Option.some.injEq] at hPromise
      obtain ⟨hServer, hBounds⟩ := hBinding server hPromise
      have hStart : Joining 0 server s.revokers.length { s with
          servers := s.servers.set server .running
          grpcServerStarted := true
          grpcServerInitPromise := some .fulfilled } := by
        refine ⟨h.toOrderly.servers List.length_set (fun j => stopping_of_set (by decide)) _ _, rfl, rfl,
          ⟨∅, hMap, fun id i => ?_⟩, hServer, List.getElem?_set_self hBounds, fun _ _ _ _ => Nat.zero_le _,
          hQuiet, rfl⟩
        rw [AList.lookup_empty]
        refine ⟨nofun, ?_⟩
        rintro ⟨r, hGet, -, hRegistered⟩
        rw [hVacant r (List.mem_of_getElem? hGet)] at hRegistered
        cases hRegistered
      refine Joining.inv (resume_invariant (fun n => Joining n server s.revokers.length) hStart
        (fun n t hJoining hHere => ?_) fun n t r hJoining hGet hWaits => ?_)
      · exact { hJoining with answered := hJoining.answered.skip hHere }
      · exact hJoining.join hGet hWaits

theorem Orderly.append (h : s.Orderly) {id : JsString} (hFresh : id ∉ s.revokers.map GrpcRevoker.id)
    (creation : Creation) (hCreation : creation ≠ .rejected) :
    Orderly { s with revokers := s.revokers ++ [{ id := id, creation := creation }] } where
  distinct := by
    rw [List.map_append, List.nodup_append]
    refine ⟨h.distinct, List.nodup_singleton _, ?_⟩
    intro old hOld new hNew hSame
    rw [List.map_singleton, List.mem_singleton] at hNew
    rw [hSame, hNew] at hOld
    exact hFresh hOld
  revokers := by
    intro r hMem
    rcases List.mem_append.mp hMem with hMem | hMem
    · exact h.revokers r hMem
    · rw [List.mem_singleton.mp hMem]
      exact ⟨fun hRejected => absurd hRejected hCreation, nofun, fun _ => rfl, nofun⟩
  stops := fun stop hMem => { h.stops stop hMem with }
  halting := h.halting
  shutdowns := by
    intro i hMem
    obtain ⟨r, hGet, hClosing⟩ := h.shutdowns i hMem
    exact ⟨r, by rw [List.getElem?_append_left (List.getElem?_eq_some_iff.mp hGet).1, hGet], hClosing⟩

/-- A new server binds; every earlier one has been stopped or has failed. -/
theorem Orderly.binding (h : s.Orderly) (hQuiet : s.Quiet) : Orderly { s with
    servers := s.servers ++ [.binding], server := some s.servers.length } where
  distinct := h.distinct
  revokers := h.revokers
  stops := by
    intro stop hMem
    have hStop := h.stops stop hMem
    refine { hStop with server := fun server hServer => ?_ }
    have hBounds := (hStop.server server hServer).1
    refine ⟨by rw [List.length_append]; omega, ?_⟩
    rw [hStop.returned (hQuiet stop hMem)]
    simp [Nat.ne_of_gt hBounds]
  halting := by
    intro server hStopping
    rw [List.getElem?_append] at hStopping
    split_ifs at hStopping with hOld
    · exact h.halting server hStopping
    · rw [List.getElem?_singleton] at hStopping
      split_ifs at hStopping
      cases hStopping
  shutdowns := h.shutdowns

theorem Orderly.promise (h : s.Orderly) (promise : Option InitPromise) :
    Orderly { s with grpcServerInitPromise := promise } :=
  h.servers rfl (fun _ => id) s.grpcServerStarted promise

theorem Vacant.append (h : s.Vacant) (new : GrpcRevoker) (hNew : new.registered = false) :
    Vacant { s with revokers := s.revokers ++ [new] } := by
  intro r hMem
  rcases List.mem_append.mp hMem with hMem | hMem
  · exact h r hMem
  · rw [List.mem_singleton.mp hMem]
    exact hNew

theorem startInit_eq (hMap : s.instancesMap = none) (config : GrpcConfig) : s.startInit config =
    if isLoopbackHost config.grpcHost || config.grpcAllowInsecureRemote then
      { s with
        instancesMap := some ∅
        grpcServerInitPromise := some (.binding s.servers.length)
        servers := s.servers ++ [.binding]
        server := some s.servers.length }
    else { s with instancesMap := some ∅, grpcServerInitPromise := some .thrown } := by
  simp only [startInit, hMap]

/-- A call with a port, while no stop is pending, starts the server, or joins its start, or
registers at once. -/
theorem Inv.createRevoker (h : s.Inv) {config : GrpcConfig}
    (hFresh : config.id ∉ s.revokers.map GrpcRevoker.id) (hPort : config.grpcPort ≠ 0)
    (hQuiet : s.Quiet) : (s.createRevoker config).Inv := by
  have hAwaiting := h.toOrderly.append hFresh .awaiting (by decide)
  have hAwaits : ∃ r ∈ s.revokers ++ [{ id := config.id, creation := .awaiting }], r.creation = .awaiting :=
    ⟨_, List.mem_append_right _ (List.mem_singleton_self _), rfl⟩
  cases h.stage with
  | idle hStarted hPromise hMap hVacant =>
      have hVacant' := hVacant.append { id := config.id, creation := .awaiting } rfl
      have hCall : s.createRevoker config =
          ({ s with revokers := s.revokers ++ [{ id := config.id }] } : GrpcAdmin).startInit config := by
        simp [GrpcAdmin.createRevoker, hPort, hStarted, hPromise]
      rw [hCall, startInit_eq (by exact hMap)]
      split_ifs
      · refine ⟨((hAwaiting.binding hQuiet).registry (some ∅)).promise (some (.binding s.servers.length)), ?_⟩
        refine .starting _ hStarted rfl (by simp) (fun server hServer => ?_) rfl hVacant' hAwaits hQuiet
        cases hServer
        exact ⟨rfl, by simp⟩
      · refine ⟨(hAwaiting.registry (some ∅)).promise (some .thrown), ?_⟩
        exact .starting .thrown hStarted rfl (by simp) nofun rfl hVacant' hAwaits hQuiet
  | starting promise hStarted hPromise hOpen hBinding hMap hVacant =>
      have hCall : s.createRevoker config = { s with revokers := s.revokers ++ [{ id := config.id }] } := by
        simp [GrpcAdmin.createRevoker, hPort, hStarted, hPromise]
      rw [hCall]
      exact ⟨hAwaiting, .starting promise hStarted hPromise hOpen hBinding hMap (hVacant.append _ rfl) hAwaits
        hQuiet⟩
  | running map server hStarted hPromise hMap hRegistry hServer hRunning hAnswered =>
      have hCall : s.createRevoker config = { s with
          revokers := s.revokers ++ [{ id := config.id, creation := .resolved }]
          instancesMap := some (map.insert config.id s.revokers.length) } := by
        simp [GrpcAdmin.createRevoker, hPort, hStarted, hMap]
      rw [hCall]
      have hResolved := h.toOrderly.append hFresh .resolved (by decide)
      refine ⟨hResolved.registry _, .running _ server hStarted hPromise rfl ?_ hServer hRunning ?_ hQuiet⟩
      · refine hRegistry.insert List.getElem?_concat_length rfl rfl (fun j hNe => ?_) (fun old hOld => ?_) ?_
        · rw [List.getElem?_append]
          split_ifs with hOld
          · rfl
          · have hNone : s.revokers[j]? = none := List.getElem?_eq_none (Nat.le_of_not_lt hOld)
            rw [hNone, List.getElem?_eq_none]
            simp only [List.length_singleton]
            omega
        · simp at hOld
        · intro j other _ hOther hSame
          exact hFresh (List.mem_map.mpr ⟨other, List.mem_of_getElem? hOther, hSame⟩)
      · intro r hMem
        rcases List.mem_append.mp hMem with hMem | hMem
        · exact hAnswered r hMem
        · rw [List.mem_singleton.mp hMem]
          exact nofun
  | stopping k stop _ _ _ _ _ hStop hOpen =>
      rw [hQuiet stop (List.mem_of_getElem? hStop)] at hOpen
      cases hOpen

variable {k : Nat} {stop new : ServerStop}

theorem mem_set_of_ne {α : Type} {l : List α} {a b : α} (hGet : l[i]? = some a) (c : α) (hMem : b ∈ l)
    (hNe : b ≠ a) : b ∈ l.set i c := by
  obtain ⟨j, hj⟩ := List.mem_iff_getElem?.mp hMem
  refine List.mem_iff_getElem?.mpr ⟨j, ?_⟩
  rw [List.getElem?_set_ne, hj]
  rintro rfl
  exact hNe (Option.some.inj (hj.symm.trans hGet))

/-- While a call of `stopServer` is pending, the store is gone and nothing is registered. -/
theorem Stage.halted (h : s.Stage) (hStop : stop ∈ s.stops) (hOpen : stop.returned = false) :
    s.grpcServerStarted = true ∧ s.instancesMap = none ∧ s.Vacant ∧ s.Answered := by
  have hQuiet : ¬ s.Quiet := fun hQuiet => by cases (hQuiet stop hStop).symm.trans hOpen
  cases h with
  | idle _ _ _ _ _ hQuiet' => exact absurd hQuiet' hQuiet
  | starting _ _ _ _ _ _ _ _ hQuiet' => exact absurd hQuiet' hQuiet
  | running _ _ _ _ _ _ _ _ _ hQuiet' => exact absurd hQuiet' hQuiet
  | stopping _ _ hStarted _ hMap hVacant hAnswered => exact ⟨hStarted, hMap, hVacant, hAnswered⟩

/-- Never are two calls of `stopServer` pending. -/
theorem Stage.alone (h : s.Stage) {j : Nat} {other : ServerStop} (hStop : s.stops[k]? = some stop)
    (hOther : s.stops[j]? = some other) (hOpen : stop.returned = false) (hOpen' : other.returned = false) :
    j = k := by
  have hQuiet : ¬ s.Quiet := by
    intro hQuiet
    rw [hQuiet stop (List.mem_of_getElem? hStop)] at hOpen
    cases hOpen
  cases h with
  | idle _ _ _ _ _ hQuiet' => exact absurd hQuiet' hQuiet
  | starting _ _ _ _ _ _ _ _ hQuiet' => exact absurd hQuiet' hQuiet
  | running _ _ _ _ _ _ _ _ _ hQuiet' => exact absurd hQuiet' hQuiet
  | stopping last _ _ _ _ _ _ _ _ hOthers =>
      exact (hOthers j other hOther hOpen').trans (hOthers k stop hStop hOpen).symm

theorem Quiet.set (h : s.Quiet) (hStop : s.stops[k]? = some stop) (hReturned : new.returned = stop.returned) :
    ∀ other ∈ s.stops.set k new, other.returned = true := by
  intro other hMem
  rcases List.mem_or_eq_of_mem_set hMem with hMem | rfl
  · exact h other hMem
  · exact hReturned.trans (h stop (List.mem_of_getElem? hStop))

/-- A call of `stopServer` is answered: a server that runs or binds is none of its business. -/
theorem Stage.restop (h : s.Stage) (hStop : s.stops[k]? = some stop) (hReturned : new.returned = stop.returned)
    {servers : List ServerPhase} {server : Option Nat} (hKept : s.Quiet → server = s.server ∧
      servers.length = s.servers.length ∧
      ∀ current, s.server = some current → servers[current]? = s.servers[current]?) :
    Stage { s with stops := s.stops.set k new, servers := servers, server := server } := by
  cases h with
  | idle hStarted hPromise hMap hVacant hAnswered hQuiet =>
      exact .idle hStarted hPromise hMap hVacant hAnswered (hQuiet.set hStop hReturned)
  | starting promise hStarted hPromise hOpen hBinding hMap hVacant hAwaits hQuiet =>
      obtain ⟨rfl, hLength, -⟩ := hKept hQuiet
      exact .starting promise hStarted hPromise hOpen (hLength ▸ hBinding) hMap hVacant hAwaits
        (hQuiet.set hStop hReturned)
  | running map current hStarted hPromise hMap hRegistry hServer hRunning hAnswered hQuiet =>
      obtain ⟨rfl, -, hSame⟩ := hKept hQuiet
      exact .running map current hStarted hPromise hMap hRegistry hServer
        ((hSame current hServer).trans hRunning) hAnswered (hQuiet.set hStop hReturned)
  | stopping last pending hStarted hPromise hMap hVacant hAnswered hLast hOpen hOthers =>
      have hGet : ∀ (j : Nat) (other : ServerStop), (s.stops.set k new)[j]? = some other →
          ∃ old, s.stops[j]? = some old ∧ old.returned = other.returned := by
        intro j other hOther
        rw [List.getElem?_set] at hOther
        split_ifs at hOther with hSame
        · cases hOther
          exact ⟨stop, hSame ▸ hStop, hReturned.symm⟩
        · exact ⟨other, hOther, rfl⟩
      have hBounds : last < (s.stops.set k new).length := by
        rw [List.length_set]
        exact (List.getElem?_eq_some_iff.mp hLast).1
      obtain ⟨old, hOld, hSame⟩ := hGet last _ (List.getElem?_eq_getElem hBounds)
      rw [hLast, Option.some.injEq] at hOld
      refine .stopping last _ hStarted hPromise hMap hVacant hAnswered (List.getElem?_eq_getElem hBounds)
        (hSame.symm.trans (hOld ▸ hOpen)) fun j other hOther hOtherOpen => ?_
      obtain ⟨old', hOld', hSame'⟩ := hGet j other hOther
      exact hOthers j old' hOld' (hSame'.trans hOtherOpen)

/-- The server that a call of `stopServer` is for is gone: it was the current one if the
call was not settled before. -/
theorem Inv.answer (h : s.Inv) {server : Nat} (hStop : s.stops[k]? = some stop)
    (hServer : stop.server = some server) (new : ServerStop) (hNew : new.server = stop.server)
    (hCaller : new.caller = stop.caller) (hReturned : new.returned = stop.returned)
    (hSettled : new.settled = true) : Inv { s with
      stops := s.stops.set k new
      servers := s.servers.set server .stopped
      server := if s.server = some server then none else s.server } := by
  have hSound := h.stops stop (List.mem_of_getElem? hStop)
  obtain ⟨hBounds, hCurrent⟩ := hSound.server server hServer
  have hOpen : ∀ {other : ServerStop}, other ∈ s.stops → other.settled = false →
      other.returned = false := by
    intro other hMem hUnsettled
    by_contra hReturned
    rw [(h.stops other hMem).returned (by simpa using hReturned)] at hUnsettled
    cases hUnsettled
  refine ⟨⟨h.distinct, h.revokers, fun other hMem => ?_, fun current hStopping => ?_, h.shutdowns⟩,
    h.stage.restop hStop hReturned fun hQuiet => ?_⟩
  · obtain ⟨j, hj⟩ := List.mem_iff_getElem?.mp hMem
    rw [List.getElem?_set] at hj
    split_ifs at hj with hSame
    · cases hj
      refine ⟨fun current hOf => ?_, fun _ => hSettled, fun i => hCaller ▸ hSound.caller i⟩
      rw [hNew, hServer, Option.some.injEq] at hOf
      subst hOf
      refine ⟨by rwa [List.length_set], ?_⟩
      split_ifs with hIs <;> simp [hSettled, hIs]
    · have hOther := h.stops other (List.mem_of_getElem? hj)
      refine ⟨fun current hOf => ?_, hOther.returned, hOther.caller⟩
      obtain ⟨hBounds', hCurrent'⟩ := hOther.server current hOf
      refine ⟨by rwa [List.length_set], ?_⟩
      split_ifs with hIs
      · rw [← hCurrent', hIs, Option.some.injEq]
        refine ⟨nofun, fun hEq => ?_⟩
        have hUnsettled := hCurrent'.mp (hEq ▸ hIs)
        exact absurd (h.stage.alone hStop hj (hOpen (List.mem_of_getElem? hStop) (hCurrent.mp hIs))
          (hOpen (List.mem_of_getElem? hj) hUnsettled)).symm hSame
      · exact hCurrent'
  · rw [List.getElem?_set] at hStopping
    split_ifs at hStopping with hSame
    · cases hStopping
    · obtain ⟨other, hMem, hOf, hUnsettled⟩ := h.halting current hStopping
      refine ⟨other, mem_set_of_ne hStop new hMem ?_, hOf, hUnsettled⟩
      rintro rfl
      exact hSame (Option.some.inj (hServer.symm.trans hOf))
  · have hOld : ¬ s.server = some server := by
      rw [hCurrent, hSound.returned (hQuiet stop (List.mem_of_getElem? hStop))]
      exact nofun
    refine ⟨if_neg hOld, List.length_set, fun current hIs => List.getElem?_set_ne fun hSame => hOld ?_⟩
    rw [hIs, hSame]

/-- The timer of a call that has been settled fires for nothing. -/
theorem Inv.forced (h : s.Inv) (hStop : s.stops[k]? = some stop)
    (hIdle : ∀ server, stop.server = some server → stop.settled = true) (hNew : new.server = stop.server)
    (hCaller : new.caller = stop.caller) (hReturned : new.returned = stop.returned)
    (hSettled : new.settled = true) : Inv { s with stops := s.stops.set k new } := by
  have hSound := h.stops stop (List.mem_of_getElem? hStop)
  refine ⟨⟨h.distinct, h.revokers, fun other hMem => ?_, fun current hStopping => ?_, h.shutdowns⟩,
    h.stage.restop hStop hReturned fun _ => ⟨rfl, rfl, fun _ _ => rfl⟩⟩
  · rcases List.mem_or_eq_of_mem_set hMem with hMem | rfl
    · exact { h.stops other hMem with }
    · refine ⟨fun server hServer => ?_, fun _ => hSettled, fun i => hCaller ▸ hSound.caller i⟩
      rw [hNew] at hServer
      rw [hSettled, ← hIdle server hServer]
      exact hSound.server server hServer
  · obtain ⟨other, hMem, hOf, hUnsettled⟩ := h.halting current hStopping
    refine ⟨other, mem_set_of_ne hStop new hMem ?_, hOf, hUnsettled⟩
    rintro rfl
    rw [hIdle current hOf] at hUnsettled
    cases hUnsettled

/-- The server has been stopped, and everything is as before the first revoker. -/
theorem Inv.stopped (h : s.Inv) (hStop : s.stops[k]? = some stop) (hSettled : stop.settled = true)
    (hOpen : stop.returned = false) : Inv { s with
      stops := s.stops.set k { stop with returned := true }
      grpcServerStarted := false
      grpcServerInitPromise := none } := by
  have hSound := h.stops stop (List.mem_of_getElem? hStop)
  refine ⟨⟨h.distinct, h.revokers, fun other hMem => ?_, fun current hStopping => ?_, h.shutdowns⟩, ?_⟩
  · rcases List.mem_or_eq_of_mem_set hMem with hMem | rfl
    · exact { h.stops other hMem with }
    · exact ⟨hSound.server, fun _ => hSettled, hSound.caller⟩
  · obtain ⟨other, hMem, hOf, hUnsettled⟩ := h.halting current hStopping
    refine ⟨other, mem_set_of_ne hStop _ hMem ?_, hOf, hUnsettled⟩
    rintro rfl
    rw [hSettled] at hUnsettled
    cases hUnsettled
  · have hAll : ∀ other ∈ s.stops.set k { stop with returned := true }, other.returned = true := by
      intro other hMem
      obtain ⟨j, hj⟩ := List.mem_iff_getElem?.mp hMem
      rw [List.getElem?_set] at hj
      split_ifs at hj with hSame
      · cases hj
        rfl
      · by_contra hOther
        exact hSame (h.stage.alone hStop hj hOpen (by simpa using hOther)).symm
    obtain ⟨-, hMap, hVacant, hAnswered⟩ := h.stage.halted (List.mem_of_getElem? hStop) hOpen
    exact .idle rfl rfl hMap hVacant hAnswered hAll

/-- `shutdown` or `destroy` is called on a revoker that has been returned. -/
theorem Inv.called (h : s.Inv) (hGet : s.revokers[i]? = some r) (hResolved : r.creation = .resolved) :
    (s.setRevoker i { r with closing := true }).Inv := by
  have hSound := h.revokers r (List.mem_of_getElem? hGet)
  exact h.setRevoker hGet { r with closing := true } rfl
    ⟨hSound.rejected, hSound.unmanaged, nofun, fun _ => hResolved⟩ fun _ => rfl

theorem setRevoker_get (hGet : s.revokers[i]? = some r) (later : GrpcRevoker) :
    (s.setRevoker i later).revokers[i]? = some later :=
  List.getElem?_set_self (List.getElem?_eq_some_iff.mp hGet).1

theorem Inv.step (h : s.Inv) {a : Action} (hStep : s.step a = some t) (hDistinct : s.Distinct a)
    (hClear : s.Clear a) : t.Inv := by
  cases a with
  | createRevoker config =>
      cases hStep
      exact h.createRevoker hDistinct hClear.1 hClear.2
  | settled ok =>
      simp only [GrpcAdmin.step] at hStep
      split at hStep
      · rename_i hPromise
        cases hStep
        exact h.initFailed hPromise nofun rfl fun _ => id
      · rename_i hPromise
        cases hStep
        exact h.initDone hPromise
      · rename_i hPromise
        cases hStep
        exact h.initFailed hPromise nofun List.length_set fun _ => stopping_of_set (by decide)
      · cases hStep
  | failed i =>
      simp only [GrpcAdmin.step] at hStep
      split at hStep
      · rename_i r hGet
        split_ifs at hStep with hFailing
        cases hStep
        have hSound := h.revokers r (List.mem_of_getElem? hGet)
        refine h.setRevoker hGet _ ?_
          ⟨fun _ => hSound.destroyed, fun _ => hSound.destroyed, hSound.enabled, ?_⟩ id
        · simp [GrpcRevoker.status, GrpcRevoker.registered, hFailing]
        · intro hClosing
          rw [hSound.closing hClosing] at hFailing
          cases hFailing
      · cases hStep
  | shutdown i =>
      simp only [GrpcAdmin.step] at hStep
      split at hStep
      · rename_i r hGet
        split_ifs at hStep with hResolved hManaged <;> cases hStep
        · refine (h.called hGet hResolved).calls s.destroys fun j hMem => ?_
          rcases List.mem_append.mp hMem with hMem | hMem
          · exact (h.called hGet hResolved).shutdowns j hMem
          · rw [List.mem_singleton.mp hMem]
            exact ⟨_, setRevoker_get hGet _, rfl⟩
        · exact (h.called hGet hResolved).cleanupGrpc (setRevoker_get hGet _) rfl nofun
      · cases hStep
  | managerShutdown call ok =>
      simp only [GrpcAdmin.step] at hStep
      split at hStep
      · rename_i i hCall
        split at hStep
        · rename_i r hGet
          have hReturned : Inv { s with shutdowns := s.shutdowns.eraseIdx call } :=
            h.calls s.destroys fun j hMem => h.shutdowns j (List.mem_of_mem_eraseIdx hMem)
          split_ifs at hStep <;> cases hStep
          · obtain ⟨old, hOld, hClosing⟩ := h.shutdowns i (List.mem_of_getElem? hCall)
            rw [hGet, Option.some.injEq] at hOld
            subst hOld
            have hSound := h.revokers r (List.mem_of_getElem? hGet)
            have hLater := hReturned.setRevoker hGet { r with managed := false, managerDestroyed := true } rfl
              ⟨fun _ => rfl, fun _ => rfl, hSound.enabled, hSound.closing⟩ id
            exact hLater.cleanupGrpc (setRevoker_get hGet _) hClosing nofun
          · exact hReturned
        · cases hStep
      · cases hStep
  | destroy i =>
      simp only [GrpcAdmin.step] at hStep
      split at hStep
      · rename_i r hGet
        split_ifs at hStep with hResolved
        cases hStep
        exact (h.called hGet hResolved).cleanupGrpc (setRevoker_get hGet _) rfl nofun
      · cases hStep
  | destroyed call =>
      simp only [GrpcAdmin.step] at hStep
      split at hStep
      · split at hStep
        · rename_i r hGet
          cases hStep
          have hSound := h.revokers r (List.mem_of_getElem? hGet)
          exact (h.calls (s.destroys.eraseIdx call) h.shutdowns).setRevoker hGet _ rfl
            ⟨fun _ => hSound.destroyed, fun _ => hSound.destroyed, hSound.enabled, hSound.closing⟩ id
        · cases hStep
      · cases hStep
  | forceShutdown k =>
      simp only [GrpcAdmin.step] at hStep
      split at hStep
      · rename_i stop hStop
        split_ifs at hStep with hTimer
        split at hStep
        · rename_i server hServer
          have hAnswer := h.answer hStop hServer { stop with timer := false, settled := true } rfl rfl rfl rfl
          split_ifs at hStep with hCurrent <;> cases hStep
          · rwa [if_pos hCurrent] at hAnswer
          · refine h.forced hStop (fun other hOther => ?_) rfl rfl rfl rfl
            rw [hServer, Option.some.injEq] at hOther
            subst hOther
            by_contra hOpen
            obtain ⟨-, hUnsettled⟩ := (h.stops stop (List.mem_of_getElem? hStop)).server server hServer
            exact hCurrent (hUnsettled.mpr (by simpa using hOpen))
        · rename_i hServer
          cases hStep
          exact h.forced hStop (fun other hOther => by cases hServer.symm.trans hOther) rfl rfl rfl rfl
      · cases hStep
  | tryShutdown k =>
      simp only [GrpcAdmin.step] at hStep
      split at hStep
      · rename_i stop hStop
        split at hStep
        · rename_i server hServer
          have hAnswer := h.answer hStop hServer { stop with timer := false, answered := true, settled := true }
            rfl rfl rfl rfl
          split at hStep
          · cases hStep
          · cases hStep
            exact hAnswer
        · cases hStep
      · cases hStep
  | stopped k =>
      simp only [GrpcAdmin.step] at hStep
      split at hStep
      · rename_i stop hStop
        split_ifs at hStep with hReady
        cases hStep
        simp only [Bool.and_eq_true, Bool.not_eq_true'] at hReady
        exact (h.stopped hStop hReady.1 hReady.2).cleaned (h.stops stop (List.mem_of_getElem? hStop)).caller
      · cases hStep

theorem inv_init : init.Inv where
  distinct := List.nodup_nil
  revokers := nofun
  stops := nofun
  halting := nofun
  shutdowns := nofun
  stage := .idle rfl rfl rfl nofun nofun nofun

theorem Inv.consistent (h : s.Inv) : s.Consistent where
  resolved := by
    intro i r hGet hResolved hOpen
    have hMem := List.mem_of_getElem? hGet
    have hRegistered := registered_iff.mpr ⟨hResolved, (h.revokers r hMem).enabled hOpen⟩
    cases h.stage with
    | idle _ _ _ hVacant | starting _ _ _ _ _ _ hVacant | stopping _ _ _ _ _ hVacant =>
        rw [hVacant r hMem] at hRegistered
        cases hRegistered
    | running map server _ _ hMap hRegistry hServer hRunning =>
        exact ⟨⟨map, hMap, (hRegistry r.id i).mpr ⟨r, hGet, rfl, hRegistered⟩⟩, server, hServer, hRunning⟩
  rejected := fun r hMem => (h.revokers r hMem).rejected
  awaiting := by
    intro r hMem hAwaits
    cases h.stage with
    | idle _ _ _ _ hAnswered | running _ _ _ _ _ _ _ _ hAnswered | stopping _ _ _ _ _ _ hAnswered =>
        exact absurd hAwaits (hAnswered r hMem)
    | starting promise _ hPromise hOpen => exact ⟨promise, hPromise, hOpen⟩
  stopping := by
    intro server hStopping
    obtain ⟨stop, hStop, -, hUnsettled⟩ := h.halting server hStopping
    have hOpen : stop.returned = false := by
      by_contra hReturned
      rw [(h.stops stop hStop).returned (by simpa using hReturned)] at hUnsettled
      cases hUnsettled
    obtain ⟨-, hMap, hVacant, -⟩ := h.stage.halted hStop hOpen
    refine ⟨hMap, fun r hMem hResolved => ?_⟩
    by_contra hClosing
    have hEnabled := (h.revokers r hMem).enabled (by simpa using hClosing)
    cases (hVacant r hMem).symm.trans (registered_iff.mpr ⟨hResolved, hEnabled⟩)

theorem createRevoker_portless {config : GrpcConfig} (hPort : config.grpcPort = 0) : s.createRevoker config =
    { s with revokers := s.revokers ++ [{ id := config.id, creation := .resolved }] } := by
  simp [GrpcAdmin.createRevoker, hPort]

/-- Without a port nothing is started, and during a stop nothing destroys the manager. -/
theorem clear_of_consistent (h : s.Inv) {a : Action} (hStep : s.step a = some t) (hNext : t.Consistent) :
    s.Clear a := by
  cases a with
  | createRevoker config =>
      cases hStep
      have hPort : config.grpcPort ≠ 0 := by
        intro hPort
        rw [createRevoker_portless hPort] at hNext
        obtain ⟨⟨map, hMap, hHeld⟩, -⟩ := hNext.resolved s.revokers.length _ List.getElem?_concat_length rfl rfl
        cases h.stage with
        | idle _ _ hNone | stopping _ _ _ _ hNone => cases hNone.symm.trans hMap
        | starting _ _ _ _ _ hEmpty =>
            cases hEmpty.symm.trans hMap
            cases hHeld
        | running held _ _ _ hMap' hRegistry =>
            cases hMap'.symm.trans hMap
            obtain ⟨r, hGet, -, -⟩ := (hRegistry _ _).mp hHeld
            simp at hGet
      refine ⟨hPort, fun stop hStop => ?_⟩
      by_contra hOpen
      obtain ⟨hStarted, hMap, -, -⟩ := h.stage.halted hStop (by simpa using hOpen)
      have hCall : s.createRevoker config =
          { s with revokers := s.revokers ++ [{ id := config.id, creation := .rejected }] } := by
        simp [GrpcAdmin.createRevoker, hPort, hStarted, hMap]
      rw [hCall] at hNext
      cases hNext.rejected _ (List.mem_append_right _ (List.mem_singleton_self _)) rfl
  | settled | failed | shutdown | managerShutdown | destroy | destroyed | forceShutdown | tryShutdown
  | stopped => trivial

/-- A step of revokers with distinct ids. -/
def DistinctStep : GrpcAdmin → Action → GrpcAdmin → Prop := restrict (ofStep step) Distinct

/-- A step of revokers with distinct ids after which everything is consistent. The last step of
a run is judged by the state it leads to. -/
def KeepsConsistent (s : GrpcAdmin) (a : Action) (t : GrpcAdmin) : Prop := DistinctStep s a t ∧ t.Consistent

theorem inv_of_clear {actions : List Action} (run : Run (restrict DistinctStep Clear) init actions s) :
    Run KeepsConsistent init actions s ∧ s.Inv := by
  induction run with
  | nil => exact ⟨Run.nil _, inv_init⟩
  | snoc prior last ih =>
      obtain ⟨⟨hStep, hDistinct⟩, hClear⟩ := last
      have hNext := ih.2.step hStep hDistinct hClear
      exact ⟨ih.1.snoc ⟨⟨hStep, hDistinct⟩, hNext.consistent⟩, hNext⟩

theorem clear_of_keepsConsistent {actions : List Action} (run : Run KeepsConsistent init actions s) :
    Run (restrict DistinctStep Clear) init actions s := by
  induction run with
  | nil => exact Run.nil _
  | snoc prior last ih =>
      obtain ⟨⟨hStep, hDistinct⟩, hNext⟩ := last
      exact ih.snoc ⟨⟨hStep, hDistinct⟩, clear_of_consistent (inv_of_clear ih).2 hStep hNext⟩

/-- A run of revokers with distinct ids is consistent in every state exactly if each of them is
created with a port and none while the server is being stopped. What revokers that share an id
do to each other is left out. -/
theorem consistent_iff_clear {actions : List Action} {s : GrpcAdmin} :
    (Run (restrict DistinctStep Clear) init actions s → Run KeepsConsistent init actions s ∧ s.Consistent) ∧
      (Run KeepsConsistent init actions s → Run (restrict DistinctStep Clear) init actions s) :=
  ⟨fun run => ⟨(inv_of_clear run).1, (inv_of_clear run).2.consistent⟩, clear_of_keepsConsistent⟩

instance (s : GrpcAdmin) (a : Action) : Decidable (s.Distinct a) :=
  match a with
  | .createRevoker config => inferInstanceAs (Decidable (config.id ∉ s.revokers.map GrpcRevoker.id))
  | .settled _ | .failed _ | .shutdown _ | .managerShutdown _ _ | .destroy _ | .destroyed _ | .forceShutdown _
  | .tryShutdown _ | .stopped _ => inferInstanceAs (Decidable True)

instance (s : GrpcAdmin) (a : Action) : Decidable (s.Clear a) :=
  match a with
  | .createRevoker config =>
      inferInstanceAs (Decidable (config.grpcPort ≠ 0 ∧ ∀ stop ∈ s.stops, stop.returned = true))
  | .settled _ | .failed _ | .shutdown _ | .managerShutdown _ _ | .destroy _ | .destroyed _ | .forceShutdown _
  | .tryShutdown _ | .stopped _ => inferInstanceAs (Decidable True)

/-- Two calls share a start that fails, the next two one that succeeds; a fifth revoker
joins them, all three leave, the stop is forced, and a sixth one starts over before the
callback of the old stop. -/
def generations : List Action :=
  [.createRevoker { id := [97], grpcPort := 50051 }, .createRevoker { id := [98], grpcPort := 50051 },
    .settled false, .failed 1, .createRevoker { id := [99], grpcPort := 50051 }, .failed 0,
    .createRevoker { id := [100], grpcPort := 50051 }, .settled true,
    .createRevoker { id := [101], grpcPort := 50051 }, .shutdown 2, .destroy 3, .managerShutdown 0 true,
    .destroyed 0, .destroy 4, .forceShutdown 0, .stopped 0, .destroyed 0,
    .createRevoker { id := [102], grpcPort := 50051 }, .tryShutdown 0, .settled true]

theorem consistent_iff_clear_generations :
    ∃ s : GrpcAdmin, s.revokers.map GrpcRevoker.creation =
        [.rejected, .rejected, .resolved, .resolved, .resolved, .resolved] ∧
      s.servers = [.failed, .stopped, .running] ∧ s.Consistent := by
  have hEnd : (exec (guarded (fun s a => decide (s.Distinct a ∧ s.Clear a)) step) init generations).map
      (fun s => (s.revokers.map GrpcRevoker.creation, s.servers)) =
        some ([.rejected, .rejected, .resolved, .resolved, .resolved, .resolved],
          [.failed, .stopped, .running]) := by decide +kernel
  obtain ⟨s, hRun, hEq⟩ := Option.map_eq_some_iff.mp hEnd
  obtain ⟨hCreations, hServers⟩ := Prod.mk.inj hEq
  have hClear : Run (restrict DistinctStep Clear) init generations s :=
    ((run_of_exec hRun).of_guarded fun _ _ h => of_decide_eq_true h).mono fun _ _ _ h => ⟨⟨h.1, h.2.1⟩, h.2.2⟩
  exact ⟨s, hCreations, hServers, (consistent_iff_clear.1 hClear).2⟩

/-- Without it: a revoker that is created while the last one stops the server is rejected
with its manager running; one that is created with port 0 is returned without a server. -/
theorem not_consistent :
    (¬ ∀ (actions : List Action) (s : GrpcAdmin), Run DistinctStep init actions s → s.Consistent) ∧
      ∃ s : GrpcAdmin, Run DistinctStep init [.createRevoker { id := [97], grpcPort := 0 }] s ∧
        ¬ s.Consistent := by
  constructor
  · intro h
    have hEnd : (exec (guarded (fun s a => decide (s.Distinct a)) step) init
        [.createRevoker { id := [97], grpcPort := 50051 }, .settled true, .shutdown 0, .managerShutdown 0 true,
          .createRevoker { id := [98], grpcPort := 50051 }]).map (fun s => s.revokers[1]?) =
        some (some { id := [98], creation := .rejected }) := by decide +kernel
    obtain ⟨s, hRun, hRevoker⟩ := Option.map_eq_some_iff.mp hEnd
    have hConsistent := h _ s ((run_of_exec hRun).of_guarded fun _ _ h => of_decide_eq_true h)
    cases hConsistent.rejected _ (List.mem_of_getElem? hRevoker) rfl
  · have hEnd : (exec (guarded (fun s a => decide (s.Distinct a)) step) init
        [.createRevoker { id := [97], grpcPort := 0 }]).map (fun s => (s.revokers[0]?, s.server)) =
        some (some { id := [97], creation := .resolved }, none) := by decide +kernel
    obtain ⟨s, hRun, hEq⟩ := Option.map_eq_some_iff.mp hEnd
    obtain ⟨hRevoker, hServer⟩ := Prod.mk.inj hEq
    refine ⟨s, (run_of_exec hRun).of_guarded fun _ _ h => of_decide_eq_true h, fun hConsistent => ?_⟩
    obtain ⟨-, server, hCurrent, -⟩ := hConsistent.resolved 0 _ hRevoker rfl rfl
    cases hServer.symm.trans hCurrent

end GrpcAdmin

end TokenRevoker
