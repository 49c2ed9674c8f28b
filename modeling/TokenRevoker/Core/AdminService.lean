import Mathlib.Data.List.AList
import TokenRevoker.Core.Rotation
import TokenRevoker.Library.Positions

/-! The calls of the RevokerAdmin service: one process with any number of revokers, each with
filters of its own geometry, and calls that name a revoker by its id. A reset is answered by
its end or by its timer, whichever comes first. -/
namespace TokenRevoker

open Text Transition

/-- A `Revoker` as the service finds it. Its files are left out: what a restore finds in them
comes with the step that reads them. -/
structure AdminRevoker where
  id : JsString
  geometry : Geometry
  rotations : Rotations geometry
  /-- `bloomFilterManager` is not `null`. -/
  managed : Bool := true
  /-- Resets that have had the mutex. -/
  resets : Nat := 0

namespace AdminRevoker

/-- `destroy` of the manager, after which the revoker lets go of it. -/
def close (r : AdminRevoker) : AdminRevoker :=
  { r with
    rotations := { r.rotations with
      manager := { r.rotations.manager with shuttingDown := true, previous := none, current := none } }
    managed := false }

/-- `shutdown` before it has the mutex. -/
def refuse (r : AdminRevoker) : AdminRevoker :=
  { r with rotations := { r.rotations with manager := { r.rotations.manager with shuttingDown := true } } }

/-- What the backup files hold, for filters of any geometry. -/
structure Restored where
  current : (g : Geometry) → Option (SizedFilter g)
  previous : (g : Geometry) → Option (SizedFilter g)

/-- How the critical section of `resetAndRestore` goes: `create` or `restore` may throw. Where
it throws, the filters stay as far as they have come. -/
inductive ResetOutcome where
  | restored (files : Restored)
  | createThrows (message : String)
  | restoreThrows (message : String)

/-- What the promise of `resetAndRestore` settles with, but for the words before a message. -/
def ResetOutcome.result : ResetOutcome → Except String Unit
  | .restored _ => .ok ()
  | .createThrows message | .restoreThrows message => .error message

/-- Without backups there is nothing to restore. -/
def ResetOutcome.possible (r : AdminRevoker) : ResetOutcome → Bool
  | .restoreThrows _ => r.rotations.backup
  | .restored _ | .createThrows _ => true

/-- New filters, and nothing counted. -/
def refill (r : AdminRevoker) (current previous : Option (SizedFilter r.geometry)) : AdminRevoker :=
  let init := Manager.init r.geometry r.rotations.manager.numItems current previous
  { r with
    rotations := { r.rotations with
      manager := { r.rotations.manager with
        previous := init.previous
        current := init.current
        currentInsertions := 0
        counters := {} } }
    resets := r.resets + 1 }

/-- The critical section of `resetAndRestore`. -/
def reset (r : AdminRevoker) : ResetOutcome → AdminRevoker
  | .restored files =>
      if r.rotations.backup then r.refill (files.current r.geometry) (files.previous r.geometry)
      else r.refill none none
  | .createThrows _ =>
      -- the previous filter is gone by then, the current one stays
      { r with
        rotations := { r.rotations with manager := { r.rotations.manager with previous := none } }
        resets := r.resets + 1 }
  | .restoreThrows _ => r.refill none none

/-- `resetAndClearData` once the files are deleted. -/
def forget (r : AdminRevoker) : AdminRevoker :=
  { r with
    rotations := { r.rotations with
      manager := { r.rotations.manager with hasRotated := false, currentInsertions := 0 } } }

end AdminRevoker

namespace AdminService

/-- The check of the service itself: it takes items that are blank but not empty. The
coordinator's check, which has the same name, refuses them. -/
def itemValidationError (item : JsString) : Option String :=
  if item.length = 0 then some "item must be a non-empty string"
  else if maxItemLength < item.length then some s!"item must not exceed {maxItemLength} characters"
  else if hasLineBreak item then some "item must not contain \\r, \\n or \\0 characters"
  else none

/-- The codes of `grpc.status` that the service uses. Their numbers are never looked at. -/
inductive StatusCode where
  | invalidArgument
  | notFound
  | internal
  deriving DecidableEq

structure ServiceError where
  code : StatusCode
  message : String
  deriving DecidableEq

def notFound : ServiceError := ⟨.notFound, "Revoker instance or Bloom filter not found"⟩

/-- The `catch` blocks of `Add` and `Has`. -/
def thrown : RevokerError → ServiceError
  | .validationError message => ⟨.invalidArgument, message⟩
  | .internalError message => ⟨.internal, message⟩

inductive Reply where
  | success (message : String)
  | exists (found : Bool)
  | revokerIds (ids : List JsString)
  deriving DecidableEq

abbrev Answer := Except ServiceError Reply

/-- A call with its request, and with what the disk does during it. `GetMetrics` is left out. -/
inductive Rpc where
  | add (revokerId item : JsString) (backupItem : Except String Unit)
  | has (revokerId item : JsString)
  | resetAndRestore (revokerId : JsString)
  | resetAndClearData (revokerId : JsString) (deletions : Except String Unit)
  | listRevokers

/-- A reset that a call has begun. It outlives its answer: the timer of the race does not take
the reset back. -/
structure ResetCall where
  revoker : Nat
  /-- What the call is told if the reset is in time. -/
  message : String
  /-- What stands before the message if it is in time to fail. -/
  failure : String
  /-- How the critical section went. -/
  performed : Option (Except String Unit) := none
  answer : Option Answer := none
  deriving DecidableEq

/-- The callbacks of the race, where the reset wins it. -/
def ResetCall.reply (call : ResetCall) : Except String Unit → Answer
  | .ok () => .ok (.success call.message)
  | .error message => .error ⟨.internal, call.failure ++ message⟩

end AdminService

open AdminService

/-- `instancesMap` refers to the revokers of the process. The list has all that were ever
created, those that have left included. -/
structure AdminService where
  revokers : List AdminRevoker := []
  instancesMap : Option (AList fun _ : JsString => Nat) := none
  resets : List ResetCall := []

namespace AdminService

def findInstance (s : AdminService) (revokerId : JsString) : Option (Nat × AdminRevoker) := do
  let instances ← s.instancesMap
  let i ← instances.lookup revokerId
  let r ← s.revokers[i]?
  guard (r.managed = true)
  return (i, r)

def setRevoker (s : AdminService) (i : Nat) (r : AdminRevoker) : AdminService :=
  { s with revokers := s.revokers.set i r }

/-- What `Add` and `Has` do around their call of the manager. -/
def onManager (s : AdminService) (revokerId item : JsString)
    (use : (r : AdminRevoker) → Manager r.geometry × Except RevokerError Reply) : AdminService × Answer :=
  match itemValidationError item with
  | some invalidItem => (s, .error ⟨.invalidArgument, invalidItem⟩)
  | none =>
    match s.findInstance revokerId with
    | none => (s, .error notFound)
    | some (i, r) =>
      (s.setRevoker i { r with rotations := { r.rotations with manager := (use r).1 } }, (use r).2.mapError thrown)

/-- `Add`. -/
def add (s : AdminService) (revokerId item : JsString) (backupItem : Except String Unit) :
    AdminService × Answer :=
  s.onManager revokerId item fun r =>
    let (manager, result) := r.rotations.manager.add (r.rotations.persist backupItem) item
    (manager, result.map fun _ => .success "Item added to Bloom filter")

/-- `Has`. -/
def has (s : AdminService) (revokerId item : JsString) : AdminService × Answer :=
  s.onManager revokerId item fun r =>
    let (manager, result) := r.rotations.manager.has item
    (manager, result.map .exists)

/-- The race that both resets enter. -/
def beginReset (s : AdminService) (i : Nat) (message failure : String) : AdminService :=
  { s with resets := s.resets ++ [{ revoker := i, message := message, failure := failure }] }

/-- `ResetAndRestore`, which is not answered at once. -/
def resetAndRestore (s : AdminService) (revokerId : JsString) : AdminService × Option Answer :=
  match s.findInstance revokerId with
  | none => (s, some (.error notFound))
  | some (i, _) => (s.beginReset i "Bloom filter reset and restored" "Failed to reset and restore: ", none)

/-- `ResetAndClearData`. The manager deletes the files before it waits for its mutex. -/
def resetAndClearData (s : AdminService) (revokerId : JsString) (deletions : Except String Unit) :
    AdminService × Option Answer :=
  match s.findInstance revokerId with
  | none => (s, some (.error notFound))
  | some (i, r) =>
    match r.rotations.persist deletions with
    | .error message => (s, some (.error ⟨.internal, s!"Failed to reset and clear data: {message}"⟩))
    | .ok () => ((s.setRevoker i r.forget).beginReset i "Bloom filter reset and data cleared"
        "Failed to reset and clear data: Failed to reset and restore: ", none)

/-- `ListRevokers`, up to the order of the ids. -/
def listRevokers (s : AdminService) : Answer :=
  match s.instancesMap with
  | none => .error ⟨.internal, "Revoker instances map is not initialized"⟩
  | some instances => .ok (.revokerIds instances.keys)

def call (s : AdminService) : Rpc → AdminService × Option Answer
  | .add revokerId item backupItem => ((s.add revokerId item backupItem).1, some (s.add revokerId item backupItem).2)
  | .has revokerId item => ((s.has revokerId item).1, some (s.has revokerId item).2)
  | .resetAndRestore revokerId => s.resetAndRestore revokerId
  | .resetAndClearData revokerId deletions => s.resetAndClearData revokerId deletions
  | .listRevokers => (s, some s.listRevokers)

inductive Action where
  | createRevoker (id : JsString) (g : Geometry) (numItems : Nat) (backup : Bool)
      (restoredCurrent restoredPrevious : Option (SizedFilter g))
  /-- `init` of the store. -/
  | init
  | registerInstance (i : Nat)
  | unregisterInstance (i : Nat)
  /-- `destroy` of the store. -/
  | destroy
  | call (rpc : Rpc)
  /-- What else a revoker does with its manager, rotations above all. -/
  | revoker (i : Nat) (a : Rotations.Action)
  | shutdown (i : Nat)
  | closed (i : Nat)
  /-- A reset has the mutex. -/
  | reset (k : Nat) (outcome : AdminRevoker.ResetOutcome)
  | timeout (k : Nat)

def step (s : AdminService) : Action → Option AdminService
  | .createRevoker id g numItems backup restoredCurrent restoredPrevious => some { s with
      revokers := s.revokers ++ [{
        id := id
        geometry := g
        rotations := .start g numItems backup restoredCurrent restoredPrevious }] }
  | .init => if s.instancesMap.isSome then none else some { s with instancesMap := some ∅ }
  | .registerInstance i => do
      let instances ← s.instancesMap
      let r ← s.revokers[i]?
      return { s with instancesMap := some (instances.insert r.id i) }
  | .unregisterInstance i => do
      let instances ← s.instancesMap
      let r ← s.revokers[i]?
      return { s with instancesMap := some (instances.erase r.id) }
  | .destroy => if s.instancesMap.isSome then some { s with instancesMap := none } else none
  | .call rpc => some (s.call rpc).1
  | .revoker i a => do
      let r ← s.revokers[i]?
      let rotations ← r.rotations.step a
      return s.setRevoker i { r with rotations := rotations }
  | .shutdown i => do
      let r ← s.revokers[i]?
      return s.setRevoker i r.refuse
  | .closed i => do
      let r ← s.revokers[i]?
      return s.setRevoker i r.close
  | .reset k outcome => do
      let call ← s.resets[k]?
      let r ← s.revokers[call.revoker]?
      guard (call.performed = none ∧ r.rotations.suspended = false ∧ outcome.possible r = true)
      let answered := { call with
        performed := some outcome.result
        -- a race that the timer has won stays so
        answer := call.answer <|> some (call.reply outcome.result) }
      return { s.setRevoker call.revoker (r.reset outcome) with resets := s.resets.set k answered }
  | .timeout k => do
      let call ← s.resets[k]?
      guard (call.answer = none)
      return { s with resets := s.resets.set k { call with answer := some (.error ⟨.internal, "Timeout"⟩) } }

end AdminService

namespace AdminRevoker

variable {r later : AdminRevoker} {x : JsString} {since resets : Nat}

/-- What one step of the process can do to one of its revokers. Every step of a run is one of
these for each revoker, most of them `kept`. -/
inductive Effect (r : AdminRevoker) : AdminRevoker → Prop where
  | kept : Effect r r
  | stepped {a : Rotations.Action} {rotations : Rotations r.geometry}
      (step : r.rotations.step a = some rotations) : Effect r { r with rotations := rotations }
  | refused : Effect r r.refuse
  | closed : Effect r r.close
  | reset (outcome : ResetOutcome) : Effect r (r.reset outcome)
  | forgotten : Effect r r.forget

/-- A manager that can be found has a current filter. -/
def Alive (r : AdminRevoker) : Prop := r.managed = true → r.rotations.manager.current.isSome

/-- Unless the manager is gone or a reset has had its mutex, an item is where the rotations
since have put it. A reset since then, or the loss of the manager, ends the promise. -/
structure Keeps (since resets : Nat) (x : JsString) (r : AdminRevoker) : Prop where
  resets_le : resets ≤ r.resets
  holds : r.managed = true → r.resets = resets → Rotations.Holds since x r.rotations

theorem reset_resets (r : AdminRevoker) (outcome : ResetOutcome) : (r.reset outcome).resets = r.resets + 1 := by
  cases outcome with
  | restored files =>
      rw [reset]
      split <;> rfl
  | createThrows | restoreThrows => rfl

theorem refill_alive (r : AdminRevoker) (current previous : Option (SizedFilter r.geometry)) :
    (r.refill current previous).Alive := by
  intro _
  cases current <;> rfl

theorem Effect.alive (h : r.Effect later) (hAlive : r.Alive) : later.Alive := by
  cases h with
  | kept => exact hAlive
  | stepped step => exact fun hManaged => Rotations.step_current step (hAlive hManaged)
  | refused | forgotten => exact hAlive
  | closed => exact fun hManaged => absurd hManaged (by simp [close])
  | reset outcome =>
      cases outcome with
      | restored files =>
          rw [AdminRevoker.reset]
          split
          · exact refill_alive r _ _
          · exact refill_alive r _ _
      | createThrows => exact hAlive
      | restoreThrows => exact refill_alive r _ _

theorem Effect.keeps (h : r.Effect later) (hKeeps : r.Keeps since resets x) : later.Keeps since resets x := by
  cases h with
  | kept | refused | forgotten => exact ⟨hKeeps.resets_le, hKeeps.holds⟩
  | stepped step =>
      exact ⟨hKeeps.resets_le, fun hManaged hResets => Rotations.step_holds (hKeeps.holds hManaged hResets) step⟩
  | closed => exact ⟨hKeeps.resets_le, fun hManaged => absurd hManaged (by simp [close])⟩
  | reset outcome =>
      have hMore := r.reset_resets outcome
      have hLe := hKeeps.resets_le
      exact ⟨by omega, fun _ hResets => by omega⟩

/-- The revoker with other counters at most. -/
def SameFilters (r later : AdminRevoker) : Prop :=
  ∃ manager : Manager r.geometry, later = { r with rotations := { r.rotations with manager := manager } } ∧
    r.rotations.manager.SameFilters manager

end AdminRevoker

namespace AdminService

variable {s t : AdminService} {revokerId item : JsString} {backupItem : Except String Unit} {i : Nat}
  {r : AdminRevoker}

/-- What a step of the process does to all of them: each goes on, and new ones are alive. This
is all that later steps have to know of an earlier state. -/
structure Later (revokers later : List AdminRevoker) : Prop where
  old : ∀ {i : Nat} {r : AdminRevoker}, revokers[i]? = some r → ∃ r', later[i]? = some r' ∧ r.Effect r'
  alive : (∀ r ∈ revokers, r.Alive) → ∀ r ∈ later, r.Alive

theorem Later.refl (revokers : List AdminRevoker) : Later revokers revokers where
  old h := ⟨_, h, .kept⟩
  alive h := h

theorem Later.set {revokers : List AdminRevoker} (hGet : revokers[i]? = some r) {later : AdminRevoker}
    (h : r.Effect later) : Later revokers (revokers.set i later) where
  old {j old} hOld := by
    by_cases hSame : i = j
    · subst hSame
      obtain rfl := Option.some.inj (hGet.symm.trans hOld)
      exact ⟨later, List.getElem?_set_self (List.getElem?_eq_some_iff.mp hGet).1, h⟩
    · exact ⟨old, by rw [List.getElem?_set_ne hSame, hOld], .kept⟩
  alive hAlive r' hMem := by
    rcases List.mem_or_eq_of_mem_set hMem with hMem | rfl
    · exact hAlive r' hMem
    · exact h.alive (hAlive r (List.mem_of_getElem? hGet))

theorem findInstance_some (h : s.findInstance revokerId = some (i, r)) :
    s.revokers[i]? = some r ∧ r.managed = true := by
  simp only [findInstance, Option.bind_eq_bind, Option.bind_eq_some_iff, Option.pure_def] at h
  obtain ⟨instances, -, j, -, found, hGet, _, hGuard, hEq⟩ := h
  obtain ⟨rfl, rfl⟩ := Prod.mk.inj (Option.some.inj hEq)
  exact ⟨hGet, by simpa [guard] using hGuard⟩

/-- Another manager in the place of a revoker's own does not hide it. -/
theorem findInstance_setRevoker (h : s.findInstance revokerId = some (i, r)) {later : AdminRevoker}
    (hManaged : later.managed = true) : (s.setRevoker i later).findInstance revokerId = some (i, later) := by
  have hGet := (findInstance_some h).1
  simp only [findInstance, Option.bind_eq_bind, Option.bind_eq_some_iff, Option.pure_def] at h ⊢
  obtain ⟨instances, hMap, j, hLookup, found, hFound, _, hGuard, hEq⟩ := h
  obtain ⟨rfl, rfl⟩ := Prod.mk.inj (Option.some.inj hEq)
  refine ⟨instances, hMap, j, hLookup, later, ?_, (), ?_, rfl⟩
  · exact List.getElem?_set_self (List.getElem?_eq_some_iff.mp hGet).1
  · simp [hManaged]

section OnManager

variable {use : (r : AdminRevoker) → Manager r.geometry × Except RevokerError Reply}

theorem onManager_eq (hItem : itemValidationError item = none) (hFound : s.findInstance revokerId = some (i, r)) :
    s.onManager revokerId item use =
      (s.setRevoker i { r with rotations := { r.rotations with manager := (use r).1 } },
        (use r).2.mapError thrown) := by
  rw [onManager, hItem]
  dsimp only
  rw [hFound]

/-- Such a call is refused and changes nothing, or it has found its revoker. -/
theorem onManager_cases (s : AdminService) (revokerId item : JsString)
    (use : (r : AdminRevoker) → Manager r.geometry × Except RevokerError Reply) :
    (∃ error, s.onManager revokerId item use = (s, .error error)) ∨
      itemValidationError item = none ∧ ∃ i r, s.findInstance revokerId = some (i, r) := by
  rw [onManager]
  cases itemValidationError item with
  | some invalidItem => exact Or.inl ⟨_, rfl⟩
  | none =>
      cases s.findInstance revokerId with
      | none => exact Or.inl ⟨_, rfl⟩
      | some found => exact Or.inr ⟨rfl, found.1, found.2, rfl⟩

end OnManager

/-- Everything but counters is as before. -/
structure Untouched (s t : AdminService) : Prop where
  instancesMap : t.instancesMap = s.instancesMap
  resets : t.resets = s.resets
  revokers : ∀ {i : Nat} {r : AdminRevoker}, s.revokers[i]? = some r →
    ∃ r', t.revokers[i]? = some r' ∧ r.SameFilters r'

theorem Untouched.refl (s : AdminService) : Untouched s s :=
  ⟨rfl, rfl, fun {_ r} h => ⟨r, h, r.rotations.manager, rfl, .refl _⟩⟩

/-- An `Add` that is answered with success leaves the item where its revoker finds it. -/
theorem add_success (hAlive : ∀ r ∈ s.revokers, r.Alive) {reply : Reply}
    (h : (s.add revokerId item backupItem).2 = .ok reply) :
    itemValidationError item = none ∧ Acceptable item ∧
      ∃ i r, (s.add revokerId item backupItem).1.findInstance revokerId = some (i, r) ∧
        r.Keeps r.rotations.completed r.resets item := by
  rw [add] at h ⊢
  rcases s.onManager_cases revokerId item _ with ⟨error, hRefused⟩ | ⟨hItem, i, r, hFound⟩
  · rw [hRefused] at h
    cases h
  rw [onManager_eq hItem hFound] at h ⊢
  obtain ⟨hGet, hManaged⟩ := findInstance_some hFound
  have hOk : (r.rotations.manager.add (r.rotations.persist backupItem) item).2 = .ok () := by
    cases hAdd : (r.rotations.manager.add (r.rotations.persist backupItem) item).2 with
    | ok done => rfl
    | error thrown =>
        change Except.mapError _ (Except.map _ (r.rotations.manager.add _ item).2) = _ at h
        rw [hAdd] at h
        cases h
  have hInserts : r.rotations.Inserts item (.add item backupItem) := ⟨rfl, hOk⟩
  have hHolds := Rotations.inserts_holds rfl hInserts (hAlive r (List.mem_of_getElem? hGet) hManaged)
  exact ⟨hItem, Rotations.inserts_accepted hInserts, i, _, findInstance_setRevoker hFound hManaged,
    Nat.le_refl _, fun _ _ => hHolds⟩

/-- Two revokers, of which the first is in use. -/
def pair : List Action :=
  [.createRevoker [0x61] .oneBucket 1 false none none, .createRevoker [0x62] .oneBucket 1 false none none, .init,
    .registerInstance 0, .registerInstance 1]

end AdminService

end TokenRevoker
