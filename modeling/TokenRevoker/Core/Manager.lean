import TokenRevoker.Core.BloomFilter
import TokenRevoker.Core.Item

/-! The in-memory half of `BloomFilterManager`: the two filters, the insertion
counter and the methods that read and write them. What the backup manager does
to the disk enters only as the outcome of its call. -/
namespace TokenRevoker

open Text

/-- The manager's `#counters`. Nothing that is decided depends on them. -/
structure Counters where
  addSucceeded : Nat := 0
  addFailed : Nat := 0
  checks : Nat := 0
  hits : Nat := 0
  rotations : Nat := 0
  rotationsFailed : Nat := 0
  applied : Nat := 0
  appliedSaturationWarned : Nat := 0
  deriving DecidableEq

structure Manager (g : Geometry) where
  numItems : Nat
  previous : Option (SizedFilter g)
  current : Option (SizedFilter g)
  hasRotated : Bool := false
  currentInsertions : Nat := 0
  shuttingDown : Bool := false
  counters : Counters := {}
  deriving DecidableEq

namespace Manager

variable {g : Geometry}

/-- `MAX_SATURATION_RATIO`. -/
def maxSaturationRatio : Nat := 10

/-- The filters a new manager holds: empty ones, replaced by those its backup
manager restored. -/
def init (g : Geometry) (numItems : Nat) (restoredCurrent restoredPrevious : Option (SizedFilter g)) :
    Manager g where
  numItems := numItems
  current := restoredCurrent <|> some (SizedFilter.create g)
  previous := restoredPrevious

def saturated (manager : Manager g) : Bool :=
  manager.numItems * maxSaturationRatio < manager.currentInsertions

/-- `current.add(item)` followed by the insertion count. -/
def insert (manager : Manager g) (item : JsString) : Manager g :=
  { manager with
    current := manager.current.map (·.add item)
    currentInsertions := manager.currentInsertions + 1 }

def saturatedMessage (manager : Manager g) : String :=
  s!"Cannot add token: filter critically saturated " ++
    s!"({manager.currentInsertions} insertions, {manager.numItems} capacity). " ++
    "Token NOT revoked. Check health endpoint."

def countAddFailed (manager : Manager g) : Manager g :=
  { manager with
    counters := { manager.counters with addFailed := manager.counters.addFailed + 1 } }

def countAddSucceeded (manager : Manager g) : Manager g :=
  { manager with
    counters := { manager.counters with addSucceeded := manager.counters.addSucceeded + 1 } }

def countApplied (manager : Manager g) : Manager g :=
  { manager with counters := { manager.counters with applied := manager.counters.applied + 1 } }

/-- The warning of `applyEntry` on a saturated filter. -/
def warnSaturation (manager : Manager g) : Manager g :=
  { manager with
    counters := { manager.counters with
      appliedSaturationWarned :=
        if manager.saturated then manager.counters.appliedSaturationWarned + 1
        else manager.counters.appliedSaturationWarned } }

/-- `BloomFilterManager.add`. `backupItem` is the outcome of the backup manager's
call, `.ok ()` where there is no backup manager. -/
def add (manager : Manager g) (backupItem : Except String Unit) (filterItem : JsString) :
    Manager g × Except RevokerError Unit :=
  match checkFilterItem filterItem with
  | .error invalid => (manager, .error invalid)
  | .ok () =>
    if manager.shuttingDown then
      (manager, .error (.internalError "Cannot add token: revoker is shutting down."))
    else if manager.saturated then
      (manager.countAddFailed, .error (.internalError manager.saturatedMessage))
    else
      match backupItem with
      | .error message =>
        (manager.countAddFailed,
          .error (.internalError s!"Failed to add value to Bloom filter: {message}"))
      | .ok () => ((manager.insert filterItem).countAddSucceeded, .ok ())

/-- `BloomFilterManager.applyEntry`: saturation is counted but does not refuse. -/
def applyEntry (manager : Manager g) (backupItem : Except String Unit) (filterItem : JsString) :
    Manager g × Except RevokerError Unit :=
  match checkFilterItem filterItem with
  | .error invalid => (manager, .error invalid)
  | .ok () =>
    if manager.shuttingDown then
      (manager, .error (.internalError "Cannot apply entry: revoker is shutting down."))
    else
      match backupItem with
      | .error message =>
        (manager.warnSaturation,
          .error (.internalError s!"Failed to apply entry to Bloom filter: {message}"))
      | .ok () => ((manager.warnSaturation.insert filterItem).countApplied, .ok ())

/-- The answer of `has`, without its counters. Both filters are asked, the current one first. -/
def covers (manager : Manager g) (value : JsString) : Bool :=
  (match manager.current with | some current => current.test value | none => false) ||
    (match manager.previous with | some previous => previous.test value | none => false)

def has (manager : Manager g) (value : JsString) : Manager g × Except RevokerError Bool :=
  if isBlank value then
    (manager, .error (.validationError "Value must be a non-empty string"))
  else
    let result := manager.covers value
    ({ manager with
        counters := { manager.counters with
          checks := manager.counters.checks + 1
          hits := if result then manager.counters.hits + 1 else manager.counters.hits } },
      .ok result)

/-- The synchronous end of `#rotate`, with the counter `#rotateWithRetry` adds to
right after it. -/
def swap (manager : Manager g) : Manager g :=
  { manager with
    previous := manager.current
    current := some (SizedFilter.create g)
    currentInsertions := 0
    counters := { manager.counters with rotations := manager.counters.rotations + 1 } }

/-- What either way of inserting does to the two filters. The other fields are free, since the
counters differ between the two ways. -/
structure Inserted (before after : Manager g) (item : JsString) : Prop where
  previous : after.previous = before.previous
  current : after.current = before.current.map (·.add item)
  insertions : after.currentInsertions = before.currentInsertions + 1
  shuttingDown : after.shuttingDown = before.shuttingDown
  numItems : after.numItems = before.numItems

/-- The two filters and what decides about further insertions are as before. This is all that
later answers depend on. -/
structure SameFilters (before after : Manager g) : Prop where
  previous : after.previous = before.previous
  current : after.current = before.current
  insertions : after.currentInsertions = before.currentInsertions
  shuttingDown : after.shuttingDown = before.shuttingDown
  numItems : after.numItems = before.numItems

theorem SameFilters.refl (manager : Manager g) : SameFilters manager manager :=
  ⟨rfl, rfl, rfl, rfl, rfl⟩

theorem SameFilters.trans {manager middle after : Manager g} (h : SameFilters manager middle)
    (h' : SameFilters middle after) : SameFilters manager after :=
  ⟨h'.previous.trans h.previous, h'.current.trans h.current, h'.insertions.trans h.insertions,
    h'.shuttingDown.trans h.shuttingDown, h'.numItems.trans h.numItems⟩

variable {manager : Manager g} {backupItem : Except String Unit} {item : JsString}

/-- `add` succeeds exactly when no guard refuses and the item was persisted. -/
theorem add_eq_ok_iff : (manager.add backupItem item).2 = .ok () ↔
    Acceptable item ∧ manager.shuttingDown = false ∧ manager.saturated = false ∧
      backupItem = .ok () := by
  rw [← checkFilterItem_eq_ok_iff]
  unfold add
  rcases checkFilterItem item with invalid | _
  · simp
  · cases manager.shuttingDown <;> cases manager.saturated <;>
      rcases backupItem with message | _ <;> simp

theorem add_of_ok (h : (manager.add backupItem item).2 = .ok ()) :
    Inserted manager (manager.add backupItem item).1 item := by
  obtain ⟨hItem, hShut, hSat, rfl⟩ := add_eq_ok_iff.mp h
  simp only [add, checkFilterItem_eq_ok_iff.mpr hItem, hShut, hSat, Bool.false_eq_true, if_false]
  exact ⟨rfl, rfl, rfl, rfl, rfl⟩

/-- A refused `add` leaves both filters as they were. -/
theorem add_of_error {error : RevokerError} (h : (manager.add backupItem item).2 = .error error) :
    SameFilters manager (manager.add backupItem item).1 := by
  unfold add at h ⊢
  rcases hCheck : checkFilterItem item with invalid | _
  · exact SameFilters.refl _
  · simp only [hCheck] at h ⊢
    split_ifs at h ⊢
    · exact SameFilters.refl _
    · exact ⟨rfl, rfl, rfl, rfl, rfl⟩
    · rcases backupItem with message | _
      · exact ⟨rfl, rfl, rfl, rfl, rfl⟩
      · simp at h

theorem applyEntry_eq_ok_iff : (manager.applyEntry backupItem item).2 = .ok () ↔
    Acceptable item ∧ manager.shuttingDown = false ∧ backupItem = .ok () := by
  rw [← checkFilterItem_eq_ok_iff]
  unfold applyEntry
  rcases checkFilterItem item with invalid | _
  · simp
  · cases manager.shuttingDown <;> rcases backupItem with message | _ <;> simp

theorem applyEntry_of_ok (h : (manager.applyEntry backupItem item).2 = .ok ()) :
    Inserted manager (manager.applyEntry backupItem item).1 item := by
  obtain ⟨hItem, hShut, rfl⟩ := applyEntry_eq_ok_iff.mp h
  simp only [applyEntry, checkFilterItem_eq_ok_iff.mpr hItem, hShut, Bool.false_eq_true, if_false]
  exact ⟨rfl, rfl, rfl, rfl, rfl⟩

theorem applyEntry_of_error {error : RevokerError}
    (h : (manager.applyEntry backupItem item).2 = .error error) :
    SameFilters manager (manager.applyEntry backupItem item).1 := by
  unfold applyEntry at h ⊢
  rcases hCheck : checkFilterItem item with invalid | _
  · exact SameFilters.refl _
  · simp only [hCheck] at h ⊢
    split_ifs at h ⊢
    · exact SameFilters.refl _
    · rcases backupItem with message | _
      · exact ⟨rfl, rfl, rfl, rfl, rfl⟩
      · simp at h

/-- What `add` and `applyEntry` have in common, as functions of how the item was persisted:
the item is inserted where the call returns normally, and only if it was persisted. -/
structure Inserts (manager : Manager g) (item : JsString)
    (call : Except String Unit → Manager g × Except RevokerError Unit) : Prop where
  ok : ∀ {outcome}, (call outcome).2 = .ok () →
    Acceptable item ∧ outcome = .ok () ∧ Inserted manager (call outcome).1 item
  error : ∀ {outcome error}, (call outcome).2 = .error error → SameFilters manager (call outcome).1

theorem add_inserts (manager : Manager g) (item : JsString) :
    Inserts manager item fun outcome => manager.add outcome item where
  ok h := ⟨(add_eq_ok_iff.mp h).1, (add_eq_ok_iff.mp h).2.2.2, add_of_ok h⟩
  error := add_of_error

theorem applyEntry_inserts (manager : Manager g) (item : JsString) :
    Inserts manager item fun outcome => manager.applyEntry outcome item where
  ok h := ⟨(applyEntry_eq_ok_iff.mp h).1, (applyEntry_eq_ok_iff.mp h).2.2, applyEntry_of_ok h⟩
  error := applyEntry_of_error

theorem has_sameFilters (manager : Manager g) (value : JsString) :
    SameFilters manager (manager.has value).1 := by
  unfold has
  split_ifs
  · exact SameFilters.refl _
  · exact ⟨rfl, rfl, rfl, rfl, rfl⟩

/-- On a value that is not blank, `has` answers with what the filters cover. -/
theorem has_eq_ok {value : JsString} (h : isBlank value = false) :
    (manager.has value).2 = .ok (manager.covers value) := by
  simp [has, h]

/-- The bits of a filter slot, none where the slot is empty. -/
def slotBits (slot : Option (SizedFilter g)) : Set Nat :=
  match slot with
  | some filter => filter.bits
  | none => ∅

/-- The two filters as a window of bit patterns. The abstract view of a manager: what it covers
and what a rotation forgets can be read off it. -/
def window (manager : Manager g) : SignatureFilter.Window (Set Nat) :=
  ⟨slotBits manager.current, slotBits manager.previous⟩

theorem signature_nonempty {value : JsString}
    (h : BloomFilter.Addressable g.m g.k value) : (SizedFilter.signature g value).Nonempty := by
  have hPos : 0 < (BloomFilter.locations g.m g.k value).length := by
    rw [BloomFilter.length_locations]
    exact g.k_pos
  obtain ⟨loc, hLoc⟩ := List.exists_mem_of_length_pos hPos
  exact ⟨loc, hLoc, h loc hLoc⟩

theorem slot_test_iff (slot : Option (SizedFilter g)) {value : JsString}
    (h : BloomFilter.Addressable g.m g.k value) :
    (match slot with | some filter => filter.test value | none => false) = true ↔
      SignatureFilter.Covers (SizedFilter.signature g) (slotBits slot) value := by
  cases slot with
  | none =>
      simp only [Bool.false_eq_true, false_iff]
      intro hCovers
      obtain ⟨loc, hLoc⟩ := signature_nonempty h
      exact hCovers hLoc
  | some filter => simp [SizedFilter.test_eq_true_iff, h, slotBits]

/-- The manager covers an addressable item exactly when its window does. -/
theorem covers_iff {value : JsString} (h : BloomFilter.Addressable g.m g.k value) :
    manager.covers value = true ↔ manager.window.Covers (SizedFilter.signature g) value := by
  rw [covers, Bool.or_eq_true, slot_test_iff _ h, slot_test_iff _ h]
  exact Iff.rfl

theorem Inserted.window {after : Manager g} (h : Inserted manager after item)
    (hCurrent : manager.current.isSome) :
    after.window = manager.window.insert (SizedFilter.signature g) item := by
  obtain ⟨current, hSome⟩ := Option.isSome_iff_exists.mp hCurrent
  simp only [Manager.window, h.current, h.previous, hSome, Option.map_some, slotBits,
    SizedFilter.bits_add, SignatureFilter.Window.insert]

theorem SameFilters.window {after : Manager g} (h : SameFilters manager after) :
    after.window = manager.window := by
  simp only [Manager.window, h.current, h.previous]

theorem swap_window (manager : Manager g) : manager.swap.window = manager.window.rotate := by
  simp only [Manager.window, swap, slotBits, SizedFilter.bits_create, SignatureFilter.Window.rotate]
  rfl

end Manager

end TokenRevoker
