import TokenRevoker.Library.Text

/-! The checks a revocation item must pass, the pattern of ids, and the two error
classes of `errors.ts`. Core and the coordinator check the same rules of items in a
different order and with different texts; both accept exactly the same strings. -/
namespace TokenRevoker

open Text

inductive RevokerError where
  | validationError (message : String)
  | internalError (message : String)
  deriving DecidableEq

/-- `error.message`. -/
def RevokerError.message : RevokerError → String
  | .validationError message | .internalError message => message

/-- `[a-zA-Z0-9]`. -/
def isAlphanumeric (unit : UInt16) : Bool :=
  (0x30 ≤ unit && unit ≤ 0x39) || (0x41 ≤ unit && unit ≤ 0x5A) || (0x61 ≤ unit && unit ≤ 0x7A)

/-- `idPattern`: `[a-zA-Z0-9][a-zA-Z0-9_-]{0,63}`, from the start to the end. Ids are
parts of file names. -/
def idPattern : JsString → Bool
  | [] => false
  | first :: rest => isAlphanumeric first &&
      rest.all (fun unit => isAlphanumeric unit || unit == 0x5F || unit == 0x2D) &&
      decide (rest.length ≤ 63)

/-- The white space and line terminators that `String.prototype.trim` removes. The byte order
mark is one of them. -/
def isWhitespace (unit : UInt16) : Bool :=
  (0x0009 ≤ unit && unit ≤ 0x000D) || unit == 0x0020 || unit == 0x00A0 || unit == 0x1680 ||
    (0x2000 ≤ unit && unit ≤ 0x200A) || unit == 0x2028 || unit == 0x2029 || unit == 0x202F ||
    unit == 0x205F || unit == 0x3000 || unit == 0xFEFF

/-- `value.trim() === ''`. -/
def isBlank (value : JsString) : Bool := value.all isWhitespace

/-- `/[\r\n\0]/.test(value)`. -/
def hasLineBreak (value : JsString) : Bool :=
  value.any fun unit => unit == 0x000D || unit == 0x000A || unit == 0x0000

/-- `BloomFilterManager.MAX_ITEM_LENGTH`, which the coordinator repeats. -/
def maxItemLength : Nat := 4096

/-- The checks `add` and `applyEntry` of the core manager make on an item, in
their order. -/
def checkFilterItem (filterItem : JsString) : Except RevokerError Unit :=
  if isBlank filterItem then
    .error (.validationError "Value must be a non-empty string")
  else if hasLineBreak filterItem then
    .error (.validationError "Value must not contain line breaks or null characters")
  else if maxItemLength < filterItem.length then
    .error (.validationError s!"Value exceeds maximum length of {maxItemLength} characters")
  else
    .ok ()

/-- The coordinator's check: the text of the first rule
an item breaks, `none` when it breaks no rule. -/
def itemValidationError (item : JsString) : Option String :=
  if isBlank item then
    some "item must be a non-empty string"
  else if maxItemLength < item.length then
    some s!"item must not exceed {maxItemLength} characters"
  else if hasLineBreak item then
    some "item must not contain \\r, \\n or \\0 characters"
  else
    none

/-- What both checks accept. The service of core has a weaker check of its own, behind which
this one still stands. -/
structure Acceptable (item : JsString) : Prop where
  not_blank : isBlank item = false
  no_line_break : hasLineBreak item = false
  length_le : item.length ≤ maxItemLength

theorem checkFilterItem_eq_ok_iff {item : JsString} :
    checkFilterItem item = .ok () ↔ Acceptable item := by
  constructor
  · intro h
    unfold checkFilterItem at h
    split_ifs at h with hBlank hBreak hLength
    exact ⟨by simpa using hBlank, by simpa using hBreak, by omega⟩
  · rintro ⟨hBlank, hBreak, hLength⟩
    simp [checkFilterItem, hBlank, hBreak, Nat.not_lt.mpr hLength]

theorem itemValidationError_eq_none_iff {item : JsString} :
    itemValidationError item = none ↔ Acceptable item := by
  constructor
  · intro h
    unfold itemValidationError at h
    split_ifs at h with hBlank hLength hBreak
    exact ⟨by simpa using hBlank, by simpa using hBreak, by omega⟩
  · rintro ⟨hBlank, hBreak, hLength⟩
    simp [itemValidationError, hBlank, hBreak, Nat.not_lt.mpr hLength]

instance (item : JsString) : Decidable (Acceptable item) :=
  decidable_of_iff _ itemValidationError_eq_none_iff

theorem Acceptable.ne_nil {item : JsString} (h : Acceptable item) : item ≠ [] := by
  rintro rfl
  exact absurd h.not_blank (by decide)

theorem Acceptable.newline_not_mem {item : JsString} (h : Acceptable item) : 0x000A ∉ item := by
  intro hMem
  have := h.no_line_break
  rw [hasLineBreak, List.any_eq_false] at this
  exact this _ hMem (by decide)

theorem isWhitespace_surrogate (unit : UInt16) (h : isSurrogate unit = true) :
    isWhitespace unit = isWhitespace replacement := by
  have hRange : 0xD800 ≤ unit.toNat ∧ unit.toNat < 0xE000 := by
    simp only [isSurrogate, isHigh, isLow, Bool.or_eq_true, Bool.and_eq_true, decide_eq_true_eq] at h
    omega
  have hReplacement : isWhitespace replacement = false := by decide
  rw [hReplacement]
  simp only [isWhitespace, Bool.or_eq_false_iff, Bool.and_eq_false_iff, decide_eq_false_iff_not,
    beq_eq_false_iff_ne, ne_eq, ← UInt16.toNat_inj, UInt16.le_iff_toNat_le]
  simp only [UInt16.reduceToNat]
  omega

/-- Replacing lone surrogates does not change whether an item is accepted. -/
theorem Acceptable.toWellFormed {item : JsString} (h : Acceptable item) :
    Acceptable (toWellFormed item) where
  not_blank := by
    rw [isBlank, all_toWellFormed isWhitespace isWhitespace_surrogate]
    exact h.not_blank
  no_line_break := by
    have hAll := all_toWellFormed
      (fun unit => !(unit == 0x000D || unit == 0x000A || unit == 0x0000)) (by
        intro unit hUnit
        have hNe : ∀ c : UInt16, isSurrogate c = false → (unit == c) = false := by
          intro c hc
          rw [beq_eq_false_iff_ne]
          rintro rfl
          simp [hUnit] at hc
        rw [hNe _ (by decide), hNe _ (by decide), hNe _ (by decide)]
        decide) item
    have hBreak := h.no_line_break
    rw [hasLineBreak, ← Bool.not_eq_true', List.not_any_eq_all_not] at hBreak ⊢
    rw [← hBreak]
    exact hAll
  length_le := by
    rw [length_toWellFormed]
    exact h.length_le

end TokenRevoker
