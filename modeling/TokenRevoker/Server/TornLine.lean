import TokenRevoker.Library.TornLines
import TokenRevoker.Server.CanonicalEvent

/-! One line of the log that a crash has cut off. The length in front of an item protects
it as long as the cut leaves another number of code units; nothing protects the generation
of a rotation marker. -/
namespace TokenRevoker

open Text

namespace Line

variable {lsn generation : Nat} {item : JsString} {type : UInt16} {q rest : JsString} {line : Line}

/-- The text of a line with an item. -/
def itemText (type : UInt16) (lsn : Nat) (item : JsString) : JsString :=
  decimal lsn ++ colon :: ([type] ++ colon :: (decimal item.length ++ colon :: item))

/-- Where a prefix of such a line can end: in its LSN, in its type, in its length or in its
item. -/
theorem prefix_itemText_cases (h : q <+: itemText type lsn item) :
    q <+: decimal lsn ∨ (∃ u, q = decimal lsn ++ colon :: u ∧ (u = [] ∨ u = [type])) ∨
      (∃ u, q = decimal lsn ++ colon :: ([type] ++ colon :: u) ∧ u <+: decimal item.length) ∨
      ∃ u, q = decimal lsn ++ colon :: ([type] ++ colon :: (decimal item.length ++ colon :: u)) ∧
        u <+: item := by
  rcases prefix_append_cases h with hLsn | ⟨afterLsn, rfl, hAfterLsn⟩
  · exact Or.inl hLsn
  rcases List.prefix_cons_iff.mp hAfterLsn with rfl | ⟨rest, rfl, hRest⟩
  · exact Or.inl (by simp)
  rcases List.prefix_cons_iff.mp hRest with rfl | ⟨afterType, rfl, hAfterType⟩
  · exact Or.inr (Or.inl ⟨[], rfl, Or.inl rfl⟩)
  rcases List.prefix_cons_iff.mp hAfterType with rfl | ⟨payload, rfl, hPayload⟩
  · exact Or.inr (Or.inl ⟨[type], rfl, Or.inr rfl⟩)
  rcases prefix_append_cases hPayload with hLength | ⟨afterLength, rfl, hAfterLength⟩
  · exact Or.inr (Or.inr (Or.inl ⟨payload, rfl, hLength⟩))
  rcases List.prefix_cons_iff.mp hAfterLength with rfl | ⟨u, rfl, hItem⟩
  · exact Or.inr (Or.inr (Or.inl ⟨decimal item.length, by simp, List.prefix_refl _⟩))
  exact Or.inr (Or.inr (Or.inr ⟨u, rfl, hItem⟩))

/-- A prefix of such a line with something behind it is passed over, alone in its line,
if it is not as long as the line was. -/
theorem parseLine_cut (hType : type = 0x45 ∨ type = 0x54) (h : q <+: itemText type lsn item)
    (hRest : colon ∉ rest) (hLength : (q ++ rest).length ≠ (itemText type lsn item).length) :
    parseLine generation (q ++ rest) = none := by
  rw [Option.eq_none_iff_forall_ne_some]
  intro event hEvent
  obtain ⟨lsnText, type', payload, hLine, hLsnText, hTypeText, -, hFields⟩ := parseLine_eq_some hEvent
  have hTypeColon : colon ∉ [type] := by
    rcases hType with rfl | rfl <;> decide
  rcases prefix_itemText_cases h with hLsn | ⟨u, rfl, hu⟩ | ⟨u, rfl, hu⟩ | ⟨u, rfl, hu⟩
  · have hMem : colon ∈ q ++ rest := by simp [hLine]
    rcases List.mem_append.mp hMem with hMem | hMem
    · exact colon_not_mem_decimal _ (hLsn.subset hMem)
    · exact hRest hMem
  · rw [List.append_assoc, List.cons_append] at hLine
    obtain ⟨-, hAfter⟩ := append_separator_inj (colon_not_mem_decimal _) hLsnText hLine
    have hMem : colon ∈ u ++ rest := by simp [hAfter]
    rcases List.mem_append.mp hMem with hMem | hMem
    · rcases hu with rfl | rfl
      · cases hMem
      · exact hTypeColon hMem
    · exact hRest hMem
  · have hJoined : (decimal lsn ++ colon :: ([type] ++ colon :: u)) ++ rest =
        decimal lsn ++ colon :: ([type] ++ colon :: (u ++ rest)) := by simp
    rw [hJoined] at hLine
    obtain ⟨-, hAfter⟩ := append_separator_inj (colon_not_mem_decimal _) hLsnText hLine
    obtain ⟨rfl, rfl⟩ := append_separator_inj hTypeColon hTypeText hAfter
    rcases hFields with ⟨hRotate, -⟩ | ⟨-, lenText, text, hPayload, -⟩
    · rcases hType with rfl | rfl <;> exact absurd hRotate (by decide)
    · have hMem : colon ∈ u ++ rest := by simp [hPayload]
      rcases List.mem_append.mp hMem with hMem | hMem
      · exact colon_not_mem_decimal _ (hu.subset hMem)
      · exact hRest hMem
  · have hJoined :
        (decimal lsn ++ colon :: ([type] ++ colon :: (decimal item.length ++ colon :: u))) ++ rest =
          decimal lsn ++ colon :: ([type] ++ colon :: (decimal item.length ++ colon :: (u ++ rest))) := by simp
    rw [hJoined] at hLine
    obtain ⟨-, hAfter⟩ := append_separator_inj (colon_not_mem_decimal _) hLsnText hLine
    obtain ⟨rfl, rfl⟩ := append_separator_inj hTypeColon hTypeText hAfter
    rcases hFields with ⟨hRotate, -⟩ | ⟨-, lenText, text, hText, hLenText, hLen, -⟩
    · rcases hType with rfl | rfl <;> exact absurd hRotate (by decide)
    · obtain ⟨rfl, rfl⟩ := append_separator_inj (colon_not_mem_decimal _) hLenText hText
      rw [numberOf_decimal, Option.some.injEq] at hLen
      refine hLength ?_
      simp only [itemText, List.length_append, List.length_cons, List.length_nil] at hLen ⊢
      omega

/-- A line in which every cut shows: its item ends in a character of one byte or of four. -/
def showsCuts : Line → Bool
  | .entry _ item | .tombstone _ item => endsWhole item
  | .rotate _ _ => false

theorem isAscii_decimal (n : Nat) : IsAscii (decimal n) := by
  intro c hc
  have hDigit := isDigit_of_mem_decimal hc
  simp only [isDigit, Bool.and_eq_true, decide_eq_true_eq] at hDigit
  omega

/-- The fields in front of the item. -/
theorem isAscii_header (hType : type = 0x45 ∨ type = 0x54) (lsn length : Nat) :
    IsAscii (decimal lsn ++ colon :: ([type] ++ colon :: (decimal length ++ [colon]))) := by
  have hSingle : ∀ c : UInt16, c.toNat < 0x80 → IsAscii [c] := by simp [IsAscii]
  have hColon := hSingle colon (by decide)
  have hTypeAscii : IsAscii [type] := hSingle type (by rcases hType with rfl | rfl <;> decide)
  exact (isAscii_decimal lsn).append (hColon.append (hTypeAscii.append
    (hColon.append ((isAscii_decimal length).append hColon))))

theorem itemText_eq (type : UInt16) (lsn : Nat) (item : JsString) : itemText type lsn item =
    (decimal lsn ++ colon :: ([type] ++ colon :: (decimal item.length ++ [colon]))) ++ item := by
  simp [itemText]

theorem toWellFormed_itemText (hType : type = 0x45 ∨ type = 0x54) (lsn : Nat) (item : JsString) :
    toWellFormed (itemText type lsn item) = itemText type lsn (toWellFormed item) := by
  rw [itemText_eq, itemText_eq, toWellFormed_append (isAscii_header hType lsn _).not_surrogate,
    length_toWellFormed]

/-- Where the item ends in a character of one byte or of four, every cut is passed over. -/
theorem parseLine_of_endsWhole (hType : type = 0x45 ∨ type = 0x54) (hItem : item ≠ [])
    (hWhole : endsWhole item = true) {p : Bytes} (hp : p <+: encodeUtf8 (itemText type lsn item))
    (hProper : p ≠ encodeUtf8 (itemText type lsn item)) : parseLine generation (decodeUtf8 p) = none := by
  obtain ⟨z, tail, hText, hTail, hDecode⟩ := decodeUtf8_of_prefix hp hProper
  rw [toWellFormed_itemText hType] at hText
  have hPrefix : z <+: itemText type lsn (toWellFormed item) := ⟨tail, hText.symm⟩
  have hLengths := congrArg List.length hText
  have hPos := List.length_pos_iff.mpr hTail
  rw [List.length_append] at hLengths
  rcases hDecode with hDecode | ⟨hDecode, hLast⟩
  · rw [hDecode, ← List.append_nil z]
    refine parseLine_cut hType hPrefix (by simp) ?_
    rw [List.append_nil]
    omega
  · have hNotOne : tail.length ≠ 1 := by
      intro hOne
      have hCut := hLast hOne
      rw [itemText_eq, endsWhole_append (isAscii_header hType lsn _) hItem, hWhole] at hCut
      cases hCut
    rw [hDecode]
    refine parseLine_cut hType hPrefix (by decide) ?_
    rw [List.length_append, List.length_singleton]
    omega

/-- Elsewhere a cut within the last character leaves a line that is read as an event. -/
theorem exists_parseLine_of_not_endsWhole (hType : type = 0x45 ∨ type = 0x54) (hLsn : 0 < lsn)
    (hItem : item ≠ []) (hNot : endsWhole item = false) :
    ∃ p, p <+: encodeUtf8 (itemText type lsn item) ∧ p ≠ encodeUtf8 (itemText type lsn item) ∧
      parseLine generation (decodeUtf8 p) ≠ none := by
  have hTextNot : endsWhole (itemText type lsn item) = false := by
    rw [itemText_eq, endsWhole_append (isAscii_header hType lsn _) hItem, hNot]
  obtain ⟨p, z, last, hp, hProper, hText, hDecode⟩ := exists_prefix_of_not_endsWhole hTextNot
  refine ⟨p, hp, hProper, ?_⟩
  obtain ⟨start, final, hStart⟩ : ∃ start final, toWellFormed item = start ++ [final] := by
    refine ⟨_, _, (List.dropLast_append_getLast (l := toWellFormed item) fun hNil => hItem ?_).symm⟩
    rw [← List.length_eq_zero_iff, ← length_toWellFormed, hNil]
    rfl
  have hLength : (start ++ [replacement]).length = item.length := by
    rw [← length_toWellFormed item, hStart, List.length_append, List.length_append]
    rfl
  -- the text in front of the last code unit is the line of an item of the same length
  have hCut : z ++ [replacement] = itemText type lsn (start ++ [replacement]) := by
    rw [toWellFormed_itemText hType, itemText_eq, length_toWellFormed, hStart, ← List.append_assoc] at hText
    obtain ⟨rfl, -⟩ := List.append_inj' hText rfl
    rw [itemText_eq, hLength, List.append_assoc]
  rw [hDecode, hCut]
  rcases hType with rfl | rfl
  · have hRead : parseLine generation (itemText 0x45 lsn (start ++ [replacement])) = some _ :=
      @parseLine_text (.entry lsn (start ++ [replacement])) hLsn generation
    simp [hRead]
  · have hRead : parseLine generation (itemText 0x54 lsn (start ++ [replacement])) = some _ :=
      @parseLine_text (.tombstone lsn (start ++ [replacement])) hLsn generation
    simp [hRead]

/-- Without its generation a marker is read as the start of generation 0. -/
theorem exists_parseLine_rotate (hLsn : 0 < lsn) (marker : Nat) :
    ∃ p, p <+: encodeUtf8 (Line.rotate lsn marker).text ∧ p ≠ encodeUtf8 (Line.rotate lsn marker).text ∧
      parseLine generation (decodeUtf8 p) = some (.rotate lsn 0) := by
  have hDecimal := isAscii_decimal lsn
  have hCutAscii : IsAscii (decimal lsn ++ colon :: ([0x52] ++ colon :: [])) :=
    hDecimal.append (by simp [IsAscii, colon])
  have hText : (Line.rotate lsn marker).text =
      (decimal lsn ++ colon :: ([0x52] ++ colon :: [])) ++ decimal marker := by
    simp [text, Line.lsn, Line.type, payload]
  have hEncoded : encodeUtf8 (Line.rotate lsn marker).text =
      encodeUtf8 (decimal lsn ++ colon :: ([0x52] ++ colon :: [])) ++ encodeUtf8 (decimal marker) := by
    rw [hText, (hCutAscii.append (isAscii_decimal marker)).encodeUtf8, hCutAscii.encodeUtf8,
      (isAscii_decimal marker).encodeUtf8, List.map_append]
  refine ⟨encodeUtf8 (decimal lsn ++ colon :: ([0x52] ++ colon :: [])), ?_, ?_, ?_⟩
  · rw [hEncoded]
    exact List.prefix_append _ _
  · rw [hEncoded, (isAscii_decimal marker).encodeUtf8]
    simp [decimal_ne_nil]
  · have hSplit : splitFirst colon ([0x52] ++ colon :: []) = some ([0x52], []) :=
      splitFirst_append (by decide) []
    -- `Number('')` is 0
    have hEmpty : numberOf [] = some 0 := by decide
    rw [decodeUtf8_encodeUtf8, isWellFormed_of_no_surrogate hCutAscii.not_surrogate]
    simp only [parseLine, splitFirst_append (colon_not_mem_decimal _), hSplit, hEmpty, numberOf_decimal,
      Option.bind_eq_bind, Option.bind_some, guard, decimal_ne_nil, ne_eq, not_false_eq_true, if_true, hLsn]
    rfl

/-- Every cut of a line shows exactly if the line has an item, and this ends in a character of
one byte or of four. This is about a line by itself: what is appended behind a torn one is in
`TornTail`. -/
theorem parseLine_torn_iff (h : line.Valid) (generation : Nat) :
    (∀ p, p <+: encodeUtf8 line.text → p ≠ encodeUtf8 line.text → parseLine generation (decodeUtf8 p) = none) ↔
      line.showsCuts = true := by
  have hItemLine : ∀ {type : UInt16} {lsn : Nat} {item : JsString}, type = 0x45 ∨ type = 0x54 → 0 < lsn →
      Acceptable item → ((∀ p, p <+: encodeUtf8 (itemText type lsn item) →
        p ≠ encodeUtf8 (itemText type lsn item) → parseLine generation (decodeUtf8 p) = none) ↔
          endsWhole item = true) := by
    intro type lsn item hType hLsn hItem
    refine ⟨fun hAll => ?_, fun hWhole p hp hProper => ?_⟩
    · rw [← Bool.not_eq_false]
      intro hNot
      obtain ⟨p, hp, hProper, hRead⟩ := exists_parseLine_of_not_endsWhole hType hLsn hItem.ne_nil hNot
      exact hRead (hAll p hp hProper)
    · exact parseLine_of_endsWhole hType hItem.ne_nil hWhole hp hProper
  cases line with
  | entry lsn item => exact hItemLine (Or.inl rfl) h.1 h.2
  | tombstone lsn item => exact hItemLine (Or.inr rfl) h.1 h.2
  | rotate lsn marker =>
      refine iff_of_false (fun hAll => ?_) Bool.false_ne_true
      obtain ⟨p, hp, hProper, hRead⟩ := exists_parseLine_rotate h marker
      rw [hAll p hp hProper] at hRead
      cases hRead

/-- The entry `1:E:1:a` shows every cut. -/
theorem parseLine_torn_entry : (Line.entry 1 [0x61]).showsCuts = true ∧
    ∀ p, p <+: encodeUtf8 (Line.entry 1 [0x61]).text → p ≠ encodeUtf8 (Line.entry 1 [0x61]).text →
      parseLine 0 (decodeUtf8 p) = none :=
  have hValid : (Line.entry 1 [0x61]).Valid := ⟨by decide, by constructor <;> decide⟩
  ⟨by decide, (parseLine_torn_iff hValid 0).mpr (by decide)⟩

/-- The marker `1:R:1`, cut off to `1:R:`, is read as the start of generation 0. -/
theorem not_parseLine_torn :
    ¬ ∀ (line : Line) (generation : Nat) (p : Bytes), line.Valid →
      (∀ lsn marker, line = .rotate lsn marker → 1 ≤ marker) → p <+: encodeUtf8 line.text →
      p ≠ encodeUtf8 line.text → parseLine generation (decodeUtf8 p) = none := by
  intro h
  have hRead := h (.rotate 1 1) 0 [0x31, 0x3A, 0x52, 0x3A] (by show 0 < 1; decide)
    (fun _ _ hLine => by cases hLine; decide) (by decide) (by decide)
  exact absurd hRead (by decide)

end Line

end TokenRevoker
