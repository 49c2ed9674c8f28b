import TokenRevoker.Library.Fields

/-! A log whose appends may have been cut off. Decoding and splitting start afresh behind
every line break, so the lines before it are read the same whatever follows; a text that
follows a fragment is read as the end of the fragment's line, and a cut within a character
leaves one replacement in its place. -/
namespace Text

/-- Decoding starts afresh at every byte that continues nothing. -/
theorem decodeUtf8_append (fragment : Bytes) {content : Bytes}
    (hContent : ∀ b ∈ content.head?, isTail b = false) :
    decodeUtf8 (fragment ++ content) = decodeUtf8 fragment ++ decodeUtf8 content := by
  cases content with
  | nil => simp [decodeUtf8]
  | cons a content =>
      have hTail : isTail a = false := hContent a (by simp)
      have hThree : ∀ b, isSecondOfThree b a = false := fun b => by simp [isSecondOfThree, hTail]
      have hFour : ∀ b, isSecondOfFour b a = false := fun b => by simp [isSecondOfFour, hTail]
      induction fragment using decodeUtf8.induct with
      | case1 => rfl
      | case2 b =>
          rw [decodeUtf8.eq_def (([b] : Bytes) ++ _)]
          by_cases hAscii : b.toNat < 0x80 <;> simp [decodeUtf8, hAscii, hTail, hThree, hFour]
      | case3 b c rest hAscii ih =>
          rw [List.cons_append, decodeUtf8_ascii_cons hAscii, decodeUtf8_ascii_cons hAscii, ih]
          rfl
      | case4 b c rest hAscii hTwo ih =>
          rw [decodeUtf8.eq_def (b :: c :: rest ++ _), decodeUtf8.eq_def (b :: c :: rest)]
          simp [hAscii, hTwo, ih]
      | case5 b c hAscii hTwo hSecond =>
          rw [decodeUtf8.eq_def (([b, c] : Bytes) ++ _), decodeUtf8.eq_def ([b, c] : Bytes)]
          simp [hAscii, hTwo, hSecond, hTail]
      | case6 b c hAscii hTwo hSecond d rest hd ih =>
          rw [decodeUtf8.eq_def (b :: c :: d :: rest ++ _), decodeUtf8.eq_def (b :: c :: d :: rest)]
          simp [hAscii, hTwo, hSecond, hd, ih]
      | case7 b c hAscii hTwo hSecond d rest hd ih =>
          rw [decodeUtf8.eq_def (b :: c :: d :: rest ++ _), decodeUtf8.eq_def (b :: c :: d :: rest)]
          simpa [hAscii, hTwo, hSecond, hd] using ih
      | case8 b c hAscii hTwo hNotThree hSecond =>
          rw [decodeUtf8.eq_def (([b, c] : Bytes) ++ _), decodeUtf8.eq_def ([b, c] : Bytes)]
          cases content <;> simp [hAscii, hTwo, hNotThree, hSecond, hTail]
      | case9 b c hAscii hTwo hNotThree hSecond d hd =>
          rw [decodeUtf8.eq_def (([b, c, d] : Bytes) ++ _), decodeUtf8.eq_def ([b, c, d] : Bytes)]
          simp [hAscii, hTwo, hNotThree, hSecond, hd, hTail]
      | case10 b c hAscii hTwo hNotThree hSecond d hd ih =>
          rw [decodeUtf8.eq_def (([b, c, d] : Bytes) ++ _), decodeUtf8.eq_def ([b, c, d] : Bytes)]
          simpa [hAscii, hTwo, hNotThree, hSecond, hd] using ih
      | case11 b c hAscii hTwo hNotThree hSecond d e rest hde ih =>
          rw [decodeUtf8.eq_def (b :: c :: d :: e :: rest ++ _), decodeUtf8.eq_def (b :: c :: d :: e :: rest)]
          simp [hAscii, hTwo, hNotThree, hSecond, hde, ih]
      | case12 b c hAscii hTwo hNotThree hSecond d e rest hde hd ih =>
          have he : isTail e = false := by simpa [hd] using hde
          rw [decodeUtf8.eq_def (b :: c :: d :: e :: rest ++ _), decodeUtf8.eq_def (b :: c :: d :: e :: rest)]
          simpa [hAscii, hTwo, hNotThree, hSecond, he, hd] using ih
      | case13 b c hAscii hTwo hNotThree hSecond d e rest hde hd ih =>
          rw [decodeUtf8.eq_def (b :: c :: d :: e :: rest ++ _), decodeUtf8.eq_def (b :: c :: d :: e :: rest)]
          simpa [hAscii, hTwo, hNotThree, hSecond, hde, hd] using ih
      | case14 b c rest hAscii hTwo hNotThree hNotFour ih =>
          rw [decodeUtf8.eq_def (b :: c :: rest ++ _), decodeUtf8.eq_def (b :: c :: rest)]
          simpa [hAscii, hTwo, hNotThree, hNotFour] using ih

/-- No encoded text begins in the middle of a character. -/
theorem isTail_of_head?_encodeUtf8 (s : JsString) : ∀ b ∈ (encodeUtf8 s).head?, isTail b = false := by
  have hUnit : ∀ (u : UInt16) (tail : Bytes), ∀ b ∈ (unitBytes u ++ tail).head?, isTail b = false := by
    intro u tail b hb
    have hLt := u.toNat_lt
    simp only [unitBytes] at hb
    split_ifs at hb <;>
      simp only [List.cons_append, List.head?_cons, Option.mem_def, Option.some.injEq] at hb <;>
      subst hb <;> simp [isTail] <;> omega
  induction s using encodeUtf8.induct with
  | case1 => simp [encodeUtf8]
  | case2 u => simpa [encodeUtf8] using hUnit (scalarUnit u) []
  | case3 u v rest h ih =>
      have hPair : isHigh u = true ∧ isLow v = true := by simpa using h
      simp only [isHigh, isLow, Bool.and_eq_true, decide_eq_true_eq] at hPair
      intro b hb
      rw [encodeUtf8, if_pos h] at hb
      simp only [pairBytes, List.cons_append, List.head?_cons, Option.mem_def, Option.some.injEq] at hb
      subst hb
      simp [isTail]
      omega
  | case4 u v rest h ih =>
      rw [encodeUtf8, if_neg h]
      exact hUnit _ _

/-- A text that follows a fragment is read as it is, after what the fragment is read as. -/
theorem decodeUtf8_append_encodeUtf8 (fragment : Bytes) (s : JsString) :
    decodeUtf8 (fragment ++ encodeUtf8 s) = decodeUtf8 fragment ++ toWellFormed s := by
  rw [decodeUtf8_append fragment (isTail_of_head?_encodeUtf8 s), decodeUtf8_encodeUtf8]

/-- Every byte is read as something. -/
theorem decodeUtf8_eq_nil_iff {content : Bytes} : decodeUtf8 content = [] ↔ content = [] := by
  refine ⟨fun h => ?_, fun h => by rw [h]; rfl⟩
  by_contra hContent
  rw [decodeUtf8.eq_def] at h
  split at h
  · exact hContent rfl
  · cases h
  · split_ifs at h
    · split at h
      · cases h
      · split_ifs at h
    · split at h
      · cases h
      · split_ifs at h
      · split_ifs at h
        simp [pairOf] at h

/-- Only a line break is read as one. -/
theorem newline_not_mem_decodeUtf8 {content : Bytes} (h : 0x0A ∉ content) :
    newline ∉ decodeUtf8 content := by
  have hReplacement : newline ≠ replacement := by decide
  have hOther : ∀ n, n < 0x10000 → n ≠ 0x0A → newline ≠ UInt16.ofNat n := by
    intro n hLt hNe hEq
    have := congrArg UInt16.toNat hEq
    rw [UInt16.toNat_ofNat', Nat.mod_eq_of_lt hLt] at this
    exact hNe this.symm
  have hByte : ∀ b : UInt8, 0x0A ≠ b → newline ≠ UInt16.ofNat b.toNat := by
    intro b hb
    have hLt := b.toNat_lt
    exact hOther _ (by omega) fun hEq => hb (UInt8.toNat_inj.mp hEq).symm
  induction content using decodeUtf8.induct with
  | case1 => simp [decodeUtf8]
  | case2 b =>
      have hb := hByte b (by simpa using h)
      by_cases hAscii : b.toNat < 0x80
      · simpa [decodeUtf8, hAscii] using hb
      · simpa [decodeUtf8, hAscii] using hReplacement
  | case3 b c rest hAscii ih =>
      rw [List.mem_cons, not_or] at h
      rw [decodeUtf8_ascii_cons hAscii, List.mem_cons, not_or]
      exact ⟨hByte b h.1, ih h.2⟩
  | case4 b c rest hAscii hTwo ih =>
      simp only [List.mem_cons, not_or] at h
      have hValue : newline ≠ UInt16.ofNat ((b.toNat - 0xC0) * 64 + (c.toNat - 0x80)) := by
        simp only [isTail, Bool.and_eq_true, decide_eq_true_eq] at hTwo
        exact hOther _ (by omega) (by omega)
      rw [decodeUtf8.eq_def]
      simpa [hAscii, hTwo, ih h.2.2] using hValue
  | case5 b c hAscii hTwo hSecond =>
      simpa [decodeUtf8, hAscii, hTwo, hSecond] using hReplacement
  | case6 b c hAscii hTwo hSecond d rest hd ih =>
      simp only [List.mem_cons, not_or] at h
      have hValue : newline ≠ UInt16.ofNat
          ((b.toNat - 0xE0) * 4096 + (c.toNat - 0x80) * 64 + (d.toNat - 0x80)) := by
        simp only [isSecondOfThree, isTail, Bool.and_eq_true, Bool.or_eq_true, bne_iff_ne,
          decide_eq_true_eq] at hSecond hd
        exact hOther _ (by omega) (by omega)
      rw [decodeUtf8.eq_def]
      simpa [hAscii, hTwo, hSecond, hd, ih h.2.2.2] using hValue
  | case7 b c hAscii hTwo hSecond d rest hd ih =>
      simp only [List.mem_cons, not_or] at h
      rw [decodeUtf8.eq_def]
      simpa [hAscii, hTwo, hSecond, hd, ih (by simpa using h.2.2)] using hReplacement
  | case8 b c hAscii hTwo hNotThree hSecond =>
      simpa [decodeUtf8, hAscii, hTwo, hNotThree, hSecond] using hReplacement
  | case9 b c hAscii hTwo hNotThree hSecond d hd =>
      simpa [decodeUtf8, hAscii, hTwo, hNotThree, hSecond, hd] using hReplacement
  | case10 b c hAscii hTwo hNotThree hSecond d hd ih =>
      simp only [List.mem_cons, not_or] at h
      rw [decodeUtf8.eq_def]
      simpa [hAscii, hTwo, hNotThree, hSecond, hd, ih (by simpa using h.2.2)] using hReplacement
  | case11 b c hAscii hTwo hNotThree hSecond d e rest hde ih =>
      simp only [List.mem_cons, not_or] at h
      have hPair : newline ∉ pairOf ((b.toNat - 0xF0) * 262144 + (c.toNat - 0x80) * 4096 +
          (d.toNat - 0x80) * 64 + (e.toNat - 0x80)) := by
        simp only [isSecondOfFour, isTail, Bool.and_eq_true, Bool.or_eq_true, bne_iff_ne,
          decide_eq_true_eq] at hSecond hde
        simp only [pairOf, List.mem_cons, List.not_mem_nil, or_false, not_or]
        exact ⟨hOther _ (by omega) (by omega), hOther _ (by omega) (by omega)⟩
      rw [decodeUtf8.eq_def]
      simpa [hAscii, hTwo, hNotThree, hSecond, hde, ih h.2.2.2.2] using hPair
  | case12 b c hAscii hTwo hNotThree hSecond d e rest hde hd ih =>
      simp only [List.mem_cons, not_or] at h
      have he : isTail e = false := by simpa [hd] using hde
      rw [decodeUtf8.eq_def]
      simpa [hAscii, hTwo, hNotThree, hSecond, hd, he, ih (by simpa using h.2.2.2)] using hReplacement
  | case13 b c hAscii hTwo hNotThree hSecond d e rest hde hd ih =>
      simp only [List.mem_cons, not_or] at h
      rw [decodeUtf8.eq_def]
      simpa [hAscii, hTwo, hNotThree, hSecond, hd, ih (by simpa using h.2.2)] using hReplacement
  | case14 b c rest hAscii hTwo hNotThree hNotFour ih =>
      simp only [List.mem_cons, not_or] at h
      rw [decodeUtf8.eq_def]
      simpa [hAscii, hTwo, hNotThree, hNotFour, ih (by simpa using h.2)] using hReplacement

/-- A line break ends what is read before it. -/
theorem readLines_append_newline (content rest : Bytes) :
    readLines (content ++ 0x0A :: rest) = readLines content ++ readLines rest := by
  rw [readLines, decodeUtf8_append content (by simp [isTail]), decodeUtf8_ascii_cons (by decide)]
  exact List.splitOn_append_cons_self _ _

theorem readLines_of_not_mem {content : Bytes} (h : 0x0A ∉ content) :
    readLines content = [decodeUtf8 content] :=
  splitOn_of_not_mem (newline_not_mem_decodeUtf8 h)

theorem readLines_ne_nil (content : Bytes) : readLines content ≠ [] := List.splitOn_ne_nil _ _

/-- The lines of a file that are whole: each has its line break. What follows the last line
break is a fragment. -/
def wholeLines (content : Bytes) : List JsString := (readLines content).dropLast

/-- What is appended next begins a line. An empty file does, and so does one that ends in a line
break. -/
def EndsLine (content : Bytes) : Prop := ∀ b ∈ content.getLast?, b = 0x0A

instance (content : Bytes) : Decidable (EndsLine content) :=
  inferInstanceAs (Decidable (∀ b ∈ content.getLast?, b = 0x0A))

theorem endsLine_nil : EndsLine [] := by simp [EndsLine]

theorem endsLine_append_newline (content : Bytes) : EndsLine (content ++ [0x0A]) := by simp [EndsLine]

/-- A file is whole lines and the fragment of one. -/
theorem exists_fragment (content : Bytes) :
    ∃ whole fragment, content = whole ++ fragment ∧ EndsLine whole ∧ 0x0A ∉ fragment := by
  induction content using List.reverseRecOn with
  | nil => exact ⟨[], [], rfl, endsLine_nil, by simp⟩
  | append_singleton content b ih =>
      by_cases hb : b = 0x0A
      · subst hb
        exact ⟨content ++ [0x0A], [], by simp, endsLine_append_newline content, by simp⟩
      · obtain ⟨whole, fragment, rfl, hWhole, hFragment⟩ := ih
        refine ⟨whole, fragment ++ [b], by simp, hWhole, ?_⟩
        simp [hFragment, Ne.symm hb]

variable {whole fragment : Bytes}

/-- Behind whole lines a file is read afresh. -/
theorem readLines_append_of_endsLine (h : EndsLine whole) (rest : Bytes) :
    readLines (whole ++ rest) = wholeLines whole ++ readLines rest := by
  rcases List.eq_nil_or_concat whole with rfl | ⟨content, b, rfl⟩
  · rfl
  · obtain rfl : b = 0x0A := h b (by simp)
    rw [List.concat_eq_append, List.append_assoc, List.singleton_append, readLines_append_newline, wholeLines,
      readLines_append_newline, readLines_nil, List.dropLast_concat]

theorem readLines_of_endsLine (h : EndsLine whole) : readLines whole = wholeLines whole ++ [[]] := by
  simpa [readLines_nil] using readLines_append_of_endsLine h []

theorem wholeLines_append_of_endsLine (h : EndsLine whole) (rest : Bytes) :
    wholeLines (whole ++ rest) = wholeLines whole ++ wholeLines rest := by
  rw [wholeLines, readLines_append_of_endsLine h, List.dropLast_append_of_ne_nil (readLines_ne_nil rest),
    wholeLines, wholeLines]

theorem wholeLines_of_not_mem (h : 0x0A ∉ fragment) : wholeLines fragment = [] := by
  rw [wholeLines, readLines_of_not_mem h, List.dropLast_singleton]

/-- A whole line stays as it is, whatever is appended. -/
theorem wholeLines_isPrefix (content rest : Bytes) : wholeLines content <+: wholeLines (content ++ rest) := by
  obtain ⟨whole, fragment, rfl, hWhole, hFragment⟩ := exists_fragment content
  rw [List.append_assoc, wholeLines_append_of_endsLine hWhole, wholeLines_append_of_endsLine hWhole,
    wholeLines_of_not_mem hFragment, List.append_nil]
  exact List.prefix_append _ _

theorem endsLine_append_iff (hWhole : EndsLine whole) (hFragment : 0x0A ∉ fragment) :
    EndsLine (whole ++ fragment) ↔ fragment = [] := by
  constructor
  · intro h
    by_contra hNil
    have hLast := h (fragment.getLast hNil)
      (by simp [List.getLast?_append, List.getLast?_eq_getLast_of_ne_nil hNil])
    exact hFragment (hLast ▸ List.getLast_mem hNil)
  · rintro rfl
    rwa [List.append_nil]

/-- A line that is appended behind a fragment is read as the end of the fragment's line. -/
theorem wholeLines_append_line (hWhole : EndsLine whole) (hFragment : 0x0A ∉ fragment) {l : JsString}
    (hl : newline ∉ l) :
    wholeLines (whole ++ fragment ++ encodeUtf8 (l ++ [newline])) =
      wholeLines whole ++ [decodeUtf8 fragment ++ toWellFormed l] := by
  have hNewline : encodeUtf8 [newline] = [0x0A] := by decide
  have hLine : newline ∉ decodeUtf8 fragment ++ toWellFormed l := by
    rw [List.mem_append, not_or]
    exact ⟨newline_not_mem_decodeUtf8 hFragment, newline_not_mem_toWellFormed hl⟩
  have hRead : readLines (fragment ++ encodeUtf8 l) = [decodeUtf8 fragment ++ toWellFormed l] := by
    rw [readLines, decodeUtf8_append_encodeUtf8, splitOn_of_not_mem hLine]
  rw [encodeUtf8_append_cons l (by decide), hNewline, List.append_assoc, wholeLines_append_of_endsLine hWhole,
    ← List.append_assoc, wholeLines, wholeLines, readLines_append_newline, readLines_nil,
    List.dropLast_concat, hRead]

theorem endsLine_append_line (content : Bytes) (l : JsString) :
    EndsLine (content ++ encodeUtf8 (l ++ [newline])) := by
  have hNewline : encodeUtf8 [newline] = [0x0A] := by decide
  rw [encodeUtf8_append_cons l (by decide), hNewline, ← List.append_assoc]
  exact endsLine_append_newline _

section Cuts

/-- What is cut off a list of bytes, by the byte that it starts with. -/
theorem proper_prefix_cons {b : UInt8} {block p : Bytes} (hp : p <+: b :: block) (hProper : p ≠ b :: block) :
    p = [] ∨ ∃ t, p = b :: t ∧ t <+: block ∧ t ≠ block := by
  rcases List.prefix_cons_iff.mp hp with hNil | ⟨t, rfl, ht⟩
  · exact Or.inl hNil
  · exact Or.inr ⟨t, rfl, ht, fun hEq => hProper (by rw [hEq])⟩

/-- A prefix of two joined texts ends within the first, or it has the whole of it. -/
theorem proper_prefix_append_cases {block more p : Bytes} (hp : p <+: block ++ more) :
    p <+: block ∧ p ≠ block ∨ ∃ t, p = block ++ t ∧ t <+: more := by
  rcases prefix_append_cases hp with hBlock | hMore
  · by_cases hEq : p = block
    · exact Or.inr ⟨[], by rw [hEq, List.append_nil], List.nil_prefix⟩
    · exact Or.inl ⟨hBlock, hEq⟩
  · exact Or.inr hMore

/-- The last character is one that cannot be cut into a single replacement: it is of one
byte, or it is a surrogate pair. -/
def endsWhole : JsString → Bool
  | [] => true
  | [u] => decide (u.toNat < 0x80)
  | u :: v :: rest => if isHigh u && isLow v then endsWhole rest else endsWhole (v :: rest)

/-- Cutting the bytes of a code unit leaves nothing, or one replacement. -/
theorem decodeUtf8_of_prefix_unit {u : UInt16} (hu : isSurrogate u = false) {p : Bytes}
    (hp : p <+: unitBytes u) (hProper : p ≠ unitBytes u) :
    p = [] ∨ decodeUtf8 p = [replacement] ∧ ¬ u.toNat < 0x80 := by
  have hLt := u.toNat_lt
  have hNot : ¬ (0xD800 ≤ u.toNat ∧ u.toNat < 0xE000) := by
    simp [isSurrogate, isHigh, isLow] at hu
    omega
  simp only [unitBytes] at hp hProper
  split_ifs at hp hProper with h1 h2
  · rcases proper_prefix_cons hp hProper with hNil | ⟨t, -, ht, hNe⟩
    · exact Or.inl hNil
    · exact absurd (List.prefix_nil.mp ht) hNe
  · have hb : (UInt8.ofNat (0xC0 + u.toNat / 64)).toNat = 0xC0 + u.toNat / 64 := by simp; omega
    rcases proper_prefix_cons hp hProper with hNil | ⟨t, rfl, ht, hNe⟩
    · exact Or.inl hNil
    rcases proper_prefix_cons ht hNe with rfl | ⟨t₂, -, ht₂, hNe₂⟩
    · rw [decodeUtf8, hb, if_neg (by omega)]
      exact Or.inr ⟨rfl, h1⟩
    · exact absurd (List.prefix_nil.mp ht₂) hNe₂
  · have hb : (UInt8.ofNat (0xE0 + u.toNat / 4096)).toNat = 0xE0 + u.toNat / 4096 := by simp; omega
    have hc : (UInt8.ofNat (0x80 + u.toNat / 64 % 64)).toNat = 0x80 + u.toNat / 64 % 64 := by simp; omega
    rcases proper_prefix_cons hp hProper with hNil | ⟨t, rfl, ht, hNe⟩
    · exact Or.inl hNil
    rcases proper_prefix_cons ht hNe with rfl | ⟨t₂, rfl, ht₂, hNe₂⟩
    · rw [decodeUtf8, hb, if_neg (by omega)]
      exact Or.inr ⟨rfl, h1⟩
    rcases proper_prefix_cons ht₂ hNe₂ with rfl | ⟨t₃, -, ht₃, hNe₃⟩
    · refine Or.inr ⟨?_, h1⟩
      simp only [decodeUtf8, isTail, isSecondOfThree, hb, hc]
      simp only [Bool.and_eq_true, Bool.or_eq_true, bne_iff_ne, decide_eq_true_eq]
      rw [if_neg (by omega), if_neg (by omega), if_pos (by omega)]
    · exact absurd (List.prefix_nil.mp ht₃) hNe₃

/-- Cutting the bytes of a surrogate pair leaves nothing, or one replacement for the two. -/
theorem decodeUtf8_of_prefix_pair {u v : UInt16} (hu : isHigh u = true) (hv : isLow v = true) {p : Bytes}
    (hp : p <+: pairBytes u v) (hProper : p ≠ pairBytes u v) : p = [] ∨ decodeUtf8 p = [replacement] := by
  simp only [isHigh, isLow, Bool.and_eq_true, decide_eq_true_eq] at hu hv
  rw [pairBytes] at hp hProper
  generalize hn : 0x10000 + (u.toNat - 0xD800) * 1024 + (v.toNat - 0xDC00) = n at hp hProper
  have hb : (UInt8.ofNat (0xF0 + n / 262144)).toNat = 0xF0 + n / 262144 := by simp; omega
  have hc : (UInt8.ofNat (0x80 + n / 4096 % 64)).toNat = 0x80 + n / 4096 % 64 := by simp; omega
  have hd : (UInt8.ofNat (0x80 + n / 64 % 64)).toNat = 0x80 + n / 64 % 64 := by simp; omega
  rcases proper_prefix_cons hp hProper with hNil | ⟨t, rfl, ht, hNe⟩
  · exact Or.inl hNil
  refine Or.inr ?_
  rcases proper_prefix_cons ht hNe with rfl | ⟨t₂, rfl, ht₂, hNe₂⟩
  · rw [decodeUtf8, hb, if_neg (by omega)]
  rcases proper_prefix_cons ht₂ hNe₂ with rfl | ⟨t₃, rfl, ht₃, hNe₃⟩
  · simp only [decodeUtf8, isTail, isSecondOfThree, isSecondOfFour, hb, hc]
    simp only [Bool.and_eq_true, Bool.or_eq_true, bne_iff_ne, decide_eq_true_eq]
    rw [if_neg (by omega), if_neg (by omega), if_neg (by omega), if_pos (by omega)]
  rcases proper_prefix_cons ht₃ hNe₃ with rfl | ⟨t₄, -, ht₄, hNe₄⟩
  · simp only [decodeUtf8, isTail, isSecondOfThree, isSecondOfFour, hb, hc, hd]
    simp only [Bool.and_eq_true, Bool.or_eq_true, bne_iff_ne, decide_eq_true_eq]
    rw [if_neg (by omega), if_neg (by omega), if_neg (by omega), if_pos (by omega), if_pos (by omega)]
  · exact absurd (List.prefix_nil.mp ht₄) hNe₄

/-- A text that is cut off is read up to some character, with a replacement behind it if
the cut is within the next one. Only a character that ends it and takes two or three bytes
leaves as many code units. -/
theorem decodeUtf8_of_prefix {s : JsString} {p : Bytes} (hp : p <+: encodeUtf8 s)
    (hProper : p ≠ encodeUtf8 s) : ∃ z rest, toWellFormed s = z ++ rest ∧ rest ≠ [] ∧
      (decodeUtf8 p = z ∨
        decodeUtf8 p = z ++ [replacement] ∧ (rest.length = 1 → endsWhole s = false)) := by
  induction s using encodeUtf8.induct generalizing p with
  | case1 => exact absurd (List.prefix_nil.mp hp) hProper
  | case2 u =>
      rw [encodeUtf8] at hp hProper
      refine ⟨[], [scalarUnit u], rfl, by simp, ?_⟩
      rcases decodeUtf8_of_prefix_unit (isSurrogate_scalarUnit u) hp hProper with rfl | ⟨hDecode, hLarge⟩
      · exact Or.inl rfl
      · refine Or.inr ⟨hDecode, fun _ => ?_⟩
        rw [endsWhole, decide_eq_false_iff_not]
        intro hSmall
        have hSurrogate : isSurrogate u = false :=
          IsAscii.not_surrogate (s := [u]) (by simpa [IsAscii] using hSmall) u (by simp)
        rw [scalarUnit_of_not_surrogate hSurrogate] at hLarge
        exact hLarge hSmall
  | case3 u v rest h ih =>
      have hPair : isHigh u = true ∧ isLow v = true := by simpa using h
      rw [encodeUtf8, if_pos h] at hp hProper
      have hText : toWellFormed (u :: v :: rest) = u :: v :: toWellFormed rest := by
        rw [toWellFormed, if_pos h]
      rcases proper_prefix_append_cases hp with ⟨hBlock, hNe⟩ | ⟨p', rfl, hp'⟩
      · refine ⟨[], u :: v :: toWellFormed rest, hText, by simp, ?_⟩
        rcases decodeUtf8_of_prefix_pair hPair.1 hPair.2 hBlock hNe with rfl | hDecode
        · exact Or.inl rfl
        · exact Or.inr ⟨hDecode, fun hLength => by simp at hLength⟩
      · obtain ⟨z, tail, hSplit, hTail, hDecode⟩ := ih hp' fun hEq => hProper (by rw [hEq])
        refine ⟨u :: v :: z, tail, by rw [hText, hSplit]; rfl, hTail, ?_⟩
        rw [decodeUtf8_pair_append u v hPair.1 hPair.2, endsWhole, if_pos h]
        rcases hDecode with hEq | ⟨hEq, hLast⟩
        · exact Or.inl (by rw [hEq])
        · exact Or.inr ⟨by rw [hEq]; rfl, hLast⟩
  | case4 u v rest h ih =>
      rw [encodeUtf8, if_neg h] at hp hProper
      have hText : toWellFormed (u :: v :: rest) = scalarUnit u :: toWellFormed (v :: rest) := by
        rw [toWellFormed, if_neg h]
      rcases proper_prefix_append_cases hp with ⟨hBlock, hNe⟩ | ⟨p', rfl, hp'⟩
      · refine ⟨[], scalarUnit u :: toWellFormed (v :: rest), hText, by simp, ?_⟩
        rcases decodeUtf8_of_prefix_unit (isSurrogate_scalarUnit u) hBlock hNe with rfl | ⟨hDecode, -⟩
        · exact Or.inl rfl
        · exact Or.inr ⟨hDecode, fun hLength => by simp at hLength⟩
      · obtain ⟨z, tail, hSplit, hTail, hDecode⟩ := ih hp' fun hEq => hProper (by rw [hEq])
        refine ⟨scalarUnit u :: z, tail, by rw [hText, hSplit]; rfl, hTail, ?_⟩
        rw [decodeUtf8_unit_append _ (isSurrogate_scalarUnit u), endsWhole, if_neg h]
        rcases hDecode with hEq | ⟨hEq, hLast⟩
        · exact Or.inl (by rw [hEq])
        · exact Or.inr ⟨by rw [hEq]; rfl, hLast⟩

/-- Behind the first byte of such a character the text is as long as before. -/
theorem exists_prefix_of_not_endsWhole {s : JsString} (h : endsWhole s = false) :
    ∃ p z last, p <+: encodeUtf8 s ∧ p ≠ encodeUtf8 s ∧ toWellFormed s = z ++ [last] ∧
      decodeUtf8 p = z ++ [replacement] := by
  induction s using encodeUtf8.induct with
  | case1 => cases h
  | case2 u =>
      rw [endsWhole, decide_eq_false_iff_not] at h
      have hLarge : ¬ (scalarUnit u).toNat < 0x80 := by
        rw [scalarUnit]
        split_ifs
        · decide
        · exact h
      obtain ⟨b, block, hBytes, hBlock⟩ : ∃ b block, unitBytes (scalarUnit u) = b :: block ∧ block ≠ [] := by
        simp only [unitBytes, if_neg hLarge]
        split_ifs
        · exact ⟨_, _, rfl, by simp⟩
        · exact ⟨_, _, rfl, by simp⟩
      have hPrefix : [b] <+: unitBytes (scalarUnit u) := by
        rw [hBytes]
        exact ⟨block, rfl⟩
      have hProper : [b] ≠ unitBytes (scalarUnit u) := by
        rw [hBytes]
        simpa using hBlock.symm
      refine ⟨[b], [], scalarUnit u, hPrefix, hProper, rfl, ?_⟩
      rcases decodeUtf8_of_prefix_unit (isSurrogate_scalarUnit u) hPrefix hProper with hNil | ⟨hDecode, -⟩
      · cases hNil
      · exact hDecode
  | case3 u v rest hCase ih =>
      have hPair : isHigh u = true ∧ isLow v = true := by simpa using hCase
      rw [endsWhole, if_pos hCase] at h
      obtain ⟨p, z, last, hp, hProper, hText, hDecode⟩ := ih h
      rw [encodeUtf8, if_pos hCase, toWellFormed, if_pos hCase]
      refine ⟨pairBytes u v ++ p, u :: v :: z, last, List.prefix_append_right_inj _ |>.mpr hp,
        fun hEq => hProper (List.append_cancel_left hEq), by rw [hText]; rfl, ?_⟩
      rw [decodeUtf8_pair_append u v hPair.1 hPair.2, hDecode]
      rfl
  | case4 u v rest hCase ih =>
      rw [endsWhole, if_neg hCase] at h
      obtain ⟨p, z, last, hp, hProper, hText, hDecode⟩ := ih h
      rw [encodeUtf8, if_neg hCase, toWellFormed, if_neg hCase]
      refine ⟨unitBytes (scalarUnit u) ++ p, scalarUnit u :: z, last, List.prefix_append_right_inj _ |>.mpr hp,
        fun hEq => hProper (List.append_cancel_left hEq), by rw [hText]; rfl, ?_⟩
      rw [decodeUtf8_unit_append _ (isSurrogate_scalarUnit u), hDecode]
      rfl

/-- Seven-bit text in front does not change what a text ends in. -/
theorem endsWhole_append {s : JsString} (hs : IsAscii s) {t : JsString} (ht : t ≠ []) :
    endsWhole (s ++ t) = endsWhole t := by
  induction s with
  | nil => rfl
  | cons u rest ih =>
      have hRest : IsAscii rest := fun c hc => hs c (by simp [hc])
      have hSmall := hs u (by simp)
      have hNot : isHigh u = false := by
        simp only [isHigh, Bool.and_eq_false_iff, decide_eq_false_iff_not]
        omega
      rw [List.cons_append]
      cases hMore : rest ++ t with
      | nil => exact absurd (List.append_eq_nil_iff.mp hMore).2 ht
      | cons v more =>
          rw [endsWhole, if_neg (by simp [hNot]), ← hMore]
          exact ih hRest

end Cuts

end Text
