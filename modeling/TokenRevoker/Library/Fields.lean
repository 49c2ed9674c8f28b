import TokenRevoker.Library.Text
import Mathlib.Data.List.Infix
import Mathlib.Tactic.Ring
import Mathlib.Tactic.Positivity

/-! Lines and separated fields of a text log: decimal numbers, splitting at the
first separator, and splitting a file whose lines all end in a newline. -/
namespace Text

/-- The decimal digits a number is printed with. -/
def decimal (n : Nat) : JsString := (Nat.toDigits 10 n).map fun c => UInt16.ofNat c.toNat

def isDigit (u : UInt16) : Bool := 0x30 ≤ u.toNat && u.toNat ≤ 0x39

/-- The number that digits spell after an already read prefix. -/
def digitsValue (s : JsString) (read : Nat) : Nat :=
  s.foldl (fun acc u => 10 * acc + (u.toNat - 0x30)) read

/-- A nonnegative integer in decimal digits; the empty text is zero. Radix
prefixes, signs, fractions and exponents are not read. The value is exact, also from
2^53 on, where the source's number is rounded to a double. -/
def numberOf (s : JsString) : Option Nat :=
  if s.all isDigit then some (digitsValue s 0) else none

theorem toNat_of_isDigit {c : Char} (hc : c.isDigit = true) :
    (UInt16.ofNat c.toNat).toNat = c.toNat ∧ 0x30 ≤ c.toNat ∧ c.toNat ≤ 0x39 := by
  have h : 0x30 ≤ c.toNat ∧ c.toNat ≤ 0x39 := by
    simp only [Char.isDigit, Bool.and_eq_true, decide_eq_true_eq] at hc
    exact ⟨UInt32.le_iff_toNat_le.mp hc.1, UInt32.le_iff_toNat_le.mp hc.2⟩
  refine ⟨?_, h⟩
  rw [UInt16.toNat_ofNat']
  omega

theorem isDigit_of_mem_decimal {n : Nat} {u : UInt16} (hu : u ∈ decimal n) : isDigit u = true := by
  obtain ⟨c, hc, rfl⟩ := List.mem_map.mp hu
  have h := toNat_of_isDigit (Nat.isDigit_of_mem_toDigits (by decide) (by decide) hc)
  simp [isDigit, h.1, h.2]

theorem decimal_ne_nil (n : Nat) : decimal n ≠ [] := by
  simp [decimal, Nat.toDigits_ne_nil]

theorem digitsValue_append (s t : JsString) (read : Nat) :
    digitsValue (s ++ t) read = digitsValue t (digitsValue s read) := by
  simp [digitsValue]

theorem digitsValue_decimal (n : Nat) : digitsValue (decimal n) 0 = n := by
  have hFold : ∀ (cs : List Char) (read : Nat), (∀ c ∈ cs, c.isDigit = true) →
      digitsValue (cs.map fun c => UInt16.ofNat c.toNat) read = Nat.ofDigitChars 10 cs read := by
    intro cs
    induction cs with
    | nil => intro read _; simp [digitsValue]
    | cons c cs ih =>
        intro read hcs
        have hc := toNat_of_isDigit (hcs c (by simp))
        have hRest := ih (10 * read + (c.toNat - 0x30)) fun d hd => hcs d (by simp [hd])
        rw [Nat.ofDigitChars_cons, show '0'.toNat = 0x30 from rfl, ← hRest]
        simp [digitsValue, hc.1]
  rw [decimal, hFold _ _ fun c hc => Nat.isDigit_of_mem_toDigits (by decide) (by decide) hc]
  exact Nat.ofDigitChars_ten_toDigits

/-- Printing and reading a number back. -/
@[simp] theorem numberOf_decimal (n : Nat) : numberOf (decimal n) = some n := by
  have h : (decimal n).all isDigit = true := List.all_eq_true.mpr fun u hu => isDigit_of_mem_decimal hu
  simp [numberOf, h, digitsValue_decimal]

theorem decimal_injective {m n : Nat} (h : decimal m = decimal n) : m = n := by
  have hRead := congrArg numberOf h
  simpa using hRead

theorem digitsValue_eq (s : JsString) (read : Nat) :
    digitsValue s read = 10 ^ s.length * read + digitsValue s 0 := by
  induction s generalizing read with
  | nil => simp [digitsValue]
  | cons u s ih =>
      have h := ih (10 * read + (u.toNat - 0x30))
      have hZero := ih (u.toNat - 0x30)
      simp only [digitsValue, List.foldl_cons, Nat.mul_zero, Nat.zero_add, List.length_cons] at h hZero ⊢
      rw [h, hZero]
      ring

/-- Numbers are printed without leading zeros, so cutting digits off the end
never leaves a zero. -/
theorem digitsValue_prefix_pos {n : Nat} (hn : 0 < n) {p : JsString} (hp : p <+: decimal n)
    (hne : p ≠ []) : 0 < digitsValue p 0 := by
  induction n using Nat.strong_induction_on generalizing p with
  | _ n ih =>
    by_cases hWhole : p = decimal n
    · rw [hWhole, digitsValue_decimal]
      exact hn
    · by_cases hSmall : n < 10
      · have hLength : (decimal n).length = 1 := by simp [decimal, Nat.toDigits_of_lt_base hSmall]
        have hPos : 0 < p.length := List.length_pos_iff.mpr hne
        have hEq := hp.eq_of_length (by have := hp.length_le; omega)
        exact absurd hEq hWhole
      · have hSplit : decimal n = decimal (n / 10) ++ [UInt16.ofNat (n % 10).digitChar.toNat] := by
          simp [decimal, Nat.toDigits_of_base_le (by decide : 1 < 10) (by omega : 10 ≤ n)]
        rw [hSplit] at hp hWhole
        rcases List.prefix_concat_iff.mp hp with h | h
        · exact absurd h hWhole
        · exact ih (n / 10) (by omega) (by omega) h hne

/-- Digits in front of a printed number only make it larger. -/
theorem lt_digitsValue_append {p : JsString} (hp : 0 < digitsValue p 0) (n : Nat) :
    n < digitsValue (p ++ decimal n) 0 := by
  rw [digitsValue_append, digitsValue_eq, digitsValue_decimal]
  have hPow : 0 < 10 ^ (decimal n).length := Nat.pos_of_ne_zero (by positivity)
  have := Nat.mul_pos hPow hp
  omega

/-- A prefix of two joined texts ends in the first or in the second. -/
theorem prefix_append_cases {α : Type*} {q l r : List α} (h : q <+: l ++ r) :
    q <+: l ∨ ∃ u, q = l ++ u ∧ u <+: r := by
  obtain ⟨t, ht⟩ := h
  rcases List.append_eq_append_iff.mp ht with ⟨u, hl, -⟩ | ⟨u, hq, hr⟩
  · exact Or.inl ⟨u, hl.symm⟩
  · exact Or.inr ⟨u, hq, t, hr.symm⟩

section Separators

variable {α : Type*} [DecidableEq α]

/-- The parts before and after the first separator. There is none where the text has no
separator. -/
def splitFirst (sep : α) : List α → Option (List α × List α)
  | [] => none
  | c :: rest =>
      if c = sep then some ([], rest)
      else (splitFirst sep rest).map fun parts => (c :: parts.1, parts.2)

theorem splitFirst_append {sep : α} {l : List α} (hl : sep ∉ l) (r : List α) :
    splitFirst sep (l ++ sep :: r) = some (l, r) := by
  induction l with
  | nil => simp [splitFirst]
  | cons c l ih =>
      have hc : c ≠ sep := fun h => hl (by simp [h])
      simp [splitFirst, hc, ih fun h => hl (by simp [h])]

theorem splitFirst_eq_some_iff {sep : α} {text l r : List α} :
    splitFirst sep text = some (l, r) ↔ text = l ++ sep :: r ∧ sep ∉ l := by
  constructor
  · intro h
    induction text generalizing l r with
    | nil => simp [splitFirst] at h
    | cons c text ih =>
        rw [splitFirst] at h
        split_ifs at h with hc
        · cases h
          simp [hc]
        · obtain ⟨⟨l', r'⟩, hSplit, hEq⟩ := Option.map_eq_some_iff.mp h
          cases hEq
          obtain ⟨rfl, hl⟩ := ih hSplit
          exact ⟨rfl, by simp [hl, Ne.symm hc]⟩
  · rintro ⟨rfl, hl⟩
    exact splitFirst_append hl r

/-- The first separator of a text stands in one place. -/
theorem append_separator_inj {sep : α} {l l' r r' : List α} (hl : sep ∉ l) (hl' : sep ∉ l')
    (h : l ++ sep :: r = l' ++ sep :: r') : l = l' ∧ r = r' := by
  have hSplit := splitFirst_append hl r
  rw [h, splitFirst_append hl' r'] at hSplit
  cases hSplit
  exact ⟨rfl, rfl⟩

/-- So does the last one. -/
theorem append_last_separator_inj {sep : α} {l l' r r' : List α} (hr : sep ∉ r) (hr' : sep ∉ r')
    (h : l ++ sep :: r = l' ++ sep :: r') : l = l' ∧ r = r' := by
  have hReversed : r.reverse ++ sep :: l.reverse = r'.reverse ++ sep :: l'.reverse := by
    simpa using congrArg List.reverse h
  obtain ⟨hRight, hLeft⟩ := append_separator_inj (by simpa using hr) (by simpa using hr') hReversed
  exact ⟨List.reverse_inj.mp hLeft, List.reverse_inj.mp hRight⟩

/-- Lines that each end with the separator come first when a text is split, and
then the parts of whatever follows them. -/
theorem splitOn_terminated {sep : α} (lines : List (List α)) (rest : List α)
    (hLines : ∀ l ∈ lines, sep ∉ l) :
    (lines.flatMap (· ++ [sep]) ++ rest).splitOn sep = lines ++ rest.splitOn sep := by
  induction lines with
  | nil => rfl
  | cons l lines ih =>
      have hl : ∀ x ∈ l, (x == sep) = false := fun x hx => by
        simpa using fun h : x = sep => hLines l (by simp) (h ▸ hx)
      have hRest := ih fun l hl => hLines l (by simp [hl])
      rw [List.splitOn_eq_splitOnP] at hRest ⊢
      simp only [List.flatMap_cons, List.append_assoc, List.cons_append, List.nil_append]
      rw [List.splitOnP_append_cons_of_forall_mem hl sep (by simp), hRest]

theorem splitOn_of_not_mem {sep : α} {l : List α} (hl : sep ∉ l) : l.splitOn sep = [l] := by
  rw [List.splitOn_eq_splitOnP]
  exact List.splitOnP_eq_singleton fun x hx => by
    simpa using fun h : x = sep => hl (h ▸ hx)

end Separators

/-- U+000A. -/
def newline : UInt16 := 0x000A

/-- The bytes of a file to which lines were appended one by one. Each of them has its line
break, the last one too. -/
def encodeLines (lines : List JsString) : Bytes := lines.flatMap fun l => encodeUtf8 (l ++ [newline])

/-- `decode(content).split('\n')`. Behind the last line break there is one more line, which may
be empty. -/
def readLines (content : Bytes) : List JsString := (decodeUtf8 content).splitOn newline

theorem encodeLines_append (lines more : List JsString) :
    encodeLines (lines ++ more) = encodeLines lines ++ encodeLines more := by
  simp [encodeLines]

/-- A line break separates what is encoded before and after it. -/
theorem encodeUtf8_append_newline (l more : JsString) :
    encodeUtf8 (l ++ newline :: more) = encodeUtf8 (l ++ [newline]) ++ encodeUtf8 more := by
  have hBreak : encodeUtf8 (newline :: more) = encodeUtf8 [newline] ++ encodeUtf8 more := by
    cases more with
    | nil => rfl
    | cons u more => rfl
  rw [encodeUtf8_append_cons l (by decide), hBreak, encodeUtf8_append_cons l (by decide), List.append_assoc]

theorem toWellFormed_terminated (l : JsString) :
    toWellFormed (l ++ [newline]) = toWellFormed l ++ [newline] :=
  toWellFormed_append_cons l (by decide) []

theorem newline_not_mem_toWellFormed {l : JsString} (h : newline ∉ l) : newline ∉ toWellFormed l := by
  have hAll := all_toWellFormed (fun u => u != newline) (by
    intro u hu
    have hNe : u ≠ newline := by rintro rfl; exact absurd hu (by decide)
    rw [bne_iff_ne.mpr hNe]
    decide) l
  intro hMem
  have hGood : l.all (fun u => u != newline) = true := by
    simp only [List.all_eq_true, bne_iff_ne]
    rintro u hu rfl
    exact h hu
  rw [hGood, List.all_eq_true] at hAll
  exact absurd (hAll _ hMem) (by simp)

/-- Appended lines are read back first, each with its lone surrogates replaced,
whatever bytes follow them. -/
theorem readLines_encodeLines_append {lines : List JsString} (hLines : ∀ l ∈ lines, newline ∉ l)
    (tail : Bytes) :
    readLines (encodeLines lines ++ tail) = lines.map toWellFormed ++ readLines tail := by
  have hDecode : decodeUtf8 (encodeLines lines ++ tail) =
      (lines.map toWellFormed).flatMap (· ++ [newline]) ++ decodeUtf8 tail := by
    clear hLines
    induction lines with
    | nil => rfl
    | cons l lines ih =>
        simp only [encodeLines, List.flatMap_cons, List.append_assoc, List.map_cons] at ih ⊢
        rw [decodeUtf8_encodeUtf8_append, toWellFormed_terminated, ih]
        simp
  rw [readLines, hDecode, splitOn_terminated]
  · rfl
  · intro l hl
    obtain ⟨raw, hRaw, rfl⟩ := List.mem_map.mp hl
    exact newline_not_mem_toWellFormed (hLines raw hRaw)

theorem readLines_nil : readLines [] = [[]] := rfl

end Text
