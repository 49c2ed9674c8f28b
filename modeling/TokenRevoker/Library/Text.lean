import Mathlib.Data.List.Forall2
import Mathlib.Tactic.Common

/-! UTF-16 strings and their UTF-8 form on disk or on a wire. Strings are lists
of code units, so a lone surrogate is a value like any other; the encoder writes
U+FFFD in its place and the decoder replaces every malformed byte sequence. -/
namespace Text

/-- A string as its sequence of UTF-16 code units. -/
abbrev JsString := List UInt16

abbrev Bytes := List UInt8

def isHigh (u : UInt16) : Bool := 0xD800 ≤ u.toNat && u.toNat < 0xDC00

def isLow (u : UInt16) : Bool := 0xDC00 ≤ u.toNat && u.toNat < 0xE000

def isSurrogate (u : UInt16) : Bool := isHigh u || isLow u

/-- U+FFFD, which stands for every code unit or byte that has no meaning. -/
def replacement : UInt16 := 0xFFFD

/-- A code unit that stands alone: a lone surrogate is replaced. -/
def scalarUnit (u : UInt16) : UInt16 := if isSurrogate u then replacement else u

/-- The string with every lone surrogate replaced. It is what writing the string as UTF-8 and
reading it back makes of it. -/
def toWellFormed : JsString → JsString
  | [] => []
  | [u] => [scalarUnit u]
  | u :: v :: rest =>
      if isHigh u && isLow v then u :: v :: toWellFormed rest
      else scalarUnit u :: toWellFormed (v :: rest)

/-- Every surrogate is half of a pair. -/
def IsWellFormed (s : JsString) : Prop := toWellFormed s = s

instance (s : JsString) : Decidable (IsWellFormed s) :=
  inferInstanceAs (Decidable (toWellFormed s = s))

/-- UTF-8 form of one code unit outside the surrogate range. -/
def unitBytes (u : UInt16) : Bytes :=
  let n := u.toNat
  if n < 0x80 then [UInt8.ofNat n]
  else if n < 0x800 then [UInt8.ofNat (0xC0 + n / 64), UInt8.ofNat (0x80 + n % 64)]
  else [UInt8.ofNat (0xE0 + n / 4096), UInt8.ofNat (0x80 + n / 64 % 64), UInt8.ofNat (0x80 + n % 64)]

/-- UTF-8 form of the code point that a surrogate pair denotes. -/
def pairBytes (u v : UInt16) : Bytes :=
  let n := 0x10000 + (u.toNat - 0xD800) * 1024 + (v.toNat - 0xDC00)
  [UInt8.ofNat (0xF0 + n / 262144), UInt8.ofNat (0x80 + n / 4096 % 64),
    UInt8.ofNat (0x80 + n / 64 % 64), UInt8.ofNat (0x80 + n % 64)]

def encodeUtf8 : JsString → Bytes
  | [] => []
  | [u] => unitBytes (scalarUnit u)
  | u :: v :: rest =>
      if isHigh u && isLow v then pairBytes u v ++ encodeUtf8 rest
      else unitBytes (scalarUnit u) ++ encodeUtf8 (v :: rest)

def isTail (b : UInt8) : Bool := 0x80 ≤ b.toNat && b.toNat < 0xC0

/-- The second byte of a three-byte sequence: no overlong form, no surrogate. -/
def isSecondOfThree (b c : UInt8) : Bool :=
  isTail c && (b.toNat != 0xE0 || 0xA0 ≤ c.toNat) && (b.toNat != 0xED || c.toNat < 0xA0)

/-- The second byte of a four-byte sequence: no overlong form, nothing above
U+10FFFF. -/
def isSecondOfFour (b c : UInt8) : Bool :=
  isTail c && (b.toNat != 0xF0 || 0x90 ≤ c.toNat) && (b.toNat != 0xF4 || c.toNat < 0x90)

/-- The surrogate pair of a code point above U+FFFF. High surrogate first. -/
def pairOf (n : Nat) : JsString :=
  [UInt16.ofNat (0xD800 + (n - 0x10000) / 1024), UInt16.ofNat (0xDC00 + (n - 0x10000) % 1024)]

/-- Decoding with replacement: the longest prefix of a sequence that cannot be
completed becomes one U+FFFD, and decoding goes on at the offending byte. -/
def decodeUtf8 : Bytes → JsString
  | [] => []
  | [b] => [if b.toNat < 0x80 then UInt16.ofNat b.toNat else replacement]
  | b :: c :: rest =>
      if b.toNat < 0x80 then UInt16.ofNat b.toNat :: decodeUtf8 (c :: rest)
      else if 0xC2 ≤ b.toNat && b.toNat < 0xE0 && isTail c then
        UInt16.ofNat ((b.toNat - 0xC0) * 64 + (c.toNat - 0x80)) :: decodeUtf8 rest
      else if 0xE0 ≤ b.toNat && b.toNat < 0xF0 && isSecondOfThree b c then
        match rest with
        | [] => [replacement]
        | d :: rest =>
            if isTail d then
              UInt16.ofNat ((b.toNat - 0xE0) * 4096 + (c.toNat - 0x80) * 64 + (d.toNat - 0x80)) ::
                decodeUtf8 rest
            else replacement :: decodeUtf8 (d :: rest)
      else if 0xF0 ≤ b.toNat && b.toNat < 0xF5 && isSecondOfFour b c then
        match rest with
        | [] => [replacement]
        | [d] => if isTail d then [replacement] else replacement :: decodeUtf8 [d]
        | d :: e :: rest =>
            if isTail d && isTail e then
              pairOf ((b.toNat - 0xF0) * 262144 + (c.toNat - 0x80) * 4096 + (d.toNat - 0x80) * 64 +
                (e.toNat - 0x80)) ++ decodeUtf8 rest
            else if isTail d then replacement :: decodeUtf8 (e :: rest)
            else replacement :: decodeUtf8 (d :: e :: rest)
      else replacement :: decodeUtf8 (c :: rest)

theorem decodeUtf8_ascii_cons {b : UInt8} (hb : b.toNat < 0x80) (tail : Bytes) :
    decodeUtf8 (b :: tail) = UInt16.ofNat b.toNat :: decodeUtf8 tail := by
  rcases tail with _ | ⟨c, _ | ⟨d, rest⟩⟩ <;> simp [decodeUtf8, hb]

theorem decodeUtf8_unit_append (u : UInt16) (hu : isSurrogate u = false) (tail : Bytes) :
    decodeUtf8 (unitBytes u ++ tail) = u :: decodeUtf8 tail := by
  have hLt := u.toNat_lt
  have hNot : ¬ (0xD800 ≤ u.toNat ∧ u.toNat < 0xE000) := by
    simp [isSurrogate, isHigh, isLow] at hu
    omega
  simp only [unitBytes]
  split_ifs with h1 h2
  · have hb : (UInt8.ofNat u.toNat).toNat = u.toNat := by simp; omega
    rw [List.cons_append, decodeUtf8_ascii_cons (by rw [hb]; exact h1), hb]
    simp
  · have hb : (UInt8.ofNat (0xC0 + u.toNat / 64)).toNat = 0xC0 + u.toNat / 64 := by simp; omega
    have hc : (UInt8.ofNat (0x80 + u.toNat % 64)).toNat = 0x80 + u.toNat % 64 := by simp; omega
    have hValue : UInt16.ofNat ((0xC0 + u.toNat / 64 - 0xC0) * 64 + (0x80 + u.toNat % 64 - 0x80)) = u := by
      apply UInt16.toNat_inj.mp
      simp; omega
    have hTest : (decide (0xC2 ≤ 0xC0 + u.toNat / 64) && decide (0xC0 + u.toNat / 64 < 0xE0) &&
        isTail (UInt8.ofNat (0x80 + u.toNat % 64))) = true := by
      simp only [isTail, hc, Bool.and_eq_true, decide_eq_true_eq]
      omega
    cases tail <;>
      simp only [List.cons_append, List.nil_append, decodeUtf8, hb, hTest, hc, hValue] <;>
      rw [if_neg (by omega), if_pos trivial]
  · have hb : (UInt8.ofNat (0xE0 + u.toNat / 4096)).toNat = 0xE0 + u.toNat / 4096 := by simp; omega
    have hc : (UInt8.ofNat (0x80 + u.toNat / 64 % 64)).toNat = 0x80 + u.toNat / 64 % 64 := by simp; omega
    have hd : (UInt8.ofNat (0x80 + u.toNat % 64)).toNat = 0x80 + u.toNat % 64 := by simp; omega
    have hValue : UInt16.ofNat ((0xE0 + u.toNat / 4096 - 0xE0) * 4096 +
        (0x80 + u.toNat / 64 % 64 - 0x80) * 64 + (0x80 + u.toNat % 64 - 0x80)) = u := by
      apply UInt16.toNat_inj.mp
      simp; omega
    simp only [List.cons_append, List.nil_append, decodeUtf8, isTail, isSecondOfThree, hb, hc, hd, hValue]
    simp only [Bool.and_eq_true, Bool.or_eq_true, bne_iff_ne, decide_eq_true_eq]
    rw [if_neg (by omega), if_neg (by omega), if_pos (by omega), if_pos (by omega)]

theorem decodeUtf8_pair_append (u v : UInt16) (hu : isHigh u = true) (hv : isLow v = true)
    (tail : Bytes) : decodeUtf8 (pairBytes u v ++ tail) = u :: v :: decodeUtf8 tail := by
  simp only [isHigh, isLow, Bool.and_eq_true, decide_eq_true_eq] at hu hv
  generalize hn : 0x10000 + (u.toNat - 0xD800) * 1024 + (v.toNat - 0xDC00) = n
  have hb : (UInt8.ofNat (0xF0 + n / 262144)).toNat = 0xF0 + n / 262144 := by simp; omega
  have hc : (UInt8.ofNat (0x80 + n / 4096 % 64)).toNat = 0x80 + n / 4096 % 64 := by simp; omega
  have hd : (UInt8.ofNat (0x80 + n / 64 % 64)).toNat = 0x80 + n / 64 % 64 := by simp; omega
  have he : (UInt8.ofNat (0x80 + n % 64)).toNat = 0x80 + n % 64 := by simp; omega
  have hValue : (0xF0 + n / 262144 - 0xF0) * 262144 + (0x80 + n / 4096 % 64 - 0x80) * 4096 +
      (0x80 + n / 64 % 64 - 0x80) * 64 + (0x80 + n % 64 - 0x80) = n := by omega
  have hPair : pairOf n = [u, v] := by
    simp only [pairOf, List.cons.injEq, and_true, ← UInt16.toNat_inj, UInt16.toNat_ofNat']
    omega
  simp only [pairBytes, hn, List.cons_append, List.nil_append, decodeUtf8, isTail, isSecondOfFour,
    hb, hc, hd, he, hValue, hPair]
  simp only [Bool.and_eq_true, Bool.or_eq_true, bne_iff_ne, decide_eq_true_eq]
  rw [if_neg (by omega), if_neg (by omega), if_neg (by omega), if_pos (by omega), if_pos (by omega)]

theorem isSurrogate_scalarUnit (u : UInt16) : isSurrogate (scalarUnit u) = false := by
  unfold scalarUnit
  split_ifs with h
  · decide
  · simpa using h

theorem scalarUnit_of_not_surrogate {u : UInt16} (h : isSurrogate u = false) : scalarUnit u = u := by
  simp [scalarUnit, h]

/-- Reading back what was written gives the string with its lone surrogates
replaced, whatever follows it in the file. -/
theorem decodeUtf8_encodeUtf8_append (s : JsString) (tail : Bytes) :
    decodeUtf8 (encodeUtf8 s ++ tail) = toWellFormed s ++ decodeUtf8 tail := by
  induction s using encodeUtf8.induct with
  | case1 => rfl
  | case2 u => exact decodeUtf8_unit_append _ (isSurrogate_scalarUnit u) tail
  | case3 u v rest h ih =>
      have hPair : isHigh u = true ∧ isLow v = true := by simpa using h
      simp only [encodeUtf8, toWellFormed, h, if_true, List.append_assoc, List.cons_append]
      rw [decodeUtf8_pair_append u v hPair.1 hPair.2, ih]
  | case4 u v rest h ih =>
      rw [encodeUtf8, toWellFormed, if_neg h, if_neg h, List.append_assoc, List.cons_append,
        decodeUtf8_unit_append _ (isSurrogate_scalarUnit u), ih]

theorem decodeUtf8_encodeUtf8 (s : JsString) : decodeUtf8 (encodeUtf8 s) = toWellFormed s := by
  simpa [decodeUtf8] using decodeUtf8_encodeUtf8_append s []

/-- A code unit outside the surrogate range ends whatever pairing went on
before it. -/
theorem toWellFormed_append_cons (s : JsString) {c : UInt16} (hc : isSurrogate c = false)
    (t : JsString) : toWellFormed (s ++ c :: t) = toWellFormed s ++ toWellFormed (c :: t) := by
  have hLow : isLow c = false := by
    simp only [isSurrogate, Bool.or_eq_false_iff] at hc
    exact hc.2
  induction s using toWellFormed.induct with
  | case1 => rfl
  | case2 u => simp [toWellFormed, hLow]
  | case3 u v rest h ih => simp [toWellFormed, h, ih]
  | case4 u v rest h ih =>
      have h' : (isHigh u && isLow v) = false := by simpa using h
      simpa [toWellFormed, h'] using ih

/-- The same for the bytes of the string. -/
theorem encodeUtf8_append_cons (s : JsString) {c : UInt16} (hc : isSurrogate c = false) (t : JsString) :
    encodeUtf8 (s ++ c :: t) = encodeUtf8 s ++ encodeUtf8 (c :: t) := by
  have hLow : isLow c = false := by
    simp only [isSurrogate, Bool.or_eq_false_iff] at hc
    exact hc.2
  induction s using encodeUtf8.induct with
  | case1 => rfl
  | case2 u => simp [encodeUtf8, hLow]
  | case3 u v rest h ih => simp [encodeUtf8, h, ih]
  | case4 u v rest h ih =>
      have h' : (isHigh u && isLow v) = false := by simpa using h
      simpa [encodeUtf8, h'] using ih

theorem toWellFormed_cons {c : UInt16} (hc : isSurrogate c = false) (t : JsString) :
    toWellFormed (c :: t) = c :: toWellFormed t := by
  have hHigh : isHigh c = false := by
    simp only [isSurrogate, Bool.or_eq_false_iff] at hc
    exact hc.1
  cases t with
  | nil => simp [toWellFormed, scalarUnit_of_not_surrogate hc]
  | cons v rest => simp [toWellFormed, hHigh, scalarUnit_of_not_surrogate hc]

/-- A prefix without surrogates is kept as it is. -/
theorem toWellFormed_append {s : JsString} (hs : ∀ c ∈ s, isSurrogate c = false) (t : JsString) :
    toWellFormed (s ++ t) = s ++ toWellFormed t := by
  induction s with
  | nil => rfl
  | cons c s ih =>
      rw [List.cons_append, toWellFormed_cons (hs c (by simp)), ih fun d hd => hs d (by simp [hd])]
      rfl

/-- Replacement works code unit by code unit. -/
theorem toWellFormed_forall₂ (s : JsString) :
    List.Forall₂ (fun u v => v = u ∨ (isSurrogate u = true ∧ v = replacement)) s (toWellFormed s) := by
  have hUnit : ∀ u, scalarUnit u = u ∨ (isSurrogate u = true ∧ scalarUnit u = replacement) := by
    intro u
    cases h : isSurrogate u <;> simp [scalarUnit, h]
  induction s using toWellFormed.induct with
  | case1 => exact List.Forall₂.nil
  | case2 u => exact List.Forall₂.cons (hUnit u) List.Forall₂.nil
  | case3 u v rest h ih =>
      simp only [toWellFormed, h, if_true]
      exact List.Forall₂.cons (Or.inl rfl) (List.Forall₂.cons (Or.inl rfl) ih)
  | case4 u v rest h ih =>
      rw [toWellFormed, if_neg h]
      exact List.Forall₂.cons (hUnit u) ih

@[simp] theorem length_toWellFormed (s : JsString) : (toWellFormed s).length = s.length :=
  (toWellFormed_forall₂ s).length_eq.symm

/-- A test that no surrogate and no replacement character passes gives the
same answer on every code unit after replacement. -/
theorem all_toWellFormed (p : UInt16 → Bool) (hSurrogate : ∀ u, isSurrogate u = true → p u = p replacement)
    (s : JsString) : (toWellFormed s).all p = s.all p := by
  have h := toWellFormed_forall₂ s
  generalize toWellFormed s = t at h
  induction h with
  | nil => rfl
  | @cons u v _ _ huv _ ih =>
      rcases huv with rfl | ⟨hu, rfl⟩
      · simp [ih]
      · simp [ih, hSurrogate u hu]

theorem isWellFormed_toWellFormed (s : JsString) : IsWellFormed (toWellFormed s) := by
  unfold IsWellFormed
  have hReplacement : isSurrogate replacement = false := by decide
  induction s using toWellFormed.induct with
  | case1 => rfl
  | case2 u => simp [toWellFormed, scalarUnit_of_not_surrogate (isSurrogate_scalarUnit u)]
  | case3 u v rest h ih => simp [toWellFormed, h, ih]
  | case4 u v rest h ih =>
      rw [toWellFormed, if_neg h, toWellFormed_cons (isSurrogate_scalarUnit u), ih]

theorem isWellFormed_of_no_surrogate {s : JsString} (hs : ∀ c ∈ s, isSurrogate c = false) :
    IsWellFormed s := by
  unfold IsWellFormed
  simpa [toWellFormed] using toWellFormed_append hs []

/-- A string of seven-bit characters, one byte each on disk. -/
def IsAscii (s : JsString) : Prop := ∀ c ∈ s, c.toNat < 0x80

theorem IsAscii.not_surrogate {s : JsString} (hs : IsAscii s) :
    ∀ c ∈ s, isSurrogate c = false := by
  intro c hc
  have h := hs c hc
  simp only [isSurrogate, isHigh, isLow, Bool.or_eq_false_iff, Bool.and_eq_false_iff,
    decide_eq_false_iff_not]
  omega

theorem IsAscii.append {s t : JsString} (hs : IsAscii s) (ht : IsAscii t) : IsAscii (s ++ t) := by
  intro c hc
  rcases List.mem_append.mp hc with h | h
  · exact hs c h
  · exact ht c h

theorem IsAscii.encodeUtf8 {s : JsString} (hs : IsAscii s) :
    encodeUtf8 s = s.map fun u => UInt8.ofNat u.toNat := by
  have hUnit : ∀ u : UInt16, u.toNat < 0x80 → unitBytes (scalarUnit u) = [UInt8.ofNat u.toNat] := by
    intro u hu
    have hSurrogate : isSurrogate u = false :=
      IsAscii.not_surrogate (s := [u]) (by simpa [IsAscii] using hu) u (by simp)
    rw [scalarUnit_of_not_surrogate hSurrogate]
    simp [unitBytes, hu]
  induction s using encodeUtf8.induct with
  | case1 => rfl
  | case2 u => simp [Text.encodeUtf8, hUnit u (hs u (by simp))]
  | case3 u v rest h ih =>
      have hu := hs u (by simp)
      simp only [isHigh, Bool.and_eq_true, decide_eq_true_eq] at h
      omega
  | case4 u v rest h ih =>
      rw [Text.encodeUtf8, if_neg h, hUnit u (hs u (by simp)), ih fun c hc => hs c (by simp [hc])]
      rfl

/-- The bytes a torn write leaves of a seven-bit text are the text of a prefix. -/
theorem IsAscii.prefix_encodeUtf8 {s : JsString} (hs : IsAscii s) {p : Bytes}
    (hp : p <+: Text.encodeUtf8 s) : ∃ q, q <+: s ∧ p = Text.encodeUtf8 q := by
  rw [hs.encodeUtf8, List.prefix_iff_eq_take] at hp
  have hAscii : IsAscii (s.take p.length) := fun c hc => hs c (List.mem_of_mem_take hc)
  refine ⟨s.take p.length, List.take_prefix _ _, ?_⟩
  rw [hAscii.encodeUtf8, List.map_take]
  exact hp

end Text
