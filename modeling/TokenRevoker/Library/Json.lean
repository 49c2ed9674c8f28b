import Mathlib.Data.Int.Log
import Mathlib.Data.Rat.Floor
import TokenRevoker.Library.DoubleRounding
import TokenRevoker.Library.Fields

/-! JSON texts, read by a machine that takes one code unit after the other and keeps the
containers it is in on a stack, and records of integers and flags as they are printed. A
number is the exact rational of its digits until it is rounded to a double. -/
namespace Json

open Text

/-- The members of an object stand in the reverse order of the text, so that the first one
with a key is the one that counts. -/
inductive Value where
  | null
  | bool (b : Bool)
  | number (x : ℚ)
  | string (s : JsString)
  | array (items : List Value)
  | object (members : List (JsString × Value))

/-- What of a number has been read last. -/
inductive NumberPart where
  | minus
  | zero
  | integer
  | point
  | fraction
  | e
  | sign
  | exponent
  deriving DecidableEq

structure Number where
  part : NumberPart
  negative : Bool := false
  mantissa : Nat := 0
  /-- How many of the digits stand behind the point. -/
  places : Nat := 0
  negativeExponent : Bool := false
  exponent : Nat := 0
  deriving DecidableEq

namespace Number

/-- The number may end here. -/
def complete (n : Number) : Bool :=
  match n.part with
  | .zero | .integer | .fraction | .exponent => true
  | .minus | .point | .e | .sign => false

def value (n : Number) : ℚ :=
  let magnitude : ℚ := n.mantissa * 10 ^ ((if n.negativeExponent then -(n.exponent : ℤ) else n.exponent) - n.places)
  if n.negative then -magnitude else magnitude

def digit (n : Number) (u : UInt16) : Number :=
  { n with part := .integer, mantissa := 10 * n.mantissa + (u.toNat - 0x30) }

def place (n : Number) (u : UInt16) : Number :=
  { n.digit u with part := .fraction, places := n.places + 1 }

def exponentDigit (n : Number) (u : UInt16) : Number :=
  { n with part := .exponent, exponent := 10 * n.exponent + (u.toNat - 0x30) }

/-- `e` or `E`. -/
def isE (u : UInt16) : Bool := u = 0x65 || u = 0x45

/-- The number with one more code unit, unless none of its kind may follow. -/
def next (n : Number) (u : UInt16) : Option Number :=
  match n.part with
  | .minus => if u = 0x30 then some { n with part := .zero } else if isDigit u then some (n.digit u) else none
  | .zero =>
      if u = 0x2E then some { n with part := .point } else if isE u then some { n with part := .e } else none
  | .integer =>
      if isDigit u then some (n.digit u)
      else if u = 0x2E then some { n with part := .point }
      else if isE u then some { n with part := .e }
      else none
  | .point => if isDigit u then some (n.place u) else none
  | .fraction => if isDigit u then some (n.place u) else if isE u then some { n with part := .e } else none
  | .e =>
      if u = 0x2B then some { n with part := .sign }
      else if u = 0x2D then some { n with part := .sign, negativeExponent := true }
      else if isDigit u then some (n.exponentDigit u)
      else none
  | .sign | .exponent => if isDigit u then some (n.exponentDigit u) else none

end Number

/-- A container that is still open; its items and members stand in reverse order. The stack of
them is all that the machine has to remember. -/
inductive Frame where
  | array (items : List Value)
  /-- The next string is a key. -/
  | object (members : List (JsString × Value))
  /-- The next value belongs to the key. -/
  | member (members : List (JsString × Value)) (key : JsString)

inductive Mode where
  /-- A value begins; an array that has just been opened may also close. -/
  | value (opened : Bool)
  /-- A key begins; an object that has just been opened may also close. -/
  | key (opened : Bool)
  | colon
  /-- What is left of `true`, `false` or `null`. -/
  | literal (rest : JsString) (v : Value)
  | number (n : Number)
  | string (read : JsString)
  /-- Behind a backslash. -/
  | escape (read : JsString)
  /-- Behind `\u`, with so many hexadecimal digits to come. -/
  | unicode (read : JsString) (code left : Nat)
  | after (v : Value)

structure State where
  mode : Mode
  stack : List Frame

def quote : UInt16 := 0x22

def comma : UInt16 := 0x2C

def backslash : UInt16 := 0x5C

def closeBrace : UInt16 := 0x7D

def isSpace (u : UInt16) : Bool := u = 0x20 || u = 0x09 || u = 0x0A || u = 0x0D

/-- The first code unit of a value. -/
def begin (stack : List Frame) (u : UInt16) : Option State :=
  if u = quote then some ⟨.string [], stack⟩
  else if u = 0x5B then some ⟨.value true, .array [] :: stack⟩
  else if u = 0x7B then some ⟨.key true, .object [] :: stack⟩
  else if u = 0x74 then some ⟨.literal [0x72, 0x75, 0x65] (.bool true), stack⟩
  else if u = 0x66 then some ⟨.literal [0x61, 0x6C, 0x73, 0x65] (.bool false), stack⟩
  else if u = 0x6E then some ⟨.literal [0x75, 0x6C, 0x6C] .null, stack⟩
  else if u = 0x2D then some ⟨.number { part := .minus, negative := true }, stack⟩
  else ((⟨.minus, false, 0, 0, false, 0⟩ : Number).next u).map fun n => ⟨.number n, stack⟩

/-- The first code unit behind a value. -/
def close (v : Value) (stack : List Frame) (u : UInt16) : Option State :=
  if isSpace u then some ⟨.after v, stack⟩
  else if u = comma then
    match stack with
    | .array items :: rest => some ⟨.value false, .array (v :: items) :: rest⟩
    | .member members key :: rest => some ⟨.key false, .object ((key, v) :: members) :: rest⟩
    | _ => none
  else if u = 0x5D then
    match stack with
    | .array items :: rest => some ⟨.after (.array (v :: items).reverse), rest⟩
    | _ => none
  else if u = closeBrace then
    match stack with
    | .member members key :: rest => some ⟨.after (.object ((key, v) :: members)), rest⟩
    | _ => none
  else none

/-- The end of a string, which is a key or a value. -/
def endString (read : JsString) : List Frame → State
  | .object members :: rest => ⟨.colon, .member members read :: rest⟩
  | stack => ⟨.after (.string read), stack⟩

/-- What stands behind a backslash for itself or for a control character. -/
def unescape (u : UInt16) : Option UInt16 :=
  if u = quote || u = backslash || u = 0x2F then some u
  else if u = 0x62 then some 0x08
  else if u = 0x66 then some 0x0C
  else if u = 0x6E then some 0x0A
  else if u = 0x72 then some 0x0D
  else if u = 0x74 then some 0x09
  else none

def hexDigit (u : UInt16) : Option Nat :=
  if isDigit u then some (u.toNat - 0x30)
  else if 0x41 ≤ u.toNat && u.toNat ≤ 0x46 then some (u.toNat - 0x37)
  else if 0x61 ≤ u.toNat && u.toNat ≤ 0x66 then some (u.toNat - 0x57)
  else none

def step (s : State) (u : UInt16) : Option State :=
  match s.mode with
  | .value opened =>
      if isSpace u then some s
      else match opened, s.stack with
      | true, .array [] :: rest => if u = 0x5D then some ⟨.after (.array []), rest⟩ else begin s.stack u
      | _, _ => begin s.stack u
  | .key opened =>
      if isSpace u then some s
      else if u = quote then some { s with mode := .string [] }
      else match opened, s.stack with
      | true, .object [] :: rest => if u = closeBrace then some ⟨.after (.object []), rest⟩ else none
      | _, _ => none
  | .colon => if isSpace u then some s else if u = 0x3A then some { s with mode := .value false } else none
  | .literal rest v =>
      match rest with
      | [] => close v s.stack u
      | c :: rest => if u = c then some { s with mode := .literal rest v } else none
  | .number n =>
      match n.next u with
      | some n => some { s with mode := .number n }
      | none => if n.complete then close (.number n.value) s.stack u else none
  | .string read =>
      if u = quote then some (endString read s.stack)
      else if u = backslash then some { s with mode := .escape read }
      else if u.toNat < 0x20 then none
      else some { s with mode := .string (read ++ [u]) }
  | .escape read =>
      if u = 0x75 then some { s with mode := .unicode read 0 4 }
      else (unescape u).map fun c => { s with mode := .string (read ++ [c]) }
  | .unicode read code left =>
      (hexDigit u).map fun d =>
        if left ≤ 1 then { s with mode := .string (read ++ [UInt16.ofNat (16 * code + d)]) }
        else { s with mode := .unicode read (16 * code + d) (left - 1) }
  | .after v => close v s.stack u

def run (s : State) (text : JsString) : Option State := text.foldlM step s

/-- The value of a text that may end here. -/
def finish (s : State) : Option Value :=
  match s.mode, s.stack with
  | .after v, [] | .literal [] v, [] => some v
  | .number n, [] => if n.complete then some (.number n.value) else none
  | _, _ => none

/-- `JSON.parse`, which throws where this is `none`. Only texts that are read to their end have
a value. -/
def parse (text : JsString) : Option Value := (run ⟨.value false, []⟩ text).bind finish

/-- `value[key]` of a parsed value. An array or a string has no such property, as long as
the key is neither an index nor the name of a built-in property. -/
def property (v : Value) (key : JsString) : Option Value :=
  match v with
  | .object members => members.lookup key
  | _ => none

/-- The double nearest to a number, ties to even; beyond the largest one it is infinite.
Integers below 2^53 are doubles already. -/
def toDouble (x : ℚ) : Option ℚ :=
  let ulp : ℚ := 2 ^ max (Int.log 2 |x| - 52) (-1074)
  let nearest := DoubleRounding.roundEven (x / ulp) * ulp
  if 2 ^ 1024 ≤ |nearest| then none else some nearest

/-- What `typeof` calls a number, if `Number.isInteger` holds of it and it is not negative. -/
def nonNegativeInteger (v : Option Value) : Option Nat :=
  match v with
  | some (.number x) => (toDouble x).bind fun d => if d.den = 1 ∧ 0 ≤ d then some d.num.toNat else none
  | _ => none

/-- A key as the source writes it. -/
def word (text : String) : JsString := text.toList.map fun c => UInt16.ofNat c.toNat

/-- What a printed record holds. Numbers are integers here: no record of counters has others. -/
inductive Scalar where
  | number (k : ℤ)
  | bool (b : Bool)
  deriving DecidableEq

/-- The text of a scalar; an integer up to 2^53 is printed with all its digits. -/
def Scalar.text : Scalar → JsString
  | .number k => if k < 0 then 0x2D :: decimal k.natAbs else decimal k.natAbs
  | .bool true => [0x74, 0x72, 0x75, 0x65]
  | .bool false => [0x66, 0x61, 0x6C, 0x73, 0x65]

def Scalar.value : Scalar → Value
  | .number k => .number k
  | .bool b => .bool b

/-- A member; the key needs no escapes. -/
def memberText (member : JsString × Scalar) : JsString :=
  quote :: member.1 ++ quote :: 0x3A :: member.2.text

def membersText : List (JsString × Scalar) → JsString
  | [] => []
  | [member] => memberText member
  | member :: rest => memberText member ++ comma :: membersText rest

/-- `JSON.stringify` of an object. The members come in the order in which the record was made.
-/
def stringify (record : List (JsString × Scalar)) : JsString :=
  0x7B :: membersText record ++ [closeBrace]

section Run

variable {s : State} {text rest : JsString} {u : UInt16} {v : Value} {stack : List Frame}

theorem run_append (s : State) (text rest : JsString) :
    run s (text ++ rest) = (run s text).bind fun t => run t rest := List.foldlM_append

@[simp] theorem run_nil (s : State) : run s [] = some s := rfl

theorem run_cons (s : State) (u : UInt16) (text : JsString) :
    run s (u :: text) = (step s u).bind fun t => run t text := List.foldlM_cons

/-- A brace continues no number. -/
theorem next_closeBrace (n : Number) : n.next closeBrace = none := by
  obtain ⟨part⟩ := n
  cases part <;> rfl

/-- No container is open, and none is opened before the end. So nothing that follows can be part
of the value. -/
def Closed (s : State) : Prop :=
  s.stack = [] ∧ match s.mode with
    | .after _ | .number _ => True
    | .literal rest _ => closeBrace ∉ rest
    | _ => False

theorem closed_of_finish (h : finish s = some v) : Closed s := by
  obtain ⟨mode, stack⟩ := s
  cases stack with
  | nil =>
      cases mode with
      | literal rest w => cases rest <;> simp [finish, Closed] at h ⊢
      | _ => simp [finish, Closed] at h ⊢
  | cons frame rest =>
      cases mode with
      | literal text w => cases text <;> simp [finish] at h
      | _ => simp [finish] at h

theorem close_nil {t : State} (h : close v [] u = some t) : Closed t ∧ u ≠ closeBrace := by
  unfold close at h
  split_ifs at h with hSpace
  cases h
  refine ⟨⟨rfl, trivial⟩, ?_⟩
  rintro rfl
  exact absurd hSpace (by decide)

/-- So it stays, and no brace closes. -/
theorem Closed.step {t : State} (h : Closed s) (hStep : step s u = some t) : Closed t ∧ u ≠ closeBrace := by
  obtain ⟨mode, stack⟩ := s
  obtain ⟨rfl, hMode⟩ := h
  cases mode with
  | after v => exact close_nil hStep
  | literal rest v =>
      cases rest with
      | nil => exact close_nil hStep
      | cons c rest =>
          have hRest : closeBrace ∉ c :: rest := hMode
          simp only [Json.step, Option.ite_none_right_eq_some, Option.some.injEq] at hStep
          obtain ⟨rfl, rfl⟩ := hStep
          exact ⟨⟨rfl, fun h => hRest (List.mem_cons_of_mem _ h)⟩, fun h => hRest (h ▸ List.mem_cons_self)⟩
  | number n =>
      simp only [Json.step] at hStep
      split at hStep
      · next hNext =>
        cases hStep
        refine ⟨⟨rfl, trivial⟩, ?_⟩
        rintro rfl
        rw [next_closeBrace] at hNext
        cases hNext
      · split_ifs at hStep
        exact close_nil hStep
  | value | key | colon | string | escape | unicode => exact hMode.elim

theorem Closed.run {t : State} (h : Closed s) (hRun : run s text = some t) : closeBrace ∉ text := by
  induction text generalizing s with
  | nil => exact List.not_mem_nil
  | cons u text ih =>
      rw [run_cons, Option.bind_eq_some_iff] at hRun
      obtain ⟨middle, hStep, hRest⟩ := hRun
      obtain ⟨hClosed, hNe⟩ := h.step hStep
      rw [List.mem_cons, not_or]
      exact ⟨hNe.symm, ih hClosed hRest⟩

/-- No part of a text from its start is accepted if the text ends in a brace, which closes it. -/
theorem parse_of_isPrefix {p : JsString} (hWhole : (parse (text ++ [closeBrace])).isSome = true)
    (hPrefix : p <+: text) : parse p = none := by
  obtain ⟨rest, rfl⟩ := hPrefix
  obtain ⟨v, hWhole⟩ := Option.isSome_iff_exists.mp hWhole
  cases hParse : parse p with
  | none => rfl
  | some w =>
      rw [parse, Option.bind_eq_some_iff] at hParse hWhole
      obtain ⟨middle, hRun, hFinish⟩ := hParse
      obtain ⟨last, hLast, -⟩ := hWhole
      rw [List.append_assoc, run_append, hRun, Option.bind_some] at hLast
      have hNone := (closed_of_finish hFinish).run hLast
      simp at hNone

end Run

section Print

variable {stack : List Frame} {key tail : JsString} {u : UInt16} {n : Nat}

/-- A key that is printed without escapes. -/
def Plain (key : JsString) : Prop :=
  ∀ u ∈ key, 0x20 ≤ u.toNat ∧ u.toNat < 0x80 ∧ u ≠ quote ∧ u ≠ backslash

instance (key : JsString) : Decidable (Plain key) := List.decidableBAll _ key

theorem Plain.isAscii (h : Plain key) : IsAscii key := fun u hu => (h u hu).2.1

theorem step_string (hPrintable : 0x20 ≤ u.toNat) (hQuote : u ≠ quote) (hBackslash : u ≠ backslash)
    (read : JsString) : step ⟨.string read, stack⟩ u = some ⟨.string (read ++ [u]), stack⟩ := by
  simp [step, hQuote, hBackslash, Nat.not_lt.mpr hPrintable]

theorem run_string (hKey : Plain key) (read : JsString) :
    run ⟨.string read, stack⟩ (key ++ tail) = run ⟨.string (read ++ key), stack⟩ tail := by
  induction key generalizing read with
  | nil => rw [List.nil_append, List.append_nil]
  | cons u key ih =>
      obtain ⟨hPrintable, -, hQuote, hBackslash⟩ := hKey u List.mem_cons_self
      rw [List.cons_append, run_cons, step_string hPrintable hQuote hBackslash, Option.bind_some,
        ih fun c hc => hKey c (List.mem_cons_of_mem _ hc), List.append_assoc]
      rfl

theorem run_digits {ds : JsString} (hDigits : ∀ u ∈ ds, isDigit u = true) (negative : Bool) (m : Nat) :
    run ⟨.number { part := .integer, negative := negative, mantissa := m }, stack⟩ (ds ++ tail) =
      run ⟨.number { part := .integer, negative := negative, mantissa := digitsValue ds m }, stack⟩ tail := by
  induction ds generalizing m with
  | nil => rfl
  | cons u ds ih =>
      have hNext : Number.next { part := .integer, negative := negative, mantissa := m } u =
          some { part := .integer, negative := negative, mantissa := 10 * m + (u.toNat - 0x30) } := by
        simp [Number.next, Number.digit, hDigits u List.mem_cons_self]
      rw [List.cons_append, run_cons]
      simp only [step, hNext, Option.bind_some]
      rw [ih fun c hc => hDigits c (List.mem_cons_of_mem _ hc)]
      rfl

/-- A digit begins a number, and a zero is all of it before the point. -/
theorem step_minus_digit (hDigit : isDigit u = true) (negative : Bool) :
    step ⟨.number { part := .minus, negative := negative }, stack⟩ u = some ⟨.number {
      part := if u = 0x30 then .zero else .integer
      negative := negative
      mantissa := u.toNat - 0x30 }, stack⟩ := by
  simp only [step, Number.next]
  by_cases hZero : u = 0x30
  · rw [if_pos hZero, if_pos hZero]
    subst hZero
    rfl
  · rw [if_neg hZero, if_neg hZero, if_pos hDigit]
    simp [Number.digit]

/-- Where a value begins, a digit is what it is behind a sign. -/
theorem step_value_digit (hDigit : isDigit u = true) :
    step ⟨.value false, stack⟩ u = step ⟨.number { part := .minus, negative := false }, stack⟩ u := by
  have hRange : 0x30 ≤ u.toNat ∧ u.toNat ≤ 0x39 := by simpa [isDigit] using hDigit
  have hNe : ∀ c : UInt16, c.toNat < 0x30 ∨ 0x39 < c.toNat → u ≠ c := by
    rintro c hc rfl
    omega
  have hSpace : isSpace u = false := by
    simp only [isSpace, Bool.or_eq_false_iff, decide_eq_false_iff_not]
    exact ⟨⟨⟨hNe _ (by decide), hNe _ (by decide)⟩, hNe _ (by decide)⟩, hNe _ (by decide)⟩
  have hBegin : begin stack u =
      ((⟨.minus, false, 0, 0, false, 0⟩ : Number).next u).map fun n => ⟨.number n, stack⟩ := by
    rw [begin, if_neg (hNe _ (by decide)), if_neg (hNe _ (by decide)), if_neg (hNe _ (by decide)),
      if_neg (hNe _ (by decide)), if_neg (hNe _ (by decide)), if_neg (hNe _ (by decide)), if_neg (hNe _ (by decide))]
  rw [step_minus_digit hDigit]
  simp only [step, hSpace, Bool.false_eq_true, if_false, hBegin, Number.next]
  by_cases hZero : u = 0x30
  · rw [if_pos hZero, if_pos hZero]
    subst hZero
    rfl
  · rw [if_neg hZero, if_neg hZero, if_pos hDigit]
    simp [Number.digit]

theorem run_minus (negative : Bool) (n : Nat) :
    run ⟨.number { part := .minus, negative := negative }, stack⟩ (decimal n ++ tail) =
      run ⟨.number { part := if n = 0 then .zero else .integer, negative := negative, mantissa := n }, stack⟩ tail := by
  rcases Nat.eq_zero_or_pos n with rfl | hPos
  · have hZero : decimal 0 = [0x30] := by decide
    rw [hZero, List.singleton_append, run_cons, step_minus_digit (by decide)]
    rfl
  · obtain ⟨u, ds, hText⟩ := List.exists_cons_of_ne_nil (decimal_ne_nil n)
    have hDigits : ∀ c ∈ u :: ds, isDigit c = true := fun c hc => isDigit_of_mem_decimal (hText ▸ hc)
    have hFirst : 0 < digitsValue [u] 0 := by
      refine digitsValue_prefix_pos hPos ?_ (List.cons_ne_nil _ _)
      rw [hText]
      exact ⟨ds, rfl⟩
    have hNe : u ≠ 0x30 := by
      rintro rfl
      exact absurd hFirst (by decide)
    have hValue : digitsValue ds (u.toNat - 0x30) = n := by
      rw [← digitsValue_decimal n, hText]
      simp [digitsValue]
    rw [hText, List.cons_append, run_cons, step_minus_digit (hDigits u List.mem_cons_self), Option.bind_some,
      if_neg hNe, if_neg hPos.ne', run_digits fun c hc => hDigits c (List.mem_cons_of_mem _ hc), hValue]

theorem run_decimal (n : Nat) : run ⟨.value false, stack⟩ (decimal n ++ tail) =
    run ⟨.number { part := if n = 0 then .zero else .integer, negative := false, mantissa := n }, stack⟩ tail := by
  obtain ⟨u, ds, hText⟩ := List.exists_cons_of_ne_nil (decimal_ne_nil n)
  have hDigit : isDigit u = true := isDigit_of_mem_decimal (n := n) (hText ▸ List.mem_cons_self)
  rw [← run_minus, hText, List.cons_append, run_cons, run_cons, step_value_digit hDigit]

/-- An integer is read up to its last digit. -/
theorem run_integer (k : ℤ) : run ⟨.value false, stack⟩ ((Scalar.number k).text ++ tail) =
    run ⟨.number {
      part := if k.natAbs = 0 then .zero else .integer
      negative := decide (k < 0)
      mantissa := k.natAbs }, stack⟩ tail := by
  have hSign : step ⟨.value false, stack⟩ 0x2D = some ⟨.number { part := .minus, negative := true }, stack⟩ := rfl
  rw [Scalar.text]
  by_cases hNegative : k < 0
  · rw [if_pos hNegative, decide_eq_true hNegative, List.cons_append, run_cons, hSign, Option.bind_some, run_minus]
  · rw [if_neg hNegative, decide_eq_false hNegative, run_decimal]

/-- The digits and the sign of an integer. -/
theorem value_integer (k : ℤ) (part : NumberPart) :
    Number.value { part := part, negative := decide (k < 0), mantissa := k.natAbs } = k := by
  have hMagnitude : ((k.natAbs : ℕ) : ℚ) = |(k : ℚ)| := by rw [Nat.cast_natAbs, Int.cast_abs]
  simp only [Number.value, Bool.false_eq_true, if_false, Nat.cast_zero, sub_self, zpow_zero, mul_one, hMagnitude]
  by_cases hNegative : k < 0
  · rw [decide_eq_true hNegative, if_pos rfl, abs_of_neg (Int.cast_lt_zero.mpr hNegative), neg_neg]
  · rw [decide_eq_false hNegative, if_neg Bool.false_ne_true, abs_of_nonneg (Int.cast_nonneg (Int.not_lt.mp hNegative))]

theorem run_scalar (x : Scalar) (hEnd : u = comma ∨ u = closeBrace) :
    run ⟨.value false, stack⟩ (x.text ++ u :: tail) = (close x.value stack u).bind fun t => run t tail := by
  cases x with
  | number k =>
      have hNext : ∀ m : Number, m.part = .zero ∨ m.part = .integer → m.next u = none ∧ m.complete = true := by
        rintro ⟨part⟩ hPart
        rcases hEnd with rfl | rfl <;> rcases hPart with h | h <;> cases h <;> exact ⟨rfl, rfl⟩
      obtain ⟨hNone, hComplete⟩ := hNext {
        part := if k.natAbs = 0 then .zero else .integer
        negative := decide (k < 0)
        mantissa := k.natAbs } (by by_cases hZero : k.natAbs = 0 <;> simp [hZero])
      rw [run_integer, run_cons]
      simp only [step, hNone, hComplete, if_true, value_integer]
      rfl
  | bool b => rcases hEnd with rfl | rfl <;> cases b <;> rfl

theorem run_member (member : JsString × Scalar) (hKey : Plain member.1) (hEnd : u = comma ∨ u = closeBrace)
    (opened : Bool) (read : List (JsString × Value)) :
    run ⟨.key opened, .object read :: stack⟩ (memberText member ++ u :: tail) =
      (close member.2.value (.member read member.1 :: stack) u).bind fun t => run t tail := by
  have hOpen : step ⟨.key opened, .object read :: stack⟩ quote = some ⟨.string [], .object read :: stack⟩ := rfl
  have hClose : step ⟨.string member.1, .object read :: stack⟩ quote =
    some ⟨.colon, .member read member.1 :: stack⟩ := rfl
  have hColon : step ⟨.colon, .member read member.1 :: stack⟩ 0x3A =
    some ⟨.value false, .member read member.1 :: stack⟩ := rfl
  rw [memberText, List.cons_append, List.cons_append, run_cons, hOpen, Option.bind_some, List.append_assoc,
    run_string hKey, List.nil_append, List.cons_append, run_cons, hClose, Option.bind_some, List.cons_append,
    run_cons, hColon, Option.bind_some, run_scalar _ hEnd]

theorem run_members {record : List (JsString × Scalar)} (hNe : record ≠ []) (hKeys : ∀ m ∈ record, Plain m.1)
    (opened : Bool) (read : List (JsString × Value)) :
    run ⟨.key opened, [.object read]⟩ (membersText record ++ [closeBrace]) =
      some ⟨.after (.object ((record.map fun m => (m.1, m.2.value)).reverse ++ read)), []⟩ := by
  induction record generalizing opened read with
  | nil => exact absurd rfl hNe
  | cons member rest ih =>
      have hKey := hKeys member List.mem_cons_self
      cases rest with
      | nil =>
          rw [membersText, run_member member hKey (.inr rfl)]
          rfl
      | cons next rest =>
          have hComma : close member.2.value [.member read member.1] comma =
            some ⟨.key false, [.object ((member.1, member.2.value) :: read)]⟩ := rfl
          have hText : membersText (member :: next :: rest) =
            memberText member ++ comma :: membersText (next :: rest) := rfl
          rw [hText, List.append_assoc, List.cons_append, run_member member hKey (.inl rfl), hComma,
            Option.bind_some, ih (List.cons_ne_nil _ _) fun m hm => hKeys m (List.mem_cons_of_mem _ hm)]
          simp

/-- A printed record is read back, with the last member first. -/
theorem parse_stringify {record : List (JsString × Scalar)} (hKeys : ∀ m ∈ record, Plain m.1) :
    parse (stringify record) = some (.object (record.map fun m => (m.1, m.2.value)).reverse) := by
  cases record with
  | nil => rfl
  | cons member rest =>
      have hOpen : step ⟨.value false, []⟩ 0x7B = some ⟨.key true, [.object []]⟩ := rfl
      rw [parse, stringify, List.cons_append, run_cons, hOpen, Option.bind_some,
        run_members (List.cons_ne_nil _ _) hKeys, List.append_nil]
      rfl

/-- A printed record that has been cut off is not read at all. -/
theorem parse_cut {record : List (JsString × Scalar)} (hKeys : ∀ m ∈ record, Plain m.1) {p : JsString}
    (hPrefix : p <+: stringify record) (hNe : p ≠ stringify record) : parse p = none := by
  refine @parse_of_isPrefix (0x7B :: membersText record) p ?_ ?_
  · have h := parse_stringify hKeys
    rw [stringify] at h
    rw [h]
    rfl
  · rw [stringify] at hPrefix hNe
    exact (List.prefix_concat_iff.mp hPrefix).resolve_left hNe

theorem isAscii_decimal (n : Nat) : IsAscii (decimal n) := by
  intro u hu
  have h : 0x30 ≤ u.toNat ∧ u.toNat ≤ 0x39 := by simpa [isDigit] using isDigit_of_mem_decimal hu
  omega

theorem isAscii_member {member : JsString × Scalar} (hKey : IsAscii member.1) : IsAscii (memberText member) := by
  have hScalar : IsAscii member.2.text := by
    cases member.2 with
    | number k =>
        rw [Scalar.text]
        split_ifs
        · exact List.forall_mem_cons.mpr ⟨by decide, isAscii_decimal _⟩
        · exact isAscii_decimal _
    | bool b =>
        have hText : (Scalar.bool b).text.all (fun u => decide (u.toNat < 0x80)) = true := by cases b <;> rfl
        exact fun u hu => of_decide_eq_true (List.all_eq_true.mp hText u hu)
  rw [memberText]
  exact IsAscii.append (s := quote :: member.1) (List.forall_mem_cons.mpr ⟨by decide, hKey⟩)
    (List.forall_mem_cons.mpr ⟨by decide, List.forall_mem_cons.mpr ⟨by decide, hScalar⟩⟩)

theorem isAscii_stringify {record : List (JsString × Scalar)} (hKeys : ∀ m ∈ record, Plain m.1) :
    IsAscii (stringify record) := by
  have hMembers : IsAscii (membersText record) := by
    induction record with
    | nil => exact fun u hu => absurd hu List.not_mem_nil
    | cons member rest ih =>
        have hMember := isAscii_member (hKeys member List.mem_cons_self).isAscii
        cases rest with
        | nil => exact hMember
        | cons next rest =>
            exact hMember.append (List.forall_mem_cons.mpr
              ⟨by decide, ih fun m hm => hKeys m (List.mem_cons_of_mem _ hm)⟩)
  rw [stringify]
  exact IsAscii.append (s := 0x7B :: membersText record) (List.forall_mem_cons.mpr ⟨by decide, hMembers⟩)
    (List.forall_mem_singleton.mpr (by decide))

/-- What is read from a file that holds the first bytes of a record: all of it, or no value. -/
theorem parse_file {record : List (JsString × Scalar)} (hKeys : ∀ m ∈ record, Plain m.1) {written : Bytes}
    (hWritten : written <+: encodeUtf8 (stringify record)) :
    parse (decodeUtf8 written) =
      if written = encodeUtf8 (stringify record) then some (.object (record.map fun m => (m.1, m.2.value)).reverse)
      else none := by
  have hAscii := isAscii_stringify hKeys
  have hRead : ∀ q, q <+: stringify record → decodeUtf8 (encodeUtf8 q) = q := by
    intro q hPrefix
    rw [decodeUtf8_encodeUtf8]
    exact isWellFormed_of_no_surrogate fun c hc => hAscii.not_surrogate c (hPrefix.subset hc)
  obtain ⟨q, hPrefix, rfl⟩ := hAscii.prefix_encodeUtf8 hWritten
  split_ifs with hWhole
  · rw [hWhole, hRead _ List.prefix_rfl, parse_stringify hKeys]
  · rw [hRead q hPrefix]
    refine parse_cut hKeys hPrefix ?_
    rintro rfl
    exact hWhole rfl

end Print

section Rounding

theorem roundEven_intCast (k : ℤ) : DoubleRounding.roundEven k = k := by
  rw [DoubleRounding.roundEven, Int.floor_intCast, sub_self, if_pos (by norm_num)]

/-- A safe integer is a double. -/
theorem toDouble_intCast {k : ℤ} (h : k.natAbs < 2 ^ 53) : toDouble k = some (k : ℚ) := by
  have hAbs : |(k : ℚ)| = (k.natAbs : ℚ) := by rw [Nat.cast_natAbs, Int.cast_abs]
  have hExponent : max (Int.log 2 |(k : ℚ)| - 52) (-1074) ≤ 0 := by
    rw [hAbs, Int.log_natCast]
    have hLog : Nat.log 2 k.natAbs < 53 := Nat.log_lt_of_lt_pow' (by decide) h
    omega
  obtain ⟨places, hPlaces⟩ := Int.eq_ofNat_of_zero_le (neg_nonneg.mpr hExponent)
  have hUlp : (2 : ℚ) ^ max (Int.log 2 |(k : ℚ)| - 52) (-1074) = (2 ^ places)⁻¹ := by
    rw [← neg_neg (max _ _), hPlaces, zpow_neg, zpow_natCast]
  have hUnits : (k : ℚ) / (2 ^ places)⁻¹ = ((k * 2 ^ places : ℤ) : ℚ) := by
    rw [div_inv_eq_mul]
    push_cast
    rfl
  have hNearest : (DoubleRounding.roundEven ((k : ℚ) / (2 ^ places)⁻¹) : ℚ) * (2 ^ places)⁻¹ = k := by
    rw [hUnits, roundEven_intCast, ← hUnits]
    field_simp
  have hSmall : ¬ (2 : ℚ) ^ 1024 ≤ |(k : ℚ)| := by
    rw [hAbs, not_le]
    calc (k.natAbs : ℚ) < 2 ^ 53 := by exact_mod_cast h
      _ ≤ 2 ^ 1024 := pow_le_pow_right₀ (by norm_num) (by norm_num)
  simp only [toDouble, hUlp, hNearest, if_neg hSmall]

theorem nonNegativeInteger_intCast {k : ℤ} (h : k.natAbs < 2 ^ 53) :
    nonNegativeInteger (some (.number k)) = if 0 ≤ k then some k.toNat else none := by
  simp [nonNegativeInteger, toDouble_intCast h]

theorem nonNegativeInteger_natCast {n : Nat} (h : n < 2 ^ 53) :
    nonNegativeInteger (some (.number (n : ℤ))) = some n := by
  rw [nonNegativeInteger_intCast (by rwa [Int.natAbs_natCast]), if_pos (Int.natCast_nonneg n), Int.toNat_natCast]

end Rounding

end Json
