import TokenRevoker.Core.Item
import TokenRevoker.Library.Fields

/-! The events of the canonical log and the lines they are written as. A line
starts with its LSN and its type; an item is preceded by its length, so it may
contain the separator. -/
namespace TokenRevoker

open Text

inductive CanonicalEvent where
  | entry (lsn generation : Nat) (item : JsString)
  | tombstone (lsn generation : Nat) (item : JsString)
  | rotate (lsn generation : Nat)
  deriving DecidableEq

namespace CanonicalEvent

def lsn : CanonicalEvent → Nat
  | .entry lsn _ _ | .tombstone lsn _ _ | .rotate lsn _ => lsn

end CanonicalEvent

/-- U+003A. -/
def colon : UInt16 := 0x003A

/-- One line of the log, before it is written. An entry does not carry a generation: it has that
of its file. -/
inductive Line where
  | entry (lsn : Nat) (item : JsString)
  | tombstone (lsn : Nat) (item : JsString)
  | rotate (lsn generation : Nat)
  deriving DecidableEq

namespace Line

def lsn : Line → Nat
  | .entry lsn _ | .tombstone lsn _ | .rotate lsn _ => lsn

/-- `E`, `T` or `R`. -/
def type : Line → UInt16
  | .entry _ _ => 0x45
  | .tombstone _ _ => 0x54
  | .rotate _ _ => 0x52

/-- The part of the line after its type. -/
def payload : Line → JsString
  | .entry _ item | .tombstone _ item => decimal item.length ++ colon :: item
  | .rotate _ generation => decimal generation

/-- `<lsn>:E:<len>:<item>`, `<lsn>:T:<len>:<item>` or `<lsn>:R:<generation>`. -/
def text (line : Line) : JsString := decimal line.lsn ++ colon :: line.type :: colon :: line.payload

/-- The line as it comes back from the file. Only lone surrogates are changed, so its length in
UTF-16 units stays. -/
def wellFormed : Line → Line
  | .entry lsn item => .entry lsn (toWellFormed item)
  | .tombstone lsn item => .tombstone lsn (toWellFormed item)
  | .rotate lsn generation => .rotate lsn generation

/-- The event the line stands for in a file of the given generation. -/
def event (generation : Nat) : Line → CanonicalEvent
  | .entry lsn item => .entry lsn generation item
  | .tombstone lsn item => .tombstone lsn generation item
  | .rotate lsn marker => .rotate lsn marker

/-- The line has an LSN, and its item is one the coordinator accepts. The item may still have
lone surrogates, and nothing is said of the generation of a marker. -/
def Valid : Line → Prop
  | .entry lsn item | .tombstone lsn item => 0 < lsn ∧ Acceptable item
  | .rotate lsn _ => 0 < lsn

end Line

/-- `#parseLine`, for a file whose entries carry `generationOfFile`. `Number` is
applied to the digits that stand in these fields, whole or cut off. -/
def parseLine (generationOfFile : Nat) (line : JsString) : Option CanonicalEvent := do
  let (lsnText, rest) ← splitFirst colon line
  guard (lsnText ≠ [])
  let (type, payload) ← splitFirst colon rest
  let lsn ← numberOf lsnText
  guard (0 < lsn)
  if type = [0x52] then
    let generation ← numberOf payload
    return .rotate lsn generation
  else if type = [0x45] ∨ type = [0x54] then
    let (lenText, item) ← splitFirst colon payload
    let len ← numberOf lenText
    guard (item.length = len)
    return if type = [0x45] then .entry lsn generationOfFile item
      else .tombstone lsn generationOfFile item
  else none

/-- The lines of `#parseFile`: empty lines are passed over, malformed ones are
reported and skipped, and a rotation marker sets the generation of later lines. -/
def parseLines (generationOfFile : Nat) : List JsString → List CanonicalEvent
  | [] => []
  | line :: rest =>
    if line = [] then parseLines generationOfFile rest
    else match parseLine generationOfFile line with
      | none => parseLines generationOfFile rest
      | some (.rotate lsn generation) => .rotate lsn generation :: parseLines generation rest
      | some event => event :: parseLines generationOfFile rest

/-- `#parseFile`. It is given the bytes: that the file cannot be read is left to its callers. -/
def parseFile (generationOfName : Nat) (content : Bytes) : List CanonicalEvent :=
  parseLines generationOfName (readLines content)

/-- The fields of a line that was accepted. Which digits the numbers are written with is left
open. -/
theorem parseLine_eq_some {generation : Nat} {line : JsString} {event : CanonicalEvent}
    (h : parseLine generation line = some event) :
    ∃ lsnText type payload, line = lsnText ++ colon :: (type ++ colon :: payload) ∧
      colon ∉ lsnText ∧ colon ∉ type ∧ numberOf lsnText = some event.lsn ∧
      ((type = [0x52] ∧ ∃ marker, event = .rotate event.lsn marker) ∨
        (type = [0x45] ∨ type = [0x54]) ∧ ∃ lenText item, payload = lenText ++ colon :: item ∧
          colon ∉ lenText ∧ numberOf lenText = some item.length ∧
          (event = .entry event.lsn generation item ∨ event = .tombstone event.lsn generation item)) := by
  simp only [parseLine, Option.bind_eq_bind, Option.bind_eq_some_iff, guard] at h
  obtain ⟨⟨lsnText, rest⟩, hFirst, -, -, ⟨type, payload⟩, hSecond, lsn, hLsn, -, -, h⟩ := h
  obtain ⟨rfl, hLsnText⟩ := splitFirst_eq_some_iff.mp hFirst
  obtain ⟨rfl, hType⟩ := splitFirst_eq_some_iff.mp hSecond
  refine ⟨lsnText, type, payload, rfl, hLsnText, hType, ?_⟩
  have hPayload : ∀ {build : JsString → CanonicalEvent},
      ((splitFirst colon payload).bind fun parts => (numberOf parts.1).bind fun len =>
        (if parts.2.length = len then pure () else failure : Option Unit).bind fun _ =>
          pure (build parts.2)) = some event →
      ∃ lenText item, payload = lenText ++ colon :: item ∧ colon ∉ lenText ∧
        numberOf lenText = some item.length ∧ build item = event := by
    intro build h
    obtain ⟨⟨lenText, item⟩, hThird, h⟩ := Option.bind_eq_some_iff.mp h
    obtain ⟨hEq, hLenText⟩ := splitFirst_eq_some_iff.mp hThird
    obtain ⟨len, hLen, h⟩ := Option.bind_eq_some_iff.mp h
    by_cases hLength : item.length = len
    · subst hLength
      exact ⟨lenText, item, hEq, hLenText, hLen, by simpa using h⟩
    · simp [hLength] at h
  dsimp only at h
  split_ifs at h with hRotate hItem
  · obtain ⟨marker, -, h⟩ := Option.bind_eq_some_iff.mp h
    cases h
    exact ⟨hLsn, Or.inl ⟨hRotate, marker, rfl⟩⟩
  · obtain ⟨lenText, item, rfl, hLenText, hLen, h⟩ := hPayload h
    exact ⟨h ▸ hLsn, Or.inr ⟨hItem, lenText, item, rfl, hLenText, hLen, Or.inl (by rw [← h]; rfl)⟩⟩
  · obtain ⟨lenText, item, rfl, hLenText, hLen, h⟩ := hPayload h
    exact ⟨h ▸ hLsn, Or.inr ⟨hItem, lenText, item, rfl, hLenText, hLen, Or.inr (by rw [← h]; rfl)⟩⟩

theorem colon_not_mem_decimal (n : Nat) : colon ∉ decimal n := by
  intro h
  have hDigit := isDigit_of_mem_decimal h
  exact absurd hDigit (by decide)

theorem decimal_no_surrogate (n : Nat) : ∀ c ∈ decimal n, isSurrogate c = false := by
  intro c hc
  have hDigit := isDigit_of_mem_decimal hc
  simp only [isDigit, Bool.and_eq_true, decide_eq_true_eq] at hDigit
  simp only [isSurrogate, isHigh, isLow, Bool.or_eq_false_iff, Bool.and_eq_false_iff,
    decide_eq_false_iff_not]
  omega

namespace Line

variable {line : Line} {generation : Nat}

theorem type_eq (line : Line) : line.type = 0x45 ∨ line.type = 0x54 ∨ line.type = 0x52 := by
  cases line with
  | entry => exact Or.inl rfl
  | tombstone => exact Or.inr (Or.inl rfl)
  | rotate => exact Or.inr (Or.inr rfl)

/-- Only the item of a line can contain surrogates. -/
theorem toWellFormed_text (line : Line) : toWellFormed line.text = line.wellFormed.text := by
  have hColon : isSurrogate colon = false := by decide
  have hType : isSurrogate line.type = false := by
    rcases line.type_eq with h | h | h <;> rw [h] <;> decide
  have hPayload : toWellFormed line.payload = line.wellFormed.payload := by
    cases line with
    | entry lsn item | tombstone lsn item =>
        simp only [payload, wellFormed, length_toWellFormed]
        rw [toWellFormed_append (decimal_no_surrogate _), toWellFormed_cons hColon]
    | rotate lsn generation =>
        simpa [payload, wellFormed, toWellFormed] using
          toWellFormed_append (decimal_no_surrogate generation) []
  rw [text, toWellFormed_append (decimal_no_surrogate _), toWellFormed_cons hColon,
    toWellFormed_cons hType, toWellFormed_cons hColon, hPayload]
  cases line <;> rfl

theorem wellFormed_valid (h : line.Valid) : line.wellFormed.Valid := by
  cases line with
  | entry lsn item | tombstone lsn item => exact ⟨h.1, h.2.toWellFormed⟩
  | rotate lsn generation => exact h

theorem lsn_pos (h : line.Valid) : 0 < line.lsn := by
  cases line with
  | entry lsn item | tombstone lsn item => exact h.1
  | rotate lsn generation => exact h

@[simp] theorem lsn_wellFormed (line : Line) : line.wellFormed.lsn = line.lsn := by cases line <;> rfl

theorem text_ne_nil (line : Line) : line.text ≠ [] := by
  simp [text]

theorem newline_not_mem_text (h : line.Valid) : newline ∉ line.text := by
  have hDecimal : ∀ n, newline ∉ decimal n := by
    intro n hMem
    exact absurd (isDigit_of_mem_decimal hMem) (by decide)
  have hType : newline ≠ line.type := by
    rcases line.type_eq with h | h | h <;> rw [h] <;> decide
  have hColon : newline ≠ colon := by decide
  have hPayload : newline ∉ line.payload := by
    cases line with
    | entry lsn item | tombstone lsn item =>
        simp only [payload, List.mem_append, List.mem_cons, not_or]
        exact ⟨hDecimal _, hColon, h.2.newline_not_mem⟩
    | rotate lsn generation => exact hDecimal _
  simp only [text, List.mem_append, List.mem_cons, not_or]
  exact ⟨hDecimal _, hColon, hType, hColon, hPayload⟩

/-- A line that was written whole is parsed back. -/
theorem parseLine_text (h : 0 < line.lsn) (generation : Nat) :
    parseLine generation line.text = some (line.event generation) := by
  have hType : colon ∉ [line.type] := by
    rcases line.type_eq with h | h | h <;> rw [h] <;> decide
  have hSplit : splitFirst colon (line.type :: colon :: line.payload) =
      some ([line.type], line.payload) := splitFirst_append hType _
  simp only [parseLine, text, splitFirst_append (colon_not_mem_decimal _), hSplit, numberOf_decimal,
    Option.bind_eq_bind, Option.bind_some, guard, decimal_ne_nil, ne_eq, not_false_eq_true, if_true,
    h, Option.pure_def]
  cases line with
  | entry lsn item | tombstone lsn item =>
      simp [payload, type, splitFirst_append (colon_not_mem_decimal _), event, Line.lsn]
  | rotate lsn marker => simp [payload, type, event, Line.lsn]

end Line

/-- The events of whole lines, in a file of the given generation. -/
def stamp (generationOfFile : Nat) : List Line → List CanonicalEvent
  | [] => []
  | .rotate lsn generation :: rest => .rotate lsn generation :: stamp generation rest
  | line :: rest => line.event generationOfFile :: stamp generationOfFile rest

theorem parseLines_text (generation : Nat) {lines : List Line} (hLines : ∀ l ∈ lines, 0 < l.lsn)
    (rest : List JsString) :
    ∃ last, parseLines generation (lines.map Line.text ++ rest) =
      stamp generation lines ++ parseLines last rest := by
  induction lines generalizing generation with
  | nil => exact ⟨generation, rfl⟩
  | cons line lines ih =>
      have hLine := hLines line (by simp)
      have hRest : ∀ l ∈ lines, 0 < l.lsn := fun l hl => hLines l (by simp [hl])
      simp only [List.map_cons, List.cons_append, parseLines, Line.text_ne_nil, if_false,
        Line.parseLine_text hLine]
      cases line with
      | entry lsn item | tombstone lsn item =>
          obtain ⟨last, hLast⟩ := ih generation hRest
          exact ⟨last, by simp [Line.event, stamp, hLast]⟩
      | rotate lsn marker =>
          obtain ⟨last, hLast⟩ := ih marker hRest
          exact ⟨last, by simp [Line.event, stamp, hLast]⟩

/-- What a file holds whose lines were all appended whole, whatever follows them. -/
theorem parseFile_append (generation : Nat) {lines : List Line} (hLines : ∀ l ∈ lines, l.Valid)
    (tail : Bytes) :
    ∃ last, parseFile generation (encodeLines (lines.map Line.text) ++ tail) =
      stamp generation (lines.map Line.wellFormed) ++ parseLines last (readLines tail) := by
  have hNewline : ∀ l ∈ lines.map Line.text, newline ∉ l := by
    intro l hl
    obtain ⟨line, hLine, rfl⟩ := List.mem_map.mp hl
    exact Line.newline_not_mem_text (hLines line hLine)
  have hTexts : (lines.map Line.text).map toWellFormed = (lines.map Line.wellFormed).map Line.text := by
    simp [Line.toWellFormed_text, Function.comp_def]
  rw [parseFile, readLines_encodeLines_append hNewline, hTexts]
  refine parseLines_text generation ?_ _
  intro l hl
  obtain ⟨line, hLine, rfl⟩ := List.mem_map.mp hl
  exact Line.lsn_pos (Line.wellFormed_valid (hLines line hLine))

theorem parseFile_lines (generation : Nat) {lines : List Line} (hLines : ∀ l ∈ lines, l.Valid) :
    parseFile generation (encodeLines (lines.map Line.text)) =
      stamp generation (lines.map Line.wellFormed) := by
  obtain ⟨last, h⟩ := parseFile_append generation hLines []
  simpa [readLines_nil, parseLines] using h

end TokenRevoker
