import TokenRevoker.Library.KeyedLog
import TokenRevoker.Server.CanonicalEvent

/-! The canonical write-ahead log: one append-only file per generation. An LSN is
taken before its line is written, so a failed append leaves the LSN unused. Every listed
file can be read here: the error of `#parseFile` on one that cannot, which stops a read, a
scan or a retention, is part of `WalDirectory`. -/
namespace TokenRevoker

open Text

/-- The log in memory, and its files by ascending generation. -/
structure CanonicalWal where
  dir : String
  revokerId : String
  files : List (Nat × Bytes) := []
  nextLsn : Nat := 0
  generation : Nat := 0
  deletedMaxLsn : Nat := 0
  initialized : Bool := false
  deriving DecidableEq

/-- What `scan` finds: the highest LSN and the highest generation. -/
structure CanonicalWalScan where
  maxLsn : Nat
  maxGeneration : Nat
  deriving DecidableEq

/-- `appendFileSync` on the file of a generation, which it creates if need be. -/
def appendFile (generation : Nat) (bytes : Bytes) : List (Nat × Bytes) → List (Nat × Bytes)
  | [] => [(generation, bytes)]
  | file :: rest =>
    if file.1 = generation then (generation, file.2 ++ bytes) :: rest
    else if generation < file.1 then (generation, bytes) :: file :: rest
    else file :: appendFile generation bytes rest

/-- The events of one file. -/
def fileEvents (file : Nat × Bytes) : List CanonicalEvent := parseFile file.1 file.2

def maxLsn (events : List CanonicalEvent) : Nat := events.foldl (fun top event => max top event.lsn) 0

namespace CanonicalWal

def init (wal : CanonicalWal) (nextLsn generation deletedMaxLsn : Nat) : CanonicalWal :=
  { wal with
    nextLsn := nextLsn
    generation := generation
    deletedMaxLsn := deletedMaxLsn
    initialized := true }

def lastLsn (wal : CanonicalWal) : Nat := wal.nextLsn - 1

def canServeFrom (wal : CanonicalWal) (fromLsn : Nat) : Bool := decide (wal.deletedMaxLsn ≤ fromLsn)

def fileName (wal : CanonicalWal) (generation : Nat) : String :=
  let revokerId := wal.revokerId
  s!"canonical-{revokerId}-{generation}.wal"

def filePath (wal : CanonicalWal) (generation : Nat) : String := wal.dir ++ "/" ++ wal.fileName generation

def notInitialized : RevokerError :=
  .internalError "CanonicalWal is not initialized — call init() first"

def appendFailed (wal : CanonicalWal) (message : String) : RevokerError :=
  let path := wal.filePath wal.generation
  .internalError s!"Failed to append to canonical WAL {path}: {message}"

/-- `#appendLine`. A `fault` is the error `appendFileSync` throws; it persists nothing then. -/
def appendLine (wal : CanonicalWal) (fault : Option String) (line : Line) :
    CanonicalWal × Except RevokerError Unit :=
  if wal.initialized = false then (wal, .error notInitialized)
  else match fault with
    | some message => (wal, .error (wal.appendFailed message))
    | none =>
      ({ wal with files := appendFile wal.generation (encodeUtf8 (line.text ++ [newline])) wal.files },
        .ok ())

def appendEntry (wal : CanonicalWal) (fault : Option String) (item : JsString) :
    CanonicalWal × Except RevokerError Nat :=
  let lsn := wal.nextLsn
  let taken := { wal with nextLsn := wal.nextLsn + 1 }
  match taken.appendLine fault (.entry lsn item) with
  | (wal, .error error) => (wal, .error error)
  | (wal, .ok ()) => (wal, .ok lsn)

def appendTombstone (wal : CanonicalWal) (fault : Option String) (lsn : Nat) (item : JsString) :
    CanonicalWal × Except RevokerError Unit :=
  wal.appendLine fault (.tombstone lsn item)

def appendRotate (wal : CanonicalWal) (fault : Option String) (generation : Nat) :
    CanonicalWal × Except RevokerError Nat :=
  let lsn := wal.nextLsn
  let taken := { wal with nextLsn := wal.nextLsn + 1 }
  match taken.appendLine fault (.rotate lsn generation) with
  | (wal, .error error) => (wal, .error error)
  | (wal, .ok ()) => ({ wal with generation := generation }, .ok lsn)

/-- All events of the retained files, in the order they are read. -/
def events (wal : CanonicalWal) : List CanonicalEvent := wal.files.flatMap fileEvents

def readSince (wal : CanonicalWal) (fromLsn maxEvents : Nat) : Except RevokerError (List CanonicalEvent) :=
  if wal.initialized = false then .error notInitialized
  else
    let sorted := KeyedLog.ordered CanonicalEvent.lsn (wal.events.filter fun event => fromLsn < event.lsn)
    if 0 < maxEvents && maxEvents < sorted.length then .ok (sorted.take maxEvents) else .ok sorted

def scan (wal : CanonicalWal) : CanonicalWalScan where
  maxLsn := maxLsn wal.events
  maxGeneration := wal.files.foldl (fun top file =>
    (fileEvents file).foldl (fun top event =>
      match event with
      | .rotate _ generation => max top generation
      | _ => top) (max top file.1)) 0

/-- `truncateOldGenerations` deletes this file: it is older than the generations
to keep and holds nothing above the floor. -/
def deletable (keepFromGeneration lsnFloor : Nat) (file : Nat × Bytes) : Bool :=
  decide (file.1 < keepFromGeneration) && decide (maxLsn (fileEvents file) ≤ lsnFloor)

/-- One `unlinkSync` that succeeds. -/
def unlink (wal : CanonicalWal) (file : Nat × Bytes) : CanonicalWal :=
  { wal with
    files := wal.files.filter fun other => other.1 ≠ file.1
    deletedMaxLsn := max wal.deletedMaxLsn (maxLsn (fileEvents file)) }

/-- The files `truncateOldGenerations` unlinks, where `unlinkFails` says for which
generations the call throws. -/
def doomed (wal : CanonicalWal) (keepFromGeneration lsnFloor : Nat) (unlinkFails : Nat → Bool) :
    List (Nat × Bytes) :=
  wal.files.filter fun file => deletable keepFromGeneration lsnFloor file && !unlinkFails file.1

def truncateOldGenerations (wal : CanonicalWal) (keepFromGeneration lsnFloor : Nat)
    (unlinkFails : Nat → Bool) : CanonicalWal × Except RevokerError (List String) :=
  if wal.initialized = false then (wal, .error notInitialized)
  else
    let doomed := wal.doomed keepFromGeneration lsnFloor unlinkFails
    (doomed.foldl unlink wal, .ok (doomed.map fun file => wal.fileName file.1))

end CanonicalWal

section AppendFile

variable {generation : Nat} {bytes : Bytes} {file : Nat × Bytes} {files : List (Nat × Bytes)}

theorem exists_mem_appendFile (generation : Nat) (bytes : Bytes) (files : List (Nat × Bytes)) :
    ∃ file ∈ appendFile generation bytes files, file.1 = generation := by
  induction files with
  | nil => exact ⟨_, List.mem_cons_self, rfl⟩
  | cons head rest ih =>
      obtain ⟨file, hFile, hSame⟩ := ih
      rw [appendFile]
      split_ifs
      · exact ⟨_, List.mem_cons_self, rfl⟩
      · exact ⟨_, List.mem_cons_self, rfl⟩
      · exact ⟨file, List.mem_cons_of_mem _ hFile, hSame⟩

/-- Files of other generations are as they were. -/
theorem mem_of_mem_appendFile (h : file ∈ appendFile generation bytes files) :
    file.1 = generation ∨ file ∈ files := by
  induction files with
  | nil =>
      rw [appendFile, List.mem_singleton] at h
      exact Or.inl (congrArg Prod.fst h)
  | cons head rest ih =>
      rw [appendFile] at h
      split_ifs at h
      · rcases List.mem_cons.mp h with rfl | hMem
        · exact Or.inl rfl
        · exact Or.inr (List.mem_cons_of_mem _ hMem)
      · rcases List.mem_cons.mp h with rfl | hMem
        · exact Or.inl rfl
        · exact Or.inr hMem
      · rcases List.mem_cons.mp h with rfl | hMem
        · exact Or.inr List.mem_cons_self
        · exact (ih hMem).imp_right (List.mem_cons_of_mem _)

end AppendFile

/-- The lines that were appended to the file of one generation, each of them whole. -/
structure Segment where
  generation : Nat
  lines : List Line
  deriving DecidableEq

namespace Segment

def file (segment : Segment) : Nat × Bytes :=
  (segment.generation, encodeLines (segment.lines.map Line.text))

/-- The events the file is read as. -/
def events (segment : Segment) : List CanonicalEvent :=
  stamp segment.generation (segment.lines.map Line.wellFormed)

def Valid (segment : Segment) : Prop := ∀ line ∈ segment.lines, line.Valid

/-- Appending lines to the file of a generation. Without lines it only creates
the file. -/
def push (generation : Nat) (lines : List Line) : List Segment → List Segment
  | [] => [⟨generation, lines⟩]
  | segment :: rest =>
    if segment.generation = generation then ⟨generation, segment.lines ++ lines⟩ :: rest
    else if generation < segment.generation then ⟨generation, lines⟩ :: segment :: rest
    else segment :: push generation lines rest

theorem fileEvents_file {segment : Segment} (h : segment.Valid) :
    fileEvents segment.file = segment.events :=
  parseFile_lines segment.generation h

variable {generation : Nat} {lines : List Line} {segments : List Segment} {segment : Segment}

theorem appendFile_push (generation : Nat) (lines : List Line) (segments : List Segment) :
    appendFile generation (encodeLines (lines.map Line.text)) (segments.map file) =
      (push generation lines segments).map file := by
  induction segments with
  | nil => simp [appendFile, push, file]
  | cons segment rest ih =>
      simp only [List.map_cons, appendFile, push, file]
      split_ifs with hSame hLess
      · simp [encodeLines_append, file]
      · simp [file]
      · rw [List.map_cons, ← ih]
        rfl

theorem valid_push (hLines : ∀ line ∈ lines, line.Valid) (h : ∀ segment ∈ segments, segment.Valid) :
    ∀ segment ∈ push generation lines segments, segment.Valid := by
  induction segments with
  | nil =>
      intro segment hMem
      rw [push, List.mem_singleton] at hMem
      subst hMem
      exact hLines
  | cons head rest ih =>
      have hHead := h head (by simp)
      have hRest : ∀ segment ∈ rest, segment.Valid := fun segment hs => h segment (by simp [hs])
      intro segment hMem
      rw [push] at hMem
      split_ifs at hMem
      · rcases List.mem_cons.mp hMem with rfl | hMem
        · intro l hl
          rcases List.mem_append.mp hl with hl | hl
          · exact hHead l hl
          · exact hLines l hl
        · exact hRest segment hMem
      · rcases List.mem_cons.mp hMem with rfl | hMem
        · exact hLines
        · exact h segment hMem
      · rcases List.mem_cons.mp hMem with rfl | hMem
        · exact hHead
        · exact ih hRest segment hMem

/-- Sorted segments have nothing behind the newest generation. -/
theorem rest_eq_nil {head : Segment} {rest : List Segment}
    (h : ∀ segment ∈ head :: rest, segment.generation ≤ generation)
    (hSorted : (head :: rest).Pairwise fun a b => a.generation < b.generation)
    (hSame : head.generation = generation) : rest = [] := by
  refine List.eq_nil_iff_forall_not_mem.mpr fun segment hs => ?_
  have hLess := (List.pairwise_cons.mp hSorted).1 segment hs
  have hLe := h segment (by simp [hs])
  omega

/-- Lines for the newest generation are the last lines of the log. -/
theorem flatMap_lines_push (h : ∀ segment ∈ segments, segment.generation ≤ generation)
    (hSorted : segments.Pairwise fun a b => a.generation < b.generation) (lines : List Line) :
    (push generation lines segments).flatMap Segment.lines = segments.flatMap Segment.lines ++ lines := by
  induction segments with
  | nil => simp [push]
  | cons head rest ih =>
      rw [push]
      split_ifs with hSame hLess
      · simp [rest_eq_nil h hSorted hSame]
      · have := h head (by simp)
        omega
      · rw [List.flatMap_cons, ih (fun segment hs => h segment (by simp [hs]))
          (List.pairwise_cons.mp hSorted).2]
        simp

theorem generation_push (h : segment ∈ push generation lines segments) :
    segment.generation = generation ∨ ∃ old ∈ segments, old.generation = segment.generation := by
  induction segments with
  | nil =>
      rw [push, List.mem_singleton] at h
      exact Or.inl (by rw [h])
  | cons head rest ih =>
      rw [push] at h
      split_ifs at h
      · rcases List.mem_cons.mp h with rfl | h
        · exact Or.inl rfl
        · exact Or.inr ⟨segment, by simp [h], rfl⟩
      · rcases List.mem_cons.mp h with rfl | h
        · exact Or.inl rfl
        · exact Or.inr ⟨segment, h, rfl⟩
      · rcases List.mem_cons.mp h with rfl | h
        · exact Or.inr ⟨segment, by simp, rfl⟩
        · rcases ih h with hEq | ⟨old, hOld, hEq⟩
          · exact Or.inl hEq
          · exact Or.inr ⟨old, by simp [hOld], hEq⟩

theorem sorted_push (hSorted : segments.Pairwise fun a b => a.generation < b.generation) :
    (push generation lines segments).Pairwise fun a b => a.generation < b.generation := by
  induction segments with
  | nil => simp [push]
  | cons head rest ih =>
      obtain ⟨hHead, hRest⟩ := List.pairwise_cons.mp hSorted
      rw [push]
      split_ifs with hSame hLess
      · refine List.pairwise_cons.mpr ⟨fun segment hs => ?_, hRest⟩
        have := hHead segment hs
        simp only
        omega
      · refine List.pairwise_cons.mpr ⟨fun segment hs => ?_, hSorted⟩
        rcases List.mem_cons.mp hs with rfl | hs
        · exact hLess
        · exact hLess.trans (hHead segment hs)
      · refine List.pairwise_cons.mpr ⟨fun segment hs => ?_, ih hRest⟩
        rcases generation_push hs with hEq | ⟨old, hOld, hEq⟩
        · omega
        · rw [← hEq]
          exact hHead old hOld

/-- Bytes at the end of the newest file add the events that their own lines parse to. -/
theorem events_appendFile (hValid : ∀ segment ∈ segments, segment.Valid)
    (h : ∀ segment ∈ segments, segment.generation ≤ generation)
    (hSorted : segments.Pairwise fun a b => a.generation < b.generation) (tail : Bytes) :
    ∃ last, (appendFile generation tail (segments.map file)).flatMap fileEvents =
      segments.flatMap events ++ parseLines last (readLines tail) := by
  induction segments with
  | nil => exact ⟨generation, by simp [appendFile, fileEvents, parseFile]⟩
  | cons head rest ih =>
      have hHead := hValid head (by simp)
      have hRest : ∀ segment ∈ rest, segment.Valid := fun segment hs => hValid segment (by simp [hs])
      simp only [List.map_cons, appendFile, file]
      split_ifs with hSame hLess
      · obtain ⟨last, hLast⟩ := parseFile_append head.generation hHead tail
        refine ⟨last, ?_⟩
        rw [rest_eq_nil h hSorted hSame]
        simp [fileEvents, ← hSame, hLast, events]
      · have := h head (by simp)
        omega
      · obtain ⟨last, hLast⟩ := ih hRest (fun segment hs => h segment (by simp [hs]))
          (List.pairwise_cons.mp hSorted).2
        refine ⟨last, ?_⟩
        rw [List.flatMap_cons, List.flatMap_cons, List.append_assoc, ← hLast]
        congr 1
        exact fileEvents_file hHead

theorem events_files (hValid : ∀ segment ∈ segments, segment.Valid) :
    (segments.map file).flatMap fileEvents = segments.flatMap events := by
  rw [List.flatMap_map]
  exact List.flatMap_congr fun segment hs => fileEvents_file (hValid segment hs)

end Segment

end TokenRevoker
