import TokenRevoker.Library.AtomicFile
import TokenRevoker.Library.Json
import TokenRevoker.Server.Coordinator

/-! The meta file of a coordinator as bytes on disk, through the writes of all its lives.
What the models of the coordinator and of its starts keep as an optional state is what such a
file is read as. -/
namespace TokenRevoker

open Text AtomicFile

/-- A meta state as it is written: the last LSN of a log that has not been initialized is -1. -/
structure SavedMeta where
  generation : Nat
  lastLsn : Int
  lastBackupLsn : Nat
  deriving DecidableEq

namespace SavedMeta

def ofState (s : MetaState) : SavedMeta := ⟨s.generation, s.lastLsn, s.lastBackupLsn⟩

def record (s : SavedMeta) : List (JsString × Json.Scalar) :=
  [(Json.word "generation", .number s.generation), (Json.word "lastLsn", .number s.lastLsn),
    (Json.word "lastBackupLsn", .number s.lastBackupLsn)]

/-- `JSON.stringify(state)` as it is written. -/
def bytes (s : SavedMeta) : Bytes := encodeUtf8 (Json.stringify s.record)

/-- Every number is a safe integer. -/
def Safe (s : SavedMeta) : Prop := s.generation < 2 ^ 53 ∧ s.lastLsn.natAbs < 2 ^ 53 ∧ s.lastBackupLsn < 2 ^ 53

instance (s : SavedMeta) : Decidable s.Safe :=
  inferInstanceAs (Decidable (s.generation < 2 ^ 53 ∧ s.lastLsn.natAbs < 2 ^ 53 ∧ s.lastBackupLsn < 2 ^ 53))

end SavedMeta

namespace Meta

def readFailed (filePath message : String) : RevokerError :=
  .internalError s!"Failed to read coordinator meta file {filePath}: {message}"

def invalidJson (filePath message : String) : RevokerError :=
  .internalError (s!"Corrupt coordinator meta file at {filePath} (invalid JSON): {message}. " ++
    "Refusing to start — inspect the file and repair or wipe the data dir explicitly.")

def notAnObject (filePath : String) : RevokerError :=
  .internalError s!"Corrupt coordinator meta file at {filePath}: expected a JSON object."

def invalidShape (filePath : String) : RevokerError :=
  .internalError (s!"Corrupt coordinator meta file at {filePath}: generation/lastLsn/lastBackupLsn " ++
    "must be non-negative integers.")

/-- The checks of `read` on a parsed file; an array is an object without the counters. -/
def ofJson (filePath : String) (parsed : Json.Value) : Except RevokerError MetaState :=
  match parsed with
  | .array _ | .object _ =>
    match Json.nonNegativeInteger (Json.property parsed (Json.word "generation")),
        Json.nonNegativeInteger (Json.property parsed (Json.word "lastLsn")),
        Json.nonNegativeInteger (Json.property parsed (Json.word "lastBackupLsn")) with
    | some generation, some lastLsn, some lastBackupLsn => .ok ⟨generation, lastLsn, lastBackupLsn⟩
    | _, _, _ => .error (invalidShape filePath)
  | _ => .error (notAnObject filePath)

/-- `read` on the bytes of the file, if there is one. `syntaxError` is what `JSON.parse` says
of a text that is not JSON. -/
def load (filePath : String) (syntaxError : JsString → String) (unreadable : Option String)
    (file : Option Bytes) : Except RevokerError MetaState :=
  match file, unreadable with
  | none, _ => .ok emptyMetaState
  | some _, some message => .error (readFailed filePath message)
  | some raw, none =>
    match Json.parse (decodeUtf8 raw) with
    | none => .error (invalidJson filePath (syntaxError (decodeUtf8 raw)))
    | some parsed => ofJson filePath parsed

/-- The object of a written state, by its members. -/
theorem ofJson_object (filePath : String) (generation lastLsn lastBackupLsn : Json.Value) :
    ofJson filePath (.object [(Json.word "lastBackupLsn", lastBackupLsn), (Json.word "lastLsn", lastLsn),
      (Json.word "generation", generation)]) =
        match Json.nonNegativeInteger (some generation), Json.nonNegativeInteger (some lastLsn),
          Json.nonNegativeInteger (some lastBackupLsn) with
        | some generation, some lastLsn, some lastBackupLsn => .ok ⟨generation, lastLsn, lastBackupLsn⟩
        | _, _, _ => .error (invalidShape filePath) := rfl

end Meta

namespace SavedMeta

/-- `read` of a file that was written as a whole. -/
def read (filePath : String) (unreadable : Option String) : Option SavedMeta → Except RevokerError MetaState
  | none => .ok emptyMetaState
  | some saved =>
    match unreadable with
    | some message => .error (Meta.readFailed filePath message)
    | none =>
      if saved.lastLsn < 0 then .error (Meta.invalidShape filePath)
      else .ok ⟨saved.generation, saved.lastLsn.toNat, saved.lastBackupLsn⟩

/-- These are the checks of `read` on the object that has been written. -/
theorem ofJson_saved (filePath : String) {saved : SavedMeta} (hSafe : saved.Safe) :
    Meta.ofJson filePath (.object (saved.record.map fun m => (m.1, m.2.value)).reverse) =
      SavedMeta.read filePath none (some saved) := by
  obtain ⟨hGeneration, hLastLsn, hLastBackupLsn⟩ := hSafe
  have hObject : (saved.record.map fun m => (m.1, m.2.value)).reverse =
      [(Json.word "lastBackupLsn", .number (saved.lastBackupLsn : ℤ)), (Json.word "lastLsn", .number saved.lastLsn),
        (Json.word "generation", .number (saved.generation : ℤ))] := rfl
  rw [hObject]
  simp only [Meta.ofJson_object, Json.nonNegativeInteger_natCast hGeneration, Json.nonNegativeInteger_intCast hLastLsn,
    Json.nonNegativeInteger_natCast hLastBackupLsn, SavedMeta.read]
  by_cases hNegative : saved.lastLsn < 0
  · rw [if_pos hNegative, if_neg (Int.not_le.mpr hNegative)]
  · rw [if_neg hNegative, if_pos (Int.not_lt.mp hNegative)]

end SavedMeta

namespace MetaFile

inductive Action where
  /-- `write`, whose `writeSync` may be cut short. It fails or the process dies behind so many
  of its steps, unless it takes all four. -/
  | write (state : SavedMeta) (short : Option Nat) (steps : Nat)
  | powerLoss (back : Nat) (lost : Bytes)
  deriving DecidableEq

def step (d : Directory UInt8) : Action → Directory UInt8
  | .write state short steps => d.save (wrote state.bytes short) steps
  | .powerLoss back lost => d.powerLoss back lost

/-- The directory after the writes of all lives. -/
def run (actions : List Action) : Directory UInt8 := actions.foldl step {}

/-- The answers that the versions of the file give. -/
def answers (filePath : String) (syntaxError : JsString → String)
    (versions : List (Except RevokerError MetaState)) : Action → List (Except RevokerError MetaState)
  | .write state short steps => saved versions (if wrote state.bytes short = state.bytes then
      SavedMeta.read filePath none (some state) else
      .error (Meta.invalidJson filePath (syntaxError (decodeUtf8 (wrote state.bytes short))))) steps
  | .powerLoss back _ => reverted versions back

/-- The meta file of the model of the starts: a write that is not completed leaves it as it is. -/
def completed (metaFile : Option SavedMeta) : Action → Option SavedMeta
  | .write state _ steps => if 4 ≤ steps then some state else metaFile
  | .powerLoss _ _ => metaFile

namespace Action

/-- The numbers are exact. -/
def Safe : Action → Prop
  | .write state _ _ => state.Safe
  | .powerLoss _ _ => True

instance : (a : Action) → Decidable a.Safe
  | .write state _ _ => inferInstanceAs (Decidable state.Safe)
  | .powerLoss _ _ => inferInstanceAs (Decidable True)

/-- The write puts such a file in place. -/
def Places (state : SavedMeta) (whole : Bool) : Action → Prop
  | .write state' short steps => state' = state ∧ decide (wrote state.bytes short = state.bytes) = whole ∧ 4 ≤ steps
  | .powerLoss _ _ => False

/-- No power is lost, and no completed write leaves less than it was given. -/
def Regular : Action → Prop
  | .write _ short steps => 4 ≤ steps → short = none
  | .powerLoss _ _ => False

instance : (a : Action) → Decidable a.Regular
  | .write _ short steps => inferInstanceAs (Decidable (4 ≤ steps → short = none))
  | .powerLoss _ _ => inferInstanceAs (Decidable False)

end Action

variable {filePath : String} {syntaxError : JsString → String} {d : Directory UInt8} {actions : List Action}

theorem load_wrote {state : SavedMeta} (hSafe : state.Safe) (short : Option Nat) :
    Meta.load filePath syntaxError none (some (wrote state.bytes short)) =
      if wrote state.bytes short = state.bytes then SavedMeta.read filePath none (some state)
      else .error (Meta.invalidJson filePath (syntaxError (decodeUtf8 (wrote state.bytes short)))) := by
  have hWords : ∀ key ∈ [Json.word "generation", Json.word "lastLsn", Json.word "lastBackupLsn"],
    Json.Plain key := by decide
  have hParse := @Json.parse_file state.record (fun m hm => hWords m.1 (List.mem_map_of_mem hm)) _
    (wrote_isPrefix state.bytes short)
  rw [Meta.load, hParse]
  by_cases hWhole : wrote state.bytes short = state.bytes
  · rw [if_pos hWhole, if_pos (show wrote state.bytes short = encodeUtf8 (Json.stringify state.record) from hWhole)]
    exact SavedMeta.ofJson_saved filePath hSafe
  · rw [if_neg hWhole, if_neg (show ¬ wrote state.bytes short = encodeUtf8 (Json.stringify state.record) from hWhole)]

/-- The file answers as its writes say, and so does every version it may be taken back to. -/
theorem answers_run (hSafe : ∀ a ∈ actions, a.Safe) (hDurable : d.Durable) :
    (actions.foldl step d).versions.map (Meta.load filePath syntaxError none) =
      actions.foldl (answers filePath syntaxError) (d.versions.map (Meta.load filePath syntaxError none)) := by
  induction actions generalizing d with
  | nil => rfl
  | cons a actions ih =>
      have hRest := fun b hb => hSafe b (List.mem_cons_of_mem _ hb)
      have hFirst := hSafe a List.mem_cons_self
      cases a with
      | write state short steps =>
          have hState : state.Safe := hFirst
          rw [List.foldl_cons, List.foldl_cons, step, answers, ih hRest (hDurable.save _ _), Directory.versions_save,
            map_saved, load_wrote hState]
      | powerLoss back lost =>
          obtain ⟨hKept, hVersions⟩ := hDurable.powerLoss back lost
          rw [List.foldl_cons, List.foldl_cons, step, answers, ih hRest hKept, hVersions, map_reverted]

/-- Where an answer comes from. -/
def Stems (all : List Action) : Except RevokerError MetaState → Prop
  | .ok state => state = emptyMetaState ∨ ∃ a ∈ all, a.Places (.ofState state) true
  | .error _ => ∃ a ∈ all, ∃ saved, a.Places saved false ∨ a.Places saved true ∧ saved.lastLsn < 0

/-- A whole file gives what it was written from, unless that is refused. -/
theorem stems_read {all : List Action} {a : Action} (hMem : a ∈ all) {saved : SavedMeta} (hPlaces : a.Places saved true) :
    Stems all (SavedMeta.read filePath none (some saved)) := by
  rw [SavedMeta.read]
  split_ifs with hNegative
  · exact ⟨a, hMem, saved, .inr ⟨hPlaces, hNegative⟩⟩
  · refine .inr ⟨a, hMem, ?_⟩
    rwa [SavedMeta.ofState, Int.toNat_of_nonneg (Int.not_lt.mp hNegative)]

theorem stems_answers {all : List Action} (hAll : ∀ a ∈ actions, a ∈ all)
    {versions : List (Except RevokerError MetaState)} (h : ∀ v ∈ versions, Stems all v) :
    ∀ v ∈ actions.foldl (answers filePath syntaxError) versions, Stems all v := by
  induction actions generalizing versions with
  | nil => exact h
  | cons a actions ih =>
      refine ih (fun b hb => hAll b (List.mem_cons_of_mem _ hb)) fun v hv => ?_
      have hMem := hAll a List.mem_cons_self
      cases a with
      | write state short steps =>
          rcases mem_of_mem_saved hv with ⟨rfl, hSteps⟩ | hOld
          · split_ifs with hWhole
            · exact stems_read hMem ⟨rfl, decide_eq_true hWhole, hSteps⟩
            · exact ⟨_, hMem, state, .inl ⟨rfl, decide_eq_false hWhole, hSteps⟩⟩
          · exact h v hOld
      | powerLoss back lost => exact h v (mem_of_mem_reverted hv)

theorem head_answers (hRegular : ∀ a ∈ actions, a.Regular) {versions : List (Except RevokerError MetaState)}
    {metaFile : Option SavedMeta} (h : versions.head? = some (SavedMeta.read filePath none metaFile)) :
    (actions.foldl (answers filePath syntaxError) versions).head? =
      some (SavedMeta.read filePath none (actions.foldl completed metaFile)) := by
  induction actions generalizing versions metaFile with
  | nil => exact h
  | cons a actions ih =>
      refine ih (fun b hb => hRegular b (List.mem_cons_of_mem _ hb)) ?_
      have hFirst := hRegular a List.mem_cons_self
      cases a with
      | write state short steps =>
          have hWhole : 4 ≤ steps → short = none := hFirst
          rw [answers, saved, completed]
          split_ifs with hSteps hCut
          · rfl
          · rw [hWhole hSteps] at hCut
            exact absurd rfl hCut
          · exact h
      | powerLoss back lost => exact hFirst.elim

/-- Whatever writes fail, processes die or power losses take back renames, a read of the meta
file gives a state that was written as a whole, or the empty one; it fails only behind a write
that left less than it was given or was given a negative last LSN, which a shutdown writes
whose start could not read the log. Without a short write and without a power loss it gives
what the models of the coordinator keep, where such a state is refused. That the file can be
read at all is assumed, and that its numbers are safe integers. -/
theorem whole_or_refused (filePath : String) (syntaxError : JsString → String) (hSafe : ∀ a ∈ actions, a.Safe) :
    (∀ state, Meta.load filePath syntaxError none (run actions).read = .ok state →
      state = emptyMetaState ∨ ∃ a ∈ actions, a.Places (.ofState state) true) ∧
    (∀ error, Meta.load filePath syntaxError none (run actions).read = .error error →
      ∃ a ∈ actions, ∃ saved, a.Places saved false ∨ a.Places saved true ∧ saved.lastLsn < 0) ∧
    ((∀ a ∈ actions, a.Regular) → Meta.load filePath syntaxError none (run actions).read =
      SavedMeta.read filePath none (actions.foldl completed none)) := by
  have hVersions : (run actions).versions.map (Meta.load filePath syntaxError none) =
      actions.foldl (answers filePath syntaxError) [.ok emptyMetaState] :=
    answers_run hSafe fun inode hMem => by simp at hMem
  have hHead : (actions.foldl (answers filePath syntaxError) [.ok emptyMetaState]).head? =
      some (Meta.load filePath syntaxError none (run actions).read) := by
    rw [← hVersions, List.head?_map, Directory.head?_versions, Option.map_some]
  have hEmpty : Stems actions (.ok emptyMetaState) := Or.inl rfl
  have hStems : Stems actions (Meta.load filePath syntaxError none (run actions).read) :=
    stems_answers (fun _ ha => ha) (List.forall_mem_singleton.mpr hEmpty) _ (List.mem_of_mem_head? hHead)
  refine ⟨fun state h => ?_, fun error h => ?_, fun hRegular => ?_⟩
  · rwa [h] at hStems
  · rwa [h] at hStems
  · exact Option.some.inj (hHead.symm.trans (head_answers hRegular rfl))

/-- A rotation's checkpoint behind one that was cut short by a crash, and a shutdown whose start
could not read the log. -/
theorem whole_or_refused_crashed : Meta.load "meta.json" (fun _ => "") none
      (run [.write ⟨0, 4, 0⟩ none 4, .write ⟨1, 5, 5⟩ (some 7) 2, .write ⟨1, 6, 5⟩ none 3]).read = .ok ⟨0, 4, 0⟩ ∧
    Meta.load "meta.json" (fun _ => "") none (run [.write ⟨1, 6, 5⟩ none 4, .write ⟨1, -1, 5⟩ none 4]).read =
      .error (Meta.invalidShape "meta.json") :=
  ⟨(whole_or_refused "meta.json" (fun _ => "") (by decide)).2.2 (by decide),
    (whole_or_refused "meta.json" (fun _ => "") (by decide)).2.2 (by decide)⟩

end MetaFile

end TokenRevoker
