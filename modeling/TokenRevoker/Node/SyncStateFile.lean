import TokenRevoker.Library.AtomicFile
import TokenRevoker.Library.Json
import TokenRevoker.Node.SelfRotation

/-! The sync state file of a node as bytes on disk, through the updates of all its lives. What
the node model keeps as an optional state is what such a file is read as: one that is torn
counts as absent. -/
namespace TokenRevoker

open Text AtomicFile

namespace SyncState

def record (s : SyncState) : List (JsString × Json.Scalar) :=
  [(Json.word "lastLsn", .number s.lastLsn), (Json.word "generation", .number s.generation),
    (Json.word "dirty", .bool s.dirty)]

/-- `JSON.stringify(state)` as it is written. -/
def bytes (s : SyncState) : Bytes := encodeUtf8 (Json.stringify s.record)

/-- Both numbers are safe integers. -/
def Safe (s : SyncState) : Prop := s.lastLsn < 2 ^ 53 ∧ s.generation < 2 ^ 53

instance (s : SyncState) : Decidable s.Safe := inferInstanceAs (Decidable (s.lastLsn < 2 ^ 53 ∧ s.generation < 2 ^ 53))

end SyncState

/-- `{ ...current, ...partial }`. -/
def SyncStateUpdate.merge (update : SyncStateUpdate) (current : SyncState) : SyncState where
  lastLsn := update.lastLsn.getD current.lastLsn
  generation := update.generation.getD current.generation
  dirty := update.dirty.getD current.dirty

namespace StateFile

/-- `raw.dirty === true`. -/
def isTrue : Option Json.Value → Bool
  | some (.bool b) => b
  | _ => false

/-- `read` on the bytes of the file. Whatever throws, a property of `null` included, is caught. -/
def load (file : Option Bytes) (readable : Bool) : Option SyncState := do
  let raw ← file
  guard (readable = true)
  let parsed ← Json.parse (decodeUtf8 raw)
  let lastLsn ← Json.nonNegativeInteger (Json.property parsed (Json.word "lastLsn"))
  let generation ← Json.nonNegativeInteger (Json.property parsed (Json.word "generation"))
  return ⟨lastLsn, generation, isTrue (Json.property parsed (Json.word "dirty"))⟩

/-- `write`, whose `writeSync` may be cut short, as far as it comes. -/
def write (d : Directory UInt8) (state : SyncState) (short : Option Nat) (steps : Nat) : Directory UInt8 :=
  d.save (wrote state.bytes short) steps

/-- `update`. -/
def update (d : Directory UInt8) (change : SyncStateUpdate) (readable : Bool) (short : Option Nat) (steps : Nat) :
    Directory UInt8 :=
  write d (change.merge ((load d.read readable).getD ⟨0, 0, false⟩)) short steps

inductive Action where
  | write (state : SyncState) (short : Option Nat) (steps : Nat)
  | update (change : SyncStateUpdate) (readable : Bool) (short : Option Nat) (steps : Nat)
  | powerLoss (back : Nat) (lost : Bytes)
  deriving DecidableEq

def step (d : Directory UInt8) : Action → Directory UInt8
  | .write state short steps => write d state short steps
  | .update change readable short steps => update d change readable short steps
  | .powerLoss back lost => d.powerLoss back lost

/-- The directory after the writes of all lives. -/
def run (actions : List Action) : Directory UInt8 := actions.foldl step {}

/-- What a read of the latest version gives. -/
def latest (versions : List (Option SyncState)) (readable : Bool) : Option SyncState :=
  if readable then versions.head?.join else none

def rememberWrite (versions : List (Option SyncState)) (state : SyncState) (short : Option Nat) (steps : Nat) :
    List (Option SyncState) :=
  saved versions (if wrote state.bytes short = state.bytes then some state else none) steps

/-- The states that the versions of the file are read as. -/
def remember (versions : List (Option SyncState)) : Action → List (Option SyncState)
  | .write state short steps => rememberWrite versions state short steps
  | .update change readable short steps =>
      rememberWrite versions (change.merge ((latest versions readable).getD ⟨0, 0, false⟩)) short steps
  | .powerLoss back _ => reverted versions back

/-- The same action on the files of the node model, where a write happens or fails. -/
def onFiles (files : NodeFiles) : Action → NodeFiles
  | .write state _ steps => if 4 ≤ steps then { files with state := some state } else files
  | .update change readable _ steps =>
      files.update readable (if 4 ≤ steps then .ok () else .error "interrupted") change
  | .powerLoss _ _ => files

namespace Action

/-- The numbers are exact. -/
def Safe : Action → Prop
  | .write state _ _ => state.Safe
  | .update change _ _ _ => change.lastLsn.getD 0 < 2 ^ 53 ∧ change.generation.getD 0 < 2 ^ 53
  | .powerLoss _ _ => True

instance : (a : Action) → Decidable a.Safe
  | .write state _ _ => inferInstanceAs (Decidable state.Safe)
  | .update change _ _ _ =>
      inferInstanceAs (Decidable (change.lastLsn.getD 0 < 2 ^ 53 ∧ change.generation.getD 0 < 2 ^ 53))
  | .powerLoss _ _ => inferInstanceAs (Decidable True)

/-- An update of the LSN is one of the generation. The engine's are, and the node's own is one
of neither. -/
def Paired : Action → Prop
  | .update change _ _ _ => change.lastLsn.isSome = change.generation.isSome
  | .write _ _ _ | .powerLoss _ _ => True

instance : (a : Action) → Decidable a.Paired
  | .update change _ _ _ => inferInstanceAs (Decidable (change.lastLsn.isSome = change.generation.isSome))
  | .write _ _ _ | .powerLoss _ _ => inferInstanceAs (Decidable True)

/-- The action puts such an LSN and such a generation in place. -/
def Gives (lastLsn generation : Nat) : Action → Prop
  | .write state _ steps => state.lastLsn = lastLsn ∧ state.generation = generation ∧ 4 ≤ steps
  | .update change _ _ steps => change.lastLsn = some lastLsn ∧ change.generation = some generation ∧ 4 ≤ steps
  | .powerLoss _ _ => False

/-- No power is lost, and no completed write leaves less than it was given. -/
def Regular : Action → Prop
  | .write _ short steps | .update _ _ short steps => 4 ≤ steps → short = none
  | .powerLoss _ _ => False

instance : (a : Action) → Decidable a.Regular
  | .write _ short steps | .update _ _ short steps => inferInstanceAs (Decidable (4 ≤ steps → short = none))
  | .powerLoss _ _ => inferInstanceAs (Decidable False)

end Action

variable {d : Directory UInt8} {actions : List Action} {versions : List (Option SyncState)}

theorem load_wrote {state : SyncState} (hSafe : state.Safe) (short : Option Nat) :
    load (some (wrote state.bytes short)) true = if wrote state.bytes short = state.bytes then some state else none := by
  have hWords : ∀ key ∈ [Json.word "lastLsn", Json.word "generation", Json.word "dirty"], Json.Plain key := by decide
  have hParse := @Json.parse_file state.record (fun m hm => hWords m.1 (List.mem_map_of_mem hm)) _
    (wrote_isPrefix state.bytes short)
  obtain ⟨hLastLsn, hGeneration⟩ := hSafe
  simp only [load, hParse, Option.bind_eq_bind, Option.bind_some]
  by_cases hWhole : wrote state.bytes short = state.bytes
  · have hFields : Json.property (.object (state.record.map fun m => (m.1, m.2.value)).reverse) (Json.word "lastLsn") =
          some (.number (state.lastLsn : ℤ)) ∧
        Json.property (.object (state.record.map fun m => (m.1, m.2.value)).reverse) (Json.word "generation") =
          some (.number (state.generation : ℤ)) ∧
        Json.property (.object (state.record.map fun m => (m.1, m.2.value)).reverse) (Json.word "dirty") =
          some (.bool state.dirty) := ⟨rfl, rfl, rfl⟩
    rw [if_pos hWhole, if_pos (show wrote state.bytes short = encodeUtf8 (Json.stringify state.record) from hWhole),
      Option.bind_some, hFields.1, hFields.2.1, hFields.2.2, Json.nonNegativeInteger_natCast hLastLsn,
      Json.nonNegativeInteger_natCast hGeneration]
    rfl
  · rw [if_neg hWhole, if_neg (show ¬ wrote state.bytes short = encodeUtf8 (Json.stringify state.record) from hWhole)]
    rfl

/-- Every state that has been remembered is exact. -/
def AllSafe (versions : List (Option SyncState)) : Prop := ∀ state, some state ∈ versions → state.Safe

theorem AllSafe.latest (h : AllSafe versions) (readable : Bool) :
    ((latest versions readable).getD ⟨0, 0, false⟩).Safe := by
  cases hLatest : StateFile.latest versions readable with
  | none => exact ⟨by decide, by decide⟩
  | some state =>
      simp only [StateFile.latest, Option.ite_none_right_eq_some] at hLatest
      exact h state (List.mem_of_mem_head? (Option.join_eq_some_iff.mp hLatest.2))

theorem safe_merge {change : SyncStateUpdate} {current : SyncState}
    (hChange : change.lastLsn.getD 0 < 2 ^ 53 ∧ change.generation.getD 0 < 2 ^ 53) (hCurrent : current.Safe) :
    (change.merge current).Safe := by
  obtain ⟨lastLsn, generation, dirty⟩ := change
  constructor
  · cases lastLsn with
    | none => exact hCurrent.1
    | some lsn => exact hChange.1
  · cases generation with
    | none => exact hCurrent.2
    | some generation => exact hChange.2

theorem AllSafe.write (h : AllSafe versions) {state : SyncState} (hState : state.Safe) (short : Option Nat)
    (steps : Nat) : AllSafe (rememberWrite versions state short steps) := by
  intro other hMem
  rcases mem_of_mem_saved hMem with ⟨hNew, -⟩ | hOld
  · split_ifs at hNew
    exact Option.some.inj hNew ▸ hState
  · exact h other hOld

/-- The versions of the file are read as these states. -/
structure Reads (d : Directory UInt8) (versions : List (Option SyncState)) : Prop where
  durable : d.Durable
  states : (d.versions.map fun file => load file true) = versions
  safe : AllSafe versions

theorem Reads.load (h : Reads d versions) (readable : Bool) : load d.read readable = latest versions readable := by
  have hHead : versions.head? = some (StateFile.load d.read true) := by
    rw [← h.states, List.head?_map, Directory.head?_versions, Option.map_some]
  cases readable with
  | true => rw [latest, if_pos rfl, hHead, Option.join_some]
  | false => cases d.read <;> rfl

theorem Reads.write (h : Reads d versions) {state : SyncState} (hState : state.Safe) (short : Option Nat)
    (steps : Nat) : Reads (write d state short steps) (rememberWrite versions state short steps) where
  durable := h.durable.save _ _
  states := by
    rw [StateFile.write, Directory.versions_save, map_saved, h.states, load_wrote hState]
    rfl
  safe := h.safe.write hState short steps

theorem Reads.step (h : Reads d versions) {a : Action} (hSafe : a.Safe) : Reads (step d a) (remember versions a) := by
  cases a with
  | write state short steps => exact h.write hSafe short steps
  | update change readable short steps =>
      rw [StateFile.step, update, h.load, remember]
      exact h.write (safe_merge hSafe (h.safe.latest readable)) short steps
  | powerLoss back lost =>
      obtain ⟨hDurable, hVersions⟩ := h.durable.powerLoss back lost
      exact {
        durable := hDurable
        states := by rw [StateFile.step, hVersions, map_reverted, h.states, remember]
        safe := fun state hMem => h.safe state (mem_of_mem_reverted hMem) }

theorem Reads.run (h : Reads d versions) (hSafe : ∀ a ∈ actions, a.Safe) :
    Reads (actions.foldl StateFile.step d) (actions.foldl remember versions) := by
  induction actions generalizing d versions with
  | nil => exact h
  | cons a actions ih =>
      exact ih (h.step (hSafe a List.mem_cons_self)) fun b hb => hSafe b (List.mem_cons_of_mem _ hb)

/-- The LSN and the generation of a state were given together. -/
def Together (all : List Action) (state : SyncState) : Prop :=
  (state.lastLsn = 0 ∧ state.generation = 0) ∨ ∃ a ∈ all, a.Gives state.lastLsn state.generation

theorem together_write {all : List Action} (h : ∀ state, some state ∈ versions → Together all state)
    {state : SyncState} {steps : Nat} (hState : 4 ≤ steps → Together all state) (short : Option Nat) :
    ∀ other, some other ∈ rememberWrite versions state short steps → Together all other := by
  intro other hMem
  rcases mem_of_mem_saved hMem with ⟨hNew, hSteps⟩ | hOld
  · split_ifs at hNew
    exact Option.some.inj hNew ▸ hState hSteps
  · exact h other hOld

theorem together_remember {all : List Action} (hAll : ∀ a ∈ actions, a ∈ all) (hPaired : ∀ a ∈ actions, a.Paired)
    (h : ∀ state, some state ∈ versions → Together all state) :
    ∀ state, some state ∈ actions.foldl remember versions → Together all state := by
  induction actions generalizing versions with
  | nil => exact h
  | cons a actions ih =>
      have hMem := hAll a List.mem_cons_self
      have hPair := hPaired a List.mem_cons_self
      refine ih (fun b hb => hAll b (List.mem_cons_of_mem _ hb))
        (fun b hb => hPaired b (List.mem_cons_of_mem _ hb)) ?_
      cases a with
      | write state short steps =>
          exact together_write h (fun hSteps => .inr ⟨_, hMem, rfl, rfl, hSteps⟩) short
      | update change readable short steps =>
          have hCurrent : Together all ((latest versions readable).getD ⟨0, 0, false⟩) := by
            cases hLatest : latest versions readable with
            | none => exact .inl ⟨rfl, rfl⟩
            | some state =>
                simp only [latest, Option.ite_none_right_eq_some] at hLatest
                exact h state (List.mem_of_mem_head? (Option.join_eq_some_iff.mp hLatest.2))
          refine together_write h (fun hSteps => ?_) short
          obtain ⟨lastLsn, generation, dirty⟩ := change
          have hPair : lastLsn.isSome = generation.isSome := hPair
          cases lastLsn with
          | none =>
              cases generation with
              | none => exact hCurrent
              | some generation => cases hPair
          | some lsn =>
              cases generation with
              | none => cases hPair
              | some generation => exact .inr ⟨_, hMem, rfl, rfl, hSteps⟩
      | powerLoss back lost => exact fun state hState => h state (mem_of_mem_reverted hState)

theorem head_remember {files : NodeFiles} (hRegular : ∀ a ∈ actions, a.Regular)
    (h : versions.head? = some files.state) :
    (actions.foldl remember versions).head? = some (actions.foldl onFiles files).state := by
  have hRead : ∀ (versions : List (Option SyncState)) (files : NodeFiles), versions.head? = some files.state →
      ∀ readable, latest versions readable = files.read readable := by
    intro versions files hHead readable
    rw [latest, hHead, Option.join_some, NodeFiles.read]
  induction actions generalizing versions files with
  | nil => exact h
  | cons a actions ih =>
      refine ih (fun b hb => hRegular b (List.mem_cons_of_mem _ hb)) ?_
      have hFirst := hRegular a List.mem_cons_self
      cases a with
      | write state short steps =>
          have hWhole : 4 ≤ steps → short = none := hFirst
          rw [remember, onFiles, rememberWrite, saved]
          split_ifs with hSteps hShort
          · rfl
          · exact absurd (by rw [hWhole hSteps]; rfl) hShort
          · exact h
      | update change readable short steps =>
          have hWhole : 4 ≤ steps → short = none := hFirst
          rw [remember, onFiles, rememberWrite, saved, hRead versions files h]
          split_ifs with hSteps hShort
          · rfl
          · exact absurd (by rw [hWhole hSteps]; rfl) hShort
          · exact h
      | powerLoss back lost => exact hFirst.elim

/-- Whatever updates fail, processes die, writes are cut short or power losses take back
renames, a state that is read has an LSN and a generation that were given together. Without a
power loss and a write cut short it is the state of the node model. The hypotheses hold of every
caller: the engine and the node give both numbers or neither, and numbers that are safe
integers. -/
theorem given_together (hSafe : ∀ a ∈ actions, a.Safe) (hPaired : ∀ a ∈ actions, a.Paired) :
    (∀ readable state, load (run actions).read readable = some state →
      (state.lastLsn = 0 ∧ state.generation = 0) ∨ ∃ a ∈ actions, a.Gives state.lastLsn state.generation) ∧
    ∀ files : NodeFiles, files.state = none → (∀ a ∈ actions, a.Regular) → ∀ readable,
      load (run actions).read readable = (actions.foldl onFiles files).read readable := by
  have hStart : Reads {} [none] := {
    durable := fun inode hMem => by simp at hMem
    states := rfl
    safe := fun state hMem => by simp at hMem }
  have hReads : Reads (run actions) (actions.foldl remember [none]) := hStart.run hSafe
  refine ⟨fun readable state hLoad => ?_, fun files hNone hRegular readable => ?_⟩
  · rw [hReads.load, latest, Option.ite_none_right_eq_some] at hLoad
    exact together_remember (fun _ ha => ha) hPaired (fun state hMem => by simp at hMem) state
      (List.mem_of_mem_head? (Option.join_eq_some_iff.mp hLoad.2))
  · have hHead : (actions.foldl remember [none]).head? = some (actions.foldl onFiles files).state :=
      head_remember hRegular (by rw [hNone]; rfl)
    rw [hReads.load, latest, hHead, Option.join_some, NodeFiles.read]

/-- An engine's update behind a snapshot, and a dirty flag that was cut off. -/
theorem given_together_cut : load (run [.write ⟨7, 2, false⟩ none 4, .update ⟨some 8, some 2, none⟩ true none 4,
    .update ⟨none, none, some true⟩ true (some 11) 3]).read true = some ⟨8, 2, false⟩ :=
  ((given_together (by decide) (by decide)).2 ⟨⟨none, none, []⟩, none⟩ rfl (by decide) true).trans (by decide)

end StateFile

end TokenRevoker
