import Mathlib.Data.List.Basic

/-! A file that is replaced as a whole. The new content goes to a temporary file, which is
synced and renamed. The process may die behind any step; the directory is never synced, so
that a power loss may take back renames, and it spoils what was not synced. -/
namespace AtomicFile

variable {β : Type}

structure Inode (β : Type) where
  content : List β
  synced : Bool
  deriving DecidableEq

/-- What a power loss leaves of a file. -/
def Inode.lose (lost : List β) (inode : Inode β) : Inode β :=
  if inode.synced then inode else ⟨lost, true⟩

structure Directory (β : Type) where
  target : Option (Inode β) := none
  tmp : Option (Inode β) := none
  /-- What the name stood for before, the latest first. -/
  past : List (Option (Inode β)) := []
  deriving DecidableEq

/-- What a write leaves that may be cut short without an error. -/
def wrote (content : List β) (short : Option Nat) : List β :=
  match short with
  | none => content
  | some count => content.take count

theorem wrote_isPrefix (content : List β) (short : Option Nat) : wrote content short <+: content := by
  cases short with
  | none => exact List.prefix_rfl
  | some count => exact List.take_prefix count content

namespace Directory

def openTmp (d : Directory β) : Directory β := { d with tmp := some ⟨[], false⟩ }

def write (written : List β) (d : Directory β) : Directory β :=
  { d with tmp := d.tmp.map fun _ => ⟨written, false⟩ }

def sync (d : Directory β) : Directory β :=
  { d with tmp := d.tmp.map fun inode => { inode with synced := true } }

def rename (d : Directory β) : Directory β :=
  match d.tmp with
  | none => d
  | some inode => { target := some inode, tmp := none, past := d.target :: d.past }

/-- A save that comes so many steps far. The steps are open, write, sync and rename; a process
may die between any two of them. -/
def save (d : Directory β) (written : List β) (steps : Nat) : Directory β :=
  ([openTmp, write written, sync, rename].take steps).foldl (fun d step => step d) d

/-- The name stands for what it stood for so many renames ago, or still does. -/
def powerLoss (d : Directory β) (back : Nat) (lost : List β) : Directory β where
  target := (((d.target :: d.past)[back]?).getD d.target).map (Inode.lose lost)
  tmp := d.tmp.map (Inode.lose lost)
  past := []

/-- What a read gets. -/
def read (d : Directory β) : Option (List β) := d.target.map Inode.content

/-- All that the name has stood for since the last power loss, the latest first. A power loss
may bring any one of them back, and no other. -/
def versions (d : Directory β) : List (Option (List β)) :=
  (d.target :: d.past).map (Option.map Inode.content)

/-- The name has only stood for synced files. So what it stands for has the bytes it was given,
unless the write itself was short. -/
def Durable (d : Directory β) : Prop := ∀ inode, some inode ∈ d.target :: d.past → inode.synced = true

end Directory

/-- What a save that comes so many steps far makes of the versions of a file. -/
def saved {α : Type} (versions : List α) (version : α) (steps : Nat) : List α :=
  if 4 ≤ steps then version :: versions else versions

/-- What a power loss makes of them. -/
def reverted {α : Type} (versions : List α) (back : Nat) : List α :=
  (versions[back]?.or versions.head?).toList

theorem map_saved {α γ : Type} (f : α → γ) (versions : List α) (version : α) (steps : Nat) :
    (saved versions version steps).map f = saved (versions.map f) (f version) steps := by
  rw [saved, saved]
  split_ifs <;> rfl

theorem map_reverted {α γ : Type} (f : α → γ) (versions : List α) (back : Nat) :
    (reverted versions back).map f = reverted (versions.map f) back := by
  rw [reverted, reverted, List.getElem?_map, List.head?_map]
  cases versions[back]? <;> cases versions.head? <;> rfl

theorem mem_of_mem_saved {α : Type} {versions : List α} {version v : α} {steps : Nat}
    (h : v ∈ saved versions version steps) : v = version ∧ 4 ≤ steps ∨ v ∈ versions := by
  unfold saved at h
  split_ifs at h with hAll
  · exact (List.mem_cons.mp h).imp_left fun hNew => ⟨hNew, hAll⟩
  · exact .inr h

theorem mem_of_mem_reverted {α : Type} {versions : List α} {v : α} {back : Nat} (h : v ∈ reverted versions back) :
    v ∈ versions := by
  rw [reverted, Option.mem_toList] at h
  cases hAt : versions[back]? with
  | none =>
      rw [hAt, Option.none_or] at h
      exact List.mem_of_mem_head? h
  | some w =>
      rw [hAt, Option.some_or] at h
      exact List.mem_of_getElem? (hAt.trans h)

namespace Directory

variable {d : Directory β}

theorem head?_versions (d : Directory β) : d.versions.head? = some d.read := rfl

/-- A save replaces the file or leaves it, and only if all its steps are taken. -/
theorem save_eq (d : Directory β) (written : List β) (steps : Nat) :
    (d.save written steps).target = (if 4 ≤ steps then some ⟨written, true⟩ else d.target) ∧
      (d.save written steps).past = if 4 ≤ steps then d.target :: d.past else d.past := by
  match steps with
  | 0 | 1 | 2 | 3 => exact ⟨rfl, rfl⟩
  | steps + 4 =>
      rw [save, List.take_of_length_le (Nat.le_add_left 4 steps), if_pos (Nat.le_add_left 4 steps),
        if_pos (Nat.le_add_left 4 steps)]
      exact ⟨rfl, rfl⟩

theorem versions_save (d : Directory β) (written : List β) (steps : Nat) :
    (d.save written steps).versions = saved d.versions (some written) steps := by
  obtain ⟨hTarget, hPast⟩ := d.save_eq written steps
  rw [versions, hTarget, hPast, saved]
  split_ifs <;> rfl

theorem Durable.save (h : d.Durable) (written : List β) (steps : Nat) : (d.save written steps).Durable := by
  obtain ⟨hTarget, hPast⟩ := d.save_eq written steps
  intro inode hMem
  rw [hTarget, hPast] at hMem
  split_ifs at hMem with hAll
  · rcases List.mem_cons.mp hMem with hNew | hOld
    · cases hNew
      rfl
    · exact h inode hOld
  · exact h inode hMem

/-- A version that a power loss brings back is whole. -/
theorem Durable.powerLoss (h : d.Durable) (back : Nat) (lost : List β) :
    (d.powerLoss back lost).Durable ∧ (d.powerLoss back lost).versions = reverted d.versions back := by
  have hKept : ∀ entry ∈ d.target :: d.past, entry.map (Inode.lose lost) = entry := by
    intro entry hMem
    cases entry with
    | none => rfl
    | some inode => rw [Option.map_some, Inode.lose, if_pos (h inode hMem)]
  have hMem : ((d.target :: d.past)[back]?).getD d.target ∈ d.target :: d.past := by
    cases hAt : (d.target :: d.past)[back]? with
    | none => exact List.mem_cons_self
    | some entry => exact List.mem_of_getElem? hAt
  refine ⟨fun inode hInode => ?_, ?_⟩
  · rw [Directory.powerLoss, hKept _ hMem, List.mem_singleton] at hInode
    exact h inode (hInode ▸ hMem)
  · rw [Directory.powerLoss, versions, hKept _ hMem, versions, reverted, List.getElem?_map, List.map_singleton]
    cases (d.target :: d.past)[back]? <;> rfl

end Directory

end AtomicFile
