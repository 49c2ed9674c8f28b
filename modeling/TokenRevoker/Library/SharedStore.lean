import Mathlib.Data.List.AList
import Mathlib.Data.List.Sort
import Mathlib.Tactic.Common

/-! A store of named contents that several owners share. The name of an entry is made
of its owner and a number, and an owner finds its own entries by reading the numbers off
all names. -/
namespace SharedStore

/-- Names from which an owner reads the numbers of its own entries, and of no others.
Injectivity is all that keeps the owners of one directory apart. -/
structure Naming (Owner Name : Type*) where
  name : Owner → Nat → Name
  read : Owner → Name → Option Nat
  read_name : ∀ o n, read o (name o n) = some n
  owner_of_read : ∀ {o o' n m}, read o (name o' n) = some m → o' = o

variable {Owner Name Content : Type*} (naming : Naming Owner Name) {o o' : Owner} {n m : Nat}
  {x : Name} {names : List Name}

namespace Naming

theorem name_inj (h : naming.name o n = naming.name o' m) : o = o' ∧ n = m := by
  have hRead := naming.read_name o' m
  rw [← h] at hRead
  obtain rfl := naming.owner_of_read hRead
  rw [naming.read_name, Option.some.injEq] at hRead
  exact ⟨rfl, hRead⟩

/-- No owner reads the name as one of its own. Foreign names may do as they like. -/
def Foreign (x : Name) : Prop := ∀ o, naming.read o x = none

/-- Every name was made for an owner, or belongs to nobody. It is what a directory must satisfy
before anybody uses it, and stays so. -/
def Regular (names : List Name) : Prop := ∀ x ∈ names, (∃ o n, x = naming.name o n) ∨ naming.Foreign x

variable {naming}

theorem Foreign.ne_name (h : naming.Foreign x) (o : Owner) (n : Nat) : naming.name o n ≠ x := by
  rintro rfl
  have hRead := naming.read_name o n
  rw [h o] at hRead
  cases hRead

theorem Regular.mono {names' : List Name} (h : naming.Regular names)
    (hSubset : ∀ x ∈ names', x ∈ names) : naming.Regular names' :=
  fun x hx => h x (hSubset x hx)

theorem Regular.cons (h : naming.Regular names)
    (hx : (∃ o n, x = naming.name o n) ∨ naming.Foreign x) : naming.Regular (x :: names) :=
  List.forall_mem_cons.mpr ⟨hx, h⟩

/-- In such a place the number determines the name. -/
theorem Regular.read_eq_some_iff (h : naming.Regular names) (hx : x ∈ names) :
    naming.read o x = some n ↔ x = naming.name o n := by
  refine ⟨fun hRead => ?_, fun hName => ?_⟩
  · rcases h x hx with ⟨o', n', rfl⟩ | hForeign
    · obtain rfl := naming.owner_of_read hRead
      rw [naming.read_name, Option.some.injEq] at hRead
      rw [hRead]
    · rw [hForeign o] at hRead
      cases hRead
  · rw [hName, naming.read_name]

variable (naming)

/-- The numbers an owner reads off the names, with the names, by ascending number. -/
def listing (o : Owner) (names : List Name) : List (Nat × Name) :=
  (names.filterMap fun x => (naming.read o x).map fun n => (n, x)).insertionSort fun a b => a.1 ≤ b.1

theorem mem_listing : (n, x) ∈ naming.listing o names ↔ x ∈ names ∧ naming.read o x = some n := by
  simp only [listing, List.mem_insertionSort, List.mem_filterMap, Option.map_eq_some_iff, Prod.mk.injEq]
  constructor
  · rintro ⟨y, hy, m, hRead, rfl, rfl⟩
    exact ⟨hy, hRead⟩
  · rintro ⟨hx, hRead⟩
    exact ⟨x, hx, n, hRead, rfl, rfl⟩

variable {naming}

theorem Regular.mem_listing (h : naming.Regular names) :
    (n, x) ∈ naming.listing o names ↔ x ∈ names ∧ x = naming.name o n :=
  (naming.mem_listing).trans (and_congr_right fun hx => h.read_eq_some_iff hx)

end Naming

/-- The numbers ascend, so that each occurs once. -/
def Ascending {α : Type*} (l : List (Nat × α)) : Prop := l.Pairwise fun a b => a.1 < b.1

namespace Ascending

variable {α : Type*} {l l' : List (Nat × α)}

/-- Ascending lists with the same members are the same. -/
theorem ext (h : Ascending l) (h' : Ascending l') (hMem : ∀ entry, entry ∈ l ↔ entry ∈ l') : l = l' := by
  have hIrrefl : Std.Irrefl fun a b : Nat × α => a.1 < b.1 := ⟨fun a => Nat.lt_irrefl a.1⟩
  have hAsymm : Std.Antisymm fun a b : Nat × α => a.1 < b.1 :=
    ⟨fun a b hab hba => absurd hab (Nat.lt_asymm hba)⟩
  exact List.Pairwise.eq_of_mem_iff h h' fun {entry} => hMem entry

theorem filter (h : Ascending l) (p : Nat × α → Bool) : Ascending (l.filter p) := List.Pairwise.filter p h

end Ascending

namespace Naming

variable {naming}

theorem Regular.ascending_listing (h : naming.Regular names) (hNodup : names.Nodup) (o : Owner) :
    Ascending (naming.listing o names) := by
  have hSorted : (naming.listing o names).Pairwise fun a b => a.1 ≤ b.1 := by
    have hTotal : Std.Total fun a b : Nat × Name => a.1 ≤ b.1 := ⟨fun a b => Nat.le_total a.1 b.1⟩
    have hTrans : IsTrans (Nat × Name) fun a b => a.1 ≤ b.1 := ⟨fun _ _ _ => Nat.le_trans⟩
    exact List.pairwise_insertionSort _ _
  -- two names with one number are one name
  have hDistinct : (naming.listing o names).Pairwise fun a b => a.1 ≠ b.1 := by
    refine List.Perm.pairwise (List.perm_insertionSort _ _).symm ?_ fun hne => hne.symm
    rw [List.pairwise_filterMap]
    refine List.Pairwise.imp_of_mem ?_ hNodup
    intro x y hx hy hne
    simp only [Option.map_eq_some_iff, forall_exists_index, and_imp]
    rintro _ n hReadX rfl _ m hReadY rfl (hEq : n = m)
    refine hne ?_
    rw [(h.read_eq_some_iff hx).mp hReadX, (h.read_eq_some_iff hy).mp hReadY, hEq]
  exact (hSorted.and hDistinct).imp fun ⟨hLe, hne⟩ => Nat.lt_of_le_of_ne hLe hne

/-- The order in which the names are read does not matter. -/
theorem Regular.listing_perm {names' : List Name} (h : naming.Regular names) (hNodup : names.Nodup)
    (hPerm : names.Perm names') (o : Owner) : naming.listing o names = naming.listing o names' := by
  have h' : naming.Regular names' := h.mono fun x hx => hPerm.mem_iff.mpr hx
  refine (h.ascending_listing hNodup o).ext (h'.ascending_listing (hPerm.nodup_iff.mp hNodup) o) ?_
  rintro ⟨n, x⟩
  rw [h.mem_listing, h'.mem_listing, hPerm.mem_iff]

end Naming

section Contents

variable [DecidableEq Name] {naming} {store store' : AList fun _ : Name => Content} {content : Content}

/-- The entries of an owner, by ascending number. It does not depend on the entries of other
owners. -/
def contents (naming : Naming Owner Name) (o : Owner) (store : AList fun _ : Name => Content) :
    List (Nat × Content) :=
  (naming.listing o store.keys).filterMap fun entry =>
    (store.lookup entry.2).map fun content => (entry.1, content)

theorem mem_contents (h : naming.Regular store.keys) :
    (n, content) ∈ contents naming o store ↔ store.lookup (naming.name o n) = some content := by
  simp only [contents, List.mem_filterMap, Option.map_eq_some_iff, Prod.mk.injEq, Prod.exists]
  constructor
  · rintro ⟨m, x, hMem, found, hFound, rfl, rfl⟩
    rw [← (h.mem_listing.mp hMem).2]
    exact hFound
  · intro hLookup
    have hMem : naming.name o n ∈ store.keys := by
      rw [← AList.mem_keys, ← AList.lookup_isSome, hLookup]
      rfl
    exact ⟨n, naming.name o n, h.mem_listing.mpr ⟨hMem, rfl⟩, content, hLookup, rfl, rfl⟩

theorem ascending_contents (h : naming.Regular store.keys) (o : Owner) :
    Ascending (contents naming o store) := by
  rw [Ascending, contents, List.pairwise_filterMap]
  refine List.Pairwise.imp ?_ (h.ascending_listing store.keys_nodup o)
  intro a b hLt
  simp only [Option.map_eq_some_iff, forall_exists_index, and_imp]
  rintro _ _ - rfl _ _ - rfl
  exact hLt

/-- Frame rule: an owner whose entries are all as they were has the contents it had. -/
theorem contents_congr (h : naming.Regular store.keys) (h' : naming.Regular store'.keys)
    (hSame : ∀ n, store'.lookup (naming.name o n) = store.lookup (naming.name o n)) :
    contents naming o store' = contents naming o store := by
  refine (ascending_contents h' o).ext (ascending_contents h o) ?_
  rintro ⟨n, content⟩
  rw [mem_contents h', mem_contents h, hSame]

theorem regular_insert (h : naming.Regular store.keys)
    (hx : (∃ o n, x = naming.name o n) ∨ naming.Foreign x) (content : Content) :
    naming.Regular (store.insert x content).keys := by
  rw [AList.keys_insert]
  exact (h.mono fun y hy => List.mem_of_mem_erase hy).cons hx

theorem regular_erase (h : naming.Regular store.keys) (x : Name) : naming.Regular (store.erase x).keys := by
  rw [AList.keys_erase]
  exact h.mono fun y hy => List.mem_of_mem_erase hy

/-- Erasing an entry of the owner leaves its other entries. -/
theorem contents_erase (h : naming.Regular store.keys) (o : Owner) (n : Nat) :
    contents naming o (store.erase (naming.name o n)) =
      (contents naming o store).filter fun entry => entry.1 ≠ n := by
  refine (ascending_contents (regular_erase h _) o).ext ((ascending_contents h o).filter _) ?_
  rintro ⟨m, content⟩
  rw [mem_contents (regular_erase h _), List.mem_filter, mem_contents h]
  by_cases hm : m = n
  · subst hm
    simp [AList.lookup_erase]
  · have hne : naming.name o m ≠ naming.name o n := fun hName => hm (naming.name_inj hName).2
    simp [hm, AList.lookup_erase_ne hne]

/-- The listing names the contents. -/
theorem listing_eq (h : naming.Regular store.keys) (o : Owner) :
    naming.listing o store.keys =
      (contents naming o store).map fun entry => (entry.1, naming.name o entry.1) := by
  refine (h.ascending_listing store.keys_nodup o).ext ?_ ?_
  · exact List.pairwise_map.mpr ((ascending_contents h o).imp fun hLt => hLt)
  · rintro ⟨n, x⟩
    simp only [h.mem_listing, List.mem_map, Prod.mk.injEq, Prod.exists, mem_contents h]
    constructor
    · rintro ⟨hMem, rfl⟩
      obtain ⟨content, hContent⟩ :=
        Option.isSome_iff_exists.mp (AList.lookup_isSome.mpr (AList.mem_keys.mpr hMem))
      exact ⟨n, content, hContent, rfl, rfl⟩
    · rintro ⟨n, content, hContent, rfl, rfl⟩
      refine ⟨?_, rfl⟩
      rw [← AList.mem_keys, ← AList.lookup_isSome, hContent]
      rfl

end Contents

end SharedStore
