import Mathlib.Data.List.Induction
import Mathlib.Data.List.Sort
import Mathlib.Tactic.Common

/-! Records with a numeric key, of which the last one written under a key counts.
Reading such a log in key order depends only on which records are the last of
their key, not on how the log is cut into files. -/
namespace KeyedLog

variable {α : Type*} (key : α → Nat)

/-- `map.set(key(a), a)` on a map kept as its list of values. A key keeps the place at which it
was set first. -/
def upsert (a : α) : List α → List α
  | [] => [a]
  | b :: rest => if key b = key a then a :: rest else b :: upsert a rest

/-- The values of the map after all records of the log were set in order. -/
def latest (log : List α) : List α := log.foldl (fun map a => upsert key a map) []

/-- The last record of every key, by ascending key. This is what a reader makes of a log that
was written with repetitions. -/
def ordered (log : List α) : List α :=
  (latest key log).mergeSort fun a b => decide (key a ≤ key b)

theorem latest_append_singleton (log : List α) (a : α) :
    latest key (log ++ [a]) = upsert key a (latest key log) := by
  simp [latest]

/-- The keys of a list are pairwise different. -/
def Distinct (l : List α) : Prop := l.Pairwise fun a b => key a ≠ key b

variable {key} {log : List α} {a x : α}

theorem mem_upsert {l : List α} (hl : Distinct key l) :
    x ∈ upsert key a l ↔ x = a ∨ (x ∈ l ∧ key x ≠ key a) := by
  induction l with
  | nil => simp [upsert]
  | cons b rest ih =>
      have hRest := List.pairwise_cons.mp hl
      simp only [upsert]
      split_ifs with hKey
      · simp only [List.mem_cons]
        constructor
        · rintro (rfl | hx)
          · exact Or.inl rfl
          · exact Or.inr ⟨Or.inr hx, fun hEq => hRest.1 x hx (hKey.trans hEq.symm)⟩
        · rintro (rfl | ⟨rfl | hx, hNe⟩)
          · exact Or.inl rfl
          · exact absurd hKey hNe
          · exact Or.inr hx
      · rw [List.mem_cons, ih hRest.2, List.mem_cons]
        constructor
        · rintro (rfl | rfl | ⟨hx, hNe⟩)
          · exact Or.inr ⟨Or.inl rfl, hKey⟩
          · exact Or.inl rfl
          · exact Or.inr ⟨Or.inr hx, hNe⟩
        · rintro (rfl | ⟨rfl | hx, hNe⟩)
          · exact Or.inr (Or.inl rfl)
          · exact Or.inl rfl
          · exact Or.inr (Or.inr ⟨hx, hNe⟩)

theorem distinct_upsert {l : List α} (hl : Distinct key l) : Distinct key (upsert key a l) := by
  induction l with
  | nil => simp [upsert, Distinct]
  | cons b rest ih =>
      have hRest := List.pairwise_cons.mp hl
      simp only [upsert]
      split_ifs with hKey
      · exact List.pairwise_cons.mpr ⟨fun c hc => hKey ▸ hRest.1 c hc, hRest.2⟩
      · refine List.pairwise_cons.mpr ⟨?_, ih hRest.2⟩
        intro c hc
        rcases (mem_upsert hRest.2).mp hc with rfl | ⟨hc, -⟩
        · exact hKey
        · exact hRest.1 c hc

theorem distinct_latest (log : List α) : Distinct key (latest key log) := by
  induction log using List.reverseRecOn with
  | nil => exact List.Pairwise.nil
  | append_singleton log a ih =>
      rw [latest_append_singleton]
      exact distinct_upsert ih

/-- Only the last record of a key is kept. -/
theorem mem_latest_append_singleton :
    x ∈ latest key (log ++ [a]) ↔ x = a ∨ (x ∈ latest key log ∧ key x ≠ key a) := by
  rw [latest_append_singleton, mem_upsert (distinct_latest log)]

theorem mem_of_mem_latest (h : x ∈ latest key log) : x ∈ log := by
  induction log using List.reverseRecOn with
  | nil => simp [latest] at h
  | append_singleton log a ih =>
      rcases mem_latest_append_singleton.mp h with rfl | ⟨hx, -⟩
      · simp
      · simp [ih hx]

/-- Every key of the log is kept, under some record. -/
theorem exists_mem_latest (h : x ∈ log) : ∃ y ∈ latest key log, key y = key x := by
  induction log using List.reverseRecOn with
  | nil => simp at h
  | append_singleton log a ih =>
      rcases List.mem_append.mp h with hx | hx
      · obtain ⟨y, hy, hKey⟩ := ih hx
        by_cases hSame : key y = key a
        · exact ⟨a, mem_latest_append_singleton.mpr (Or.inl rfl), hSame.symm.trans hKey⟩
        · exact ⟨y, mem_latest_append_singleton.mpr (Or.inr ⟨hy, hSame⟩), hKey⟩
      · rw [List.mem_singleton.mp hx]
        exact ⟨a, mem_latest_append_singleton.mpr (Or.inl rfl), rfl⟩

theorem mem_ordered : x ∈ ordered key log ↔ x ∈ latest key log :=
  List.mem_mergeSort

theorem pairwise_ordered (log : List α) : (ordered key log).Pairwise fun a b => key a < key b := by
  have hSorted : (ordered key log).Pairwise fun a b => decide (key a ≤ key b) = true :=
    List.pairwise_mergeSort (fun a b c hab hbc => by
        simp only [decide_eq_true_eq] at hab hbc ⊢
        omega)
      (fun a b => by
        simp only [Bool.or_eq_true, decide_eq_true_eq]
        omega) _
  have hDistinct : Distinct key (ordered key log) :=
    (distinct_latest log).perm (List.mergeSort_perm _ _).symm fun h => h.symm
  refine hSorted.imp₂ ?_ hDistinct
  intro a b hLe hNe
  simp only [decide_eq_true_eq] at hLe
  omega

/-- A list in strict key order is determined by its members. -/
theorem eq_of_mem_iff {l m : List α} (hl : l.Pairwise fun a b => key a < key b)
    (hm : m.Pairwise fun a b => key a < key b) (hMem : ∀ x, x ∈ l ↔ x ∈ m) : l = m := by
  have hNodup : ∀ {l : List α}, (l.Pairwise fun a b => key a < key b) → l.Nodup := fun h =>
    h.imp fun hLt hEq => by simp [hEq] at hLt
  have hPerm : l.Perm m := (List.perm_ext_iff_of_nodup (hNodup hl) (hNodup hm)).mpr hMem
  have hAsymm : ∀ a b, a ∈ l → b ∈ m → key a < key b → key b < key a → a = b := by
    intro a b _ _ hab hba
    omega
  exact hPerm.eq_of_pairwise hAsymm hl hm

/-- A list in strict key order with the same members is the ordered log. -/
theorem ordered_eq_of_mem_iff {l : List α} (hl : l.Pairwise fun a b => key a < key b)
    (hMem : ∀ x, x ∈ l ↔ x ∈ latest key log) : ordered key log = l := by
  refine eq_of_mem_iff (pairwise_ordered log) hl fun x => ?_
  rw [mem_ordered, hMem]

/-- Reading from a key on is reading the records above that key. -/
theorem ordered_filter (log : List α) (floor : Nat) :
    ordered key (log.filter fun a => floor < key a) =
      (ordered key log).filter fun a => floor < key a := by
  refine ordered_eq_of_mem_iff ((pairwise_ordered log).filter _) ?_
  intro x
  rw [List.mem_filter, mem_ordered]
  induction log using List.reverseRecOn with
  | nil => simp [latest]
  | append_singleton log a ih =>
      rw [List.filter_append, mem_latest_append_singleton]
      by_cases hFloor : floor < key a
      · rw [List.filter_cons_of_pos (by simpa using hFloor), List.filter_nil,
          mem_latest_append_singleton, ← ih]
        constructor
        · rintro ⟨rfl | ⟨hx, hNe⟩, hKey⟩
          · exact Or.inl rfl
          · exact Or.inr ⟨⟨hx, hKey⟩, hNe⟩
        · rintro (rfl | ⟨⟨hx, hKey⟩, hNe⟩)
          · exact ⟨Or.inl rfl, by simpa using hFloor⟩
          · exact ⟨Or.inr ⟨hx, hNe⟩, hKey⟩
      · rw [List.filter_cons_of_neg (by simpa using hFloor), List.filter_nil, List.append_nil, ← ih]
        constructor
        · rintro ⟨rfl | ⟨hx, -⟩, hKey⟩
          · exact absurd (by simpa using hKey) hFloor
          · exact ⟨hx, hKey⟩
        · rintro ⟨hx, hKey⟩
          refine ⟨Or.inr ⟨hx, ?_⟩, hKey⟩
          intro hSame
          rw [hSame] at hKey
          exact hFloor (by simpa using hKey)

/-- A record with the highest key comes last, in place of those that had its key. -/
theorem ordered_append_singleton (h : ∀ x ∈ log, key x ≤ key a) :
    ordered key (log ++ [a]) = ((ordered key log).filter fun x => key x < key a) ++ [a] := by
  refine ordered_eq_of_mem_iff ?_ fun x => ?_
  · refine List.pairwise_append.mpr ⟨(pairwise_ordered log).filter _, List.pairwise_singleton _ a, ?_⟩
    intro x hx y hy
    rw [List.mem_singleton.mp hy]
    exact of_decide_eq_true (List.mem_filter.mp hx).2
  · rw [mem_latest_append_singleton, List.mem_append, List.mem_filter, List.mem_singleton, mem_ordered]
    constructor
    · rintro (⟨hx, hLt⟩ | rfl)
      · exact Or.inr ⟨hx, (of_decide_eq_true hLt).ne⟩
      · exact Or.inl rfl
    · rintro (rfl | ⟨hx, hNe⟩)
      · exact Or.inr rfl
      · exact Or.inl ⟨hx, decide_eq_true (lt_of_le_of_ne (h x (mem_of_mem_latest hx)) hNe)⟩

/-- Above one record of a log in strict key order stands what comes after it. -/
theorem filter_of_split {l front back : List α} {floor : Nat} (hl : l.Pairwise fun a b => key a < key b)
    (hSplit : (l.filter fun a => floor < key a) = front ++ x :: back) :
    (l.filter fun a => key x < key a) = back := by
  have hSorted : (front ++ x :: back).Pairwise fun a b => key a < key b := hSplit ▸ hl.filter _
  obtain ⟨-, hTail, hFront⟩ := List.pairwise_append.mp hSorted
  have hBack := (List.pairwise_cons.mp hTail).1
  have hFloor : floor < key x := by
    have hMem : x ∈ l.filter fun a => floor < key a := by
      rw [hSplit]
      exact List.mem_append_right _ List.mem_cons_self
    exact of_decide_eq_true (List.mem_filter.mp hMem).2
  have hBelow : front.filter (fun a => key x < key a) = [] := by
    rw [List.filter_eq_nil_iff]
    intro a ha
    have := hFront a ha x List.mem_cons_self
    simp only [decide_eq_true_eq]
    omega
  have hAbove : back.filter (fun a => key x < key a) = back := by
    rw [List.filter_eq_self]
    intro a ha
    exact decide_eq_true (hBack a ha)
  calc (l.filter fun a => key x < key a)
      = (l.filter fun a => floor < key a).filter fun a => key x < key a := by
        rw [List.filter_filter]
        refine List.filter_congr fun a _ => ?_
        by_cases hKey : key x < key a
        · simp [hKey, Nat.lt_trans hFloor hKey]
        · simp [hKey]
    _ = back := by
        rw [hSplit, List.filter_append, hBelow, List.nil_append, List.filter_cons_of_neg (by simp), hAbove]

/-- In strict key order a key has one record. -/
theorem eq_of_key_eq {y : α} (h : log.Pairwise fun a b => key a < key b) (hx : x ∈ log) (hy : y ∈ log)
    (hKey : key x = key y) : x = y := by
  induction log with
  | nil => simp at hx
  | cons a rest ih =>
      obtain ⟨hHead, hRest⟩ := List.pairwise_cons.mp h
      rcases List.mem_cons.mp hx with hxa | hxr <;> rcases List.mem_cons.mp hy with hya | hyr
      · exact hxa.trans hya.symm
      · exact absurd (hxa ▸ hKey) (hHead y hyr).ne
      · exact absurd (hya ▸ hKey) (hHead x hxr).ne'
      · exact ih hRest hxr hyr

/-- A log that is already in strict key order is read as it stands. -/
theorem ordered_eq_self (h : log.Pairwise fun a b => key a < key b) : ordered key log = log := by
  refine ordered_eq_of_mem_iff h ?_
  intro x
  refine ⟨fun hx => ?_, mem_of_mem_latest⟩
  obtain ⟨y, hy, hKey⟩ : ∃ y ∈ latest key log, key y = key x := exists_mem_latest hx
  rwa [← eq_of_key_eq h (mem_of_mem_latest hy) hx hKey]

/-- Where the records of one key agree on what `f` sees of them, the ordered log
shows it once for every key. -/
theorem map_ordered {β : Type*} (keyOf : β → Nat) {f : α → β} (hKey : ∀ a, keyOf (f a) = key a)
    {l : List β} (hl : l.Pairwise fun a b => keyOf a < keyOf b) (hSound : ∀ a ∈ log, f a ∈ l)
    (hComplete : ∀ b ∈ l, ∃ a ∈ log, f a = b) : (ordered key log).map f = l := by
  have hMap : ((ordered key log).map f).Pairwise fun a b => keyOf a < keyOf b := by
    have hOrdered : (ordered key log).Pairwise fun a b => key a < key b := pairwise_ordered log
    rw [List.pairwise_map]
    simpa only [hKey] using hOrdered
  refine eq_of_mem_iff hMap hl fun b => ⟨fun hb => ?_, fun hb => ?_⟩
  · obtain ⟨a, ha, rfl⟩ := List.mem_map.mp hb
    exact hSound a (mem_of_mem_latest (mem_ordered.mp ha))
  · obtain ⟨a, ha, rfl⟩ := hComplete b hb
    obtain ⟨y, hy, hSame⟩ : ∃ y ∈ latest key log, key y = key a := exists_mem_latest ha
    have hEq : f y = f a :=
      eq_of_key_eq hl (hSound y (mem_of_mem_latest hy)) hb (by rw [hKey, hKey, hSame])
    exact List.mem_map.mpr ⟨y, mem_ordered.mpr hy, hEq⟩

end KeyedLog
