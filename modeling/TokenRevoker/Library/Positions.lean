import Mathlib.Algebra.GroupWithZero.Nat
import Mathlib.Data.List.Chain
import Mathlib.Tactic.Common

/-! The places of a sequence: those of a list that one element is put at, and those at
which a property holds when they are numbered from some first number on. -/
namespace Positions

variable {α : Type*}

/-- An element of a longer list was there before, or is the last one. -/
theorem getElem?_concat_cases {l : List α} {k : Nat} {a b : α} (h : (l ++ [a])[k]? = some b) :
    l[k]? = some b ∨ k = l.length ∧ b = a := by
  by_cases hLt : k < l.length
  · exact Or.inl ((List.getElem?_append_left hLt).symm.trans h)
  · have hLe := (List.getElem?_eq_some_iff.mp h).1
    rw [List.length_append, List.length_singleton] at hLe
    obtain rfl : k = l.length := by omega
    rw [List.getElem?_concat_length, Option.some.injEq] at h
    exact Or.inr ⟨rfl, h.symm⟩

theorem getElem?_append_of_eq_some {l : List α} {k : Nat} {b : α} (h : l[k]? = some b) (more : List α) :
    (l ++ more)[k]? = some b :=
  (List.getElem?_append_left (List.getElem?_eq_some_iff.mp h).1).trans h

/-- An element of a list is the one that was put at its place, or it was there before. -/
theorem getElem?_set_cases {l : List α} {k j : Nat} {a b : α} (h : (l.set k a)[j]? = some b) :
    j = k ∧ b = a ∨ j ≠ k ∧ l[j]? = some b := by
  by_cases hEq : j = k
  · subst hEq
    have hLt := (List.getElem?_eq_some_iff.mp h).1
    rw [List.length_set] at hLt
    rw [List.getElem?_set_self hLt, Option.some.injEq] at h
    exact Or.inl ⟨rfl, h.symm⟩
  · rw [List.getElem?_set_ne (Ne.symm hEq)] at h
    exact Or.inr ⟨hEq, h⟩

/-- A new element at a place changes a sum over the list by what it brings and takes. -/
theorem sum_map_set (f : α → Nat) {l : List α} {k : Nat} {a : α} (h : l[k]? = some a) (b : α) :
    ((l.set k b).map f).sum + f a = (l.map f).sum + f b := by
  induction l generalizing k with
  | nil => simp at h
  | cons c rest ih =>
      cases k with
      | zero =>
          obtain rfl : c = a := by simpa using h
          simp only [List.set_cons_zero, List.map_cons, List.sum_cons]
          omega
      | succ k =>
          have hRest := ih (k := k) (by simpa using h)
          simp only [List.set_cons_succ, List.map_cons, List.sum_cons]
          omega

/-- An element with the same image leaves the image of the list as it is. -/
theorem map_set_of_eq {β : Type*} (f : α → β) {l : List α} {k : Nat} {a b : α} (h : l[k]? = some a)
    (hSame : f b = f a) : (l.set k b).map f = l.map f := by
  induction l generalizing k with
  | nil => rfl
  | cons c rest ih =>
      cases k with
      | zero =>
          obtain rfl : c = a := by simpa using h
          rw [List.set_cons_zero, List.map_cons, List.map_cons, hSame]
      | succ k =>
          rw [List.set_cons_succ, List.map_cons, List.map_cons, ih (k := k) (by simpa using h)]

variable (p : α → Prop) [DecidablePred p]

/-- The places of the elements that satisfy `p`, counted from `first`. -/
def positions : List α → Nat → List Nat
  | [], _ => []
  | a :: rest, first => if p a then first :: positions rest (first + 1) else positions rest (first + 1)

/-- Every number is one more than the number before it. The empty list and a single number count
as such. -/
def Consecutive (l : List Nat) : Prop := l.IsChain fun a b => b = a + 1

variable {p} {l : List α} {first : Nat}

theorem positions_append (l m : List α) (first : Nat) :
    positions p (l ++ m) first = positions p l first ++ positions p m (first + l.length) := by
  induction l generalizing first with
  | nil => rfl
  | cons a rest ih =>
      rw [List.cons_append, positions, positions, ih]
      split_ifs <;> simp [Nat.add_assoc, Nat.add_comm 1]

theorem positions_eq_nil_iff : positions p l first = [] ↔ ∀ a ∈ l, ¬ p a := by
  induction l generalizing first with
  | nil => simp [positions]
  | cons a rest ih =>
      rw [positions]
      split_ifs with h <;> simp [h, ih]

theorem le_of_mem_positions {n : Nat} (h : n ∈ positions p l first) : first ≤ n := by
  induction l generalizing first with
  | nil => simp [positions] at h
  | cons a rest ih =>
      rw [positions] at h
      split_ifs at h
      · rcases List.mem_cons.mp h with rfl | h
        · exact Nat.le_refl _
        · exact Nat.le_of_succ_le (ih h)
      · exact Nat.le_of_succ_le (ih h)

/-- After an element with `p`, the places stay consecutive while every element has
it, up to one after which none has it. -/
theorem consecutive_cons_positions_iff :
    Consecutive (first :: positions p l (first + 1)) ↔
      ∀ before a after, l = before ++ a :: after → ¬ p a → ∀ b ∈ after, ¬ p b := by
  induction l generalizing first with
  | nil => simp [positions, Consecutive]
  | cons a rest ih =>
      by_cases h : p a
      · rw [positions, if_pos h, Consecutive, List.isChain_cons_cons, eq_self, true_and]
        refine ih.trans ⟨fun hRest before b after hSplit hb => ?_, fun hAll before b after hSplit hb => ?_⟩
        · rcases before with _ | ⟨c, before⟩
          · cases hSplit
            exact absurd h hb
          · cases hSplit
            exact hRest before b after rfl hb
        · exact hAll (a :: before) b after (by rw [hSplit]; rfl) hb
      · rw [positions, if_neg h]
        have hNone : Consecutive (first :: positions p rest (first + 1 + 1)) ↔ ∀ b ∈ rest, ¬ p b := by
          rw [← @positions_eq_nil_iff α p _ rest (first + 1 + 1)]
          cases hRest : positions p rest (first + 1 + 1) with
          | nil => simp [Consecutive]
          | cons n tail =>
              have hLe := le_of_mem_positions (p := p) (l := rest) (hRest ▸ List.mem_cons_self)
              simp only [Consecutive, List.isChain_cons_cons, reduceCtorEq, iff_false, not_and]
              omega
        rw [hNone]
        refine ⟨fun hRest before b after hSplit _ => ?_, fun hAll => hAll [] a rest rfl h⟩
        rcases before with _ | ⟨c, before⟩
        · cases hSplit
          exact hRest
        · cases hSplit
          exact fun x hx => hRest x (by simp [hx])

/-- The places are consecutive if nothing without `p` stands between two elements with it. -/
theorem consecutive_positions_iff :
    Consecutive (positions p l first) ↔ ∀ before a after, l = before ++ a :: after → ¬ p a →
      (∀ b ∈ before, ¬ p b) ∨ ∀ b ∈ after, ¬ p b := by
  induction l generalizing first with
  | nil => simp [positions, Consecutive]
  | cons a rest ih =>
      by_cases h : p a
      · rw [positions, if_pos h, consecutive_cons_positions_iff]
        refine ⟨fun hRest before b after hSplit hb => ?_, fun hAll before b after hSplit hb => ?_⟩
        · rcases before with _ | ⟨c, before⟩
          · cases hSplit
            exact absurd h hb
          · cases hSplit
            exact Or.inr (hRest before b after rfl hb)
        · rcases hAll (a :: before) b after (by rw [hSplit]; rfl) hb with hBefore | hAfter
          · exact absurd h (hBefore a (by simp))
          · exact hAfter
      · rw [positions, if_neg h, ih]
        refine ⟨fun hRest before b after hSplit hb => ?_, fun hAll before b after hSplit hb => ?_⟩
        · rcases before with _ | ⟨c, before⟩
          · exact Or.inl (by simp)
          · cases hSplit
            rcases hRest before b after rfl hb with hBefore | hAfter
            · exact Or.inl (by simpa [h] using hBefore)
            · exact Or.inr hAfter
        · rcases hAll (a :: before) b after (by rw [hSplit]; rfl) hb with hBefore | hAfter
          · exact Or.inl fun x hx => hBefore x (by simp [hx])
          · exact Or.inr hAfter

end Positions
