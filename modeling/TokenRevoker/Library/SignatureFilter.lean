import Mathlib.Data.List.DropRight
import Mathlib.Data.List.ReduceOption
import Mathlib.Order.CompleteLattice.Basic
import Mathlib.Order.ConditionallyCompleteLattice.Basic
import Mathlib.Order.CompletePartialOrder

/-! Approximate membership over a lattice of bit patterns. Every item has a
signature; inserting an item joins its signature, and an item is reported as
present when its signature lies below the pattern. Items are never lost this
way, because patterns only grow. A window of two patterns forgets: a rotation
drops the older one. -/
namespace SignatureFilter

variable {Item Bits : Type*} [SemilatticeSup Bits] (signature : Item → Bits)

def insert (pattern : Bits) (x : Item) : Bits := pattern ⊔ signature x

def Covers (pattern : Bits) (x : Item) : Prop := signature x ≤ pattern

theorem le_insert (pattern : Bits) (x : Item) : pattern ≤ insert signature pattern x := le_sup_left

theorem covers_insert (pattern : Bits) (x : Item) : Covers signature (insert signature pattern x) x :=
  le_sup_right

variable {signature}

theorem Covers.mono {p q : Bits} {x : Item} (h : Covers signature p x) (hLe : p ≤ q) :
    Covers signature q x := le_trans h hLe

/-- A pattern into which every item of a list is inserted grows and covers
the whole list. -/
theorem le_foldl_insert (pattern : Bits) (xs : List Item) :
    pattern ≤ xs.foldl (insert signature) pattern := by
  induction xs generalizing pattern with
  | nil => exact le_rfl
  | cons x xs ih => exact (le_insert signature pattern x).trans (ih _)

theorem covers_foldl_insert {pattern : Bits} {xs : List Item} {x : Item} (hx : x ∈ xs) :
    Covers signature (xs.foldl (insert signature) pattern) x := by
  induction xs generalizing pattern with
  | nil => simp at hx
  | cons y ys ih =>
      rcases List.mem_cons.mp hx with rfl | hx
      · exact (covers_insert signature pattern x).mono (le_foldl_insert _ ys)
      · exact ih hx

/-- A pattern has nothing but what was there and what the items set. -/
theorem foldl_insert_le_iff {p q : Bits} {xs : List Item} :
    xs.foldl (insert signature) p ≤ q ↔ p ≤ q ∧ ∀ x ∈ xs, signature x ≤ q := by
  constructor
  · intro h
    exact ⟨(le_foldl_insert p xs).trans h, fun x hx => Covers.mono (covers_foldl_insert hx) h⟩
  · rintro ⟨hStart, hAll⟩
    induction xs generalizing p with
    | nil => exact hStart
    | cons x xs ih =>
        refine ih (sup_le hStart (hAll x List.mem_cons_self)) fun y hy => ?_
        exact hAll y (List.mem_cons_of_mem _ hy)

/-- Two generations of a pattern. New items go to the current one. A pattern is whatever
supports joins, such as a set of bits. -/
@[ext]
structure Window (Bits : Type*) where
  current : Bits
  previous : Bits

namespace Window

def insert (signature : Item → Bits) (w : Window Bits) (x : Item) : Window Bits :=
  { w with current := SignatureFilter.insert signature w.current x }

def rotate [OrderBot Bits] (w : Window Bits) : Window Bits := ⟨⊥, w.current⟩

/-- One of the two generations covers the item. False positives are covered as well: only the
patterns are compared. -/
def Covers (signature : Item → Bits) (w : Window Bits) (x : Item) : Prop :=
  SignatureFilter.Covers signature w.current x ∨ SignatureFilter.Covers signature w.previous x

/-- Both generations lie below a bound. -/
def Within (w : Window Bits) (bound : Bits) : Prop := w.current ≤ bound ∧ w.previous ≤ bound

theorem Within.mono {w : Window Bits} {p q : Bits} (h : w.Within p) (hLe : p ≤ q) : w.Within q :=
  ⟨h.1.trans hLe, h.2.trans hLe⟩

/-- Where an item may be after `n` rotations: at first in the current generation,
then in either, later anywhere or nowhere. -/
def Held (signature : Item → Bits) : Nat → Window Bits → Item → Prop
  | 0, w, x => SignatureFilter.Covers signature w.current x
  | 1, w, x => w.Covers signature x
  | _ + 2, _, _ => True

variable {w w' : Window Bits} {x : Item} {n k : Nat}

theorem held_insert (w : Window Bits) (x : Item) : Held signature 0 (w.insert signature x) x :=
  covers_insert signature w.current x

theorem Held.succ (h : Held signature n w x) : Held signature (n + 1) w x :=
  match n, h with
  | 0, h => Or.inl h
  | 1, _ => trivial
  | _ + 2, _ => trivial

theorem Held.of_le (h : Held signature n w x) (hLe : n ≤ k) : Held signature k w x := by
  induction hLe with
  | refl => exact h
  | step _ ih => exact ih.succ

theorem Held.mono (h : Held signature n w x) (hCurrent : w.current ≤ w'.current)
    (hPrevious : w.previous ≤ w'.previous) : Held signature n w' x :=
  match n, h with
  | 0, h => SignatureFilter.Covers.mono h hCurrent
  | 1, h => h.imp (·.mono hCurrent) (·.mono hPrevious)
  | _ + 2, _ => trivial

theorem Held.insert (h : Held signature n w x) (y : Item) :
    Held signature n (w.insert signature y) x :=
  h.mono (le_insert signature w.current y) le_rfl

theorem Held.rotate [OrderBot Bits] (h : Held signature n w x) :
    Held signature (n + 1) w.rotate x :=
  match n, h with
  | 0, h => Or.inr h
  | 1, _ => trivial
  | _ + 2, _ => trivial

/-- Before its second rotation an item is covered. -/
theorem Held.covers (h : Held signature n w x) (hFew : n < 2) : w.Covers signature x :=
  match n, h with
  | 0, h => Or.inl h
  | 1, h => h
  | _ + 2, _ => absurd hFew (by omega)

end Window

section Replay

variable {Item Bits : Type*}

/-- The items since the last rotation of a log, in which `none` stands for a rotation. -/
def latest (log : List (Option Item)) : List Item := (log.rtakeWhile Option.isSome).reduceOption

/-- What comes before the last rotation of a log, nothing if there is none. -/
def beforeLatest (log : List (Option Item)) : List (Option Item) :=
  (log.rdropWhile Option.isSome).dropLast

theorem latest_insert (log : List (Option Item)) (x : Item) :
    latest (log ++ [some x]) = latest log ++ [x] := by
  rw [latest, List.rtakeWhile_concat_pos _ _ _ rfl, ← List.concat_eq_append,
    List.reduceOption_concat_of_some, List.concat_eq_append, latest]

theorem latest_rotate (log : List (Option Item)) : latest (log ++ [none]) = [] := by
  rw [latest, List.rtakeWhile_concat_neg _ _ _ (by simp), List.reduceOption_nil]

theorem beforeLatest_insert (log : List (Option Item)) (x : Item) :
    beforeLatest (log ++ [some x]) = beforeLatest log := by
  rw [beforeLatest, List.rdropWhile_concat_pos _ _ _ rfl, beforeLatest]

theorem beforeLatest_rotate (log : List (Option Item)) : beforeLatest (log ++ [none]) = log := by
  rw [beforeLatest, List.rdropWhile_concat_neg _ _ _ (by simp), List.dropLast_concat]

theorem length_beforeLatest_le (log : List (Option Item)) : (beforeLatest log).length ≤ log.length :=
  ((List.dropLast_prefix _).trans (List.rdropWhile_prefix _ log)).length_le

/-- The last rotation of a log stands where what comes before it ends. -/
theorem getElem?_length_beforeLatest {log : List (Option Item)} (h : none ∈ log) :
    log[(beforeLatest log).length]? = some none := by
  induction log using List.reverseRecOn with
  | nil => simp at h
  | append_singleton log event ih =>
      cases event with
      | none => simp [beforeLatest_rotate]
      | some x =>
          have hNone : none ∈ log := by simpa using h
          have hAt := ih hNone
          rw [beforeLatest_insert, List.getElem?_append_left (List.getElem?_eq_some_iff.mp hAt).1]
          exact hAt

/-- No rotation follows the last one. -/
theorem none_notMem_drop_beforeLatest (log : List (Option Item)) :
    none ∉ log.drop ((beforeLatest log).length + 1) := by
  induction log using List.reverseRecOn with
  | nil => simp
  | append_singleton log event ih =>
      cases event with
      | none => simp [beforeLatest_rotate]
      | some x =>
          rw [beforeLatest_insert, List.drop_append, List.mem_append]
          rintro (hNone | hNone)
          · exact ih hNone
          · simpa using List.mem_of_mem_drop hNone

/-- The number of rotations in a log from one place on. -/
def rotationsFrom (log : List (Option Item)) (i : Nat) : Nat := (log.drop i).countP Option.isNone

section RotationsFrom

variable {log : List (Option Item)} {i n : Nat}

theorem rotationsFrom_anti (log : List (Option Item)) (h : i ≤ n) :
    rotationsFrom log n ≤ rotationsFrom log i :=
  (List.drop_sublist_drop_left log h).countP_le

theorem rotationsFrom_take_le (log : List (Option Item)) (n i : Nat) :
    rotationsFrom (log.take n) i ≤ rotationsFrom log i :=
  ((List.take_sublist n log).drop i).countP_le

theorem rotationsFrom_append (h : i ≤ log.length) (more : List (Option Item)) :
    rotationsFrom (log ++ more) i = rotationsFrom log i + more.countP Option.isNone := by
  rw [rotationsFrom, List.drop_append_of_le_length h, List.countP_append, rotationsFrom]

theorem rotationsFrom_insert {x : Item} (h : log[i]? = some (some x)) :
    rotationsFrom log i = rotationsFrom log (i + 1) := by
  obtain ⟨hLt, hAt⟩ := List.getElem?_eq_some_iff.mp h
  rw [rotationsFrom, List.drop_eq_getElem_cons hLt, hAt, List.countP_cons_of_neg (by simp), rotationsFrom]

theorem rotationsFrom_rotate (h : log[i]? = some none) :
    rotationsFrom log i = rotationsFrom log (i + 1) + 1 := by
  obtain ⟨hLt, hAt⟩ := List.getElem?_eq_some_iff.mp h
  rw [rotationsFrom, List.drop_eq_getElem_cons hLt, hAt, List.countP_cons_of_pos rfl, rotationsFrom]

theorem rotationsFrom_eq_zero (h : none ∉ log.drop i) : rotationsFrom log i = 0 := by
  rw [rotationsFrom, List.countP_eq_zero]
  rintro (_ | x) hMem hNone
  · exact h hMem
  · cases hNone

end RotationsFrom

variable [CompleteLattice Bits] {signature : Item → Bits}

/-- The events of a log, one after the other on a window. What it leaves can be read off the end
of the log, by the lemmas below. -/
def Window.replay (signature : Item → Bits) (w : Window Bits) (log : List (Option Item)) : Window Bits :=
  log.foldl (fun w event => event.elim w.rotate (w.insert signature)) w

theorem Window.replay_concat (w : Window Bits) (log : List (Option Item)) (event : Option Item) :
    w.replay signature (log ++ [event]) =
      event.elim (w.replay signature log).rotate ((w.replay signature log).insert signature) := by
  rw [Window.replay, List.foldl_append]
  rfl

/-- An item is where the rotations after it put it. -/
theorem Window.held_replay {log : List (Option Item)} {i : Nat} {x : Item} (h : log[i]? = some (some x))
    (w : Window Bits) : Held signature (rotationsFrom log i) (w.replay signature log) x := by
  induction log using List.reverseRecOn with
  | nil => simp at h
  | append_singleton log event ih =>
      rw [Window.replay_concat]
      rcases Nat.lt_or_ge i log.length with hLt | hGe
      · rw [rotationsFrom_append hLt.le]
        rw [List.getElem?_append_left hLt] at h
        cases event with
        | none => exact (ih h).rotate
        | some y => exact (ih h).insert y
      · have hEnd := (List.getElem?_eq_some_iff.mp h).1
        obtain rfl : i = log.length := by
          rw [List.length_append, List.length_singleton] at hEnd
          omega
        obtain rfl : event = some x := by simpa using h
        rw [rotationsFrom, List.drop_left]
        exact held_insert _ _

theorem insert_iSup (xs : List Item) (x : Item) :
    insert signature (⨆ y ∈ xs, signature y) x = ⨆ y ∈ xs ++ [x], signature y := by
  simp [insert, iSup_or, iSup_sup_eq]

/-- A window forgets what lies two rotations back: the current pattern is that of the
items since the last rotation, the previous one that of the items of the log before it. -/
theorem Window.replay_eq (log : List (Option Item)) : Window.replay signature ⟨⊥, ⊥⟩ log =
    ⟨⨆ x ∈ latest log, signature x, ⨆ x ∈ latest (beforeLatest log), signature x⟩ := by
  induction log using List.reverseRecOn with
  | nil => simp [Window.replay, latest, beforeLatest]
  | append_singleton log event ih =>
      rw [Window.replay_concat, ih]
      cases event with
      | none =>
          rw [latest_rotate, beforeLatest_rotate]
          simp [Window.rotate]
      | some x =>
          rw [latest_insert, beforeLatest_insert, ← insert_iSup]
          rfl

end Replay

end SignatureFilter
