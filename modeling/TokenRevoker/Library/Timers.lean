import Mathlib.Data.List.Basic
import Mathlib.Tactic.Common

/-! Timers in integer time. A clock stands still while something is due, so nothing is
missed. A monitor looks at a peer once in a period and gives it up when the last sign of
life is older than its patience: it does so within one more period, and never sooner. -/
namespace Timers

/-- Nothing that is due has been missed. Time may only pass while nothing is due. -/
def Punctual (now : Nat) (dues : List Nat) : Prop := ∀ due ∈ dues, now ≤ due

/-- Nothing is due now. -/
def idle (now : Nat) (dues : List Nat) : Bool := dues.all fun due => decide (now < due)

variable {now due : Nat} {dues : List Nat}

theorem Punctual.pass (hIdle : idle now dues = true) : Punctual (now + 1) dues := by
  intro due hDue
  exact of_decide_eq_true (List.all_eq_true.mp hIdle due hDue)

/-- A monitor that has not given its peer up: its next look is not overdue, and comes
before the silence has lasted for a period longer than the patience. -/
structure Trusts (period patience now last due : Nat) : Prop where
  last_le : last ≤ now
  now_le : now ≤ due
  due_le : due ≤ now + period
  silence : due ≤ last + patience + period

section Monitor

variable {period patience last : Nat}

theorem Trusts.start (period patience now : Nat) : Trusts period patience now now (now + period) where
  last_le := Nat.le_refl _
  now_le := Nat.le_add_right _ _
  due_le := Nat.le_refl _
  silence := by omega

theorem Trusts.pass (h : Trusts period patience now last due) (hIdle : now < due) :
    Trusts period patience (now + 1) last due where
  last_le := Nat.le_succ_of_le h.last_le
  now_le := hIdle
  due_le := by have := h.due_le; omega
  silence := h.silence

/-- A sign of life. -/
theorem Trusts.beat (h : Trusts period patience now last due) : Trusts period patience now now due where
  last_le := Nat.le_refl _
  now_le := h.now_le
  due_le := h.due_le
  silence := by have := h.due_le; omega

/-- A look that finds no more silence than the monitor bears. -/
theorem Trusts.look (h : Trusts period patience now last due) (hBorne : now - last ≤ patience) :
    Trusts period patience now last (now + period) where
  last_le := h.last_le
  now_le := Nat.le_add_right _ _
  due_le := Nat.le_refl _
  silence := by have := h.last_le; omega

end Monitor

end Timers
