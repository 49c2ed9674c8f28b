import Mathlib.Data.Nat.Bitwise
import Mathlib.Data.Nat.Count
import Mathlib.Tactic.Ring

/-! Counting the bits of a word in parallel. Each stage sums neighbouring fields and works
byte by byte, so a byte is checked in full and the others follow. -/
namespace BitCount

/-- Fields of two bits, each with the number of its bits. The stages follow the well-known
halving, on numbers without a sign. -/
def pairs (mask x : Nat) : Nat := x - (x / 2 &&& mask)

/-- The same with fields of four bits. -/
def nibbles (mask x : Nat) : Nat := (x &&& mask) + (x / 4 &&& mask)

/-- And of eight. -/
def bytes (mask x : Nat) : Nat := (x + x / 16) &&& mask

theorem count_congr {P Q : Nat → Prop} [DecidablePred P] [DecidablePred Q] {bound : Nat}
    (h : ∀ i < bound, (P i ↔ Q i)) : Nat.count P bound = Nat.count Q bound := by
  rw [Nat.count, Nat.count]
  refine List.countP_congr fun i hi => ?_
  rw [decide_eq_true_eq, decide_eq_true_eq]
  exact h i (List.mem_range.mp hi)

/-- The bits of a number below a bound. Bits from there on are not looked at. -/
def count (width x : Nat) : Nat := Nat.count (fun i => x.testBit i = true) width

/-- A byte through all the stages. -/
def ofByte (e : Nat) : Nat := bytes 0x0f (nibbles 0x33 (pairs 0x55 e))

section Bytewise

variable {e m : Nat}

theorem and_byte (he : e < 256) (hm : m < 256) (y mask : Nat) :
    (e + 256 * y) &&& (m + 256 * mask) = (e &&& m) + 256 * (y &&& mask) := by
  have hSplit := Nat.mod_add_div ((e + 256 * y) &&& (m + 256 * mask)) (2 ^ 8)
  rw [Nat.and_mod_two_pow, Nat.and_div_two_pow, show (e + 256 * y) % 2 ^ 8 = e by omega,
    show (m + 256 * mask) % 2 ^ 8 = m by omega, show (e + 256 * y) / 2 ^ 8 = y by omega,
    show (m + 256 * mask) / 2 ^ 8 = mask by omega] at hSplit
  exact hSplit.symm

theorem pairs_byte (he : e < 256) (y mask : Nat) :
    pairs (0x55 + 256 * mask) (e + 256 * y) = pairs 0x55 e + 256 * pairs mask y := by
  -- the bit that comes down from the next byte is masked out
  have hByte : ∀ e < 256, ∀ t < 2, (e / 2 + 128 * t) &&& 0x55 = e / 2 &&& 0x55 := by decide +kernel
  have hHalf : (e + 256 * y) / 2 = (e / 2 + 128 * (y % 2)) + 256 * (y / 2) := by omega
  have hLow : e / 2 &&& 0x55 ≤ e := Nat.le_trans Nat.and_le_left (Nat.div_le_self _ _)
  have hHigh : y / 2 &&& mask ≤ y := Nat.le_trans Nat.and_le_left (Nat.div_le_self _ _)
  rw [pairs, pairs, pairs, hHalf, and_byte (by omega) (by decide), hByte e he _ (Nat.mod_lt _ (by decide))]
  omega

theorem nibbles_byte (he : e < 256) (y mask : Nat) :
    nibbles (0x33 + 256 * mask) (e + 256 * y) = nibbles 0x33 e + 256 * nibbles mask y := by
  have hByte : ∀ e < 256, ∀ t < 4, (e / 4 + 64 * t) &&& 0x33 = e / 4 &&& 0x33 := by decide +kernel
  have hQuarter : (e + 256 * y) / 4 = (e / 4 + 64 * (y % 4)) + 256 * (y / 4) := by omega
  rw [nibbles, nibbles, nibbles, hQuarter, and_byte he (by decide), and_byte (by omega) (by decide),
    hByte e he _ (Nat.mod_lt _ (by decide))]
  ring

theorem bytes_byte (he : e ≤ 0x44) {y : Nat} (hy : y % 16 ≤ 4) (mask : Nat) :
    bytes (0x0f + 256 * mask) (e + 256 * y) = bytes 0x0f e + 256 * bytes mask y := by
  have hMask : ∀ x : Nat, x &&& 0x0f = x % 16 := fun x => Nat.and_two_pow_sub_one_eq_mod x 4
  have hSum : e + 256 * y + (e + 256 * y) / 16 = (e + e / 16 + 16 * (y % 16)) + 256 * (y + y / 16) := by omega
  rw [bytes, bytes, bytes, hSum, and_byte (by omega) (by decide), hMask, hMask]
  omega

/-- The stages of a byte stay within it, and end in its count. -/
theorem byte_stages : ∀ e < 256, pairs 0x55 e < 256 ∧ nibbles 0x33 (pairs 0x55 e) ≤ 0x44 ∧
    nibbles 0x33 (pairs 0x55 e) % 16 ≤ 4 ∧ ofByte e = count 8 e := by decide +kernel

end Bytewise

/-- The counts of the four bytes of a word, next to each other. -/
theorem stages_eq {b0 b1 b2 b3 : Nat} (h0 : b0 < 256) (h1 : b1 < 256) (h2 : b2 < 256) (h3 : b3 < 256) :
    bytes 0x0f0f0f0f (nibbles 0x33333333 (pairs 0x55555555 (b0 + 256 * (b1 + 256 * (b2 + 256 * b3))))) =
      count 8 b0 + 256 * (count 8 b1 + 256 * (count 8 b2 + 256 * count 8 b3)) := by
  obtain ⟨p0, n0, -, c0⟩ := byte_stages b0 h0
  obtain ⟨p1, n1, m1, c1⟩ := byte_stages b1 h1
  obtain ⟨p2, n2, m2, c2⟩ := byte_stages b2 h2
  obtain ⟨p3, n3, m3, c3⟩ := byte_stages b3 h3
  rw [show (0x55555555 : Nat) = 0x55 + 256 * (0x55 + 256 * (0x55 + 256 * 0x55)) from rfl,
    show (0x33333333 : Nat) = 0x33 + 256 * (0x33 + 256 * (0x33 + 256 * 0x33)) from rfl,
    show (0x0f0f0f0f : Nat) = 0x0f + 256 * (0x0f + 256 * (0x0f + 256 * 0x0f)) from rfl,
    pairs_byte h0, pairs_byte h1, pairs_byte h2, nibbles_byte p0, nibbles_byte p1, nibbles_byte p2,
    bytes_byte n0 (by omega), bytes_byte n1 (by omega), bytes_byte n2 m3, ← c0, ← c1, ← c2, ← c3]
  rfl

theorem count_le (width x : Nat) : count width x ≤ width := Nat.count_le _

/-- One multiplication adds the counts up in the highest byte. -/
theorem sum_bytes {c0 c1 c2 c3 : Nat} (h0 : c0 ≤ 8) (h1 : c1 ≤ 8) (h2 : c2 ≤ 8) (h3 : c3 ≤ 8) :
    (c0 + 256 * (c1 + 256 * (c2 + 256 * c3))) * 0x01010101 % 2 ^ 32 / 2 ^ 24 = c0 + c1 + c2 + c3 := by
  have hProduct : (c0 + 256 * (c1 + 256 * (c2 + 256 * c3))) * 0x01010101 =
      (c0 + 256 * (c0 + c1) + 65536 * (c0 + c1 + c2) + 2 ^ 24 * (c0 + c1 + c2 + c3)) +
        2 ^ 32 * (c1 + c2 + c3 + 256 * (c2 + c3) + 65536 * c3) := by ring
  rw [hProduct, Nat.add_mul_mod_self_left, Nat.mod_eq_of_lt (by omega)]
  omega

/-- The bits of a number are those of its lowest byte and of the rest. -/
theorem count_byte {e : Nat} (he : e < 256) (width y : Nat) :
    count (8 + width) (e + 256 * y) = count 8 e + count width y := by
  have hBit : ∀ i, (e + 256 * y).testBit i = if i < 8 then e.testBit i else y.testBit (i - 8) := by
    intro i
    rw [Nat.add_comm, show (256 : Nat) = 2 ^ 8 from rfl]
    exact Nat.testBit_two_pow_mul_add y he i
  rw [count, Nat.count_add, count, count]
  refine congrArg₂ (· + ·) (count_congr fun i hi => ?_) (count_congr fun i _ => ?_)
  · rw [hBit, if_pos hi]
  · rw [hBit, if_neg (by omega), Nat.add_sub_cancel_left]

/-- The parallel count is the count. -/
theorem parallel_eq {x : Nat} (hx : x < 2 ^ 32) :
    bytes 0x0f0f0f0f (nibbles 0x33333333 (pairs 0x55555555 x)) * 0x01010101 % 2 ^ 32 / 2 ^ 24 = count 32 x := by
  obtain ⟨b0, b1, b2, b3, h0, h1, h2, h3, rfl⟩ : ∃ b0 b1 b2 b3, b0 < 256 ∧ b1 < 256 ∧ b2 < 256 ∧ b3 < 256 ∧
      x = b0 + 256 * (b1 + 256 * (b2 + 256 * b3)) :=
    ⟨x % 256, x / 256 % 256, x / 65536 % 256, x / 16777216, by omega, by omega, by omega, by omega, by omega⟩
  rw [stages_eq h0 h1 h2 h3, sum_bytes (count_le 8 _) (count_le 8 _) (count_le 8 _) (count_le 8 _),
    show (32 : Nat) = 8 + (8 + (8 + 8)) from rfl, count_byte h0, count_byte h1, count_byte h2]
  omega

end BitCount
