import TokenRevoker.Core.BloomFilter
import Mathlib.Data.Nat.Choose.Basic
import Mathlib.Data.Int.ModEq
import Mathlib.Tactic.Linarith

/-! What the hashing loops of the filter compute. Four limbs of 16 bits carry the 64-bit
FNV-1a hash of the code units, and the positions are those of enhanced double hashing with
its two halves, so the loops need not be looked at again. -/
namespace TokenRevoker

open Text

/-- FNV-1a on 64 bits, a code unit at a time. This is the published algorithm, which the source
computes in limbs. -/
def fnv1a (v : JsString) : BitVec 64 :=
  v.foldl (fun h charCode => (h ^^^ charCode.toBitVec.setWidth 64) * 0x100000001b3#64) 0xcbf29ce484222325#64

namespace BloomFilter

namespace Limbs

/-- The number that the limbs are the digits of. -/
def value (h : Limbs) : Nat := h.v0 + 2 ^ 16 * (h.v1 + 2 ^ 16 * (h.v2 + 2 ^ 16 * h.v3))

/-- Every limb has 16 bits. -/
structure Small (h : Limbs) : Prop where
  v0 : h.v0 < 2 ^ 16
  v1 : h.v1 < 2 ^ 16
  v2 : h.v2 < 2 ^ 16
  v3 : h.v3 < 2 ^ 16

/-- A code unit changes the lowest limb only. -/
theorem xor_low {low rest c : Nat} (hLow : low < 2 ^ 16) (hc : c < 2 ^ 16) :
    (low + 2 ^ 16 * rest) ^^^ c = (low ^^^ c) + 2 ^ 16 * rest := by
  have hXor : low ^^^ c < 2 ^ 16 := Nat.xor_lt_two_pow hLow hc
  apply Nat.eq_of_testBit_eq
  intro i
  rw [Nat.testBit_xor, Nat.add_comm low, Nat.add_comm (low ^^^ c), Nat.testBit_two_pow_mul_add _ hLow,
    Nat.testBit_two_pow_mul_add _ hXor]
  split_ifs with hi
  · rw [Nat.testBit_xor]
  · have hHigh : c.testBit i = false := by
      refine Nat.testBit_lt_two_pow (hc.trans_le (Nat.pow_le_pow_right (by decide) ?_))
      omega
    rw [hHigh, Bool.xor_false]

/-- A step of the loop multiplies the number by the FNV prime, without its overflow. -/
theorem fnvStep_value {h : Limbs} (hSmall : h.Small) (charCode : UInt16) :
    (fnvStep h charCode).Small ∧
      (fnvStep h charCode).value = (h.value ^^^ charCode.toNat) * 0x100000001b3 % 2 ^ 64 := by
  have hCode : charCode.toNat < 2 ^ 16 := charCode.toNat_lt
  have hLow := Nat.xor_lt_two_pow hSmall.v0 hCode
  have hMask : ∀ x : Nat, x &&& 0xffff = x % 2 ^ 16 := fun x => Nat.and_two_pow_sub_one_eq_mod x 16
  rw [value, value, xor_low hSmall.v0 hCode]
  simp only [fnvStep, hMask, fnv64PrimeX, Nat.shiftRight_eq_div_pow, Nat.shiftLeft_eq]
  generalize h.v0 ^^^ charCode.toNat = v0 at hLow
  obtain ⟨-, h1, h2, h3⟩ := hSmall
  refine ⟨⟨?_, ?_, ?_, ?_⟩, ?_⟩
  · exact Nat.mod_lt _ (by decide)
  · exact Nat.mod_lt _ (by decide)
  · exact Nat.mod_lt _ (by decide)
  · exact Nat.mod_lt _ (by decide)
  · omega

/-- No intermediate value of a step reaches 2^32, so nothing is lost to a shift or to the
53 bits of a number. -/
theorem fnvStep_exact {h : Limbs} (hSmall : h.Small) {v0 : Nat} (hLow : v0 < 2 ^ 16) :
    v0 * fnv64PrimeX < 2 ^ 32 ∧ h.v1 * fnv64PrimeX + (v0 * fnv64PrimeX >>> 16) < 2 ^ 32 ∧
      h.v2 * fnv64PrimeX + (v0 <<< 8) +
        ((h.v1 * fnv64PrimeX + (v0 * fnv64PrimeX >>> 16)) >>> 16) < 2 ^ 32 ∧
      h.v3 * fnv64PrimeX + (h.v1 <<< 8) + ((h.v2 * fnv64PrimeX + (v0 <<< 8) +
        ((h.v1 * fnv64PrimeX + (v0 * fnv64PrimeX >>> 16)) >>> 16)) >>> 16) < 2 ^ 32 := by
  obtain ⟨-, h1, h2, h3⟩ := hSmall
  simp only [fnv64PrimeX, Nat.shiftRight_eq_div_pow, Nat.shiftLeft_eq]
  omega

end Limbs

/-- The loop computes the hash. Strings are read by their UTF-16 units, of which each is taken
whole. -/
theorem foldl_fnvStep (v : JsString) :
    (v.foldl fnvStep fnvOffset).Small ∧ (v.foldl fnvStep fnvOffset).value = (fnv1a v).toNat := by
  have hFold : ∀ (v : JsString) (h : Limbs) (w : BitVec 64), h.Small → h.value = w.toNat →
      (v.foldl fnvStep h).Small ∧ (v.foldl fnvStep h).value =
        (v.foldl (fun h charCode => (h ^^^ charCode.toBitVec.setWidth 64) * 0x100000001b3#64) w).toNat := by
    intro v
    induction v with
    | nil => exact fun h w hSmall hValue => ⟨hSmall, hValue⟩
    | cons charCode v ih =>
        intro h w hSmall hValue
        obtain ⟨hNext, hStep⟩ := Limbs.fnvStep_value hSmall charCode
        refine ih _ _ hNext ?_
        rw [hStep, hValue, BitVec.toNat_mul, BitVec.toNat_xor, BitVec.toNat_setWidth]
        have hCode : charCode.toBitVec.toNat % 2 ^ 64 = charCode.toNat :=
          Nat.mod_eq_of_lt (charCode.toNat_lt.trans (by decide))
        rw [hCode]
        rfl
  exact hFold v fnvOffset _ ⟨by decide, by decide, by decide, by decide⟩ (by decide)

/-- The two halves of the hash, as the signed words that `locations` makes of them. -/
def highWord (hash : BitVec 64) : Int := (hash.extractLsb' 32 32).toInt

def lowWord (hash : BitVec 64) : Int := (hash.extractLsb' 0 32).toInt

/-- The `i`-th position of enhanced double hashing. The third term sums up what the increments
have grown by. -/
def position (m : Nat) (hash : BitVec 64) (i : Nat) : Nat :=
  ((highWord hash + i * lowWord hash + (i + 1).choose 3) % m).toNat

theorem ofNat_word {high low : Nat} (hLow : low < 2 ^ 16) :
    BitVec.ofNat 32 ((high <<< 16) ||| low) = BitVec.ofNat 32 (low + 2 ^ 16 * high) := by
  rw [Nat.shiftLeft_eq, Nat.mul_comm, ← Nat.two_pow_add_eq_or_of_lt hLow, Nat.add_comm]

theorem signedWord_high (v : JsString) :
    signedWord (v.foldl fnvStep fnvOffset).v3 (v.foldl fnvStep fnvOffset).v2 = highWord (fnv1a v) := by
  obtain ⟨⟨h0, h1, h2, h3⟩, hValue⟩ := foldl_fnvStep v
  rw [signedWord, highWord, ofNat_word h2]
  congr 1
  apply BitVec.eq_of_toNat_eq
  rw [BitVec.toNat_ofNat, BitVec.extractLsb'_toNat, ← hValue, Limbs.value, Nat.shiftRight_eq_div_pow]
  omega

theorem signedWord_low (v : JsString) :
    signedWord (v.foldl fnvStep fnvOffset).v1 (v.foldl fnvStep fnvOffset).v0 = lowWord (fnv1a v) := by
  obtain ⟨⟨h0, h1, h2, h3⟩, hValue⟩ := foldl_fnvStep v
  rw [signedWord, lowWord, ofNat_word h0]
  congr 1
  apply BitVec.eq_of_toNat_eq
  rw [BitVec.toNat_ofNat, BitVec.extractLsb'_toNat, ← hValue, Limbs.value, Nat.shiftRight_eq_div_pow]
  omega

/-- `reduce` is the residue. -/
theorem cast_reduce {m : Nat} (hm : 0 < m) (a : Int) : (reduce a m : Int) = a % m := by
  have hPos : (0 : Int) < m := by exact_mod_cast hm
  have hInner : 0 ≤ a.tmod m + m := by
    have := Int.lt_tmod_of_pos a hPos
    omega
  have hSplit := Int.mul_tdiv_add_tmod a m
  rw [reduce, Int.tmod_eq_emod_of_nonneg hInner, Int.toNat_of_nonneg (Int.emod_nonneg _ hPos.ne'),
    Int.add_emod_right, ← Int.add_mul_emod_self_left (a.tmod m) m (a.tdiv m)]
  congr 1
  linarith

/-- The loop, without its state. -/
theorem doubleHash_eq (m a b i count : Nat) : doubleHash m a b i count = (List.range count).map fun j =>
    (a + (j + 1) * b + i * (j + 1).choose 2 + (j + 1).choose 3) % m := by
  induction count generalizing a b i with
  | zero => rfl
  | succ count ih =>
      rw [doubleHash, ih, List.range_succ_eq_map, List.map_cons, List.map_map]
      refine congrArg₂ List.cons (by simp [Nat.choose]) (List.map_congr_left fun j _ => ?_)
      have hTwo : (j + 1 + 1).choose 2 = j + 1 + (j + 1).choose 2 := by
        rw [Nat.choose_succ_succ, Nat.choose_one_right]
      have hThree : (j + 1 + 1).choose 3 = (j + 1).choose 2 + (j + 1).choose 3 := Nat.choose_succ_succ _ _
      show _ = (a + (j + 1 + 1) * b + i * (j + 1 + 1).choose 2 + (j + 1 + 1).choose 3) % m
      rw [hTwo, hThree]
      have hA : (a + b) % m ≡ a + b [MOD m] := Nat.mod_modEq _ _
      have hB : (b + i) % m ≡ b + i [MOD m] := Nat.mod_modEq _ _
      have hSum := ((hA.add (hB.mul_left (j + 1))).add_right ((i + 1) * (j + 1).choose 2)).add_right
        ((j + 1).choose 3)
      refine Nat.ModEq.trans hSum ?_
      rw [Nat.ModEq]
      congr 1
      ring

/-- What is below a size of at most 2^32 fits into the elements of `_locations`. -/
theorem le_two_pow_locationWidth {m : Nat} (hLe : m ≤ 2 ^ 32) : m ≤ 2 ^ locationWidth m := by
  unfold locationWidth
  split_ifs <;> assumption

theorem position_of_residues {m : Nat} (hm : 0 < m) (hash : BitVec 64) {a b : Nat}
    (ha : (a : Int) = highWord hash % m) (hb : (b : Int) = lowWord hash % m) (i : Nat) :
    (a + i * b + (i + 1).choose 3) % m = position m hash i := by
  have hPos : (0 : Int) < m := by exact_mod_cast hm
  have hCast : (((a + i * b + (i + 1).choose 3) % m : Nat) : Int) = position m hash i := by
    rw [position, Int.toNat_of_nonneg (Int.emod_nonneg _ hPos.ne')]
    push_cast
    rw [ha, hb]
    have hA : highWord hash % m ≡ highWord hash [ZMOD m] := Int.mod_modEq _ _
    have hB : lowWord hash % m ≡ lowWord hash [ZMOD m] := Int.mod_modEq _ _
    exact (hA.add (hB.mul_left i)).add_right _
  exact_mod_cast hCast

/-- For every string and every number of hash functions, the positions that the loops store are
those of enhanced double hashing with the halves of the string's FNV-1a hash. The product, the
remainders and the typed array lose nothing up to 2^32 bits; how well the positions are spread
is not looked at. -/
theorem locations_eq {m : Nat} (hm : 0 < m) (hLe : m ≤ 2 ^ 32) (k : Nat) (v : JsString) :
    locations m k v = (List.range k).map (position m (fnv1a v)) := by
  have ha : ((reduce (highWord (fnv1a v)) m : Nat) : Int) = highWord (fnv1a v) % m := cast_reduce hm _
  have hb : ((reduce (lowWord (fnv1a v)) m : Nat) : Int) = lowWord (fnv1a v) % m := cast_reduce hm _
  have hStored : ∀ i, position m (fnv1a v) i % 2 ^ locationWidth m = position m (fnv1a v) i := by
    intro i
    refine Nat.mod_eq_of_lt (Nat.lt_of_lt_of_le ?_ (le_two_pow_locationWidth hLe))
    rw [← position_of_residues hm _ ha hb]
    exact Nat.mod_lt _ hm
  simp only [locations, signedWord_high, signedWord_low]
  have hRaw : reduce (highWord (fnv1a v)) m ::
      doubleHash m (reduce (highWord (fnv1a v)) m) (reduce (lowWord (fnv1a v)) m) 1 (k - 1) =
        (List.range (k - 1 + 1)).map (position m (fnv1a v)) := by
    rw [doubleHash_eq, List.range_succ_eq_map, List.map_cons, List.map_map]
    refine congrArg₂ List.cons ?_ (List.map_congr_left fun j _ => ?_)
    · rw [← position_of_residues hm _ ha hb, Nat.zero_mul, Nat.add_zero, Nat.choose_eq_zero_of_lt (by decide),
        Nat.add_zero, Nat.mod_eq_of_lt (reduce_lt hm _)]
    · have hThree : (j + 1 + 1).choose 3 = (j + 1).choose 2 + (j + 1).choose 3 := Nat.choose_succ_succ _ _
      show _ = position m (fnv1a v) (j + 1)
      rw [← position_of_residues hm _ ha hb, hThree]
      congr 1
      ring
  rw [hRaw, ← List.map_take, List.take_range, List.map_map]
  cases k with
  | zero => rfl
  | succ k =>
      rw [Nat.add_sub_cancel, Nat.min_self]
      exact List.map_congr_left fun i _ => hStored i

/-- "abc" in a filter of three hash functions and 96 bits. -/
theorem locations_eq_abc : locations 96 3 [0x61, 0x62, 0x63] =
    (List.range 3).map (position 96 0xe71fa2190541574b#64) := by
  rw [locations_eq (by decide) (by decide)]
  exact congrArg (fun hash => (List.range 3).map (position 96 hash)) (by decide)

end BloomFilter

end TokenRevoker
