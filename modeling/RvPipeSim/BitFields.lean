import RvPipeSim.Utilities

/-!
# The bit-field helpers as bit-vector operations

`extractBits`, `sext32` and `sext64` shift and mask. On a value that fits its field they
cut out a range of bits and extend its sign.
-/

namespace RvPipeSim

/-- A field of a narrow value, kept in 64 bits as the source keeps it. -/
theorem extractBits_setWidth {m : ℕ} (v : BitVec m) {hi lo n : ℕ} (hn : hi - lo + 1 = n)
    (hn' : n ≤ 64) (hm : m ≤ 64) :
    extractBits (v.setWidth 64) hi lo = (v.extractLsb' lo n).setWidth 64 := by
  have hpos : 0 < 2 ^ n := Nat.two_pow_pos n
  have hle : 2 ^ n ≤ 2 ^ 64 := Nat.pow_le_pow_right (by decide) hn'
  have hmask : ((1#64 <<< n) - 1#64).toNat = 2 ^ n - 1 := by
    rw [BitVec.toNat_sub, BitVec.toNat_shiftLeft]
    simp only [BitVec.toNat_ofNat, Nat.shiftLeft_eq]
    omega
  have hv : (v.setWidth 64).toNat = v.toNat := by
    rw [BitVec.toNat_setWidth]
    exact Nat.mod_eq_of_lt (Nat.lt_of_lt_of_le v.isLt (Nat.pow_le_pow_right (by decide) hm))
  have hfield : v.toNat >>> lo % 2 ^ n < 2 ^ 64 := Nat.lt_of_lt_of_le (Nat.mod_lt _ hpos) hle
  subst hn
  apply BitVec.eq_of_toNat_eq
  rw [extractBits, BitVec.toNat_and, hmask, BitVec.toNat_ushiftRight, hv,
    Nat.and_two_pow_sub_one_eq_mod, BitVec.toNat_setWidth, BitVec.extractLsb'_toNat,
    Nat.mod_eq_of_lt hfield]

/-- The test of a single bit. -/
theorem and_bit_ne_zero_iff {w n : ℕ} {x : BitVec w} (hn : n < w) :
    x &&& (1#w <<< n) ≠ 0#w ↔ x.getLsbD n = true := by
  have hbit : 1#w <<< n ≠ 0#w := by
    intro h
    have := congrArg (·.getLsbD n) h
    simp [hn] at this
  have hand : x &&& (1#w <<< n) = if x.getLsbD n then 1#w <<< n else 0#w :=
    BitVec.and_twoPow x n
  rw [hand]
  split
  · rename_i h
    exact ⟨fun _ => h, fun _ => hbit⟩
  · rename_i h
    exact ⟨fun hne => absurd rfl hne, fun hbit => absurd hbit h⟩

/-- Testing the sign bit and setting the bits above it is sign extension, of a value that
is zero above its field and of one that is sign-extended already. -/
theorem signExtend_of_test {n w : ℕ} {v : BitVec (n + 1)} {x : BitVec w} (hn : n < w)
    (hx : x = v.setWidth w ∨ x = v.signExtend w) :
    (if x &&& (1#w <<< n) ≠ 0#w then x ||| (~~~0#w <<< (n + 1)) else x) = v.signExtend w := by
  have hlow : ∀ i < n + 1, x.getLsbD i = v.getLsbD i := by
    intro i hi
    rcases hx with rfl | rfl
    · rw [BitVec.getLsbD_setWidth, decide_eq_true (by omega), Bool.true_and]
    · rw [BitVec.getLsbD_signExtend, if_pos hi, decide_eq_true (by omega), Bool.true_and]
  have hsign : x.getLsbD n = v.msb := by
    rw [hlow n (Nat.lt_succ_self n), BitVec.msb_eq_getLsbD_last, Nat.add_sub_cancel]
  have hhigh : v.msb = false → x = v.signExtend w := by
    intro h
    rcases hx with rfl | rfl
    · exact (BitVec.signExtend_eq_setWidth_of_msb_false h).symm
    · rfl
  by_cases hb : v.msb = true
  · rw [if_pos ((and_bit_ne_zero_iff hn).mpr (hsign.trans hb))]
    apply BitVec.eq_of_getLsbD_eq
    intro i hi
    rw [BitVec.getLsbD_or, BitVec.getLsbD_shiftLeft, BitVec.getLsbD_signExtend, hb]
    by_cases hin : i < n + 1
    · rw [if_pos hin, hlow i hin]
      simp [hin, hi]
    · have hsub : i - (n + 1) < w := by omega
      simp [hin, hi, hsub]
  · rw [if_neg (fun h => hb (hsign.symm.trans ((and_bit_ne_zero_iff hn).mp h)))]
    exact hhigh (Bool.eq_false_iff.mpr hb)

/-- `sext64` of a value that is zero above bit `n`. -/
theorem sext64_setWidth {n : ℕ} (v : BitVec (n + 1)) (hn : n < 64) :
    sext64 (v.setWidth 64) n = v.signExtend 64 :=
  signExtend_of_test hn (.inl rfl)

/-- Extending again a value whose sign has been extended changes nothing. -/
theorem sext64_signExtend {n : ℕ} (v : BitVec (n + 1)) (hn : n < 64) :
    sext64 (v.signExtend 64) n = v.signExtend 64 :=
  signExtend_of_test hn (.inr rfl)

/-- `sext32` extends the sign of a value of `n + 1` bits. -/
theorem sext32_setWidth {n : ℕ} (v : BitVec (n + 1)) (hn : n < 32) :
    sext32 (v.setWidth 32) n = v.signExtend 32 :=
  signExtend_of_test hn (.inl rfl)

/-- Pieces put together by shifting and masking are appended. -/
theorem setWidth_append {n m : ℕ} (a : BitVec n) (b : BitVec m) :
    (a ++ b).setWidth 64 = (a.setWidth 64 <<< m) ||| b.setWidth 64 := by
  apply BitVec.eq_of_getLsbD_eq
  intro i hi
  rw [BitVec.getLsbD_setWidth, BitVec.getLsbD_append, BitVec.getLsbD_or, BitVec.getLsbD_shiftLeft,
    BitVec.getLsbD_setWidth, BitVec.getLsbD_setWidth]
  by_cases him : i < m
  · simp [him, hi]
  · have hsub : i - m < 64 := by omega
    simp [him, hi, hsub, BitVec.getLsbD_of_ge b i (by omega)]

/-- A shift amount masked to its low bits. -/
theorem and_mask_toNat (b : BitVec 64) :
    (b &&& 0x3F#64).toNat = (b.setWidth 6).toNat ∧
      ((b &&& 0x1F#64).setWidth 32).toNat = ((b.setWidth 32).setWidth 5).toNat := by
  have h6 : b.toNat &&& 63 = b.toNat % 2 ^ 6 := Nat.and_two_pow_sub_one_eq_mod b.toNat 6
  have h5 : b.toNat &&& 31 = b.toNat % 2 ^ 5 := Nat.and_two_pow_sub_one_eq_mod b.toNat 5
  constructor
  · simp [BitVec.toNat_and, h6]
  · have hmask : 31 % 2 ^ 64 = 31 := by decide
    rw [BitVec.toNat_setWidth, BitVec.toNat_and, BitVec.toNat_ofNat, hmask, h5,
      BitVec.toNat_setWidth, BitVec.toNat_setWidth]
    omega

end RvPipeSim
