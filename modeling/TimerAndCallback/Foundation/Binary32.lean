import Mathlib

/-! # Whole numbers as binary32 numbers

The bits of the binary32 number to which a word is converted, from the logical model of
`Float32`: a number with more than 24 bits is rounded to 24, to the nearest such number,
a shorter one is scaled to 24, and the exponent is put above. From this follows which
words are the bits of the number they are converted to.
-/

namespace Binary32

open Float.Model Float.Model.UnpackedFloat

section Rounding

/-- A number's bits from `shift` on, with what the residual bits keep of the others. -/
def shifted (number shift : Nat) : ExtendedMantissa :=
  ExtendedMantissa.ofMantissaAndAccuracy number .exact >>> shift

/-- The number of `2 ^ shift` to which a number is rounded. -/
def rounded (number shift : Nat) : Nat := (shifted number shift).roundedMantissa

variable (number shift : Nat)

private theorem shifted_succ :
    shifted number (shift + 1) = (shifted number shift).shiftRightOne := rfl

private theorem shifted_mantissa : (shifted number shift).mantissa = number / 2 ^ shift := by
  induction shift with
  | zero => exact (Nat.div_one number).symm
  | succ shift ih =>
      rw [shifted_succ, ExtendedMantissa.shiftRightOne, ih, Nat.div_div_eq_div_mul, pow_succ]

/-- The residual bits together tell whether a bit was lost. -/
theorem shifted_residual :
    ((shifted number shift).roundBit || (shifted number shift).stickyBit) =
      decide (number % 2 ^ shift ≠ 0) := by
  induction shift with
  | zero =>
      rw [pow_zero, Nat.mod_one]
      rfl
  | succ shift ih =>
      rw [shifted_succ, ExtendedMantissa.shiftRightOne]
      dsimp only
      rw [ih, shifted_mantissa, pow_succ, Nat.mod_mul]
      by_cases low : number % 2 ^ shift = 0 <;>
        rcases Nat.mod_two_eq_zero_or_one (number / 2 ^ shift) with bit | bit <;>
          simp [low, bit]

private theorem roundedMantissa_bounds (em : ExtendedMantissa) :
    em.mantissa ≤ em.roundedMantissa ∧ em.roundedMantissa ≤ em.mantissa + 1 := by
  rcases em with ⟨mantissa, roundBit, stickyBit⟩
  cases roundBit <;> cases stickyBit <;>
    simp only [ExtendedMantissa.roundedMantissa, ExtendedMantissa.accuracy,
      Accuracy.roundToNearestEven] <;> omega

/-- One more bit is rounded up if it is set and something was lost below it, and to even
if it is set and nothing was. -/
theorem roundedMantissa_shiftRightOne (em : ExtendedMantissa) :
    em.shiftRightOne.roundedMantissa = em.mantissa / 2 +
      if em.mantissa % 2 = 0 then 0
      else if em.roundBit || em.stickyBit then 1 else em.mantissa / 2 % 2 := by
  rcases em with ⟨mantissa, roundBit, stickyBit⟩
  rcases Nat.mod_two_eq_zero_or_one mantissa with bit | bit <;>
    cases roundBit <;> cases stickyBit <;>
      simp [ExtendedMantissa.shiftRightOne, ExtendedMantissa.roundedMantissa,
        ExtendedMantissa.accuracy, Accuracy.roundToNearestEven, bit]

/-- Rounding goes to the nearest: the error is at most half of the unit. -/
theorem rounded_nearest :
    2 * number ≤ 2 * (rounded number shift * 2 ^ shift) + 2 ^ shift ∧
      2 * (rounded number shift * 2 ^ shift) ≤ 2 * number + 2 ^ shift := by
  cases shift with
  | zero =>
      change 2 * number ≤ 2 * (number * 1) + 1 ∧ 2 * (number * 1) ≤ 2 * number + 1
      omega
  | succ shift =>
      have split := Nat.div_add_mod number (2 ^ shift)
      have below := Nat.mod_lt number (Nat.two_pow_pos shift)
      have halves := Nat.div_add_mod (number / 2 ^ shift) 2
      rw [rounded, shifted_succ, roundedMantissa_shiftRightOne, shifted_residual,
        shifted_mantissa, pow_succ]
      generalize number / 2 ^ shift = whole at *
      generalize number % 2 ^ shift = low at *
      generalize 2 ^ shift = unit at *
      have expanded : unit * whole = 2 * (unit * (whole / 2)) + unit * (whole % 2) := by
        calc
          unit * whole = unit * (2 * (whole / 2) + whole % 2) := by rw [halves]
          _ = 2 * (unit * (whole / 2)) + unit * (whole % 2) := by ring
      have scaled : ∀ carry, (whole / 2 + carry) * (unit * 2) =
          2 * (unit * (whole / 2)) + 2 * (unit * carry) := by
        intro carry
        ring
      rw [scaled]
      rcases Nat.mod_two_eq_zero_or_one whole with bit | bit
      · rw [bit, if_pos rfl]
        rw [bit] at expanded
        omega
      · rw [bit, if_neg one_ne_zero]
        rw [bit] at expanded
        by_cases lost : low = 0
        · rcases Nat.mod_two_eq_zero_or_one (whole / 2) with even | odd
          · simp only [lost, ne_eq, not_true_eq_false, decide_false, Bool.false_eq_true,
              ↓reduceIte, even]
            omega
          · simp only [lost, ne_eq, not_true_eq_false, decide_false, Bool.false_eq_true,
              ↓reduceIte, odd]
            omega
        · simp only [ne_eq, lost, not_false_eq_true, decide_true, ↓reduceIte]
          omega

end Rounding

section Conversion

variable {number : Nat} {exponent : Int}

private theorem targetExponent_eq {total : Int} (normal : -125 ≤ total) :
    Format.binary32.targetExponent total = total - 24 := by
  change max (total - 24) (-149) = total - 24
  omega

/-- A number with at least 24 bits is shifted until it has 24. -/
theorem shiftToTargetExponent_eq (wide : 23 ≤ number.log2)
    (normal : -126 ≤ number.log2 + exponent) :
    shiftToTargetExponent Format.binary32 number exponent .exact =
      (shifted number (number.log2 - 23), exponent + (number.log2 - 23 : Nat)) := by
  have amount : (Format.binary32.targetExponent (totalExponent number exponent) -
      exponent).toNat = number.log2 - 23 := by
    rw [targetExponent_eq (by unfold totalExponent; omega), totalExponent]
    omega
  rw [shiftToTargetExponent, shiftToExponent, amount]
  rfl

/-- The bits of a normal number: the exponent, which the leading bit of the mantissa
increments, over the mantissa. -/
theorem pack_finite {mantissa : Nat} (positive : 0 < mantissa) (leading : mantissa.log2 = 23)
    (lower : -149 ≤ exponent) (upper : exponent ≤ 104) :
    ((UnpackedFloat.pack Format.binary32
        (.finite .positive mantissa exponent positive)).toNat : Int) =
      (149 + exponent) * 2 ^ 23 + mantissa := by
  have low : 2 ^ 23 ≤ mantissa := leading ▸ Nat.log2_self_le (by omega)
  have high : mantissa < 2 ^ 24 := by
    have above : mantissa < 2 ^ (mantissa.log2 + 1) := Nat.lt_log2_self
    rwa [leading] at above
  have biased : (exponent + Format.binary32.exponentBias + (23 : Nat)).toNat =
      (exponent + 150).toNat := by
    change (exponent + 127 + 23).toNat = _
    omega
  have finite : ¬ 2 ^ 8 ≤ (exponent + 150).toNat + 1 := by omega
  have normal : mantissa.log2 + 1 = Format.binary32.mantissaBits := by rw [leading]; rfl
  have packed : UnpackedFloat.pack Format.binary32 (.finite .positive mantissa exponent positive) =
      0#1 ++ BitVec.ofNat 8 (exponent + 150).toNat ++ BitVec.ofNat 23 mantissa := by
    unfold UnpackedFloat.pack
    dsimp only
    rw [biased, if_neg finite, if_pos normal]
    rfl
  have mantissaBits : (BitVec.ofNat 23 mantissa).toNat = mantissa - 2 ^ 23 := by
    rw [BitVec.toNat_ofNat]
    omega
  have exponentBits : (0#1 ++ BitVec.ofNat 8 (exponent + 150).toNat).toNat =
      (exponent + 150).toNat := by
    rw [BitVec.toNat_append, BitVec.toNat_ofNat, BitVec.toNat_ofNat, Nat.zero_mod,
      Nat.zero_shiftLeft, Nat.zero_or]
    omega
  rw [packed, BitVec.toNat_append, mantissaBits, exponentBits,
    ← Nat.shiftLeft_add_eq_or_of_lt (by omega), Nat.shiftLeft_eq]
  omega

/-- Rounding to 24 bits leaves 24 bits, or carries into the next power of two. -/
theorem rounded_bounds (wide : 23 ≤ number.log2) :
    2 ^ 23 ≤ rounded number (number.log2 - 23) ∧ rounded number (number.log2 - 23) ≤ 2 ^ 24 := by
  have positive : number ≠ 0 := by
    rintro rfl
    exact absurd wide (by decide)
  have bounds := roundedMantissa_bounds (shifted number (number.log2 - 23))
  rw [shifted_mantissa] at bounds
  have unit := Nat.two_pow_pos (number.log2 - 23)
  have low : 2 ^ 23 ≤ number / 2 ^ (number.log2 - 23) := by
    rw [Nat.le_div_iff_mul_le unit, ← pow_add, Nat.add_sub_cancel' wide]
    exact Nat.log2_self_le positive
  have high : number / 2 ^ (number.log2 - 23) < 2 ^ 24 := by
    rw [Nat.div_lt_iff_lt_mul unit, ← pow_add,
      show 24 + (number.log2 - 23) = number.log2 + 1 by omega]
    exact Nat.lt_log2_self
  unfold rounded
  omega

/-- After rounding the number is shifted once more, by the bit of a carry. -/
theorem roundWithAccuracy_eq {mantissa shift : Nat} (wide : 23 ≤ number.log2)
    (normal : -126 ≤ number.log2 + exponent) (named : rounded number (number.log2 - 23) = mantissa)
    (carried : mantissa.log2 = 23 + shift) (positive : 0 < mantissa / 2 ^ shift) :
    roundWithAccuracy Format.binary32 .positive number exponent .exact =
      .finite .positive (mantissa / 2 ^ shift) (exponent + (number.log2 - 23 : Nat) + shift)
        positive := by
  have amount : mantissa.log2 - 23 = shift := by omega
  have again : shiftToTargetExponent Format.binary32 mantissa (exponent + (number.log2 - 23 : Nat))
      .exact = (shifted mantissa shift, exponent + (number.log2 - 23 : Nat) + shift) := by
    rw [shiftToTargetExponent_eq (by omega) (by omega), amount]
  unfold roundWithAccuracy
  rw [shiftToTargetExponent_eq wide normal]
  have first : (shifted number (number.log2 - 23)).roundedMantissa = mantissa := named
  simp only [first, again, shifted_mantissa, positive.ne', ↓reduceDIte]

/-- A number of 24 bits or more is rounded to 24, and packed. A carry leaves the mantissa
zero and increments the exponent, which is the same sum. -/
theorem pack_roundWithAccuracy (wide : 23 ≤ number.log2)
    (lower : -126 ≤ number.log2 + exponent) (upper : number.log2 + exponent ≤ 126) :
    ((UnpackedFloat.pack Format.binary32
        (roundWithAccuracy Format.binary32 .positive number exponent .exact)).toNat : Int) =
      (126 + number.log2 + exponent) * 2 ^ 23 + rounded number (number.log2 - 23) := by
  obtain ⟨low, high⟩ := rounded_bounds wide
  generalize named : rounded number (number.log2 - 23) = mantissa at low high ⊢
  rcases Nat.lt_or_eq_of_le high with fits | carries
  · have leading : mantissa.log2 = 23 + 0 := (Nat.log2_eq_iff (by omega)).mpr ⟨low, fits⟩
    have whole : mantissa / 2 ^ 0 = mantissa := Nat.div_one mantissa
    rw [roundWithAccuracy_eq wide lower named leading (by omega),
      pack_finite _ (by rw [whole]; exact leading) (by omega) (by omega), whole]
    omega
  · subst carries
    have leading : (2 ^ 24).log2 = 23 + 1 := Nat.log2_two_pow
    have half : 2 ^ 24 / 2 ^ 1 = 2 ^ 23 := rfl
    rw [roundWithAccuracy_eq wide lower named leading (by decide),
      pack_finite _ (by rw [half]; exact Nat.log2_two_pow) (by omega) (by omega), half]
    omega

/-- A whole number with its fewer than 24 bits moved up to 24. -/
def widened (number : Nat) : Nat := number <<< (23 - number.log2)

private theorem log2_widened (positive : 0 < number) :
    (widened number).log2 = max number.log2 23 := by
  have unit := Nat.two_pow_pos (23 - number.log2)
  have top : max number.log2 23 = number.log2 + (23 - number.log2) := by omega
  rw [widened, Nat.shiftLeft_eq, top, Nat.log2_eq_iff (Nat.mul_pos positive unit).ne']
  constructor
  · rw [pow_add]
    exact Nat.mul_le_mul_right _ (Nat.log2_self_le positive.ne')
  · rw [Nat.add_right_comm, pow_add]
    exact (Nat.mul_lt_mul_right unit).mpr Nat.lt_log2_self

/-- A whole number gets 24 bits before it is rounded. -/
theorem normalize_natCast (positive : 0 < number) :
    UnpackedFloat.normalize Format.binary32 number 0 .positive =
      roundWithAccuracy Format.binary32 .positive (widened number)
        (0 - (23 - number.log2 : Nat)) .exact := by
  have amount : (0 - Format.binary32.targetExponent (totalExponent number 0)).toNat =
      23 - number.log2 := by
    rw [targetExponent_eq (by unfold totalExponent; omega), totalExponent]
    omega
  have above : 0 < (number : Int) := by omega
  rw [UnpackedFloat.normalize, Int.compare_eq_gt.mpr above]
  dsimp only
  rw [UnpackedFloat.round, Int.toNat_natCast]
  dsimp only
  rw [decreaseExponent, amount, widened]

section Words

variable {value : UInt32}

private theorem log2_lt (positive : 0 < value.toNat) : value.toNat.log2 < 32 :=
  (Nat.log2_lt (by omega)).mpr value.toNat_lt

/-- The bits of the number to which a positive word is converted: the exponent, and the
word in 24 bits. -/
theorem toBits_toFloat32 (positive : 0 < value.toNat) :
    value.toFloat32.toBits.toNat = (126 + value.toNat.log2) * 2 ^ 23 +
      rounded (widened value.toNat) (value.toNat.log2 - 23) := by
  have small := log2_lt positive
  have width := log2_widened positive
  have shift : (widened value.toNat).log2 - 23 = value.toNat.log2 - 23 := by omega
  have wide : 23 ≤ (widened value.toNat).log2 := by omega
  have packed := pack_roundWithAccuracy wide
    (by omega : -126 ≤ _ + (0 - (23 - value.toNat.log2 : Nat) : Int)) (by omega)
  rw [← normalize_natCast positive, shift] at packed
  change (UnpackedFloat.pack Format.binary32
    (UnpackedFloat.normalize Format.binary32 value.toNat 0 .positive)).toNat = _
  omega

example : (1 : UInt32).toFloat32.toBits = 0x3F800000 := by decide +kernel

/-- The bits lie between those of the powers of two around the word. -/
theorem toBits_toFloat32_bounds (positive : 0 < value.toNat) :
    (127 + value.toNat.log2) * 2 ^ 23 ≤ value.toFloat32.toBits.toNat ∧
      value.toFloat32.toBits.toNat ≤ (128 + value.toNat.log2) * 2 ^ 23 := by
  have width := log2_widened positive
  have shift : (widened value.toNat).log2 - 23 = value.toNat.log2 - 23 := by omega
  have wide : 23 ≤ (widened value.toNat).log2 := by omega
  have bounds := rounded_bounds wide
  rw [shift] at bounds
  rw [toBits_toFloat32 positive]
  omega

/-- Below `2 ^ 30` the bits are above the word, and from `2 ^ 31` on below it. -/
theorem log2_of_fixed (positive : 0 < value.toNat)
    (fixed : value.toFloat32.toBits = value) : value.toNat.log2 = 30 := by
  have small := log2_lt positive
  have low := Nat.log2_self_le positive.ne'
  have high : value.toNat < 2 ^ (value.toNat.log2 + 1) := Nat.lt_log2_self
  have bounds := toBits_toFloat32_bounds positive
  rw [fixed] at bounds
  rcases Nat.lt_or_ge value.toNat.log2 30 with less | more
  · have short : 2 ^ (value.toNat.log2 + 1) ≤ 2 ^ 30 := Nat.pow_le_pow_right (by decide) less
    rcases Nat.eq_zero_or_pos value.toNat.log2 with one | longer
    · rw [one] at high bounds
      omega
    · omega
  · rcases Nat.lt_or_eq_of_le more with above | same
    · have top : value.toNat.log2 = 31 := by omega
      rw [top] at low bounds
      omega
    · exact same.symm

/-- Only two words are the bits of the number they are converted to. From `2 ^ 30` to
`2 ^ 31` the bits grow by one where the word grows by 128, so they meet once. -/
theorem toBits_toFloat32_eq_self_iff :
    value.toFloat32.toBits = value ↔ value = 0 ∨ value = 0x4E9D3A75 := by
  constructor
  · intro fixed
    rcases Nat.eq_zero_or_pos value.toNat with zero | positive
    · exact Or.inl (UInt32.toNat_inj.mp zero)
    · have leading := log2_of_fixed positive fixed
      have long : widened value.toNat = value.toNat := by
        rw [widened, leading]
        rfl
      have bits := toBits_toFloat32 positive
      rw [fixed, leading, long] at bits
      have nearest := rounded_nearest value.toNat (30 - 23)
      right
      apply UInt32.toNat_inj.mp
      change value.toNat = 1318926965
      omega
  · rintro (rfl | rfl) <;> decide +kernel

end Words

end Conversion

end Binary32
