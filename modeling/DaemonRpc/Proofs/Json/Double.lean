import Mathlib

/-!
# Doubles that stay finite

A double is a mantissa and an exponent, or a zero, or not finite.  What is computed from doubles is
rounded to 53 places and then put into 64 bits, and it becomes infinite only if its exponent has no
place there.  So finiteness is a matter of exponents: the lemmas follow a bound on them through the
conversion of words and through quotients, and never ask for the value.

* `Fits` bounds the exponent, `isFinite_iff_fits` is what a bound says about a double, and
  `Fits.unpack_pack` that the bits keep it.
* `fits_uint64ToFloat` and `fits_div` are the two operations, and `reaches_ofScientific` says that
  powers of ten are fit to divide by: a quotient by an infinity is zero.
-/

namespace DaemonRpc

open Float.Model Float.Model.UnpackedFloat

/-! ## Bounds on exponents -/

/-- A finite number whose exponent is within the bound. -/
def Fits (bound : Int) : UnpackedFloat → Prop
  | .zero _ => True
  | .finite _ _ exponent _ => exponent ≤ bound
  | .infinity _ => False
  | .notANumber => False

/-- What a double may be divided by: it is not zero, and has no place below `2 ^ (-53)`. -/
def Reaches : UnpackedFloat → Prop
  | .zero _ => False
  | .finite _ _ exponent _ => -53 ≤ exponent
  | .infinity _ => True
  | .notANumber => False

instance : DecidablePred Reaches
  | .zero _ => isFalse id
  | .finite _ _ exponent _ => inferInstanceAs (Decidable (-53 ≤ exponent))
  | .infinity _ => isTrue trivial
  | .notANumber => isFalse id

theorem Fits.mono {bound bound' : Int} {u : UnpackedFloat} (h : Fits bound u)
    (hle : bound ≤ bound') : Fits bound' u := by
  cases u with
  | zero _ => trivial
  | finite _ _ _ _ => exact Int.le_trans h hle
  | infinity _ => exact h.elim
  | notANumber => exact h.elim

theorem Fits.neg {bound : Int} {u : UnpackedFloat} (h : Fits bound u) : Fits bound u.neg := by
  cases u with
  | zero _ => trivial
  | finite _ _ _ _ => exact h
  | infinity _ => exact h.elim
  | notANumber => exact h.elim

/-! ## The bits of a double -/

section Bits

variable {b : BitVec 64}

theorem toNat_unpackExponent_lt : (@unpackExponent .binary64 b).toNat < 2048 :=
  (@unpackExponent .binary64 b).isLt

/-- The largest exponent is the mark of what is not finite. -/
theorem unpackExponent_eq_mark_iff :
    @unpackExponent .binary64 b = -1#_ ↔ (@unpackExponent .binary64 b).toNat = 2047 :=
  ⟨congrArg BitVec.toNat, fun h => BitVec.eq_of_toNat_eq h⟩

theorem unpackExponent_eq_zero_iff :
    @unpackExponent .binary64 b = 0#_ ↔ (@unpackExponent .binary64 b).toNat = 0 :=
  ⟨congrArg BitVec.toNat, fun h => BitVec.eq_of_toNat_eq h⟩

/-- The bound on the exponent of a double is one on the bits of the exponent. -/
theorem fits_unpack_iff {bound : Int} (hlower : -1074 ≤ bound) (hupper : bound ≤ 971) :
    Fits bound (UnpackedFloat.unpack .binary64 b) ↔
      ((@unpackExponent .binary64 b).toNat : Int) ≤ bound + 1075 := by
  fun_cases UnpackedFloat.unpack Format.binary64 b with
  | case1 =>
    rename_i hmark _
    replace hmark := unpackExponent_eq_mark_iff.1 hmark
    exact iff_of_false id (by omega)
  | case2 =>
    rename_i hmark _
    replace hmark := unpackExponent_eq_mark_iff.1 hmark
    exact iff_of_false id (by omega)
  | case3 =>
    rename_i hzero _
    replace hzero := unpackExponent_eq_zero_iff.1 hzero
    exact iff_of_true trivial (by omega)
  | case4 =>
    rename_i hzero _
    replace hzero := unpackExponent_eq_zero_iff.1 hzero
    show (@unpackExponent .binary64 b).toNat - (1023 + 52 : Int) + 1 ≤ bound ↔ _
    omega
  | case5 =>
    show (@unpackExponent .binary64 b).toNat - (1023 + 52 : Int) ≤ bound ↔ _
    omega

/-- What is finite fits, and nothing else does. -/
theorem isFinite_unpack_iff :
    (UnpackedFloat.unpack .binary64 b).isFinite = true ↔
      Fits 971 (UnpackedFloat.unpack .binary64 b) := by
  rw [fits_unpack_iff (by omega) (by omega)]
  have hlt := toNat_unpackExponent_lt (b := b)
  fun_cases UnpackedFloat.unpack Format.binary64 b with
  | case1 =>
    rename_i hmark _
    replace hmark := unpackExponent_eq_mark_iff.1 hmark
    exact iff_of_false Bool.false_ne_true (by omega)
  | case2 =>
    rename_i hmark _
    replace hmark := unpackExponent_eq_mark_iff.1 hmark
    exact iff_of_false Bool.false_ne_true (by omega)
  | case3 =>
    rename_i hmark _ _
    rw [unpackExponent_eq_mark_iff] at hmark
    exact iff_of_true rfl (by omega)
  | case4 =>
    rename_i hmark _ _
    rw [unpackExponent_eq_mark_iff] at hmark
    exact iff_of_true rfl (by omega)
  | case5 =>
    rename_i hmark _
    rw [unpackExponent_eq_mark_iff] at hmark
    exact iff_of_true rfl (by omega)

/-- The bits of a mantissa and the one that is not stored are 53. -/
theorem mantissa_lt_of_unpack {s : Sign} {m : Nat} {e : Int} {hm : 0 < m} :
    UnpackedFloat.unpack .binary64 b = .finite s m e hm → m < 2 ^ 53 := by
  fun_cases UnpackedFloat.unpack Format.binary64 b with
  | case1 => intro h; cases h
  | case2 => intro h; cases h
  | case3 => intro h; cases h
  | case4 =>
    intro h
    rw [← (UnpackedFloat.finite.inj h).2.1]
    have hlt := (@unpackMantissa .binary64 b).isLt
    exact Nat.lt_trans hlt (by decide)
  | case5 =>
    intro h
    rw [← (UnpackedFloat.finite.inj h).2.1]
    exact ((1#1 : BitVec 1) ++ @unpackMantissa .binary64 b).isLt

end Bits

/-- Packed into bits, the exponent of a number stays within the bound. -/
theorem Fits.unpack_pack {bound : Int} {u : UnpackedFloat} (h : Fits bound u)
    (hlower : -1074 ≤ bound) (hupper : bound ≤ 971) :
    Fits bound (UnpackedFloat.unpack .binary64 (UnpackedFloat.pack .binary64 u)) := by
  rw [fits_unpack_iff hlower hupper]
  fun_cases UnpackedFloat.pack Format.binary64 u with
  | case1 => exact h.elim
  | case2 => exact h.elim
  | case3 s =>
    rw [packedZero, unpackExponent_packComponents]
    show ((0 : Nat) : Int) ≤ bound + 1075
    omega
  | case4 s m e hm biased hlarge =>
    -- an exponent within the bound is not that large
    replace h : e ≤ bound := h
    replace hlarge : 2048 ≤ (e + (1023 : Nat) + (52 : Nat)).toNat + 1 := hlarge
    omega
  | case5 s m e hm _ biased hsmall =>
    rw [unpackExponent_packComponents]
    replace h : e ≤ bound := h
    replace hsmall : ¬ 2048 ≤ (e + (1023 : Nat) + (52 : Nat)).toNat + 1 := hsmall
    show (((e + (1023 : Nat) + (52 : Nat)).toNat % 2048 : Nat) : Int) ≤ bound + 1075
    omega
  | case6 =>
    rw [unpackExponent_packComponents]
    show ((0 : Nat) : Int) ≤ bound + 1075
    omega

/-- A double is finite if its exponent is within the range. -/
theorem isFinite_iff_fits {x : Float} : x.isFinite = true ↔ Fits 971 x.toModel.unpack :=
  isFinite_unpack_iff

theorem isFinite_of_fits {x : Float} {bound : Int} (h : Fits bound x.toModel.unpack)
    (hle : bound ≤ 971) : x.isFinite = true :=
  isFinite_iff_fits.2 (h.mono hle)

/-- The negative of a finite double is finite. -/
theorem isFinite_neg {x : Float} (h : x.isFinite = true) : (-x).isFinite = true :=
  isFinite_unpack_iff.2 ((isFinite_iff_fits.1 h).neg.unpack_pack (by omega) (by omega))

/-! ## Rounding -/

theorem mantissa_shiftRight (em : ExtendedMantissa) (n : Nat) :
    (em >>> n).mantissa = em.mantissa >>> n := by
  show (n.repeat ExtendedMantissa.shiftRightOne em).mantissa = _
  induction n with
  | zero => rfl
  | succ n ih =>
    rw [Nat.repeat, Nat.shiftRight_succ, ← ih]
    rfl

theorem roundedMantissa_cases (em : ExtendedMantissa) :
    em.roundedMantissa = em.mantissa ∨ em.roundedMantissa = em.mantissa + 1 := by
  have hodd := Nat.mod_lt em.mantissa (y := 2) (by decide)
  unfold ExtendedMantissa.roundedMantissa
  fun_cases em.accuracy.roundToNearestEven em.mantissa with
  | case1 => omega
  | case2 => omega
  | case3 => omega
  | case4 => omega

/-- Shifting drops places of the mantissa, and the exponent becomes what the places ask for. -/
theorem shiftToTargetExponent_spec {m : Nat} {e e' : Int} {acc : Accuracy} {em : ExtendedMantissa}
    (h : shiftToTargetExponent .binary64 m e acc = (em, e')) :
    ∃ dropped : Nat, em.mantissa = m >>> dropped ∧ e' = e + dropped ∧
      e' = max e (max (m.log2 + 1 + e - 53) (-1074)) := by
  obtain ⟨hem, he'⟩ := Prod.mk.inj h
  have htarget : Format.binary64.targetExponent (totalExponent m e) =
      max (m.log2 + 1 + e - 53) (-1074) := rfl
  have hmantissa : (ExtendedMantissa.ofMantissaAndAccuracy m acc).mantissa = m := by
    cases acc with
    | exact => rfl
    | inexact rest => cases rest <;> rfl
  refine ⟨_, ?_, he'.symm, ?_⟩
  · rw [← hem, mantissa_shiftRight, hmantissa]
  · rw [← he', htarget]
    omega

theorem log2_le {m k : Nat} (h : m < 2 ^ (k + 1)) : m.log2 ≤ k := by
  by_cases hzero : m = 0
  · rw [hzero, Nat.log2_zero]
    omega
  · have := (Nat.log2_lt hzero).2 h
    omega

/-- Rounding a number of 64 places drops places of it, and the exponent grows by no more. -/
theorem fits_roundWithAccuracy (s : Sign) {m : Nat} {e bound : Int} (acc : Accuracy)
    (hm : m < 2 ^ 64) (he : e + 23 ≤ bound) (hbound : 0 ≤ bound) :
    Fits bound (roundWithAccuracy .binary64 s m e acc) := by
  fun_cases roundWithAccuracy Format.binary64 s m e acc with
  | case1 => trivial
  | case2 em₁ e₁ hfirst rounded em₂ e₂ hsecond =>
    obtain ⟨dropped, hmantissa, -, he₁⟩ := shiftToTargetExponent_spec hfirst
    obtain ⟨-, -, -, he₂⟩ := shiftToTargetExponent_spec hsecond
    have hplaces : m.log2 ≤ 63 := log2_le hm
    have hrounded : rounded.log2 ≤ 64 := by
      have hle : em₁.mantissa ≤ m := hmantissa ▸ Nat.shiftRight_le m dropped
      refine log2_le ?_
      rcases roundedMantissa_cases em₁ with h | h
      · omega
      · omega
    show e₂ ≤ bound
    omega

/-! ## The double of a word -/

/-- A whole number that fits a word is rounded to a double of a small exponent. -/
theorem fits_round (s : Sign) {m : Nat} (hm : m < 2 ^ 64) : Fits 23 (round .binary64 s m 0) := by
  have htarget : Format.binary64.targetExponent (totalExponent m 0) =
      max ((m.log2 : Int) + 1 + 0 - 53) (-1074) := rfl
  have hplaces : m.log2 ≤ 63 := log2_le hm
  -- a short number gets the places of a double first, and a long one stays as it is
  have hshifted :
      m <<< (0 - Format.binary64.targetExponent (totalExponent m 0)).toNat < 2 ^ 64 := by
    rw [htarget, Nat.shiftLeft_eq]
    generalize hcount : (0 - max ((m.log2 : Int) + 1 + 0 - 53) (-1074)).toNat = count
    calc m * 2 ^ count < 2 ^ (m.log2 + 1) * 2 ^ count :=
          Nat.mul_lt_mul_of_pos_right Nat.lt_log2_self (Nat.two_pow_pos count)
      _ = 2 ^ (m.log2 + 1 + count) := (Nat.pow_add 2 _ _).symm
      _ ≤ 2 ^ 64 := Nat.pow_le_pow_right (by decide) (by omega)
  exact fits_roundWithAccuracy s .exact hshifted (by omega) (by omega)

/-- The double of a word has a small exponent. -/
theorem fits_uint64ToFloat (n : UInt64) : Fits 23 n.toFloat.toModel.unpack := by
  have hn := n.toNat_lt
  show Fits 23 (UnpackedFloat.unpack .binary64 (UnpackedFloat.pack .binary64
    (normalize .binary64 (n.toNat : Int) 0 .positive)))
  refine Fits.unpack_pack ?_ (by omega) (by omega)
  fun_cases normalize Format.binary64 (n.toNat : Int) 0 .positive with
  | case1 => exact fits_round .negative (by omega)
  | case2 => trivial
  | case3 => exact fits_round .positive (by omega)

/-- The double of a word is finite. -/
theorem isFinite_uint64ToFloat (n : UInt64) : n.toFloat.isFinite = true :=
  isFinite_of_fits (fits_uint64ToFloat n) (by omega)

/-! ## Quotients -/

/-- A quotient has one place more than a double, and an exponent that is at most the difference. -/
theorem divCore_spec {m₁ m₂ m : Nat} {e₁ e₂ e : Int} {acc : Accuracy}
    (h : divCore .binary64 m₁ e₁ m₂ e₂ = (m, e, acc)) (hm₁ : m₁ < 2 ^ 53) (hm₂ : 0 < m₂) :
    m < 2 ^ 54 ∧ e ≤ e₁ - e₂ := by
  have htarget : Format.binary64.targetExponent (totalExponent m₁ e₁ - totalExponent m₂ e₂) =
      max ((m₁.log2 : Int) + 1 + e₁ - (m₂.log2 + 1 + e₂) - 53) (-1074) := rfl
  obtain ⟨hm, h⟩ := Prod.mk.inj h
  obtain ⟨he, -⟩ := Prod.mk.inj h
  rw [htarget] at hm he
  refine ⟨?_, by omega⟩
  rw [he] at hm
  rw [← hm, Nat.div_lt_iff_lt_mul hm₂, Nat.shiftLeft_eq]
  generalize hshift : (e₁ - e₂ - e).toNat = shift
  have hm₂ : 2 ^ m₂.log2 ≤ m₂ := Nat.log2_self_le (by omega)
  by_cases hzero : shift = 0
  · rw [hzero]
    omega
  · -- the shift stops at 53 places more than the divisor leaves
    calc m₁ * 2 ^ shift < 2 ^ (m₁.log2 + 1) * 2 ^ shift :=
          Nat.mul_lt_mul_of_pos_right Nat.lt_log2_self (Nat.two_pow_pos shift)
      _ = 2 ^ (m₁.log2 + 1 + shift) := (Nat.pow_add 2 _ _).symm
      _ ≤ 2 ^ (54 + m₂.log2) := Nat.pow_le_pow_right (by decide) (by omega)
      _ = 2 ^ 54 * 2 ^ m₂.log2 := Nat.pow_add 2 _ _
      _ ≤ 2 ^ 54 * m₂ := Nat.mul_le_mul_left _ hm₂

/-- Divided by a power of ten a double stays finite, and its exponent does not grow by much. -/
theorem fits_div {x y : Float} {bound : Int} (hx : Fits bound x.toModel.unpack)
    (hy : Reaches y.toModel.unpack) (hlower : 0 ≤ bound) (hupper : bound + 76 ≤ 971) :
    Fits (bound + 76) (x / y).toModel.unpack := by
  show Fits (bound + 76) (UnpackedFloat.unpack .binary64 (UnpackedFloat.pack .binary64
    (div .binary64 (UnpackedFloat.unpack .binary64 x.toModel.toBits.toBitVec) y.toModel.unpack)))
  refine Fits.unpack_pack ?_ (by omega) hupper
  have hplaces := @mantissa_lt_of_unpack x.toModel.toBits.toBitVec
  replace hx : Fits bound (UnpackedFloat.unpack .binary64 x.toModel.toBits.toBitVec) := hx
  generalize UnpackedFloat.unpack .binary64 x.toModel.toBits.toBitVec = u at hx hplaces
  generalize y.toModel.unpack = v at hy
  cases u with
  | infinity _ => exact hx.elim
  | notANumber => exact hx.elim
  | zero _ =>
    cases v with
    | zero _ => exact hy.elim
    | notANumber => exact hy.elim
    | infinity _ => trivial
    | finite _ _ _ _ => trivial
  | finite s₁ m₁ e₁ hm₁ =>
    cases v with
    | zero _ => exact hy.elim
    | notANumber => exact hy.elim
    | infinity _ => trivial
    | finite s₂ m₂ e₂ hm₂ =>
      replace hx : e₁ ≤ bound := hx
      replace hy : -53 ≤ e₂ := hy
      have hcore : divCore .binary64 m₁ e₁ m₂ e₂ = (_, _, _) := rfl
      obtain ⟨hm, he⟩ := divCore_spec hcore (hplaces rfl) hm₂
      exact fits_roundWithAccuracy _ _ (Nat.lt_trans hm (by decide)) (by omega) (by omega)

/-! ## Powers of ten -/

/-- Of a long mantissa a shift leaves the 53 places of a double. -/
theorem log2_shiftToTargetExponent {m : Nat} {e e' : Int} {acc : Accuracy} {em : ExtendedMantissa}
    (h : shiftToTargetExponent .binary64 m e acc = (em, e')) (hm : 52 ≤ m.log2) (he : -53 ≤ e) :
    em.mantissa.log2 = 52 ∧ -53 ≤ e' := by
  obtain ⟨dropped, hmantissa, he', htarget⟩ := shiftToTargetExponent_spec h
  refine ⟨?_, by omega⟩
  rw [hmantissa, Nat.shiftRight_eq_div_pow, Nat.log2_eq_log_two, Nat.log_div_base_pow,
    ← Nat.log2_eq_log_two]
  omega

/-- A rounded mantissa is at most one more, and that needs at most one more place. -/
theorem le_log2_roundedMantissa {em : ExtendedMantissa} (h : em.mantissa.log2 = 52) :
    52 ≤ em.roundedMantissa.log2 := by
  have hne : em.mantissa ≠ 0 := by
    intro hzero
    rw [hzero, Nat.log2_zero] at h
    omega
  have hlower : 2 ^ 52 ≤ em.mantissa := h ▸ Nat.log2_self_le hne
  rcases roundedMantissa_cases em with hrounded | hrounded
  · exact (Nat.le_log2 (by omega)).2 (by omega)
  · exact (Nat.le_log2 (by omega)).2 (by omega)

/-- Rounded from a long mantissa, a number is not zero and has the places of a double. -/
theorem exists_roundWithAccuracy_eq (s : Sign) {m : Nat} {e : Int} (acc : Accuracy)
    (hm : 52 ≤ m.log2) (he : -53 ≤ e) :
    ∃ m' e' h, roundWithAccuracy .binary64 s m e acc = .finite s m' e' h ∧
      m'.log2 = 52 ∧ -53 ≤ e' := by
  fun_cases roundWithAccuracy Format.binary64 s m e acc with
  | case1 em₁ e₁ hfirst rounded em₂ e₂ hsecond final hzero =>
    obtain ⟨hlog₁, he₁⟩ := log2_shiftToTargetExponent hfirst hm he
    obtain ⟨hlog₂, -⟩ := log2_shiftToTargetExponent hsecond (le_log2_roundedMantissa hlog₁) he₁
    replace hzero : em₂.mantissa = 0 := hzero
    rw [hzero, Nat.log2_zero] at hlog₂
    omega
  | case2 em₁ e₁ hfirst rounded em₂ e₂ hsecond final hzero =>
    obtain ⟨hlog₁, he₁⟩ := log2_shiftToTargetExponent hfirst hm he
    obtain ⟨hlog₂, he₂⟩ := log2_shiftToTargetExponent hsecond (le_log2_roundedMantissa hlog₁) he₁
    exact ⟨_, _, _, rfl, hlog₂, he₂⟩

/-- The places of bits end where their exponent says. -/
theorem reaches_unpack {b : BitVec 64} (hexponent : 1022 ≤ (@unpackExponent .binary64 b).toNat)
    (hmark : @unpackExponent .binary64 b = -1#_ → @unpackMantissa .binary64 b = 0#_) :
    Reaches (UnpackedFloat.unpack .binary64 b) := by
  fun_cases UnpackedFloat.unpack Format.binary64 b with
  | case1 => trivial
  | case2 =>
    rename_i hinfinite hfraction
    exact hfraction (hmark hinfinite)
  | case3 =>
    rename_i hzero _
    replace hzero := unpackExponent_eq_zero_iff.1 hzero
    omega
  | case4 =>
    rename_i hzero _
    replace hzero := unpackExponent_eq_zero_iff.1 hzero
    omega
  | case5 =>
    show -53 ≤ ((@unpackExponent .binary64 b).toNat : Int) - (1023 + 52)
    omega

theorem reaches_unpack_packedInfinity (s : Sign) :
    Reaches (UnpackedFloat.unpack .binary64 (packedInfinity .binary64 s)) := by
  refine reaches_unpack ?_ fun _ => ?_
  · rw [packedInfinity, unpackExponent_packComponents]
    decide
  · rw [packedInfinity, unpackMantissa_packComponents]
    rfl

/-- Packed into bits, a number with the places of a double keeps its exponent or is infinite. -/
theorem reaches_unpack_pack (s : Sign) {m : Nat} {e : Int} (hm : 0 < m) (hlog : m.log2 = 52)
    (he : -53 ≤ e) :
    Reaches (UnpackedFloat.unpack .binary64 (UnpackedFloat.pack .binary64 (.finite s m e hm))) := by
  rw [UnpackedFloat.pack]
  split_ifs with hlarge hplaces
  · exact reaches_unpack_packedInfinity s
  · replace hlarge : ¬ 2048 ≤ (e + (1023 : Nat) + (52 : Nat)).toNat + 1 := hlarge
    have hexponent : (BitVec.ofNat 11 (e + (1023 : Nat) + (52 : Nat)).toNat).toNat =
        (e + (1023 : Nat) + (52 : Nat)).toNat := Nat.mod_eq_of_lt (by omega)
    refine reaches_unpack ?_ ?_
    · rw [unpackExponent_packComponents]
      show 1022 ≤ (BitVec.ofNat 11 (e + (1023 : Nat) + (52 : Nat)).toNat).toNat
      omega
    · intro hmark
      rw [unpackExponent_eq_mark_iff, unpackExponent_packComponents] at hmark
      replace hmark : (BitVec.ofNat 11 (e + (1023 : Nat) + (52 : Nat)).toNat).toNat = 2047 := hmark
      omega
  · exact absurd (congrArg (· + 1) hlog) hplaces

/-- A power of ten is not zero and has no small places.  Where it has no double it is infinite. -/
theorem reaches_ofScientific (n : Nat) :
    Reaches (Float.ofScientific 1 false n).toModel.unpack := by
  by_cases hn : n ≤ 22
  · have htable : ∀ n < 23, Reaches (Float.ofScientific 1 false n).toModel.unpack := by
      decide
    exact htable n (by omega)
  · have hslow : ¬ (1 < 2 ^ 53 ∧ n ≤ 22) := fun h => hn h.2
    rw [Float.ofScientific, dif_neg hslow]
    show Reaches (UnpackedFloat.unpack .binary64 (UnpackedFloat.pack .binary64
      (UnpackedFloat.ofScientific .binary64 1 n)))
    have hone : ¬ 1 = 0 := by decide
    rw [UnpackedFloat.ofScientific, dif_neg hone]
    by_cases hlarge : (n : Int) > 2 ^ Format.binary64.exponentBits
    · rw [if_pos hlarge]
      exact reaches_unpack_packedInfinity .positive
    · have hsmall : ¬ (n : Int) < -((2 ^ Format.binary64.exponentBits : Int) + Nat.log2 1) := by
        show ¬ (n : Int) < -(2048 + (0 : Nat))
        omega
      rw [if_neg hlarge, if_neg hsmall, if_pos (Int.natCast_nonneg n)]
      -- the exact power is long, and what is rounded of it has the places of a double
      have hlog : 52 ≤ (1 <<< 53 * 10 ^ n).log2 := by
        have hpower : 0 < 10 ^ n := Nat.pow_pos (by decide)
        exact (Nat.le_log2 (by omega)).2 (by omega)
      obtain ⟨m, e, hm, hrounded, hm', he⟩ :=
        exists_roundWithAccuracy_eq (.positive * .positive) .exact hlog (e := -53 + 0) (by omega)
      show Reaches (UnpackedFloat.unpack .binary64 (UnpackedFloat.pack .binary64
        (roundWithAccuracy .binary64 (.positive * .positive) (1 <<< 53 * 10 ^ n) (-53 + 0) .exact)))
      rw [hrounded]
      exact reaches_unpack_pack _ hm hm' he

end DaemonRpc
