import DaemonRpc.Json.Basic
import DaemonRpc.Proofs.Json.Double

/-!
# The double nearest to a whole number

A whole number of more than 53 places has no double of its own, and is read as the nearest one.
`IsNearest` says which that is by the values of the doubles, and `Whole.toFloat_eq_iff` that it is
the one that a whole number is turned into.

* `value?` is the number that a double is, and `Canonical` the mantissas and exponents that doubles
  have: no two of them are the same number (`Canonical.inj`).
* `halfEven` rounds a whole number at a place.  `roundedMantissa_shiftRight` shows that the places
  of a double are rounded like that, and `roundedFrom_round` what becomes of a word.
* `halfEven_nearest` compares a rounded number with any double.
* `Number.Denotes` is the double that any number of a text stands for.
-/

namespace DaemonRpc

open Float.Model Float.Model.UnpackedFloat

namespace Double

/-! ## The values of doubles -/

/-- The number that a double is, unless it is not finite. -/
def value? (x : Float) : Option ℚ :=
  match x.toModel.unpack with
  | .zero _ => some 0
  | .finite s m e _ => some (s.apply m * (2 : ℚ) ^ e)
  | .infinity _ => none
  | .notANumber => none

/-- The last place of a double is zero. -/
def IsEven (x : Float) : Prop :=
  match x.toModel.unpack with
  | .finite _ m _ _ => m % 2 = 0
  | _ => True

/-- A double is the nearest one to a whole number: no other is nearer, it is the even one of two
that are equally near, and a zero has no sign. -/
structure IsNearest (x : Float) (n : ℤ) : Prop where
  finite : ∃ v, value? x = some v
  nearest : ∀ v, value? x = some v → ∀ y w, value? y = some w → |v - n| ≤ |w - n|
  even : ∀ v, value? x = some v → ∀ y w, value? y = some w → |w - n| = |v - n| →
    w = v ∨ IsEven x ∧ ¬ IsEven y
  unsigned : value? x = some 0 → x = 0

/-- The mantissa and the exponent of a double: the mantissa has 53 places, unless the exponent is
the least there is. -/
structure Canonical (m : ℕ) (e : ℤ) : Prop where
  short : m < 2 ^ 53
  lowest : -1074 ≤ e
  long : m.log2 = 52 ∨ e = -1074

theorem lt_of_log2 {m : ℕ} (hlog : m.log2 = 52) : m < 2 ^ 53 := by
  have hlt := Nat.lt_log2_self (n := m)
  rwa [hlog] at hlt

theorem Canonical.of_log2 {m : ℕ} {e : ℤ} (hlog : m.log2 = 52) (hlowest : -1074 ≤ e) :
    Canonical m e :=
  ⟨lt_of_log2 hlog, hlowest, Or.inl hlog⟩

/-- Two numbers of different exponents are different. -/
theorem Canonical.not_lt {m m' : ℕ} {e e' : ℤ} (h : Canonical m e) (h' : Canonical m' e')
    (hsame : (m : ℚ) * 2 ^ e = m' * 2 ^ e') : ¬ e < e' := by
  intro hless
  have hlog : m'.log2 = 52 := h'.long.resolve_right (by have := h.lowest; omega)
  have hm' : 2 ^ 52 ≤ m' := ((Nat.log2_eq_iff (by rintro rfl; nomatch hlog)).1 hlog).1
  obtain ⟨d, rfl⟩ : ∃ d : ℕ, e' = d + 1 + e := ⟨(e' - e - 1).toNat, by omega⟩
  have hpos : (2 : ℚ) ^ e ≠ 0 := by positivity
  rw [zpow_add₀ (by decide), ← mul_assoc] at hsame
  have hm : m = m' * 2 ^ (d + 1) := by exact_mod_cast mul_right_cancel₀ hpos hsame
  have hlarge : 2 ^ 52 * 2 ≤ m' * 2 ^ (d + 1) :=
    Nat.mul_le_mul hm' (Nat.le_self_pow (Nat.succ_ne_zero d) 2)
  have := h.short
  omega

/-- A number has only one mantissa and one exponent. -/
theorem Canonical.inj {m m' : ℕ} {e e' : ℤ} (h : Canonical m e) (h' : Canonical m' e')
    (hsame : (m : ℚ) * 2 ^ e = m' * 2 ^ e') : m = m' ∧ e = e' := by
  obtain rfl : e = e' := Int.le_antisymm (Int.not_lt.1 (h'.not_lt h hsame.symm))
    (Int.not_lt.1 (h.not_lt h' hsame))
  have hpos : (2 : ℚ) ^ e ≠ 0 := by positivity
  exact ⟨by exact_mod_cast mul_right_cancel₀ hpos hsame, rfl⟩

section Bits

variable {b : BitVec 64} {s : Sign} {m : ℕ} {e : ℤ} {hm : 0 < m}

theorem canonical_of_unpack :
    UnpackedFloat.unpack .binary64 b = .finite s m e hm → Canonical m e := by
  intro h
  have hshort := mantissa_lt_of_unpack h
  revert h
  fun_cases UnpackedFloat.unpack Format.binary64 b with
  | case1 => intro h; cases h
  | case2 => intro h; cases h
  | case3 => intro h; cases h
  | case4 =>
    rename_i hzero _
    replace hzero := unpackExponent_eq_zero_iff.1 hzero
    intro h
    have he : ((@unpackExponent .binary64 b).toNat : ℤ) - (1023 + 52) + 1 = e :=
      (UnpackedFloat.finite.inj h).2.2
    exact ⟨hshort, by omega, Or.inr (by omega)⟩
  | case5 =>
    rename_i hzero
    rw [unpackExponent_eq_zero_iff] at hzero
    intro h
    have hsum : ((1#1 : BitVec 1) ++ @unpackMantissa .binary64 b).toNat = m :=
      (UnpackedFloat.finite.inj h).2.1
    have he : ((@unpackExponent .binary64 b).toNat : ℤ) - (1023 + 52) = e :=
      (UnpackedFloat.finite.inj h).2.2
    have hlt : (@unpackMantissa .binary64 b).toNat < 2 ^ 52 := (@unpackMantissa .binary64 b).isLt
    rw [BitVec.toNat_append, ← Nat.shiftLeft_add_eq_or_of_lt hlt] at hsum
    replace hsum : 2 ^ 52 + (@unpackMantissa .binary64 b).toNat = m := hsum
    exact ⟨hshort, by omega, Or.inl ((Nat.log2_eq_iff (by omega)).2 ⟨by omega, hshort⟩)⟩

/-- The bits keep a number of 53 places. -/
theorem unpack_pack (s : Sign) (hm : 0 < m) (hlog : m.log2 = 52) (hlower : -1074 ≤ e)
    (hupper : e ≤ 971) :
    UnpackedFloat.unpack .binary64 (UnpackedFloat.pack .binary64 (.finite s m e hm)) =
      .finite s m e hm := by
  obtain ⟨hlow, hhigh⟩ := (Nat.log2_eq_iff (by omega)).1 hlog
  obtain ⟨biased, hbiased⟩ : ∃ n, n = (e + (1023 : ℕ) + (52 : ℕ)).toNat := ⟨_, rfl⟩
  have hpack : UnpackedFloat.pack .binary64 (.finite s m e hm) =
      packComponents .binary64 s (BitVec.ofNat 11 biased) (BitVec.ofNat 52 m) := by
    have hsmall : ¬ 2048 ≤ (e + (1023 : ℕ) + (52 : ℕ)).toNat + 1 := by omega
    rw [hbiased]
    exact (if_neg hsmall).trans (if_pos (congrArg (· + 1) hlog))
  have hexponent : (BitVec.ofNat 11 biased).toNat = biased := Nat.mod_eq_of_lt (by omega)
  have hmark : ¬ BitVec.ofNat 11 biased = -1#11 := by
    intro h
    have hmax : biased = 2047 := hexponent.symm.trans (congrArg BitVec.toNat h)
    omega
  have hnormal : ¬ BitVec.ofNat 11 biased = 0#11 := by
    intro h
    have hmin : biased = 0 := hexponent.symm.trans (congrArg BitVec.toNat h)
    omega
  have hmantissa : ((1#1 : BitVec 1) ++ BitVec.ofNat 52 m).toNat = m := by
    have hlt : (BitVec.ofNat 52 m).toNat < 2 ^ 52 := (BitVec.ofNat 52 m).isLt
    rw [BitVec.toNat_append, ← Nat.shiftLeft_add_eq_or_of_lt hlt, BitVec.toNat_ofNat]
    show 2 ^ 52 + m % 2 ^ 52 = m
    omega
  have he : ((BitVec.ofNat 11 biased).toNat : ℤ) - ((1023 : ℕ) + (52 : ℕ) : ℤ) = e := by
    rw [hexponent]
    omega
  rw [hpack, UnpackedFloat.unpack]
  simp only [unpackExponent_packComponents, unpackMantissa_packComponents,
    unpackSign_packComponents, Sign.ofBitVec_toBitVec]
  refine (if_neg hmark).trans ((if_neg hnormal).trans ?_)
  exact UnpackedFloat.finite.injEq .. ▸ ⟨rfl, hmantissa, he⟩

end Bits

/-- The parts of a double that has a value; zero has no places and the least exponent. -/
theorem exists_canonical {x : Float} {v : ℚ} (h : value? x = some v) :
    ∃ m e, Canonical m e ∧ |v| = m * 2 ^ e ∧ (IsEven x ↔ m % 2 = 0) := by
  unfold value? at h
  unfold IsEven
  cases hx : x.toModel.unpack with
  | zero s =>
    rw [hx] at h
    obtain rfl : 0 = v := Option.some.inj h
    exact ⟨0, -1074, ⟨by decide, by decide, Or.inr rfl⟩, by simp, by simp⟩
  | finite s m e hm =>
    rw [hx] at h
    obtain rfl := Option.some.inj h
    refine ⟨m, e, canonical_of_unpack hx, ?_, Iff.rfl⟩
    cases s with
    | positive => simp [Sign.apply]
    | negative => simp [Sign.apply]
  | infinity s =>
    rw [hx] at h
    simp at h
  | notANumber =>
    rw [hx] at h
    simp at h

/-- Two doubles of one value are the same, unless they are zeros. -/
theorem eq_of_value? {x y : Float} {v : ℚ} (hv : v ≠ 0) (hx : value? x = some v)
    (hy : value? y = some v) : x = y := by
  have hparts : ∀ {z : Float}, value? z = some v →
      ∃ s m e hm, z.toModel.unpack = .finite s m e hm ∧ s.apply m * (2 : ℚ) ^ e = v := by
    intro z hz
    unfold value? at hz
    split at hz
    · exact absurd (Option.some.inj hz).symm hv
    · rename_i s m e hm hunpack
      exact ⟨s, m, e, hm, hunpack, Option.some.inj hz⟩
    · simp at hz
    · simp at hz
  obtain ⟨s, m, e, hm, hunpack, hvalue⟩ := hparts hx
  obtain ⟨s', m', e', hm', hunpack', hvalue'⟩ := hparts hy
  have hpos : (0 : ℚ) < m * 2 ^ e := by positivity
  have hpos' : (0 : ℚ) < m' * 2 ^ e' := by positivity
  have hsign : s = s' ∧ (m : ℚ) * 2 ^ e = m' * 2 ^ e' := by
    cases s with
    | _ =>
      cases s' with
      | _ =>
        simp only [Sign.apply, Int.cast_neg, Int.cast_natCast, neg_mul] at hvalue hvalue'
        simp
        linarith
  obtain ⟨rfl, rfl⟩ := (canonical_of_unpack hunpack).inj (canonical_of_unpack hunpack') hsign.2
  obtain rfl := hsign.1
  have hbits : x.toModel.toBits.toBitVec = y.toModel.toBits.toBitVec :=
    (unpack_inj_of_valid x.toModel.valid y.toModel.valid).1 (hunpack.trans hunpack'.symm)
  obtain ⟨⟨⟨xbits⟩, _⟩⟩ := x
  obtain ⟨⟨⟨ybits⟩, _⟩⟩ := y
  obtain rfl : xbits = ybits := hbits
  rfl

/-- There is only one nearest double. -/
theorem IsNearest.unique {x y : Float} {n : ℤ} (hx : IsNearest x n) (hy : IsNearest y n) :
    x = y := by
  obtain ⟨v, hv⟩ := hx.finite
  obtain ⟨w, hw⟩ := hy.finite
  have hsame : |w - n| = |v - n| :=
    le_antisymm (hy.nearest w hw x v hv) (hx.nearest v hv y w hw)
  obtain rfl : w = v := by
    -- two different ones would both be even
    rcases hx.even v hv y w hw hsame with h | ⟨hxeven, -⟩
    · exact h
    · rcases hy.even w hw x v hv hsame.symm with h | ⟨-, hxodd⟩
      · exact h.symm
      · exact absurd hxeven hxodd
  by_cases hzero : w = 0
  · rw [hx.unsigned (hzero ▸ hv), hy.unsigned (hzero ▸ hw)]
  · exact eq_of_value? hzero hv hw

/-! ## Rounding to a place -/

/-- A whole number without its last `k` places, rounded to the nearest such number, and from the
middle to the even one. -/
def halfEven (n k : ℕ) : ℕ :=
  n / 2 ^ k +
    if 2 * (n % 2 ^ k) < 2 ^ k then 0
    else if 2 * (n % 2 ^ k) = 2 ^ k then n / 2 ^ k % 2
    else 1

/-- It goes down to the nearer half, and up to the other; in the middle the last place decides. -/
theorem halfEven_cases (n k : ℕ) :
    (halfEven n k = n / 2 ^ k ∧
        (2 * (n % 2 ^ k) < 2 ^ k ∨ 2 * (n % 2 ^ k) = 2 ^ k ∧ n / 2 ^ k % 2 = 0)) ∨
      (halfEven n k = n / 2 ^ k + 1 ∧
        (2 ^ k < 2 * (n % 2 ^ k) ∨ 2 * (n % 2 ^ k) = 2 ^ k ∧ n / 2 ^ k % 2 = 1)) := by
  unfold halfEven
  split_ifs with hless hsame
  · exact Or.inl ⟨rfl, Or.inl hless⟩
  · rcases Nat.mod_two_eq_zero_or_one (n / 2 ^ k) with hbit | hbit
    · exact Or.inl ⟨by rw [hbit]; rfl, Or.inr ⟨hsame, hbit⟩⟩
    · exact Or.inr ⟨by rw [hbit], Or.inr ⟨hsame, hbit⟩⟩
  · exact Or.inr ⟨rfl, Or.inl (by omega)⟩

/-- What a shift keeps of a mantissa: its front, the place behind it, and whether anything stands
further behind. -/
theorem shiftRight_succ (n k : ℕ) :
    ExtendedMantissa.ofMantissaAndAccuracy n .exact >>> (k + 1) =
      ⟨n / 2 ^ (k + 1), decide (n / 2 ^ k % 2 = 1), decide (n % 2 ^ k ≠ 0)⟩ := by
  show (k + 1).repeat ExtendedMantissa.shiftRightOne _ = _
  induction k with
  | zero =>
    rcases Nat.mod_two_eq_zero_or_one n with h | h
    · simp [Nat.repeat, ExtendedMantissa.shiftRightOne, ExtendedMantissa.ofMantissaAndAccuracy, h,
        Nat.mod_one]
    · simp [Nat.repeat, ExtendedMantissa.shiftRightOne, ExtendedMantissa.ofMantissaAndAccuracy, h,
        Nat.mod_one]
  | succ k ih =>
    have hbehind : n % 2 ^ (k + 1) = 0 ↔ n / 2 ^ k % 2 = 0 ∧ n % 2 ^ k = 0 := by
      rw [Nat.mod_pow_succ, Nat.add_eq_zero_iff, Nat.mul_eq_zero, and_comm]
      simp
    rw [Nat.repeat, ih, ExtendedMantissa.shiftRightOne]
    rcases Nat.mod_two_eq_zero_or_one (n / 2 ^ (k + 1)) with h | h
    all_goals
      rcases Nat.mod_two_eq_zero_or_one (n / 2 ^ k) with h' | h'
      all_goals simp [hbehind, h, h', Nat.div_div_eq_div_mul, ← Nat.pow_succ]

/-- A mantissa that was shifted is rounded at its new last place. -/
theorem roundedMantissa_shiftRight (n k : ℕ) :
    (ExtendedMantissa.ofMantissaAndAccuracy n .exact >>> k).roundedMantissa = halfEven n k := by
  cases k with
  | zero =>
    show n = _
    simp [halfEven, Nat.mod_one]
  | succ k =>
    have hrest : n % 2 ^ (k + 1) = n % 2 ^ k + 2 ^ k * (n / 2 ^ k % 2) := Nat.mod_pow_succ
    have hlt : n % 2 ^ k < 2 ^ k := Nat.mod_lt _ (Nat.two_pow_pos k)
    rw [shiftRight_succ, halfEven, ExtendedMantissa.roundedMantissa, hrest, Nat.pow_succ]
    -- the place behind the front says which half it is, and the rest whether it is the middle
    rcases Nat.mod_two_eq_zero_or_one (n / 2 ^ k) with hbit | hbit
    · by_cases hzero : n % 2 ^ k = 0
      · simp [hbit, hzero, ExtendedMantissa.accuracy, Accuracy.roundToNearestEven]
      · have hless : 2 * (n % 2 ^ k) < 2 ^ k * 2 := by omega
        simp [hbit, hzero, hless, ExtendedMantissa.accuracy, Accuracy.roundToNearestEven]
    · by_cases hzero : n % 2 ^ k = 0
      · have hsame : 2 * 2 ^ k = 2 ^ k * 2 := by omega
        simp [hbit, hzero, hsame, ExtendedMantissa.accuracy, Accuracy.roundToNearestEven]
      · have hless : ¬ 2 * (n % 2 ^ k + 2 ^ k) < 2 ^ k * 2 := by omega
        have hother : ¬ 2 * (n % 2 ^ k + 2 ^ k) = 2 ^ k * 2 := by omega
        simp [hbit, hzero, hless, hother, ExtendedMantissa.accuracy, Accuracy.roundToNearestEven]

/-! ## The places of a double -/

section Places

variable {n k : ℕ} {e : ℤ}

/-- Of 53 places and more the first 53 stay, and the exponent counts the others. -/
theorem shiftToTargetExponent_eq (hlog : n.log2 = 52 + k) (he : -1074 ≤ e) :
    shiftToTargetExponent .binary64 n e .exact =
      (ExtendedMantissa.ofMantissaAndAccuracy n .exact >>> k, e + k) := by
  have hk : (max ((n.log2 : ℤ) + 1 + e - 53) (-1074) - e).toNat = k := by omega
  have hshift : shiftToTargetExponent .binary64 n e .exact =
      (ExtendedMantissa.ofMantissaAndAccuracy n .exact >>>
          (max ((n.log2 : ℤ) + 1 + e - 53) (-1074) - e).toNat,
        e + (max ((n.log2 : ℤ) + 1 + e - 53) (-1074) - e).toNat) := rfl
  rw [hshift, hk]

/-- The first 53 places of a number. -/
theorem div_bounds (hlog : n.log2 = 52 + k) : 2 ^ 52 ≤ n / 2 ^ k ∧ n / 2 ^ k < 2 ^ 53 := by
  have hn : n ≠ 0 := by
    rintro rfl
    rw [Nat.log2_zero] at hlog
    omega
  obtain ⟨hlow, hhigh⟩ := (Nat.log2_eq_iff hn).1 hlog
  have hpos := Nat.two_pow_pos k
  rw [Nat.le_div_iff_mul_le hpos, Nat.div_lt_iff_lt_mul hpos, ← Nat.pow_add, ← Nat.pow_add]
  refine ⟨hlow, Nat.lt_of_lt_of_eq hhigh ?_⟩
  congr 1
  omega

/-- A number of 53 places and more is rounded at the last of the first 53; if that makes one place
more, the mantissa is a power of two. -/
theorem roundWithAccuracy_eq (s : Sign) (hlog : n.log2 = 52 + k) (he : -1074 ≤ e) :
    ∃ m e' h, roundWithAccuracy .binary64 s n e .exact = .finite s m e' h ∧ m.log2 = 52 ∧
      (m = halfEven n k ∧ e' = e + k ∨ halfEven n k = 2 * m ∧ m % 2 = 0 ∧ e' = e + k + 1) := by
  obtain ⟨hlow, hhigh⟩ := div_bounds hlog
  have hcases := halfEven_cases n k
  unfold roundWithAccuracy
  simp only [shiftToTargetExponent_eq hlog he, roundedMantissa_shiftRight]
  rcases Nat.lt_or_ge (halfEven n k) (2 ^ 53) with hlt | hcarry
  · have hlog' : (halfEven n k).log2 = 52 + 0 :=
      (Nat.log2_eq_iff (by omega)).2 ⟨by omega, hlt⟩
    simp only [shiftToTargetExponent_eq hlog' (e := e + k) (by omega)]
    have hne : ¬ halfEven n k = 0 := by omega
    exact ⟨halfEven n k, e + k + (0 : ℕ), by omega, dif_neg hne, hlog', Or.inl ⟨rfl, by omega⟩⟩
  · have heq : halfEven n k = 2 ^ 53 := by omega
    have hlog' : (2 ^ 53).log2 = 52 + 1 := Nat.log2_two_pow
    simp only [heq, shiftToTargetExponent_eq hlog' (e := e + k) (by omega)]
    exact ⟨2 ^ 52, e + k + (1 : ℕ), by decide, rfl, Nat.log2_two_pow,
      Or.inr ⟨by decide, by decide, by omega⟩⟩

end Places

/-- A mantissa and an exponent stand for a whole number: exactly, or for what it is rounded to at
the last of its first 53 places. -/
def Rounded (n m : ℕ) (e : ℤ) : Prop :=
  (m : ℚ) * 2 ^ e = n ∨
    ∃ k, n.log2 = 52 + k ∧ (m : ℚ) * 2 ^ e = halfEven n k * 2 ^ k ∧ m % 2 = halfEven n k % 2

/-- What a word is rounded to: a mantissa of 53 places, and a small exponent. -/
inductive RoundedFrom (s : Sign) (n : ℕ) : UnpackedFloat → Prop where
  | mk {m : ℕ} {e : ℤ} (positive : 0 < m) (places : m.log2 = 52) (lower : -52 ≤ e) (upper : e ≤ 12)
      (rounded : Rounded n m e) : RoundedFrom s n (.finite s m e positive)

/-- A word of fewer than 53 places is filled up. -/
theorem roundedFrom_of_short (s : Sign) {n k : ℕ} (hn : n ≠ 0) (hlog : n.log2 + k = 52) :
    RoundedFrom s n (roundWithAccuracy .binary64 s (n <<< k) (0 - (k : ℕ)) .exact) := by
  obtain ⟨hlow, hhigh⟩ := (Nat.log2_eq_iff hn).1 rfl
  have hpos := Nat.two_pow_pos k
  have hshort : n * 2 ^ k < 2 ^ 53 := by
    calc n * 2 ^ k < 2 ^ (n.log2 + 1) * 2 ^ k := Nat.mul_lt_mul_of_pos_right hhigh hpos
      _ = 2 ^ 53 := by rw [← Nat.pow_add]; congr 1; omega
  have hlong : 2 ^ 52 ≤ n * 2 ^ k := by
    calc 2 ^ 52 = 2 ^ n.log2 * 2 ^ k := by rw [← Nat.pow_add, hlog]
      _ ≤ n * 2 ^ k := Nat.mul_le_mul_right _ hlow
  rw [Nat.shiftLeft_eq]
  have hlog : (n * 2 ^ k).log2 = 52 + 0 := (Nat.log2_eq_iff (by omega)).2 ⟨hlong, hshort⟩
  have hsame : halfEven (n * 2 ^ k) 0 = n * 2 ^ k := by simp [halfEven, Nat.mod_one]
  obtain ⟨m, e, h, hrounded, hm, hparts⟩ :=
    roundWithAccuracy_eq s hlog (e := 0 - (k : ℕ)) (by omega)
  rw [hsame] at hparts
  have hplaces := ((Nat.log2_eq_iff (by omega)).1 hm).1
  obtain ⟨rfl, rfl⟩ : m = n * 2 ^ k ∧ e = -(k : ℤ) := by omega
  rw [hrounded]
  refine .mk h hm (by omega) (by omega) (Or.inl ?_)
  rw [zpow_neg, zpow_natCast]
  push_cast
  field_simp

/-- A word of 53 places and more is rounded. -/
theorem roundedFrom_of_long (s : Sign) {n k : ℕ} (hword : n.log2 ≤ 63) (hlog : n.log2 = 52 + k) :
    RoundedFrom s n (roundWithAccuracy .binary64 s n 0 .exact) := by
  obtain ⟨m, e, h, hrounded, hm, hparts⟩ := roundWithAccuracy_eq s hlog (e := 0) (by omega)
  rw [hrounded]
  refine .mk h hm (by omega) (by omega) (Or.inr ⟨k, hlog, ?_⟩)
  rcases hparts with ⟨rfl, rfl⟩ | ⟨hdouble, heven, rfl⟩
  · refine ⟨?_, rfl⟩
    rw [Int.zero_add, zpow_natCast]
  · rw [hdouble]
    refine ⟨?_, by omega⟩
    rw [Int.zero_add, zpow_add₀ (by decide), zpow_natCast]
    push_cast
    ring

/-- A word that is not zero is rounded to the places of a double. -/
theorem roundedFrom_round (s : Sign) {n : ℕ} (hn : n ≠ 0) (hword : n < 2 ^ 64) :
    RoundedFrom s n (UnpackedFloat.round .binary64 s n 0) := by
  have hplaces : n.log2 ≤ 63 := log2_le hword
  -- the exponent is lowered as far as the places allow
  obtain ⟨k, hk⟩ : ∃ k, k = (0 - max ((n.log2 : ℤ) + 1 + 0 - 53) (-1074)).toNat := ⟨_, rfl⟩
  have hround : UnpackedFloat.round .binary64 s n 0 =
      roundWithAccuracy .binary64 s (n <<< k) (0 - (k : ℕ)) .exact := by
    rw [hk]
    rfl
  rw [hround]
  rcases Nat.lt_or_ge n.log2 52 with hshort | hlong
  · exact roundedFrom_of_short s hn (by omega)
  · obtain rfl : k = 0 := by omega
    exact roundedFrom_of_long s hplaces (Nat.add_sub_cancel' hlong).symm

namespace RoundedFrom

variable {s : Sign} {n : ℕ} {u : UnpackedFloat}

/-- The bits keep it. -/
theorem unpack_pack (h : RoundedFrom s n u) :
    UnpackedFloat.unpack .binary64 (UnpackedFloat.pack .binary64 u) = u := by
  cases h with
  | mk positive places lower upper _ =>
    exact Double.unpack_pack s positive places (by omega) (by omega)

theorem neg (h : RoundedFrom s n u) : RoundedFrom (-s) n u.neg := by
  cases h with
  | mk positive places lower upper rounded => exact .mk positive places lower upper rounded

end RoundedFrom

/-! ## The nearest double -/

/-- No double stands between two neighbours of 53 places. -/
theorem Canonical.le_or_le {m k q : ℕ} {e : ℤ} (h : Canonical m e) (hq : 2 ^ 52 ≤ q) :
    (m : ℚ) * 2 ^ e ≤ q * 2 ^ k ∨ ((q + 1 : ℕ) : ℚ) * 2 ^ k ≤ m * 2 ^ e := by
  rw [or_iff_not_imp_left, not_le]
  intro hless
  -- so large a number has its last place there or further to the front
  have hlast : (k : ℤ) ≤ e := by
    have hpow : (2 : ℚ) ^ ((52 : ℤ) + k) < 2 ^ ((53 : ℤ) + e) := by
      rw [zpow_add₀ (by decide), zpow_add₀ (by decide), zpow_natCast]
      calc (2 : ℚ) ^ (52 : ℤ) * 2 ^ k ≤ q * 2 ^ k := by gcongr; exact_mod_cast hq
        _ < m * 2 ^ e := hless
        _ ≤ 2 ^ (53 : ℤ) * 2 ^ e := by gcongr; exact_mod_cast h.short.le
    have := (zpow_lt_zpow_iff_right₀ (by norm_num : (1 : ℚ) < 2)).1 hpow
    omega
  obtain ⟨d, rfl⟩ : ∃ d : ℕ, e = d + k := ⟨(e - k).toNat, by omega⟩
  rw [zpow_add₀ (by decide), zpow_natCast, zpow_natCast, ← mul_assoc] at hless ⊢
  have hpos : (0 : ℚ) < 2 ^ k := by positivity
  rw [mul_lt_mul_iff_of_pos_right hpos] at hless
  rw [mul_le_mul_iff_of_pos_right hpos]
  exact_mod_cast hless

section Neighbours

variable {a d r n w : ℚ}

/-- Of two neighbours the lower one is the nearest to what is not above the middle. -/
theorem nearest_lower (hn : a + r = n) (hr : 0 ≤ r) (hhalf : 2 * r ≤ d)
    (hw : w ≤ a ∨ a + d ≤ w) :
    |a - n| ≤ |w - n| ∧ (|w - n| = |a - n| → w = a ∨ w = a + d ∧ 2 * r = d) := by
  have hdist : |a - n| = r := by rw [← hn, sub_add_cancel_left, abs_neg, abs_of_nonneg hr]
  rw [hdist]
  rcases hw with hw | hw
  · rw [abs_of_nonpos (by linarith)]
    exact ⟨by linarith, fun htie => Or.inl (by linarith)⟩
  · rw [abs_of_nonneg (by linarith)]
    exact ⟨by linarith, fun htie => Or.inr ⟨by linarith, by linarith⟩⟩

/-- Of two neighbours the upper one is the nearest to what is not below the middle. -/
theorem nearest_upper (hn : a + r = n) (hr : r ≤ d) (hhalf : d ≤ 2 * r)
    (hw : w ≤ a ∨ a + d ≤ w) :
    |a + d - n| ≤ |w - n| ∧ (|w - n| = |a + d - n| → w = a + d ∨ w = a ∧ 2 * r = d) := by
  have hdist : |a + d - n| = d - r := by rw [abs_of_nonneg (by linarith)]; linarith
  rw [hdist]
  rcases hw with hw | hw
  · rw [abs_of_nonpos (by linarith)]
    exact ⟨by linarith, fun htie => Or.inr ⟨by linarith, by linarith⟩⟩
  · rw [abs_of_nonneg (by linarith)]
    exact ⟨by linarith, fun htie => Or.inl (by linarith)⟩

end Neighbours

/-- What a number is rounded to is at least as near as any double, and a double that is as near is
odd. -/
theorem halfEven_nearest {n k m : ℕ} {e : ℤ} (hlog : n.log2 = 52 + k) (h : Canonical m e) {w : ℚ}
    (habs : |w| = m * 2 ^ e) :
    |halfEven n k * 2 ^ k - (n : ℚ)| ≤ |w - n| ∧
      (|w - n| = |halfEven n k * 2 ^ k - (n : ℚ)| →
        w = halfEven n k * 2 ^ k ∨ halfEven n k % 2 = 0 ∧ m % 2 = 1) := by
  obtain ⟨hlow, hhigh⟩ := div_bounds hlog
  have hsplit : ((n / 2 ^ k : ℕ) : ℚ) * 2 ^ k + (n % 2 ^ k : ℕ) = n := by
    exact_mod_cast Nat.div_add_mod' n (2 ^ k)
  have hrest : n % 2 ^ k < 2 ^ k := Nat.mod_lt n (Nat.two_pow_pos k)
  have hcases := halfEven_cases n k
  have hnext : ((n / 2 ^ k + 1 : ℕ) : ℚ) * 2 ^ k = (n / 2 ^ k : ℕ) * 2 ^ k + 2 ^ k := by
    push_cast
    ring
  have hw : w ≤ (n / 2 ^ k : ℕ) * 2 ^ k ∨ (n / 2 ^ k : ℕ) * 2 ^ k + 2 ^ k ≤ w := by
    rw [← hnext]
    rcases le_or_gt 0 w with hnonneg | hneg
    · rw [← abs_of_nonneg hnonneg, habs]
      exact h.le_or_le hlow
    · exact Or.inl (hneg.le.trans (by positivity))
  -- a double that is one of the two neighbours has its mantissa, if that has 53 places
  have hmantissa : ∀ q : ℕ, 2 ^ 52 ≤ q → q < 2 ^ 53 → w = q * 2 ^ k → m = q := by
    intro q hq hq' hsame
    have hq : Canonical q k := .of_log2 ((Nat.log2_eq_iff (by omega)).2 ⟨hq, hq'⟩) (by omega)
    refine (h.inj hq ?_).1
    rw [← habs, abs_of_nonneg (hsame ▸ by positivity), hsame, zpow_natCast]
  rcases hcases with ⟨hvalue, hdown⟩ | ⟨hvalue, hup⟩
  · rw [hvalue]
    have hhalf : 2 * (n % 2 ^ k) ≤ 2 ^ k := by omega
    obtain ⟨hle, htie⟩ := nearest_lower hsplit (Nat.cast_nonneg _) (by exact_mod_cast hhalf) hw
    refine ⟨hle, fun hsame => (htie hsame).imp_right fun hupper => ?_⟩
    have hmiddle : 2 * (n % 2 ^ k) = 2 ^ k := by exact_mod_cast hupper.2
    have heven : n / 2 ^ k % 2 = 0 := (hdown.resolve_left (by omega)).2
    have := hmantissa (n / 2 ^ k + 1) (by omega) (by omega) (hnext ▸ hupper.1)
    omega
  · rw [hvalue, hnext]
    have hhalf : 2 ^ k ≤ 2 * (n % 2 ^ k) := by omega
    obtain ⟨hle, htie⟩ := nearest_upper hsplit (by exact_mod_cast hrest.le)
      (by exact_mod_cast hhalf) hw
    refine ⟨hle, fun hsame => (htie hsame).imp_right fun hlower => ?_⟩
    have hmiddle : 2 * (n % 2 ^ k) = 2 ^ k := by exact_mod_cast hlower.2
    have hodd : n / 2 ^ k % 2 = 1 := (hup.resolve_left (by omega)).2
    have := hmantissa (n / 2 ^ k) hlow hhigh hlower.1
    omega

/-- No double is nearer than what stands for a number, and a double that is as near is odd. -/
theorem Rounded.nearest {n m m' : ℕ} {e e' : ℤ} (h : Rounded n m e) (h' : Canonical m' e') {w : ℚ}
    (habs : |w| = m' * 2 ^ e') :
    |m * 2 ^ e - (n : ℚ)| ≤ |w - n| ∧
      (|w - n| = |m * 2 ^ e - (n : ℚ)| → w = m * 2 ^ e ∨ m % 2 = 0 ∧ m' % 2 = 1) := by
  rcases h with hexact | ⟨k, hlog, hvalue, heven⟩
  · rw [hexact, sub_self, abs_zero]
    exact ⟨abs_nonneg _, fun h => Or.inl (by linarith [abs_eq_zero.1 h])⟩
  · rw [hvalue, heven]
    exact halfEven_nearest hlog h' habs

/-- A double that a word was rounded to is the nearest one to it. -/
theorem isNearest_of_roundedFrom {x : Float} {s : Sign} {n : ℕ}
    (h : RoundedFrom s n x.toModel.unpack) : IsNearest x (s.apply n) := by
  rcases hx : x.toModel.unpack with _ | _ | _ | ⟨s', m, e, hm⟩
  all_goals rw [hx] at h
  all_goals cases h
  rename_i _ _ _ hrounded
  have hvalue : value? x = some (s.apply m * (2 : ℚ) ^ e) := by rw [value?, hx]
  have hnearest : ∀ y w, value? y = some w →
      |s.apply m * (2 : ℚ) ^ e - s.apply n| ≤ |w - s.apply n| ∧
        (|w - s.apply n| = |s.apply m * (2 : ℚ) ^ e - s.apply n| →
          w = s.apply m * (2 : ℚ) ^ e ∨ IsEven x ∧ ¬ IsEven y) := by
    intro y w hw
    obtain ⟨m', e', h', habs, hyeven⟩ := exists_canonical hw
    have hxeven : IsEven x ↔ m % 2 = 0 := by rw [IsEven, hx]
    rw [hxeven, hyeven]
    cases s with
    | positive =>
      obtain ⟨hle, htie⟩ := hrounded.nearest h' habs
      simp only [Sign.apply, Int.cast_natCast]
      exact ⟨hle, fun hsame => (htie hsame).imp_right fun h => by omega⟩
    | negative =>
      -- both are on the other side of zero
      obtain ⟨hle, htie⟩ := hrounded.nearest h' (w := -w) (by rwa [abs_neg])
      have hflip : ∀ u : ℚ, |u + n| = |-u - n| := by
        intro u
        rw [← abs_neg, neg_add']
      simp only [Sign.apply, Int.cast_neg, Int.cast_natCast, neg_mul, sub_neg_eq_add, hflip,
        neg_neg]
      refine ⟨hle, fun hsame => (htie hsame).imp (fun h => ?_) fun h => by omega⟩
      rw [← h, neg_neg]
  refine ⟨⟨_, hvalue⟩, ?_, ?_, ?_⟩
  · intro v hv y w hw
    obtain rfl := Option.some.inj (hvalue.symm.trans hv)
    exact (hnearest y w hw).1
  · intro v hv y w hw
    obtain rfl := Option.some.inj (hvalue.symm.trans hv)
    exact (hnearest y w hw).2
  · intro hzero
    have hpos : (0 : ℚ) < m * 2 ^ e := by positivity
    have hsome := Option.some.inj (hvalue.symm.trans hzero)
    cases s with
    | _ =>
      simp only [Sign.apply, Int.cast_neg, Int.cast_natCast, neg_mul] at hsome
      linarith

/-- Zero is nearest to itself. -/
theorem isNearest_zero : IsNearest 0 0 := by
  have hvalue : value? 0 = some 0 := by
    have hunpack : (0 : Float).toModel.unpack = .zero .positive := rfl
    rw [value?, hunpack]
  refine ⟨⟨0, hvalue⟩, ?_, ?_, fun _ => rfl⟩
  · intro v hv y w _
    obtain rfl := Option.some.inj (hvalue.symm.trans hv)
    simp
  · intro v hv y w _ hsame
    obtain rfl := Option.some.inj (hvalue.symm.trans hv)
    exact Or.inl (by simpa using hsame)

/-- The double of a word that is not zero. -/
theorem roundedFrom_uint64ToFloat {n : UInt64} (hn : n.toNat ≠ 0) :
    RoundedFrom .positive n.toNat n.toFloat.toModel.unpack := by
  have hround := roundedFrom_round .positive hn n.toNat_lt
  have hnormal : normalize .binary64 (n.toNat : ℤ) 0 .positive =
      UnpackedFloat.round .binary64 .positive n.toNat 0 := by
    unfold UnpackedFloat.normalize
    rw [Int.compare_eq_gt.2 (by omega)]
    rfl
  have hunpack : n.toFloat.toModel.unpack = UnpackedFloat.unpack .binary64
      (UnpackedFloat.pack .binary64 (normalize .binary64 (n.toNat : ℤ) 0 .positive)) := rfl
  rw [hunpack, hnormal, hround.unpack_pack]
  exact hround

/-- The negative of a double that a word was rounded to. -/
theorem roundedFrom_neg {x : Float} {s : Sign} {n : ℕ} (h : RoundedFrom s n x.toModel.unpack) :
    RoundedFrom (-s) n (-x).toModel.unpack := by
  have hunpack : (-x).toModel.unpack = UnpackedFloat.unpack .binary64
      (UnpackedFloat.pack .binary64 x.toModel.unpack.neg) := rfl
  rw [hunpack, h.neg.unpack_pack]
  exact h.neg

end Double

namespace Whole

/-- A whole number is turned into the nearest double. -/
theorem isNearest_toFloat (n : Whole) : Double.IsNearest n.toFloat n.val := by
  have hlower := n.lower
  have hupper := n.upper
  -- what is turned into a double is the number without its sign, which fits a word
  have hword : ∀ k : ℕ, k ≠ 0 → k < 2 ^ 64 →
      Double.RoundedFrom .positive k k.toUInt64.toFloat.toModel.unpack := by
    intro k hk hlt
    have hsame : k.toUInt64.toNat = k := Nat.mod_eq_of_lt hlt
    have hrounded := Double.roundedFrom_uint64ToFloat (n := k.toUInt64) (by omega)
    rwa [hsame] at hrounded
  unfold toFloat
  split
  · rename_i hnonneg
    by_cases hzero : n.val = 0
    · rw [hzero]
      exact Double.isNearest_zero
    · have hval : Sign.positive.apply n.val.toNat = n.val := Int.toNat_of_nonneg hnonneg
      have hnearest := Double.isNearest_of_roundedFrom (hword n.val.toNat (by omega) (by omega))
      rwa [hval] at hnearest
  · have hval : Sign.negative.apply n.val.natAbs = n.val := by
      show -(n.val.natAbs : ℤ) = n.val
      omega
    have hnearest := Double.isNearest_of_roundedFrom
      (Double.roundedFrom_neg (hword n.val.natAbs (by omega) (by omega)))
    rwa [show -Sign.positive = Sign.negative from rfl, hval] at hnearest

/-- The double of a whole number is the one that is nearest to it. -/
theorem toFloat_eq_iff {n : Whole} {x : Float} : n.toFloat = x ↔ Double.IsNearest x n.val := by
  constructor
  · rintro rfl
    exact n.isNearest_toFloat
  · exact n.isNearest_toFloat.unique

end Whole

/-! ## Numbers -/

/-- The double that a number stands for: itself, or the one that is nearest to a whole number. -/
inductive Number.Denotes : Number → Float → Prop where
  | double (x : Float) : Denotes (.double x) x
  | whole {n : Whole} {x : Float} (nearest : Double.IsNearest x n.val) : Denotes (.whole n) x

/-- A number is turned into the double that it stands for. -/
theorem Number.toFloat_eq_iff {n : Number} {x : Float} : n.toFloat = x ↔ n.Denotes x := by
  constructor
  · rintro rfl
    cases n with
    | whole n => exact .whole n.isNearest_toFloat
    | double x => exact .double x
  · rintro (_ | hnearest)
    · rfl
    · exact Whole.toFloat_eq_iff.2 hnearest

end DaemonRpc
