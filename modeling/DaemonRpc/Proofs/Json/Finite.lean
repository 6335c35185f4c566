import DaemonRpc.Proofs.Json.Canonical
import DaemonRpc.Proofs.Json.Double

/-!
# Finite numbers

No text spells a number that is not finite.  A number is read as a word times a power of ten: where
the power multiplies, the reader asks whether the product is finite, and where it divides, nothing
can go wrong.

* `Number.isFinite_toFloat`: the double of a finite number is finite.
* `isFinite_of_scaled?` is the number behind a point or an exponent, and `isFinite_of_numberToken`
  every number that is read.
* `Json.FiniteNumbers` says it of every number inside a value, and `Json.read_finiteNumbers` that a
  value from a text is of that kind.
-/

namespace DaemonRpc

/-! ## Numbers -/

/-- The double of a whole number is finite. -/
theorem Whole.isFinite_toFloat (n : Whole) : n.toFloat.isFinite = true := by
  unfold Whole.toFloat
  split
  · exact isFinite_uint64ToFloat _
  · exact isFinite_neg (isFinite_uint64ToFloat _)

/-- A number that is finite. -/
def Number.IsFinite : Number → Prop
  | .whole _ => True
  | .double x => x.isFinite = true

theorem Number.isFinite_toFloat {n : Number} (h : n.IsFinite) : n.toFloat.isFinite = true := by
  cases n with
  | whole n => exact n.isFinite_toFloat
  | double x => exact h

/-- Every number inside the value is finite. -/
inductive Json.FiniteNumbers : Json → Prop where
  | null : FiniteNumbers .null
  | bool (b : Bool) : FiniteNumbers (.bool b)
  | number (n : Number) (finite : n.IsFinite) : FiniteNumbers (.number n)
  | string (s : String) : FiniteNumbers (.string s)
  | array (items : List Json) (each : ∀ v ∈ items, FiniteNumbers v) : FiniteNumbers (.array items)
  | object (members : List (String × Json)) (each : ∀ m ∈ members, FiniteNumbers m.2) :
      FiniteNumbers (.object members)

namespace Json

/-! ## The scale of a number -/

/-- Division by powers of ten keeps a bound on the exponent that grows with each of them. -/
theorem fits_shiftDown (fuel : Nat) {x : Float} (e : Int) {bound : Int}
    (hx : Fits bound x.toModel.unpack) (hlower : 0 ≤ bound) (hupper : bound + 76 * fuel ≤ 971) :
    Fits (bound + 76 * fuel) (shiftDown fuel x e).1.toModel.unpack := by
  induction fuel generalizing x e bound with
  | zero => exact hx.mono (by omega)
  | succ fuel ih =>
    rw [shiftDown]
    split
    · -- which power it is does not matter, and nothing should compute it
      generalize 308 = n
      have hquotient := fits_div hx (reaches_ofScientific n) hlower (by omega)
      exact (ih _ hquotient (by omega) (by omega)).mono (by omega)
    · exact hx.mono (by omega)

/-- A word that was brought to its scale is finite. -/
theorem isFinite_of_scaled? {significand : Nat} {exponent : Int} {x : Float}
    (h : scaled? significand exponent = some x) : x.isFinite = true := by
  have hword := fits_uint64ToFloat significand.toUInt64
  unfold scaled? at h
  dsimp only at h
  split at h
  · -- far below one, after the divisions that come first
    have hshifted := fits_shiftDown 4 exponent hword (by omega) (by omega)
    generalize shiftDown 4 significand.toUInt64.toFloat exponent = shifted at h hshifted
    split at h
    · obtain rfl := Option.some.inj h
      exact isFinite_of_fits hshifted (by omega)
    · obtain rfl := Option.some.inj h
      have hquotient := fits_div hshifted (reaches_ofScientific shifted.2.natAbs)
        (by omega) (by omega)
      exact isFinite_of_fits hquotient (by omega)
  · split at h
    · obtain rfl := Option.some.inj h
      have hquotient := fits_div hword (reaches_ofScientific exponent.natAbs) (by omega) (by omega)
      exact isFinite_of_fits hquotient (by omega)
    · split at h
      · -- the one place where a number can become too large is the one that is looked at
        split at h
        · rename_i hfinite
          obtain rfl := Option.some.inj h
          exact hfinite
        · simp at h
      · split at h
        · obtain rfl := Option.some.inj h
          exact isFinite_uint64ToFloat _
        · simp at h

/-! ## Reading numbers -/

/-- If a number is read it is finite. -/
def ReadsFinite (r : Except Fault (Number × Bytes)) : Prop :=
  ∀ n rest, r = .ok (n, rest) → n.IsFinite

theorem readsFinite_error (f : Fault) : ReadsFinite (.error f) := by
  intro n rest h
  simp at h

theorem readsFinite_ok {n : Number} (h : n.IsFinite) (rest : Bytes) :
    ReadsFinite (.ok (n, rest)) := by
  intro n' rest' heq
  obtain ⟨rfl, -⟩ := Prod.mk.inj (Except.ok.inj heq)
  exact h

theorem isFinite_signed (positive : Bool) {x : Float} (h : x.isFinite = true) :
    (signed positive x).IsFinite := by
  cases positive with
  | false => exact isFinite_neg h
  | true => exact h

theorem readsFinite_finishNumber (positive : Bool) (significand : Nat) (exponent : Int)
    (s : Bytes) : ReadsFinite (finishNumber positive significand exponent s) := by
  unfold finishNumber
  split
  · rename_i x hx
    exact readsFinite_ok (isFinite_signed positive (isFinite_of_scaled? hx)) s
  · exact readsFinite_error _

theorem readsFinite_exponentDigits (positive upward : Bool) (significand : Nat) (start : Int)
    (value : Nat) (s : Bytes) :
    ReadsFinite (exponentDigits positive upward significand start value s) := by
  induction s generalizing value with
  | nil => exact readsFinite_finishNumber positive significand _ []
  | cons b s ih =>
    unfold exponentDigits
    split_ifs
    · exact readsFinite_error _
    · exact readsFinite_ok (isFinite_signed positive rfl) _
    · exact ih _
    · exact readsFinite_finishNumber positive significand _ (b :: s)

theorem readsFinite_exponentPart (positive : Bool) (significand : Nat) (start : Int) (s : Bytes) :
    ReadsFinite (exponentPart positive significand start s) := by
  unfold exponentPart
  dsimp only
  split
  · exact readsFinite_error _
  · split
    · exact readsFinite_exponentDigits _ _ _ _ _ _
    · exact readsFinite_error _

theorem readsFinite_afterDigits (positive : Bool) (significand : Nat) (exponent : Int)
    (s : Bytes) : ReadsFinite (afterDigits positive significand exponent s) := by
  unfold afterDigits
  split
  · exact readsFinite_exponentPart _ _ _ _
  · exact readsFinite_finishNumber _ _ _ _

theorem readsFinite_fractionPart (positive : Bool) (significand : Nat) (exponent : Int)
    (s : Bytes) : ReadsFinite (fractionPart positive significand exponent s) := by
  unfold fractionPart
  dsimp only
  split_ifs
  · exact readsFinite_afterDigits _ _ _ _
  · exact readsFinite_error _
  · exact readsFinite_error _
  · exact readsFinite_afterDigits _ _ _ _

theorem isFinite_wholeNumber (positive : Bool) (significand : Nat) :
    (wholeNumber positive significand).IsFinite := by
  unfold wholeNumber
  split
  · split
    · exact isFinite_signed false rfl
    · trivial
  · exact isFinite_signed positive (isFinite_uint64ToFloat _)

theorem readsFinite_afterWhole (positive : Bool) (significand : Nat) (s : Bytes) :
    ReadsFinite (afterWhole positive significand s) := by
  unfold afterWhole
  split
  · split_ifs
    · exact readsFinite_fractionPart _ _ _ _
    · exact readsFinite_exponentPart _ _ _ _
    · exact readsFinite_ok (isFinite_wholeNumber positive significand) _
  · exact readsFinite_ok (isFinite_wholeNumber positive significand) _

theorem readsFinite_unsignedNumber (positive : Bool) (s : Bytes) :
    ReadsFinite (unsignedNumber positive s) := by
  unfold unsignedNumber
  split
  · exact readsFinite_error _
  · split_ifs
    · exact readsFinite_error _
    · exact readsFinite_afterWhole _ _ _
    · dsimp only
      split
      · split
        · split
          · exact readsFinite_fractionPart _ _ _ _
          · exact readsFinite_afterDigits _ _ _ _
        · exact readsFinite_afterDigits _ _ _ _
      · exact readsFinite_afterWhole _ _ _
    · exact readsFinite_error _

/-- A number that is read is finite. -/
theorem isFinite_of_numberToken {s rest : Bytes} {n : Number}
    (h : numberToken s = .ok (n, rest)) : n.IsFinite := by
  have hreads : ReadsFinite (numberToken s) := by
    unfold numberToken
    split
    · split
      · exact readsFinite_unsignedNumber _ _
      · exact readsFinite_unsignedNumber _ _
    · exact readsFinite_unsignedNumber _ _
  exact hreads n rest h

/-! ## Reading values -/

/-- The numbers inside a value that was read are finite. -/
theorem readValue_finiteNumbers (depth : Nat) (s : Bytes) (v : Json) (rest : Bytes)
    (h : readValue depth s = .ok (v, rest)) : v.FiniteNumbers := by
  refine readValue_induction (P := fun _ v => v.FiniteNumbers) ?_ ?_ ?_ depth s v rest h
  · intro _ v hv
    rcases hv with rfl | ⟨b, rfl⟩ | ⟨x, _, _, hx, rfl⟩ | ⟨text, rfl⟩
    · exact FiniteNumbers.null
    · exact FiniteNumbers.bool b
    · exact FiniteNumbers.number x (isFinite_of_numberToken hx)
    · exact FiniteNumbers.string text
  · exact fun _ items each => FiniteNumbers.array items each
  · exact fun _ members _ each => FiniteNumbers.object members each

/-- A value that was read from a whole text has finite numbers only. -/
theorem read_finiteNumbers {input : Bytes} {v : Json} (h : read input = .ok v) :
    v.FiniteNumbers := by
  obtain ⟨rest, hvalue⟩ := readValue_of_read h
  exact readValue_finiteNumbers _ _ _ _ hvalue

end Json

end DaemonRpc
