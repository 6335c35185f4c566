import DaemonRpc.Json.Printer
import DaemonRpc.Rpc.RequestId
import Mathlib.Tactic.Common

/-!
# No value but a string has the form of an id

An id that comes back as a number, a truth value, an array or an object is kept as its text.
That text never has the form of a random UUID, so it never matches the id of a request:
`text_ne_of_isRandomUuid`.

The form is used through `isRandomUuid_place`, which says what stands at each place.  Three
places settle all values.

* At place 0 stands a digit, so no sign, bracket or brace.
* At place 8 stands a hyphen, so the text is not made of digits alone.
* At place 2 stands a digit, so the mark of an exponent is not followed by its sign there.
  Every other double has a point, which stands at no place.
-/

namespace DaemonRpc

namespace RequestId

/-- The places of the hyphens. -/
abbrev IsHyphenPlace (i : Nat) : Prop := i = 8 ∨ i = 13 ∨ i = 18 ∨ i = 23

/-- The marks of the variant are digits. -/
theorem variants_isHexDigit : ∀ c ∈ ['8', '9', 'a', 'b'], isHexDigit c = true := by
  intro c hmem
  simp only [List.mem_cons, List.not_mem_nil, or_false] at hmem
  rcases hmem with rfl | rfl | rfl | rfl <;> rfl

theorem length_of_isRandomUuid {s : String} (h : isRandomUuid s = true) :
    s.toList.length = 36 := by
  unfold isRandomUuid at h
  simp only [Bool.and_eq_true, beq_iff_eq] at h
  exact h.1

/-- A hyphen stands at the places of the hyphens and a digit at every other. -/
theorem isRandomUuid_place {s : String} (h : isRandomUuid s = true) {i : Nat} {c : Char}
    (hc : s.toList[i]? = some c) : if IsHyphenPlace i then c = '-' else isHexDigit c = true := by
  unfold isRandomUuid at h
  simp only [Bool.and_eq_true, List.all_eq_true] at h
  have hplace := h.2 (c, i) (List.mem_zipIdx_iff_getElem?.2 hc)
  simp only [Bool.or_eq_true, decide_eq_true_eq, or_assoc] at hplace
  by_cases hhyphen : IsHyphenPlace i
  · rw [if_pos hhyphen] at hplace ⊢
    simpa using hplace
  · rw [if_neg hhyphen] at hplace ⊢
    split_ifs at hplace with hversion hvariant
    · obtain rfl : c = '4' := by simpa using hplace
      rfl
    · have hmem : c ∈ ['8', '9', 'a', 'b'] := by simpa using hplace
      exact variants_isHexDigit c hmem
    · exact hplace

/-- A character at a place without a hyphen is a digit. -/
theorem isHexDigit_of_place {s : String} (h : isRandomUuid s = true) {i : Nat} {c : Char}
    (hc : s.toList[i]? = some c) (hi : ¬ IsHyphenPlace i) : isHexDigit c = true := by
  have hplace := isRandomUuid_place h hc
  rwa [if_neg hi] at hplace

/-- An id holds nothing but digits and hyphens. -/
theorem mem_isRandomUuid {s : String} (h : isRandomUuid s = true) {c : Char}
    (hc : c ∈ s.toList) : c = '-' ∨ isHexDigit c = true := by
  obtain ⟨i, hi⟩ := List.mem_iff_getElem?.1 hc
  have hplace := isRandomUuid_place h hi
  split at hplace
  · exact Or.inl hplace
  · exact Or.inr hplace

/-- There is a hyphen in an id. -/
theorem hyphen_mem_isRandomUuid {s : String} (h : isRandomUuid s = true) : '-' ∈ s.toList := by
  have hlt : 8 < s.toList.length := by
    rw [length_of_isRandomUuid h]
    decide
  have hplace := isRandomUuid_place h (List.getElem?_eq_getElem hlt)
  rw [if_pos (by decide)] at hplace
  exact hplace ▸ List.getElem_mem hlt

/-- An id begins with a digit. -/
theorem isRandomUuid_ne_cons {s : String} (h : isRandomUuid s = true) {c : Char}
    (hc : isHexDigit c = false) (cs : List Char) : s.toList ≠ c :: cs := by
  intro heq
  have hdigit := isHexDigit_of_place h (i := 0) (by rw [heq]; rfl) (by decide)
  rw [hc] at hdigit
  exact Bool.false_ne_true hdigit

/-- An id has no point. -/
theorem point_not_mem_isRandomUuid {s : String} (h : isRandomUuid s = true) :
    '.' ∉ s.toList := by
  intro hmem
  rcases mem_isRandomUuid h hmem with hhyphen | hdigit
  · exact absurd hhyphen (by decide)
  · exact absurd hdigit (by decide)

end RequestId

open RequestId

namespace Json

variable {id : String}

/-! ## Numbers -/

/-- A whole number begins with a sign or has no hyphen. -/
theorem wholeChars_ne_id (h : isRandomUuid id = true) (n : Int) : id.toList ≠ wholeChars n := by
  unfold wholeChars
  split
  · exact isRandomUuid_ne_cons h (by decide) _
  · intro heq
    have hhyphen := hyphen_mem_isRandomUuid h
    rw [heq] at hhyphen
    exact absurd (Nat.isDigit_of_mem_toDigits (by decide) (by decide) hhyphen) (by decide)

/-- A decimal has a point, or the mark of its exponent is the second character and the sign of
the exponent the third. -/
theorem decimalChars_ne_id (h : isRandomUuid id = true) (x : Decimal) :
    id.toList ≠ NumberFormat.wire.decimalChars x := by
  intro heq
  have hpoint := point_not_mem_isRandomUuid h
  rw [heq] at hpoint
  unfold NumberFormat.decimalChars at heq hpoint
  simp only at heq hpoint
  split at heq
  · -- written in full it has a point, wherever its digits stand
    rename_i hfull
    rw [if_pos hfull] at hpoint
    split at hpoint
    · simp at hpoint
    · split at hpoint
      · simp at hpoint
      · simp at hpoint
  · rename_i hmarked
    rw [if_neg hmarked] at hpoint
    by_cases hone : (Nat.toDigits 10 x.digits).length = 1
    · -- without a point the sign of the exponent is the third character
      obtain ⟨d, hd⟩ := List.length_eq_one_iff.1 hone
      rw [if_pos hone, hd] at heq
      have hthird : ∃ c, id.toList[2]? = some c ∧ isHexDigit c = false := by
        rw [heq]
        split
        · exact ⟨'+', rfl, by decide⟩
        · exact ⟨'-', rfl, by decide⟩
      obtain ⟨c, hc, hsign⟩ := hthird
      have hdigit := isHexDigit_of_place h hc (by decide)
      rw [hsign] at hdigit
      exact Bool.false_ne_true hdigit
    · rw [if_neg hone] at hpoint
      simp at hpoint

theorem floatChars_ne_id (h : isRandomUuid id = true) (x : Float) :
    id.toList ≠ NumberFormat.wire.floatChars x := by
  unfold NumberFormat.floatChars
  simp only
  split
  · exact isRandomUuid_ne_cons h (by decide) _
  · rw [List.nil_append]
    split
    · intro heq
      have hlen := length_of_isRandomUuid h
      rw [heq] at hlen
      exact absurd hlen (by decide)
    · exact decimalChars_ne_id h _

theorem numberChars_ne_id (h : isRandomUuid id = true) (n : Number) :
    id.toList ≠ numberChars n := by
  unfold numberChars
  split
  · exact wholeChars_ne_id h _
  · split
    · exact floatChars_ne_id h _
    · exact isRandomUuid_ne_cons h (by decide) _

/-! ## All values -/

/-- The text of a value that is not a string never has the form of an id. -/
theorem text_ne_of_isRandomUuid (h : isRandomUuid id = true) {v : Json}
    (hv : ∀ s, v ≠ .string s) : v.text ≠ id := by
  intro heq
  have hchars : id.toList = v.chars := by
    rw [← heq, text, String.toList_ofList]
  cases v with
  | null => exact isRandomUuid_ne_cons h (by decide) _ hchars
  | bool b =>
    have hlen := length_of_isRandomUuid h
    rw [hchars, chars] at hlen
    cases b with
    | true => exact absurd hlen (by decide)
    | false => exact absurd hlen (by decide)
  | number n =>
    rw [chars] at hchars
    exact numberChars_ne_id h n hchars
  | string s => exact hv s rfl
  | array items =>
    rw [chars] at hchars
    exact isRandomUuid_ne_cons h (by decide) _ hchars
  | object members =>
    rw [chars] at hchars
    exact isRandomUuid_ne_cons h (by decide) _ hchars

end Json

end DaemonRpc
