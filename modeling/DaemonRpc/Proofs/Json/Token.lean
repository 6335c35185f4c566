import DaemonRpc.Json.Printer
import DaemonRpc.Json.Reader.Token
import DaemonRpc.Proofs.Except
import DaemonRpc.Proofs.Text.Utf8

/-!
# Printed strings and whole numbers are read back

The readers take a token from the front of what is left, so each lemma here is about a printed
token with any bytes behind it.

* Strings.  `escapeChar_cases` says how a character stands inside a string, and `stringToken_chars`
  is the induction over the characters.
* Whole numbers.  `EndsNumber` says what may follow, `takeDigits_ofChars` is the loop over the
  digits, and `numberToken_wholeChars` the whole token.
-/

namespace DaemonRpc.Json

open Ascii Bytes

/-- The byte of a character that is one byte has its number. -/
theorem toNat_byte {c : Char} (h : c.toNat < 0x100) : (byte c).toNat = c.toNat := by
  rw [byte, Nat.toUInt8_eq, UInt8.toNat_ofNat_of_lt' h]

/-! ## Strings -/

/-- A byte that stands for itself inside a string. -/
def IsPlain (b : UInt8) : Prop := b ≠ quotationMark ∧ b ≠ backslash ∧ ¬ b < 0x20

/-- Plain bytes are taken one by one. -/
theorem stringBody_plain {bs : Bytes} (h : ∀ b ∈ bs, IsPlain b) (fuel : Nat) (done s : Bytes) :
    stringBody (bs.length + fuel) done (bs ++ s) = stringBody fuel (bs.reverse ++ done) s := by
  induction bs generalizing done with
  | nil => simp
  | cons b bs ih =>
    obtain ⟨hquote, hbackslash, hcontrol⟩ := h b List.mem_cons_self
    have hlength : (b :: bs).length + fuel = bs.length + fuel + 1 := by
      rw [List.length_cons]
      omega
    rw [hlength, List.cons_append, stringBody, if_neg hquote, if_neg hbackslash, if_neg hcontrol,
      ih (fun b' hb' => h b' (List.mem_cons_of_mem b hb'))]
    simp

/-- An escape is taken as what it stands for. -/
theorem stringBody_escape {s rest bytes : Bytes} (h : escape s = .ok (bytes, rest)) (fuel : Nat)
    (done : Bytes) :
    stringBody (fuel + 1) done (backslash :: s) = stringBody fuel (bytes.reverse ++ done) rest := by
  rw [stringBody, if_neg (by decide), if_pos rfl, h]
  rfl

/-- The bytes of a character that is no quotation mark, no backslash and no control character are
plain. -/
theorem isPlain_of_mem_utf8EncodeChar {c : Char} (hquote : c ≠ '\x22') (hbackslash : c ≠ '\\')
    (hcontrol : ¬ c.toNat < 0x20) {b : UInt8} (hb : b ∈ String.utf8EncodeChar c) : IsPlain b := by
  by_cases hascii : c.toNat < 0x80
  · rw [utf8EncodeChar_of_ascii hascii, List.mem_singleton] at hb
    subst hb
    have hbyte := toNat_byte (Nat.lt_trans hascii (by decide))
    have hne : ∀ d : Char, c ≠ d → c.toNat ≠ d.toNat :=
      fun d hcd hnat => hcd (Char.toNat_inj.1 hnat)
    refine ⟨?_, ?_, ?_⟩
    · intro heq
      exact hne _ hquote (by rw [← hbyte, heq]; rfl)
    · intro heq
      exact hne _ hbackslash (by rw [← hbyte, heq]; rfl)
    · rw [UInt8.lt_iff_toNat_lt, hbyte]
      exact hcontrol
  · have hle := UInt8.le_iff_toNat_le.1 (le_of_mem_utf8EncodeChar (Nat.not_lt.1 hascii) hb)
    refine ⟨?_, ?_, ?_⟩
    · rintro rfl
      exact absurd hle (by decide)
    · rintro rfl
      exact absurd hle (by decide)
    · rw [UInt8.lt_iff_toNat_lt]
      have h20 : (0x20 : UInt8).toNat = 0x20 := rfl
      have h80 : (0x80 : UInt8).toNat = 0x80 := rfl
      omega

/-- A hexadecimal digit is one byte, whose value is that of the digit. -/
theorem hexDigit_spec : ∀ n < 16, String.utf8EncodeChar (hexDigit n) = [byte (hexDigit n)] ∧
    hexValue? (byte (hexDigit n)) = some n := by
  decide

/-- The escape of a control character by its number. -/
theorem escape_control {c : Char} (h : c.toNat < 0x20) (s : Bytes) :
    escape (ofChars ['u', '0', '0', hexDigit (c.toNat / 16), hexDigit (c.toNat % 16)] ++ s) =
      .ok (String.utf8EncodeChar c, s) := by
  obtain ⟨hhigh, hhigh'⟩ := hexDigit_spec (c.toNat / 16) (by omega)
  obtain ⟨hlow, hlow'⟩ := hexDigit_spec (c.toNat % 16) (by omega)
  have hunit : hexUnit (0x30 :: 0x30 :: byte (hexDigit (c.toNat / 16)) ::
      byte (hexDigit (c.toNat % 16)) :: s) = .ok (c.toNat, s) := by
    have hzero : hexValue? 0x30 = some 0 := rfl
    simp only [hexUnit, hzero, hhigh', hlow']
    congr 2
    omega
  have hescape : hexEscape (0x30 :: 0x30 :: byte (hexDigit (c.toNat / 16)) ::
      byte (hexDigit (c.toNat % 16)) :: s) = .ok (c.toNat, s) := by
    rw [hexEscape, hunit]
    simp only [bind, Except.bind]
    rw [if_neg (by simp; omega), if_pos (by simp; omega)]
  simp only [ofChars_cons, ofChars_nil, hhigh, hlow, List.append_nil]
  show escape (byte 'u' :: 0x30 :: 0x30 :: byte (hexDigit (c.toNat / 16)) ::
      byte (hexDigit (c.toNat % 16)) :: s) = _
  rw [escape, if_neg (by decide), if_neg (by decide), if_neg (by decide), if_neg (by decide),
    if_neg (by decide), if_neg (by decide), if_pos rfl, hescape]
  show Except.ok (String.utf8EncodeChar (Char.ofNat c.toNat), s) = _
  rw [Char.ofNat_toNat]

/-- A character stands inside a string as it is, in plain bytes, or as an escape. -/
theorem escapeChar_cases (c : Char) :
    (escapeChar c = [c] ∧ ∀ b ∈ String.utf8EncodeChar c, IsPlain b) ∨
      ∃ cs, escapeChar c = '\\' :: cs ∧
        ∀ s, escape (ofChars cs ++ s) = .ok (String.utf8EncodeChar c, s) := by
  unfold escapeChar
  split
  · rename_i hquote
    exact Or.inr ⟨['\x22'], rfl, fun s => by rw [hquote]; rfl⟩
  rename_i hquote
  split
  · rename_i hbackslash
    exact Or.inr ⟨['\\'], rfl, fun s => by rw [hbackslash]; rfl⟩
  rename_i hbackslash
  split
  · rename_i hc
    exact Or.inr ⟨['b'], rfl, fun s => by rw [hc]; rfl⟩
  split
  · rename_i hc
    exact Or.inr ⟨['f'], rfl, fun s => by rw [hc]; rfl⟩
  split
  · rename_i hc
    exact Or.inr ⟨['n'], rfl, fun s => by rw [hc]; rfl⟩
  split
  · rename_i hc
    exact Or.inr ⟨['r'], rfl, fun s => by rw [hc]; rfl⟩
  split
  · rename_i hc
    exact Or.inr ⟨['t'], rfl, fun s => by rw [hc]; rfl⟩
  split
  · rename_i hcontrol
    exact Or.inr ⟨_, rfl, escape_control hcontrol⟩
  · rename_i hcontrol
    exact Or.inl ⟨rfl, fun b => isPlain_of_mem_utf8EncodeChar hquote hbackslash hcontrol⟩

/-- The characters of a string up to its closing quotation mark. -/
theorem stringBody_chars (cs : List Char) (rest : Bytes) :
    ∀ (fuel : Nat) (done : Bytes), (ofChars (cs.flatMap escapeChar)).length < fuel →
      stringBody fuel done (ofChars (cs.flatMap escapeChar) ++ quotationMark :: rest) =
        .ok ((ofChars cs).reverse ++ done, rest) := by
  induction cs with
  | nil =>
    intro fuel done hfuel
    obtain ⟨fuel, rfl⟩ := Nat.exists_eq_add_of_lt hfuel
    rfl
  | cons c cs ih =>
    intro fuel done hfuel
    rw [List.flatMap_cons, ofChars_append, List.length_append] at hfuel
    rw [List.flatMap_cons, ofChars_append, List.append_assoc, ofChars_cons, List.reverse_append,
      List.append_assoc]
    rcases escapeChar_cases c with ⟨hsame, hplain⟩ | ⟨tail, hescaped, hescape⟩
    · rw [hsame, ofChars_cons, ofChars_nil, List.append_nil] at hfuel ⊢
      obtain ⟨more, rfl⟩ := Nat.exists_eq_add_of_le (Nat.le_of_lt (Nat.lt_of_le_of_lt
        (Nat.le_add_right _ _) hfuel))
      rw [stringBody_plain hplain, ih]
      omega
    · have hbytes : ofChars (escapeChar c) = backslash :: ofChars tail := by
        rw [hescaped]
        rfl
      rw [hbytes] at hfuel ⊢
      rw [List.length_cons] at hfuel
      obtain ⟨fuel, rfl⟩ := Nat.exists_eq_succ_of_ne_zero (Nat.ne_of_gt (Nat.lt_of_le_of_lt
        (Nat.zero_le _) hfuel))
      rw [List.cons_append, stringBody_escape (hescape _), ih]
      omega

/-- A printed string is read back, after its opening quotation mark. -/
theorem stringToken_chars (s : String) (rest : Bytes) :
    stringToken (ofChars (s.toList.flatMap escapeChar) ++ quotationMark :: rest) =
      .ok (s, rest) := by
  have hbody := stringBody_chars s.toList rest
    ((ofChars (s.toList.flatMap escapeChar) ++ quotationMark :: rest).length + 1) []
    (by simp only [List.length_append]; omega)
  rw [stringToken, hbody]
  simp only [bind, Except.bind, List.append_nil, List.reverse_reverse, ofUtf8?_ofChars,
    String.ofList_toList]

/-! ## Whole numbers -/

/-- What is left behind the digits of a whole number: nothing that would go on with it. -/
structure EndsNumber (rest : Bytes) : Prop where
  digit : startsWithDigit rest = false
  exponent : startsWithExponent rest = false
  point : rest.head? ≠ some point

/-- A decimal digit is one byte, and the byte has its value. -/
theorem isDigit_spec {c : Char} (h : c.isDigit = true) :
    String.utf8EncodeChar c = [byte c] ∧ isDigit (byte c) = true ∧
      digitValue (byte c) = c.toNat - '0'.toNat := by
  obtain ⟨hlow, hhigh⟩ : 48 ≤ c.toNat ∧ c.toNat ≤ 57 := Char.isDigit_iff_toNat.1 h
  have hbyte := toNat_byte (Nat.lt_of_le_of_lt hhigh (by decide))
  refine ⟨utf8EncodeChar_of_ascii (by omega), ?_, ?_⟩
  · rw [isDigit, Bool.and_eq_true, decide_eq_true_eq, decide_eq_true_eq, UInt8.le_iff_toNat_le,
      UInt8.le_iff_toNat_le, hbyte]
    exact ⟨hlow, hhigh⟩
  · rw [digitValue, hbyte]
    rfl

/-- Digits are taken to their end if what they spell fits the word. -/
theorem takeDigits_ofChars {ds : List Char} (hds : ∀ d ∈ ds, d.isDigit = true) {rest : Bytes}
    (hrest : startsWithDigit rest = false) (value : Nat)
    (hfits : Nat.ofDigitChars 10 ds value ≤ maxWord) :
    takeDigits value (ofChars ds ++ rest) = (Nat.ofDigitChars 10 ds value, ds.length, rest) := by
  induction ds generalizing value with
  | nil =>
    cases rest with
    | nil => rfl
    | cons b rest =>
      have hb : isDigit b = false := hrest
      show takeDigits value (b :: rest) = _
      rw [takeDigits, hb]
      rfl
  | cons d ds ih =>
    obtain ⟨hbytes, hdigit, hvalue⟩ := isDigit_spec (hds d List.mem_cons_self)
    rw [Nat.ofDigitChars_cons] at hfits ⊢
    -- what the first digits spell only grows with the digits behind them
    have hfirst : 10 * value + (d.toNat - '0'.toNat) ≤ maxWord := by
      rw [Nat.ofDigitChars_eq_ofDigitChars_zero] at hfits
      have hgrows := Nat.le_mul_of_pos_left (10 * value + (d.toNat - '0'.toNat))
        (Nat.pow_pos (n := ds.length) (by decide : 0 < 10))
      omega
    rw [ofChars_cons, hbytes, List.singleton_append, List.cons_append, takeDigits, hdigit, hvalue,
      Bool.true_and, if_pos (decide_eq_true hfirst),
      ih (fun d' hd' => hds d' (List.mem_cons_of_mem d hd')) _ hfits]
    rfl

/-- A number has at least one digit, and nothing but digits. -/
theorem exists_toDigits_eq_cons (n : Nat) :
    ∃ d ds, Nat.toDigits 10 n = d :: ds ∧ ∀ d' ∈ d :: ds, d'.isDigit = true := by
  obtain ⟨d, ds, hds⟩ := List.exists_cons_of_ne_nil (Nat.toDigits_ne_nil (n := n) (b := 10))
  refine ⟨d, ds, hds, ?_⟩
  rw [← hds]
  exact fun d' hd' => Nat.isDigit_of_mem_toDigits (by decide) (by decide) hd'

/-- Only the digits of zero begin with a zero. -/
theorem head?_toDigits {n : Nat} (h : n ≠ 0) : (Nat.toDigits 10 n).head? ≠ some '0' := by
  induction n using Nat.strongRecOn with
  | ind n ih =>
    rw [Nat.toDigits_eq_if (by decide)]
    split
    · rename_i hlt
      rw [List.head?_cons, ne_eq, Option.some.injEq, Nat.digitChar_eq_zero]
      exact h
    · rename_i hge
      rw [List.head?_append]
      have hfirst := ih (n / 10) (by omega) (by omega)
      obtain ⟨d, ds, hds, -⟩ := exists_toDigits_eq_cons (n / 10)
      rw [hds] at hfirst ⊢
      exact hfirst

/-- The digits of a number that fits the word are read back under either sign. -/
theorem unsignedNumber_toDigits {k : Nat} (hk : k ≤ maxWord) {rest : Bytes}
    (hrest : EndsNumber rest) (positive : Bool) :
    unsignedNumber positive (ofChars (Nat.toDigits 10 k) ++ rest) =
      .ok (wholeNumber positive k, rest) := by
  -- nothing goes on with the number behind its digits
  have hafter : afterWhole positive k rest = .ok (wholeNumber positive k, rest) := by
    obtain ⟨-, hexponent, hpoint⟩ := hrest
    cases rest with
    | nil => rfl
    | cons b rest =>
      rw [afterWhole, if_neg (by simpa using hpoint), if_neg (by simp [hexponent])]
  by_cases hzero : k = 0
  · subst hzero
    rw [Nat.toDigits_zero]
    show unsignedNumber positive (zero :: rest) = _
    rw [unsignedNumber, if_pos rfl, if_neg (by simp [hrest.digit]), hafter]
  · obtain ⟨d, ds, hds, hdigits⟩ := exists_toDigits_eq_cons k
    have hspell : Nat.ofDigitChars 10 ds (d.toNat - '0'.toNat) = k := by
      have hall := Nat.ofDigitChars_ten_toDigits (n := k)
      rw [hds, Nat.ofDigitChars_cons, Nat.mul_zero, Nat.zero_add] at hall
      exact hall
    have hne : d ≠ '0' := by
      have hhead := head?_toDigits hzero
      rw [hds] at hhead
      simpa using hhead
    obtain ⟨hbytes, hdigit, hvalue⟩ := isDigit_spec (hdigits d List.mem_cons_self)
    have hnonzero : byte d ≠ zero := by
      intro hbyte
      have hnat := toNat_byte (c := d) (Nat.lt_of_le_of_lt
        (Char.isDigit_iff_toNat.1 (hdigits d List.mem_cons_self)).2 (by decide))
      rw [hbyte] at hnat
      exact hne (Char.toNat_inj.1 hnat.symm)
    have htake := takeDigits_ofChars (fun d' hd' => hdigits d' (List.mem_cons_of_mem d hd'))
      hrest.digit (d.toNat - '0'.toNat) (hspell ▸ hk)
    rw [hds, ofChars_cons, hbytes, List.singleton_append, List.cons_append, unsignedNumber,
      if_neg hnonzero, if_pos hdigit, hvalue, htake]
    simp only [hrest.digit, hspell, hafter]
    rfl

/-- A printed whole number is read back. -/
theorem numberToken_wholeChars (n : Whole) {rest : Bytes} (hrest : EndsNumber rest) :
    numberToken (ofChars (wholeChars n.val) ++ rest) = .ok (.whole n, rest) := by
  have hlower := n.lower
  have hupper := n.upper
  have hfits : n.val.natAbs ≤ maxWord := by
    rw [maxWord]
    omega
  have hread := unsignedNumber_toDigits hfits hrest
  have hwhole : Whole.ofInt? n.val = some n := by
    rw [Whole.ofInt?, dif_pos ⟨hlower, hupper⟩]
  rw [wholeChars]
  by_cases hneg : n.val < 0
  · rw [if_pos hneg]
    show numberToken (minus :: (ofChars (Nat.toDigits 10 n.val.natAbs) ++ rest)) = _
    have hval : -(n.val.natAbs : Int) = n.val := by omega
    have hne : n.val.natAbs ≠ 0 := by omega
    have hnumber : wholeNumber false n.val.natAbs = .whole n := by
      rw [wholeNumber, if_neg Bool.false_ne_true, hval, hwhole]
      simp only [hne, decide_false, Bool.and_false, Bool.false_eq_true, if_false]
    rw [numberToken, if_pos rfl, hread, hnumber]
  · rw [if_neg hneg]
    have hval : (n.val.natAbs : Int) = n.val := by omega
    have hunsigned : numberToken (ofChars (Nat.toDigits 10 n.val.natAbs) ++ rest) =
        unsignedNumber true (ofChars (Nat.toDigits 10 n.val.natAbs) ++ rest) := by
      obtain ⟨d, ds, hds, hdigits⟩ := exists_toDigits_eq_cons n.val.natAbs
      obtain ⟨hbytes, hdigit, -⟩ := isDigit_spec (hdigits d List.mem_cons_self)
      have hminus : byte d ≠ minus := by
        intro hbyte
        rw [hbyte] at hdigit
        exact absurd hdigit (by decide)
      rw [hds, ofChars_cons, hbytes, List.singleton_append, List.cons_append, numberToken,
        if_neg hminus]
    have hnumber : wholeNumber true n.val.natAbs = .whole n := by
      rw [wholeNumber, if_pos rfl, hval, hwhole]
      rfl
    rw [hunsigned, hread, hnumber]

end DaemonRpc.Json
