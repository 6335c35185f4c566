import DaemonRpc.Text.Bytes

/-!
# The bytes of characters

The bytes of a text are those of its characters, one after the other: `utf8_eq_ofChars`.  Proofs
about texts are inductions over characters, and `Bytes.ofChars` is the form in which they meet
the readers of bytes.

* `ofUtf8?_ofChars` reads the bytes of characters back.
* `utf8EncodeChar_of_ascii` and `le_of_mem_utf8EncodeChar` tell the bytes of ASCII characters from
  those of all others.
* `utf8_lt` shows that texts and their bytes are in the same order.
-/

namespace DaemonRpc

namespace Bytes

/-- The UTF-8 bytes of characters. -/
def ofChars (cs : List Char) : Bytes := cs.flatMap String.utf8EncodeChar

@[simp] theorem ofChars_nil : ofChars [] = [] := rfl

@[simp] theorem ofChars_cons (c : Char) (cs : List Char) :
    ofChars (c :: cs) = String.utf8EncodeChar c ++ ofChars cs := rfl

@[simp] theorem ofChars_append (cs ds : List Char) :
    ofChars (cs ++ ds) = ofChars cs ++ ofChars ds := List.flatMap_append

/-! ## Texts -/

/-- The loop that lists the bytes of an array puts those from `i` on behind the ones it has. -/
theorem toList_loop (bytes : ByteArray) (i : Nat) (done : List UInt8) :
    ByteArray.toList.loop bytes i done = done.reverse ++ bytes.data.toList.drop i := by
  fun_induction ByteArray.toList.loop bytes i done with
  | case1 i done hi ih =>
    have hlt : i < bytes.data.toList.length := by simpa using hi
    have hget : bytes.get! i = bytes.data.toList[i] := by
      rw [ByteArray.get!, Array.getElem_toList]
      exact getElem!_pos bytes.data i hlt
    rw [ih, List.drop_eq_getElem_cons hlt, hget]
    simp
  | case2 i done hi =>
    have hle : bytes.data.toList.length ≤ i := by simpa using hi
    rw [List.drop_eq_nil_of_le hle, List.append_nil]

theorem toList_eq (bytes : ByteArray) : bytes.toList = bytes.data.toList := by
  rw [ByteArray.toList, toList_loop]
  rfl

/-- The bytes of a text are those of its characters. -/
theorem utf8_eq_ofChars (s : String) : utf8 s = ofChars s.toList := by
  rw [utf8, String.toUTF8_eq_toByteArray, ← String.utf8Encode_toList, toList_eq, List.utf8Encode,
    List.toList_data_toByteArray, ofChars]

@[simp] theorem utf8_ofList (cs : List Char) : utf8 (String.ofList cs) = ofChars cs := by
  rw [utf8_eq_ofChars, String.toList_ofList]

/-- The bytes of characters are read back as their text. -/
theorem ofUtf8?_ofChars (cs : List Char) : ofUtf8? (ofChars cs) = some (String.ofList cs) := by
  have hbytes : (⟨(ofChars cs).toArray⟩ : ByteArray) = (String.ofList cs).toByteArray := by
    rw [String.toByteArray_ofList, List.utf8Encode, ofChars]
    ext1
    rw [← Array.toList_inj, List.toList_data_toByteArray]
  rw [ofUtf8?, hbytes, String.fromUTF8?, dif_pos (String.ofList cs).isValidUTF8]
  exact congrArg some (String.toByteArray_inj.1 rfl)

/-! ## Single characters -/

/-- An ASCII character is the byte of its number. -/
theorem utf8EncodeChar_of_ascii {c : Char} (h : c.toNat < 0x80) :
    String.utf8EncodeChar c = [Ascii.byte c] := by
  have hle : c.val.toNat ≤ 0x7f := Nat.le_of_lt_succ h
  simp only [String.utf8EncodeChar, if_pos hle]
  rfl

/-- The bytes of any other character lie beyond ASCII. -/
theorem le_of_mem_utf8EncodeChar {c : Char} (h : 0x80 ≤ c.toNat) {b : UInt8}
    (hb : b ∈ String.utf8EncodeChar c) : 0x80 ≤ b := by
  have hnot : ¬ c.val.toNat ≤ 0x7f := Nat.not_le_of_lt h
  -- whatever its place, a byte is some payload with a mark of at least `0x80` added
  have hmarked : ∀ n, 0x80 ≤ n → n < 0x100 → (0x80 : UInt8) ≤ UInt8.ofNat n := by
    intro n hlow hhigh
    rw [UInt8.le_iff_toNat_le, UInt8.toNat_ofNat_of_lt' hhigh]
    exact hlow
  simp only [String.utf8EncodeChar, if_neg hnot] at hb
  split at hb
  · simp only [List.mem_cons, List.not_mem_nil, or_false] at hb
    rcases hb with rfl | rfl
    all_goals exact hmarked _ (by omega) (by omega)
  · split at hb
    · simp only [List.mem_cons, List.not_mem_nil, or_false] at hb
      rcases hb with rfl | rfl | rfl
      all_goals exact hmarked _ (by omega) (by omega)
    · simp only [List.mem_cons, List.not_mem_nil, or_false] at hb
      rcases hb with rfl | rfl | rfl | rfl
      all_goals exact hmarked _ (by omega) (by omega)

/-! ## The order of texts

The bytes of a character are its digits to base 64.  The first of them is marked with how many
follow, and the mark is the larger the more they are. -/

/-- How many bytes follow the first one of a character. -/
def places (v : Nat) : Nat :=
  if v ≤ 0x7f then 0 else if v ≤ 0x7ff then 1 else if v ≤ 0xffff then 2 else 3

/-- A number without its last `n` digits. -/
def leading : Nat → Nat → Nat
  | 0, v => v
  | n + 1, v => leading n v / 64

/-- The first byte of a character: the mark of its length over the leading digit. -/
def lead (v : Nat) : Nat :=
  if v ≤ 0x7f then v else if v ≤ 0x7ff then leading 1 v + 0xc0
  else if v ≤ 0xffff then leading 2 v + 0xe0 else leading 3 v + 0xf0

/-- The bytes that follow: the last `n` digits. -/
def continuations : Nat → Nat → Bytes
  | 0, _ => []
  | n + 1, v => UInt8.ofNat (leading n v % 64 + 0x80) :: continuations n v

/-- No character lies beyond the last code point. -/
theorem toNat_val_lt (c : Char) : c.val.toNat < 0x110000 := by
  have hvalid := c.valid
  simp only [UInt32.isValidChar, Nat.isValidChar] at hvalid
  omega

theorem utf8EncodeChar_eq (c : Char) :
    String.utf8EncodeChar c =
      UInt8.ofNat (lead c.val.toNat) :: continuations (places c.val.toNat) c.val.toNat := by
  have hlast := toNat_val_lt c
  simp only [String.utf8EncodeChar, lead, places]
  generalize c.val.toNat = v at hlast
  split
  · rfl
  · split
    · rw [Nat.mod_eq_of_lt (by omega)]
      rfl
    · split
      · rw [Nat.mod_eq_of_lt (by omega)]
        simp [continuations, leading, Nat.div_div_eq_div_mul]
      · rw [Nat.mod_eq_of_lt (by omega)]
        simp [continuations, leading, Nat.div_div_eq_div_mul]

/-- A byte decides if it differs, and otherwise what follows does. -/
theorem cons_ofNat_lt {m n : Nat} {xs ys : Bytes} (hn : n < 0x100)
    (h : m < n ∨ m = n ∧ xs < ys) : UInt8.ofNat m :: xs < UInt8.ofNat n :: ys := by
  rw [List.cons_lt_cons_iff]
  rcases h with h | ⟨rfl, h⟩
  · refine Or.inl (UInt8.lt_iff_toNat_lt.2 ?_)
    rw [UInt8.toNat_ofNat_of_lt' hn, UInt8.toNat_ofNat_of_lt' (Nat.lt_trans h hn)]
    exact h
  · exact Or.inr ⟨rfl, h⟩

theorem leading_le {v w : Nat} (h : v ≤ w) (n : Nat) : leading n v ≤ leading n w := by
  induction n with
  | zero => exact h
  | succ n ih => exact Nat.div_le_div_right ih

/-- Of two numbers with the same leading digits the smaller has the smaller last ones. -/
theorem continuations_lt {n v w : Nat} (h : v < w) (hsame : leading n v = leading n w)
    (xs ys : Bytes) : continuations n v ++ xs < continuations n w ++ ys := by
  induction n with
  | zero => exact absurd hsame (Nat.ne_of_lt h)
  | succ n ih =>
    have hle := leading_le (Nat.le_of_lt h) n
    replace hsame : leading n v / 64 = leading n w / 64 := hsame
    refine cons_ofNat_lt (by omega) ?_
    by_cases hdigit : leading n v = leading n w
    · exact Or.inr ⟨by rw [hdigit], ih hdigit⟩
    · exact Or.inl (by omega)

/-- The first bytes differ, or as many others follow and the leading digits are the same. -/
theorem lead_lt_or {v w : Nat} (h : v < w) :
    lead v < lead w ∨
      lead v = lead w ∧ places v = places w ∧ leading (places w) v = leading (places w) w := by
  unfold lead places
  grind [leading]

/-- The bytes of the smaller character are smaller, whatever follows the two. -/
theorem utf8EncodeChar_lt {c d : Char} (h : c < d) (xs ys : Bytes) :
    String.utf8EncodeChar c ++ xs < String.utf8EncodeChar d ++ ys := by
  have hlt : c.val.toNat < d.val.toNat := UInt32.lt_iff_toNat_lt.1 h
  have hlead : lead d.val.toNat < 0x100 := by
    have hlast := toNat_val_lt d
    unfold lead
    grind [leading]
  rw [utf8EncodeChar_eq, utf8EncodeChar_eq]
  refine cons_ofNat_lt hlead ((lead_lt_or hlt).imp_right fun hsame => ⟨hsame.1, ?_⟩)
  rw [hsame.2.1]
  exact continuations_lt hlt hsame.2.2 xs ys

/-- Characters in order have bytes in order. -/
theorem ofChars_lt {cs ds : List Char} (h : cs < ds) : ofChars cs < ofChars ds := by
  induction cs generalizing ds with
  | nil =>
    cases ds with
    | nil => exact absurd h (List.lt_irrefl [])
    | cons d ds =>
      rw [ofChars_cons, utf8EncodeChar_eq]
      exact List.nil_lt_cons _ _
  | cons c cs ih =>
    cases ds with
    | nil => exact absurd h (List.not_lt_nil _)
    | cons d ds =>
      rw [ofChars_cons, ofChars_cons]
      rcases List.cons_lt_cons_iff.1 h with hlt | ⟨rfl, hlt⟩
      · exact utf8EncodeChar_lt hlt _ _
      · exact List.append_left_lt (ih hlt)

/-- Texts in order have bytes in order. -/
theorem utf8_lt {s t : String} (h : s < t) : utf8 s < utf8 t := by
  rw [utf8_eq_ofChars, utf8_eq_ofChars]
  exact ofChars_lt h

end Bytes

end DaemonRpc
