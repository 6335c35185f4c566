import DaemonRpc.Json.Reader
import DaemonRpc.Proofs.Json.Layout
import DaemonRpc.Proofs.Json.Token

/-!
# A printed value is read back

A value whose numbers are whole is read back from any text of it, with its members in order.

* The loops.  Each is an induction on the items or members, over a reader that reads each of them
  back, whatever ends a number behind it.
* `readValue_of_spells` is the induction on the value.  `read_text` and `read_indentedText` are the
  two texts that printers write.
* `normal_eq_of_text_eq` needs no limit on the depth: one text stands for one value.
-/

namespace DaemonRpc.Json

open Ascii Bytes

/-! ## Where values begin and end -/

theorem skipBlanks_append {gap : Bytes} (h : Blank gap) (s : Bytes) :
    skipBlanks (gap ++ s) = skipBlanks s :=
  List.dropWhile_append_of_pos h

/-- Bytes that begin a value: neither a blank nor the end of an array. -/
def StartsValue (s : Bytes) : Prop :=
  ∃ b rest, s = b :: rest ∧ isBlank b = false ∧ b ≠ closeBracket

theorem StartsValue.skipBlanks {s : Bytes} (h : StartsValue s) : Json.skipBlanks s = s := by
  obtain ⟨b, rest, rfl, hblank, -⟩ := h
  rw [Json.skipBlanks, List.dropWhile_cons_of_neg (by simp [hblank])]

/-- A whole number begins with its sign or with a digit. -/
theorem exists_wholeChars_eq_cons (n : Int) :
    ∃ b s, ofChars (wholeChars n) = b :: s ∧ (b = minus ∨ isDigit b = true) := by
  rw [wholeChars]
  split
  · exact ⟨_, _, rfl, Or.inl rfl⟩
  · obtain ⟨d, ds, hds, hdigits⟩ := exists_toDigits_eq_cons n.natAbs
    obtain ⟨hbytes, hdigit, -⟩ := isDigit_spec (hdigits d List.mem_cons_self)
    refine ⟨byte d, ofChars ds, ?_, Or.inr hdigit⟩
    rw [hds, ofChars_cons, hbytes, List.singleton_append]

/-- Neither a sign nor a digit is any of the other bytes that readers look for. -/
theorem ne_of_minus_or_isDigit {b c : UInt8} (hb : b = minus ∨ isDigit b = true)
    (hc : c ≠ minus ∧ isDigit c = false) : b ≠ c := by
  rintro rfl
  rcases hb with hminus | hdigit
  · exact hc.1 hminus
  · rw [hc.2] at hdigit
    exact absurd hdigit (by simp)

/-- Every text of a value begins one. -/
theorem startsValue_of_spells {cs : List Char} {v : Json} (h : Spells cs v) (rest : Bytes) :
    StartsValue (ofChars cs ++ rest) := by
  cases h with
  | null => exact ⟨_, _, rfl, by decide, by decide⟩
  | bool b =>
    cases b with
    | true => exact ⟨_, _, rfl, by decide, by decide⟩
    | false => exact ⟨_, _, rfl, by decide, by decide⟩
  | number n =>
    obtain ⟨b, s, hs, hb⟩ := exists_wholeChars_eq_cons n.val
    refine ⟨b, s ++ rest, by rw [hs, List.cons_append], ?_, ne_of_minus_or_isDigit hb (by decide)⟩
    simp [isBlank, ne_of_minus_or_isDigit hb (c := space) (by decide),
      ne_of_minus_or_isDigit hb (c := newline) (by decide),
      ne_of_minus_or_isDigit hb (c := tab) (by decide),
      ne_of_minus_or_isDigit hb (c := carriageReturn) (by decide)]
  | string s => exact ⟨_, _, rfl, by decide, by decide⟩
  | array _ _ _ _ _ => exact ⟨_, _, rfl, by decide, by decide⟩
  | object _ _ _ _ _ _ => exact ⟨_, _, rfl, by decide, by decide⟩

/-- A blank ends a number. -/
theorem endsNumber_of_isBlank {b : UInt8} (h : isBlank b = true) (s : Bytes) :
    EndsNumber (b :: s) := by
  simp only [isBlank, Bool.or_eq_true, decide_eq_true_eq] at h
  rcases h with ((rfl | rfl) | rfl) | rfl
  all_goals exact ⟨rfl, rfl, fun h => absurd (Option.some.inj h) (by decide)⟩

/-- What follows a part of a list ends a number. -/
theorem endsNumber_moreParts {close : Char} (hclose : close = ']' ∨ close = '\x7d')
    {gap last : List Char} (hlast : Blank (ofChars last)) (parts : List (List Char))
    (rest : Bytes) : EndsNumber (ofChars (moreParts close gap last parts) ++ rest) := by
  cases parts with
  | nil =>
    rw [moreParts, ofChars_append, List.append_assoc]
    cases hbytes : ofChars last with
    | nil =>
      rcases hclose with rfl | rfl
      all_goals exact ⟨rfl, rfl, fun h => absurd (Option.some.inj h) (by decide)⟩
    | cons b s => exact endsNumber_of_isBlank (hlast b (hbytes ▸ List.mem_cons_self)) _
  | cons part parts => exact ⟨rfl, rfl, fun h => absurd (Option.some.inj h) (by decide)⟩

/-! ## The loops -/

theorem nextItem_first {gap s : Bytes} (hgap : Blank gap) (h : StartsValue s) :
    nextItem true (gap ++ s) = .ok (.next, s) := by
  have hskip := h.skipBlanks
  obtain ⟨b, rest, rfl, -, hclose⟩ := h
  rw [nextItem, skipBlanks_append hgap, hskip]
  simp only [if_neg hclose, if_true]

theorem nextItem_comma {gap s : Bytes} (hgap : Blank gap) (h : StartsValue s) :
    nextItem false (comma :: (gap ++ s)) = .ok (.next, s) := by
  have hskip := h.skipBlanks
  obtain ⟨b, rest, rfl, -, hclose⟩ := h
  have hcomma : skipBlanks (comma :: (gap ++ b :: rest)) = comma :: (gap ++ b :: rest) := rfl
  rw [nextItem, hcomma]
  simp only [skipBlanks_append hgap, hskip, if_neg hclose, if_true]
  rfl

theorem nextItem_close (first : Bool) {last : Bytes} (hlast : Blank last) (s : Bytes) :
    nextItem first (last ++ closeBracket :: s) = .ok (.done, s) := by
  rw [nextItem, skipBlanks_append hlast]
  rfl

theorem nextMember_first {gap : Bytes} (hgap : Blank gap) (s : Bytes) :
    nextMember true (gap ++ quotationMark :: s) = .ok (.next, s) := by
  rw [nextMember, skipBlanks_append hgap]
  rfl

theorem nextMember_comma {gap : Bytes} (hgap : Blank gap) (s : Bytes) :
    nextMember false (comma :: (gap ++ quotationMark :: s)) = .ok (.next, s) := by
  have hcomma : skipBlanks (comma :: (gap ++ quotationMark :: s)) =
      comma :: (gap ++ quotationMark :: s) := rfl
  have hquote : skipBlanks (quotationMark :: s) = quotationMark :: s := rfl
  rw [nextMember, hcomma]
  simp only [skipBlanks_append hgap, hquote, if_true]
  rfl

theorem nextMember_close (first : Bool) {last : Bytes} (hlast : Blank last) (s : Bytes) :
    nextMember first (last ++ closeBrace :: s) = .ok (.done, s) := by
  rw [nextMember, skipBlanks_append hlast]
  rfl

/-- A reader reads a value back from a text, with any blanks in front and anything behind it that
ends a number. -/
def ReadBy (item : Bytes → Except Fault (Json × Bytes)) (cs : List Char) (v : Json) : Prop :=
  ∀ gap rest, Blank gap → EndsNumber rest →
    item (gap ++ (ofChars cs ++ rest)) = .ok (v.normal, rest)

/-- The bytes of a further part. -/
theorem ofChars_moreParts_cons (close : Char) (gap last part : List Char)
    (parts : List (List Char)) (rest : Bytes) :
    ofChars (moreParts close gap last (part :: parts)) ++ rest =
      comma :: (ofChars gap ++ (ofChars part ++
        (ofChars (moreParts close gap last parts) ++ rest))) := by
  simp only [moreParts, ofChars_cons, ofChars_append, List.append_assoc]
  rfl

/-- The bytes of a first part. -/
theorem ofChars_listed_cons (close : Char) (gap last part : List Char)
    (parts : List (List Char)) (rest : Bytes) :
    ofChars (listed close gap last (part :: parts)) ++ rest =
      ofChars gap ++ (ofChars part ++ (ofChars (moreParts close gap last parts) ++ rest)) := by
  simp only [listed, ofChars_append, List.append_assoc]

/-- The bytes of a member. -/
theorem ofChars_namedPart (after : List Char) (name : String) (text : List Char) (rest : Bytes) :
    ofChars (namedPart after name text) ++ rest =
      quotationMark :: (ofChars (name.toList.flatMap escapeChar) ++
        quotationMark :: colon :: (ofChars after ++ (ofChars text ++ rest))) := by
  simp only [namedPart, stringChars, ofChars_append, ofChars_cons, ofChars_nil,
    List.append_assoc, List.cons_append]
  rfl

section Loops

variable {item : Bytes → Except Fault (Json × Bytes)} {gap last after : List Char}
  {text : Json → List Char}

/-- Further items are read back up to the closing bracket. -/
theorem readItems_moreParts (hgap : Blank (ofChars gap)) (hlast : Blank (ofChars last))
    {items : List Json} (hspells : ∀ v ∈ items, Spells (text v) v)
    (hitem : ∀ v ∈ items, ReadBy item (text v) v) (rest : Bytes) (fuel : Nat) (done : List Json)
    (hdone : done ≠ []) (hfuel : items.length < fuel) :
    readItems item fuel done (ofChars (moreParts ']' gap last (items.map text)) ++ rest) =
      .ok ((items.map normal).reverse ++ done, rest) := by
  induction items generalizing fuel done with
  | nil =>
    obtain ⟨fuel, rfl⟩ := Nat.exists_eq_succ_of_ne_zero (Nat.ne_zero_of_lt hfuel)
    have hclose := nextItem_close done.isEmpty hlast rest
    rw [List.map_nil, moreParts, ofChars_append, List.append_assoc, readItems]
    exact congrArg (· >>= _) hclose
  | cons v items ih =>
    obtain ⟨fuel, rfl⟩ := Nat.exists_eq_succ_of_ne_zero (Nat.ne_zero_of_lt hfuel)
    have hfirst : done.isEmpty = false := by simpa using hdone
    have hstarts := startsValue_of_spells (hspells v List.mem_cons_self)
      (ofChars (moreParts ']' gap last (items.map text)) ++ rest)
    have hread := hitem v List.mem_cons_self []
      (ofChars (moreParts ']' gap last (items.map text)) ++ rest) blank_nil
      (endsNumber_moreParts (Or.inl rfl) hlast _ rest)
    rw [List.nil_append] at hread
    rw [List.map_cons, ofChars_moreParts_cons, readItems, hfirst, nextItem_comma hgap hstarts]
    simp only [bind, Except.bind, hread]
    rw [ih (fun u hu => hspells u (List.mem_cons_of_mem v hu))
      (fun u hu => hitem u (List.mem_cons_of_mem v hu)) fuel _ (List.cons_ne_nil _ _)
      (Nat.lt_of_succ_lt_succ hfuel)]
    simp

/-- Items are read back up to the closing bracket, in reverse. -/
theorem readItems_listed (hgap : Blank (ofChars gap)) (hlast : Blank (ofChars last))
    {items : List Json} (hspells : ∀ v ∈ items, Spells (text v) v)
    (hitem : ∀ v ∈ items, ReadBy item (text v) v) (rest : Bytes) (fuel : Nat)
    (hfuel : items.length < fuel) :
    readItems item fuel [] (ofChars (listed ']' gap last (items.map text)) ++ rest) =
      .ok ((items.map normal).reverse, rest) := by
  obtain ⟨fuel, rfl⟩ := Nat.exists_eq_succ_of_ne_zero (Nat.ne_zero_of_lt hfuel)
  cases items with
  | nil => rfl
  | cons v items =>
    have hstarts := startsValue_of_spells (hspells v List.mem_cons_self)
      (ofChars (moreParts ']' gap last (items.map text)) ++ rest)
    have hread := hitem v List.mem_cons_self []
      (ofChars (moreParts ']' gap last (items.map text)) ++ rest) blank_nil
      (endsNumber_moreParts (Or.inl rfl) hlast _ rest)
    rw [List.nil_append] at hread
    rw [List.map_cons, ofChars_listed_cons, readItems, List.isEmpty_nil,
      nextItem_first hgap hstarts]
    simp only [bind, Except.bind, hread]
    rw [readItems_moreParts hgap hlast (fun u hu => hspells u (List.mem_cons_of_mem v hu))
      (fun u hu => hitem u (List.mem_cons_of_mem v hu)) rest fuel _ (List.cons_ne_nil _ _)
      (Nat.lt_of_succ_lt_succ hfuel)]
    simp

/-- One member is read back and put to those that are done. -/
theorem readMembers_namedPart (hafter : Blank (ofChars after)) {name : String} {v : Json}
    {cs : List Char} (hitem : ReadBy item cs v) {rest : Bytes} (hrest : EndsNumber rest)
    (fuel : Nat) (done : List (String × Json)) {first : Bool} {s : Bytes}
    (hs : nextMember first s = .ok (.next, ofChars (name.toList.flatMap escapeChar) ++
      quotationMark :: colon :: (ofChars after ++ (ofChars cs ++ rest)))) :
    readMembers item (fuel + 1) first done s =
      readMembers item fuel false (insertMember name v.normal done) rest := by
  have hcolon : ∀ s, expectColon (colon :: s) = .ok s := fun _ => rfl
  rw [readMembers, hs]
  simp only [bind, Except.bind, stringToken_chars, hcolon, hitem _ rest hafter hrest]

/-- Further members are read back up to the closing brace. -/
theorem readMembers_moreParts (hgap : Blank (ofChars gap)) (hlast : Blank (ofChars last))
    (hafter : Blank (ofChars after)) {members : List (String × Json)}
    (hitem : ∀ m ∈ members, ReadBy item (text m.2) m.2) (rest : Bytes) (fuel : Nat)
    (done : List (String × Json)) (hfuel : members.length < fuel) :
    readMembers item fuel false done (ofChars (moreParts '\x7d' gap last
        (members.map fun m => namedPart after m.1 (text m.2))) ++ rest) =
      .ok ((normalMembers members).foldl (fun done m => insertMember m.1 m.2 done) done, rest) := by
  induction members generalizing fuel done with
  | nil =>
    obtain ⟨fuel, rfl⟩ := Nat.exists_eq_succ_of_ne_zero (Nat.ne_zero_of_lt hfuel)
    have hclose := nextMember_close false hlast rest
    rw [List.map_nil, moreParts, ofChars_append, List.append_assoc, readMembers]
    exact congrArg (· >>= _) hclose
  | cons m members ih =>
    obtain ⟨fuel, rfl⟩ := Nat.exists_eq_succ_of_ne_zero (Nat.ne_zero_of_lt hfuel)
    obtain ⟨name, v⟩ := m
    rw [List.map_cons, ofChars_moreParts_cons, ofChars_namedPart,
      readMembers_namedPart hafter (hitem _ List.mem_cons_self)
        (endsNumber_moreParts (Or.inr rfl) hlast _ rest) fuel done (nextMember_comma hgap _),
      ih (fun m' hm' => hitem m' (List.mem_cons_of_mem _ hm')) fuel _
        (Nat.lt_of_succ_lt_succ hfuel)]
    rfl

/-- Members are read back up to the closing brace. -/
theorem readMembers_listed (hgap : Blank (ofChars gap)) (hlast : Blank (ofChars last))
    (hafter : Blank (ofChars after)) {members : List (String × Json)}
    (hitem : ∀ m ∈ members, ReadBy item (text m.2) m.2) (rest : Bytes) (fuel : Nat)
    (hfuel : members.length < fuel) :
    readMembers item fuel true [] (ofChars (listed '\x7d' gap last
        (members.map fun m => namedPart after m.1 (text m.2))) ++ rest) =
      .ok ((normalMembers members).foldl (fun done m => insertMember m.1 m.2 done) [], rest) := by
  obtain ⟨fuel, rfl⟩ := Nat.exists_eq_succ_of_ne_zero (Nat.ne_zero_of_lt hfuel)
  cases members with
  | nil => rfl
  | cons m members =>
    obtain ⟨name, v⟩ := m
    rw [List.map_cons, ofChars_listed_cons, ofChars_namedPart,
      readMembers_namedPart hafter (hitem _ List.mem_cons_self)
        (endsNumber_moreParts (Or.inr rfl) hlast _ rest) fuel [] (nextMember_first hgap _),
      readMembers_moreParts hgap hlast hafter
        (fun m' hm' => hitem m' (List.mem_cons_of_mem _ hm')) rest fuel _
        (Nat.lt_of_succ_lt_succ hfuel)]
    rfl

end Loops

/-! ## Whole values -/

/-- Each further part has a comma in front, and there is the closing bracket. -/
theorem length_lt_ofChars_moreParts {close : Char} (hclose : close = ']' ∨ close = '\x7d')
    (gap last : List Char) (parts : List (List Char)) :
    parts.length < (ofChars (moreParts close gap last parts)).length := by
  induction parts with
  | nil =>
    have hone : (ofChars [close]).length = 1 := by
      rcases hclose with rfl | rfl <;> rfl
    rw [moreParts, ofChars_append, List.length_append, hone, List.length_nil]
    omega
  | cons part parts ih =>
    have hbytes := ofChars_moreParts_cons close gap last part parts []
    rw [List.append_nil, List.append_nil] at hbytes
    rw [hbytes]
    simp only [List.length_cons, List.length_append]
    omega

/-- Parts are no more than their bytes. -/
theorem length_le_ofChars_listed {close : Char} (hclose : close = ']' ∨ close = '\x7d')
    (gap last : List Char) (parts : List (List Char)) :
    parts.length ≤ (ofChars (listed close gap last parts)).length := by
  cases parts with
  | nil => exact Nat.zero_le _
  | cons part parts =>
    have hmore := length_lt_ofChars_moreParts hclose gap last parts
    simp only [listed, ofChars_append, List.length_append, List.length_cons]
    omega

/-- A reader of values does not mind blanks in front. -/
theorem readValue_append {gap : Bytes} (hgap : Blank gap) (depth : Nat) (s : Bytes) :
    readValue depth (gap ++ s) = readValue depth s := by
  rw [readValue, skipBlanks_append hgap, readValue]

/-- A whole number is read back at any depth. -/
theorem readValue_wholeChars (n : Whole) (depth : Nat) {rest : Bytes} (hrest : EndsNumber rest) :
    readValue depth (ofChars (wholeChars n.val) ++ rest) = .ok (.number (.whole n), rest) := by
  obtain ⟨b, s, hs, hb⟩ := exists_wholeChars_eq_cons n.val
  have hstarts := (startsValue_of_spells (.number n) rest).skipBlanks
  have htoken := numberToken_wholeChars n hrest
  rw [hs, List.cons_append] at hstarts htoken ⊢
  have hbracket : b ≠ openBracket := ne_of_minus_or_isDigit hb (by decide)
  have hbrace : b ≠ openBrace := ne_of_minus_or_isDigit hb (by decide)
  have hn : b ≠ byte 'n' := ne_of_minus_or_isDigit hb (by decide)
  have ht : b ≠ byte 't' := ne_of_minus_or_isDigit hb (by decide)
  have hf : b ≠ byte 'f' := ne_of_minus_or_isDigit hb (by decide)
  rw [readValue, hstarts]
  simp only [if_neg hbracket, if_neg hbrace, scalar, if_neg hn, if_neg ht, if_neg hf]
  rw [if_pos (by simpa using hb), htoken]
  rfl

/-- A string is read back at any depth. -/
theorem readValue_stringChars (s : String) (depth : Nat) (rest : Bytes) :
    readValue depth (ofChars (stringChars s) ++ rest) = .ok (.string s, rest) := by
  have hbytes : ofChars (stringChars s) ++ rest =
      quotationMark :: (ofChars (s.toList.flatMap escapeChar) ++ quotationMark :: rest) := by
    simp only [stringChars, ofChars_append, ofChars_cons, ofChars_nil, List.append_assoc,
      List.cons_append]
    rfl
  have hscalar : ∀ s, readValue depth (quotationMark :: s) = scalar quotationMark s := by
    intro s
    rw [readValue]
    rfl
  have hstring : ∀ s, scalar quotationMark s = stringToken s >>= fun r => .ok (.string r.1, r.2) :=
    fun _ => rfl
  rw [hbytes, hscalar, hstring, stringToken_chars]
  rfl

/-- A value is read back from any text of it, whatever stands behind it that ends a number. -/
theorem readValue_of_spells {n : Nat} {cs : List Char} {v : Json} (h : Spells cs v)
    (hdepth : DepthAtMost n v) : ReadBy (readValue n) cs v := by
  intro gap rest hgap hrest
  rw [readValue_append hgap]
  induction h generalizing n gap rest with
  | null =>
    rw [readValue]
    rfl
  | bool b =>
    rw [readValue]
    cases b <;> rfl
  | number m => exact readValue_wholeChars m n hrest
  | string s => exact readValue_stringChars s n rest
  | @array gap' last hgap' hlast text items each ih =>
    cases hdepth with
    | array n _ depths =>
    have hitem : ∀ v ∈ items, ReadBy (readValue n) (text v) v := by
      intro v hv before behind hbefore hbehind
      rw [readValue_append hbefore]
      exact ih v hv (depths v hv) before behind hbefore hbehind
    have hitems := readItems_listed hgap' hlast each hitem rest
      ((ofChars (listed ']' gap' last (items.map text)) ++ rest).length + 1) (by
        have := length_le_ofChars_listed (Or.inl rfl) gap' last (items.map text)
        rw [List.length_map] at this
        rw [List.length_append]
        omega)
    have hread : ∀ s, readValue (n + 1) (openBracket :: s) =
        readItems (readValue n) (s.length + 1) [] s >>= fun r => .ok (.array r.1.reverse, r.2) := by
      intro s
      rw [readValue]
      rfl
    show readValue (n + 1) (openBracket :: (ofChars (listed ']' gap' last (items.map text)) ++
      rest)) = _
    rw [hread, hitems, normal, normalItems_eq_map]
    show Except.ok (Json.array (items.map normal).reverse.reverse, rest) = _
    rw [List.reverse_reverse]
  | @object gap' last after hgap' hlast hafter text members each ih =>
    cases hdepth with
    | object n _ depths =>
    have hitem : ∀ m ∈ members, ReadBy (readValue n) (text m.2) m.2 := by
      intro m hm before behind hbefore hbehind
      rw [readValue_append hbefore]
      exact ih m hm (depths m hm) before behind hbefore hbehind
    obtain ⟨parts, hparts⟩ : ∃ parts,
        parts = members.map fun m => namedPart after m.1 (text m.2) := ⟨_, rfl⟩
    have hmembers := readMembers_listed hgap' hlast hafter hitem rest
      ((ofChars (listed '\x7d' gap' last parts) ++ rest).length + 1) (by
        have := length_le_ofChars_listed (Or.inr rfl) gap' last parts
        rw [hparts, List.length_map, ← hparts] at this
        rw [List.length_append]
        omega)
    rw [← hparts] at hmembers ⊢
    have hread : ∀ s, readValue (n + 1) (openBrace :: s) =
        readMembers (readValue n) (s.length + 1) true [] s >>= fun r => .ok (.object r.1, r.2) := by
      intro s
      rw [readValue]
      rfl
    show readValue (n + 1) (openBrace :: (ofChars (listed '\x7d' gap' last parts) ++ rest)) = _
    rw [hread, hmembers]
    rfl

/-- A whole text with a value and blanks behind it. -/
theorem read_of_spells {cs : List Char} {v : Json} (h : Spells cs v)
    (hdepth : DepthAtMost depthLimit v) {behind : Bytes} (hbehind : Blank behind) :
    read (ofChars cs ++ behind) = .ok v.normal := by
  have hends : EndsNumber behind := by
    cases behind with
    | nil => exact ⟨rfl, rfl, by simp⟩
    | cons b s => exact endsNumber_of_isBlank (hbehind b List.mem_cons_self) s
  have hread := readValue_of_spells h hdepth [] behind blank_nil hends
  have hskip := skipBlanks_append hbehind []
  rw [List.append_nil] at hskip
  rw [List.nil_append] at hread
  have hend : expectEnd behind = .ok () := by
    rw [expectEnd, hskip]
    rfl
  rw [read, hread]
  show expectEnd behind >>= _ = _
  rw [hend]
  rfl

/-- A printed value is read back, with the members of its objects put into order. -/
theorem read_text {v : Json} (hdepth : DepthAtMost depthLimit v) (hwhole : WholeNumbers v) :
    read (utf8 v.text) = .ok v.normal := by
  have hread := read_of_spells (spells_chars hwhole) hdepth blank_nil
  rw [List.append_nil] at hread
  rw [text, utf8_ofList, hread]

/-- A value is read back from the lines that it is printed on. -/
theorem read_indentedText {v : Json} (hdepth : DepthAtMost depthLimit v) (hwhole : WholeNumbers v) :
    read (utf8 (v.indentedText ++ "\n")) = .ok v.normal := by
  have hnewline : Blank (ofChars ['\n']) := by
    intro b hb
    obtain rfl := List.mem_singleton.1 hb
    rfl
  rw [utf8_eq_ofChars, String.toList_append, indentedText, String.toList_ofList, ofChars_append]
  exact read_of_spells (spells_indented hwhole 0) hdepth hnewline

/-! ## Values with the same text -/

theorem DepthAtMost.mono {n m : Nat} {v : Json} (h : DepthAtMost n v) (hle : n ≤ m) :
    DepthAtMost m v := by
  induction h generalizing m with
  | null _ => exact .null m
  | bool _ b => exact .bool m b
  | number _ x => exact .number m x
  | string _ s => exact .string m s
  | array n items _ ih =>
    obtain ⟨m, rfl⟩ := Nat.exists_eq_add_of_lt hle
    exact .array _ items fun v hv => ih v hv (Nat.le_add_right n m)
  | object n members _ ih =>
    obtain ⟨m, rfl⟩ := Nat.exists_eq_add_of_lt hle
    exact .object _ members fun v hv => ih v hv (Nat.le_add_right n m)

/-- Values that have a depth each have one together. -/
theorem exists_common_depth {α : Type} {value : α → Json} {xs : List α}
    (h : ∀ x ∈ xs, ∃ n, DepthAtMost n (value x)) : ∃ n, ∀ x ∈ xs, DepthAtMost n (value x) := by
  induction xs with
  | nil => exact ⟨0, by simp⟩
  | cons x xs ih =>
    obtain ⟨n, hn⟩ := h x List.mem_cons_self
    obtain ⟨m, hm⟩ := ih fun y hy => h y (List.mem_cons_of_mem x hy)
    refine ⟨max n m, fun y hy => ?_⟩
    rcases List.mem_cons.1 hy with rfl | hy
    · exact hn.mono (Nat.le_max_left n m)
    · exact (hm y hy).mono (Nat.le_max_right n m)

/-- Every value has some depth. -/
theorem exists_depthAtMost {v : Json} (h : WholeNumbers v) : ∃ n, DepthAtMost n v := by
  induction h with
  | null => exact ⟨0, .null 0⟩
  | bool b => exact ⟨0, .bool 0 b⟩
  | number n => exact ⟨0, .number 0 _⟩
  | string s => exact ⟨0, .string 0 s⟩
  | array items _ ih =>
    obtain ⟨n, hn⟩ := exists_common_depth ih
    exact ⟨n + 1, .array n items hn⟩
  | object members _ ih =>
    obtain ⟨n, hn⟩ := exists_common_depth ih
    exact ⟨n + 1, .object n members hn⟩

/-- Values with the same text, of whatever depth, are the same but for the order of members. -/
theorem normal_eq_of_text_eq {v w : Json} (hv : WholeNumbers v) (hw : WholeNumbers w)
    (htext : utf8 v.text = utf8 w.text) : v.normal = w.normal := by
  obtain ⟨n, hn⟩ := exists_depthAtMost hv
  obtain ⟨m, hm⟩ := exists_depthAtMost hw
  -- a reader that goes deep enough for both reads either value from the one text
  have hv' := readValue_of_spells (spells_chars hv) (hn.mono (Nat.le_max_left n m)) [] []
    blank_nil ⟨rfl, rfl, by simp⟩
  have hw' := readValue_of_spells (spells_chars hw) (hm.mono (Nat.le_max_right n m)) [] []
    blank_nil ⟨rfl, rfl, by simp⟩
  rw [text, text, utf8_ofList, utf8_ofList] at htext
  rw [htext, hw'] at hv'
  exact (Prod.mk.inj (Except.ok.inj hv')).1.symm

end DaemonRpc.Json
