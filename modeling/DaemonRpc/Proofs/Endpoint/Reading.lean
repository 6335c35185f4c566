import DaemonRpc.Endpoint
import DaemonRpc.Proofs.Except
import DaemonRpc.Proofs.Text.Utf8
import Mathlib.Data.List.DropRight

/-!
# What each part of an endpoint is read from

`Endpoint.ofChars` cuts a URL at its delimiters.  The lemmas here follow one reader each, and
`ofChars_eq_ok` puts them together: a URL that is read has an authority, and what is behind
the authority is all that the path, the query and the fragment see.

* The user: `splitUser_append`, `userParts_eq_none_iff`.
* The host: `splitHost_append`, and `Host.getLast?_of_colon` for tables of international names that
  leave colons as they are (`DomainMapping.KeepsColons`).
* The port: `readPort_digits`, `readPort_of_colon`.
* The rest: `readRest_eq_root`, `getLast?_resolve`.
-/

namespace DaemonRpc

/-! ## Percent encoding -/

namespace Percent

variable {reserved : Reserved} {c : Char} {cs : List Char}

theorem encodeChar_ne_nil (reserved : Reserved) (c : Char) : encodeChar reserved c ≠ [] := by
  rw [encodeChar]
  split
  · exact List.cons_ne_nil _ _
  · obtain ⟨b, bs, hbytes⟩ := List.exists_cons_of_ne_nil (String.utf8EncodeChar_ne_nil (c := c))
    simp [hbytes, byteChars]

theorem encode_eq_nil_iff : encode reserved cs = [] ↔ cs = [] := by
  cases cs with
  | nil => simp [encode]
  | cons c cs => simp [encode, encodeChar_ne_nil]

/-- A character that need not be encoded is still there after the encoding. -/
theorem mem_encode (hascii : c.toNat < 0x80) (hfree : reserved c = false) (hc : c ∈ cs) :
    c ∈ encode reserved cs := by
  refine List.mem_flatMap.2 ⟨c, hc, ?_⟩
  simp [encodeChar, hascii, hfree]

/-- A byte that is no part of an encoded one is still there after the decoding. -/
theorem mem_decode {b : UInt8} {bytes : Bytes} (hpercent : b ≠ 0x25)
    (hhex : Bytes.hexValue? b = none) (hb : b ∈ bytes) : b ∈ decode bytes := by
  fun_induction decode bytes with
  | case1 => exact hb
  | case2 x y rest low high hx hy ih =>
    have hnex : b ≠ x := by
      rintro rfl
      exact Option.some_ne_none _ (hy.symm.trans hhex)
    have hney : b ≠ y := by
      rintro rfl
      exact Option.some_ne_none _ (hx.symm.trans hhex)
    simp only [List.mem_cons, hpercent, hnex, hney, false_or] at hb
    exact List.mem_cons_of_mem _ (ih hb)
  | case3 x y rest _ ih =>
    simp only [List.mem_cons, hpercent, false_or] at hb ⊢
    exact ih (by simpa using hb)
  | case4 x rest _ ih =>
    rcases List.mem_cons.1 hb with rfl | hb
    · exact List.mem_cons_self
    · exact List.mem_cons_of_mem _ (ih hb)

end Percent

/-! ## The host -/

/-- Tables of international names leave a colon as it is, like every ASCII character that is no
letter; they may refuse a name that holds one. -/
def DomainMapping.KeepsColons (international : DomainMapping) : Prop :=
  ∀ bytes name, international bytes = some name → 0x3a ∈ bytes → ':' ∈ name

namespace Host

variable {international : DomainMapping}

/-- A colon is still there when a domain is turned into ASCII. -/
theorem colon_mem_of_toAscii (htables : international.KeepsColons) {bytes : Bytes}
    {name : List Char} (h : toAscii international bytes = some name) (hcolon : 0x3a ∈ bytes) :
    ':' ∈ name := by
  simp only [toAscii] at h
  split at h
  · obtain rfl := Option.some.inj h
    exact List.mem_map.2 ⟨0x3a, hcolon, by decide⟩
  · exact htables bytes name h hcolon

/-- No domain holds a colon. -/
theorem colon_notMem_of_domainChars (htables : international.KeepsColons) {bytes : Bytes}
    {name : List Char} (h : domainChars international bytes = .ok name) : 0x3a ∉ bytes := by
  intro hcolon
  rw [domainChars] at h
  split at h
  · rename_i ascii hascii
    have hforbidden : ascii.any forbidden = true :=
      List.any_eq_true.2 ⟨':', colon_mem_of_toAscii htables hascii hcolon, by decide⟩
    rw [if_pos hforbidden] at h
    exact nomatch h
  · exact nomatch h

/-- A host with a colon is an address in brackets. -/
theorem getLast?_of_colon (htables : international.KeepsColons) {cs : List Char} {host : Host}
    (h : ofChars international cs = .ok host) (hcolon : ':' ∈ cs) : cs.getLast? = some ']' := by
  rw [ofChars.eq_def] at h
  split at h
  · rename_i rest
    split at h
    · rename_i hlast
      simp [List.getLast?_cons, hlast]
    · exact nomatch h
  · obtain ⟨name, hname, -⟩ := bind_eq_ok_iff.1 h
    refine absurd ?_ (colon_notMem_of_domainChars htables hname)
    apply Percent.mem_decode (by decide) (by decide)
    rw [Bytes.utf8_ofList]
    exact List.mem_flatMap.2 ⟨':', hcolon, by decide⟩

end Host

namespace Endpoint

/-- The host and what is behind it are all there is. -/
theorem splitHost_append (inside : Bool) (cs : List Char) :
    (splitHost inside cs).1 ++ (splitHost inside cs).2 = cs := by
  fun_induction splitHost inside cs with
  | case1 => rfl
  | case2 => rfl
  | case3 inside c cs _ host rest hsplit ih =>
    rw [hsplit] at ih
    simpa using ih

/-- What is behind the host starts with a delimiter. -/
theorem splitHost_rest (inside : Bool) (cs : List Char) :
    ∀ c ∈ (splitHost inside cs).2.head?, endsAuthority c = true ∨ c = ':' := by
  fun_induction splitHost inside cs with
  | case1 => simp
  | case2 inside c cs hstop =>
    simp only [Bool.or_eq_true, Bool.and_eq_true, decide_eq_true_eq] at hstop
    simpa using hstop.imp_right And.left
  | case3 inside c cs _ host rest hsplit ih =>
    rwa [hsplit] at ih

/-- The end of the authority stays where it is when the host is taken off. -/
theorem dropWhile_splitHost (inside : Bool) (cs : List Char) :
    (splitHost inside cs).2.dropWhile (!endsAuthority ·) = cs.dropWhile (!endsAuthority ·) := by
  fun_induction splitHost inside cs with
  | case1 => rfl
  | case2 => rfl
  | case3 inside c cs hgo host rest hsplit ih =>
    have hc : endsAuthority c = false := by
      simp only [Bool.or_eq_true, not_or, Bool.not_eq_true] at hgo
      exact hgo.1
    rw [hsplit] at ih
    simpa [hc] using ih

/-! ## The user -/

theorem splitUser_of_notMem {cs : List Char} (h : '@' ∉ cs) : splitUser cs = none := by
  simp [splitUser, h]

/-- The last `@` is the border. -/
theorem splitUser_append {user host : List Char} (h : '@' ∉ host) :
    splitUser (user ++ '@' :: host) = some (user, host) := by
  have hhost : ∀ c ∈ host.reverse, (!decide (c = '@')) = true := by
    intro c hc
    have hne : c ≠ '@' := by
      rintro rfl
      exact h (List.mem_reverse.1 hc)
    simpa using hne
  have htake : (host.reverse ++ ('@' :: user.reverse)).takeWhile (fun c => !decide (c = '@')) =
      host.reverse := by
    rw [List.takeWhile_append_of_pos hhost]
    simp
  have hlength : user.length + (host.length + 1) - host.length - 1 = user.length := by omega
  simp [splitUser, htake, hlength]

/-- Neither a user nor a password is given exactly when there is nothing, or a colon alone. -/
theorem userParts_eq_none_iff {user : List Char} :
    userParts user = ("", none) ↔ user = [] ∨ user = [':'] := by
  constructor
  · intro h
    have hname : Percent.encode Percent.userInfo (user.takeWhile (· ≠ ':')) = [] := by
      have hfst := congrArg Prod.fst h
      rw [userParts] at hfst
      split at hfst
      all_goals exact String.ofList_eq_empty_iff.1 hfst
    rw [Percent.encode_eq_nil_iff] at hname
    match user, hname, h with
    | [], _, _ => exact .inl rfl
    | c :: rest, hname, h =>
      have hc : c = ':' := by
        by_contra hne
        simp [hne] at hname
      subst hc
      cases rest with
      | nil => exact .inr rfl
      | cons c rest => simp [userParts] at h
  · rintro (rfl | rfl)
    · rfl
    · rfl

/-! ## The port -/

/-- One digit of a port. -/
def portDigit (n : Nat) (c : Char) : Option Nat := do
  let d ← Ipv4.digit? 10 c
  if 10 * n + d < 65536 then some (10 * n + d) else none

theorem readPort_eq (cs : List Char) :
    readPort cs =
      match (cs.takeWhile (!endsAuthority ·)).foldlM portDigit 0 with
      | none => .error .invalidPort
      | some n =>
        .ok (if (cs.takeWhile (!endsAuthority ·)).isEmpty || n = defaultPort then none else some n,
          cs.dropWhile (!endsAuthority ·)) := rfl

/-- The port goes as far as the authority. -/
theorem readPort_rest {cs rest : List Char} {port : Option Nat}
    (h : readPort cs = .ok (port, rest)) : rest = cs.dropWhile (!endsAuthority ·) := by
  rw [readPort_eq] at h
  split at h
  · exact nomatch h
  · exact (congrArg Prod.snd (Except.ok.inj h)).symm

theorem digit?_of_isDigit {c : Char} (h : c.isDigit = true) :
    Ipv4.digit? 10 c = some (c.toNat - '0'.toNat) := by
  obtain ⟨hlow, hhigh⟩ := Char.isDigit_iff_toNat.1 h
  have hrange : '0' ≤ c ∧ c ≤ '9' := ⟨hlow, hhigh⟩
  have hlt : c.toNat - '0'.toNat < 10 := by
    show c.toNat - 48 < 10
    have : c.toNat ≤ 57 := hhigh
    omega
  simp only [Ipv4.digit?, hrange, decide_true, Bool.and_self, if_true, if_pos hlt]

theorem le_ofDigitChars (cs : List Char) (n : Nat) : n ≤ Nat.ofDigitChars 10 cs n := by
  induction cs generalizing n with
  | nil => exact Nat.le_refl n
  | cons c cs ih =>
    rw [Nat.ofDigitChars_cons]
    have := ih (10 * n + (c.toNat - '0'.toNat))
    omega

/-- Digits are read as their number, when that is a port: it bounds all that is read before. -/
theorem foldlM_portDigit {cs : List Char} (hdigits : ∀ c ∈ cs, c.isDigit = true) (n : Nat)
    (hbound : Nat.ofDigitChars 10 cs n < 65536) :
    cs.foldlM portDigit n = some (Nat.ofDigitChars 10 cs n) := by
  induction cs generalizing n with
  | nil => rfl
  | cons c cs ih =>
    rw [Nat.ofDigitChars_cons] at hbound ⊢
    have hstep : portDigit n c = some (10 * n + (c.toNat - '0'.toNat)) := by
      have hle := le_ofDigitChars cs (10 * n + (c.toNat - '0'.toNat))
      rw [portDigit, digit?_of_isDigit (hdigits c List.mem_cons_self)]
      exact if_pos (Nat.lt_of_le_of_lt hle hbound)
    rw [List.foldlM_cons, hstep]
    exact ih (fun c hc => hdigits c (List.mem_cons_of_mem _ hc)) _ hbound

theorem foldlM_portDigit_of_colon {cs : List Char} (h : ':' ∈ cs) (n : Nat) :
    cs.foldlM portDigit n = none := by
  induction cs generalizing n with
  | nil => simp at h
  | cons c cs ih =>
    rw [List.foldlM_cons]
    rcases List.mem_cons.1 h with rfl | h
    · rfl
    · cases portDigit n c with
      | none => rfl
      | some m => exact ih h m

theorem isDigit_of_mem_toDigits {n : Nat} {c : Char} (h : c ∈ Nat.toDigits 10 n) :
    c.isDigit = true :=
  Nat.isDigit_of_mem_toDigits (by decide) (by decide) h

theorem endsAuthority_of_isDigit {c : Char} (h : c.isDigit = true) : endsAuthority c = false := by
  have hne : ∀ d : Char, d.isDigit = false → c ≠ d := by
    rintro d hd rfl
    exact absurd h (by simp [hd])
  simp [endsAuthority, hne '/' (by decide), hne '\\' (by decide), hne '?' (by decide),
    hne '#' (by decide)]

theorem takeWhile_authority {cs : List Char} (h : ∀ c ∈ cs, endsAuthority c = false) :
    cs.takeWhile (!endsAuthority ·) = cs :=
  List.takeWhile_eq_self_iff.2 fun c hc => by simp [h c hc]

theorem dropWhile_authority {cs : List Char} (h : ∀ c ∈ cs, endsAuthority c = false) :
    cs.dropWhile (!endsAuthority ·) = [] :=
  List.dropWhile_eq_nil_iff.2 fun c hc => by simp [h c hc]

/-- The digits of a port are read back as that port. -/
theorem readPort_digits {n : Nat} (h : n < 65536) :
    readPort (Nat.toDigits 10 n) = .ok (if n = defaultPort then none else some n, []) := by
  have hauthority : ∀ c ∈ Nat.toDigits 10 n, endsAuthority c = false :=
    fun c hc => endsAuthority_of_isDigit (isDigit_of_mem_toDigits hc)
  have hread := foldlM_portDigit (fun c hc => isDigit_of_mem_toDigits hc) 0
    (by rwa [Nat.ofDigitChars_ten_toDigits])
  rw [Nat.ofDigitChars_ten_toDigits] at hread
  rw [readPort_eq, takeWhile_authority hauthority, dropWhile_authority hauthority, hread]
  simp [Nat.toDigits_ne_nil]

/-- A second colon leaves no port. -/
theorem readPort_of_colon {cs : List Char} (hcs : ∀ c ∈ cs, endsAuthority c = false)
    (hcolon : ':' ∈ cs) : readPort cs = .error .invalidPort := by
  rw [readPort_eq, takeWhile_authority hcs, foldlM_portDigit_of_colon hcolon]

/-! ## Path, query and fragment -/

theorem not_isDot_of_colon {cs : List Char} (h : ':' ∈ cs) :
    isDoubleDot cs = false ∧ isSingleDot cs = false := by
  have hlower : ':' ∈ cs.map Char.toLower := List.mem_map.2 ⟨':', h, by decide⟩
  have hne : ∀ s : String, ':' ∉ s.toList → String.ofList (cs.map Char.toLower) ≠ s := by
    rintro s hs rfl
    exact hs (by rwa [String.toList_ofList])
  constructor
  · simp [isDoubleDot, hne ".." (by decide), hne ".%2e" (by decide), hne "%2e." (by decide),
      hne "%2e%2e" (by decide)]
  · simp [isSingleDot, hne "." (by decide), hne "%2e" (by decide)]

/-- Dots in front of it do not remove the last part of a path. -/
theorem getLast?_resolve (done before : List (List Char)) {part : List Char}
    (hdouble : isDoubleDot part = false) (hsingle : isSingleDot part = false) :
    (resolve done (before ++ [part])).getLast? = some part := by
  induction before generalizing done with
  | nil => simp [resolve, hdouble, hsingle]
  | cons first before ih =>
    obtain ⟨second, rest, hrest⟩ := List.exists_cons_of_ne_nil
      (List.append_ne_nil_of_right_ne_nil before (List.cons_ne_nil part []))
    rw [hrest] at ih
    rw [List.cons_append, hrest, resolve]
    · split
      · exact ih _
      · split
        · exact ih _
        · exact ih _
    · exact List.cons_ne_nil _ _

/-- What comes behind the last slash belongs to the last part. -/
theorem splitOn_append (cs : List Char) {last : List Char} (h : '/' ∉ last) :
    ∃ before part, (cs ++ last).splitOn '/' = before ++ [part ++ last] := by
  induction cs with
  | nil => exact ⟨[], [], by simp [List.splitOn_eq_singleton h]⟩
  | cons c cs ih =>
    obtain ⟨before, part, ih⟩ := ih
    rw [List.cons_append, List.splitOn_cons_eq_if_modifyHead, ih]
    split
    · exact ⟨[] :: before, part, rfl⟩
    · cases before with
      | nil => exact ⟨[], c :: part, rfl⟩
      | cons first before => exact ⟨(c :: first) :: before, part, rfl⟩

/-- A path whose last part holds a colon is not the root. -/
theorem pathParts_ne_root {c : Char} (hc : c = '/' ∨ c = '\\') (cs : List Char)
    {last : List Char} (hlast : ∀ d ∈ last, endsAuthority d = false) (hcolon : ':' ∈ last) :
    pathParts (c :: cs ++ last) ≠ [""] := by
  let slashed : Char → Char := fun d => if d = '\\' then '/' else d
  have hslash : '/' ∉ last.map slashed := by
    rintro hmem
    obtain ⟨d, hd, heq⟩ := List.mem_map.1 hmem
    have hend := hlast d hd
    simp only [endsAuthority, Bool.or_eq_false_iff, decide_eq_false_iff_not] at hend
    simp only [slashed, if_neg hend.1.1.2] at heq
    exact hend.1.1.1 heq
  have hstays : ':' ∈ last.map slashed := List.mem_map.2 ⟨':', hcolon, by decide⟩
  obtain ⟨before, part, hparts⟩ := splitOn_append (cs.map slashed) hslash
  have hencoded : ':' ∈ Percent.encode Percent.path (part ++ last.map slashed) :=
    Percent.mem_encode (by decide) (by decide) (List.mem_append_right _ hstays)
  obtain ⟨hdouble, hsingle⟩ := not_isDot_of_colon hencoded
  have hresolved := getLast?_resolve [] (before.map (Percent.encode Percent.path)) hdouble hsingle
  have hpath : pathParts (c :: cs ++ last) =
      (resolve [] (before.map (Percent.encode Percent.path) ++
        [Percent.encode Percent.path (part ++ last.map slashed)])).map String.ofList := by
    have hmap : (cs ++ last).map slashed = cs.map slashed ++ last.map slashed := List.map_append
    simp only [pathParts, List.cons_append, Bool.or_eq_true, decide_eq_true_eq, if_pos hc]
    rw [show (cs ++ last).map (fun c => if c = '\\' then '/' else c) = _ from hmap, hparts,
      List.map_append]
    rfl
  intro hroot
  rw [hpath] at hroot
  have hempty := congrArg List.getLast? hroot
  rw [List.getLast?_map, hresolved] at hempty
  have hnil : Percent.encode Percent.path (part ++ last.map slashed) = [] :=
    String.ofList_eq_empty_iff.1 (Option.some.inj hempty)
  rw [hnil] at hencoded
  exact nomatch hencoded

/-- What is behind the authority is the root alone only when there is no query and no
fragment, and the path is the root. -/
theorem readRest_eq_root {cs : List Char} (h : readRest cs = ([""], none, none)) :
    (∀ c ∈ cs, c ≠ '?' ∧ c ≠ '#') ∧ pathParts cs = [""] := by
  have hbehind : cs.dropWhile (fun c => c ≠ '?' && c ≠ '#') = [] := by
    have hstop := List.head?_dropWhile_not (fun c => c ≠ '?' && c ≠ '#') cs
    cases hdrop : cs.dropWhile (fun c => c ≠ '?' && c ≠ '#') with
    | nil => rfl
    | cons c rest =>
      have hc : c = '?' ∨ c = '#' := by
        rw [hdrop] at hstop
        by_contra hnot
        rw [not_or] at hnot
        simp [hnot.1, hnot.2] at hstop
      simp only [readRest, hdrop, Prod.mk.injEq] at h
      rcases hc with rfl | rfl
      · exact nomatch h.2.1
      · exact nomatch h.2.2
  have hall := List.dropWhile_eq_nil_iff.1 hbehind
  refine ⟨fun c hc => by simpa using hall c hc, ?_⟩
  have hpath := congrArg Prod.fst h
  simp only [readRest, List.takeWhile_eq_self_iff.2 hall] at hpath
  exact hpath

/-! ## The whole URL -/

theorem mem_of_mem_site {authority : List Char} {c : Char}
    (h : c ∈ (userAndSite authority).2) : c ∈ authority := by
  rw [userAndSite, splitUser] at h
  split at h
  · rename_i hsplit
    split at hsplit
    · obtain ⟨-, rfl⟩ := Prod.mk.inj (Option.some.inj hsplit)
      exact List.mem_reverse.1 (List.takeWhile_subset _ (List.mem_reverse.1 h))
    · exact nomatch hsplit
  · exact h

/-- Behind host and port is what is behind the authority. -/
theorem portAndRest_rest {cs rest : List Char} {port : Option Nat}
    (hcs : ∀ c ∈ cs.head?, endsAuthority c = true ∨ c = ':')
    (h : portAndRest cs = .ok (port, rest)) : rest = cs.dropWhile (!endsAuthority ·) := by
  rw [portAndRest.eq_def] at h
  split at h
  · rename_i digits
    rw [List.dropWhile_cons_of_pos (by decide)]
    exact readPort_rest h
  · rename_i hcolon
    obtain rfl : cs = rest := congrArg Prod.snd (Except.ok.inj h)
    cases cs with
    | nil => rfl
    | cons c cs =>
      rcases hcs c rfl with hend | rfl
      · rw [List.dropWhile_cons_of_neg (by simp [hend])]
      · exact absurd rfl (hcolon cs)

section ReadFrom

variable {international : DomainMapping}

/-- What the parts of an endpoint are read from. -/
structure ReadFrom (international : DomainMapping) (authority behind : List Char) (e : Endpoint) :
    Prop where
  user : (e.username, e.password) = (userAndSite authority).1
  host : Host.ofChars international
    (splitHost false ((userAndSite authority).2 ++ behind)).1 = .ok e.host
  port : portAndRest (splitHost false ((userAndSite authority).2 ++ behind)).2 =
    .ok (e.port, behind)
  rest : (e.path, e.query, e.fragment) = readRest behind

theorem readFrom_ofParts {authority behind : List Char} {e : Endpoint}
    (hauthority : ∀ c ∈ authority, endsAuthority c = false)
    (hbehind : behind.dropWhile (!endsAuthority ·) = behind)
    (h : ofParts international authority behind = .ok e) :
    ReadFrom international authority behind e := by
  simp only [ofParts] at h
  split at h
  · exact nomatch h
  · obtain ⟨host, hhost, h⟩ := bind_eq_ok_iff.1 h
    obtain ⟨⟨port, rest⟩, hport, h⟩ := bind_eq_ok_iff.1 h
    obtain rfl := Except.ok.inj h
    have hrest : rest = behind := by
      rw [portAndRest_rest (splitHost_rest _ _) hport, dropWhile_splitHost,
        List.dropWhile_append_of_pos fun c hc => by simp [hauthority c (mem_of_mem_site hc)],
        hbehind]
    subst hrest
    exact { user := rfl, host := hhost, port := hport, rest := rfl }

/-- A URL that is read is cut at the end of its authority. -/
theorem ofChars_eq_ok {cs : List Char} {e : Endpoint} (h : ofChars international cs = .ok e) :
    ReadFrom international ((afterSlashes cs).takeWhile (!endsAuthority ·))
      ((afterSlashes cs).dropWhile (!endsAuthority ·)) e :=
  readFrom_ofParts (fun c hc => by simpa using List.mem_takeWhile_imp hc)
    (List.dropWhile_idempotent _ _) h

end ReadFrom

end Endpoint

end DaemonRpc
