import Mathlib.Tactic.SplitIfs
import DaemonRpc.Text.Quoted

/-!
# Quoted text can be told apart

What stands between quotation marks determines the text: no two texts are quoted alike, and the
quotation mark that closes one can be told from those that the text holds.  So a list of quoted
texts shows each of its texts.

* `quoteChar_cases` lists the three ways in which a character can stand inside quoted text.
* `quoteChar_append_inj` tells the first character of quoted text and what follows it.
* `quote_append_inj` tells a quoted text and what follows it, and `quoteList_inj` a list of them.
-/

namespace DaemonRpc.Text

/-! ## Hexadecimal code points -/

theorem digitChar_inj : ∀ m < 16, ∀ n < 16, Nat.digitChar m = Nat.digitChar n → m = n := by decide

theorem digitChar_ne_brace : ∀ n < 16, Nat.digitChar n ≠ '\x7d' := by decide

/-- The hexadecimal digits of a number below 16, and of any other number. -/
theorem toDigits_hex (n : Nat) : Nat.toDigits 16 n =
    if n < 16 then [n.digitChar] else Nat.toDigits 16 (n / 16) ++ [(n % 16).digitChar] :=
  Nat.toDigits_eq_if (by decide)

theorem toDigits_hex_inj (m n : Nat) (h : Nat.toDigits 16 m = Nat.toDigits 16 n) : m = n := by
  induction m using Nat.strongRecOn generalizing n with
  | ind m ih =>
    have hm := toDigits_hex m
    have hn := toDigits_hex n
    have hmod := Nat.mod_lt n (show 0 < 16 by decide)
    have hmod' := Nat.mod_lt m (show 0 < 16 by decide)
    split at hm <;> split at hn
    case isTrue.isTrue hlt hlt' =>
      rw [hm, hn, List.singleton_inj] at h
      exact digitChar_inj m hlt n hlt' h
    case isFalse.isFalse hle _ =>
      rw [hm, hn] at h
      obtain ⟨hquot, hrest⟩ := List.append_inj' h rfl
      have hdiv := ih (m / 16) (Nat.div_lt_self (by omega) (by decide)) (n / 16) hquot
      have hdigit := digitChar_inj _ hmod' _ hmod (List.singleton_inj.1 hrest)
      omega
    -- One number has a single digit and the other has more.
    case isTrue.isFalse =>
      rw [hm, hn] at h
      exact absurd (congrArg List.length h) (by simp [Nat.toDigits_ne_nil])
    case isFalse.isTrue =>
      rw [hm, hn] at h
      exact absurd (congrArg List.length h) (by simp [Nat.toDigits_ne_nil])

theorem brace_notMem_toDigits_hex (n : Nat) : '\x7d' ∉ Nat.toDigits 16 n := by
  induction n using Nat.strongRecOn with
  | ind n ih =>
    intro hmem
    rw [toDigits_hex] at hmem
    split at hmem
    · next hlt => exact digitChar_ne_brace n hlt (List.mem_singleton.1 hmem).symm
    · rcases List.mem_append.1 hmem with hquot | hrest
      · exact ih _ (Nat.div_lt_self (by omega) (by decide)) hquot
      · exact digitChar_ne_brace _ (Nat.mod_lt n (by decide)) (List.mem_singleton.1 hrest).symm

/-- What stands in front of the first brace can be told from what follows it. -/
theorem append_brace_inj {as bs r s : List Char} (ha : '\x7d' ∉ as) (hb : '\x7d' ∉ bs)
    (h : as ++ '\x7d' :: r = bs ++ '\x7d' :: s) : as = bs ∧ r = s := by
  induction as generalizing bs with
  | nil =>
    cases bs with
    | nil => exact ⟨rfl, (List.cons.inj h).2⟩
    | cons b bs => exact absurd ((List.cons.inj h).1 ▸ List.mem_cons_self) hb
  | cons a as ih =>
    cases bs with
    | nil => exact absurd ((List.cons.inj h).1 ▸ List.mem_cons_self) ha
    | cons b bs =>
      obtain ⟨hhead, htail⟩ := List.cons.inj h
      obtain ⟨hlist, hrest⟩ := ih (fun hmem => ha (List.mem_cons_of_mem _ hmem))
        (fun hmem => hb (List.mem_cons_of_mem _ hmem)) htail
      exact ⟨by rw [hhead, hlist], hrest⟩

/-- A code point up to its closing brace determines the character. -/
theorem hexCode_append_inj {c d : Char} {r s : List Char}
    (h : hexCode c ++ '\x7d' :: r = hexCode d ++ '\x7d' :: s) : c = d ∧ r = s := by
  obtain ⟨hcode, hrest⟩ := append_brace_inj (brace_notMem_toDigits_hex _)
    (brace_notMem_toDigits_hex _) h
  exact ⟨Char.toNat_inj.1 (toDigits_hex_inj _ _ hcode), hrest⟩

/-! ## Characters -/

/-- The character that a letter behind a backslash stands for. -/
def escaped : Char → Option Char
  | '0' => some '\x00'
  | 't' => some '\t'
  | 'r' => some '\r'
  | 'n' => some '\n'
  | '\\' => some '\\'
  | '\x22' => some '\x22'
  | _ => none

/-- A character stands for itself, or as a letter behind a backslash, or by its code point. -/
theorem quoteChar_cases (c : Char) :
    (quoteChar c = [c] ∧ c ≠ '\\' ∧ c ≠ '\x22') ∨
    (∃ letter, quoteChar c = ['\\', letter] ∧ escaped letter = some c) ∨
    quoteChar c = '\\' :: 'u' :: '\x7b' :: (hexCode c ++ ['\x7d']) := by
  rw [quoteChar]
  split_ifs with h0 ht hr hn hbackslash hmark hhidden
  · exact .inr (.inl ⟨_, rfl, by rw [h0]; rfl⟩)
  · exact .inr (.inl ⟨_, rfl, by rw [ht]; rfl⟩)
  · exact .inr (.inl ⟨_, rfl, by rw [hr]; rfl⟩)
  · exact .inr (.inl ⟨_, rfl, by rw [hn]; rfl⟩)
  · exact .inr (.inl ⟨_, rfl, by rw [hbackslash]; rfl⟩)
  · exact .inr (.inl ⟨_, rfl, by rw [hmark]; rfl⟩)
  · exact .inr (.inr rfl)
  · exact .inl ⟨rfl, hbackslash, hmark⟩

/-- What starts with a quoted character determines it and what follows. -/
theorem quoteChar_append_inj {c d : Char} {r s : List Char}
    (h : quoteChar c ++ r = quoteChar d ++ s) : c = d ∧ r = s := by
  rcases quoteChar_cases c with ⟨hc, hslash, -⟩ | ⟨a, hc, hca⟩ | hc <;>
    rcases quoteChar_cases d with ⟨hd, hslash', -⟩ | ⟨b, hd, hdb⟩ | hd <;>
    simp only [hc, hd, List.cons_append, List.nil_append, List.append_assoc, List.cons.injEq,
      true_and] at h
  · exact h
  · exact absurd h.1 hslash
  · exact absurd h.1 hslash
  · exact absurd h.1.symm hslash'
  · obtain ⟨rfl, hrest⟩ := h
    exact ⟨Option.some.inj (hca.symm.trans hdb), hrest⟩
  · rw [h.1] at hca
    cases hca
  · exact absurd h.1.symm hslash'
  · rw [← h.1] at hdb
    cases hdb
  · exact hexCode_append_inj h

/-- No quoted character starts with a quotation mark. -/
theorem quoteChar_append_ne (c : Char) (r s : List Char) : quoteChar c ++ r ≠ '\x22' :: s := by
  intro h
  rcases quoteChar_cases c with ⟨hc, -, hmark⟩ | ⟨a, hc, -⟩ | hc <;>
    simp only [hc, List.cons_append, List.nil_append, List.cons.injEq] at h
  · exact hmark h.1
  · exact absurd h.1 (by decide)
  · exact absurd h.1 (by decide)

/-! ## Texts -/

/-- Quoted characters up to the closing mark determine the characters. -/
theorem flatMap_quoteChar_inj {as bs r s : List Char}
    (h : as.flatMap quoteChar ++ '\x22' :: r = bs.flatMap quoteChar ++ '\x22' :: s) :
    as = bs ∧ r = s := by
  induction as generalizing bs with
  | nil =>
    cases bs with
    | nil => exact ⟨rfl, (List.cons.inj h).2⟩
    | cons b bs =>
      rw [List.flatMap_cons, List.append_assoc] at h
      exact absurd h.symm (quoteChar_append_ne b _ _)
  | cons a as ih =>
    rw [List.flatMap_cons, List.append_assoc] at h
    cases bs with
    | nil => exact absurd h (quoteChar_append_ne a _ _)
    | cons b bs =>
      rw [List.flatMap_cons, List.append_assoc] at h
      obtain ⟨rfl, htail⟩ := quoteChar_append_inj h
      obtain ⟨rfl, hrest⟩ := ih htail
      exact ⟨rfl, hrest⟩

theorem toList_quote (s : String) :
    (quote s).toList = '\x22' :: (s.toList.flatMap quoteChar ++ ['\x22']) := by
  rw [quote, String.toList_ofList, List.cons_append]

/-- What starts with a quoted text determines it and what follows. -/
theorem quote_append_inj {s t : String} {r q : List Char}
    (h : (quote s).toList ++ r = (quote t).toList ++ q) : s = t ∧ r = q := by
  rw [toList_quote, toList_quote, List.cons_append, List.cons_append, List.append_assoc,
    List.append_assoc] at h
  obtain ⟨htext, hrest⟩ := flatMap_quoteChar_inj (List.cons.inj h).2
  exact ⟨String.toList_inj.1 htext, hrest⟩

/-! ## Lists of texts -/

/-- Further quoted texts of a list, each after a comma and a blank, up to the closing bracket. -/
def moreQuoted : List String → List Char
  | [] => [']']
  | x :: xs => ',' :: ' ' :: ((quote x).toList ++ moreQuoted xs)

theorem intercalate_quote_append (x : String) (xs : List String) :
    ", ".toList.intercalate ((quote x).toList :: xs.map (fun y => (quote y).toList)) ++ [']'] =
      (quote x).toList ++ moreQuoted xs := by
  induction xs generalizing x with
  | nil =>
    rw [List.map_nil, List.intercalate_singleton]
    rfl
  | cons y ys ih =>
    rw [List.map_cons, List.intercalate_cons_cons, List.append_assoc, ih, List.append_assoc]
    rfl

theorem toList_quoteList_cons (x : String) (xs : List String) :
    (quoteList (x :: xs)).toList = '[' :: ((quote x).toList ++ moreQuoted xs) := by
  rw [← intercalate_quote_append, quoteList, String.toList_append, String.toList_append,
    String.toList_intercalate, List.map_map, List.map_cons, List.append_assoc]
  rfl

theorem moreQuoted_inj {xs ys : List String} (h : moreQuoted xs = moreQuoted ys) : xs = ys := by
  induction xs generalizing ys with
  | nil =>
    cases ys with
    | nil => rfl
    | cons y ys => exact absurd (List.cons.inj h).1 (by decide)
  | cons x xs ih =>
    cases ys with
    | nil => exact absurd (List.cons.inj h).1 (by decide)
    | cons y ys =>
      obtain ⟨rfl, htail⟩ := quote_append_inj (List.cons.inj (List.cons.inj h).2).2
      rw [ih htail]

/-- The brackets close an empty list at once, and a quotation mark follows them otherwise. -/
theorem toList_quoteList_cons_ne (x : String) (xs : List String) :
    (quoteList []).toList ≠ (quoteList (x :: xs)).toList := by
  rw [toList_quoteList_cons, toList_quote]
  intro h
  exact absurd (List.cons.inj (List.cons.inj h).2).1 (by decide)

/-- No two lists of texts are written alike. -/
theorem quoteList_inj {xs ys : List String} (h : quoteList xs = quoteList ys) : xs = ys := by
  have hlist := congrArg String.toList h
  cases xs with
  | nil =>
    cases ys with
    | nil => rfl
    | cons y ys => exact absurd hlist (toList_quoteList_cons_ne y ys)
  | cons x xs =>
    cases ys with
    | nil => exact absurd hlist.symm (toList_quoteList_cons_ne x xs)
    | cons y ys =>
      rw [toList_quoteList_cons, toList_quoteList_cons] at hlist
      obtain ⟨rfl, htail⟩ := quote_append_inj (List.cons.inj hlist).2
      rw [moreQuoted_inj htail]

end DaemonRpc.Text
