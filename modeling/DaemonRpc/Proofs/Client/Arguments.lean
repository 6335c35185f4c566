import DaemonRpc.Proofs.Client.ByName

/-!
# What a typed operation sends

A typed operation takes its arguments as the caller has them and puts those that are out of range
into it.  What is in range depends only on what an argument is for, so `Argument` names the
purposes, and `Operation.arguments` says which of them the arguments of an operation serve.

* `Argument.InRange` is the range of each purpose, and `Argument.settled` what is sent for an
  argument: itself, if it is in range.  `Argument.WrittenAs` says which value of a request stands
  for an argument.
* `Operation.params_of_not_isBare` shows that every operation sends its settled arguments in their
  order, and `Operation.params_eq_none_iff` when it sends none at all.
* `Conducted` is the whole course of a typed operation, and `operations_conducted` shows that every
  operation takes it, whatever the daemon answers.
-/

namespace DaemonRpc

/-! ## Arguments by their purpose -/

/-- An argument of an operation, as the caller gives it. -/
inductive Argument where
  /-- An address, the hash of a block or the id of a transaction. -/
  | text (s : String)
  | flag (on : Bool)
  | account (name : Option String)
  /-- Where a copy of the wallet goes. -/
  | destination (path : Option String)
  /-- The only or first argument, without which the others make no sense. -/
  | leading (s : Option String)
  /-- A number of confirmations. -/
  | confirms (n : Int64)
  /-- A number of confirmations where zero takes in what is not confirmed. -/
  | confirmsOrNone (n : Int64)
  /-- The index of a block, or how many transactions are skipped. -/
  | offset (n : Int64)
  /-- How many transactions are listed. -/
  | count (n : Int64)
  /-- How many processors mine, or `-1` for all of them. -/
  | processors (n : Int64)
  | fee (amount : Float)

namespace Argument

/-- The range of an argument. -/
def InRange : Argument → Prop
  | text _ | flag _ => True
  | account name => name.isSome
  | destination path => path.isSome
  | leading s => s ≠ none ∧ s ≠ some ""
  | confirms n => 1 ≤ n
  | confirmsOrNone n => 0 ≤ n
  | offset n => 0 ≤ n
  | count n => 1 ≤ n
  | processors n => n = -1 ∨ 1 ≤ n
  | fee amount => amount = 0 ∨ 0 < amount

instance : DecidablePred InRange := by
  intro a
  cases a <;> unfold InRange <;> infer_instance

/-- What takes the place of an argument that is out of range. -/
def fallback : Argument → Argument
  | text s => text s
  | flag on => flag on
  | account _ => account (some "")
  | destination _ => destination (some ".")
  | leading _ => leading none
  | confirms _ => confirms 1
  | confirmsOrNone _ => confirmsOrNone 1
  | offset _ => offset 0
  | count _ => count 10
  | processors _ => processors (-1)
  | fee _ => fee 0

/-- An argument as it is sent. -/
def settled (a : Argument) : Argument := if a.InRange then a else a.fallback

/-- The value that stands for an argument in a request.  A text and a flag stand for themselves, a
whole number is written as a whole number, and an amount as a double, of which those that are not
finite have no number.  What is left out has no value. -/
def WrittenAs : Argument → Json → Prop
  | text s, v => v = .string s
  | flag on, v => v = .bool on
  | account name, v | destination name, v | leading name, v => ∃ s, name = some s ∧ v = .string s
  | confirms n, v | confirmsOrNone n, v | offset n, v | count n, v | processors n, v =>
    ∃ w : Whole, v = .number (.whole w) ∧ w.val = n.toInt
  | fee amount, v =>
    amount.isFinite = true ∧ v = .number (.double amount) ∨ amount.isFinite = false ∧ v = .null

/-- How an argument is written. -/
def toJson : Argument → Json
  | text s => .string s
  | flag on => .bool on
  | account name => name.elim .null .string
  | destination path => path.elim .null .string
  | leading s => s.elim .null .string
  | confirms n | confirmsOrNone n | offset n | count n | processors n => .ofInt64 n
  | fee amount => .ofFloat amount

theorem writtenAs_ofFloat (amount : Float) : (fee amount).WrittenAs (.ofFloat amount) := by
  by_cases h : amount.isFinite = true
  · exact Or.inl ⟨h, if_pos h⟩
  · exact Or.inr ⟨Bool.eq_false_iff.2 h, if_neg h⟩

/-- An argument in its range is written as it stands in a request. -/
theorem writtenAs_toJson {a : Argument} (h : a.InRange) : a.WrittenAs a.toJson := by
  cases a with
  | text s => rfl
  | flag on => rfl
  | account name =>
    obtain ⟨s, rfl⟩ := Option.isSome_iff_exists.1 h
    exact ⟨s, rfl, rfl⟩
  | destination path =>
    obtain ⟨s, rfl⟩ := Option.isSome_iff_exists.1 h
    exact ⟨s, rfl, rfl⟩
  | leading s =>
    obtain ⟨s, rfl⟩ := Option.ne_none_iff_exists'.1 h.1
    exact ⟨s, rfl, rfl⟩
  | confirms n | confirmsOrNone n | offset n | count n | processors n =>
    exact ⟨.ofInt64 n, rfl, rfl⟩
  | fee amount => exact writtenAs_ofFloat amount

/-- An argument in its range is sent unchanged. -/
theorem settled_of_inRange {a : Argument} (h : a.InRange) : a.settled = a := if_pos h

/-- What is sent is in range, except for a leading argument, which is then not sent. -/
theorem inRange_settled {a : Argument} (h : ∀ s, a = leading s → a.InRange) :
    a.settled.InRange := by
  unfold settled
  split
  · assumption
  · rename_i hout
    cases a with
    | text _ => trivial
    | flag _ => trivial
    | account _ => rfl
    | destination _ => rfl
    | leading s => exact absurd (h s rfl) hout
    | confirms _ => exact Int64.le_refl 1
    | confirmsOrNone _ => show (0 : Int64) ≤ 1; decide
    | offset _ => exact Int64.le_refl 0
    | count _ => show (1 : Int64) ≤ 10; decide
    | processors _ => exact Or.inl rfl
    | fee _ => exact Or.inl rfl

/-- What is left out stays left out: it is settled to no leading argument. -/
theorem settled_leading_of_not {s : Option String} (h : ¬ (leading s).InRange) :
    (leading s).settled = leading none := if_neg h

/-- An argument that was settled stays as it is. -/
theorem settled_settled (a : Argument) : a.settled.settled = a.settled := by
  by_cases h : a.InRange
  · rw [settled_of_inRange h, settled_of_inRange h]
  · by_cases hleading : ∃ s, a = leading s
    · obtain ⟨s, rfl⟩ := hleading
      rw [settled_leading_of_not h]
      rfl
    · exact settled_of_inRange (inRange_settled fun s hs => absurd ⟨s, hs⟩ hleading)

/-- Only a leading argument is settled to one. -/
theorem exists_leading_of_settled {a : Argument} {s : Option String} (h : a.settled = leading s) :
    ∃ s', a = leading s' := by
  unfold settled at h
  split at h
  · exact ⟨s, h⟩
  · cases a with
    | leading s' => exact ⟨s', rfl⟩
    | _ => simp [fallback] at h

/-! ### What each purpose makes of an argument -/

@[simp]
theorem settled_text (s : String) : (text s).settled = text s := settled_of_inRange trivial

@[simp]
theorem settled_flag (on : Bool) : (flag on).settled = flag on := settled_of_inRange trivial

@[simp]
theorem settled_account (name : Option String) :
    (account name).settled = account (some (name.getD "")) := by
  cases name with
  | none => rfl
  | some s => rfl

@[simp]
theorem settled_destination (path : Option String) :
    (destination path).settled = destination (some (path.getD ".")) := by
  cases path with
  | none => rfl
  | some s => rfl

theorem settled_leading {s : String} (h : s ≠ "") : (leading (some s)).settled = leading (some s) :=
  settled_of_inRange ⟨Option.some_ne_none s, fun hempty => h (Option.some.inj hempty)⟩

/-- A number below its least value is raised to it. -/
theorem ite_max (f : Int64 → Argument) (n least : Int64) :
    (if least ≤ n then f n else f least) = f (max n least) := by
  show _ = f (if n ≤ least then least else n)
  by_cases hle : least ≤ n
  · by_cases hge : n ≤ least
    · rw [if_pos hle, if_pos hge, Int64.le_antisymm hge hle]
    · rw [if_pos hle, if_neg hge]
  · rw [if_neg hle, if_pos (Int64.le_of_lt (Int64.not_le.1 hle))]

@[simp]
theorem settled_confirms (n : Int64) :
    (confirms n).settled = confirms (Operation.leastConfirms n) :=
  ite_max confirms n 1

@[simp]
theorem settled_offset (n : Int64) : (offset n).settled = offset (Operation.notNegative n) :=
  ite_max offset n 0

@[simp]
theorem settled_confirmsOrNone (n : Int64) :
    (confirmsOrNone n).settled = confirmsOrNone (Operation.confirmsOrOne n) := by
  show (if 0 ≤ n then confirmsOrNone n else confirmsOrNone 1) =
    confirmsOrNone (if n < 0 then 1 else n)
  by_cases h : 0 ≤ n
  · rw [if_pos h, if_neg (Int64.not_lt.2 h)]
  · rw [if_neg h, if_pos (Int64.not_le.1 h)]

@[simp]
theorem settled_count (n : Int64) : (count n).settled = count (Operation.pageSize n) := by
  show (if 1 ≤ n then count n else count 10) = count (if n < 1 then 10 else n)
  by_cases h : 1 ≤ n
  · rw [if_pos h, if_neg (Int64.not_lt.2 h)]
  · rw [if_neg h, if_pos (Int64.not_le.1 h)]

@[simp]
theorem settled_processors (n : Int64) :
    (processors n).settled = processors (Operation.processorLimit n) := by
  show (if n = -1 ∨ 1 ≤ n then processors n else processors (-1)) =
    processors (if n < 1 then -1 else n)
  by_cases h : 1 ≤ n
  · rw [if_pos (Or.inr h), if_neg (Int64.not_lt.2 h)]
  · rw [if_pos (Int64.not_le.1 h)]
    by_cases hall : n = -1
    · rw [if_pos (Or.inl hall), hall]
    · rw [if_neg (not_or.2 ⟨hall, h⟩)]

@[simp]
theorem settled_fee (amount : Float) : (fee amount).settled = fee (Operation.leastFee amount) := by
  show (if amount = 0 ∨ 0 < amount then fee amount else fee 0) =
    fee (if 0 < amount then amount else 0)
  by_cases h : 0 < amount
  · rw [if_pos (Or.inr h), if_pos h]
  · rw [if_neg h]
    by_cases hzero : amount = 0
    · rw [if_pos (Or.inl hzero), hzero]
    · rw [if_neg (not_or.2 ⟨hzero, h⟩)]

end Argument

/-! ## The arguments of an operation -/

namespace Operation

/-- The name of an operation, in words. -/
def words : Operation → List String
  | backupWallet _ => ["backup", "wallet"]
  | getAccount _ => ["get", "account"]
  | getAccountAddress _ => ["get", "account", "address"]
  | getAddressesByAccount _ => ["get", "addresses", "by", "account"]
  | getBalance _ _ => ["get", "balance"]
  | getBlock _ => ["get", "block"]
  | getBlockCount => ["get", "block", "count"]
  | getBlockHash _ => ["get", "block", "hash"]
  | getConnectionCount => ["get", "connection", "count"]
  | getDifficulty => ["get", "difficulty"]
  | getGenerate => ["get", "generate"]
  | getHashesPerSec => ["get", "hashes", "per", "sec"]
  | getInfo => ["get", "info"]
  | getMiningInfo => ["get", "mining", "info"]
  | getNewAddress _ => ["get", "new", "address"]
  | getPeerInfo => ["get", "peer", "info"]
  | getRawMempool => ["get", "raw", "mempool"]
  | getReceivedByAccount _ _ => ["get", "received", "by", "account"]
  | getReceivedByAddress _ _ => ["get", "received", "by", "address"]
  | getTransaction _ => ["get", "transaction"]
  | getTxOutSetInfo => ["get", "tx", "out", "set", "info"]
  | help _ => ["help"]
  | keyPoolRefill => ["key", "pool", "refill"]
  | listAccounts _ => ["list", "accounts"]
  | listAddressGroupings => ["list", "address", "groupings"]
  | listLockUnspent => ["list", "lock", "unspent"]
  | listReceivedByAccount _ _ => ["list", "received", "by", "account"]
  | listReceivedByAddress _ _ => ["list", "received", "by", "address"]
  | listSinceBlock _ _ => ["list", "since", "block"]
  | listTransactions _ _ _ => ["list", "transactions"]
  | setAccount _ _ => ["set", "account"]
  | setGenerate _ _ => ["set", "generate"]
  | setTxFee _ => ["set", "tx", "fee"]
  | validateAddress _ => ["validate", "address"]

/-- The arguments of an operation, as the caller gives them. -/
def arguments : Operation → List Argument
  | backupWallet path => [.destination path]
  | getAccount address => [.text address]
  | getAccountAddress name => [.account name]
  | getAddressesByAccount name => [.account name]
  | getBalance name n => [.account name, .confirms n]
  | getBlock hash => [.text hash]
  | getBlockHash index => [.offset index]
  | getNewAddress name => [.leading name]
  | getReceivedByAccount name n => [.account name, .confirms n]
  | getReceivedByAddress address n => [.text address, .confirms n]
  | getTransaction txid => [.text txid]
  | help command => [.leading command]
  | listAccounts n => [.confirms n]
  | listReceivedByAccount n empty => [.confirmsOrNone n, .flag empty]
  | listReceivedByAddress n empty => [.confirmsOrNone n, .flag empty]
  | listSinceBlock hash n => [.leading hash, .confirms n]
  | listTransactions name count skipped => [.account name, .count count, .offset skipped]
  | setAccount address name => [.text address, .account name]
  | setGenerate on n => [.flag on, .processors n]
  | setTxFee amount => [.fee amount]
  | validateAddress address => [.text address]
  | getBlockCount | getConnectionCount | getDifficulty | getGenerate | getHashesPerSec
  | getInfo | getMiningInfo | getPeerInfo | getRawMempool | getTxOutSetInfo | keyPoolRefill
  | listAddressGroupings | listLockUnspent => []

/-- An operation without arguments, or without the leading one that the others depend on. -/
def IsBare (op : Operation) : Prop :=
  op.arguments = [] ∨ ∃ s rest, op.arguments = .leading s :: rest ∧ (s = none ∨ s = some "")

/-- The method of an operation has its name, and is one that is sent. -/
theorem wireName_method (op : Operation) :
    op.method.wireName = String.join op.words ∧ op.method.supported = true := by
  cases op with
  | _ => exact ⟨rfl, rfl⟩

/-- The leading argument of a bare operation is none or empty. -/
theorem isBare_iff_of_leading {op : Operation} {s : Option String} {rest : List Argument}
    (h : op.arguments = .leading s :: rest) : op.IsBare ↔ s = none ∨ s = some "" := by
  simp [IsBare, h]

/-- A bare operation sends no arguments. -/
theorem params_of_isBare {op : Operation} (h : op.IsBare) : op.params = .none := by
  cases op with
  | getNewAddress name | help name =>
    rcases (isBare_iff_of_leading rfl).1 h with rfl | rfl
    · rfl
    · rfl
  | listSinceBlock hash n =>
    rcases (isBare_iff_of_leading rfl).1 h with rfl | rfl
    · rfl
    · rfl
  -- the others have no arguments, or they are not bare
  | _ => first | rfl | simp [IsBare, arguments] at h

/-- Every other operation sends all of its arguments, settled and in their order. -/
theorem params_of_not_isBare {op : Operation} (h : ¬ op.IsBare) :
    op.params = .positional (op.arguments.map fun a => a.settled.toJson) := by
  cases op with
  | getNewAddress name | help name =>
    rw [isBare_iff_of_leading rfl, not_or] at h
    obtain ⟨s, rfl⟩ := Option.ne_none_iff_exists'.1 h.1
    have hs : s ≠ "" := fun hempty => h.2 (congrArg some hempty)
    show optionalArg (some s) = .positional [(Argument.leading (some s)).settled.toJson]
    rw [optionalArg, if_neg (by simpa using hs), Argument.settled_leading hs]
    rfl
  | listSinceBlock hash n =>
    rw [isBare_iff_of_leading rfl, not_or] at h
    obtain ⟨s, rfl⟩ := Option.ne_none_iff_exists'.1 h.1
    have hs : s ≠ "" := fun hempty => h.2 (congrArg some hempty)
    rw [params, if_neg (by simpa using hs), arguments, List.map_cons, List.map_cons,
      Argument.settled_leading hs, Argument.settled_confirms]
    rfl
  -- the others are bare, or each of their arguments is what it is settled to
  | _ => first | exact absurd (Or.inl rfl) h | simp [arguments, params, accountArg, Argument.toJson]

/-- No arguments are sent exactly for the bare operations. -/
theorem params_eq_none_iff {op : Operation} : op.params = .none ↔ op.IsBare := by
  refine ⟨fun hnone => ?_, params_of_isBare⟩
  by_contra h
  rw [params_of_not_isBare h] at hnone
  exact absurd hnone (by simp)

/-- A leading argument stands in front. -/
theorem exists_eq_leading_cons {op : Operation} {s : Option String}
    (h : Argument.leading s ∈ op.arguments) : ∃ rest, op.arguments = .leading s :: rest := by
  cases op with
  | getNewAddress name | help name | listSinceBlock name n =>
    obtain rfl : s = name := by simpa [arguments] using h
    exact ⟨_, rfl⟩
  | _ => simp [arguments] at h

/-- An operation that is not bare sends no argument that is out of range. -/
theorem inRange_of_not_isBare {op : Operation} (h : ¬ op.IsBare) :
    ∀ a ∈ op.arguments, a.settled.InRange := by
  intro a ha
  apply Argument.inRange_settled
  rintro s rfl
  obtain ⟨rest, hrest⟩ := exists_eq_leading_cons ha
  rw [isBare_iff_of_leading hrest, not_or] at h
  exact h

/-- An operation that is not bare sends a value for each of its settled arguments. -/
theorem exists_written_of_not_isBare {op : Operation} (h : ¬ op.IsBare) :
    ∃ values, op.params = .positional values ∧
      List.Forall₂ (fun a v => a.settled.WrittenAs v) op.arguments values := by
  refine ⟨_, params_of_not_isBare h, ?_⟩
  rw [List.forall₂_map_right_iff, List.forall₂_same]
  exact fun a ha => Argument.writtenAs_toJson (inRange_of_not_isBare h a ha)

/-- An operation with the settled arguments of another is bare if the other is. -/
theorem isBare_congr {op op' : Operation}
    (h : op'.arguments = op.arguments.map Argument.settled) : op'.IsBare ↔ op.IsBare := by
  cases hop : op.arguments with
  | nil =>
    rw [hop] at h
    exact iff_of_true (Or.inl h) (Or.inl hop)
  | cons a rest =>
    rw [hop, List.map_cons] at h
    by_cases hleading : ∃ s, a = .leading s
    · obtain ⟨s, rfl⟩ := hleading
      by_cases hrange : (Argument.leading s).InRange
      · rw [Argument.settled_of_inRange hrange] at h
        rw [isBare_iff_of_leading h, isBare_iff_of_leading hop]
      · rw [Argument.settled_leading_of_not hrange] at h
        rw [isBare_iff_of_leading h, isBare_iff_of_leading hop]
        refine iff_of_true (Or.inl rfl) ?_
        simpa [Argument.InRange, or_iff_not_imp_left] using hrange
    · refine iff_of_false ?_ ?_
      · rintro (hnil | ⟨s, rest', hcons, -⟩)
        · simp [h] at hnil
        · rw [h, List.cons.injEq] at hcons
          exact hleading (Argument.exists_leading_of_settled hcons.1)
      · rintro (hnil | ⟨s, rest', hcons, -⟩)
        · simp [hop] at hnil
        · rw [hop, List.cons.injEq] at hcons
          exact hleading ⟨s, hcons.1⟩

/-- Settled arguments are sent as they are. -/
theorem params_congr {op op' : Operation}
    (h : op'.arguments = op.arguments.map Argument.settled) : op'.params = op.params := by
  by_cases hbare : op.IsBare
  · rw [params_of_isBare hbare, params_of_isBare ((isBare_congr h).2 hbare)]
  · rw [params_of_not_isBare hbare, params_of_not_isBare ((isBare_congr h).not.2 hbare), h,
      List.map_map]
    simp only [Function.comp_def, Argument.settled_settled]

/-- There is an operation with the settled arguments. -/
theorem exists_settled (op : Operation) : ∃ op' : Operation, op'.method = op.method ∧
    op'.arguments = op.arguments.map Argument.settled := by
  have hleading : ∀ s, ∃ s', (Argument.leading s).settled = .leading s' := by
    intro s
    unfold Argument.settled
    split
    · exact ⟨s, rfl⟩
    · exact ⟨none, rfl⟩
  cases op with
  | backupWallet path =>
    exact ⟨.backupWallet (some (path.getD ".")), rfl, by simp [arguments]⟩
  | getAccountAddress name =>
    exact ⟨.getAccountAddress (some (name.getD "")), rfl, by simp [arguments]⟩
  | getAddressesByAccount name =>
    exact ⟨.getAddressesByAccount (some (name.getD "")), rfl, by simp [arguments]⟩
  | getBalance name n =>
    exact ⟨.getBalance (some (name.getD "")) (leastConfirms n), rfl, by simp [arguments]⟩
  | getBlockHash index => exact ⟨.getBlockHash (notNegative index), rfl, by simp [arguments]⟩
  | getNewAddress name =>
    obtain ⟨s, hs⟩ := hleading name
    exact ⟨.getNewAddress s, rfl, by simp [arguments, hs]⟩
  | getReceivedByAccount name n =>
    exact ⟨.getReceivedByAccount (some (name.getD "")) (leastConfirms n), rfl, by simp [arguments]⟩
  | getReceivedByAddress address n =>
    exact ⟨.getReceivedByAddress address (leastConfirms n), rfl, by simp [arguments]⟩
  | help command =>
    obtain ⟨s, hs⟩ := hleading command
    exact ⟨.help s, rfl, by simp [arguments, hs]⟩
  | listAccounts n => exact ⟨.listAccounts (leastConfirms n), rfl, by simp [arguments]⟩
  | listReceivedByAccount n empty =>
    exact ⟨.listReceivedByAccount (confirmsOrOne n) empty, rfl, by simp [arguments]⟩
  | listReceivedByAddress n empty =>
    exact ⟨.listReceivedByAddress (confirmsOrOne n) empty, rfl, by simp [arguments]⟩
  | listSinceBlock hash n =>
    obtain ⟨s, hs⟩ := hleading hash
    exact ⟨.listSinceBlock s (leastConfirms n), rfl, by simp [arguments, hs]⟩
  | listTransactions name count skipped =>
    exact ⟨.listTransactions (some (name.getD "")) (pageSize count) (notNegative skipped), rfl,
      by simp [arguments]⟩
  | setAccount address name =>
    exact ⟨.setAccount address (some (name.getD "")), rfl, by simp [arguments]⟩
  | setGenerate on n => exact ⟨.setGenerate on (processorLimit n), rfl, by simp [arguments]⟩
  | setTxFee amount => exact ⟨.setTxFee (leastFee amount), rfl, by simp [arguments]⟩
  -- the others have no argument that could be out of range
  | _ => exact ⟨_, rfl, by simp [arguments]⟩

/-! ## The answer of an operation -/

/-- Reads the result of a reply: a table of balances as a list of accounts, and any other result as
what the operation answers with. -/
def read (op : Operation) (v : Json) : Except ShapeFault op.Result :=
  match op with
  | listAccounts _ => (Shaped.decode v : Except ShapeFault Balances).map accountsOf
  | _ => Shaped.decode v

/-- The operations that answer with nothing. -/
def IsSilent : Operation → Prop
  | backupWallet _ | keyPoolRefill | setAccount _ _ | setGenerate _ _ => True
  | _ => False

/-- A silent operation takes any result. -/
theorem exists_read_of_isSilent {op : Operation} (h : op.IsSilent) (v : Json) :
    ∃ r, op.read v = .ok r := by
  cases op with
  | backupWallet _ | keyPoolRefill | setAccount _ _ | setGenerate _ _ => exact ⟨(), rfl⟩
  | _ => exact h.elim

/-- What cannot be read is refused in the name of the method, and with its kind. -/
theorem interpret_eq (op : Operation) (v : Json) :
    op.interpret v = (op.read v).mapError fun fault =>
      .unexpectedShape op.method.wireName (fault.message ++ " (got " ++ v.kind ++ ")") := by
  cases op with
  | listAccounts n =>
    show (decodeResult Balances _ v).map accountsOf =
      ((Shaped.decode v : Except ShapeFault Balances).map accountsOf).mapError _
    rw [decodeResult_eq]
    cases (Shaped.decode v : Except ShapeFault Balances) with
    | ok _ => rfl
    | error _ => rfl
  | _ => simp only [interpret, read, decodeResult_eq]

end Operation

namespace Session

/-! ## The course of an operation -/

/-- What a call ends with after what it received: the fault of the reply, the value that is read
from the result, or a refusal of the result in the name of the method and with its kind. -/
inductive Concluded {α : Type} (method : String) (read : Json → Except ShapeFault α) :
    Except Error Json → Except Error α → Prop where
  | failed (e : Error) : Concluded method read (.error e) (.error e)
  | answered {v : Json} {r : α} (hread : read v = .ok r) : Concluded method read (.ok v) (.ok r)
  | refused {v : Json} {fault : ShapeFault} {kind : String} (hread : read v = .error fault)
      (hkind : v.HasKind kind) :
      Concluded method read (.ok v) (.error
        (.protocol (.unexpectedShape method (fault.message ++ " (got " ++ kind ++ ")"))))

namespace Concluded

variable {α : Type} {method : String} {read : Json → Except ShapeFault α} {v : Json}
  {outcome : Except Error α}

/-- A call succeeds with what can be read from the result. -/
theorem eq_ok_iff (h : Concluded method read (.ok v) outcome) {r : α} :
    outcome = .ok r ↔ read v = .ok r := by
  cases h with
  | answered hread => rw [hread]; simp
  | refused hread _ => rw [hread]; simp

/-- A call fails only if the result is refused. -/
theorem exists_of_eq_error (h : Concluded method read (.ok v) outcome) {e : Error}
    (he : outcome = .error e) : ∃ kind, v.HasKind kind ∧ ∃ fault : ShapeFault,
      e = .protocol (.unexpectedShape method (fault.message ++ " (got " ++ kind ++ ")")) := by
  cases h with
  | answered _ => nomatch he
  | refused _ hkind => exact ⟨_, hkind, _, (Except.error.inj he).symm⟩

end Concluded

/-- The course of a typed operation, whatever the daemon answers.  One request goes out with the
first step and none with any other, under the name of the operation.  It has no parameters exactly
if the operation is bare, and otherwise its arguments in their order, each of them in range.  The
operation that has the arguments as they were sent sends the same again.  The outcome is what can be
read from the result, if there is one, or a fault in the name of the method. -/
structure Conducted (env : Surroundings) (s : Session) (op : Operation) : Prop where
  name : op.method.wireName = String.join op.words
  supported : op.method.supported = true
  request : ∀ n, (run env (n + 1) { call := .operation op } s).2.wire.requests.map Prod.fst =
    s.wire.requests.map Prod.fst ++
      [{ method := op.method.wireName, params := op.params, id := env.newId s.wire.sent }]
  bare : op.params = .none ↔ op.IsBare
  arguments : ¬ op.IsBare →
    (∃ values, op.params = .positional values ∧
      List.Forall₂ (fun a v => a.settled.WrittenAs v) op.arguments values) ∧
    ∀ a ∈ op.arguments, a.settled.InRange
  again : ∃ op' : Operation, op'.method = op.method ∧
    op'.arguments = op.arguments.map Argument.settled ∧ op'.params = op.params
  outcome : ∃ outcome, Concluded op.method.wireName op.read
      (receive (env.newId s.wire.sent)
        (env.transport (sentOver env s.wire op.method.wireName op.params)).answer) outcome ∧
    ∀ n, (run env (n + 3) { call := .operation op } s).1 = ⟨.operation op, .done outcome⟩

/-- A call that refuses a result in the name of the method ends with what it received. -/
theorem concluded {c : Call} {read : Json → Except ShapeFault c.Result} {method : String}
    (h : ∀ v, c.interpret v = (read v).mapError fun fault =>
      .unexpectedShape method (fault.message ++ " (got " ++ v.kind ++ ")"))
    (id : String) (answer : Except TransportError Bytes) :
    Concluded method read (receive id answer) (c.conclude id answer) := by
  rw [Call.conclude]
  cases receive id answer with
  | error e => exact .failed e
  | ok v =>
    show Concluded method read (.ok v) ((c.interpret v).mapError Error.protocol)
    rw [h]
    cases hread : read v with
    | ok r => exact .answered hread
    | error fault => exact .refused hread v.hasKind_kind

/-- Every typed operation is sent over the connection. -/
theorem route_operation (op : Operation) :
    (Call.operation op).route = .ok (op.method.wireName, op.params) :=
  if_pos op.wireName_method.2

/-- Every typed operation takes its course. -/
theorem conducted (env : Surroundings) (s : Session) (op : Operation) : Conducted env s op := by
  obtain ⟨op', hmethod, harguments⟩ := op.exists_settled
  exact {
    name := op.wireName_method.1
    supported := op.wireName_method.2
    request := fun n => requests_run_of_route (route_operation op) env n s
    bare := Operation.params_eq_none_iff
    arguments := fun h =>
      ⟨Operation.exists_written_of_not_isBare h, Operation.inRange_of_not_isBare h⟩
    again := ⟨op', hmethod, harguments, Operation.params_congr harguments⟩
    outcome := ⟨_, concluded (c := .operation op) op.interpret_eq _ _,
      fun n => run_of_route (route_operation op) env n s⟩ }

/-- Every typed operation takes its course, and every argument that is in range is sent as it is.
The operations without an answer take any result.  The order to stop, whose answer is a text, is one
request as well, without parameters. -/
theorem operations_conducted (env : Surroundings) (s : Session) :
    (∀ op, Conducted env s op) ∧
    (∀ a : Argument, a.InRange → a.settled = a) ∧
    (∀ op : Operation, op.IsSilent → ∀ v, ∃ r, op.read v = .ok r) ∧
    (∀ n, (run env (n + 1) { call := .stop } s).2.wire.requests.map Prod.fst =
      s.wire.requests.map Prod.fst ++
        [{ method := "stop", params := .none, id := env.newId s.wire.sent }]) ∧
    (∃ outcome, Concluded "stop" (fun v => (Shaped.decode v : Except ShapeFault String))
        (receive (env.newId s.wire.sent)
          (env.transport (sentOver env s.wire "stop" .none)).answer) outcome ∧
      ∀ n, (run env (n + 3) { call := .stop } s).1 = ⟨.stop, .done outcome⟩) := by
  have hstop : Call.stop.route = .ok ("stop", .none) := rfl
  exact ⟨conducted env s, fun _ => Argument.settled_of_inRange,
    fun _ => Operation.exists_read_of_isSilent, fun n => requests_run_of_route hstop env n s,
    _, concluded (c := .stop) (fun v => decodeResult_eq (α := String)) _ _,
    fun n => run_of_route hstop env n s⟩

end Session

end DaemonRpc
