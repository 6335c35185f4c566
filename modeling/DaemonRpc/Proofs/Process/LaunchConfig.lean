import Mathlib.Data.List.Forall2
import DaemonRpc.Process.LaunchConfig
import DaemonRpc.Proofs.Text.Quoted

/-!
# What the logs tell about a launch

An argument carries a secret when it starts with `secretFlag`, and two configurations are alike
when they differ in nothing but secrets.  The arguments for logs are the same for configurations
that are alike.  The text for logs hides the secret of the account, but it shows the further
arguments as they are, and with them any secret that they carry.

* `redact_eq_iff` says what a redacted argument still tells about the argument.
* `Alike.apply` and `Alike.foldl` follow the changes of two configurations.
* `Alike.redactedArgs_eq` and `Alike.debugText_eq_iff` compare what the logs show of them.
-/

namespace DaemonRpc.LaunchConfig

/-! ## Arguments -/

/-- An argument that carries a secret. -/
def CarriesSecret (arg : String) : Prop := secretFlag.toList <+: arg.toList

instance (arg : String) : Decidable (CarriesSecret arg) :=
  inferInstanceAs (Decidable (secretFlag.toList <+: arg.toList))

/-- Two arguments that are the same, or that both carry a secret. -/
def SameButSecret (a b : String) : Prop := a = b ∨ CarriesSecret a ∧ CarriesSecret b

theorem redact_of_carriesSecret {arg : String} (h : CarriesSecret arg) :
    redact arg = secretFlag ++ mask :=
  if_pos (List.isPrefixOf_iff_prefix.2 h)

theorem redact_of_not_carriesSecret {arg : String} (h : ¬ CarriesSecret arg) :
    redact arg = arg :=
  if_neg fun hprefix => h (List.isPrefixOf_iff_prefix.1 hprefix)

theorem carriesSecret_append (secret : String) : CarriesSecret (secretFlag ++ secret) := by
  rw [CarriesSecret, String.toList_append]
  exact List.prefix_append _ _

/-- A redacted argument tells the argument, unless it carries a secret.  Then it tells only that
it does. -/
theorem redact_eq_iff (a b : String) : redact a = redact b ↔ SameButSecret a b := by
  constructor
  · intro h
    by_cases ha : CarriesSecret a <;> by_cases hb : CarriesSecret b
    · exact .inr ⟨ha, hb⟩
    · rw [redact_of_carriesSecret ha, redact_of_not_carriesSecret hb] at h
      exact absurd (h ▸ carriesSecret_append mask) hb
    · rw [redact_of_not_carriesSecret ha, redact_of_carriesSecret hb] at h
      exact absurd (h ▸ carriesSecret_append mask) ha
    · rw [redact_of_not_carriesSecret ha, redact_of_not_carriesSecret hb] at h
      exact .inl h
  · rintro (rfl | ⟨ha, hb⟩)
    · rfl
    · rw [redact_of_carriesSecret ha, redact_of_carriesSecret hb]

/-- Lists of arguments look alike in the logs when they do so place by place. -/
theorem map_redact_eq_iff {xs ys : List String} :
    xs.map redact = ys.map redact ↔ List.Forall₂ SameButSecret xs ys := by
  rw [← List.forall₂_eq_eq_eq, List.forall₂_map_left_iff, List.forall₂_map_right_iff]
  simp only [redact_eq_iff]

/-! ## Configurations -/

/-- Configurations that differ in nothing but the secret of the account and the secrets of
further arguments. -/
structure Alike (c c' : LaunchConfig) : Prop where
  binary : c.binary = c'.binary
  account : c.account = c'.account
  testnet : c.testnet = c'.testnet
  dataDir : c.dataDir = c'.dataDir
  extraArgs : List.Forall₂ SameButSecret c.extraArgs c'.extraArgs
  logFile : c.logFile = c'.logFile
  grace : c.grace = c'.grace

/-- Changes that differ in nothing but the secret of an argument. -/
inductive Change.Alike : Change → Change → Prop where
  | same (change : Change) : Change.Alike change change
  | arg {a b : String} (same_but_secret : SameButSecret a b) : Change.Alike (.arg a) (.arg b)

/-- A change made in both configurations keeps them alike. -/
theorem Alike.apply {c c' : LaunchConfig} {change change' : Change} (h : c.Alike c')
    (hchange : change.Alike change') : (c.apply change).Alike (c'.apply change') := by
  have harg {a b : String} (hab : SameButSecret a b) :
      (c.apply (.arg a)).Alike (c'.apply (.arg b)) :=
    { h with extraArgs := List.rel_append h.extraArgs (.cons hab .nil) }
  cases hchange with
  | arg hab => exact harg hab
  | same change =>
    cases change with
    | testnet b => exact { h with testnet := rfl }
    | dataDir path => exact { h with dataDir := rfl }
    | arg text => exact harg (.inl rfl)
    | logFile path => exact { h with logFile := rfl }
    | grace d => exact { h with grace := rfl }

/-- Configurations that are built by the same changes, up to secrets, are alike. -/
theorem Alike.foldl {c c' : LaunchConfig} {changes changes' : List Change} (h : c.Alike c')
    (hchanges : List.Forall₂ Change.Alike changes changes') :
    (changes.foldl LaunchConfig.apply c).Alike (changes'.foldl LaunchConfig.apply c') := by
  induction hchanges generalizing c c' with
  | nil => exact h
  | cons hchange _ ih => exact ih (h.apply hchange)

theorem Alike.args {c c' : LaunchConfig} (h : c.Alike c') :
    List.Forall₂ SameButSecret c.args c'.args := by
  have hsame (xs : List String) : List.Forall₂ SameButSecret xs xs :=
    List.forall₂_same.2 fun _ _ => .inl rfl
  have hsecret : List.Forall₂ SameButSecret
      ["-rpcuser=" ++ c.account, secretFlag ++ c.secret]
      ["-rpcuser=" ++ c'.account, secretFlag ++ c'.secret] :=
    .cons (.inl (by rw [h.account]))
      (.cons (.inr ⟨carriesSecret_append _, carriesSecret_append _⟩) .nil)
  rw [LaunchConfig.args, LaunchConfig.args, h.testnet, h.dataDir]
  exact List.rel_append (List.rel_append (List.rel_append (hsame _) hsecret) (hsame _)) h.extraArgs

/-- The arguments for logs tell nothing about secrets. -/
theorem Alike.redactedArgs_eq {c c' : LaunchConfig} (h : c.Alike c') :
    c.redactedArgs = c'.redactedArgs :=
  map_redact_eq_iff.2 h.args

/-- The text for logs up to the further arguments. -/
def debugHead (c : LaunchConfig) : String :=
  "LaunchConfig \x7b binary: " ++ Text.quote c.binary ++
    ", testnet: " ++ (if c.testnet then "true" else "false") ++
    ", account: " ++ Text.quote c.account ++
    ", secret: " ++ Text.quote mask ++
    ", data_dir: " ++ Text.quoteOption c.dataDir ++
    ", extra_args: "

/-- The text for logs behind the further arguments. -/
def debugTail (c : LaunchConfig) : String :=
  ", log_file: " ++ Text.quoteOption c.logFile ++
    ", shutdown_grace: " ++ c.grace.debugText ++ " \x7d"

theorem debugText_eq (c : LaunchConfig) :
    c.debugText = c.debugHead ++ Text.quoteList c.extraArgs ++ c.debugTail := by
  unfold debugText debugHead debugTail
  simp only [String.append_assoc]

/-- The text for logs tells nothing about the secret of the account, and everything about the
further arguments. -/
theorem Alike.debugText_eq_iff {c c' : LaunchConfig} (h : c.Alike c') :
    c.debugText = c'.debugText ↔ c.extraArgs = c'.extraArgs := by
  have hhead : c.debugHead = c'.debugHead := by
    unfold debugHead
    rw [h.binary, h.account, h.testnet, h.dataDir]
  have htail : c.debugTail = c'.debugTail := by
    unfold debugTail
    rw [h.logFile, h.grace]
  rw [debugText_eq, debugText_eq, hhead, htail, String.append_left_inj, String.append_right_inj]
  exact ⟨Text.quoteList_inj, congrArg Text.quoteList⟩

/-- What the logs tell of two configurations that are alike.  Their redacted arguments are the
same, in the places of the arguments, and hide nothing but secrets.  Their texts are the same
exactly when their further arguments are, with the secrets that these carry. -/
theorem logs_of_alike {c c' : LaunchConfig} (h : c.Alike c') :
    c.redactedArgs = c'.redactedArgs ∧
    c.redactedArgs.length = c.args.length ∧
    (∀ (i : Nat) (arg : String), c.args[i]? = some arg → ¬ CarriesSecret arg →
      c.redactedArgs[i]? = some arg) ∧
    (∀ (i : Nat) (arg : String), c.args[i]? = some arg → CarriesSecret arg →
      c.redactedArgs[i]? = some (secretFlag ++ mask)) ∧
    (c.debugText = c'.debugText ↔ c.extraArgs = c'.extraArgs) := by
  have hplace (i : Nat) (arg : String) (harg : c.args[i]? = some arg) :
      c.redactedArgs[i]? = some (redact arg) := by
    rw [redactedArgs, List.getElem?_map, harg, Option.map_some]
  refine ⟨h.redactedArgs_eq, List.length_map redact, ?_, ?_, h.debugText_eq_iff⟩
  · intro i arg harg hplain
    rw [hplace i arg harg, redact_of_not_carriesSecret hplain]
  · intro i arg harg hsecret
    rw [hplace i arg harg, redact_of_carriesSecret hsecret]

/-- A daemon with a further argument that carries a secret. -/
def withSecretArg (secret argument : String) : LaunchConfig :=
  [Change.testnet true, .arg (secretFlag ++ argument), .arg "-txindex"].foldl LaunchConfig.apply
    { binary := "bitcoind", account := "user", secret }

theorem alike_withSecretArg (s t a b : String) :
    (withSecretArg s a).Alike (withSecretArg t b) :=
  Alike.foldl ⟨rfl, rfl, rfl, rfl, .nil, rfl, rfl⟩
    (.cons (.same _) (.cons (.arg (.inr ⟨carriesSecret_append a, carriesSecret_append b⟩))
      (.cons (.same _) .nil)))

/-- Two secrets of the account that no log can tell apart. -/
theorem logs_of_alike_accounts :
    (withSecretArg "old" "x").Alike (withSecretArg "new" "x") ∧
    (withSecretArg "old" "x").redactedArgs = (withSecretArg "new" "x").redactedArgs ∧
    (withSecretArg "old" "x").redactedArgs[4]? = some "-txindex" ∧
    (withSecretArg "old" "x").debugText = (withSecretArg "new" "x").debugText := by
  have halike := alike_withSecretArg "old" "new" "x" "x"
  obtain ⟨hredacted, -, hplain, -, htext⟩ := logs_of_alike halike
  exact ⟨halike, hredacted, hplain 4 "-txindex" rfl (by decide), htext.2 rfl⟩

/-- The text for logs tells two secrets of a further argument apart. -/
theorem debugText_shows_secret :
    (withSecretArg "pw" "old").Alike (withSecretArg "pw" "new") ∧
    (withSecretArg "pw" "old").redactedArgs = (withSecretArg "pw" "new").redactedArgs ∧
    (withSecretArg "pw" "old").debugText ≠ (withSecretArg "pw" "new").debugText := by
  have halike := alike_withSecretArg "pw" "pw" "old" "new"
  refine ⟨halike, halike.redactedArgs_eq, fun htext => ?_⟩
  exact absurd (halike.debugText_eq_iff.1 htext) (by decide)

end DaemonRpc.LaunchConfig
