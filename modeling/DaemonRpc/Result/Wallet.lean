import DaemonRpc.Json.Record

/-!
# Addresses and accounts

The answers to `validateaddress`, `listreceivedbyaddress`, `listreceivedbyaccount` and
`listaccounts`.
-/

namespace DaemonRpc

/-- What is known about an address. -/
structure AddressInfo where
  valid : Bool
  address : String
  mine : Bool
  script : Bool
  publicKey : String
  compressed : Bool
  account : String
deriving DecidableEq

instance : Model AddressInfo where
  name := "AddressInfo"
  fields := [
    ⟨"isvalid", .flag⟩, ⟨"address", .text⟩, ⟨"ismine", .flag⟩, ⟨"isscript", .flag⟩,
    ⟨"pubkey", .text⟩, ⟨"iscompressed", .flag⟩, ⟨"account", .text⟩]
  toRecord a := (
    a.valid, a.address, a.mine, a.script, a.publicKey, a.compressed, a.account, ())
  ofRecord := fun (a, b, c, d, e, f, g, _) => ⟨a, b, c, d, e, f, g⟩
  ofRecord_toRecord _ := rfl
  toRecord_ofRecord _ := rfl
  names_nodup := by decide

/-- What an address has received. -/
structure ReceivedByAddress where
  address : String
  account : String
  amount : Float
  confirmations : Int64
deriving DecidableEq

instance : Model ReceivedByAddress where
  name := "ReceivedByAddress"
  fields := [
    ⟨"address", .text⟩, ⟨"account", .text⟩, ⟨"amount", .double⟩,
    ⟨"confirmations", .int⟩]
  toRecord a := (
    a.address, a.account, a.amount, a.confirmations, ())
  ofRecord := fun (a, b, c, d, _) => ⟨a, b, c, d⟩
  ofRecord_toRecord _ := rfl
  toRecord_ofRecord _ := rfl
  names_nodup := by decide

/-- An account and an amount: what it holds or what it has received. -/
structure Account where
  name : String
  amount : Float
  confirmations : Int64
deriving DecidableEq

instance : Model Account where
  name := "Account"
  fields := [
    ⟨"account", .text⟩, ⟨"amount", .double⟩, ⟨"confirmations", .int⟩]
  toRecord a := (
    a.name, a.amount, a.confirmations, ())
  ofRecord := fun (a, b, c, _) => ⟨a, b, c⟩
  ofRecord_toRecord _ := rfl
  toRecord_ofRecord _ := rfl
  names_nodup := by decide

end DaemonRpc
