import DaemonRpc.Proofs.Json.Record
import DaemonRpc.Proofs.Rpc.Response
import DaemonRpc.Result.Chain
import DaemonRpc.Result.Node
import DaemonRpc.Result.Wallet

/-!
# The documented results

The daemon's documentation of a result is a table: the names that may stand in the object, the type
of each, and what the value means.  The tables here are written down as the documentation has them,
and say of each name which field of the structure it is.

* `Documented` is what such a table promises: which objects are accepted, what is taken from them,
  and how the others are refused.
* `Model.documented` shows that a structure keeps the promise of its fields, and `models_documented`
  that the fields are those of the tables.
-/

namespace DaemonRpc

/-! ## The tables -/

/-- The result of `getinfo`. -/
def DaemonStatus.documented : List (FieldOf DaemonStatus) := [
  ⟨⟨"version", .int⟩, version⟩,
  ⟨⟨"protocolversion", .int⟩, protocolVersion⟩,
  ⟨⟨"walletversion", .int⟩, walletVersion⟩,
  ⟨⟨"balance", .double⟩, balance⟩,
  ⟨⟨"blocks", .int⟩, blocks⟩,
  ⟨⟨"timeoffset", .int⟩, timeOffset⟩,
  ⟨⟨"connections", .int⟩, connections⟩,
  ⟨⟨"proxy", .text⟩, proxy⟩,
  ⟨⟨"difficulty", .double⟩, difficulty⟩,
  ⟨⟨"testnet", .flag⟩, testnet⟩,
  ⟨⟨"keypoololdest", .int⟩, keyPoolOldest⟩,
  ⟨⟨"keypoolsize", .int⟩, keyPoolSize⟩,
  ⟨⟨"paytxfee", .double⟩, payTxFee⟩,
  ⟨⟨"errors", .text⟩, errors⟩]

/-- The result of `getmininginfo`. -/
def MiningInfo.documented : List (FieldOf MiningInfo) := [
  ⟨⟨"blocks", .int⟩, blocks⟩,
  ⟨⟨"currentblocksize", .int⟩, currentBlockSize⟩,
  ⟨⟨"currentblocktx", .int⟩, currentBlockTx⟩,
  ⟨⟨"difficulty", .double⟩, difficulty⟩,
  ⟨⟨"errors", .text⟩, errors⟩,
  ⟨⟨"generate", .flag⟩, generate⟩,
  ⟨⟨"genproclimit", .int⟩, genProcLimit⟩,
  ⟨⟨"hashespersec", .int⟩, hashesPerSec⟩,
  ⟨⟨"pooledtx", .int⟩, pooledTx⟩,
  ⟨⟨"testnet", .flag⟩, testnet⟩]

/-- The result of `getblock`. -/
def Block.documented : List (FieldOf Block) := [
  ⟨⟨"hash", .text⟩, hash⟩,
  ⟨⟨"confirmations", .int⟩, confirmations⟩,
  ⟨⟨"size", .int⟩, size⟩,
  ⟨⟨"height", .int⟩, height⟩,
  ⟨⟨"version", .int⟩, version⟩,
  ⟨⟨"merkleroot", .text⟩, merkleRoot⟩,
  ⟨⟨"tx", .texts⟩, tx⟩,
  ⟨⟨"time", .int⟩, time⟩,
  ⟨⟨"nonce", .int⟩, nonce⟩,
  ⟨⟨"bits", .text⟩, bits⟩,
  ⟨⟨"difficulty", .double⟩, difficulty⟩,
  ⟨⟨"previousblockhash", .optionalText⟩, previousBlockHash⟩,
  ⟨⟨"nextblockhash", .optionalText⟩, nextBlockHash⟩]

/-- The result of `gettxoutsetinfo`. -/
def TxOutSetInfo.documented : List (FieldOf TxOutSetInfo) := [
  ⟨⟨"height", .int⟩, height⟩,
  ⟨⟨"bestblock", .text⟩, bestBlock⟩,
  ⟨⟨"transactions", .int⟩, transactions⟩,
  ⟨⟨"txouts", .int⟩, txOuts⟩,
  ⟨⟨"bytes_serialized", .int⟩, bytesSerialized⟩,
  ⟨⟨"hash_serialized", .text⟩, hashSerialized⟩,
  ⟨⟨"total_amount", .double⟩, totalAmount⟩]

/-- An item of the result of `getpeerinfo`. -/
def Peer.documented : List (FieldOf Peer) := [
  ⟨⟨"addr", .text⟩, networkAddress⟩,
  ⟨⟨"services", .text⟩, services⟩,
  ⟨⟨"lastsend", .int⟩, lastSend⟩,
  ⟨⟨"lastrecv", .int⟩, lastReceived⟩,
  ⟨⟨"bytessent", .int⟩, bytesSent⟩,
  ⟨⟨"bytesrecv", .int⟩, bytesReceived⟩,
  ⟨⟨"conntime", .int⟩, connectionTime⟩,
  ⟨⟨"version", .int⟩, version⟩,
  ⟨⟨"subver", .text⟩, subVersion⟩,
  ⟨⟨"inbound", .flag⟩, inbound⟩,
  ⟨⟨"startingheight", .int⟩, startingHeight⟩,
  ⟨⟨"banscore", .int⟩, banScore⟩,
  ⟨⟨"syncnode", .flag⟩, syncNode⟩]

/-- The result of `validateaddress`. -/
def AddressInfo.documented : List (FieldOf AddressInfo) := [
  ⟨⟨"isvalid", .flag⟩, valid⟩,
  ⟨⟨"address", .text⟩, address⟩,
  ⟨⟨"ismine", .flag⟩, mine⟩,
  ⟨⟨"isscript", .flag⟩, script⟩,
  ⟨⟨"pubkey", .text⟩, publicKey⟩,
  ⟨⟨"iscompressed", .flag⟩, compressed⟩,
  ⟨⟨"account", .text⟩, account⟩]

/-- An item of the result of `listreceivedbyaddress`. -/
def ReceivedByAddress.documented : List (FieldOf ReceivedByAddress) := [
  ⟨⟨"address", .text⟩, address⟩,
  ⟨⟨"account", .text⟩, account⟩,
  ⟨⟨"amount", .double⟩, amount⟩,
  ⟨⟨"confirmations", .int⟩, confirmations⟩]

/-- An item of the result of `listreceivedbyaccount`. -/
def Account.documented : List (FieldOf Account) := [
  ⟨⟨"account", .text⟩, name⟩,
  ⟨⟨"amount", .double⟩, amount⟩,
  ⟨⟨"confirmations", .int⟩, confirmations⟩]

/-! ## The promise of a table -/

/-- What a table of fields says about the reading of a structure, in the name of any method.  A
field takes the last member of its name and has the default of its type without one, and the fields
are all there is to a structure. -/
structure Documented (α : Type) [Shaped α] (fields : List (FieldOf α)) : Prop where
  accepted : ∀ (method : String) (members : List (String × Json)),
    (∃ a, decodeResult α method (.object members) = .ok a) ↔
      ∀ m ∈ members, ∀ f ∈ fields, m.1 = f.name → f.type.Admits m.2
  values : ∀ (method : String) (members : List (String × Json)) (a : α),
    decodeResult α method (.object members) = .ok a ↔
      ∀ f ∈ fields, (∀ m ∈ members, m.1 = f.name → f.type.Admits m.2) ∧
        match Json.findLast? f.name members with
        | some v => f.type.Reads v (f.value a)
        | none => f.type.IsDefault (f.value a)
  others : ∀ (method : String) (members : List (String × Json)),
    decodeResult α method (.object (members.filter fun m => m.1 ∈ fields.map (·.name))) =
      decodeResult α method (.object members)
  listed : ∀ (method : String) (v : Json) (as : List α),
    decodeResult (List α) method v = .ok as ↔ ∃ items, v = .array items ∧
      List.Forall₂ (fun item a => decodeResult α method item = .ok a) items as
  refused : ∀ (method : String) (v : Json) (e : ProtocolError),
    decodeResult α method v = .error e ∨ decodeResult (List α) method v = .error e →
      ∃ kind, v.HasKind kind ∧ ∃ fault : ShapeFault,
        e = .unexpectedShape method (fault.message ++ " (got " ++ kind ++ ")")

/-- A list is read item by item. -/
theorem decodeResult_list_eq_ok_iff {α : Type} [Shaped α] {method : String} {v : Json}
    {as : List α} :
    decodeResult (List α) method v = .ok as ↔ ∃ items, v = .array items ∧
      List.Forall₂ (fun item a => decodeResult α method item = .ok a) items as := by
  simp only [decodeResult_eq_ok_iff]
  exact Shaped.decodeList_eq_ok_iff

/-- A structure is read as its fields say. -/
theorem Model.documented (α : Type) [Model α] : Documented α (fieldsOf α) where
  accepted method members := by
    simp only [decodeResult_eq_ok_iff]
    exact exists_decode_object_iff
  values method members a := by
    simp only [decodeResult_eq_ok_iff, FieldType.isDefault_iff]
    exact decode_object_eq_ok_iff
  others method members := by
    rw [decodeResult, decodeResult, decode_object_filter]
    rfl
  listed method v as := decodeResult_list_eq_ok_iff
  refused method v e h := by
    rcases h with h | h
    · obtain ⟨fault, -, he⟩ := decodeResult_eq_error_iff.1 h
      exact ⟨v.kind, v.hasKind_kind, fault, he.symm⟩
    · obtain ⟨fault, -, he⟩ := decodeResult_eq_error_iff.1 h
      exact ⟨v.kind, v.hasKind_kind, fault, he.symm⟩

/-- Every structure is read as its documentation says, alone and in lists. -/
theorem models_documented :
    Documented DaemonStatus DaemonStatus.documented ∧
    Documented MiningInfo MiningInfo.documented ∧
    Documented Block Block.documented ∧
    Documented TxOutSetInfo TxOutSetInfo.documented ∧
    Documented Peer Peer.documented ∧
    Documented AddressInfo AddressInfo.documented ∧
    Documented ReceivedByAddress ReceivedByAddress.documented ∧
    Documented Account Account.documented :=
  -- the fields of the instances are those of the tables, name by name and type by type
  ⟨Model.documented DaemonStatus, Model.documented MiningInfo, Model.documented Block,
    Model.documented TxOutSetInfo, Model.documented Peer, Model.documented AddressInfo,
    Model.documented ReceivedByAddress, Model.documented Account⟩

end DaemonRpc
