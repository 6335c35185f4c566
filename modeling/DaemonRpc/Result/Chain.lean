import DaemonRpc.Json.Record

/-!
# Blocks and the set of unspent outputs

The answers to `getblock` and `gettxoutsetinfo`.
-/

namespace DaemonRpc

/-- A block of the chain; the first block has no previous one and the last no next one. -/
structure Block where
  hash : String
  confirmations : Int64
  size : Int64
  height : Int64
  version : Int64
  merkleRoot : String
  tx : List String
  time : Int64
  nonce : Int64
  bits : String
  difficulty : Float
  previousBlockHash : Option String
  nextBlockHash : Option String
deriving DecidableEq

instance : Model Block where
  name := "Block"
  fields := [
    ⟨"hash", .text⟩, ⟨"confirmations", .int⟩, ⟨"size", .int⟩, ⟨"height", .int⟩,
    ⟨"version", .int⟩, ⟨"merkleroot", .text⟩, ⟨"tx", .texts⟩, ⟨"time", .int⟩,
    ⟨"nonce", .int⟩, ⟨"bits", .text⟩, ⟨"difficulty", .double⟩,
    ⟨"previousblockhash", .optionalText⟩,
    ⟨"nextblockhash", .optionalText⟩]
  toRecord a := (
    a.hash, a.confirmations, a.size, a.height, a.version, a.merkleRoot, a.tx, a.time, a.nonce,
    a.bits, a.difficulty, a.previousBlockHash, a.nextBlockHash, ())
  ofRecord := fun (a, b, c, d, e, f, g, h, i, j, k, l, m, _) =>
    ⟨a, b, c, d, e, f, g, h, i, j, k, l, m⟩
  ofRecord_toRecord _ := rfl
  toRecord_ofRecord _ := rfl
  names_nodup := by decide

/-- Statistics of the unspent outputs. -/
structure TxOutSetInfo where
  height : Int64
  bestBlock : String
  transactions : Int64
  txOuts : Int64
  bytesSerialized : Int64
  hashSerialized : String
  totalAmount : Float
deriving DecidableEq

instance : Model TxOutSetInfo where
  name := "TxOutSetInfo"
  fields := [
    ⟨"height", .int⟩, ⟨"bestblock", .text⟩, ⟨"transactions", .int⟩,
    ⟨"txouts", .int⟩, ⟨"bytes_serialized", .int⟩, ⟨"hash_serialized", .text⟩,
    ⟨"total_amount", .double⟩]
  toRecord a := (
    a.height, a.bestBlock, a.transactions, a.txOuts, a.bytesSerialized, a.hashSerialized,
    a.totalAmount, ())
  ofRecord := fun (a, b, c, d, e, f, g, _) => ⟨a, b, c, d, e, f, g⟩
  ofRecord_toRecord _ := rfl
  toRecord_ofRecord _ := rfl
  names_nodup := by decide

end DaemonRpc
