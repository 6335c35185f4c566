import DaemonRpc.Json.Record

/-!
# What the daemon reports about itself

The answers to `getinfo` and `getmininginfo`, and the items of the answer to `getpeerinfo`.
-/

namespace DaemonRpc

/-- The state of the daemon, its wallet and its connections. -/
structure DaemonStatus where
  version : Int64
  protocolVersion : Int64
  walletVersion : Int64
  balance : Float
  blocks : Int64
  timeOffset : Int64
  connections : Int64
  proxy : String
  difficulty : Float
  testnet : Bool
  keyPoolOldest : Int64
  keyPoolSize : Int64
  payTxFee : Float
  errors : String
deriving DecidableEq

instance : Model DaemonStatus where
  name := "DaemonStatus"
  fields := [
    ⟨"version", .int⟩, ⟨"protocolversion", .int⟩, ⟨"walletversion", .int⟩,
    ⟨"balance", .double⟩, ⟨"blocks", .int⟩, ⟨"timeoffset", .int⟩, ⟨"connections", .int⟩,
    ⟨"proxy", .text⟩, ⟨"difficulty", .double⟩, ⟨"testnet", .flag⟩,
    ⟨"keypoololdest", .int⟩, ⟨"keypoolsize", .int⟩, ⟨"paytxfee", .double⟩,
    ⟨"errors", .text⟩]
  toRecord a := (
    a.version, a.protocolVersion, a.walletVersion, a.balance, a.blocks, a.timeOffset,
    a.connections, a.proxy, a.difficulty, a.testnet, a.keyPoolOldest, a.keyPoolSize, a.payTxFee,
    a.errors, ())
  ofRecord := fun (a, b, c, d, e, f, g, h, i, j, k, l, m, n, _) =>
    ⟨a, b, c, d, e, f, g, h, i, j, k, l, m, n⟩
  ofRecord_toRecord _ := rfl
  toRecord_ofRecord _ := rfl
  names_nodup := by decide

/-- The state of mining. -/
structure MiningInfo where
  blocks : Int64
  currentBlockSize : Int64
  currentBlockTx : Int64
  difficulty : Float
  errors : String
  generate : Bool
  genProcLimit : Int64
  hashesPerSec : Int64
  pooledTx : Int64
  testnet : Bool
deriving DecidableEq

instance : Model MiningInfo where
  name := "MiningInfo"
  fields := [
    ⟨"blocks", .int⟩, ⟨"currentblocksize", .int⟩, ⟨"currentblocktx", .int⟩,
    ⟨"difficulty", .double⟩, ⟨"errors", .text⟩, ⟨"generate", .flag⟩,
    ⟨"genproclimit", .int⟩, ⟨"hashespersec", .int⟩, ⟨"pooledtx", .int⟩,
    ⟨"testnet", .flag⟩]
  toRecord a := (
    a.blocks, a.currentBlockSize, a.currentBlockTx, a.difficulty, a.errors, a.generate,
    a.genProcLimit, a.hashesPerSec, a.pooledTx, a.testnet, ())
  ofRecord := fun (a, b, c, d, e, f, g, h, i, j, _) => ⟨a, b, c, d, e, f, g, h, i, j⟩
  ofRecord_toRecord _ := rfl
  toRecord_ofRecord _ := rfl
  names_nodup := by decide

/-- A node that the daemon is connected to. -/
structure Peer where
  networkAddress : String
  services : String
  lastSend : Int64
  lastReceived : Int64
  bytesSent : Int64
  bytesReceived : Int64
  connectionTime : Int64
  version : Int64
  subVersion : String
  inbound : Bool
  startingHeight : Int64
  banScore : Int64
  syncNode : Bool
deriving DecidableEq

instance : Model Peer where
  name := "Peer"
  fields := [
    ⟨"addr", .text⟩, ⟨"services", .text⟩, ⟨"lastsend", .int⟩, ⟨"lastrecv", .int⟩,
    ⟨"bytessent", .int⟩, ⟨"bytesrecv", .int⟩, ⟨"conntime", .int⟩, ⟨"version", .int⟩,
    ⟨"subver", .text⟩, ⟨"inbound", .flag⟩, ⟨"startingheight", .int⟩,
    ⟨"banscore", .int⟩, ⟨"syncnode", .flag⟩]
  toRecord a := (
    a.networkAddress, a.services, a.lastSend, a.lastReceived, a.bytesSent, a.bytesReceived,
    a.connectionTime, a.version, a.subVersion, a.inbound, a.startingHeight, a.banScore,
    a.syncNode, ())
  ofRecord := fun (a, b, c, d, e, f, g, h, i, j, k, l, m, _) =>
    ⟨a, b, c, d, e, f, g, h, i, j, k, l, m⟩
  ofRecord_toRecord _ := rfl
  toRecord_ofRecord _ := rfl
  names_nodup := by decide

end DaemonRpc
