import DaemonRpc.Result.Chain
import DaemonRpc.Result.Node
import DaemonRpc.Result.Wallet
import DaemonRpc.Rpc.Method
import DaemonRpc.Rpc.Request
import DaemonRpc.Rpc.Response

/-!
# The typed operations of a client

An `Operation` is a question to the daemon together with the arguments that a caller gives.

* `Operation.method` and `Operation.params` say what is sent.  Arguments out of range are
  put into it first: an account that is left out is `""`, and counts below their least value
  become a default.
* `Operation.Result` is the type of the answer, and `Operation.interpret` reads it from the
  result of the reply.
-/

namespace DaemonRpc

/-- A question to the daemon, with its arguments as the caller gives them. -/
inductive Operation where
  | backupWallet (destination : Option String)
  | getAccount (address : String)
  | getAccountAddress (account : Option String)
  | getAddressesByAccount (account : Option String)
  | getBalance (account : Option String) (confirms : Int64)
  | getBlock (hash : String)
  | getBlockCount
  | getBlockHash (index : Int64)
  | getConnectionCount
  | getDifficulty
  | getGenerate
  | getHashesPerSec
  | getInfo
  | getMiningInfo
  | getNewAddress (account : Option String)
  | getPeerInfo
  | getRawMempool
  | getReceivedByAccount (account : Option String) (confirms : Int64)
  | getReceivedByAddress (address : String) (confirms : Int64)
  | getTransaction (txid : String)
  | getTxOutSetInfo
  | help (command : Option String)
  | keyPoolRefill
  | listAccounts (confirms : Int64)
  | listAddressGroupings
  | listLockUnspent
  | listReceivedByAccount (confirms : Int64) (includeEmpty : Bool)
  | listReceivedByAddress (confirms : Int64) (includeEmpty : Bool)
  | listSinceBlock (hash : Option String) (confirms : Int64)
  | listTransactions (account : Option String) (count skipped : Int64)
  | setAccount (address : String) (account : Option String)
  | setGenerate (on : Bool) (processors : Int64)
  | setTxFee (amount : Float)
  | validateAddress (address : String)

namespace Operation

/-- The method of an operation. -/
def method : Operation → Method
  | backupWallet _ => .backupWallet
  | getAccount _ => .getAccount
  | getAccountAddress _ => .getAccountAddress
  | getAddressesByAccount _ => .getAddressesByAccount
  | getBalance _ _ => .getBalance
  | getBlock _ => .getBlock
  | getBlockCount => .getBlockCount
  | getBlockHash _ => .getBlockHash
  | getConnectionCount => .getConnectionCount
  | getDifficulty => .getDifficulty
  | getGenerate => .getGenerate
  | getHashesPerSec => .getHashesPerSec
  | getInfo => .getInfo
  | getMiningInfo => .getMiningInfo
  | getNewAddress _ => .getNewAddress
  | getPeerInfo => .getPeerInfo
  | getRawMempool => .getRawMempool
  | getReceivedByAccount _ _ => .getReceivedByAccount
  | getReceivedByAddress _ _ => .getReceivedByAddress
  | getTransaction _ => .getTransaction
  | getTxOutSetInfo => .getTxOutSetInfo
  | help _ => .help
  | keyPoolRefill => .keyPoolRefill
  | listAccounts _ => .listAccounts
  | listAddressGroupings => .listAddressGroupings
  | listLockUnspent => .listLockUnspent
  | listReceivedByAccount _ _ => .listReceivedByAccount
  | listReceivedByAddress _ _ => .listReceivedByAddress
  | listSinceBlock _ _ => .listSinceBlock
  | listTransactions _ _ _ => .listTransactions
  | setAccount _ _ => .setAccount
  | setGenerate _ _ => .setGenerate
  | setTxFee _ => .setTxFee
  | validateAddress _ => .validateAddress

/-! ## Arguments -/

/-- How many transactions are listed unless told otherwise. -/
def defaultCount : Int64 := 10

/-- A number of confirmations, at least one. -/
def leastConfirms (n : Int64) : Int64 := max n 1

/-- A number of confirmations that may be zero; a negative one becomes one. -/
def confirmsOrOne (n : Int64) : Int64 := if n < 0 then 1 else n

/-- A number that is not negative. -/
def notNegative (n : Int64) : Int64 := max n 0

/-- A count of at least one, or the default. -/
def pageSize (n : Int64) : Int64 := if n < 1 then defaultCount else n

/-- A number of processors, or `-1` for all of them. -/
def processorLimit (n : Int64) : Int64 := if n < 1 then -1 else n

/-- A fee that is not negative; what is not a number becomes zero. -/
def leastFee (x : Float) : Float := if 0 < x then x else 0

/-- The account of a name; none is the account without a name. -/
def accountArg (account : Option String) : Json := .string (account.getD "")

/-- The only argument, left out when there is none or it is empty. -/
def optionalArg : Option String → Params
  | none => .none
  | some s => if s.isEmpty then .none else .positional [.string s]

/-- The parameters of an operation. -/
def params : Operation → Params
  | backupWallet destination => .positional [.string (destination.getD ".")]
  | getAccount address => .positional [.string address]
  | getAccountAddress account => .positional [accountArg account]
  | getAddressesByAccount account => .positional [accountArg account]
  | getBalance account n => .positional [accountArg account, .ofInt64 (leastConfirms n)]
  | getBlock hash => .positional [.string hash]
  | getBlockHash index => .positional [.ofInt64 (notNegative index)]
  | getNewAddress account => optionalArg account
  | getReceivedByAccount account n =>
    .positional [accountArg account, .ofInt64 (leastConfirms n)]
  | getReceivedByAddress address n => .positional [.string address, .ofInt64 (leastConfirms n)]
  | getTransaction txid => .positional [.string txid]
  | help command => optionalArg command
  | listAccounts n => .positional [.ofInt64 (leastConfirms n)]
  | listReceivedByAccount n empty => .positional [.ofInt64 (confirmsOrOne n), .bool empty]
  | listReceivedByAddress n empty => .positional [.ofInt64 (confirmsOrOne n), .bool empty]
  | listSinceBlock none _ => .none
  | listSinceBlock (some hash) n =>
    if hash.isEmpty then .none else .positional [.string hash, .ofInt64 (leastConfirms n)]
  | listTransactions account count skipped =>
    .positional [accountArg account, .ofInt64 (pageSize count), .ofInt64 (notNegative skipped)]
  | setAccount address account => .positional [.string address, accountArg account]
  | setGenerate on n => .positional [.bool on, .ofInt64 (processorLimit n)]
  | setTxFee amount => .positional [.ofFloat (leastFee amount)]
  | validateAddress address => .positional [.string address]
  | getBlockCount | getConnectionCount | getDifficulty | getGenerate | getHashesPerSec
  | getInfo | getMiningInfo | getPeerInfo | getRawMempool | getTxOutSetInfo | keyPoolRefill
  | listAddressGroupings | listLockUnspent => .none

/-! ## Results -/

/-- The type of the answer to an operation. -/
def Result : Operation → Type
  | backupWallet _ | keyPoolRefill | setAccount _ _ | setGenerate _ _ => Unit
  | getAccount _ | getAccountAddress _ | getBlockHash _ | getNewAddress _ | help _ => String
  | getAddressesByAccount _ | getRawMempool => List String
  | getBalance _ _ | getDifficulty | getReceivedByAccount _ _ | getReceivedByAddress _ _ => Float
  | getBlock _ => Block
  | getBlockCount | getConnectionCount | getHashesPerSec => Int64
  | getGenerate | setTxFee _ => Bool
  | getInfo => DaemonStatus
  | getMiningInfo => MiningInfo
  | getPeerInfo => List Peer
  | getTransaction _ | listSinceBlock _ _ => Json
  | getTxOutSetInfo => TxOutSetInfo
  | listAccounts _ | listReceivedByAccount _ _ => List Account
  | listAddressGroupings | listLockUnspent | listTransactions _ _ _ => List Json
  | listReceivedByAddress _ _ => List ReceivedByAddress
  | validateAddress _ => AddressInfo

/-- How the answer to an operation is written. -/
instance shaped : (op : Operation) → Shaped op.Result
  | backupWallet _ | keyPoolRefill | setAccount _ _ | setGenerate _ _ =>
    inferInstanceAs (Shaped Unit)
  | getAccount _ | getAccountAddress _ | getBlockHash _ | getNewAddress _ | help _ =>
    inferInstanceAs (Shaped String)
  | getAddressesByAccount _ | getRawMempool => inferInstanceAs (Shaped (List String))
  | getBalance _ _ | getDifficulty | getReceivedByAccount _ _ | getReceivedByAddress _ _ =>
    inferInstanceAs (Shaped Float)
  | getBlock _ => inferInstanceAs (Shaped Block)
  | getBlockCount | getConnectionCount | getHashesPerSec => inferInstanceAs (Shaped Int64)
  | getGenerate | setTxFee _ => inferInstanceAs (Shaped Bool)
  | getInfo => inferInstanceAs (Shaped DaemonStatus)
  | getMiningInfo => inferInstanceAs (Shaped MiningInfo)
  | getPeerInfo => inferInstanceAs (Shaped (List Peer))
  | getTransaction _ | listSinceBlock _ _ => inferInstanceAs (Shaped Json)
  | getTxOutSetInfo => inferInstanceAs (Shaped TxOutSetInfo)
  | listAccounts _ | listReceivedByAccount _ _ => inferInstanceAs (Shaped (List Account))
  | listAddressGroupings | listLockUnspent | listTransactions _ _ _ =>
    inferInstanceAs (Shaped (List Json))
  | listReceivedByAddress _ _ => inferInstanceAs (Shaped (List ReceivedByAddress))
  | validateAddress _ => inferInstanceAs (Shaped AddressInfo)

/-- The accounts of a table of balances, which says nothing about confirmations. -/
def accountsOf (balances : Balances) : List Account :=
  balances.entries.map fun e => { name := e.1, amount := e.2, confirmations := 0 }

/-- The answer to an operation, from the result of a reply. -/
def interpret (op : Operation) (v : Json) : Except ProtocolError op.Result :=
  match op with
  | listAccounts _ => (decodeResult Balances op.method.wireName v).map accountsOf
  | op => decodeResult op.Result op.method.wireName v

end Operation

end DaemonRpc
