/-!
# The methods of the daemon

`Method` is the closed list of the methods of the daemon's interface.  `wireName` is the
name in a request; `supported` says whether this library issues the method.  The others are
known so that they can be refused before anything is sent.

`ofName?` finds a method by its name in any mixture of ASCII letter cases.
-/

namespace DaemonRpc

/-- A method of the daemon. -/
inductive Method where
  | addMultiSigAddress
  | addNode
  | backupWallet
  | createMultiSig
  | createRawTransaction
  | decodeRawTransaction
  | dumpPrivKey
  | encryptWallet
  | getAccount
  | getAccountAddress
  | getAddedNodeInfo
  | getAddressesByAccount
  | getBalance
  | getBlock
  | getBlockCount
  | getBlockHash
  | getBlockTemplate
  | getConnectionCount
  | getDifficulty
  | getGenerate
  | getHashesPerSec
  | getInfo
  | getMiningInfo
  | getNewAddress
  | getPeerInfo
  | getRawMempool
  | getRawTransaction
  | getReceivedByAccount
  | getReceivedByAddress
  | getTransaction
  | getTxOut
  | getTxOutSetInfo
  | getWork
  | help
  | importPrivKey
  | keyPoolRefill
  | listAccounts
  | listAddressGroupings
  | listLockUnspent
  | listReceivedByAccount
  | listReceivedByAddress
  | listSinceBlock
  | listTransactions
  | listUnspent
  | lockUnspent
  | move
  | sendFrom
  | sendMany
  | sendRawTransaction
  | sendToAddress
  | setAccount
  | setGenerate
  | setTxFee
  | signMessage
  | signRawTransaction
  | stop
  | submitBlock
  | validateAddress
  | verifyMessage
deriving DecidableEq, Inhabited

namespace Method

/-- Every method, in ascending order of names. -/
def all : List Method := [
  .addMultiSigAddress, .addNode, .backupWallet, .createMultiSig, .createRawTransaction,
  .decodeRawTransaction, .dumpPrivKey, .encryptWallet, .getAccount, .getAccountAddress,
  .getAddedNodeInfo, .getAddressesByAccount, .getBalance, .getBlock, .getBlockCount,
  .getBlockHash, .getBlockTemplate, .getConnectionCount, .getDifficulty, .getGenerate,
  .getHashesPerSec, .getInfo, .getMiningInfo, .getNewAddress, .getPeerInfo, .getRawMempool,
  .getRawTransaction, .getReceivedByAccount, .getReceivedByAddress, .getTransaction, .getTxOut,
  .getTxOutSetInfo, .getWork, .help, .importPrivKey, .keyPoolRefill, .listAccounts,
  .listAddressGroupings, .listLockUnspent, .listReceivedByAccount, .listReceivedByAddress,
  .listSinceBlock, .listTransactions, .listUnspent, .lockUnspent, .move, .sendFrom, .sendMany,
  .sendRawTransaction, .sendToAddress, .setAccount, .setGenerate, .setTxFee, .signMessage,
  .signRawTransaction, .stop, .submitBlock, .validateAddress, .verifyMessage]

/-- The name in words that are run together and begin with capitals. -/
def title : Method → String
  | .addMultiSigAddress => "AddMultiSigAddress"
  | .addNode => "AddNode"
  | .backupWallet => "BackupWallet"
  | .createMultiSig => "CreateMultiSig"
  | .createRawTransaction => "CreateRawTransaction"
  | .decodeRawTransaction => "DecodeRawTransaction"
  | .dumpPrivKey => "DumpPrivKey"
  | .encryptWallet => "EncryptWallet"
  | .getAccount => "GetAccount"
  | .getAccountAddress => "GetAccountAddress"
  | .getAddedNodeInfo => "GetAddedNodeInfo"
  | .getAddressesByAccount => "GetAddressesByAccount"
  | .getBalance => "GetBalance"
  | .getBlock => "GetBlock"
  | .getBlockCount => "GetBlockCount"
  | .getBlockHash => "GetBlockHash"
  | .getBlockTemplate => "GetBlockTemplate"
  | .getConnectionCount => "GetConnectionCount"
  | .getDifficulty => "GetDifficulty"
  | .getGenerate => "GetGenerate"
  | .getHashesPerSec => "GetHashesPerSec"
  | .getInfo => "GetInfo"
  | .getMiningInfo => "GetMiningInfo"
  | .getNewAddress => "GetNewAddress"
  | .getPeerInfo => "GetPeerInfo"
  | .getRawMempool => "GetRawMempool"
  | .getRawTransaction => "GetRawTransaction"
  | .getReceivedByAccount => "GetReceivedByAccount"
  | .getReceivedByAddress => "GetReceivedByAddress"
  | .getTransaction => "GetTransaction"
  | .getTxOut => "GetTxOut"
  | .getTxOutSetInfo => "GetTxOutSetInfo"
  | .getWork => "GetWork"
  | .help => "Help"
  | .importPrivKey => "ImportPrivKey"
  | .keyPoolRefill => "KeyPoolRefill"
  | .listAccounts => "ListAccounts"
  | .listAddressGroupings => "ListAddressGroupings"
  | .listLockUnspent => "ListLockUnspent"
  | .listReceivedByAccount => "ListReceivedByAccount"
  | .listReceivedByAddress => "ListReceivedByAddress"
  | .listSinceBlock => "ListSinceBlock"
  | .listTransactions => "ListTransactions"
  | .listUnspent => "ListUnspent"
  | .lockUnspent => "LockUnspent"
  | .move => "Move"
  | .sendFrom => "SendFrom"
  | .sendMany => "SendMany"
  | .sendRawTransaction => "SendRawTransaction"
  | .sendToAddress => "SendToAddress"
  | .setAccount => "SetAccount"
  | .setGenerate => "SetGenerate"
  | .setTxFee => "SetTxFee"
  | .signMessage => "SignMessage"
  | .signRawTransaction => "SignRawTransaction"
  | .stop => "Stop"
  | .submitBlock => "SubmitBlock"
  | .validateAddress => "ValidateAddress"
  | .verifyMessage => "VerifyMessage"

/-- The name in a request: the title in small letters. -/
def wireName : Method → String
  | .addMultiSigAddress => "addmultisigaddress"
  | .addNode => "addnode"
  | .backupWallet => "backupwallet"
  | .createMultiSig => "createmultisig"
  | .createRawTransaction => "createrawtransaction"
  | .decodeRawTransaction => "decoderawtransaction"
  | .dumpPrivKey => "dumpprivkey"
  | .encryptWallet => "encryptwallet"
  | .getAccount => "getaccount"
  | .getAccountAddress => "getaccountaddress"
  | .getAddedNodeInfo => "getaddednodeinfo"
  | .getAddressesByAccount => "getaddressesbyaccount"
  | .getBalance => "getbalance"
  | .getBlock => "getblock"
  | .getBlockCount => "getblockcount"
  | .getBlockHash => "getblockhash"
  | .getBlockTemplate => "getblocktemplate"
  | .getConnectionCount => "getconnectioncount"
  | .getDifficulty => "getdifficulty"
  | .getGenerate => "getgenerate"
  | .getHashesPerSec => "gethashespersec"
  | .getInfo => "getinfo"
  | .getMiningInfo => "getmininginfo"
  | .getNewAddress => "getnewaddress"
  | .getPeerInfo => "getpeerinfo"
  | .getRawMempool => "getrawmempool"
  | .getRawTransaction => "getrawtransaction"
  | .getReceivedByAccount => "getreceivedbyaccount"
  | .getReceivedByAddress => "getreceivedbyaddress"
  | .getTransaction => "gettransaction"
  | .getTxOut => "gettxout"
  | .getTxOutSetInfo => "gettxoutsetinfo"
  | .getWork => "getwork"
  | .help => "help"
  | .importPrivKey => "importprivkey"
  | .keyPoolRefill => "keypoolrefill"
  | .listAccounts => "listaccounts"
  | .listAddressGroupings => "listaddressgroupings"
  | .listLockUnspent => "listlockunspent"
  | .listReceivedByAccount => "listreceivedbyaccount"
  | .listReceivedByAddress => "listreceivedbyaddress"
  | .listSinceBlock => "listsinceblock"
  | .listTransactions => "listtransactions"
  | .listUnspent => "listunspent"
  | .lockUnspent => "lockunspent"
  | .move => "move"
  | .sendFrom => "sendfrom"
  | .sendMany => "sendmany"
  | .sendRawTransaction => "sendrawtransaction"
  | .sendToAddress => "sendtoaddress"
  | .setAccount => "setaccount"
  | .setGenerate => "setgenerate"
  | .setTxFee => "settxfee"
  | .signMessage => "signmessage"
  | .signRawTransaction => "signrawtransaction"
  | .stop => "stop"
  | .submitBlock => "submitblock"
  | .validateAddress => "validateaddress"
  | .verifyMessage => "verifymessage"

/-- Whether this library issues the method. -/
def supported : Method → Bool
  | .addMultiSigAddress | .addNode | .createMultiSig | .createRawTransaction
  | .decodeRawTransaction | .dumpPrivKey | .encryptWallet | .getAddedNodeInfo
  | .getBlockTemplate | .getRawTransaction | .getTxOut | .getWork | .importPrivKey
  | .listUnspent | .lockUnspent | .move | .sendFrom | .sendMany | .sendRawTransaction
  | .sendToAddress | .signMessage | .signRawTransaction | .submitBlock | .verifyMessage => false
  | _ => true

/-- The method of a name; the case of ASCII letters does not matter. -/
def ofName? (name : String) : Option Method :=
  all.find? fun m => m.wireName == name.toLower

/-- What is said of a name that no method has. -/
def unknownMessage (name : String) : String := "Unknown RPC method: " ++ name

theorem mem_all (m : Method) : m ∈ all := by cases m <;> decide

end Method

end DaemonRpc
