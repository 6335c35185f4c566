import DaemonRpc.Cancellation.Tokens
import DaemonRpc.Cancellation.Wakeup
import DaemonRpc.Main
import DaemonRpc.Proofs.Cancellation.Waiters
import DaemonRpc.Proofs.Cancellation.Wakeup
import DaemonRpc.Proofs.Client.Accounts
import DaemonRpc.Proofs.Client.Arguments
import DaemonRpc.Proofs.Client.Balances
import DaemonRpc.Proofs.Client.ByName
import DaemonRpc.Proofs.Client.Cancellation
import DaemonRpc.Proofs.Client.States
import DaemonRpc.Proofs.Client.Withheld
import DaemonRpc.Proofs.CommandLine.Lossless
import DaemonRpc.Proofs.CommandLine.Stop
import DaemonRpc.Proofs.Endpoint.Exact
import DaemonRpc.Proofs.Process.Grace
import DaemonRpc.Proofs.Process.LaunchConfig
import DaemonRpc.Proofs.Process.Supervision
import DaemonRpc.Proofs.Result.Documented
import DaemonRpc.Proofs.Result.RoundTrip
import DaemonRpc.Proofs.Rpc.Request
import DaemonRpc.Proofs.Rpc.Verbatim
import DaemonRpc.Rpc.ErrorText
