import Netclient.Proxy.Loop
import Netclient.Proxy.Metrics
import Netclient.Proxy.System
import Netclient.Proxy.Reset
import Netclient.Proxy.Overlap
import Netclient.Common.GoMap
import Netclient.Router.Manager
import Netclient.Router.Ops
import Netclient.Router.Panic
import Netclient.Router.Refresh
import Netclient.Router.Errors
import Netclient.Router.Interleave
import Netclient.Router.Keys
import Netclient.Router.Bookkeeping
import Netclient.Router.Balance
import Netclient.Router.Eval
import Netclient.Router.Match
import Netclient.Proxy.Liveness
import Netclient.Proxy.FreeIp
import Netclient.Functions.Pull
import Netclient.Functions.Cache
import Netclient.Router.JumpRules
import Netclient.Functions.Daemon
