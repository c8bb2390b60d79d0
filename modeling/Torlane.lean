import Torlane.Transition
import Torlane.Potential
import Torlane.Table
import Torlane.Rotation
import Torlane.Dialogue
import Torlane.Calls
import Torlane.UnixPath
import Torlane.Text
import Torlane.Framing
import Torlane.Hex
import Torlane.Radix
import Torlane.Url
import Torlane.Utf8
import Torlane.Net
import Torlane.Net.Parser
import Torlane.Net.RoundTrip
import Torlane.Net.Shape
import Torlane.Version
import Torlane.Pool.Config
import Torlane.Pool.Lane
import Torlane.IdentityPool
import Torlane.Pool.Select
import Torlane.Pool.Manager
import Torlane.Pool.System
import Torlane.Pool.LaneMoves
import Torlane.Pool.Moves
import Torlane.Pool.Sequential
import Torlane.Pool.Exclusion
import Torlane.Pool.Epochs
import Torlane.Pool.Shutdown
import Torlane.Pool.Convergence
import Torlane.Pool.RoundRobin
import Torlane.Pool.Accounting
import Torlane.Pool.Responses
import Torlane.Pool.Completion
import Torlane.Pool.Work
import Torlane.Pool.Progress
import Torlane.Pool.Expiry
import Torlane.Pool.Service
import Torlane.Pool.Generations
import Torlane.Pool.Identity
import Torlane.Pool.SocksUrl
import Torlane.Pool.Restart
import Torlane.Pool.Outcomes
import Torlane.Controller.Codec
import Torlane.Controller.RoundTrip
import Torlane.Controller.Truncation
import Torlane.Controller.Grammar
import Torlane.Controller.Client
import Torlane.Controller.Exchange
import Torlane.Controller.Progress
import Torlane.Controller.Words
import Torlane.Controller.Session
import Torlane.Controller.ProtocolInfo
import Torlane.Controller.Auth
import Torlane.Controller.Challenge
import Torlane.Controller.Handshake
import Torlane.Controller.Bootstrap
import Torlane.Controller.Listeners
import Torlane.Controller.PortFile
import Torlane.Torc.Policy
import Torlane.Torc.Config
import Torlane.Torc.Validation
import Torlane.Torc.Render
import Torlane.Torc.Lines
import Torlane.Torc.Settings
import Torlane.Torc.BridgeLines
import Torlane.Torc.ListenerLines
import Torlane.Torc.Values
import Torlane.Torc.Obfs4
import Torlane.Torc.RawOptions
import Torlane.Torc.Tables
import Torlane.Torc.ReadBack
import Torlane.Instance.RuntimeConfig
import Torlane.Process.System
import Torlane.Process.TorProcess
import Torlane.Process.Verify
import Torlane.Process.Drain
import Torlane.Process.Transcript
import Torlane.Process.DrainProgress
import Torlane.Process.RuntimeValidation
import Torlane.Process.Machine
import Torlane.Process.ConfigFile
import Torlane.Process.Ownership
import Torlane.Instance.Startup
import Torlane.Instance.Lifecycle
import Torlane.Instance.Delivery
import Torlane.Controller.Server
import Torlane.Instance.Dialog
import Torlane.Process.Transcript
import Torlane.Process.DrainProgress
