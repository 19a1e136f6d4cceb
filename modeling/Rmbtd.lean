import Rmbtd.Library.Text
import Rmbtd.Library.Utf8
import Rmbtd.Library.Decimal
import Rmbtd.Library.Base64
import Rmbtd.Library.Json
import Rmbtd.Library.Effect
import Rmbtd.Library.Transition
import Rmbtd.Library.Transcript
import Rmbtd.Library.Reader
import Rmbtd.Library.Fuel
import Rmbtd.Library.TwoRuns
import Rmbtd.Library.Queues
import Rmbtd.Library.RoundRobin
import Rmbtd.Library.Collect
import Rmbtd.Library.Commuting
import Rmbtd.Net.IpAddr
import Rmbtd.Net.AddrParser
import Rmbtd.Config.Constants
import Rmbtd.Config.Config
import Rmbtd.Logger
import Rmbtd.Protocol.Token
import Rmbtd.Protocol.TokenFormat
import Rmbtd.Protocol.Validation
import Rmbtd.Protocol.TokenTime
import Rmbtd.Protocol.Agreement
import Rmbtd.IpCheck.Uuid
import Rmbtd.IpCheck.Response
import Rmbtd.IpCheck.Signing
import Rmbtd.IpCheck.Binding
import Rmbtd.IpCheck.KeyOrder
import Rmbtd.IpCheck.DualStack
import Rmbtd.Stream.Basic
import Rmbtd.Stream.Messages
import Rmbtd.Stream.LineContract
import Rmbtd.Stream.Script
import Rmbtd.Events
import Rmbtd.EventBody
import Rmbtd.Session
import Rmbtd.Protocol.Commands
import Rmbtd.Protocol.Greeting
import Rmbtd.Server.Connection
import Rmbtd.Server.Anonymise
import Rmbtd.Protocol.Simulation
import Rmbtd.Protocol.Rules
import Rmbtd.Protocol.Gate
import Rmbtd.Protocol.Refusal
import Rmbtd.Server.Disconnect
import Rmbtd.Protocol.Upload
import Rmbtd.Protocol.Transports
import Rmbtd.Protocol.ChunkSize
import Rmbtd.Protocol.Conversation
import Rmbtd.Protocol.Account
import Rmbtd.Protocol.Framing
import Rmbtd.Protocol.Feedback
import Rmbtd.Server.AcceptLoop
import Rmbtd.Server.ConnIds
import Rmbtd.Config.Parser
import Rmbtd.Config.KeyFile
import Rmbtd.Config.CommandLine
import Rmbtd.Server.Startup
import Rmbtd.Server.Ledger
import Rmbtd.Server.RoundRobin
import Rmbtd.Server.WorkerLoop
import Rmbtd.Server.WorkerRuns
import Rmbtd.Server.Shutdown
import Rmbtd.Server.Process
import Rmbtd.Library.Http
import Rmbtd.Stream.Transport
import Rmbtd.IpCheck.Handle
import Rmbtd.IpCheck.ResponseSplitting
import Rmbtd.IpCheck.Answer
import Rmbtd.Stream.Segmented
import Rmbtd.IpCheck.OnTransport
import Rmbtd.Version
import Rmbtd.Stream.Upgrade
import Rmbtd.Stream.OnStreams
import Rmbtd.Stream.HeadReader
import Rmbtd.Stream.Responses
import Rmbtd.Stream.UpgradeHeader
import Rmbtd.Stream.UpgradeSimulation
import Rmbtd.Server.Handler
import Rmbtd.LogText
import Rmbtd.Stream.ErrorText
import Rmbtd.Protocol.LogRules
import Rmbtd.Server.LogLines
import Rmbtd.Server.ForgedLines
import Rmbtd.Server.SinkEvents
import Rmbtd.Protocol.Termination
import Rmbtd.Server.EventTrail
import Rmbtd.Protocol.Disclosure
import Rmbtd.Server.Alike
import Rmbtd.Server.Privacy
import Rmbtd.Server.GreetingCourse
import Rmbtd.Server.Syslog
import Rmbtd.Server.Collector
import Rmbtd.Server.Wire
