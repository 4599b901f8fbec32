import NodeHealth.Backoff
import NodeHealth.Bench.Basic
import NodeHealth.Bench.Perform
import NodeHealth.Bench.Script
import NodeHealth.Bench.Trial
import NodeHealth.Bench.Waiting
import NodeHealth.Bytes
import NodeHealth.Cnode.Client
import NodeHealth.Cnode.Mock
import NodeHealth.CommandLine.Arguments
import NodeHealth.CommandLine.Program
import NodeHealth.Config.Basic
import NodeHealth.Config.Document
import NodeHealth.Config.Environment
import NodeHealth.Config.File
import NodeHealth.FileTree
import NodeHealth.Health.Probe
import NodeHealth.Health.Server
import NodeHealth.IoFailure
import NodeHealth.Main
import NodeHealth.Message.Field
import NodeHealth.Message.Health
import NodeHealth.Message.NodeType
import NodeHealth.Message.Registration
import NodeHealth.Net.Address
import NodeHealth.Net.Dial
import NodeHealth.Net.Link
import NodeHealth.Net.Network
import NodeHealth.Net.Outlet
import NodeHealth.Proofs.Backoff
import NodeHealth.Proofs.Cnode.Answers
import NodeHealth.Proofs.Cnode.Conversation
import NodeHealth.Proofs.Cnode.Lifecycle
import NodeHealth.Proofs.Cnode.Progress
import NodeHealth.Proofs.Cnode.Quiescence
import NodeHealth.Proofs.Cnode.Run
import NodeHealth.Proofs.Cnode.Schedule
import NodeHealth.Proofs.Cnode.Stop
import NodeHealth.Proofs.Cnode.Turn
import NodeHealth.Proofs.CommandLine.Startup
import NodeHealth.Proofs.Config.Document
import NodeHealth.Proofs.Config.Fields
import NodeHealth.Proofs.Config.Overlay
import NodeHealth.Proofs.Config.Partial
import NodeHealth.Proofs.Config.RoundTrip
import NodeHealth.Proofs.FileTree
import NodeHealth.Proofs.Health.Closing
import NodeHealth.Proofs.Health.Conversation
import NodeHealth.Proofs.Health.Dismissed
import NodeHealth.Proofs.Health.Listening
import NodeHealth.Proofs.Health.Calls
import NodeHealth.Proofs.Health.Prompt
import NodeHealth.Proofs.Health.Run
import NodeHealth.Proofs.Health.Turn
import NodeHealth.Proofs.Message.Request
import NodeHealth.Proofs.Message.Response
import NodeHealth.Proofs.Mock.Absence
import NodeHealth.Proofs.Mock.Agreement
import NodeHealth.Proofs.Mock.Desertion
import NodeHealth.Proofs.Mock.Ending
import NodeHealth.Proofs.Mock.Interview
import NodeHealth.Proofs.Mock.Meeting
import NodeHealth.Proofs.Mock.Outcome
import NodeHealth.Proofs.Mock.Stages
import NodeHealth.Proofs.Mock.Turn
import NodeHealth.Proofs.Mock.Verdict
import NodeHealth.Proofs.Net.Acts
import NodeHealth.Proofs.Net.Dial
import NodeHealth.Proofs.Net.Others
import NodeHealth.Proofs.Net.Script
import NodeHealth.Proofs.Probe.Outcome
import NodeHealth.Proofs.Probe.Run
import NodeHealth.Proofs.Probe.Standing
import NodeHealth.Proofs.Probe.Timing
import NodeHealth.Proofs.Probe.Turn
import NodeHealth.Proofs.Registration.Outcome
import NodeHealth.Proofs.Registration.Run
import NodeHealth.Proofs.Registration.Turn
import NodeHealth.Proofs.Session.Accounting
import NodeHealth.Proofs.Session.Readiness
import NodeHealth.Proofs.Session.Scripted
import NodeHealth.Proofs.Session.Transparency
import NodeHealth.Proofs.Sidecar.Group
import NodeHealth.Proofs.Sidecar.Lifecycle
import NodeHealth.Proofs.Text.Decimal
import NodeHealth.Proofs.Text.Utf8
import NodeHealth.Proofs.Toml.Build
import NodeHealth.Proofs.Toml.Number
import NodeHealth.Proofs.Toml.Path
import NodeHealth.Proofs.Toml.Quoted
import NodeHealth.Proofs.Toml.Section
import NodeHealth.Proofs.Wire.Decoding
import NodeHealth.Proofs.Wire.Reader
import NodeHealth.Proofs.Wire.Series
import NodeHealth.Proofs.Wire.Shortest
import NodeHealth.Proofs.Wire.Stream
import NodeHealth.Proofs.Wire.Varint
import NodeHealth.Proofs.Wire.Writing
import NodeHealth.Registration
import NodeHealth.RunningFlag
import NodeHealth.Session
import NodeHealth.Session.Call
import NodeHealth.Sidecar
import NodeHealth.Text.Blank
import NodeHealth.Text.Numeral
import NodeHealth.Text.Utf8
import NodeHealth.Toml.DateTime
import NodeHealth.Toml.Document
import NodeHealth.Toml.Number
import NodeHealth.Toml.Quoted
import NodeHealth.Toml.Section
import NodeHealth.Toml.Value
import NodeHealth.Wire.Error
import NodeHealth.Wire.Frame
import NodeHealth.Wire.Reader
import NodeHealth.Wire.Stream
import NodeHealth.Wire.Varint
import NodeHealth.World
