import LiveSync.Broadcast
import LiveSync.Client.Basic
import LiveSync.Client.Build
import LiveSync.Client.Step
import LiveSync.Config.Basic
import LiveSync.Config.Check
import LiveSync.Config.Read
import LiveSync.Connection.Attempt
import LiveSync.Connection.Backoff
import LiveSync.Connection.Link
import LiveSync.Connection.Machine
import LiveSync.Connection.Manager
import LiveSync.Connection.Socket
import LiveSync.Connection.Status
import LiveSync.Engine.Basic
import LiveSync.Engine.Cache
import LiveSync.Engine.Interests
import LiveSync.Engine.Notice
import LiveSync.Engine.Turns
import LiveSync.Entity.Entry
import LiveSync.Entity.Topic
import LiveSync.Entity.Validator
import LiveSync.Event
import LiveSync.Failure
import LiveSync.Game.Action
import LiveSync.Game.View
import LiveSync.Host
import LiveSync.Http.Api
import LiveSync.Http.Message
import LiveSync.Http.Problem
import LiveSync.Http.Status
import LiveSync.Json.Basic
import LiveSync.Json.Numeral
import LiveSync.Json.Pointer
import LiveSync.Json.Reader
import LiveSync.Json.Shape
import LiveSync.Json.Writer
import LiveSync.Number.Binary64
import LiveSync.Number.Shortest
import LiveSync.Number.Word
import LiveSync.Receipt
import LiveSync.Rehearsal.Basic
import LiveSync.Rehearsal.Scene
import LiveSync.Rehearsal.Settle
import LiveSync.RequestId
import LiveSync.Sync.Coordinator
import LiveSync.Sync.Refresh
import LiveSync.Table
import LiveSync.Text.Blank
import LiveSync.Text.Decimal
import LiveSync.Time.Duration
import LiveSync.Time.Instant
import LiveSync.Update
import LiveSync.Url.Address
import LiveSync.Url.Basic
import LiveSync.Url.Domain
import LiveSync.Url.Host
import LiveSync.Url.Percent
import LiveSync.Url.Punycode
import LiveSync.Wire.Codec
import LiveSync.Wire.Frame
import LiveSync.Yaml.Node
import LiveSync.Yaml.Number
import LiveSync.Yaml.Property
import LiveSync.Yaml.Scalar
import LiveSync.Yaml.Text
import LiveSync.Yaml.Token
import LiveSync.Proofs.Cache.Run
import LiveSync.Proofs.Cache.Soundness
import LiveSync.Proofs.Cache.Newest
import LiveSync.Proofs.Connection.Standing
import LiveSync.Proofs.Sync.FailedCommand
import LiveSync.Proofs.Sync.Gates
import LiveSync.Proofs.Sync.Desk
import LiveSync.Proofs.Sync.LostEcho
import LiveSync.Proofs.Client.Commands
import LiveSync.Proofs.Connection.Course
import LiveSync.Proofs.Connection.Discipline
import LiveSync.Proofs.Connection.Isolation
import LiveSync.Proofs.Connection.Outcomes
import LiveSync.Proofs.Connection.GivenUp
import LiveSync.Proofs.Connection.Budget
import LiveSync.Proofs.Connection.Topics
import LiveSync.Proofs.Connection.Reports
import LiveSync.Proofs.Manager.Attendance
import LiveSync.Proofs.Manager.Service
import LiveSync.Proofs.Manager.Run
import LiveSync.Proofs.Manager.Resources
import LiveSync.Proofs.Manager.Published
import LiveSync.Proofs.Manager.Inbound
import LiveSync.Proofs.Manager.Exchange
import LiveSync.Proofs.Link.Answers
import LiveSync.Proofs.Link.Subscriptions
import LiveSync.Proofs.Link.WireOrder
import LiveSync.Proofs.Turns.Run
import LiveSync.Proofs.Turns.Memory
import LiveSync.Proofs.Turns.Edges
import LiveSync.Proofs.Turns.Hints
import LiveSync.Proofs.Turns.Newcomers
import LiveSync.Proofs.Sync.Latch
import LiveSync.Proofs.Cache.Told
import LiveSync.Proofs.Turns.Sentry
import LiveSync.Proofs.Turns.Speculation
import LiveSync.Proofs.Broadcast.Unread
import LiveSync.Proofs.Turns.Patrol
import LiveSync.Proofs.Json.Leaves
import LiveSync.Proofs.Json.Members
import LiveSync.Proofs.Json.RoundTrip
import LiveSync.Proofs.Wire.RoundTrip
import LiveSync.Proofs.Wire.Dialects
import LiveSync.Proofs.Cache.Log
import LiveSync.Proofs.Entity.Validator
import LiveSync.Proofs.Sync.Dispatch
import LiveSync.Proofs.Turns.Silence
import LiveSync.Proofs.Link.Closing
import LiveSync.Proofs.Client.Owners
import LiveSync.Proofs.Client.Account
import LiveSync.Proofs.Client.LetGo
import LiveSync.Proofs.Connection.HostGate
import LiveSync.Proofs.Cache.Layers
import LiveSync.Proofs.Http.Snapshot
import LiveSync.Proofs.Link.Inputs
import LiveSync.Proofs.Client.Moments
import LiveSync.Proofs.Client.HostNews
import LiveSync.Proofs.Client.Holders
import LiveSync.Proofs.Client.Fetches
import LiveSync.Proofs.Client.Resync
import LiveSync.Proofs.Client.Watchdogs
import LiveSync.Proofs.Engine.Notice
import LiveSync.Proofs.Entity.Grammar
import LiveSync.Proofs.Game.Speculation
import LiveSync.Proofs.Connection.Lives
import LiveSync.Proofs.Link.Lines
import LiveSync.Proofs.Link.Endings
