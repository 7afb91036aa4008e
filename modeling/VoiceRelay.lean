import VoiceRelay.Chat.Envelope
import VoiceRelay.Chat.Message
import VoiceRelay.Chat.Packet
import VoiceRelay.Chat.SubscriberId
import VoiceRelay.Disk.Tree
import VoiceRelay.Http.Date
import VoiceRelay.Http.Files
import VoiceRelay.Http.MediaType
import VoiceRelay.Http.Range
import VoiceRelay.Http.Reply
import VoiceRelay.Http.Target
import VoiceRelay.Hub.Basic
import VoiceRelay.Hub.Endpoint
import VoiceRelay.Journal.Calendar
import VoiceRelay.Journal.Writer
import VoiceRelay.Json.Decoder
import VoiceRelay.Json.Event
import VoiceRelay.Json.Number
import VoiceRelay.Json.Value
import VoiceRelay.Main
import VoiceRelay.Observe.Exposition
import VoiceRelay.Observe.FieldTest
import VoiceRelay.Observe.Health
import VoiceRelay.Observe.LogFilter
import VoiceRelay.Observe.LogLevel
import VoiceRelay.Observe.Meters
import VoiceRelay.Observe.Pattern
import VoiceRelay.Observe.Watch
import VoiceRelay.Query.Client
import VoiceRelay.Query.Credentials
import VoiceRelay.Query.Escape
import VoiceRelay.Query.EventStream
import VoiceRelay.Query.Fault
import VoiceRelay.Query.Line
import VoiceRelay.Query.Link
import VoiceRelay.Query.Notice
import VoiceRelay.Query.Peer
import VoiceRelay.Query.Poller
import VoiceRelay.Query.Reconnect
import VoiceRelay.Query.Record
import VoiceRelay.Query.Roster
import VoiceRelay.Query.Schedule
import VoiceRelay.Server.Address
import VoiceRelay.Server.ClientTimes
import VoiceRelay.Server.Launch
import VoiceRelay.Server.Motto
import VoiceRelay.Server.Parts
import VoiceRelay.Server.Program
import VoiceRelay.Server.Settings
import VoiceRelay.Server.SettingsFile
import VoiceRelay.Server.Startup
import VoiceRelay.Server.Web
import VoiceRelay.Shell.Expansion
import VoiceRelay.Shell.Format
import VoiceRelay.Shell.Glob
import VoiceRelay.Shell.Machine
import VoiceRelay.Shell.Numeral
import VoiceRelay.Shell.Octet
import VoiceRelay.Shell.Reader
import VoiceRelay.Shell.Run
import VoiceRelay.Shell.Sum
import VoiceRelay.Shell.Syntax
import VoiceRelay.Shell.Tools
import VoiceRelay.Text.Binary64
import VoiceRelay.Text.Blank
import VoiceRelay.Text.Decimal
import VoiceRelay.Text.Fraction
import VoiceRelay.Text.Letter
import VoiceRelay.Text.Quoted
import VoiceRelay.Text.Shape
import VoiceRelay.Text.Utf8
import VoiceRelay.Toml.Document
import VoiceRelay.Toml.Quotation
import VoiceRelay.Toml.Scalar
import VoiceRelay.Toml.Table
import VoiceRelay.Proofs.Hearing
import VoiceRelay.Proofs.Dialogue
import VoiceRelay.Proofs.Commands
import VoiceRelay.Proofs.SharedConnection
import VoiceRelay.Proofs.Callers
import VoiceRelay.Proofs.FanOut
import VoiceRelay.Proofs.SteadyReading
import VoiceRelay.Proofs.ChatRelay
import VoiceRelay.Proofs.LineCuts
import VoiceRelay.Proofs.Clock
import VoiceRelay.Proofs.InTurn
import VoiceRelay.Proofs.Interleaving
import VoiceRelay.Proofs.ChatCalls
import VoiceRelay.Proofs.Isolation
import VoiceRelay.Proofs.CallSteps
import VoiceRelay.Proofs.Dispatch
import VoiceRelay.Proofs.SinkLifecycle
import VoiceRelay.Proofs.HubAccounts
import VoiceRelay.Proofs.StreamStates
import VoiceRelay.Proofs.HandshakeReplay
import VoiceRelay.Proofs.Attempts
import VoiceRelay.Proofs.Stalling
import VoiceRelay.Proofs.Secrecy
import VoiceRelay.Proofs.JsonText
import VoiceRelay.Proofs.JsonReading
import VoiceRelay.Proofs.PushFormat
import VoiceRelay.Proofs.RecordLines
import VoiceRelay.Proofs.ReplyLines
import VoiceRelay.Proofs.CommandReplies
import VoiceRelay.Proofs.BrowserConnection
import VoiceRelay.Proofs.HubShutdown
import VoiceRelay.Proofs.EscapedForm
import VoiceRelay.Proofs.ChatWords
import VoiceRelay.Proofs.Searching
import VoiceRelay.Proofs.ServerChat
import VoiceRelay.Proofs.JsonNumerals
import VoiceRelay.Proofs.ChatSpellings
import VoiceRelay.Proofs.DamagedValue
import VoiceRelay.Proofs.RosterJoin
import VoiceRelay.Proofs.Arrivals
import VoiceRelay.Proofs.CommandDeadline
import VoiceRelay.Proofs.RefusedWrite
import VoiceRelay.Proofs.Keepalives
import VoiceRelay.Proofs.CommandLines
import VoiceRelay.Proofs.PollAccounts
import VoiceRelay.Proofs.ForwardedChat
import VoiceRelay.Proofs.Wakings
import VoiceRelay.Proofs.Reconnecting
import VoiceRelay.Proofs.Heartbeats
import VoiceRelay.Proofs.StreamHealth
import VoiceRelay.Proofs.CivilDays
import VoiceRelay.Proofs.TimeStamps
import VoiceRelay.Proofs.JournalRecords
import VoiceRelay.Proofs.DialPace
import VoiceRelay.Proofs.AcceptedSettings
import VoiceRelay.Proofs.Numerals
import VoiceRelay.Proofs.PrintedTimes
import VoiceRelay.Proofs.NumberFields
import VoiceRelay.Proofs.AskedTimes
import VoiceRelay.Proofs.ScriptTime
import VoiceRelay.Proofs.ServedFiles
