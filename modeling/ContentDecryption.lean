import ContentDecryption.Argument
import ContentDecryption.Boundary.Buffer
import ContentDecryption.Boundary.Call
import ContentDecryption.Boundary.SessionCall
import ContentDecryption.Boundary.SystemCall
import ContentDecryption.Bytes
import ContentDecryption.Callback.Bridge
import ContentDecryption.Callback.Event
import ContentDecryption.Caps
import ContentDecryption.Channel.Endpoint
import ContentDecryption.Channel.Handshake
import ContentDecryption.Channel.Header
import ContentDecryption.Channel.Layout
import ContentDecryption.Client.Action
import ContentDecryption.Client.Connection
import ContentDecryption.Client.Journal
import ContentDecryption.Client.KeyLedger
import ContentDecryption.Client.KeySignal
import ContentDecryption.Client.KeySystem
import ContentDecryption.Client.Lifetime
import ContentDecryption.Client.Notice
import ContentDecryption.Client.Playback
import ContentDecryption.Client.SessionTable
import ContentDecryption.Client.Transform
import ContentDecryption.Client.World
import ContentDecryption.Digest
import ContentDecryption.Error
import ContentDecryption.IdSource
import ContentDecryption.Json.Quoted
import ContentDecryption.Json.Token
import ContentDecryption.Json.Value
import ContentDecryption.License
import ContentDecryption.Loopback.Cipher
import ContentDecryption.Loopback.Engine
import ContentDecryption.Loopback.Store
import ContentDecryption.Sample.Info
import ContentDecryption.Sample.KeyId
import ContentDecryption.Sample.KeyStatus
import ContentDecryption.Sample.Media
import ContentDecryption.Sample.Scheme
import ContentDecryption.Scripted.Engine
import ContentDecryption.Service.Basic
import ContentDecryption.Service.Request
import ContentDecryption.Settings
import ContentDecryption.SharedMemory.Extent
import ContentDecryption.SharedMemory.Namespace
import ContentDecryption.SharedMemory.Object
import ContentDecryption.Subsample.Gather
import ContentDecryption.Subsample.Map
import ContentDecryption.SystemError
import ContentDecryption.Text.Blank
import ContentDecryption.Text.Hidden
import ContentDecryption.Text.Quoted
import ContentDecryption.Proofs.Entries
import ContentDecryption.Proofs.Channel.Moves
import ContentDecryption.Proofs.Channel.Traffic
import ContentDecryption.Proofs.Channel.Ownership
import ContentDecryption.Proofs.Channel.Callers
import ContentDecryption.Proofs.Channel.Record
import ContentDecryption.Proofs.Channel.Written
import ContentDecryption.Proofs.Channel.Order
import ContentDecryption.Proofs.Channel.Agreement
import ContentDecryption.Proofs.Channel.Progress
import ContentDecryption.Proofs.Channel.Discard
import ContentDecryption.Proofs.Channel.Exchange
import ContentDecryption.Proofs.Channel.Network
import ContentDecryption.Proofs.Channel.Names
import ContentDecryption.Proofs.Channel.Program
import ContentDecryption.Proofs.Channel.Access
import ContentDecryption.Proofs.Loopback.Regions
import ContentDecryption.Proofs.Client.Reception
import ContentDecryption.Proofs.Client.Changes
import ContentDecryption.Proofs.Loopback.Channels
import ContentDecryption.Proofs.Loopback.Wiring
import ContentDecryption.Proofs.Loopback.Reach
import ContentDecryption.Proofs.Loopback.Decrypt
import ContentDecryption.Proofs.Boundary.Calls
import ContentDecryption.Proofs.Boundary.Samples
import ContentDecryption.Proofs.Boundary.Listing
import ContentDecryption.Proofs.Boundary.Handout
import ContentDecryption.Proofs.Boundary.Statuses
import ContentDecryption.Proofs.Sample.KeyClasses
import ContentDecryption.Proofs.Caps.Fields
import ContentDecryption.Proofs.Caps.History
import ContentDecryption.Proofs.Loopback.Routes
import ContentDecryption.Proofs.Loopback.Licenses
import ContentDecryption.Proofs.Loopback.StopCalls
import ContentDecryption.Proofs.Loopback.Stops
import ContentDecryption.Proofs.Subsample.Passes
import ContentDecryption.Proofs.Subsample.Reading
import ContentDecryption.Proofs.Subsample.Walks
import ContentDecryption.Proofs.Subsample.Cursor
import ContentDecryption.Proofs.Subsample.Runs
import ContentDecryption.Proofs.Subsample.Lens
import ContentDecryption.Proofs.Loopback.Gathered
import ContentDecryption.Proofs.Client.Tables
import ContentDecryption.Proofs.Client.Owners
import ContentDecryption.Proofs.Client.Vigil
import ContentDecryption.Proofs.Client.Custody
import ContentDecryption.Proofs.Client.Estate
import ContentDecryption.Proofs.Client.Tenure
import ContentDecryption.Proofs.Client.Handover
import ContentDecryption.Proofs.Boundary.Construction
import ContentDecryption.Proofs.Client.Revocation
import ContentDecryption.Proofs.Client.Wakeup
import ContentDecryption.Proofs.Client.Look
import ContentDecryption.Proofs.Callback.Release
import ContentDecryption.Proofs.Channel.Attempt
import ContentDecryption.Proofs.Channel.Failure
import ContentDecryption.Proofs.Channel.Statuses
import ContentDecryption.Proofs.Client.Reports
import ContentDecryption.Proofs.Client.Bridges
import ContentDecryption.Proofs.License
import ContentDecryption.Proofs.Loopback.Update
import ContentDecryption.Proofs.Loopback.Precedence
