import EidMap.Address.Basic
import EidMap.Address.Display
import EidMap.Address.Parse
import EidMap.Address.Wire
import EidMap.Cli.Arguments
import EidMap.Cli.Error
import EidMap.Cli.Options
import EidMap.Cli.Parameter
import EidMap.Cli.Requests
import EidMap.Cli.Run
import EidMap.Cli.Settings
import EidMap.Cli.Setup
import EidMap.Cli.World
import EidMap.Command
import EidMap.Config.Basic
import EidMap.Config.Environment
import EidMap.Config.File
import EidMap.Config.Listing
import EidMap.Config.Settings
import EidMap.Instant
import EidMap.Ip.V4
import EidMap.Ip.V6
import EidMap.Json.Basic
import EidMap.Json.Decode
import EidMap.Json.Doc
import EidMap.Json.Fault
import EidMap.Json.Lexeme
import EidMap.Json.Parts
import EidMap.Json.Text
import EidMap.Locator
import EidMap.Main
import EidMap.Mapping
import EidMap.Number.Double
import EidMap.Output.Format
import EidMap.Output.Grid
import EidMap.Output.Rows
import EidMap.Proofs.Address.Canonical
import EidMap.Proofs.Address.Display
import EidMap.Proofs.Address.Masks
import EidMap.Proofs.Address.Ordering
import EidMap.Proofs.Address.Payload
import EidMap.Proofs.Address.Position
import EidMap.Proofs.Address.Reading
import EidMap.Proofs.Address.Rejection
import EidMap.Proofs.Address.RoundTrip
import EidMap.Proofs.Address.Simple
import EidMap.Proofs.Address.Spelling
import EidMap.Proofs.Cli.Credentials
import EidMap.Proofs.Cli.Disclosure
import EidMap.Proofs.Cli.ExitStatus
import EidMap.Proofs.Cli.Lockstep
import EidMap.Proofs.Cli.Notice
import EidMap.Proofs.Cli.Precedence
import EidMap.Proofs.Cli.RequestFile
import EidMap.Proofs.Cli.Secrecy
import EidMap.Proofs.Cli.Setup
import EidMap.Proofs.Cli.Usage
import EidMap.Proofs.Config.Loading
import EidMap.Proofs.Config.Reading
import EidMap.Proofs.Instant.Calendar
import EidMap.Proofs.Instant.Text
import EidMap.Proofs.Ip.V4
import EidMap.Proofs.Ip.V6
import EidMap.Proofs.Json.Forms
import EidMap.Proofs.Json.Masking
import EidMap.Proofs.Json.Member
import EidMap.Proofs.Json.Order
import EidMap.Proofs.Json.Record
import EidMap.Proofs.Json.Reordering
import EidMap.Proofs.Json.Text
import EidMap.Proofs.Json.Value
import EidMap.Proofs.Json.Written
import EidMap.Proofs.Mapping.Primary
import EidMap.Proofs.Mapping.RoundTrip
import EidMap.Proofs.Paired
import EidMap.Proofs.Rpc.Calls
import EidMap.Proofs.Rpc.Exchange
import EidMap.Proofs.Rpc.Fetches
import EidMap.Proofs.Rpc.Location
import EidMap.Proofs.Rpc.Outcome
import EidMap.Proofs.Rpc.Place
import EidMap.Proofs.Rpc.Refusal
import EidMap.Proofs.Rpc.Removal
import EidMap.Proofs.Rpc.Resource
import EidMap.Proofs.Service.Addressing
import EidMap.Proofs.Service.Deletion
import EidMap.Proofs.Service.Execution
import EidMap.Proofs.Service.Interleaving
import EidMap.Proofs.Service.Likeness
import EidMap.Proofs.Service.Lockstep
import EidMap.Proofs.Service.Missing
import EidMap.Proofs.Service.Overlap
import EidMap.Proofs.Service.Posting
import EidMap.Proofs.Service.Refresh
import EidMap.Proofs.Service.Refusal
import EidMap.Proofs.Service.Session
import EidMap.Proofs.Service.Shelf
import EidMap.Proofs.Service.Tables
import EidMap.Proofs.Service.Trace
import EidMap.Proofs.Stored.Blindness
import EidMap.Proofs.Stored.Echo
import EidMap.Proofs.Stored.Entries
import EidMap.Proofs.Stored.Rewriting
import EidMap.Proofs.Stored.RoundTrip
import EidMap.Proofs.Table.Changes
import EidMap.Proofs.Table.Freshness
import EidMap.Proofs.Table.Panels
import EidMap.Proofs.Text.Cut
import EidMap.Proofs.Text.Numeral
import EidMap.Proofs.Toml.Document
import EidMap.Proofs.Toml.Merge
import EidMap.Proofs.Toml.Quoted
import EidMap.Proofs.Url.Authority
import EidMap.Proofs.Url.Host
import EidMap.Proofs.Url.Name
import EidMap.Proofs.Url.Normal
import EidMap.Proofs.Url.Path
import EidMap.Proofs.Url.Percent
import EidMap.Rpc.Client
import EidMap.Rpc.Error
import EidMap.Rpc.Network
import EidMap.Rpc.Operation
import EidMap.Rpc.Reason
import EidMap.Service.Basic
import EidMap.Service.Call
import EidMap.Service.Error
import EidMap.Service.Settings
import EidMap.Stored.Record
import EidMap.Table.Status
import EidMap.Table.View
import EidMap.Text.Cut
import EidMap.Text.Numeral
import EidMap.Text.Quoted
import EidMap.Text.Width
import EidMap.Toml.Basic
import EidMap.Toml.Lexeme
import EidMap.Toml.Printer
import EidMap.Toml.Reader
import EidMap.Url.Basic
import EidMap.Url.Domain
import EidMap.Url.Host
import EidMap.Url.Percent
import EidMap.Yaml
