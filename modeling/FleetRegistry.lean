import FleetRegistry.Client.Action
import FleetRegistry.Client.Config
import FleetRegistry.Client.Listing
import FleetRegistry.Client.StandIn
import FleetRegistry.Cluster.Basic
import FleetRegistry.Cluster.Rules
import FleetRegistry.Collection.StringMap
import FleetRegistry.Collection.StringSet
import FleetRegistry.Command.Arguments
import FleetRegistry.Command.Basic
import FleetRegistry.Command.Run
import FleetRegistry.DnsRecord.Basic
import FleetRegistry.DnsRecord.Rules
import FleetRegistry.Error
import FleetRegistry.Field.Error
import FleetRegistry.Field.Path
import FleetRegistry.Json.Basic
import FleetRegistry.Json.Canonical
import FleetRegistry.Json.Decode
import FleetRegistry.Json.Outline
import FleetRegistry.Json.Parser
import FleetRegistry.Json.Pointer
import FleetRegistry.Json.Printer
import FleetRegistry.Main
import FleetRegistry.Metrics.Basic
import FleetRegistry.Metrics.Text
import FleetRegistry.Name.Cidr
import FleetRegistry.Name.Rule
import FleetRegistry.Number.Binary64
import FleetRegistry.Number.Shortest
import FleetRegistry.Object.Basic
import FleetRegistry.Object.Generated
import FleetRegistry.Object.Kind
import FleetRegistry.Object.Meta
import FleetRegistry.Object.Rules
import FleetRegistry.Object.Shape
import FleetRegistry.Object.Strategy
import FleetRegistry.Patch.Apply
import FleetRegistry.Patch.Error
import FleetRegistry.Patch.Merge
import FleetRegistry.Patch.Operations
import FleetRegistry.Proofs.Client.Listing
import FleetRegistry.Proofs.Command.DryRuns
import FleetRegistry.Proofs.Command.Switch
import FleetRegistry.Proofs.Field.Places
import FleetRegistry.Proofs.Interleaving.Guards
import FleetRegistry.Proofs.Interleaving.Held
import FleetRegistry.Proofs.Interleaving.Patching
import FleetRegistry.Proofs.Interleaving.Serial
import FleetRegistry.Proofs.Interleaving.System
import FleetRegistry.Proofs.Interleaving.Waiting
import FleetRegistry.Proofs.Json.Fields
import FleetRegistry.Proofs.Json.Flat
import FleetRegistry.Proofs.Json.Parts
import FleetRegistry.Proofs.Metrics.Accounting
import FleetRegistry.Proofs.Metrics.Families
import FleetRegistry.Proofs.Name.Addresses
import FleetRegistry.Proofs.Name.Languages
import FleetRegistry.Proofs.Name.Words
import FleetRegistry.Proofs.Object.Annotations
import FleetRegistry.Proofs.Object.Violations
import FleetRegistry.Proofs.Object.Written
import FleetRegistry.Proofs.Patch.Directives
import FleetRegistry.Proofs.Patch.KeyedLists
import FleetRegistry.Proofs.Patch.Plain
import FleetRegistry.Proofs.Patch.Repetition
import FleetRegistry.Proofs.Patch.Reserved
import FleetRegistry.Proofs.Patch.Steps
import FleetRegistry.Proofs.Registry.Changes
import FleetRegistry.Proofs.Registry.Collections
import FleetRegistry.Proofs.Registry.Creation
import FleetRegistry.Proofs.Registry.Deletion
import FleetRegistry.Proofs.Registry.DryRuns
import FleetRegistry.Proofs.Registry.Edits
import FleetRegistry.Proofs.Registry.Effects
import FleetRegistry.Proofs.Registry.Failures
import FleetRegistry.Proofs.Registry.GeneratedNames
import FleetRegistry.Proofs.Registry.Generation
import FleetRegistry.Proofs.Registry.Identity
import FleetRegistry.Proofs.Registry.Incarnations
import FleetRegistry.Proofs.Registry.Lifecycle
import FleetRegistry.Proofs.Registry.LiveObjects
import FleetRegistry.Proofs.Registry.Locality
import FleetRegistry.Proofs.Registry.ReadBack
import FleetRegistry.Proofs.Registry.Reasons
import FleetRegistry.Proofs.Registry.Sides
import FleetRegistry.Proofs.Registry.Steps
import FleetRegistry.Proofs.Registry.Trials
import FleetRegistry.Proofs.Registry.Validity
import FleetRegistry.Proofs.Remote.DryRuns
import FleetRegistry.Proofs.Remote.Queries
import FleetRegistry.Proofs.Schema.DnsRecords
import FleetRegistry.Proofs.Schema.Patterns
import FleetRegistry.Proofs.Selector.FieldRendering
import FleetRegistry.Proofs.Selector.Rendering
import FleetRegistry.Proofs.Selector.Requirements
import FleetRegistry.Proofs.Selector.Spelling
import FleetRegistry.Proofs.Selector.Terms
import FleetRegistry.Proofs.StandIn.Agreement
import FleetRegistry.Proofs.StandIn.Concurrence
import FleetRegistry.Proofs.StandIn.Interception
import FleetRegistry.Proofs.StandIn.Listing
import FleetRegistry.Proofs.StandIn.Namespaces
import FleetRegistry.Proofs.StandIn.Settings
import FleetRegistry.Proofs.StandIn.Twins
import FleetRegistry.Proofs.Store.Addressing
import FleetRegistry.Proofs.Store.Consistency
import FleetRegistry.Proofs.Store.Cursor
import FleetRegistry.Proofs.Store.Effects
import FleetRegistry.Proofs.Store.Entries
import FleetRegistry.Proofs.Store.Journal
import FleetRegistry.Proofs.Store.Paging
import FleetRegistry.Proofs.Store.Places
import FleetRegistry.Proofs.Store.Token
import FleetRegistry.Proofs.Store.Writes
import FleetRegistry.Proofs.Text.Base64
import FleetRegistry.Proofs.Text.Bytes
import FleetRegistry.Proofs.Text.Cuts
import FleetRegistry.Proofs.Text.Digits
import FleetRegistry.Proofs.Time.Calendar
import FleetRegistry.Proofs.Time.Instant
import FleetRegistry.Proofs.Watch.Expiry
import FleetRegistry.Proofs.Watch.Following
import FleetRegistry.Proofs.Watch.Listing
import FleetRegistry.Proofs.Watch.Polling
import FleetRegistry.Proofs.Watch.Reading
import FleetRegistry.Proofs.Watch.Receiving
import FleetRegistry.Proofs.Watch.Resuming
import FleetRegistry.Proofs.Watch.View
import FleetRegistry.Registry.Basic
import FleetRegistry.Registry.Plan
import FleetRegistry.Registry.Session
import FleetRegistry.Registry.Write
import FleetRegistry.Remote.Address
import FleetRegistry.Remote.Client
import FleetRegistry.Remote.Request
import FleetRegistry.Remote.Response
import FleetRegistry.Request.Answer
import FleetRegistry.Request.Call
import FleetRegistry.Request.Options
import FleetRegistry.Request.Selection
import FleetRegistry.Schema.Basic
import FleetRegistry.Schema.Definition
import FleetRegistry.Schema.Pattern
import FleetRegistry.Script.Fields
import FleetRegistry.Script.Run
import FleetRegistry.Script.Step
import FleetRegistry.Script.Supply
import FleetRegistry.Selector.Error
import FleetRegistry.Selector.Field
import FleetRegistry.Selector.Label
import FleetRegistry.Selector.Requirement
import FleetRegistry.Store.Basic
import FleetRegistry.Store.Token
import FleetRegistry.Store.Watch
import FleetRegistry.Store.Watches
import FleetRegistry.Text.Base64
import FleetRegistry.Text.Blank
import FleetRegistry.Text.Bytes
import FleetRegistry.Text.Cut
import FleetRegistry.Text.Digits
import FleetRegistry.Text.Lowercase
import FleetRegistry.Text.Quoted
import FleetRegistry.Text.Visible
import FleetRegistry.Time.Calendar
import FleetRegistry.Time.Instant
import FleetRegistry.Time.Stamp
import FleetRegistry.Yaml.Glyph
import FleetRegistry.Yaml.Node
import FleetRegistry.Yaml.Plain
import FleetRegistry.Yaml.Printer
import FleetRegistry.Yaml.Scalar
import FleetRegistry.Yaml.Shape
