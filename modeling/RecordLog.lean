import RecordLog.CommandLine.Command
import RecordLog.CommandLine.Places
import RecordLog.CommandLine.Run
import RecordLog.CommandLine.Words
import RecordLog.Database
import RecordLog.Diagnostics.Directive
import RecordLog.Diagnostics.Levels
import RecordLog.Diagnostics.Line
import RecordLog.Error
import RecordLog.Events.Operation
import RecordLog.Events.Stream
import RecordLog.Failure
import RecordLog.Json
import RecordLog.Json.Compare
import RecordLog.Json.Display
import RecordLog.Json.Octets
import RecordLog.Json.Reader
import RecordLog.Json.Writer
import RecordLog.Main
import RecordLog.Metrics
import RecordLog.Number.Decimal
import RecordLog.Number.Double
import RecordLog.Number.Numeral
import RecordLog.Number.Places
import RecordLog.Number.Shortest
import RecordLog.Platform
import RecordLog.Proofs.CommandLine.Accepted
import RecordLog.Proofs.CommandLine.Arguments
import RecordLog.Proofs.CommandLine.Ending
import RecordLog.Proofs.CommandLine.Finding
import RecordLog.Proofs.CommandLine.Printing
import RecordLog.Proofs.Database.Found
import RecordLog.Proofs.Database.Growth
import RecordLog.Proofs.Database.Isolation
import RecordLog.Proofs.Database.Keyed
import RecordLog.Proofs.Events.Calls
import RecordLog.Proofs.Events.Routing
import RecordLog.Proofs.Events.Stream
import RecordLog.Proofs.Interleaving
import RecordLog.Proofs.Json.Canonical
import RecordLog.Proofs.Json.Equality
import RecordLog.Proofs.Json.Lines
import RecordLog.Proofs.Json.LongInteger
import RecordLog.Proofs.Json.Members
import RecordLog.Proofs.Json.Numbers
import RecordLog.Proofs.Json.Octets
import RecordLog.Proofs.Json.Ordering
import RecordLog.Proofs.Json.Pairs
import RecordLog.Proofs.Json.Paths
import RecordLog.Proofs.Json.Positions
import RecordLog.Proofs.Json.Readable
import RecordLog.Proofs.Json.Readings
import RecordLog.Proofs.Json.RoundTrip
import RecordLog.Proofs.Json.Sameness
import RecordLog.Proofs.Json.SortedMembers
import RecordLog.Proofs.Json.Strings
import RecordLog.Proofs.Json.Texts
import RecordLog.Proofs.Number.Numerals
import RecordLog.Proofs.Number.Quantities
import RecordLog.Proofs.Number.Rounding
import RecordLog.Proofs.Number.Shortest
import RecordLog.Proofs.Outcomes
import RecordLog.Proofs.Query.Agreement
import RecordLog.Proofs.Query.Arrangement
import RecordLog.Proofs.Query.Clause
import RecordLog.Proofs.Query.Comparisons
import RecordLog.Proofs.Query.Completion
import RecordLog.Proofs.Query.Conjunction
import RecordLog.Proofs.Query.Disjunction
import RecordLog.Proofs.Query.Grammar
import RecordLog.Proofs.Query.Membership
import RecordLog.Proofs.Query.OptionShapes
import RecordLog.Proofs.Query.Search
import RecordLog.Proofs.Query.Stored
import RecordLog.Proofs.Record.Appending
import RecordLog.Proofs.Record.Distinct
import RecordLog.Proofs.Record.Identity
import RecordLog.Proofs.Record.Loading
import RecordLog.Proofs.Record.LogLines
import RecordLog.Proofs.Record.Written
import RecordLog.Proofs.Service.Accounting
import RecordLog.Proofs.Service.Posting
import RecordLog.Proofs.Settings.Defaults
import RecordLog.Proofs.Settings.Entries
import RecordLog.Proofs.Settings.Expansion
import RecordLog.Proofs.Settings.Lookups
import RecordLog.Proofs.Settings.MergedPaths
import RecordLog.Proofs.Settings.Merging
import RecordLog.Proofs.Settings.Planting
import RecordLog.Proofs.Settings.Precedence
import RecordLog.Proofs.Settings.References
import RecordLog.Proofs.Settings.Spelling
import RecordLog.Proofs.Settings.Store
import RecordLog.Proofs.Settings.Variables
import RecordLog.Proofs.Settings.Views
import RecordLog.Proofs.Sorting
import RecordLog.Proofs.Text.Digits
import RecordLog.Proofs.Text.LetterCase
import RecordLog.Proofs.Text.Order
import RecordLog.Proofs.Text.Patterns
import RecordLog.Proofs.Text.Utf8
import RecordLog.Proofs.Web.Events
import RecordLog.Proofs.Web.Finding
import RecordLog.Proofs.Web.Framework
import RecordLog.Proofs.Web.Options
import RecordLog.Query.Combine
import RecordLog.Query.Document
import RecordLog.Query.Insertion
import RecordLog.Query.Operator
import RecordLog.Query.Options
import RecordLog.Query.Order
import RecordLog.Query.Words
import RecordLog.Record
import RecordLog.Record.Log
import RecordLog.Service
import RecordLog.Settings.Catalog
import RecordLog.Settings.Environment
import RecordLog.Settings.Layers
import RecordLog.Settings.Merge
import RecordLog.Settings.Reference
import RecordLog.Settings.Section
import RecordLog.Settings.View
import RecordLog.Split
import RecordLog.Storage.Disk
import RecordLog.Storage.Fault
import RecordLog.Storage.Path
import RecordLog.Text
import RecordLog.Text.Blank
import RecordLog.Text.Digit
import RecordLog.Text.Letters
import RecordLog.Text.Lowercase
import RecordLog.Text.Printable
import RecordLog.Text.Quoted
import RecordLog.Text.Ranges
import RecordLog.Text.Utf8
import RecordLog.Web.Address
import RecordLog.Web.Framework
import RecordLog.Web.Launch
import RecordLog.Web.Reply
import RecordLog.Web.Server
