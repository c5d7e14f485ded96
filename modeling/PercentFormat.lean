import PercentFormat.CommandLine
import PercentFormat.Conformance.Verification
import PercentFormat.Formatter
import PercentFormat.Main
import PercentFormat.Output.Lending
import PercentFormat.Proofs.Caching.Bookkeeping
import PercentFormat.Proofs.Caching.Counting
import PercentFormat.Proofs.Caching.Promotion
import PercentFormat.Proofs.Caching.Transparency
import PercentFormat.Proofs.Conformance.EntryLines
import PercentFormat.Proofs.Conformance.Hosting
import PercentFormat.Proofs.Conformance.LogAgreement
import PercentFormat.Proofs.Conformance.Verdicts
import PercentFormat.Proofs.Conformance.Verification
import PercentFormat.Proofs.Json.Canonical
import PercentFormat.Proofs.Json.Integers
import PercentFormat.Proofs.Json.Records
import PercentFormat.Proofs.Json.RoundTrip
import PercentFormat.Proofs.Json.Strings
import PercentFormat.Proofs.Output.Accounts
import PercentFormat.Proofs.Output.Arguments
import PercentFormat.Proofs.Output.Contents
import PercentFormat.Proofs.Output.Delivery
import PercentFormat.Proofs.Output.Markers
import PercentFormat.Proofs.Output.Paths
import PercentFormat.Proofs.Show.Quoting
import PercentFormat.Proofs.Storage.FileTree
import PercentFormat.Proofs.Template.Compilation
import PercentFormat.Proofs.Template.WellFormed
import PercentFormat.Proofs.Text.Hex
import PercentFormat.Proofs.Text.Lines
import PercentFormat.Template.Listing
import PercentFormat.Proofs.Show.Widths
import PercentFormat.Proofs.Template.Unfinished
import PercentFormat.Proofs.Conformance.AcceptedLines
import PercentFormat.Proofs.Conformance.ReportText
import PercentFormat.Proofs.Caching.Persistence
import PercentFormat.Proofs.Show.HexGroups
import PercentFormat.Proofs.Template.Joining
import PercentFormat.Proofs.Template.Resuming
import PercentFormat.Proofs.Template.Recovery
import PercentFormat.Proofs.Output.IndexCounting
import PercentFormat.Proofs.Output.Agreement
import PercentFormat.Proofs.Output.Escaping
import PercentFormat.Proofs.Output.RawBytes
import PercentFormat.Proofs.Output.Growth
import PercentFormat.Proofs.Output.Refusals
import PercentFormat.Proofs.Caching.ThresholdText
import PercentFormat.Proofs.Conformance.Differences
import PercentFormat.Proofs.Template.Listings
import PercentFormat.Proofs.Conformance.LogComposition
