import SqlFootprint.Main
import SqlFootprint.Proofs.Filter.Substitution
import SqlFootprint.Proofs.Filter.Resolution
import SqlFootprint.Proofs.Filter.Comparison
import SqlFootprint.Proofs.Footprint.NamedSources
import SqlFootprint.Proofs.Dump.Attribution
import SqlFootprint.Proofs.Filter.Reading
import SqlFootprint.Proofs.Dump.Soundness
import SqlFootprint.Proofs.Filter.Introducer
import SqlFootprint.Proofs.Filter.TextValues
import SqlFootprint.Proofs.Dump.Commands
import SqlFootprint.Proofs.Dump.Remarks
import SqlFootprint.Proofs.Dump.LaterBlocks
import SqlFootprint.Proofs.Filter.Pieces
import SqlFootprint.Proofs.Filter.PieceLaws
import SqlFootprint.Proofs.Filter.TreePieces
import SqlFootprint.Proofs.Filter.Scope
import SqlFootprint.Proofs.Dump.Layout
import SqlFootprint.Proofs.Text.Counting
import SqlFootprint.Proofs.Dump.Announcement
import SqlFootprint.Proofs.Report.Recovery
import SqlFootprint.Proofs.CommandLine.ExitCodes
import SqlFootprint.Proofs.Log.Agreement
import SqlFootprint.Proofs.Filter.Canonical
import SqlFootprint.Proofs.Sql.Misreading
import SqlFootprint.Proofs.Text.Removal
import SqlFootprint.Proofs.Filter.OwnName
import SqlFootprint.Proofs.Filter.References
import SqlFootprint.Proofs.Filter.Repetition
import SqlFootprint.Proofs.Dump.Targets
import SqlFootprint.Proofs.Sql.Backslash
import SqlFootprint.Proofs.Filter.BareLiterals
import SqlFootprint.Proofs.Footprint.Grouping
import SqlFootprint.Proofs.Footprint.Harvest
import SqlFootprint.Proofs.Filter.Stars
import SqlFootprint.Proofs.Dump.LastSaid
import SqlFootprint.Proofs.Report.Batches
import SqlFootprint.Proofs.Filter.Runs
