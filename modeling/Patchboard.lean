import Patchboard.Main
import Patchboard.Proofs.Pattern.Reading
import Patchboard.Proofs.Pattern.Matching
import Patchboard.Proofs.Search.Literal
import Patchboard.Proofs.Search.Hidden
import Patchboard.Proofs.Patch.Sequential
import Patchboard.Proofs.Patch.Saving
import Patchboard.Proofs.Patch.DryRun.Boardmod
import Patchboard.Proofs.Patch.DryRun.Modification
import Patchboard.Proofs.Patch.DryRun.Apart
import Patchboard.Proofs.Patch.DryRun
import Patchboard.Proofs.Cursor.DryRun
import Patchboard.Proofs.Cursor.DryRun.Untouched
import Patchboard.Proofs.Patch.Accounting
import Patchboard.Proofs.Cursor.Failures
import Patchboard.Proofs.Patch.Undo.Storing
import Patchboard.Proofs.Patch.Undo.Rewriting
import Patchboard.Proofs.Patch.Undo.Carrying
import Patchboard.Proofs.Patch.Undo
import Patchboard.Proofs.Text.Lines
import Patchboard.Proofs.Text.Case
import Patchboard.Proofs.Receipt.Reading
import Patchboard.Proofs.Path.Steps
import Patchboard.Proofs.Tree.Ways
import Patchboard.Proofs.Tree.Confinement
import Patchboard.Proofs.State.Layout
import Patchboard.Proofs.Tree.Listing
import Patchboard.Proofs.Receipt.Recording
import Patchboard.Proofs.Receipt.History
import Patchboard.Proofs.Tree.Copying
import Patchboard.Proofs.Tree.Removal
import Patchboard.Proofs.Package.Staging
import Patchboard.Proofs.State.Base
import Patchboard.Proofs.Plan.Effects
import Patchboard.Proofs.Cli.Refusal
import Patchboard.Proofs.Tree.TwinJobs
import Patchboard.Proofs.Patch.Twins
import Patchboard.Proofs.Cursor.Twins
import Patchboard.Proofs.Json.RoundTrip
import Patchboard.Proofs.Tree.Hiding
import Patchboard.Proofs.Run.Records
import Patchboard.Proofs.Run.Files
import Patchboard.Proofs.State.Reserve
import Patchboard.Proofs.Run.Ongoing
import Patchboard.Proofs.Cli.Lifecycle
import Patchboard.Proofs.Version.Spelling
import Patchboard.Proofs.Version.Semantic
import Patchboard.Proofs.Version.Order
import Patchboard.Proofs.Version.Coherence
import Patchboard.Proofs.Version.Numeric
import Patchboard.Proofs.Version.Expression
import Patchboard.Proofs.Version.Bound
import Patchboard.Proofs.Version.Release
import Patchboard.Proofs.Version.Wildcard
import Patchboard.Proofs.Version.Overlap
import Patchboard.Proofs.Run.Exclusion
import Patchboard.Proofs.Run.Bookkeeping
import Patchboard.Proofs.Patch.Rendering
import Patchboard.Proofs.Patch.Revision
import Patchboard.Proofs.Patch.FanOut
import Patchboard.Proofs.Patch.Pairing
import Patchboard.Proofs.Plan.Shape
import Patchboard.Proofs.Plan.Fingerprint
import Patchboard.Proofs.Plan.Payloads
import Patchboard.Proofs.Search.Reversal
import Patchboard.Proofs.Patch.Backups
import Patchboard.Proofs.Cursor.Turns
import Patchboard.Proofs.Cursor.Index
import Patchboard.Proofs.Cursor.Summaries
import Patchboard.Proofs.Text.Cuts
import Patchboard.Proofs.Patch.Undo.Editing
import Patchboard.Proofs.Patch.Undo.Preceding
import Patchboard.Proofs.Search.Appending
import Patchboard.Proofs.Pattern.Groups
import Patchboard.Proofs.Pattern.Alongside
import Patchboard.Proofs.Pattern.Brackets
import Patchboard.Proofs.Pattern.Enclosure
import Patchboard.Proofs.Search.Insertion
import Patchboard.Proofs.Search.Collapse
import Patchboard.Proofs.Pattern.Gaps
import Patchboard.Proofs.Search.Loose
import Patchboard.Proofs.Patch.Tracing
import Patchboard.Proofs.Patch.Policies
import Patchboard.Proofs.Patch.Skipping
import Patchboard.Proofs.Patch.Stops
import Patchboard.Proofs.Patch.Offsets
import Patchboard.Proofs.Cursor.FailedFiles
import Patchboard.Proofs.Tree.Overlaying
import Patchboard.Proofs.Document.Paths
import Patchboard.Proofs.Manifest.Blocks
import Patchboard.Proofs.Path.Variables
import Patchboard.Proofs.Theme.Owner
import Patchboard.Proofs.Patch.Attribution
import Patchboard.Proofs.Cursor.Themes
import Patchboard.Proofs.Version.Span
import Patchboard.Proofs.Cursor.Gathering
import Patchboard.Proofs.Tree.Framing
import Patchboard.Proofs.Cursor.Touching
import Patchboard.Proofs.Tree.Kinds
import Patchboard.Proofs.Cursor.Kinds
