import TagLift.Attribute.Directive
import TagLift.Doc.Strip
import TagLift.Edit.Apply
import TagLift.File.System
import TagLift.Glob.Exclusion
import TagLift.Ignore.Rule
import TagLift.Import.Parse
import TagLift.Layout.Normalize
import TagLift.Main
import TagLift.Migration.Basic
import TagLift.Migration.Pipeline
import TagLift.Settings
import TagLift.Source.Basic
import TagLift.Proofs.Attribute.ReadBack
import TagLift.Proofs.Doc.DanglingLines
import TagLift.Proofs.Doc.DirectiveLine
import TagLift.Proofs.Edit.Reorder
import TagLift.Proofs.Edit.Splice
import TagLift.Proofs.Edit.Tracking
import TagLift.Proofs.Import.LetterCase
import TagLift.Proofs.Import.RoundTrip
import TagLift.Proofs.Layout.DocEnd
import TagLift.Proofs.Layout.OnePass
import TagLift.Proofs.Ledger.History
import TagLift.Proofs.Migration.AppendOnly
import TagLift.Proofs.Migration.GroupValues
import TagLift.Proofs.Migration.ImportPlace
import TagLift.Proofs.Migration.Imported
import TagLift.Proofs.Migration.LineEnds
import TagLift.Proofs.Migration.Metadata
import TagLift.Proofs.Migration.Printable
import TagLift.Proofs.Migration.Rerun
import TagLift.Proofs.Migration.SecondProvider
import TagLift.Proofs.Migration.TestMarker
import TagLift.Proofs.Migration.Untouched
import TagLift.Proofs.Print.Literals
import TagLift.Proofs.Print.Revision
import TagLift.Proofs.Run.Batch
import TagLift.Proofs.Source.Union
import TagLift.Proofs.Tree.Attachment
import TagLift.Proofs.Tree.Entries
