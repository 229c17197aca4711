import TypedJson.Json.Write
import TypedJson.KeyLocation
import TypedJson.Main
import TypedJson.Proofs.Run.Basic
import TypedJson.Session
import TypedJson.Proofs.Run.Turns
import TypedJson.Proofs.Run.Record
import TypedJson.Proofs.Run.Newest
import TypedJson.Proofs.Path
import TypedJson.Proofs.Run.Delivery
import TypedJson.Proofs.Run.Leftover
import TypedJson.Proofs.Run.Sessions
import TypedJson.Proofs.Run.Untagged
import TypedJson.Proofs.Run.Outcome
import TypedJson.Proofs.Run.Landing
import TypedJson.Proofs.Run.Separation
import TypedJson.Proofs.Position
import TypedJson.Proofs.TypeTag
import TypedJson.Proofs.Header
import TypedJson.Proofs.Run.Calls
import TypedJson.Proofs.Run.Inquiry
import TypedJson.Proofs.Coordinates
import TypedJson.Proofs.Conformance
import TypedJson.Proofs.StringLiteral
import TypedJson.Proofs.Phrase.Basic
import TypedJson.Proofs.Phrase.Reading
import TypedJson.Proofs.Phrase.Scan
import TypedJson.Proofs.TagSpelling
import TypedJson.Proofs.Phrase.Tag
import TypedJson.Proofs.Phrase.Trail
import TypedJson.Proofs.Phrase.Key
import TypedJson.Proofs.Mismatch
import TypedJson.Proofs.Reshaping
import TypedJson.Proofs.FindingLine
import TypedJson.Proofs.CheckerOutput
import TypedJson.Proofs.Remapping
import TypedJson.Proofs.Unsupported
import TypedJson.Proofs.MismatchPath
import TypedJson.Proofs.Indexing
import TypedJson.Proofs.Run.Known
import TypedJson.Proofs.Run.Viewing
import TypedJson.Proofs.Run.Views
import TypedJson.Proofs.TypeSpelling
import TypedJson.Proofs.WholeText
import TypedJson.Proofs.Description.Told
import TypedJson.Proofs.Directory
import TypedJson.Proofs.Suggestions
import TypedJson.Proofs.Batch
import TypedJson.Proofs.Gate
import TypedJson.Proofs.Offset
import TypedJson.Proofs.FileTree.Way
import TypedJson.Proofs.Glob.Expansion
import TypedJson.Proofs.Inputs
import TypedJson.Proofs.KeySearch
