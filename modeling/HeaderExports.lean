import HeaderExports.Binding
import HeaderExports.Declaration.ArraySuffix
import HeaderExports.Declaration.EnumValues
import HeaderExports.Description
import HeaderExports.Report
import HeaderExports.Session
import HeaderExports.Proofs.Json.Quoted
import HeaderExports.Proofs.Json.Rendering
import HeaderExports.Proofs.Json.HeaderRoundTrip
import HeaderExports.Proofs.Pattern.Order
import HeaderExports.Proofs.Structs.Claims
import HeaderExports.Proofs.Structs.Exclusive
import HeaderExports.Proofs.Grammar.Words
import HeaderExports.Proofs.Text.Runs
import HeaderExports.Proofs.Grammar.Pinned
import HeaderExports.Proofs.Extraction.Insertion
import HeaderExports.Proofs.Canonical.Declarations
import HeaderExports.Proofs.Grammar.Determined
import HeaderExports.Proofs.Pattern.Lines
import HeaderExports.Proofs.Pattern.Preferred
import HeaderExports.Proofs.Text.OneLine
import HeaderExports.Proofs.Canonical.Members
import HeaderExports.Proofs.Canonical.Characters
import HeaderExports.Proofs.Canonical.Fields
import HeaderExports.Proofs.Canonical.Silence
import HeaderExports.Proofs.Canonical.Readings
import HeaderExports.Proofs.Canonical.Extraction
import HeaderExports.Proofs.Pattern.Division
import HeaderExports.Proofs.Pattern.Barrier
import HeaderExports.Proofs.Grammar.Members
import HeaderExports.Proofs.Grammar.Barrier
import HeaderExports.Proofs.Extraction.Exact
import HeaderExports.Proofs.Extraction.Barrier
import HeaderExports.Proofs.Extraction.WellFormed
import HeaderExports.Proofs.Extraction.Imports
import HeaderExports.Proofs.Text.Lexemes
import HeaderExports.Proofs.Text.Comments
import HeaderExports.Proofs.Extraction.Comments
import HeaderExports.Proofs.Pattern.Places
import HeaderExports.Proofs.Grammar.Nested
import HeaderExports.Proofs.Structs.Nested
import HeaderExports.Proofs.Enums.Resolution
import HeaderExports.Proofs.Grammar.Preferred
import HeaderExports.Proofs.Layout.Pieces
import HeaderExports.Proofs.Layout.CommaLists
import HeaderExports.Proofs.Layout.Enumerations
import HeaderExports.Proofs.Layout.Parameters
import HeaderExports.Proofs.Layout.Fields
import HeaderExports.Proofs.Layout.Structs
import HeaderExports.Proofs.Text.Digits
import HeaderExports.Proofs.Enums.Literals
import HeaderExports.Proofs.Enums.Overflow
import HeaderExports.Proofs.Json.Decoding
import HeaderExports.Proofs.Grammar.Constants
import HeaderExports.Proofs.Extraction.Constants
import HeaderExports.Proofs.Extraction.ImportLines
import HeaderExports.Proofs.References.Sites
import HeaderExports.Proofs.References.Unresolved
import HeaderExports.Proofs.Text.SpaceRuns
import HeaderExports.Proofs.Batches.Files
import HeaderExports.Proofs.Batches.Taking
import HeaderExports.Proofs.Enums.Segments
import HeaderExports.Proofs.Structs.Intervals
import HeaderExports.Proofs.Structs.FieldNames
import HeaderExports.Proofs.References.BareNames
import HeaderExports.Proofs.Text.BrokenWords
import HeaderExports.Proofs.Pattern.Reached
import HeaderExports.Proofs.Grammar.Uncut
import HeaderExports.Proofs.Extraction.Identifiers
import HeaderExports.Proofs.Structs.ArraySuffix
