import HeaderDigest.Files.Tree
import HeaderDigest.Main
import HeaderDigest.Proofs.Survey.Extent
import HeaderDigest.Proofs.Survey.Position
import HeaderDigest.Proofs.Text.Lines
import HeaderDigest.Proofs.Header.Assembly
import HeaderDigest.Proofs.Survey.MoveDown
import HeaderDigest.Proofs.Survey.Closed
import HeaderDigest.Proofs.Survey.Concatenation
import HeaderDigest.Proofs.Text.Trim
import HeaderDigest.Proofs.Text.Words
import HeaderDigest.Proofs.Declaration.Line
import HeaderDigest.Proofs.Survey.Provenance
import HeaderDigest.Proofs.Survey.Visibility
import HeaderDigest.Proofs.Text.Parts
import HeaderDigest.Proofs.Text.Spacing
import HeaderDigest.Proofs.Declarator.Nesting
import HeaderDigest.Proofs.Declarator.ParameterList
import HeaderDigest.Proofs.Declarator.Identifier
import HeaderDigest.Proofs.Grammar.Type
import HeaderDigest.Proofs.Prototype.Attribute
import HeaderDigest.Proofs.Declarator.Reading
import HeaderDigest.Proofs.Grammar.Parameter
import HeaderDigest.Proofs.Grammar.Prototype
import HeaderDigest.Proofs.Doc.Tags
import HeaderDigest.Proofs.Grammar.Comment
import HeaderDigest.Proofs.Survey.Documented
import HeaderDigest.Proofs.Text.Blanks
import HeaderDigest.Proofs.Text.WordBounds
import HeaderDigest.Proofs.Source.InlineComment
import HeaderDigest.Proofs.Source.Remarked
import HeaderDigest.Proofs.Source.Scan
import HeaderDigest.Proofs.Source.Search
import HeaderDigest.Proofs.Text.Reindented
import HeaderDigest.Proofs.Text.Respaced
import HeaderDigest.Proofs.DataType.Naming
import HeaderDigest.Proofs.DataType.Attribute
import HeaderDigest.Proofs.DataType.AnonymousStruct
import HeaderDigest.Proofs.DataType.Tag
import HeaderDigest.Proofs.DataType.Remarked
import HeaderDigest.Proofs.DataType.Typedef
import HeaderDigest.Proofs.DataType.Reindented
import HeaderDigest.Proofs.Declaration.Reindented
import HeaderDigest.Proofs.Survey.Reindented
import HeaderDigest.Proofs.Survey.Definition
import HeaderDigest.Proofs.Doc.Entries
import HeaderDigest.Proofs.Grammar.Member
import HeaderDigest.Proofs.Grammar.Struct
import HeaderDigest.Proofs.Prototype.Signature
import HeaderDigest.Proofs.Survey.Struct
import HeaderDigest.Proofs.Prototype.Shape
import HeaderDigest.Proofs.Survey.TypeDeclaration
import HeaderDigest.Proofs.Prototype.Form
import HeaderDigest.Proofs.Doc.Normal
import HeaderDigest.Proofs.Prototype.Record
import HeaderDigest.Proofs.DataType.Record
import HeaderDigest.Proofs.Text.Bytes
import HeaderDigest.Proofs.Header.Lookup
import HeaderDigest.Proofs.Header.Record
import HeaderDigest.Proofs.Catalog
import HeaderDigest.Proofs.Files.Path
import HeaderDigest.Proofs.Files.Tree
import HeaderDigest.Proofs.CommandLine.Inputs
import HeaderDigest.Proofs.CommandLine.PageName
import HeaderDigest.Proofs.CommandLine.Pages
import HeaderDigest.Proofs.Json.Quoted
import HeaderDigest.Proofs.Json.Printed
import HeaderDigest.Proofs.Page.Record
import HeaderDigest.Proofs.Page.Links
import HeaderDigest.Proofs.Source.Block
import HeaderDigest.Proofs.Source.Cursor
import HeaderDigest.Proofs.Doc.Words
import HeaderDigest.Proofs.Doc.Wrapping
import HeaderDigest.Proofs.Declaration.Lookahead
import HeaderDigest.Proofs.Declaration.Remarked
import HeaderDigest.Proofs.Prototype.Cascade
import HeaderDigest.Proofs.Declaration.Wrapped
import HeaderDigest.Proofs.Grammar.Signature
import HeaderDigest.Proofs.Grammar.Unnamed
import HeaderDigest.Proofs.Page.Signature
import HeaderDigest.Proofs.Declaration.Ending
import HeaderDigest.Proofs.Doc.Decoration
import HeaderDigest.Proofs.Doc.Continued
import HeaderDigest.Proofs.Doc.Closing
import HeaderDigest.Proofs.DataType.NamePlace
import HeaderDigest.Proofs.DataType.CutOff
import HeaderDigest.Proofs.Declarator.ArraySize
import HeaderDigest.Proofs.Prototype.Attributed
import HeaderDigest.Proofs.Declarator.Lossless
import HeaderDigest.Proofs.Prototype.ParameterName
import HeaderDigest.Proofs.Prototype.Pattern
import HeaderDigest.Proofs.DataType.Body
import HeaderDigest.Proofs.DataType.SizedMember
import HeaderDigest.Proofs.DataType.HiddenBrace
import HeaderDigest.Proofs.DataType.AttributePieces
import HeaderDigest.Proofs.Page.Table
import HeaderDigest.Proofs.Distinct
import HeaderDigest.Proofs.Files.Pattern
import HeaderDigest.Proofs.CommandLine.Expansion
