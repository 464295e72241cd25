import SelectorTree.Text.Ascii
import SelectorTree.Text.Blank
import SelectorTree.Text.Escape
import SelectorTree.Text.Name
import SelectorTree.Text.Quoted
import SelectorTree.Numeric.Binary64
import SelectorTree.Token.Basic
import SelectorTree.Token.Number
import SelectorTree.Token.Lexer
import SelectorTree.Token.Printer
import SelectorTree.Stylesheet.Basic
import SelectorTree.Stylesheet.Parser
import SelectorTree.Selector.Formula
import SelectorTree.Selector.Basic
import SelectorTree.Selector.Positional
import SelectorTree.Selector.Printer
import SelectorTree.Selector.Parser
import SelectorTree.Tree.Attributes
import SelectorTree.Tree.Element
import SelectorTree.Tree.Basic
import SelectorTree.Tree.Edit
import SelectorTree.Tree.Traversal
import SelectorTree.Tree.Html
import SelectorTree.Siblings
import SelectorTree.Selector.Matching
import SelectorTree.Options
import SelectorTree.Synthesis.Descriptor
import SelectorTree.Synthesis.Merge
import SelectorTree.Synthesis.Fillers
import SelectorTree.Synthesis.Content
import SelectorTree.Synthesis.Builder
import SelectorTree.Synthesis.Verify
import SelectorTree.Sanitizer
import SelectorTree.Text.Utf8
import SelectorTree.Import.Base64
import SelectorTree.Import.Response
import SelectorTree.Import.DataUrl
import SelectorTree.Warnings
import SelectorTree.Stylesheet.Nesting
import SelectorTree.Import.Collector
import SelectorTree.Text.Fields
import SelectorTree.Text.Percent
import SelectorTree.Url.Escapes
import SelectorTree.Unicode.CodeRange
import SelectorTree.Unicode.Mark
import SelectorTree.Unicode.CombiningClass
import SelectorTree.Unicode.Decomposition
import SelectorTree.Unicode.Composed
import SelectorTree.Unicode.Direction
import SelectorTree.Unicode.Joining
import SelectorTree.Url.NumericHost
import SelectorTree.Url.Punycode
import SelectorTree.Url.Domain.Mapping
import SelectorTree.Url.Domain.Label
import SelectorTree.Url.Host
import SelectorTree.Url.Basic
import SelectorTree.Url.Path
import SelectorTree.Url.Parser
import SelectorTree.Json.Basic
import SelectorTree.Json.Parser
import SelectorTree.Options.Json
import SelectorTree.Compilation
import SelectorTree.CommandLine.Arguments
import SelectorTree.CommandLine.Run
import SelectorTree.Main
import SelectorTree.Proofs.Synthesis.Invariants
import SelectorTree.Proofs.Synthesis.Reading
import SelectorTree.Proofs.Synthesis.Slots
import SelectorTree.Proofs.Synthesis.Accounting
import SelectorTree.Proofs.Synthesis.Repetition
import SelectorTree.Proofs.Synthesis.Symmetry
import SelectorTree.Proofs.Synthesis.Separation
import SelectorTree.Proofs.Synthesis.Satisfaction
import SelectorTree.Proofs.Synthesis.Marks
import SelectorTree.Proofs.Synthesis.Descending
import SelectorTree.Proofs.Synthesis.Probing
import SelectorTree.Proofs.Element.Accepting
import SelectorTree.Proofs.Element.Comparing
import SelectorTree.Proofs.Element.Merging
import SelectorTree.Proofs.Tree.Arrangement
import SelectorTree.Proofs.Tree.Traversals
import SelectorTree.Proofs.Html.Subtrees
import SelectorTree.Proofs.Sanitizer.Pruning
import SelectorTree.Proofs.Sanitizer.Provenance
import SelectorTree.Proofs.Sanitizer.Markup
import SelectorTree.Proofs.Sanitizer.Schemes
import SelectorTree.Proofs.Stylesheet.Content
import SelectorTree.Proofs.Stylesheet.Nesting
import SelectorTree.Proofs.Stylesheet.Conservation
import SelectorTree.Proofs.Stylesheet.Preludes
import SelectorTree.Proofs.Stylesheet.Segments
import SelectorTree.Proofs.Import.Termination
import SelectorTree.Proofs.Import.Inlining
import SelectorTree.Proofs.Import.Decoding
import SelectorTree.Proofs.Text.Plain
import SelectorTree.Proofs.Text.Denoting
import SelectorTree.Proofs.Text.PercentDecoding
import SelectorTree.Proofs.Selector.Arguments
import SelectorTree.Proofs.Selector.AttributeTexts
import SelectorTree.Proofs.Selector.Continuing
import SelectorTree.Proofs.Selector.Formulas
import SelectorTree.Proofs.Selector.FormulaTexts
import SelectorTree.Proofs.Selector.Legibility
import SelectorTree.Proofs.Selector.Progressions
import SelectorTree.Proofs.Selector.RoundTrip
import SelectorTree.Proofs.Selector.Unescaping
import SelectorTree.Proofs.Stylesheet.Flattening
import SelectorTree.Proofs.Token.Lookahead
import SelectorTree.Proofs.Token.Writing
import SelectorTree.Proofs.Token.RoundTrip
import SelectorTree.Proofs.Token.Restoring
import SelectorTree.Proofs.Token.Tiling
