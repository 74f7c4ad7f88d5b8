import TokenTheme.Build.Trace
import TokenTheme.Configuration
import TokenTheme.Main
import TokenTheme.Proofs.Build.Interruption
import TokenTheme.Proofs.Export.Totality
import TokenTheme.Proofs.Reference.Confluence
import TokenTheme.Proofs.Reference.Guard
import TokenTheme.Proofs.Build.Calls
import TokenTheme.Proofs.Json.Keys
import TokenTheme.Proofs.Export.Places
import TokenTheme.Proofs.Export.Fonts
import TokenTheme.Proofs.Json.Numeral
import TokenTheme.Proofs.Json.Roundtrip
import TokenTheme.Proofs.Text.Utf8
import TokenTheme.Proofs.Export.Integers
import TokenTheme.Proofs.Theme.Writable
import TokenTheme.Proofs.Theme.Contents
import TokenTheme.Proofs.Theme.Kept
import TokenTheme.Proofs.Export.Shapes
import TokenTheme.Proofs.Stylesheet.Views
import TokenTheme.Proofs.Stylesheet.Radius
import TokenTheme.Proofs.Build.Reload
import TokenTheme.Proofs.Theme.Sizes
import TokenTheme.Proofs.Command.Agreement
import TokenTheme.Proofs.Stylesheet.HeadingFont
import TokenTheme.Proofs.Stylesheet.LastNamed
import TokenTheme.Proofs.Json.Literals
import TokenTheme.Proofs.Theme.Numbers
import TokenTheme.Proofs.Export.Range
import TokenTheme.Proofs.Export.Grammar
import TokenTheme.Proofs.Command.Anywhere
import TokenTheme.Proofs.Export.Pixels
import TokenTheme.Proofs.Reference.Settled
import TokenTheme.Proofs.Reference.Addition
import TokenTheme.Proofs.Colour.Spelling
import TokenTheme.Proofs.Colour.Sectors
import TokenTheme.Proofs.Configuration.Extension
import TokenTheme.Proofs.Stylesheet.Reading
import TokenTheme.Proofs.Export.LeafOrder
import TokenTheme.Proofs.Rules.Contents
import TokenTheme.Proofs.Export.CleanLengths
import TokenTheme.Proofs.Export.LineHeights
import TokenTheme.Proofs.Export.FontSizes
