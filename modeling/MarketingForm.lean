import MarketingForm.Command.Arguments
import MarketingForm.Command.Basic
import MarketingForm.Command.Report
import MarketingForm.Command.Run
import MarketingForm.Export.Composition
import MarketingForm.Export.Delivery
import MarketingForm.Export.Error
import MarketingForm.Export.Filename
import MarketingForm.Export.Report
import MarketingForm.Export.Shell
import MarketingForm.Export.ShellSource
import MarketingForm.Export.Stylesheet
import MarketingForm.Files.Disk
import MarketingForm.Files.Path
import MarketingForm.Files.Tree
import MarketingForm.Form.Audience
import MarketingForm.Form.Bag
import MarketingForm.Form.Basic
import MarketingForm.Form.Decode
import MarketingForm.Form.Edit
import MarketingForm.Form.Encode
import MarketingForm.Form.FieldId
import MarketingForm.Form.File
import MarketingForm.Form.Kind
import MarketingForm.Form.Palette
import MarketingForm.Form.Reading
import MarketingForm.Form.Resolve
import MarketingForm.Form.Value
import MarketingForm.Fragment.Basic
import MarketingForm.Fragment.Consent
import MarketingForm.Fragment.Input
import MarketingForm.Fragment.Layout
import MarketingForm.Fragment.Parts
import MarketingForm.Fragment.Selection
import MarketingForm.Json.ChoiceList
import MarketingForm.Json.Fault
import MarketingForm.Json.Manifest
import MarketingForm.Json.Pretty
import MarketingForm.Json.Reader
import MarketingForm.Json.Text
import MarketingForm.LineDiff.Compact
import MarketingForm.LineDiff.Script
import MarketingForm.LineDiff.Search
import MarketingForm.LineDiff.Unified
import MarketingForm.Main
import MarketingForm.Markup.Element
import MarketingForm.Markup.Entity
import MarketingForm.Markup.Layout
import MarketingForm.Proofs.Export.Composition
import MarketingForm.Proofs.Export.Cut
import MarketingForm.Proofs.Export.Delivery
import MarketingForm.Proofs.Export.Outline
import MarketingForm.Proofs.Export.Sweep
import MarketingForm.Proofs.Files.Disk
import MarketingForm.Proofs.Files.Run
import MarketingForm.Proofs.Files.Tree
import MarketingForm.Proofs.Fragment.Outline
import MarketingForm.Proofs.Html.Node
import MarketingForm.Proofs.Html.Outline
import MarketingForm.Proofs.Html.RoundTrip
import MarketingForm.Proofs.Html.Token
import MarketingForm.Proofs.LineDiff.Sides
import MarketingForm.Proofs.LineDiff.Unified
import MarketingForm.Settings.Basic
import MarketingForm.Settings.File
import MarketingForm.Table.Rounded
import MarketingForm.Table.Width
import MarketingForm.Text.Binary64
import MarketingForm.Text.Blank
import MarketingForm.Text.Case
import MarketingForm.Text.LowerCase
import MarketingForm.Text.Numeral
import MarketingForm.Text.Printable
import MarketingForm.Text.Quoted
import MarketingForm.Text.Ranges
import MarketingForm.Text.Utf8
import MarketingForm.Yaml.Bag
import MarketingForm.Yaml.Block
import MarketingForm.Yaml.Content
import MarketingForm.Yaml.Cursor
import MarketingForm.Yaml.Decode
import MarketingForm.Yaml.Fault
import MarketingForm.Yaml.Meaning
import MarketingForm.Yaml.Node
import MarketingForm.Yaml.Node.Read
import MarketingForm.Yaml.Spelling
import MarketingForm.Yaml.Token
import MarketingForm.Yaml.Token.Block
import MarketingForm.Yaml.Token.Gap
import MarketingForm.Yaml.Token.Plain
import MarketingForm.Yaml.Token.Quoted
import MarketingForm.Yaml.Token.Scan
import MarketingForm.Yaml.Token.Tag
import MarketingForm.Proofs.Command.Run
import MarketingForm.Proofs.Export.Fragments
import MarketingForm.Proofs.Files.Ways
import MarketingForm.Proofs.Files.Directories
import MarketingForm.Proofs.Export.DryRun
import MarketingForm.Proofs.Text.Numeral
import MarketingForm.Proofs.Yaml.Gap
import MarketingForm.Proofs.Yaml.Release
import MarketingForm.Proofs.Yaml.Indicators
import MarketingForm.Proofs.Yaml.Literal
import MarketingForm.Proofs.Yaml.Quoted
import MarketingForm.Proofs.Yaml.Scalars
import MarketingForm.Proofs.Yaml.Written
import MarketingForm.Proofs.Yaml.Decode
import MarketingForm.Proofs.Yaml.Nodes
import MarketingForm.Proofs.Form.RoundTrip
import MarketingForm.Proofs.Form.File
import MarketingForm.Proofs.Command.Session
import MarketingForm.Proofs.Files.Replace
import MarketingForm.Proofs.Export.AllOrNothing
import MarketingForm.Proofs.Form.Ids
import MarketingForm.Proofs.Command.Ids
import MarketingForm.Proofs.Html.Element
import MarketingForm.Proofs.Fragment.Tree
import MarketingForm.Proofs.Fragment.TextBlock
import MarketingForm.Proofs.Fragment.Labels
import MarketingForm.Proofs.Form.Typed
import MarketingForm.Proofs.Command.Typed
import MarketingForm.Proofs.LineDiff.Patch
import MarketingForm.Proofs.LineDiff.Hunks
import MarketingForm.Proofs.LineDiff.Filled
import MarketingForm.Proofs.LineDiff.Printed
import MarketingForm.Proofs.LineDiff.Pieces
import MarketingForm.Proofs.Export.Difference
import MarketingForm.Proofs.Json.Manifest
import MarketingForm.Proofs.Html.Query
import MarketingForm.Proofs.Fragment.Choices
import MarketingForm.Proofs.Form.Resolve
import MarketingForm.Proofs.Fragment.Declared
import MarketingForm.Proofs.Html.Controls
import MarketingForm.Proofs.Fragment.Switches
import MarketingForm.Proofs.Fragment.Scalars
import MarketingForm.Proofs.Form.Replay
import MarketingForm.Proofs.Form.Bag
import MarketingForm.Proofs.Export.Stylesheet
import MarketingForm.Proofs.Text.LowerCase
import MarketingForm.Proofs.Text.Blank
import MarketingForm.Proofs.Export.Filename
import MarketingForm.Proofs.Export.Title
import MarketingForm.Proofs.Form.Commute
import MarketingForm.Proofs.Export.Order
import MarketingForm.Proofs.Form.FieldId
import MarketingForm.Proofs.Form.Reading
import MarketingForm.Files.Device
import MarketingForm.Proofs.Files.Follow
