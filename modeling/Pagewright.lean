import Pagewright.Classify.Arrange
import Pagewright.Classify.Basic
import Pagewright.Classify.Leaf
import Pagewright.Classify.Member
import Pagewright.Classify.Rule
import Pagewright.Command.Arguments
import Pagewright.Command.Folder
import Pagewright.Command.Run
import Pagewright.Config.Error
import Pagewright.Config.Key
import Pagewright.Config.Loader
import Pagewright.Config.Settings
import Pagewright.Config.Value
import Pagewright.Design.Appearance
import Pagewright.Design.Arrangement
import Pagewright.Design.Node
import Pagewright.Design.Reader
import Pagewright.Design.Thresholds
import Pagewright.Format.Basic
import Pagewright.Format.Registry
import Pagewright.Hash.Sha256
import Pagewright.Import.Endpoint
import Pagewright.Import.Error
import Pagewright.Import.Frame
import Pagewright.Import.Reference
import Pagewright.Import.Response
import Pagewright.Json.Parser
import Pagewright.Json.Printer
import Pagewright.Json.Shape
import Pagewright.Json.Value
import Pagewright.Layout.Census
import Pagewright.Layout.Node
import Pagewright.Layout.Node.Json
import Pagewright.Layout.Style
import Pagewright.Layout.Style.Json
import Pagewright.Main
import Pagewright.Number.Binary
import Pagewright.Number.Form
import Pagewright.Number.Literal
import Pagewright.Number.Rounding
import Pagewright.Number.Scaled
import Pagewright.Number.Shortest
import Pagewright.Page.Build
import Pagewright.Page.Dialect
import Pagewright.Page.Element
import Pagewright.Page.Element.Json
import Pagewright.Page.Export
import Pagewright.Page.Flatten
import Pagewright.Page.Ids
import Pagewright.Page.Settings
import Pagewright.Page.Shares
import Pagewright.Page.Split
import Pagewright.Page.Widget
import Pagewright.Preview.Css
import Pagewright.Preview.Document
import Pagewright.Preview.Markup
import Pagewright.Preview.Render
import Pagewright.Proofs.Layout.Tree
import Pagewright.Proofs.Page.Tree
import Pagewright.Text.Blank
import Pagewright.Text.Characters
import Pagewright.Text.Percent
import Pagewright.Text.Quoted
import Pagewright.Text.Search
import Pagewright.Text.Utf8
import Pagewright.Toml.Moment
import Pagewright.Toml.Number
import Pagewright.Toml.Parser
import Pagewright.Toml.Text
import Pagewright.Toml.Tree
import Pagewright.Url.Address
import Pagewright.Url.Basic
import Pagewright.Url.Form
import Pagewright.Url.Host
import Pagewright.Url.Parser
import Pagewright.Url.Path
import Pagewright.Url.Permitted
import Pagewright.Url.Punycode
import Pagewright.Proofs.Page.Build
import Pagewright.Proofs.Page.Split
import Pagewright.Proofs.Page.Export
import Pagewright.Proofs.Page.Backdrop
import Pagewright.Proofs.Page.Placement
import Pagewright.Proofs.Page.Preservation
import Pagewright.Proofs.Page.Content
import Pagewright.Proofs.Page.Grammar
import Pagewright.Proofs.Number.View
import Pagewright.Proofs.Page.Apportion
import Pagewright.Proofs.Page.Shares
import Pagewright.Proofs.Page.RowSizes
import Pagewright.Proofs.Design.Tree
import Pagewright.Proofs.Design.Rows
import Pagewright.Proofs.Layout.Nodes
import Pagewright.Proofs.Classify.Builders
import Pagewright.Proofs.Classify.Texts
import Pagewright.Proofs.Classify.WellFormed
import Pagewright.Proofs.Import.Frame
import Pagewright.Proofs.Page.Allocation
import Pagewright.Proofs.Page.Labels
import Pagewright.Proofs.Json.Fields
import Pagewright.Proofs.Number.Whole
import Pagewright.Proofs.Layout.StyleJson
import Pagewright.Proofs.Layout.NodeJson
import Pagewright.Proofs.Layout.RoundTrip
import Pagewright.Proofs.Layout.Pruned
import Pagewright.Proofs.Page.Pruned
import Pagewright.Proofs.Design.Order
import Pagewright.Proofs.Classify.Order
import Pagewright.Proofs.Import.Order
import Pagewright.Proofs.Json.Stored
import Pagewright.Proofs.Design.Reader
import Pagewright.Proofs.Layout.Finite
import Pagewright.Proofs.Classify.Finite
import Pagewright.Proofs.Import.Finite
import Pagewright.Proofs.Preview.Reader
import Pagewright.Proofs.Preview.Markup
import Pagewright.Proofs.Preview.Document
import Pagewright.Proofs.Page.Flatten
import Pagewright.Proofs.Page.Inline
import Pagewright.Proofs.Format.Payload
import Pagewright.Proofs.Format.Registrations
import Pagewright.Proofs.Page.OwnIds
import Pagewright.Proofs.Config.Setting
import Pagewright.Proofs.Command.Precedence
import Pagewright.Proofs.Page.Sightings
import Pagewright.Proofs.Page.Regrouping
import Pagewright.Proofs.Page.Faces
import Pagewright.Proofs.Page.Undivided
import Pagewright.Proofs.Classify.Background
import Pagewright.Proofs.Page.Quotas
import Pagewright.Proofs.Page.Percents
import Pagewright.Proofs.Page.Sizing
import Pagewright.Proofs.Preview.Unknown
import Pagewright.Proofs.Number.Order
import Pagewright.Proofs.Design.FirstFit
import Pagewright.Proofs.Classify.Scatter
import Pagewright.Proofs.Page.Containers
import Pagewright.Proofs.Format.Fragments
import Pagewright.Proofs.Classify.Leaves
import Pagewright.Proofs.Classify.FontSizes
import Pagewright.Proofs.Preview.Pruned
import Pagewright.Proofs.Layout.Census
import Pagewright.Proofs.Number.Characters
import Pagewright.Proofs.Preview.Declarations
import Pagewright.Proofs.Page.ElementJson
import Pagewright.Proofs.Text.Coding
import Pagewright.Proofs.Url.Written
import Pagewright.Proofs.Import.Reference
import Pagewright.Proofs.Import.Endpoint
import Pagewright.Proofs.Layout.Overlay
import Pagewright.Proofs.Classify.Layers
