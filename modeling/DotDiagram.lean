import DotDiagram.AttrSet
import DotDiagram.AttrValue
import DotDiagram.Binary64
import DotDiagram.ClassDiagram.Basic
import DotDiagram.ClassDiagram.Label
import DotDiagram.ClassDiagram.Reader
import DotDiagram.ClassDiagram.Style
import DotDiagram.CommandLine
import DotDiagram.Decimal.Shortest
import DotDiagram.Dot.Document
import DotDiagram.Dot.Writer
import DotDiagram.Error
import DotDiagram.Host.Basic
import DotDiagram.Host.Memory
import DotDiagram.Keyed
import DotDiagram.Main
import DotDiagram.Markdown
import DotDiagram.Markdown.Block
import DotDiagram.Markdown.BlockReader
import DotDiagram.Markdown.Cursor
import DotDiagram.Markdown.Delimiter
import DotDiagram.Markdown.Event
import DotDiagram.Markdown.Html
import DotDiagram.Markdown.Inline
import DotDiagram.Markdown.InlineReader
import DotDiagram.Markdown.Label
import DotDiagram.Markdown.LineMark
import DotDiagram.Markdown.LinkTarget
import DotDiagram.Markdown.OpenBlocks
import DotDiagram.Markdown.Reference
import DotDiagram.Markdown.Spacing
import DotDiagram.Markup
import DotDiagram.MindMap
import DotDiagram.Presets
import DotDiagram.RankDir
import DotDiagram.Text.Blank
import DotDiagram.Text.Fold
import DotDiagram.Text.Letters
import DotDiagram.Text.Punctuation
import DotDiagram.Text.Scan
import DotDiagram.Theme
import DotDiagram.Workspace.Ambient
import DotDiagram.Workspace.Attach
import DotDiagram.Workspace.Basic
import DotDiagram.Workspace.Chain
import DotDiagram.Workspace.ClassGraph
import DotDiagram.Workspace.Container
import DotDiagram.Workspace.Handle
import DotDiagram.Workspace.MindMap
import DotDiagram.Workspace.Template
import DotDiagram.Proofs.Dot.Legible
import DotDiagram.Proofs.Dot.Token
import DotDiagram.Proofs.Dot.Reader
import DotDiagram.Proofs.Dot.RoundTrip
import DotDiagram.Proofs.Workspace.Session
import DotDiagram.Proofs.Workspace.Stacks
import DotDiagram.Proofs.Workspace.Scopes
import DotDiagram.Proofs.Workspace.Drawing
import DotDiagram.Proofs.Workspace.Constructions
import DotDiagram.Proofs.Workspace.Discipline
import DotDiagram.Proofs.Keyed
import DotDiagram.Proofs.Workspace.Layout
import DotDiagram.Proofs.Workspace.Containment
import DotDiagram.Proofs.Workspace.Growth
import DotDiagram.Proofs.Workspace.Ledger
import DotDiagram.Proofs.Workspace.Course
import DotDiagram.Proofs.Workspace.Orderly
import DotDiagram.Proofs.Workspace.Agreement
import DotDiagram.Proofs.Workspace.Reception
import DotDiagram.Proofs.Layers
import DotDiagram.Proofs.Regrouping
import DotDiagram.Proofs.Binary64
import DotDiagram.Proofs.Equality
import DotDiagram.Proofs.Journal
import DotDiagram.Proofs.Workspace.Resolution
import DotDiagram.Proofs.Workspace.Attachment
import DotDiagram.Proofs.Workspace.Draft
import DotDiagram.Proofs.ClassDiagram.Drawing
import DotDiagram.Proofs.ClassDiagram.Legibility
import DotDiagram.Proofs.ClassDiagram.Rendering
import DotDiagram.Proofs.ClassDiagram.Reading
import DotDiagram.Proofs.Text.Following
import DotDiagram.Proofs.ClassDiagram.Pieces
import DotDiagram.Proofs.ClassDiagram.Joining
import DotDiagram.Proofs.Markup.Piece
import DotDiagram.Proofs.Markup.Tree
import DotDiagram.Proofs.Markup.Balance
import DotDiagram.Proofs.Markup.Table
import DotDiagram.Proofs.ClassDiagram.Label
import DotDiagram.Proofs.Workspace.Record
import DotDiagram.Proofs.Workspace.Rendition
import DotDiagram.Proofs.Workspace.FirstWins
import DotDiagram.Proofs.Workspace.Forest
import DotDiagram.Proofs.Workspace.History
import DotDiagram.Proofs.Workspace.Planting
import DotDiagram.Proofs.Workspace.Endpoints
import DotDiagram.Proofs.Workspace.Appearance
import DotDiagram.Proofs.Workspace.Isolation
import DotDiagram.Proofs.Workspace.Registration
import DotDiagram.Proofs.Workspace.Rejection
import DotDiagram.Proofs.Text.Trim
import DotDiagram.Proofs.Markdown.Node
import DotDiagram.Proofs.Markdown.Reading
import DotDiagram.Proofs.Markdown.Close
import DotDiagram.Proofs.Markdown.Nesting
import DotDiagram.Proofs.Markdown.Placement
import DotDiagram.Proofs.Markdown.EventForest
import DotDiagram.Proofs.Markdown.Document
import DotDiagram.Proofs.Markdown.Structure
import DotDiagram.Proofs.Workspace.Admission
import DotDiagram.Proofs.Workspace.Groups
import DotDiagram.Proofs.Workspace.Extension
import DotDiagram.Proofs.ClassDiagram.Header
import DotDiagram.Proofs.ClassDiagram.Body
import DotDiagram.Proofs.ClassDiagram.BraceLine
import DotDiagram.Proofs.ClassDiagram.Comment
import DotDiagram.Proofs.Text.Returns
import DotDiagram.Proofs.ClassDiagram.LineEndings
import DotDiagram.Proofs.Text.Cut
import DotDiagram.Proofs.ClassDiagram.Complaint
import DotDiagram.Proofs.ClassDiagram.WellFormed
import DotDiagram.Proofs.Workspace.GraphCalls
import DotDiagram.Proofs.Workspace.GraphTheme
import DotDiagram.Proofs.Workspace.Chains
import DotDiagram.Proofs.Workspace.Respect
import DotDiagram.Proofs.Workspace.Restoration
import DotDiagram.Proofs.Markdown.Numbering
import DotDiagram.Proofs.Markdown.Alignment
import DotDiagram.Proofs.Workspace.AutomaticNames
import DotDiagram.Proofs.ClassDiagram.Progress
