import DiagramSketch.Activity.Basic
import DiagramSketch.Activity.Drawing
import DiagramSketch.ClassModel.Basic
import DiagramSketch.ClassModel.Drawing
import DiagramSketch.CommandLine.Dialogue
import DiagramSketch.CommandLine.Failure
import DiagramSketch.CommandLine.FileSystem
import DiagramSketch.CommandLine.FileTree
import DiagramSketch.CommandLine.Grammar
import DiagramSketch.CommandLine.Job
import DiagramSketch.CommandLine.Path
import DiagramSketch.CommandLine.Request
import DiagramSketch.CommandLine.Run
import DiagramSketch.Components.Basic
import DiagramSketch.Components.Drawing
import DiagramSketch.Components.Source
import DiagramSketch.Diagram
import DiagramSketch.Fault
import DiagramSketch.Font
import DiagramSketch.Font.Bundled
import DiagramSketch.Gallery
import DiagramSketch.Geometry
import DiagramSketch.Keyed
import DiagramSketch.Kind
import DiagramSketch.Lookup
import DiagramSketch.Main
import DiagramSketch.MindMap.Basic
import DiagramSketch.MindMap.Drawing
import DiagramSketch.Number.Basic
import DiagramSketch.Number.Binary64
import DiagramSketch.Number.Decimal
import DiagramSketch.Number.Format
import DiagramSketch.Number.Rounding
import DiagramSketch.Number.Shortest
import DiagramSketch.Panel
import DiagramSketch.Proofs.Activity.Drawing
import DiagramSketch.Proofs.Activity.Lane
import DiagramSketch.Proofs.Activity.Recognition
import DiagramSketch.Proofs.ClassModel.Boxes
import DiagramSketch.Proofs.ClassModel.Drawing
import DiagramSketch.Proofs.ClassModel.Lines
import DiagramSketch.Proofs.ClassModel.Members
import DiagramSketch.Proofs.ClassModel.Source
import DiagramSketch.Proofs.CommandLine.Announcements
import DiagramSketch.Proofs.CommandLine.Beside
import DiagramSketch.Proofs.CommandLine.Diagnostics
import DiagramSketch.Proofs.CommandLine.FailureForms
import DiagramSketch.Proofs.CommandLine.FileSystem
import DiagramSketch.Proofs.CommandLine.FileTree
import DiagramSketch.Proofs.CommandLine.GeneralOptions
import DiagramSketch.Proofs.CommandLine.Help
import DiagramSketch.Proofs.CommandLine.JsonRecords
import DiagramSketch.Proofs.CommandLine.Leading
import DiagramSketch.Proofs.CommandLine.Operands
import DiagramSketch.Proofs.CommandLine.Routes
import DiagramSketch.Proofs.CommandLine.Run
import DiagramSketch.Proofs.Components.Arrangement
import DiagramSketch.Proofs.Components.Brackets
import DiagramSketch.Proofs.Components.Declarations
import DiagramSketch.Proofs.Components.Drawing
import DiagramSketch.Proofs.Components.History
import DiagramSketch.Proofs.Components.Manuscript
import DiagramSketch.Proofs.Components.Resolution
import DiagramSketch.Proofs.Components.Store
import DiagramSketch.Proofs.Components.Transcription
import DiagramSketch.Proofs.Diagram.Anatomy
import DiagramSketch.Proofs.Diagram.Bounds
import DiagramSketch.Proofs.Diagram.Distinct
import DiagramSketch.Proofs.Diagram.Document
import DiagramSketch.Proofs.Diagram.Drawing
import DiagramSketch.Proofs.Diagram.Extents
import DiagramSketch.Proofs.Diagram.Growth
import DiagramSketch.Proofs.Diagram.Identity
import DiagramSketch.Proofs.Diagram.Legality
import DiagramSketch.Proofs.Diagram.Placement
import DiagramSketch.Proofs.Diagram.Provenance
import DiagramSketch.Proofs.Diagram.Recovery
import DiagramSketch.Proofs.Diagram.Rendering
import DiagramSketch.Proofs.Diagram.Separation
import DiagramSketch.Proofs.Diagram.Sources
import DiagramSketch.Proofs.Font
import DiagramSketch.Proofs.Font.Bundled
import DiagramSketch.Proofs.Growth
import DiagramSketch.Proofs.Json.Reader
import DiagramSketch.Proofs.Json.RoundTrip
import DiagramSketch.Proofs.Kind.Boundaries
import DiagramSketch.Proofs.Kind.Precedence
import DiagramSketch.Proofs.Lookup
import DiagramSketch.Proofs.MindMap.Ancestry
import DiagramSketch.Proofs.MindMap.Branches
import DiagramSketch.Proofs.MindMap.Drawing
import DiagramSketch.Proofs.MindMap.Levels
import DiagramSketch.Proofs.Number.Accuracy
import DiagramSketch.Proofs.Number.Decimals
import DiagramSketch.Proofs.Number.Exact
import DiagramSketch.Proofs.Number.Order
import DiagramSketch.Proofs.Number.Overflow
import DiagramSketch.Proofs.Number.Spelling
import DiagramSketch.Proofs.Results
import DiagramSketch.Proofs.Scene.Canvas
import DiagramSketch.Proofs.Scene.Elements
import DiagramSketch.Proofs.Scene.Outlines
import DiagramSketch.Proofs.Scene.Recovery
import DiagramSketch.Proofs.Scene.Subjects
import DiagramSketch.Proofs.Schedule.Drawing
import DiagramSketch.Proofs.Schedule.Lines
import DiagramSketch.Proofs.Schedule.Predecessors
import DiagramSketch.Proofs.Schedule.Reference
import DiagramSketch.Proofs.Sequence.Drawing
import DiagramSketch.Proofs.Sequence.Keywords
import DiagramSketch.Proofs.Sequence.Source
import DiagramSketch.Proofs.Svg.Attributes
import DiagramSketch.Proofs.Svg.Documents
import DiagramSketch.Proofs.Svg.Printing
import DiagramSketch.Proofs.Svg.Sheet
import DiagramSketch.Proofs.Text.Joining
import DiagramSketch.Proofs.Text.LineEnds
import DiagramSketch.Proofs.Text.Lines
import DiagramSketch.Proofs.Text.Normalization
import DiagramSketch.Proofs.Text.Reading
import DiagramSketch.Proofs.Text.Scanning
import DiagramSketch.Proofs.Text.Sources
import DiagramSketch.Proofs.Text.Spellings
import DiagramSketch.Proofs.Text.Utf8
import DiagramSketch.Proofs.Text.Words
import DiagramSketch.Proofs.UseCases.Drawing
import DiagramSketch.Proofs.UseCases.Labels
import DiagramSketch.Proofs.UseCases.Lines
import DiagramSketch.Proofs.UseCases.Links
import DiagramSketch.Proofs.Xml.Descendants
import DiagramSketch.Proofs.Xml.Indentation
import DiagramSketch.Proofs.Xml.Layout
import DiagramSketch.Proofs.Xml.Legality
import DiagramSketch.Proofs.Xml.Reader
import DiagramSketch.Proofs.Xml.RoundTrip
import DiagramSketch.Proofs.Xml.Scanning
import DiagramSketch.Render
import DiagramSketch.Scene
import DiagramSketch.Schedule.Basic
import DiagramSketch.Schedule.Drawing
import DiagramSketch.Sequence.Basic
import DiagramSketch.Sequence.Drawing
import DiagramSketch.Svg.Attribute
import DiagramSketch.Svg.Document
import DiagramSketch.Svg.Element
import DiagramSketch.Svg.Sheet
import DiagramSketch.Text.Basic
import DiagramSketch.Text.Case
import DiagramSketch.Text.Digit
import DiagramSketch.Text.Hexadecimal
import DiagramSketch.Text.JsonString
import DiagramSketch.Text.Printable
import DiagramSketch.Text.Quoted
import DiagramSketch.Text.RangeTable
import DiagramSketch.Text.Scan
import DiagramSketch.Text.Utf8
import DiagramSketch.Text.Word
import DiagramSketch.Trace
import DiagramSketch.UseCases.Basic
import DiagramSketch.UseCases.Drawing
import DiagramSketch.Xml.Document
import DiagramSketch.Xml.Element
import DiagramSketch.Xml.Name
import DiagramSketch.Xml.PlainNames
import DiagramSketch.Xml.Print
