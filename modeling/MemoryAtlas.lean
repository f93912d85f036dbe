import MemoryAtlas.Decimal.Binary
import MemoryAtlas.Decimal.Shortest
import MemoryAtlas.Foreign.ForeignString
import MemoryAtlas.Foreign.OrderedTree
import MemoryAtlas.Foreign.Vector
import MemoryAtlas.Image.Address
import MemoryAtlas.Image.Fault
import MemoryAtlas.Image.Memory
import MemoryAtlas.Image.Pattern
import MemoryAtlas.Image.RegionTable
import MemoryAtlas.Image.Snapshot
import MemoryAtlas.Json.Decoding
import MemoryAtlas.Json.Reader
import MemoryAtlas.Json.Value
import MemoryAtlas.Json.Writer
import MemoryAtlas.Layout.Difference
import MemoryAtlas.Layout.OffsetMap
import MemoryAtlas.Layout.Placement
import MemoryAtlas.Layout.Shape
import MemoryAtlas.Layout.View
import MemoryAtlas.Main
import MemoryAtlas.Proofs.Foreign.AddressTree
import MemoryAtlas.Proofs.Foreign.Search
import MemoryAtlas.Proofs.Foreign.Traversal
import MemoryAtlas.Proofs.Layout.Nesting
import MemoryAtlas.Proofs.Layout.OwnFields
import MemoryAtlas.Proofs.Layout.Recording
import MemoryAtlas.Proofs.Layout.Runs
import MemoryAtlas.Proofs.Layout.Standing
import MemoryAtlas.Proofs.Layout.Unfolding
import MemoryAtlas.Proofs.Layout.Uniform
import MemoryAtlas.Proofs.Layout.Walk
import MemoryAtlas.Proofs.Schema.Acyclic
import MemoryAtlas.Proofs.Schema.Declared
import MemoryAtlas.Proofs.Schema.Loaded
import MemoryAtlas.Proofs.Sequence
import MemoryAtlas.Regex.Automaton
import MemoryAtlas.Regex.Engine
import MemoryAtlas.Regex.LetterCase
import MemoryAtlas.Regex.Property
import MemoryAtlas.Regex.Reader
import MemoryAtlas.Regex.Script
import MemoryAtlas.Regex.Syntax
import MemoryAtlas.Report.Containers
import MemoryAtlas.Report.Hexdump
import MemoryAtlas.Report.Input
import MemoryAtlas.Report.Objects
import MemoryAtlas.Report.Outcome
import MemoryAtlas.Report.Rendering
import MemoryAtlas.Report.Slots
import MemoryAtlas.Report.Tree
import MemoryAtlas.Report.Types
import MemoryAtlas.Schema.Catalog
import MemoryAtlas.Schema.Document
import MemoryAtlas.Schema.Embedding
import MemoryAtlas.Schema.Fault
import MemoryAtlas.Schema.Hierarchy
import MemoryAtlas.Schema.Host
import MemoryAtlas.Schema.Loading
import MemoryAtlas.Session.Arguments
import MemoryAtlas.Session.Command
import MemoryAtlas.Session.Config
import MemoryAtlas.Session.Source
import MemoryAtlas.Slots.Directory
import MemoryAtlas.Slots.Resolution
import MemoryAtlas.Slots.Signature
import MemoryAtlas.Table
import MemoryAtlas.Text.Blank
import MemoryAtlas.Text.Category
import MemoryAtlas.Text.Numeral
import MemoryAtlas.Text.Quoted
import MemoryAtlas.Text.Unicode
import MemoryAtlas.Toml.Reader
import MemoryAtlas.Toml.Tree
import MemoryAtlas.Types.Kind
import MemoryAtlas.Types.Scalar
import MemoryAtlas.Types.Standard
import MemoryAtlas.Types.Value
import MemoryAtlas.Word
import MemoryAtlas.Proofs.Image.Seams
import MemoryAtlas.Proofs.Layout.SelfComparison
import MemoryAtlas.Proofs.Schema.Hierarchies
import MemoryAtlas.Proofs.Layout.Growth
import MemoryAtlas.Proofs.Layout.Extent
import MemoryAtlas.Proofs.Layout.Closed
import MemoryAtlas.Proofs.Layout.Paths
import MemoryAtlas.Proofs.Report.Owners
import MemoryAtlas.Proofs.Layout.Depth
import MemoryAtlas.Proofs.Schema.Titles
import MemoryAtlas.Proofs.Report.Titles
import MemoryAtlas.Proofs.Report.States
import MemoryAtlas.Proofs.Schema.Filing
import MemoryAtlas.Proofs.Layout.Unresolved
import MemoryAtlas.Proofs.Layout.Pointees
import MemoryAtlas.Proofs.Layout.Fitting
import MemoryAtlas.Proofs.Foreign.RedBlack
import MemoryAtlas.Proofs.Schema.Designation
import MemoryAtlas.Proofs.Schema.Functions
import MemoryAtlas.Proofs.Regex.Escapes
import MemoryAtlas.Proofs.Regex.Matching
import MemoryAtlas.Proofs.Regex.Classes
import MemoryAtlas.Proofs.Regex.Rows
import MemoryAtlas.Proofs.Regex.Fuel
import MemoryAtlas.Proofs.Regex.Language
import MemoryAtlas.Proofs.Schema.ClassRules
import MemoryAtlas.Proofs.Slots.History
import MemoryAtlas.Proofs.Image.Written
import MemoryAtlas.Proofs.Foreign.StoredText
import MemoryAtlas.Proofs.Layout.Exclusion
import MemoryAtlas.Proofs.Schema.Cycles
import MemoryAtlas.Proofs.Image.Occurrences
import MemoryAtlas.Proofs.Foreign.Interrupted
import MemoryAtlas.Proofs.Layout.DeclaredRoom
import MemoryAtlas.Proofs.Foreign.Elements
import MemoryAtlas.Proofs.Layout.Comparison
import MemoryAtlas.Proofs.Slots.Resolved
import MemoryAtlas.Proofs.Report.Previews
import MemoryAtlas.Proofs.Slots.Addresses
import MemoryAtlas.Proofs.Slots.Nearest
import MemoryAtlas.Proofs.Slots.Located
import MemoryAtlas.Proofs.Foreign.Keys
import MemoryAtlas.Proofs.Foreign.NodePlacement
import MemoryAtlas.Proofs.Text.Words
import MemoryAtlas.Proofs.Text.Numerals
import MemoryAtlas.Proofs.Image.PatternText
import MemoryAtlas.Proofs.Report.Spellings
import MemoryAtlas.Proofs.Report.Dumps
import MemoryAtlas.Proofs.Layout.Lookup
