import BladeTemplate.Ambient
import BladeTemplate.Config
import BladeTemplate.Decimal.Nearest
import BladeTemplate.Decimal.Shortest
import BladeTemplate.Diagnostic
import BladeTemplate.Directive.Builder
import BladeTemplate.Directive.Builtin
import BladeTemplate.Directive.Descriptor
import BladeTemplate.Directive.Registry
import BladeTemplate.Event
import BladeTemplate.Fault
import BladeTemplate.Fingerprint
import BladeTemplate.Format
import BladeTemplate.Json.Number
import BladeTemplate.Json.Reader
import BladeTemplate.Json.Value
import BladeTemplate.Json.Writer
import BladeTemplate.Layout.Decision
import BladeTemplate.Layout.Lines
import BladeTemplate.Layout.Print
import BladeTemplate.Location
import BladeTemplate.Markup.Attribute
import BladeTemplate.Markup.Tag
import BladeTemplate.Node
import BladeTemplate.Node.Codec
import BladeTemplate.Node.Decode
import BladeTemplate.Node.Encode
import BladeTemplate.Proofs.Alike
import BladeTemplate.Proofs.AnyFile
import BladeTemplate.Proofs.ArgumentLists
import BladeTemplate.Proofs.Arrangement
import BladeTemplate.Proofs.Assembly
import BladeTemplate.Proofs.Assumption
import BladeTemplate.Proofs.Balance
import BladeTemplate.Proofs.BracketGroups
import BladeTemplate.Proofs.BuildHistory
import BladeTemplate.Proofs.CanonicalLayout
import BladeTemplate.Proofs.Closers
import BladeTemplate.Proofs.Composed
import BladeTemplate.Proofs.Copied
import BladeTemplate.Proofs.Counted
import BladeTemplate.Proofs.Coverage
import BladeTemplate.Proofs.Decoding
import BladeTemplate.Proofs.Dispatches
import BladeTemplate.Proofs.Draft
import BladeTemplate.Proofs.EchoLengths
import BladeTemplate.Proofs.EchoPlaces
import BladeTemplate.Proofs.EchoSpacing
import BladeTemplate.Proofs.Edges
import BladeTemplate.Proofs.EntriesApart
import BladeTemplate.Proofs.EntryOrder
import BladeTemplate.Proofs.Fallback
import BladeTemplate.Proofs.FixedPoint
import BladeTemplate.Proofs.Flow
import BladeTemplate.Proofs.Frames
import BladeTemplate.Proofs.Grammar
import BladeTemplate.Proofs.Growth
import BladeTemplate.Proofs.Ink
import BladeTemplate.Proofs.Inventions
import BladeTemplate.Proofs.ItemEdges
import BladeTemplate.Proofs.KeptBodies
import BladeTemplate.Proofs.KeptInk
import BladeTemplate.Proofs.LeftOpen
import BladeTemplate.Proofs.LineMargins
import BladeTemplate.Proofs.Locality
import BladeTemplate.Proofs.Lossless
import BladeTemplate.Proofs.Matching
import BladeTemplate.Proofs.Measure
import BladeTemplate.Proofs.NodeEdges
import BladeTemplate.Proofs.Notes
import BladeTemplate.Proofs.Occurrences
import BladeTemplate.Proofs.OneLine
import BladeTemplate.Proofs.Outline
import BladeTemplate.Proofs.OutputEnds
import BladeTemplate.Proofs.OutputLines
import BladeTemplate.Proofs.PairingMachine
import BladeTemplate.Proofs.Pairings
import BladeTemplate.Proofs.PlainEnds
import BladeTemplate.Proofs.PlainTags
import BladeTemplate.Proofs.Positions
import BladeTemplate.Proofs.Preserved
import BladeTemplate.Proofs.Printed
import BladeTemplate.Proofs.RawBodies
import BladeTemplate.Proofs.RawElements
import BladeTemplate.Proofs.RawItems
import BladeTemplate.Proofs.ReadBack
import BladeTemplate.Proofs.Reading
import BladeTemplate.Proofs.Recoveries
import BladeTemplate.Proofs.Registration
import BladeTemplate.Proofs.Relocation
import BladeTemplate.Proofs.Reported
import BladeTemplate.Proofs.Run
import BladeTemplate.Proofs.Saved
import BladeTemplate.Proofs.Search
import BladeTemplate.Proofs.SelfClosing
import BladeTemplate.Proofs.Sessions
import BladeTemplate.Proofs.Severity
import BladeTemplate.Proofs.Simulation
import BladeTemplate.Proofs.Slices
import BladeTemplate.Proofs.Span
import BladeTemplate.Proofs.Spelling
import BladeTemplate.Proofs.Standing
import BladeTemplate.Proofs.Stream
import BladeTemplate.Proofs.Surroundings
import BladeTemplate.Proofs.TagCalls
import BladeTemplate.Proofs.TagEntries
import BladeTemplate.Proofs.Tiling
import BladeTemplate.Proofs.Transcript
import BladeTemplate.Proofs.Typeset
import BladeTemplate.Proofs.Unchecked
import BladeTemplate.Proofs.ValueUnits
import BladeTemplate.Proofs.Verbatim
import BladeTemplate.Proofs.Verdict
import BladeTemplate.Proofs.WhiteSpace
import BladeTemplate.Session
import BladeTemplate.Stability
import BladeTemplate.Text.Blank
import BladeTemplate.Text.Bracket
import BladeTemplate.Text.Chars
import BladeTemplate.Text.CodeRange
import BladeTemplate.Text.Echo
import BladeTemplate.Text.Letter
import BladeTemplate.Text.Literal
import BladeTemplate.Text.LowerCase
import BladeTemplate.Text.Printable
import BladeTemplate.Text.Quoted
import BladeTemplate.Token
import BladeTemplate.Token.Lookahead
import BladeTemplate.Token.Scan
import BladeTemplate.Token.State
import BladeTemplate.Token.Step
import BladeTemplate.Tree.Build
import BladeTemplate.Tree.Frame
import BladeTemplate.Tree.Item
