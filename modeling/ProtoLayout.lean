import ProtoLayout.Script.Node
import ProtoLayout.Script.Quoted
import ProtoLayout.Script.Render
import ProtoLayout.Text.Printable
import ProtoLayout.Json.Value
import ProtoLayout.TypeName
import ProtoLayout.Decl.Basic
import ProtoLayout.Batch
import ProtoLayout.References
import ProtoLayout.Namespace.Tree
import ProtoLayout.Namespace.Registry
import ProtoLayout.Schedule.Tiers
import ProtoLayout.Schedule.Graph
import ProtoLayout.Schedule.Components
import ProtoLayout.Schedule.Depth
import ProtoLayout.Schedule.InitOrder
import ProtoLayout.Options
import ProtoLayout.Diagnostic
import ProtoLayout.Layout.Fragment
import ProtoLayout.Layout.Statics
import ProtoLayout.Layout.Fixture
import ProtoLayout.Layout.EntryPoint
import ProtoLayout.Layout.Program
import ProtoLayout.Interchange.Read
import ProtoLayout.Interchange.Request
import ProtoLayout.Interchange.Write
import ProtoLayout.LogFormat
import ProtoLayout.Command.Similarity
import ProtoLayout.Command.Line
import ProtoLayout.Command.Directory
import ProtoLayout.Command.FileSystem
import ProtoLayout.Command.Run
import ProtoLayout.Main
import ProtoLayout.Proofs.Components.Search
import ProtoLayout.Proofs.Components.Visit
import ProtoLayout.Proofs.Components.Tarjan
import ProtoLayout.Proofs.InitOrder.Condensation
import ProtoLayout.Proofs.InitOrder.Placement
import ProtoLayout.Proofs.InitOrder.Members
import ProtoLayout.Proofs.InitOrder.Levels
import ProtoLayout.Proofs.Declaration.Depth
import ProtoLayout.Proofs.Namespace.Display
import ProtoLayout.Proofs.Layout.Statements
import ProtoLayout.Proofs.Declaration.Order
import ProtoLayout.Proofs.Layout.StaticInit
import ProtoLayout.Proofs.InitOrder.Greatest
import ProtoLayout.Proofs.Namespace.Registration
import ProtoLayout.Proofs.Layout.EntryPoint
import ProtoLayout.Proofs.References.Mentions
import ProtoLayout.Proofs.References.Edges
import ProtoLayout.Proofs.Namespace.Sorted
import ProtoLayout.Proofs.Layout.Fixture
import ProtoLayout.Proofs.Layout.Fragment
import ProtoLayout.Proofs.Names.Dotted
import ProtoLayout.Proofs.Script.Indent
import ProtoLayout.Proofs.Diagnostic.Filling
import ProtoLayout.Proofs.Script.Literal
