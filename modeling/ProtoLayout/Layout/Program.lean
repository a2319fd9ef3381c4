import ProtoLayout.Layout.Fixture
import ProtoLayout.Script.Render
import ProtoLayout.Layout.EntryPoint
import ProtoLayout.Namespace.Tree
import ProtoLayout.Namespace.Registry
import ProtoLayout.Schedule.Depth
import ProtoLayout.Schedule.InitOrder

/-!
The script of a batch: fragments in declaration order with namespace registrations, then
the static initialisers in static-initialiser order, then the entry-point call.
-/

namespace ProtoLayout.Layout

open Script

structure Program where
  statements : List Node
  declarationOrder : List Nat
  initOrder : List Nat
  diagnostics : List Diagnostic
deriving Inhabited

def Program.text (p : Program) : String := renderStatements p.statements

def needsNamespace (d : Decl) : Bool :=
  match d.marker with
  | .plain | .testFixture | .resources _ => true
  | .mixin _ | .globalMethods => false

def markedFragment (opts : Options) (batch : Batch) (i : Nat) (d : Decl) : List Node :=
  match d.marker with
  | .plain => fragment opts batch i d
  | .testFixture =>
    match d.kind with
    | .classDecl b => fragment opts batch i { d with kind := .classDecl (withTestRunner opts b) }
    | _ => fragment opts batch i d
  | .globalMethods =>
    banner opts d ++ (match d.classBody? with
      | some b => attachStatics b (Node.dotted opts.globalObject)
      | none => [])
  | .mixin t =>
    banner opts d ++ (match d.classBody? with
      | some b => attachStatics b t
      | none => [])
  | .resources entries => banner opts d ++ [resourceTable (batch.typeRef i) entries]

/-- None for a generic, whose factory runs it, or a resource table. -/
def scheduledInit (d : Decl) : List Node :=
  if d.isGeneric then []
  else match d.marker with
    | .resources _ => []
    | _ => match d.classBody? with
      | some b => b.staticInit
      | none => []

def fragments (opts : Options) (batch : Batch) (order : List Nat) : List Node :=
  (order.foldl (fun (acc : List Node × Namespace.Registry) i =>
    match batch.get? i with
    | none => acc
    | some d =>
      let (reg, registry) :=
        if needsNamespace d then
          match d.name.pathText? with
          | some path => acc.2.ensure opts.typeSystem path
          | none => (none, acc.2)
        else (none, acc.2)
      (acc.1 ++ reg.toList ++ markedFragment opts batch i d, registry)) ([], {})).1

def layout (opts : Options) (batch : Batch) : Program :=
  let declOrder := Schedule.declarationOrder batch (Namespace.displayOrder batch)
  let initOrder := (Schedule.Graph.build batch).initOrder
  let inits := initOrder.flatMap fun i => ((batch.get? i).map scheduledInit).getD []
  let (call, diagnostics) := entryPoint opts batch
  ⟨fragments opts batch declOrder ++ inits ++ call.toList, declOrder, initOrder, diagnostics⟩

end ProtoLayout.Layout
