import ProtoLayout.Layout.Statics
import ProtoLayout.Diagnostic

/-!
The entry point of a batch: the first static method marked as one, in the first class or
interface by id that has one. It is called, or named by a diagnostic when it cannot be.
-/

namespace ProtoLayout.Layout

open Script

def findEntryPoint (batch : Batch) : Option (Nat × Decl × Method) :=
  (batch.decls.zipIdx).findSome? fun (d, i) =>
    match d.classBody? with
    | some b => (b.staticMethods.find? (·.isEntryPoint)).map fun m => (i, d, m)
    | none => none

def exposesStatics (d : Decl) : Bool :=
  !d.isGeneric && match d.marker with
    | .resources _ => false
    | _ => true

/-- The call of the entry point, or the diagnostic that prevents it. -/
def entryPoint (opts : Options) (batch : Batch) : Option Node × List Diagnostic :=
  match findEntryPoint batch with
  | none => (none, [])
  | some (i, d, m) =>
    let symbol := d.name.qualified ++ "." ++ m.name
    if m.semantics ≠ .normal || m.body.isNone || !exposesStatics d then
      (none, [Diagnostic.ofCode entryPointNotNormal symbol [symbol]])
    else if !m.scriptParams.isEmpty then
      (none, [Diagnostic.ofCode entryPointHasParameters symbol [symbol]])
    else (some (.exprStmt (Node.methodCall (staticTarget opts batch i d) m.name [])), [])

end ProtoLayout.Layout
