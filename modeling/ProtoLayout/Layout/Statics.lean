import ProtoLayout.Layout.Fragment

/-!
Static members placed on an object other than the declaration's own.
-/

namespace ProtoLayout.Layout

open Script

/-- The global object for a global-method holder, the target of a mixin, else the declaration. -/
def staticTarget (opts : Options) (batch : Batch) (i : Nat) (d : Decl) : Node :=
  match d.marker with
  | .globalMethods => Node.dotted opts.globalObject
  | .mixin t => t
  | _ => batch.typeRef i

def attachStatics (b : ClassBody) (target : Node) : List Node :=
  b.staticMethods.filterMap fun m =>
    (methodFunction m).map fun f => Node.assignStmt (.member target m.name) f

def resourceTable (target : Node) (entries : List Resource) : Node :=
  Node.assignStmt target (.object (entries.map fun e => (Key.name e.key, e.value)))

end ProtoLayout.Layout
