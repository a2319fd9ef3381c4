import ProtoLayout.Script.Node

/-!
Registration of namespaces before the first declaration in them.
-/

namespace ProtoLayout.Namespace

open Script

structure Registry where
  known : List String := []
deriving Inhabited

/-- Appends a segment, with a dot only after a non-empty prefix (so `.A` records `` and `A`). -/
def prefixStep (acc : String × List String) (seg : String) : String × List String :=
  let p := (if acc.1.isEmpty then acc.1 else acc.1 ++ ".") ++ seg
  (p, acc.2 ++ [p])

def prefixes (path : String) : List String :=
  (((path.toList.splitOn '.').map String.ofList).foldl prefixStep ("", [])).2

def registration (typeSystem path : String) : Node :=
  .exprStmt (Node.methodCall (Node.dotted typeSystem) "registerNamespace" [.string path])

/-- Registers `path` unless it is global or already recorded, recording all its prefixes. -/
def Registry.ensure (r : Registry) (typeSystem path : String) : Option Node × Registry :=
  if path.isEmpty || r.known.contains path then (none, r)
  else (some (registration typeSystem path), ⟨r.known ++ prefixes path⟩)

end ProtoLayout.Namespace
