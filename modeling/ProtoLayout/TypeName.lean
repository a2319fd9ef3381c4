/-!
Script names of types: a namespace path, then the chain of enclosing types joined by `$`.
-/

namespace ProtoLayout

structure TypeName where
  path : List String := []
  nesting : List String
deriving DecidableEq, Repr, Inhabited

namespace TypeName

/-- Splits `A.B.Name` at every dot; the last segment is the simple name. -/
def parse (qualified : String) : TypeName :=
  let parts := qualified.splitOn "."
  ⟨parts.dropLast, [parts.getLast?.getD ""]⟩

def nested (outer : TypeName) (inner : String) : TypeName :=
  ⟨outer.path, outer.nesting ++ [inner]⟩

def simpleName (n : TypeName) : String := "$".intercalate n.nesting

/-- The dotted namespace path, or `none` in the global namespace. -/
def pathText? (n : TypeName) : Option String :=
  if n.path.isEmpty then none else some (".".intercalate n.path)

/-- The qualified name `A.B.Outer$Inner`, or the simple name in the global namespace. -/
def qualified (n : TypeName) : String :=
  match n.pathText? with
  | some p => p ++ "." ++ n.simpleName
  | none => n.simpleName

end TypeName

end ProtoLayout
