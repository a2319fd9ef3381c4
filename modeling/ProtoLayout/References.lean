import ProtoLayout.Decl.Basic

/-!
The declarations a piece of script refers to, as an ascending list without repeats.
-/

namespace ProtoLayout

open Script

/-- Inserts `x` into an ascending list without repeats, keeping it so. -/
def insertAsc (x : Nat) : List Nat → List Nat
  | [] => [x]
  | y :: ys => if x < y then x :: y :: ys else if x = y then y :: ys else y :: insertAsc x ys

def ascending (xs : List Nat) : List Nat := xs.foldr insertAsc []

mutual

/-- The targets of the type references inside a node, in reading order, repeats kept. -/
def Script.Node.targets : Node → List Nat
  | .typeRef (some t) _ => [t]
  | .typeRef none _ => []
  | .numeric _ => []
  | .string _ => []
  | .bool _ => []
  | .null => []
  | .undefined => []
  | .ident _ => []
  | .this => []
  | .comment _ _ => []
  | .binary l _ r => l.targets ++ r.targets
  | .unary _ x => x.targets
  | .call f args => f.targets ++ Node.targetsAll args
  | .construct f args => f.targets ++ Node.targetsAll args
  | .member o _ => o.targets
  | .index o k => o.targets ++ k.targets
  | .cond c a b => c.targets ++ a.targets ++ b.targets
  | .paren x => x.targets
  | .exprStmt x => x.targets
  | .throw x => x.targets
  | .array xs => Node.targetsAll xs
  | .block xs => Node.targetsAll xs
  | .seq xs => Node.targetsAll xs
  | .func _ _ body => Node.targetsAll body
  | .object props => Node.targetsProps props
  | .varDecl _ none => []
  | .varDecl _ (some v) => v.targets
  | .ret none => []
  | .ret (some v) => v.targets
  | .ifStmt c t none => c.targets ++ t.targets
  | .ifStmt c t (some e) => c.targets ++ t.targets ++ e.targets

def Script.Node.targetsAll : List Node → List Nat
  | [] => []
  | x :: xs => x.targets ++ Node.targetsAll xs

def Script.Node.targetsProps : List (Key × Node) → List Nat
  | [] => []
  | (_, v) :: ps => v.targets ++ Node.targetsProps ps

end

def references (nodes : List Node) : List Nat := ascending (Node.targetsAll nodes)

/-- What a class's base and interfaces refer to. -/
def ClassBody.heritage (b : ClassBody) : List Nat :=
  ascending ((match b.base with | some n => n.targets | none => []) ++ Node.targetsAll b.interfaces)

end ProtoLayout
