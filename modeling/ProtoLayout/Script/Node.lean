/-!
Script syntax trees. A node refers to a declaration of the batch only through `typeRef`, by
the declaration's position.
-/

namespace ProtoLayout.Script

/-- A formal parameter of a function; a rest parameter collects the remaining arguments. -/
structure Param where
  name : String
  rest : Bool := false
deriving DecidableEq, Repr, Inhabited

inductive Key where
  | name (text : String)
  | quoted (text : String)
deriving DecidableEq, Repr, Inhabited

inductive Node where
  | numeric (text : String)
  | string (value : String)
  | bool (value : Bool)
  | null
  | undefined
  | ident (name : String)
  | this
  | typeRef (target : Option Nat) (name : String)
  | binary (left : Node) (op : String) (right : Node)
  | unary (op : String) (operand : Node)
  | call (callee : Node) (args : List Node)
  | construct (callee : Node) (args : List Node)
  | member (object : Node) (name : String)
  | index (object : Node) (key : Node)
  | cond (test : Node) (ifTrue : Node) (ifFalse : Node)
  | paren (inner : Node)
  | array (items : List Node)
  | object (props : List (Key × Node))
  | func (name : Option String) (params : List Param) (body : List Node)
  | varDecl (name : String) (init : Option Node)
  | exprStmt (expr : Node)
  | ret (value : Option Node)
  | throw (expr : Node)
  | ifStmt (test : Node) (thenBranch : Node) (elseBranch : Option Node)
  | block (stmts : List Node)
  | comment (text : String) (isBlock : Bool)
  | seq (items : List Node)
deriving Repr, Inhabited

namespace Node

def typeAt (target : Nat) (name : String) : Node := .typeRef (some target) name

def external (name : String) : Node := .typeRef none name

/-- A dotted path `a.b.c`; empty segments are kept, so `""` is the empty name. -/
def dotted (path : String) : Node :=
  match path.splitOn "." with
  | [] => .ident ""
  | first :: rest => rest.foldl .member (.ident first)

def methodCall (object : Node) (name : String) (args : List Node) : Node :=
  .call (.member object name) args

def assign (target value : Node) : Node := .binary target "=" value

def assignStmt (target value : Node) : Node := .exprStmt (assign target value)

/-- The function `function () { return value; }`, which delays `value`. -/
def thunk (value : Node) : Node := .func none [] [.ret (some value)]

def lineComment (text : String) : Node := .comment text false

/-- Function expressions need brackets before a call or a member access. -/
def isFunc : Node → Bool
  | .func .. => true
  | _ => false

end Node

end ProtoLayout.Script
