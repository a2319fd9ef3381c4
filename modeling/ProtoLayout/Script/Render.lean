import ProtoLayout.Script.Node
import ProtoLayout.Script.Quoted

/-!
Script text. Each nesting level indents four spaces; the level is a 32-bit counter that wraps
to zero going deeper from the largest level and stays at zero going back up from zero.
-/

namespace ProtoLayout.Script

def indent (level : UInt32) : String :=
  String.ofList (List.replicate (4 * level.toNat) ' ')

def deeper (level : UInt32) : UInt32 := level + 1

def shallower (level : UInt32) : UInt32 := if level = 0 then 0 else level - 1

def renderParams : List Param → String
  | [] => ""
  | [p] => (if p.rest then "..." else "") ++ p.name
  | p :: rest => (if p.rest then "..." else "") ++ p.name ++ ", " ++ renderParams rest

/-- Word operators such as `typeof` need a space before their operand; so does the empty one. -/
def isWordOp (op : String) : Bool :=
  op.toList.all fun c => c.isAlpha

def Key.render : Key → String
  | .name text => text
  | .quoted text => Quoted.quote text

def Node.head (n : Node) (text : String) : String :=
  if n.isFunc then "(" ++ text ++ ")" else text

mutual

/-- The text of a node printed at indentation `level`, and the level after it. -/
def Node.print (level : UInt32) : Node → String × UInt32
  | .numeric text => (text, level)
  | .string value => (Quoted.quote value, level)
  | .bool b => (if b then "true" else "false", level)
  | .null => ("null", level)
  | .undefined => ("void 0", level)
  | .ident name => (name, level)
  | .this => ("this", level)
  | .typeRef _ name => (name, level)
  | .binary l op r =>
    let (a, level) := Node.print level l
    let (b, level) := Node.print level r
    (a ++ " " ++ op ++ " " ++ b, level)
  | .unary op x =>
    let (a, level) := Node.print level x
    (op ++ (if isWordOp op then " " else "") ++ a, level)
  | .call f args =>
    let (a, level) := Node.print level f
    let (b, level) := Node.printArgs level args
    (Node.head f a ++ "(" ++ b ++ ")", level)
  | .construct f args =>
    let (a, level) := Node.print level f
    let (b, level) := Node.printArgs level args
    ("new " ++ Node.head f a ++ "(" ++ b ++ ")", level)
  | .member o name =>
    let (a, level) := Node.print level o
    (Node.head o a ++ "." ++ name, level)
  | .index o k =>
    let (a, level) := Node.print level o
    let (b, level) := Node.print level k
    (Node.head o a ++ "[" ++ b ++ "]", level)
  | .cond c x y =>
    let (a, level) := Node.print level c
    let (b, level) := Node.print level x
    let (d, level) := Node.print level y
    (a ++ " ? " ++ b ++ " : " ++ d, level)
  | .paren x =>
    let (a, level) := Node.print level x
    ("(" ++ a ++ ")", level)
  | .array items =>
    let (a, level) := Node.printArgs level items
    ("[" ++ a ++ "]", level)
  | .object [] => ("\x7b\x7d", level)
  | .object (p :: ps) =>
    let (a, inner) := Node.printProps (deeper level) (p :: ps)
    let level := shallower inner
    ("\x7b\n" ++ a ++ indent level ++ "\x7d", level)
  | .func name params [] =>
    ("function " ++ name.getD "" ++ "(" ++ renderParams params ++ ") \x7b \x7d", level)
  | .func name params (s :: ss) =>
    let (a, inner) := Node.printLines (deeper level) (s :: ss)
    let level := shallower inner
    ("function " ++ name.getD "" ++ "(" ++ renderParams params ++ ") " ++
      "\x7b\n" ++ a ++ indent level ++ "\x7d", level)
  | .varDecl name none => ("var " ++ name ++ ";", level)
  | .varDecl name (some v) =>
    let (a, level) := Node.print level v
    ("var " ++ name ++ " = " ++ a ++ ";", level)
  | .exprStmt e =>
    let (a, level) := Node.print level e
    (a ++ ";", level)
  | .ret none => ("return;", level)
  | .ret (some v) =>
    let (a, level) := Node.print level v
    ("return " ++ a ++ ";", level)
  | .throw e =>
    let (a, level) := Node.print level e
    ("throw " ++ a ++ ";", level)
  | .ifStmt c t none =>
    let (a, level) := Node.print level c
    let (b, level) := Node.print level t
    ("if (" ++ a ++ ") " ++ b, level)
  | .ifStmt c t (some e) =>
    let (a, level) := Node.print level c
    let (b, level) := Node.print level t
    let (d, level) := Node.print level e
    ("if (" ++ a ++ ") " ++ b ++ " else " ++ d, level)
  | .block stmts =>
    let (a, inner) := Node.printLines (deeper level) stmts
    let level := shallower inner
    ("\x7b\n" ++ a ++ indent level ++ "\x7d", level)
  | .comment text true => ("/* " ++ text ++ " */", level)
  | .comment text false => ("// " ++ text, level)
  | .seq [] => ("", level)
  | .seq (x :: xs) =>
    let (a, level) := Node.print level x
    let (b, level) := Node.printSeqTail level xs
    (a ++ b, level)

def Node.printArgs (level : UInt32) : List Node → String × UInt32
  | [] => ("", level)
  | x :: xs =>
    let (a, level) := Node.print level x
    let (b, level) := Node.printArgsTail level xs
    (a ++ b, level)

def Node.printArgsTail (level : UInt32) : List Node → String × UInt32
  | [] => ("", level)
  | x :: xs =>
    let (a, level) := Node.print level x
    let (b, level) := Node.printArgsTail level xs
    (", " ++ a ++ b, level)

def Node.printLines (level : UInt32) : List Node → String × UInt32
  | [] => ("", level)
  | x :: xs =>
    let (a, next) := Node.print level x
    let (b, next) := Node.printLines next xs
    (indent level ++ a ++ "\n" ++ b, next)

def Node.printSeqTail (level : UInt32) : List Node → String × UInt32
  | [] => ("", level)
  | x :: xs =>
    let (a, next) := Node.print level x
    let (b, next) := Node.printSeqTail next xs
    ("\n" ++ indent level ++ a ++ b, next)

def Node.printProps (level : UInt32) : List (Key × Node) → String × UInt32
  | [] => ("", level)
  | (k, v) :: rest =>
    let (a, next) := Node.print level v
    let (b, next) := Node.printProps next rest
    (indent level ++ k.render ++ ": " ++ a ++ (if rest.isEmpty then "" else ",") ++ "\n" ++ b,
      next)

end

def Node.textAt (level : UInt32) (n : Node) : String := (n.print level).1

def Node.text (n : Node) : String := n.textAt 0

/-- Each statement on a line of its own, each line ended. -/
def renderStatements (stmts : List Node) : String := (Node.printLines 0 stmts).1

end ProtoLayout.Script
