import ProtoLayout.Interchange.Request

/-!
Writing the interchange form in the shapes that are read, every field present and absent
options as `null`.
-/

namespace ProtoLayout.Interchange

open Json Script

def str (s : String) : Value := .string s

def num (n : Nat) : Value := .number (toString n)

def opt (f : α → Value) : Option α → Value
  | some a => f a
  | none => .null

def strs (xs : List String) : Value := .array (xs.map str)

def paramValue (p : Param) : Value := .object [("name", str p.name), ("rest", .bool p.rest)]

def tag (name : String) (v : Value) : Value := .object [(name, v)]

mutual

def nodeValue : Node → Value
  | .numeric t => tag "NumericLiteral" (str t)
  | .string s => tag "StringLiteral" (str s)
  | .bool b => tag "BooleanLiteral" (.bool b)
  | .null => str "NullLiteral"
  | .undefined => str "Undefined"
  | .ident n => tag "Identifier" (str n)
  | .this => str "This"
  | .typeRef t n => tag "TypeRef" (.object [("target", opt num t), ("name", str n)])
  | .binary l o r =>
    tag "BinaryExpr" (.object [("left", nodeValue l), ("operator", str o), ("right", nodeValue r)])
  | .unary o x => tag "PrefixUnaryExpr" (.object [("operator", str o), ("operand", nodeValue x)])
  | .call f a => tag "CallExpr" (.object [("callee", nodeValue f), ("arguments", .array (nodeValues a))])
  | .construct f a => tag "NewExpr" (.object [("callee", nodeValue f), ("arguments", .array (nodeValues a))])
  | .member o p => tag "PropertyAccess" (.object [("object", nodeValue o), ("property", str p)])
  | .index o k => tag "ElementAccess" (.object [("object", nodeValue o), ("index", nodeValue k)])
  | .cond c a b =>
    tag "ConditionalExpr"
      (.object [("condition", nodeValue c), ("when_true", nodeValue a), ("when_false", nodeValue b)])
  | .paren x => tag "Parenthesized" (nodeValue x)
  | .array xs => tag "ArrayLiteral" (.array (nodeValues xs))
  | .object ps => tag "ObjectLiteral" (.array (propValues ps))
  | .func n ps b =>
    tag "FunctionExpr" (.object [("name", opt str n), ("parameters", .array (ps.map paramValue)),
      ("body", .array (nodeValues b))])
  | .varDecl n none => tag "VarDecl" (.object [("name", str n), ("initializer", .null)])
  | .varDecl n (some i) => tag "VarDecl" (.object [("name", str n), ("initializer", nodeValue i)])
  | .exprStmt x => tag "ExpressionStatement" (nodeValue x)
  | .ret none => tag "ReturnStatement" .null
  | .ret (some x) => tag "ReturnStatement" (nodeValue x)
  | .throw x => tag "ThrowStatement" (nodeValue x)
  | .ifStmt c t none =>
    tag "IfStatement" (.object [("condition", nodeValue c), ("then_branch", nodeValue t),
      ("else_branch", .null)])
  | .ifStmt c t (some e) =>
    tag "IfStatement" (.object [("condition", nodeValue c), ("then_branch", nodeValue t),
      ("else_branch", nodeValue e)])
  | .block xs => tag "Block" (.array (nodeValues xs))
  | .comment t b => tag "Comment" (.object [("text", str t), ("is_block", .bool b)])
  | .seq xs => tag "Sequence" (.array (nodeValues xs))

def nodeValues : List Node → List Value
  | [] => []
  | x :: xs => nodeValue x :: nodeValues xs

def propValues : List (Key × Node) → List Value
  | [] => []
  | (k, v) :: ps =>
    .object [("key", match k with
               | .name n => tag "Identifier" (str n)
               | .quoted s => tag "StringLiteral" (str s)),
             ("value", nodeValue v)] :: propValues ps

end

def semanticsName : Semantics → String
  | .normal => "Normal"
  | .inlineCode => "InlineCode"
  | .factory => "Factory"
  | .fieldBacked => "FieldBacked"
  | .notUsableFromScript => "NotUsableFromScript"

def testValue (t : TestInfo) : Value :=
  .object [("description", str t.description), ("category", opt str t.category),
    ("expected_assertions", opt num t.expectedAssertions), ("is_async", .bool t.isAsync)]

def methodValue (m : Method) : Value :=
  .object [("name", str m.name), ("type_parameters", strs m.typeParams),
    ("parameters", .array (m.params.map paramValue)),
    ("body", opt (fun b => .array (nodeValues b)) m.body),
    ("semantics", str (semanticsName m.semantics)), ("is_entry_point", .bool m.isEntryPoint),
    ("test", opt testValue m.test)]

def diagnosticValue (withDisplay : Bool) (d : Diagnostic) : Value :=
  .object ([("category", str d.severity.name), ("code", num d.code),
    ("message_text", str d.message), ("symbol", str d.symbol)] ++
    (if withDisplay then [("display", str d.display)] else []))

/-- Keys in declared order. -/
def optionsValue (o : Options) : Value :=
  .object [("globalObject", str o.globalObject), ("typeSystem", str o.typeSystem),
    ("emitTypeBanners", .bool o.emitTypeBanners), ("genericPlaceholder", str o.genericPlaceholder),
    ("testRunnerMethod", str o.testRunnerMethod),
    ("testFunctions", .object [("test", str o.testFunctions.test),
      ("asyncTest", str o.testFunctions.asyncTest),
      ("beginCategory", str o.testFunctions.beginCategory)])]

/-- A compiled batch, as the command line prints it. -/
def compiledValue (c : Compiled) : Value :=
  .object [("text", str c.text), ("declarationOrder", strs c.declarationOrder),
    ("staticInitOrder", strs c.initOrder),
    ("diagnostics", .array (c.diagnostics.map (diagnosticValue false)))]

end ProtoLayout.Interchange
