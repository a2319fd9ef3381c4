import ProtoLayout.Json.Decode
import ProtoLayout.Decl.Basic
import ProtoLayout.Options

/-!
Reading the interchange form of declarations. Every reader takes the nesting room left before
its own value; `strictVariants` refuses the array form for record-shaped script nodes.
-/

namespace ProtoLayout.Interchange

open Json Script

def need (name : String) : Option α → Except Mismatch α
  | some a => .ok a
  | none => .error (.missingField name)

def slot (name : String) (optional : Bool) (r : Reader α) (set : σ → α → σ) : FieldSpec σ :=
  ⟨name, optional, fun s => do pure (set s (← r))⟩

def readStrings (room : Nat) : Reader (List String) := Reader.list room Reader.string

def readParam (room : Nat) : Reader Param :=
  Reader.record room
    { expecting := "struct IRParam"
      fields := [slot "name" false Reader.string (fun (s : Option String × Option Bool) v => (some v, s.2)),
                 slot "rest" true Reader.bool (fun s v => (s.1, some v))]
      init := (none, none)
      finish := fun (n, r) => do pure ⟨← need "name" n, r.getD false⟩ }

def readParams (room : Nat) : Reader (List Param) := Reader.list room (readParam (room - 1))

def readKey (room : Nat) : Reader Key :=
  Reader.tagged room
    [("Identifier", .content "newtype variant" (Key.name <$> Reader.string)),
     ("StringLiteral", .content "newtype variant" (Key.quoted <$> Reader.string))]

/-- A type reference's content: its target id, if any, and its printed name. -/
def readTypeRef (room : Nat) : Reader Node :=
  Reader.record room
    { expecting := "struct TypeRef"
      fields := [slot "target" true (Reader.option Reader.u32)
                  (fun (s : Option (Option Nat) × Option String) v => (some v, s.2)),
                 slot "name" false Reader.string (fun s v => (s.1, some v))]
      init := (none, none)
      finish := fun (t, n) => do pure (.typeRef (t.getD none) (← need "name" n)) }

def readNode (strictVariants : Bool) : Nat → Reader Node
  | 0 => Reader.failNext .recursionLimit
  | room + 1 =>
    let record {σ : Type} (name : String) (fields : List (FieldSpec σ)) (init : σ)
        (finish : σ → Except Mismatch Node) : Variant Node :=
      .content "struct variant"
        (Reader.record room ⟨"struct variant IRNode::" ++ name, fields, init, finish⟩ !strictVariants)
    let inner := room - 1
    Reader.tagged (room + 1)
      [("NumericLiteral", .content "newtype variant" (Node.numeric <$> Reader.string)),
       ("StringLiteral", .content "newtype variant" (Node.string <$> Reader.string)),
       ("BooleanLiteral", .content "newtype variant" (Node.bool <$> Reader.bool)),
       ("NullLiteral", .unit .null),
       ("Undefined", .unit .undefined),
       ("Identifier", .content "newtype variant" (Node.ident <$> Reader.string)),
       ("This", .unit .this),
       ("TypeRef", .content "newtype variant" (readTypeRef room)),
       ("BinaryExpr", record "BinaryExpr"
          [slot "left" false (readNode strictVariants inner)
             (fun (s : Option Node × Option String × Option Node) v => (some v, s.2)),
           slot "operator" false Reader.string (fun s v => (s.1, some v, s.2.2)),
           slot "right" false (readNode strictVariants inner) (fun s v => (s.1, s.2.1, some v))]
          (none, none, none)
          (fun (l, o, r) => do pure (.binary (← need "left" l) (← need "operator" o) (← need "right" r)))),
       ("PrefixUnaryExpr", record "PrefixUnaryExpr"
          [slot "operator" false Reader.string (fun (s : Option String × Option Node) v => (some v, s.2)),
           slot "operand" false (readNode strictVariants inner) (fun s v => (s.1, some v))]
          (none, none)
          (fun (o, x) => do pure (.unary (← need "operator" o) (← need "operand" x)))),
       ("CallExpr", record "CallExpr"
          [slot "callee" false (readNode strictVariants inner)
             (fun (s : Option Node × Option (List Node)) v => (some v, s.2)),
           slot "arguments" false (Reader.list inner (readNode strictVariants (inner - 1)))
             (fun s v => (s.1, some v))]
          (none, none)
          (fun (f, a) => do pure (.call (← need "callee" f) (← need "arguments" a)))),
       ("NewExpr", record "NewExpr"
          [slot "callee" false (readNode strictVariants inner)
             (fun (s : Option Node × Option (List Node)) v => (some v, s.2)),
           slot "arguments" false (Reader.list inner (readNode strictVariants (inner - 1)))
             (fun s v => (s.1, some v))]
          (none, none)
          (fun (f, a) => do pure (.construct (← need "callee" f) (← need "arguments" a)))),
       ("PropertyAccess", record "PropertyAccess"
          [slot "object" false (readNode strictVariants inner)
             (fun (s : Option Node × Option String) v => (some v, s.2)),
           slot "property" false Reader.string (fun s v => (s.1, some v))]
          (none, none)
          (fun (o, p) => do pure (.member (← need "object" o) (← need "property" p)))),
       ("ElementAccess", record "ElementAccess"
          [slot "object" false (readNode strictVariants inner)
             (fun (s : Option Node × Option Node) v => (some v, s.2)),
           slot "index" false (readNode strictVariants inner) (fun s v => (s.1, some v))]
          (none, none)
          (fun (o, k) => do pure (.index (← need "object" o) (← need "index" k)))),
       ("ConditionalExpr", record "ConditionalExpr"
          [slot "condition" false (readNode strictVariants inner)
             (fun (s : Option Node × Option Node × Option Node) v => (some v, s.2)),
           slot "when_true" false (readNode strictVariants inner) (fun s v => (s.1, some v, s.2.2)),
           slot "when_false" false (readNode strictVariants inner) (fun s v => (s.1, s.2.1, some v))]
          (none, none, none)
          (fun (c, a, b) => do
            pure (.cond (← need "condition" c) (← need "when_true" a) (← need "when_false" b)))),
       ("Parenthesized", .content "newtype variant" (Node.paren <$> readNode strictVariants room)),
       ("ArrayLiteral", .content "newtype variant" (Node.array <$> Reader.list room (readNode strictVariants inner))),
       ("ObjectLiteral", .content "newtype variant" (Node.object <$> Reader.list room
          (Reader.record inner
            { expecting := "struct IRProperty"
              fields := [slot "key" false (readKey (inner - 1))
                           (fun (s : Option Key × Option Node) v => (some v, s.2)),
                         slot "value" false (readNode strictVariants (inner - 1))
                           (fun s v => (s.1, some v))]
              init := (none, none)
              finish := fun (k, v) => do pure (← need "key" k, ← need "value" v) }))),
       ("FunctionExpr", record "FunctionExpr"
          [slot "name" false (Reader.option Reader.string)
             (fun (s : Option (Option String) × Option (List Param) × Option (List Node)) v =>
               (some v, s.2)),
           slot "parameters" false (readParams inner) (fun s v => (s.1, some v, s.2.2)),
           slot "body" false (Reader.list inner (readNode strictVariants (inner - 1)))
             (fun s v => (s.1, s.2.1, some v))]
          (none, none, none)
          (fun (n, ps, b) => do pure (.func (n.getD none) (← need "parameters" ps) (← need "body" b)))),
       ("VarDecl", record "VarDecl"
          [slot "name" false Reader.string (fun (s : Option String × Option (Option Node)) v => (some v, s.2)),
           slot "initializer" false (Reader.option (readNode strictVariants inner))
             (fun s v => (s.1, some v))]
          (none, none)
          (fun (n, i) => do pure (.varDecl (← need "name" n) (i.getD none)))),
       ("ExpressionStatement", .content "newtype variant" (Node.exprStmt <$> readNode strictVariants room)),
       ("ReturnStatement", .content "newtype variant" (Node.ret <$> Reader.option (readNode strictVariants room))),
       ("IfStatement", record "IfStatement"
          [slot "condition" false (readNode strictVariants inner)
             (fun (s : Option Node × Option Node × Option (Option Node)) v => (some v, s.2)),
           slot "then_branch" false (readNode strictVariants inner) (fun s v => (s.1, some v, s.2.2)),
           slot "else_branch" false (Reader.option (readNode strictVariants inner))
             (fun s v => (s.1, s.2.1, some v))]
          (none, none, none)
          (fun (c, t, e) => do
            pure (.ifStmt (← need "condition" c) (← need "then_branch" t) (e.getD none)))),
       ("Block", .content "newtype variant" (Node.block <$> Reader.list room (readNode strictVariants inner))),
       ("ThrowStatement", .content "newtype variant" (Node.throw <$> readNode strictVariants room)),
       ("Comment", record "Comment"
          [slot "text" false Reader.string (fun (s : Option String × Option Bool) v => (some v, s.2)),
           slot "is_block" false Reader.bool (fun s v => (s.1, some v))]
          (none, none)
          (fun (t, b) => do pure (.comment (← need "text" t) (← need "is_block" b)))),
       ("Sequence", .content "newtype variant" (Node.seq <$> Reader.list room (readNode strictVariants inner)))]
termination_by room => room
decreasing_by all_goals omega

def readNodes (strict : Bool) (room : Nat) : Reader (List Node) :=
  Reader.list room (readNode strict (room - 1))

def readTypeName (room : Nat) : Reader TypeName :=
  Reader.record room
    { expecting := "struct TypeName"
      fields := [slot "namespace" true (readStrings (room - 1))
                   (fun (s : Option (List String) × Option (List String)) v => (some v, s.2)),
                 slot "nesting" false (readStrings (room - 1)) (fun s v => (s.1, some v))]
      init := (none, none)
      finish := fun (p, n) => do pure ⟨p.getD [], ← need "nesting" n⟩ }

def readSemantics (room : Nat) : Reader Semantics :=
  Reader.tagged room
    [("Normal", .unit .normal), ("InlineCode", .unit .inlineCode), ("Factory", .unit .factory),
     ("FieldBacked", .unit .fieldBacked), ("NotUsableFromScript", .unit .notUsableFromScript)]

def readTest (room : Nat) : Reader TestInfo :=
  Reader.record room
    { expecting := "struct TestMetadata"
      fields := [slot "description" false Reader.string
                   (fun (s : Option String × Option (Option String) × Option (Option Nat) × Option Bool) v =>
                     (some v, s.2)),
                 slot "category" true (Reader.option Reader.string)
                   (fun s v => (s.1, some v, s.2.2)),
                 slot "expected_assertions" true (Reader.option Reader.u32)
                   (fun s v => (s.1, s.2.1, some v, s.2.2.2)),
                 slot "is_async" true Reader.bool (fun s v => (s.1, s.2.1, s.2.2.1, some v))]
      init := (none, none, none, none)
      finish := fun (d, c, e, a) => do
        pure ⟨← need "description" d, c.getD none, e.getD none, a.getD false⟩ }

structure MethodSlots where
  name : Option String := none
  typeParams : Option (List String) := none
  params : Option (List Param) := none
  body : Option (Option (List Node)) := none
  semantics : Option Semantics := none
  isEntryPoint : Option Bool := none
  test : Option (Option TestInfo) := none

def readMethod (strict : Bool) (room : Nat) : Reader Method :=
  let inner := room - 1
  Reader.record room
    { expecting := "struct Method"
      fields := [slot "name" false Reader.string (fun (s : MethodSlots) v => { s with name := some v }),
                 slot "type_parameters" true (readStrings inner) (fun s v => { s with typeParams := some v }),
                 slot "parameters" true (readParams inner) (fun s v => { s with params := some v }),
                 slot "body" true (Reader.option (readNodes strict inner)) (fun s v => { s with body := some v }),
                 slot "semantics" true (readSemantics inner) (fun s v => { s with semantics := some v }),
                 slot "is_entry_point" true Reader.bool (fun s v => { s with isEntryPoint := some v }),
                 slot "test" true (Reader.option (readTest inner)) (fun s v => { s with test := some v })]
      init := {}
      finish := fun s => do
        pure { name := ← need "name" s.name, typeParams := s.typeParams.getD [],
               params := s.params.getD [], body := s.body.getD none,
               semantics := s.semantics.getD .normal, isEntryPoint := s.isEntryPoint.getD false,
               test := s.test.getD none } }

def readConstructor (strict : Bool) (room : Nat) : Reader Constructor :=
  Reader.record room
    { expecting := "struct Constructor"
      fields := [slot "parameters" true (readParams (room - 1))
                   (fun (s : Option (List Param) × Option (List Node)) v => (some v, s.2)),
                 slot "body" true (readNodes strict (room - 1)) (fun s v => (s.1, some v))]
      init := (none, none)
      finish := fun (p, b) => do pure ⟨p.getD [], b.getD []⟩ }

def readNamedConstructor (strict : Bool) (room : Nat) : Reader NamedConstructor :=
  Reader.record room
    { expecting := "struct NamedConstructor"
      fields := [slot "name" false Reader.string
                   (fun (s : Option String × Option (List Param) × Option (List Node)) v => (some v, s.2)),
                 slot "parameters" true (readParams (room - 1)) (fun s v => (s.1, some v, s.2.2)),
                 slot "body" true (readNodes strict (room - 1)) (fun s v => (s.1, s.2.1, some v))]
      init := (none, none, none)
      finish := fun (n, p, b) => do pure ⟨← need "name" n, p.getD [], b.getD []⟩ }

/-- Every field may be left out. -/
def readClassBody (strict : Bool) (room : Nat) : Reader ClassBody :=
  let inner := room - 1
  Reader.record room
    { expecting := "struct ClassDefinition"
      fields := [slot "base" true (Reader.option (readNode strict inner))
                   (fun (s : ClassBody) v => { s with base := v }),
                 slot "interfaces" true (readNodes strict inner) (fun s v => { s with interfaces := v }),
                 slot "unnamed_constructor" true (Reader.option (readConstructor strict inner))
                   (fun s v => { s with ctor := v }),
                 slot "named_constructors" true
                   (Reader.list inner (readNamedConstructor strict (inner - 1)))
                   (fun s v => { s with namedCtors := v }),
                 slot "instance_methods" true (Reader.list inner (readMethod strict (inner - 1)))
                   (fun s v => { s with instanceMethods := v }),
                 slot "static_methods" true (Reader.list inner (readMethod strict (inner - 1)))
                   (fun s v => { s with staticMethods := v }),
                 slot "static_init" true (readNodes strict inner) (fun s v => { s with staticInit := v })]
      init := {}
      finish := fun s => .ok s }

def readMemberValue (room : Nat) : Reader MemberValue :=
  Reader.tagged room
    [("Numeric", .content "newtype variant" (MemberValue.numeric <$> Reader.int64)),
     ("String", .content "newtype variant" (MemberValue.text <$> Reader.string))]

def readEnumeration (room : Nat) : Reader Enumeration :=
  let inner := room - 1
  let member : Reader Member := Reader.record (inner - 1)
    { expecting := "struct EnumMember"
      fields := [slot "name" false Reader.string
                   (fun (s : Option String × Option MemberValue) v => (some v, s.2)),
                 slot "value" false (readMemberValue (inner - 2)) (fun s v => (s.1, some v))]
      init := (none, none)
      finish := fun (n, v) => do pure ⟨← need "name" n, ← need "value" v⟩ }
  Reader.record room
    { expecting := "struct EnumDefinition"
      fields := [slot "members" false (Reader.list inner member)
                   (fun (s : Option (List Member) × Option Bool) v => (some v, s.2)),
                 slot "is_flags" true Reader.bool (fun s v => (s.1, some v))]
      init := (none, none)
      finish := fun (m, f) => do pure ⟨← need "members" m, f.getD false⟩ }

def readKind (strict : Bool) (room : Nat) : Reader Kind :=
  Reader.tagged room
    [("Class", .content "newtype variant" (Kind.classDecl <$> readClassBody strict (room - 1))),
     ("Interface", .content "newtype variant" (Kind.interfaceDecl <$> readClassBody strict (room - 1))),
     ("Enum", .content "newtype variant" (Kind.enumDecl <$> readEnumeration (room - 1)))]

def readResource (strict : Bool) (room : Nat) : Reader Resource :=
  Reader.record room
    { expecting := "struct ResourceEntry"
      fields := [slot "key" false Reader.string
                   (fun (s : Option String × Option Node) v => (some v, s.2)),
                 slot "value" false (readNode strict (room - 1)) (fun s v => (s.1, some v))]
      init := (none, none)
      finish := fun (k, v) => do pure ⟨← need "key" k, ← need "value" v⟩ }

def readResources (strict : Bool) (room : Nat) : Reader (List Resource) :=
  Reader.list room (readResource strict (room - 1))

def readMarker (strict : Bool) (room : Nat) : Reader Marker :=
  Reader.tagged room
    [("None", .unit .plain), ("TestFixture", .unit .testFixture),
     ("Resources", .content "newtype variant" (Marker.resources <$> readResources strict (room - 1))),
     ("Mixin", .content "newtype variant" (Marker.mixin <$> readNode strict (room - 1))),
     ("GlobalMethods", .unit .globalMethods)]

def readDecl (strict : Bool) (room : Nat) : Reader Decl :=
  let inner := room - 1
  Reader.record room
    { expecting := "struct TypeDeclaration"
      fields := [slot "name" false (readTypeName inner)
                   (fun (s : Option TypeName × Option (List String) × Option Marker × Option Kind) v =>
                     (some v, s.2)),
                 slot "type_parameters" true (readStrings inner) (fun s v => (s.1, some v, s.2.2)),
                 slot "marker" true (readMarker strict inner) (fun s v => (s.1, s.2.1, some v, s.2.2.2)),
                 slot "kind" false (readKind strict inner) (fun s v => (s.1, s.2.1, s.2.2.1, some v))]
      init := (none, none, none, none)
      finish := fun (n, tp, m, k) => do
        pure ⟨← need "name" n, tp.getD [], m.getD .plain, ← need "kind" k⟩ }

def readDecls (strict : Bool) (room : Nat) : Reader (List Decl) :=
  Reader.list room (readDecl strict (room - 1))

/-- Every field may be left out. -/
def readTestFunctions (room : Nat) : Reader TestFunctions :=
  Reader.record room
    { expecting := "struct TestFunctionNames"
      fields := [slot "test" true Reader.string (fun (s : TestFunctions) v => { s with test := v }),
                 slot "asyncTest" true Reader.string (fun s v => { s with asyncTest := v }),
                 slot "beginCategory" true Reader.string (fun s v => { s with beginCategory := v })]
      init := {}
      finish := fun s => .ok s }

/-- Every field may be left out; none may be `null`. -/
def readOptions (room : Nat) : Reader Options :=
  Reader.record room
    { expecting := "struct EmitOptions"
      fields := [slot "globalObject" true Reader.string (fun (s : Options) v => { s with globalObject := v }),
                 slot "typeSystem" true Reader.string (fun s v => { s with typeSystem := v }),
                 slot "emitTypeBanners" true Reader.bool (fun s v => { s with emitTypeBanners := v }),
                 slot "genericPlaceholder" true Reader.string
                   (fun s v => { s with genericPlaceholder := v }),
                 slot "testRunnerMethod" true Reader.string (fun s v => { s with testRunnerMethod := v }),
                 slot "testFunctions" true (readTestFunctions (room - 1))
                   (fun s v => { s with testFunctions := v })]
      init := {}
      finish := fun s => .ok s }

end ProtoLayout.Interchange
