import ProtoLayout.Batch
import ProtoLayout.Options

/-!
The fragment of one declaration: the statements that make its runtime object. A generic
class or interface is a factory over its type arguments.
-/

namespace ProtoLayout.Layout

open Script

inductive Shape where
  | classShape (b : ClassBody)
  | interfaceShape (b : ClassBody)
  | enumShape (e : Enumeration)
  | genericShape (b : ClassBody) (isInterface : Bool) (params : List String)

/-- Generic when it has type parameters, unless it is an enumeration. -/
def Shape.of (d : Decl) : Shape :=
  match d.kind with
  | .enumDecl e => .enumShape e
  | .classDecl b => if d.isGeneric then .genericShape b false d.typeParams else .classShape b
  | .interfaceDecl b => if d.isGeneric then .genericShape b true d.typeParams else .interfaceShape b

def methodFunction (m : Method) : Option Node :=
  m.body.map fun body => .func none m.scriptParams body

def prototypeMember (m : Method) : Node := (methodFunction m).getD .null

def constructorFunction (b : ClassBody) (isInterface : Bool) : Node :=
  match b.ctor with
  | some c => if isInterface then .func none [] [] else .func none c.params c.body
  | none => .func none [] []

/-- Each named constructor under its name, then one statement making them all share
`target`'s prototype. -/
def namedConstructors (b : ClassBody) (target : Node) : List Node :=
  if b.namedCtors.isEmpty then []
  else
    b.namedCtors.map (fun c => Node.assignStmt (.member target c.name) (.func none c.params c.body)) ++
      [.exprStmt (b.namedCtors.foldr
        (fun c v => Node.assign (.member (.member target c.name) "prototype") v)
        (.member target "prototype"))]

/-- The prototype of instance methods, a generic's instance registration, a class's named
constructors, then the static methods with bodies. -/
def members (b : ClassBody) (target : Node) (isInterface : Bool)
    (instanceRegistration : Option Node) : List Node :=
  (if b.instanceMethods.isEmpty then []
   else [Node.assignStmt (.member target "prototype")
     (.object (b.instanceMethods.map fun m => (Key.name m.name, prototypeMember m)))]) ++
  instanceRegistration.toList ++
  (if isInterface then [] else namedConstructors b target) ++
  b.staticMethods.filterMap (fun m =>
    (methodFunction m).map fun f => Node.assignStmt (.member target m.name) f)

/-- Base (or `null`) and interfaces come only when the class has either. -/
def classRegistration (target : Node) (qualified : String) (b : ClassBody) : Node :=
  let heritage :=
    if b.base.isSome || !b.interfaces.isEmpty then b.base.getD .null :: b.interfaces else []
  .exprStmt (Node.methodCall target "registerClass" (.string qualified :: heritage))

def interfaceRegistration (target : Node) (qualified : String) (b : ClassBody) : Node :=
  let extra := if b.interfaces.isEmpty then [] else [Node.array b.interfaces]
  .exprStmt (Node.methodCall target "registerInterface" (.string qualified :: extra))

def memberNode : MemberValue → Node
  | .numeric n => .numeric (toString n)
  | .text s => .string s

def enumFragment (target : Node) (qualified : String) (e : Enumeration) : List Node :=
  [Node.assignStmt target (.func none [] []),
   Node.assignStmt (.member target "prototype")
     (.object (e.members.map fun m => (Key.name m.name, memberNode m.value))),
   .exprStmt (Node.methodCall target "registerEnum" [.string qualified, .bool e.isFlags])]

/-- The heritage comes delayed in functions; a class without a base gives `null` when it has
interfaces. -/
def instanceRegistration (opts : Options) (placeholder definition : Node)
    (typeArgs : List Node) (b : ClassBody) (isInterface : Bool) : Node :=
  let interfaces := if b.interfaces.isEmpty then [] else [Node.thunk (.array b.interfaces)]
  let (helper, extra) :=
    if isInterface then ("registerGenericInterfaceInstance", interfaces)
    else
      ("registerGenericClassInstance",
        match b.base with
        | some base => Node.thunk base :: interfaces
        | none => if interfaces.isEmpty then [] else .null :: interfaces)
  .exprStmt (Node.methodCall (Node.dotted opts.typeSystem) helper
    ([placeholder, definition, .array typeArgs] ++ extra))

/-- A factory over the type parameters, then the registration of the generic. -/
def genericFragment (opts : Options) (target : Node) (qualified : String) (b : ClassBody)
    (isInterface : Bool) (params : List String) : List Node :=
  let placeholder := Node.ident opts.genericPlaceholder
  let registration :=
    instanceRegistration opts placeholder target (params.map Node.ident) b isInterface
  let layout :=
    [Node.varDecl opts.genericPlaceholder (some (constructorFunction b isInterface))] ++
      members b placeholder isInterface (some registration) ++ b.staticInit ++
      [.ret (some placeholder)]
  let factory := Node.func none (params.map fun p => { name := p }) layout
  [Node.assignStmt target factory,
   .exprStmt (Node.methodCall target
     (if isInterface then "registerGenericInterface" else "registerGenericClass")
     [.string qualified, .numeric (toString params.length)])]

def banner (opts : Options) (d : Decl) : List Node :=
  if opts.emitTypeBanners then [Node.lineComment d.name.qualified] else []

/-- The marker plays no part here. -/
def fragment (opts : Options) (batch : Batch) (i : Nat) (d : Decl) : List Node :=
  let qualified := d.name.qualified
  let target := batch.typeRef i
  banner opts d ++
    match Shape.of d with
    | .classShape b =>
      [Node.assignStmt target (constructorFunction b false)] ++ members b target false none ++
        [classRegistration target qualified b]
    | .interfaceShape b =>
      [Node.assignStmt target (constructorFunction b true)] ++ members b target true none ++
        [interfaceRegistration target qualified b]
    | .enumShape e => enumFragment target qualified e
    | .genericShape b isInterface params => genericFragment opts target qualified b isInterface params

end ProtoLayout.Layout
