import ProtoLayout.Script.Node
import ProtoLayout.TypeName

/-!
Resolved type declarations: classes and interfaces with their members, enumerations, and
a marker that asks for a special layout.
-/

namespace ProtoLayout

open Script

/-- How a method is implemented; only a normal method has a script body of its own. -/
inductive Semantics where
  | normal
  | inlineCode
  | factory
  | fieldBacked
  | notUsableFromScript
deriving DecidableEq, Repr, Inhabited

structure TestInfo where
  description : String
  category : Option String := none
  expectedAssertions : Option Nat := none
  isAsync : Bool := false
deriving DecidableEq, Repr, Inhabited

/-- A method; a body of `none` means it has none, `[]` an empty one. -/
structure Method where
  name : String
  typeParams : List String := []
  params : List Param := []
  body : Option (List Node) := none
  semantics : Semantics := .normal
  isEntryPoint : Bool := false
  test : Option TestInfo := none
deriving Inhabited

structure Constructor where
  params : List Param := []
  body : List Node := []
deriving Inhabited

structure NamedConstructor where
  name : String
  params : List Param := []
  body : List Node := []
deriving Inhabited

structure ClassBody where
  base : Option Node := none
  interfaces : List Node := []
  ctor : Option Constructor := none
  namedCtors : List NamedConstructor := []
  instanceMethods : List Method := []
  staticMethods : List Method := []
  staticInit : List Node := []
deriving Inhabited

inductive MemberValue where
  | numeric (n : Int)
  | text (s : String)
deriving DecidableEq, Repr, Inhabited

structure Member where
  name : String
  value : MemberValue
deriving DecidableEq, Repr, Inhabited

/-- An enumeration; a flags enumeration combines its members bitwise. -/
structure Enumeration where
  members : List Member
  isFlags : Bool := false
deriving DecidableEq, Repr, Inhabited

structure Resource where
  key : String
  value : Node
deriving Inhabited

/-- A request for a special layout. -/
inductive Marker where
  | plain
  | testFixture
  | resources (entries : List Resource)
  | mixin (target : Node)
  | globalMethods
deriving Inhabited

inductive Kind where
  | classDecl (body : ClassBody)
  | interfaceDecl (body : ClassBody)
  | enumDecl (e : Enumeration)
deriving Inhabited

structure Decl where
  name : TypeName
  typeParams : List String := []
  marker : Marker := .plain
  kind : Kind
deriving Inhabited

namespace Method

def named (name : String) : Method := { name }

/-- The parameters in script: the type parameters first, then the ordinary ones. -/
def scriptParams (m : Method) : List Param :=
  m.typeParams.map (fun t => { name := t }) ++ m.params

end Method

namespace TestInfo

def described (description : String) : TestInfo := { description }

end TestInfo

namespace ClassBody

def withBase (b : ClassBody) (base : Node) : ClassBody := { b with base := some base }

def withInterface (b : ClassBody) (i : Node) : ClassBody :=
  { b with interfaces := b.interfaces ++ [i] }

/-- The body with this unnamed constructor, in place of any before. -/
def withConstructor (b : ClassBody) (params : List Param) (body : List Node) : ClassBody :=
  { b with ctor := some ⟨params, body⟩ }

def withNamedConstructor (b : ClassBody) (name : String) (params : List Param)
    (body : List Node) : ClassBody :=
  { b with namedCtors := b.namedCtors ++ [⟨name, params, body⟩] }

def withInstanceMethod (b : ClassBody) (m : Method) : ClassBody :=
  { b with instanceMethods := b.instanceMethods ++ [m] }

def withStaticMethod (b : ClassBody) (m : Method) : ClassBody :=
  { b with staticMethods := b.staticMethods ++ [m] }

def withStaticInit (b : ClassBody) (stmt : Node) : ClassBody :=
  { b with staticInit := b.staticInit ++ [stmt] }

end ClassBody

namespace Decl

def isGeneric (d : Decl) : Bool := !d.typeParams.isEmpty

/-- The members of a class or interface; enumerations have none. -/
def classBody? (d : Decl) : Option ClassBody :=
  match d.kind with
  | .classDecl b | .interfaceDecl b => some b
  | .enumDecl _ => none

end Decl

namespace Enumeration

def numeric (members : List (String × Int)) : Enumeration :=
  { members := members.map fun (n, v) => ⟨n, .numeric v⟩ }

end Enumeration

end ProtoLayout
