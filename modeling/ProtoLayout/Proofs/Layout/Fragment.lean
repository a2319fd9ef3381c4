import ProtoLayout.Layout.Fragment

/-!
The fragment of a class or an interface, part by part.
-/

namespace ProtoLayout

def Decl.isInterface (d : Decl) : Bool :=
  match d.kind with
  | .interfaceDecl _ => true
  | _ => false

namespace Layout

open Script

/-- A right-nested chain `t₁ = t₂ = … = v` read back as its targets and its value. -/
def assignChain : Node → List Node × Node
  | .binary target "=" rest => ((assignChain rest).1.cons target, (assignChain rest).2)
  | n => ([], n)

def methodFunctionSpec (m : Method) (body : List Node) : Node :=
  .func none (m.typeParams.map (fun t => { name := t }) ++ m.params) body

def primarySpec (b : ClassBody) (isInterface : Bool) : Node :=
  if isInterface then .func none [] []
  else (b.ctor.map fun c => Node.func none c.params c.body).getD (.func none [] [])

/-- Nothing without instance methods, else one object with a property per instance method. -/
def PrototypeLaidOut (b : ClassBody) (target : Node) (proto : List Node) : Prop :=
  if b.instanceMethods = [] then proto = []
  else proto = [Node.assignStmt (.member target "prototype") (.object (b.instanceMethods.map
    fun m => (Key.name m.name, (m.body.map (methodFunctionSpec m)).getD .null)))]

/-- One assignment per named constructor, then one chain from their prototypes to the type's. -/
def NamedLaidOut (b : ClassBody) (target : Node) (named : List Node) : Prop :=
  if b.namedCtors = [] then named = []
  else ∃ chain, named = b.namedCtors.map (fun c =>
      Node.assignStmt (.member target c.name) (.func none c.params c.body)) ++ [.exprStmt chain] ∧
    assignChain chain =
      (b.namedCtors.map fun c => .member (.member target c.name) "prototype", .member target "prototype")

def MembersLaidOut (b : ClassBody) (target : Node) (isInterface : Bool) (reg : Option Node)
    (stmts : List Node) : Prop :=
  ∃ proto named, stmts = proto ++ reg.toList ++ named ++ b.staticMethods.filterMap (fun m =>
      m.body.map fun body => Node.assignStmt (.member target m.name) (methodFunctionSpec m body)) ∧
    PrototypeLaidOut b target proto ∧ (if isInterface then named = [] else NamedLaidOut b target named)

/-! ### The parts -/

theorem assignChain_foldr {α : Type} (f : α → Node) (v : Node) (hv : assignChain v = ([], v))
    (xs : List α) : assignChain (xs.foldr (fun x w => Node.assign (f x) w) v) = (xs.map f, v) := by
  induction xs with
  | nil => exact hv
  | cons x xs ih => rw [List.foldr_cons, Node.assign, assignChain, ih, List.map_cons]

theorem methodFunction_eq (m : Method) : methodFunction m = m.body.map (methodFunctionSpec m) := rfl

theorem constructorFunction_eq (b : ClassBody) (isInterface : Bool) :
    constructorFunction b isInterface = primarySpec b isInterface := by
  unfold constructorFunction primarySpec
  cases b.ctor <;> cases isInterface <;> rfl

theorem prototype_laidOut (b : ClassBody) (target : Node) :
    PrototypeLaidOut b target (if b.instanceMethods.isEmpty then []
      else [Node.assignStmt (.member target "prototype")
        (.object (b.instanceMethods.map fun m => (Key.name m.name, prototypeMember m)))]) := by
  unfold PrototypeLaidOut
  cases h : b.instanceMethods <;> simp [prototypeMember, methodFunction_eq]

theorem namedConstructors_laidOut (b : ClassBody) (target : Node) :
    NamedLaidOut b target (namedConstructors b target) := by
  unfold NamedLaidOut namedConstructors
  cases h : b.namedCtors with
  | nil => simp
  | cons c cs =>
    simp only [reduceCtorEq, if_false, List.isEmpty_cons, Bool.false_eq_true]
    rw [← h]
    exact ⟨_, rfl, assignChain_foldr _ _ rfl _⟩

theorem members_laidOut (b : ClassBody) (target : Node) (isInterface : Bool) (reg : Option Node) :
    MembersLaidOut b target isInterface reg (members b target isInterface reg) := by
  refine ⟨_, if isInterface then [] else namedConstructors b target, ?_, prototype_laidOut b target, ?_⟩
  · unfold members
    simp only [methodFunction_eq, Option.map_map]
    rfl
  · cases isInterface
    · exact namedConstructors_laidOut b target
    · rfl

/-- The banner, then for a declaration that is not generic its constructor, members and
registration on `target`; a generic one is a factory laying them out on the placeholder, running
the static initialiser and returning the placeholder, then the generic's registration. -/
def FragmentLaidOut (opts : Options) (d : Decl) (b : ClassBody) (target : Node)
    (frag : List Node) : Prop :=
  ∃ rest, frag = banner opts d ++ rest ∧
    if d.isGeneric then
      ∃ stmts, MembersLaidOut b (.ident opts.genericPlaceholder) d.isInterface
          (some (instanceRegistration opts (.ident opts.genericPlaceholder) target
            (d.typeParams.map .ident) b d.isInterface)) stmts ∧
        rest = [Node.assignStmt target
            (.func none (d.typeParams.map fun p => { name := p })
              (.varDecl opts.genericPlaceholder (some (primarySpec b d.isInterface)) ::
                (stmts ++ b.staticInit ++ [.ret (some (.ident opts.genericPlaceholder))]))),
          .exprStmt (Node.methodCall target
            (if d.isInterface then "registerGenericInterface" else "registerGenericClass")
            [.string d.name.qualified, .numeric (toString d.typeParams.length)])]
    else
      ∃ stmts, MembersLaidOut b target d.isInterface none stmts ∧
        rest = Node.assignStmt target (primarySpec b d.isInterface) :: (stmts ++
          [if d.isInterface then interfaceRegistration target d.name.qualified b
           else classRegistration target d.name.qualified b])

/-! ### The fragment -/

theorem shape_of_members {d : Decl} {b : ClassBody} (hb : d.classBody? = some b) :
    Shape.of d = if d.isGeneric then .genericShape b d.isInterface d.typeParams
      else if d.isInterface then .interfaceShape b else .classShape b := by
  obtain ⟨name, typeParams, marker, kind⟩ := d
  cases kind with
  | enumDecl e => simp [Decl.classBody?] at hb
  | classDecl b' | interfaceDecl b' =>
    simp only [Decl.classBody?, Option.some.injEq] at hb
    subst hb
    simp [Shape.of, Decl.isInterface]

theorem fragment_laidOut (opts : Options) (batch : Batch) (i : Nat) (d : Decl) (b : ClassBody)
    (hb : d.classBody? = some b) :
    FragmentLaidOut opts d b (batch.typeRef i) (fragment opts batch i d) := by
  refine ⟨_, rfl, ?_⟩
  rw [shape_of_members hb]
  by_cases hg : d.isGeneric
  · simp only [hg, if_true, genericFragment]
    exact ⟨_, members_laidOut _ _ _ _, by rw [constructorFunction_eq]; rfl⟩
  · simp only [hg, Bool.false_eq_true, if_false]
    refine ⟨_, members_laidOut _ _ _ _, ?_⟩
    cases d.isInterface <;> simp [constructorFunction_eq]

theorem fragment_laidOut_genericBox :
    ({ name := { nesting := ["Box"] }, typeParams := ["T"],
       kind := .classDecl
         { namedCtors := [{ name := "empty" }],
           instanceMethods := [{ name := "get", body := some [] }] } } : Decl).classBody? =
      some { namedCtors := [{ name := "empty" }],
             instanceMethods := [{ name := "get", body := some [] }] } ∧
    FragmentLaidOut {}
      { name := { nesting := ["Box"] }, typeParams := ["T"],
        kind := .classDecl
          { namedCtors := [{ name := "empty" }],
            instanceMethods := [{ name := "get", body := some [] }] } }
      { namedCtors := [{ name := "empty" }],
        instanceMethods := [{ name := "get", body := some [] }] }
      (Batch.typeRef {} 0)
      (fragment {} {} 0
        { name := { nesting := ["Box"] }, typeParams := ["T"],
          kind := .classDecl
            { namedCtors := [{ name := "empty" }],
              instanceMethods := [{ name := "get", body := some [] }] } }) :=
  ⟨rfl, fragment_laidOut {} {} 0 _ _ rfl⟩

end Layout

end ProtoLayout
