import ProtoLayout.Proofs.Layout.Statements
import ProtoLayout.Proofs.Layout.Fragment
import ProtoLayout.Proofs.Declaration.Order
import ProtoLayout.Proofs.InitOrder.Members

/-!
Where the static initialiser of a declaration ends up.
-/

namespace ProtoLayout

open Script

/-- The declaration with static initialiser `s`; an enumeration has none. -/
def Decl.setStaticInit (d : Decl) (s : List Node) : Decl :=
  { d with
    kind := match d.kind with
      | .classDecl b => .classDecl { b with staticInit := s }
      | .interfaceDecl b => .interfaceDecl { b with staticInit := s }
      | .enumDecl e => .enumDecl e }

def Batch.setStaticInit (batch : Batch) (i : Nat) (s : List Node) : Batch :=
  ⟨batch.decls.modify i (·.setStaticInit s)⟩

section SetStaticInit

variable {d : Decl} {b : ClassBody} (batch : Batch) (i : Nat) (s : List Node)

@[simp]
theorem Decl.isGeneric_setStaticInit : (d.setStaticInit s).isGeneric = d.isGeneric := rfl

@[simp]
theorem Decl.isInterface_setStaticInit : (d.setStaticInit s).isInterface = d.isInterface := by
  obtain ⟨_, _, _, kind⟩ := d
  cases kind <;> rfl

theorem Decl.classBody?_setStaticInit (hb : d.classBody? = some b) :
    (d.setStaticInit s).classBody? = some { b with staticInit := s } := by
  obtain ⟨_, _, _, kind⟩ := d
  cases kind with
  | classDecl b' | interfaceDecl b' => cases Option.some.inj hb; rfl
  | enumDecl e => cases hb

theorem Decl.setStaticInit_staticInit (hb : d.classBody? = some b) : d.setStaticInit b.staticInit = d := by
  obtain ⟨_, _, _, kind⟩ := d
  cases kind with
  | classDecl b' | interfaceDecl b' => cases Option.some.inj hb; rfl
  | enumDecl e => cases hb

theorem Batch.get?_setStaticInit_self :
    (batch.setStaticInit i s).get? i = (batch.get? i).map (·.setStaticInit s) :=
  List.getElem?_modify_eq _ _ _

theorem Batch.get?_setStaticInit_of_ne {j : Nat} (h : j ≠ i) :
    (batch.setStaticInit i s).get? j = batch.get? j :=
  List.getElem?_modify_ne _ _ (Ne.symm h)

theorem Batch.typeRef_setStaticInit (j : Nat) :
    (batch.setStaticInit i s).typeRef j = batch.typeRef j := by
  unfold Batch.typeRef Batch.qualifiedName
  by_cases h : j = i
  · subst h
    rw [Batch.get?_setStaticInit_self]
    cases batch.get? j <;> rfl
  · rw [Batch.get?_setStaticInit_of_ne batch i s h]

end SetStaticInit

namespace Layout

/-- The statements the initialiser phase runs for id `i`. -/
def scheduledPiece (batch : Batch) (i : Nat) : List Node :=
  ((batch.get? i).map scheduledInit).getD []

/-- A global-method holder or a mixin, whose static methods go on another object. -/
def Detached (d : Decl) : Prop :=
  d.marker = .globalMethods ∨ ∃ t, d.marker = .mixin t

/-- The factory of a generic: its members, the static initialiser, then the return of the
placeholder. -/
def FactoryOf (opts : Options) (batch : Batch) (i : Nat) (d : Decl) (b : ClassBody)
    (stmts : List Node) : Prop :=
  ∃ params pre post, stmts = banner opts d ++
    Node.assignStmt (batch.typeRef i)
      (.func none params (pre ++ b.staticInit ++ [.ret (some (.ident opts.genericPlaceholder))])) ::
      post

/-- The static initialiser runs in the initialiser phase when the declaration is not generic,
in its factory when it is. -/
def InitPlaced (opts : Options) (batch : Batch) (i : Nat) (d : Decl) (b : ClassBody) : Prop :=
  if d.isGeneric then b.staticInit = [] ∨ FactoryOf opts batch i d b (fragmentOf opts batch i)
  else scheduledInit d = b.staticInit

/-- Where declaration `i` puts any static initialiser `s` set in its place: the initialiser phase
runs exactly `s`, or a factory runs it between statements that do not depend on it, or, for a
generic global-method holder or mixin, nothing does. -/
def InitSlot (opts : Options) (batch : Batch) (i : Nat) (d : Decl) : Prop :=
  (d.isGeneric = false → ∀ s, scheduledPiece (batch.setStaticInit i s) i = s ∧
    fragmentOf opts (batch.setStaticInit i s) i = fragmentOf opts batch i) ∧
  (d.isGeneric = true → ∀ s, scheduledPiece (batch.setStaticInit i s) i = []) ∧
  (d.isGeneric = true → ¬Detached d → ∃ params pre post, ∀ s,
    fragmentOf opts (batch.setStaticInit i s) i = banner opts d ++
      Node.assignStmt (batch.typeRef i)
        (.func none params (pre ++ s ++ [.ret (some (.ident opts.genericPlaceholder))])) :: post) ∧
  (d.isGeneric = true → Detached d → ∀ s,
    fragmentOf opts (batch.setStaticInit i s) i = fragmentOf opts batch i)

theorem marker_of_not_detached {d : Decl} (hr : ∀ e, d.marker ≠ .resources e) (hdet : ¬Detached d) :
    d.marker = .plain ∨ d.marker = .testFixture := by
  cases hk : d.marker with
  | plain => exact .inl rfl
  | testFixture => exact .inr rfl
  | resources e => exact absurd hk (hr e)
  | globalMethods => exact absurd (.inl hk) hdet
  | mixin t => exact absurd (.inr ⟨t, hk⟩) hdet

section Route

variable (opts : Options) (batch : Batch) (i : Nat) {d : Decl} {b : ClassBody}

theorem scheduledInit_of_generic (hg : d.isGeneric = true) : scheduledInit d = [] := by
  unfold scheduledInit
  rw [if_pos hg]

theorem scheduledInit_of_resources {entries : List Resource} (hm : d.marker = .resources entries) :
    scheduledInit d = [] := by
  unfold scheduledInit
  split
  · rfl
  · rw [hm]

theorem scheduledInit_eq (hg : d.isGeneric = false) (hr : ∀ e, d.marker ≠ .resources e)
    (hb : d.classBody? = some b) : scheduledInit d = b.staticInit := by
  unfold scheduledInit
  rw [if_neg (by rw [hg]; decide)]
  split
  · exact absurd ‹_› (hr _)
  · rw [hb]

theorem fragmentOf_eq {d : Decl} (hd : batch.get? i = some d) :
    fragmentOf opts batch i = markedFragment opts batch i d := by
  unfold fragmentOf
  rw [hd]

/-- A fragment reads the batch only through the reference to its own declaration. -/
theorem markedFragment_congr {batch' : Batch} (h : batch'.typeRef i = batch.typeRef i) (d : Decl) :
    markedFragment opts batch' i d = markedFragment opts batch i d := by
  unfold markedFragment fragment
  rw [h]

theorem markedFragment_detached (hm : Detached d) (hb : d.classBody? = some b) :
    markedFragment opts batch i d = banner opts d ++ attachStatics b (staticTarget opts batch i d) := by
  unfold markedFragment staticTarget
  rcases hm with hm | ⟨t, hm⟩ <;> simp only [hm, hb]

theorem markedFragment_resources {entries : List Resource} (hm : d.marker = .resources entries) :
    markedFragment opts batch i d = banner opts d ++ [resourceTable (batch.typeRef i) entries] := by
  unfold markedFragment
  rw [hm]

theorem attachStatics_ne_factory (target : Node) (params : List Param) (body post : List Node) :
    attachStatics b target ≠ Node.assignStmt (batch.typeRef i) (.func none params body) :: post := by
  intro h
  have hmem : Node.assignStmt (batch.typeRef i) (.func none params body) ∈ attachStatics b target :=
    h ▸ List.mem_cons_self
  obtain ⟨m, -, f, -, hf⟩ := by simpa [attachStatics] using hmem
  -- a static method is assigned to a member of the target, the factory to the declaration
  simp [Node.assignStmt, Node.assign, Batch.typeRef] at hf

end Route

section Replace

variable (opts : Options) (batch : Batch) (i : Nat) (s : List Node) {d : Decl} {b : ClassBody}

/-- The factory runs its static initialiser between statements that do not read it. -/
theorem genericFragment_staticInit (target : Node) (qualified : String) (isInterface : Bool)
    (params : List String) :
    ∃ pre post, ∀ s, genericFragment opts target qualified { b with staticInit := s } isInterface params =
      Node.assignStmt target (.func none (params.map fun p => { name := p })
        (pre ++ s ++ [.ret (some (.ident opts.genericPlaceholder))])) :: post :=
  ⟨[Node.varDecl opts.genericPlaceholder (some (constructorFunction b isInterface))] ++
      members b (.ident opts.genericPlaceholder) isInterface
        (some (instanceRegistration opts (.ident opts.genericPlaceholder) target
          (params.map Node.ident) b isInterface)),
    _, fun _ => rfl⟩

theorem fragment_setStaticInit (hb : d.classBody? = some b) (hg : d.isGeneric = false) :
    fragment opts batch i (d.setStaticInit s) = fragment opts batch i d := by
  unfold fragment
  rw [shape_of_members (Decl.classBody?_setStaticInit s hb), shape_of_members hb]
  simp only [Decl.isGeneric_setStaticInit, Decl.isInterface_setStaticInit, hg, Bool.false_eq_true,
    if_false]
  cases d.isInterface <;> rfl

theorem fragment_setStaticInit_generic (hb : d.classBody? = some b) (hg : d.isGeneric = true) :
    ∃ params pre post, ∀ s, fragment opts batch i (d.setStaticInit s) = banner opts d ++
      Node.assignStmt (batch.typeRef i)
        (.func none params (pre ++ s ++ [.ret (some (.ident opts.genericPlaceholder))])) :: post := by
  obtain ⟨pre, post, hfac⟩ := genericFragment_staticInit opts (b := b) (batch.typeRef i)
    d.name.qualified d.isInterface d.typeParams
  refine ⟨d.typeParams.map fun p => { name := p }, pre, post, fun s => ?_⟩
  unfold fragment
  rw [shape_of_members (Decl.classBody?_setStaticInit s hb)]
  simp only [Decl.isGeneric_setStaticInit, Decl.isInterface_setStaticInit, hg, if_true]
  exact congrArg (banner opts d ++ ·) (hfac s)

theorem markedFragment_setStaticInit (hb : d.classBody? = some b)
    (h : d.isGeneric = false ∨ Detached d) :
    markedFragment opts batch i (d.setStaticInit s) = markedFragment opts batch i d := by
  by_cases hdet : Detached d
  · rw [markedFragment_detached opts batch i hdet hb,
      markedFragment_detached opts batch i (d := d.setStaticInit s) hdet
        (Decl.classBody?_setStaticInit s hb)]
    rfl
  have hg := h.resolve_right hdet
  obtain ⟨name, typeParams, marker, kind⟩ := d
  cases marker with
  | plain => exact fragment_setStaticInit opts batch i s hb hg
  | testFixture =>
    cases kind with
    | classDecl b' =>
      exact fragment_setStaticInit opts batch i s
        (d := ⟨name, typeParams, .testFixture, .classDecl (withTestRunner opts b')⟩) rfl hg
    | interfaceDecl b' => exact fragment_setStaticInit opts batch i s hb hg
    | enumDecl e => cases hb
  | resources e => rfl
  | globalMethods => exact absurd (.inl rfl) hdet
  | mixin t => exact absurd (.inr ⟨t, rfl⟩) hdet

theorem markedFragment_setStaticInit_factory (hm : d.marker = .plain ∨ d.marker = .testFixture)
    (hb : d.classBody? = some b) (hg : d.isGeneric = true) :
    ∃ params pre post, ∀ s, markedFragment opts batch i (d.setStaticInit s) = banner opts d ++
      Node.assignStmt (batch.typeRef i)
        (.func none params (pre ++ s ++ [.ret (some (.ident opts.genericPlaceholder))])) :: post := by
  obtain ⟨name, typeParams, marker, kind⟩ := d
  rcases hm with rfl | rfl
  · exact fragment_setStaticInit_generic opts batch i hb hg
  · cases kind with
    | classDecl b' =>
      -- the test runner changes the instance methods only
      exact fragment_setStaticInit_generic opts batch i
        (d := ⟨name, typeParams, .testFixture, .classDecl (withTestRunner opts b')⟩) rfl hg
    | interfaceDecl b' => exact fragment_setStaticInit_generic opts batch i hb hg
    | enumDecl e => cases hb

theorem markedFragment_factory (hm : d.marker = .plain ∨ d.marker = .testFixture)
    (hb : d.classBody? = some b) (hg : d.isGeneric = true) :
    FactoryOf opts batch i d b (markedFragment opts batch i d) := by
  obtain ⟨params, pre, post, h⟩ := markedFragment_setStaticInit_factory opts batch i hm hb hg
  refine ⟨params, pre, post, ?_⟩
  rw [← h b.staticInit, Decl.setStaticInit_staticInit hb]

theorem fragmentOf_setStaticInit_self (hd : batch.get? i = some d) :
    fragmentOf opts (batch.setStaticInit i s) i = markedFragment opts batch i (d.setStaticInit s) := by
  unfold fragmentOf
  rw [Batch.get?_setStaticInit_self, hd, Option.map_some]
  exact markedFragment_congr opts batch i (Batch.typeRef_setStaticInit batch i s i) _

theorem scheduledPiece_setStaticInit_self (hd : batch.get? i = some d) :
    scheduledPiece (batch.setStaticInit i s) i = scheduledInit (d.setStaticInit s) := by
  unfold scheduledPiece
  rw [Batch.get?_setStaticInit_self, hd]
  rfl

/-- Setting one declaration's static initialiser leaves every other fragment and piece alone. -/
theorem setStaticInit_frame {j : Nat} (h : j ≠ i) :
    fragmentOf opts (batch.setStaticInit i s) j = fragmentOf opts batch j ∧
      scheduledPiece (batch.setStaticInit i s) j = scheduledPiece batch j := by
  unfold fragmentOf scheduledPiece
  rw [Batch.get?_setStaticInit_of_ne batch i s h]
  refine ⟨?_, rfl⟩
  cases batch.get? j with
  | none => rfl
  | some d => exact markedFragment_congr opts batch j (Batch.typeRef_setStaticInit batch i s j) d

theorem initSlot (hd : batch.get? i = some d) (hb : d.classBody? = some b)
    (hr : ∀ e, d.marker ≠ .resources e) : InitSlot opts batch i d := by
  refine ⟨fun hg s => ⟨?_, ?_⟩, fun hg s => ?_, fun hg hdet => ?_, fun hg hdet s => ?_⟩
  · rw [scheduledPiece_setStaticInit_self batch i s hd]
    exact scheduledInit_eq (d := d.setStaticInit s) hg hr (Decl.classBody?_setStaticInit s hb)
  · rw [fragmentOf_setStaticInit_self opts batch i s hd, fragmentOf_eq opts batch i hd]
    exact markedFragment_setStaticInit opts batch i s hb (.inl hg)
  · rw [scheduledPiece_setStaticInit_self batch i s hd]
    exact scheduledInit_of_generic hg
  · obtain ⟨params, pre, post, h⟩ :=
      markedFragment_setStaticInit_factory opts batch i (marker_of_not_detached hr hdet) hb hg
    exact ⟨params, pre, post, fun s => (fragmentOf_setStaticInit_self opts batch i s hd).trans (h s)⟩
  · rw [fragmentOf_setStaticInit_self opts batch i s hd, fragmentOf_eq opts batch i hd]
    exact markedFragment_setStaticInit opts batch i s hb (.inr hdet)

end Replace

/-- Every static initialiser is placed as promised exactly when no generic global-method holder
or mixin has one. -/
theorem initPlaced_iff (opts : Options) (batch : Batch) :
    (∀ i d b, batch.get? i = some d → d.classBody? = some b → (∀ e, d.marker ≠ .resources e) →
      InitPlaced opts batch i d b) ↔
    ∀ i d b, batch.get? i = some d → d.classBody? = some b → d.isGeneric = true → Detached d →
      b.staticInit = [] := by
  constructor
  · intro hall i d b hd hb hg hdet
    have hr : ∀ e, d.marker ≠ .resources e := fun e he => by
      rcases hdet with h | ⟨t, h⟩ <;> rw [h] at he <;> cases he
    have hplaced := hall i d b hd hb hr
    rw [InitPlaced, if_pos hg, fragmentOf_eq opts batch i hd,
      markedFragment_detached opts batch i hdet hb] at hplaced
    rcases hplaced with hnil | ⟨params, pre, post, hfac⟩
    · exact hnil
    · exact absurd (List.append_cancel_left hfac) (attachStatics_ne_factory batch i _ _ _ _)
  · intro hdet i d b hd hb hr
    unfold InitPlaced
    split
    · next hg =>
      by_cases hd' : Detached d
      · exact .inl (hdet i d b hd hb hg hd')
      · rw [fragmentOf_eq opts batch i hd]
        exact .inr (markedFragment_factory opts batch i (marker_of_not_detached hr hd') hb hg)
    · next hg => exact scheduledInit_eq (Bool.eq_false_iff.2 hg) hr hb

theorem layout_initOrder_perm (opts : Options) (batch : Batch) :
    List.Perm (layout opts batch).initOrder (List.range batch.size) :=
  Schedule.orderMembers_perm _ _ _ List.nodup_range

/-- The three parts of a laid-out batch, with both orders permutations. Setting one declaration's
static initialiser changes no other's fragment or piece, and `InitSlot` says where it lands, so
each is laid out once unless a generic global-method holder or mixin drops it. -/
theorem layout_static_inits (opts : Options) (batch : Batch) :
    (∃ reg : Nat → Option Node, (∀ i, Registers opts batch i (reg i)) ∧
      (layout opts batch).statements =
        (layout opts batch).declarationOrder.flatMap
            (fun i => (reg i).toList ++ fragmentOf opts batch i) ++
          (layout opts batch).initOrder.flatMap (scheduledPiece batch) ++
          (entryPoint opts batch).1.toList) ∧
    List.Perm (layout opts batch).declarationOrder (List.range batch.size) ∧
    List.Perm (layout opts batch).initOrder (List.range batch.size) ∧
    (∀ i d, batch.get? i = some d → d.isGeneric = true → scheduledPiece batch i = []) ∧
    (∀ i d entries, batch.get? i = some d → d.marker = .resources entries →
      scheduledInit d = [] ∧
        fragmentOf opts batch i = banner opts d ++ [resourceTable (batch.typeRef i) entries]) ∧
    (∀ i j s, j ≠ i →
      fragmentOf opts (batch.setStaticInit i s) j = fragmentOf opts batch j ∧
        scheduledPiece (batch.setStaticInit i s) j = scheduledPiece batch j) ∧
    (∀ i d b, batch.get? i = some d → d.classBody? = some b → (∀ e, d.marker ≠ .resources e) →
      InitSlot opts batch i d) ∧
    ((∀ i d b, batch.get? i = some d → d.classBody? = some b → (∀ e, d.marker ≠ .resources e) →
        InitPlaced opts batch i d b) ↔
      ∀ i d b, batch.get? i = some d → d.classBody? = some b → d.isGeneric = true → Detached d →
        b.staticInit = []) := by
  have hdecl := Schedule.layout_declarationOrder_perm opts batch
  have hinit := layout_initOrder_perm opts batch
  refine ⟨layout_statements opts batch (hdecl.nodup_iff.2 List.nodup_range), hdecl, hinit,
    fun i d hd hg => ?_, fun i d entries hd hm => ?_,
    fun i j s h => setStaticInit_frame opts batch i s h,
    fun i d b hd hb hr => initSlot opts batch i hd hb hr, initPlaced_iff opts batch⟩
  · rw [scheduledPiece, hd]
    exact scheduledInit_of_generic hg
  · rw [fragmentOf_eq opts batch i hd]
    exact ⟨scheduledInit_of_resources hm, markedFragment_resources opts batch i hm⟩

/-- A generic global-method holder whose static initialiser is `seed;`. -/
def genericHolder : Batch :=
  ⟨[{ name := ⟨[], ["G"]⟩, typeParams := ["T"], marker := .globalMethods,
      kind := .classDecl { staticInit := [.exprStmt (.ident "seed")] } }]⟩

theorem genericHolder_drops_static_init :
    (layout {} genericHolder).statements = [Node.lineComment "G"] := by
  have hone : List.range genericHolder.size = [0] := rfl
  have hdecl := Schedule.layout_declarationOrder_perm {} genericHolder
  have hinit := layout_initOrder_perm {} genericHolder
  rw [hone, List.perm_singleton] at hdecl hinit
  obtain ⟨reg, hreg, hst⟩ := layout_statements {} genericHolder (by rw [hdecl]; exact List.nodup_singleton 0)
  have hnone : reg 0 = none := by
    rcases hreg 0 with h | ⟨d, path, hd, hn, -⟩
    · exact h
    · cases hd
      cases hn
  rw [hst, hdecl, hinit]
  simp only [List.flatMap_cons, List.flatMap_nil, List.append_nil, hnone]
  rfl

end Layout

end ProtoLayout
