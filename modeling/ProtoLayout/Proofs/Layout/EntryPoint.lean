import ProtoLayout.Proofs.Layout.StaticInit

/-!
The entry point of a laid-out batch: called last, or named by exactly one diagnostic. Its
function is the last write of its property among the fragments when nothing else writes it.
-/

namespace ProtoLayout.Layout

open Script

def NoEntryPoint (batch : Batch) : Prop :=
  ∀ j d b, batch.get? j = some d → d.classBody? = some b →
    ∀ x ∈ b.staticMethods, x.isEntryPoint = false

/-- The first static method so marked, of the first class or interface by id that has one. -/
def FirstEntryPoint (batch : Batch) (i : Nat) (d : Decl) (m : Method) : Prop :=
  batch.get? i = some d ∧
    (∃ b pre post, d.classBody? = some b ∧ b.staticMethods = pre ++ m :: post ∧
      m.isEntryPoint = true ∧ ∀ x ∈ pre, x.isEntryPoint = false) ∧
    ∀ j < i, ∀ d' b', batch.get? j = some d' → d'.classBody? = some b' →
      ∀ x ∈ b'.staticMethods, x.isEntryPoint = false

def scheduledInits (opts : Options) (batch : Batch) : List Node :=
  (layout opts batch).initOrder.flatMap fun i => ((batch.get? i).map scheduledInit).getD []

section Search

variable {batch : Batch}

theorem findEntryPoint_of_none (h : NoEntryPoint batch) : findEntryPoint batch = none := by
  unfold findEntryPoint
  rw [List.findSome?_eq_none_iff]
  rintro ⟨d, j⟩ hmem
  have hd : batch.get? j = some d := List.mem_zipIdx_iff_getElem?.1 hmem
  dsimp only
  cases hb : d.classBody? with
  | none => rfl
  | some b =>
    simp only [Option.map_eq_none_iff, List.find?_eq_none]
    intro x hx
    simp [h j d b hd hb x hx]

theorem findEntryPoint_of_first {i : Nat} {d : Decl} {m : Method}
    (h : FirstEntryPoint batch i d m) : findEntryPoint batch = some (i, d, m) := by
  obtain ⟨hd, ⟨b, pre, post, hb, hsm, hm, hpre⟩, hfirst⟩ := h
  have hi : i < batch.decls.length := (List.getElem?_eq_some_iff.1 hd).1
  have hsplit : batch.decls.zipIdx =
      (batch.decls.take i).zipIdx ++ (d, i) :: (batch.decls.drop (i + 1)).zipIdx (i + 1) := by
    have hdrop : batch.decls.drop i = d :: batch.decls.drop (i + 1) := by
      rw [List.drop_eq_getElem_cons hi, (List.getElem?_eq_some_iff.1 hd).2]
    conv_lhs => rw [← List.take_append_drop i batch.decls, List.zipIdx_append, hdrop]
    rw [List.zipIdx_cons, List.length_take_of_le hi.le, Nat.zero_add]
  unfold findEntryPoint
  rw [List.findSome?_eq_some_iff]
  refine ⟨_, (d, i), _, hsplit, ?_, ?_⟩
  · have hfind : b.staticMethods.find? (·.isEntryPoint) = some m :=
      List.find?_eq_some_iff_append.2 ⟨hm, pre, post, hsm, fun x hx => by simp [hpre x hx]⟩
    simp [hb, hfind]
  · rintro ⟨d', j⟩ hmem
    have hj := List.mem_zipIdx_iff_getElem?.1 hmem
    simp only [List.getElem?_take] at hj
    split at hj
    · next hji =>
      dsimp only
      cases hb' : d'.classBody? with
      | none => rfl
      | some b' =>
        simp only [Option.map_eq_none_iff, List.find?_eq_none]
        intro x hx
        simp [hfirst j hji d' b' hj hb' x hx]
    · cases hj

end Search

section Outcome

variable (opts : Options) (batch : Batch)

theorem layout_statements_eq :
    (layout opts batch).statements = fragments opts batch (layout opts batch).declarationOrder ++
      scheduledInits opts batch ++ (entryPoint opts batch).1.toList :=
  rfl

theorem layout_diagnostics_eq : (layout opts batch).diagnostics = (entryPoint opts batch).2 :=
  rfl

theorem entryPoint_of_none (h : NoEntryPoint batch) : entryPoint opts batch = (none, []) := by
  unfold entryPoint
  rw [findEntryPoint_of_none h]

variable {opts batch} {i : Nat} {d : Decl} {m : Method}

theorem entryPoint_not_invocable (h : FirstEntryPoint batch i d m)
    (hbad : m.semantics ≠ .normal ∨ m.body = none ∨ exposesStatics d = false) :
    entryPoint opts batch = (none, [Diagnostic.ofCode 7802 (d.name.qualified ++ "." ++ m.name)
      [d.name.qualified ++ "." ++ m.name]]) := by
  unfold entryPoint
  rw [findEntryPoint_of_first h]
  dsimp only
  rw [if_pos (by rcases hbad with hs | hb | he <;> simp [*])]
  rfl

theorem entryPoint_with_parameters (h : FirstEntryPoint batch i d m)
    (hs : m.semantics = .normal) (hb : m.body ≠ none) (he : exposesStatics d = true)
    (hp : m.scriptParams ≠ []) :
    entryPoint opts batch = (none, [Diagnostic.ofCode 7801 (d.name.qualified ++ "." ++ m.name)
      [d.name.qualified ++ "." ++ m.name]]) := by
  unfold entryPoint
  rw [findEntryPoint_of_first h]
  dsimp only
  rw [if_neg (by simp [hs, he, Option.isNone_iff_eq_none, hb]), if_pos (by simpa using hp)]
  rfl

theorem entryPoint_call (h : FirstEntryPoint batch i d m)
    (hs : m.semantics = .normal) (hb : m.body ≠ none) (he : exposesStatics d = true)
    (hp : m.scriptParams = []) :
    entryPoint opts batch =
      (some (.exprStmt (Node.methodCall (staticTarget opts batch i d) m.name [])), []) := by
  unfold entryPoint
  rw [findEntryPoint_of_first h]
  dsimp only
  rw [if_neg (by simp [hs, he, Option.isNone_iff_eq_none, hb]), if_neg (by simp [hp])]

end Outcome

section Writes

/-! Top-level writes `t.n = v` of a fragment. -/

variable {t : Node} {n : String} {v : Node}

@[simp]
theorem assignStmt_member_inj {t' : Node} {n' : String} {v' : Node} :
    Node.assignStmt (.member t n) v = Node.assignStmt (.member t' n') v' ↔ t = t' ∧ n = n' ∧ v = v' := by
  simp [Node.assignStmt, Node.assign, and_assoc]

theorem mem_attachStatics {b : ClassBody} {target : Node} {x : Method} {f : Node}
    (hx : x ∈ b.staticMethods) (hf : methodFunction x = some f) :
    Node.assignStmt (.member target x.name) f ∈ attachStatics b target :=
  List.mem_filterMap.2 ⟨x, hx, by rw [hf]; rfl⟩

theorem write_of_mem_attachStatics {b : ClassBody} {target : Node}
    (h : Node.assignStmt (.member t n) v ∈ attachStatics b target) :
    ∃ x ∈ b.staticMethods, t = target ∧ n = x.name ∧ methodFunction x = some v := by
  obtain ⟨x, hx, hw⟩ := List.mem_filterMap.1 h
  obtain ⟨f, hf, hs⟩ := Option.map_eq_some_iff.1 hw
  obtain ⟨rfl, rfl, rfl⟩ := assignStmt_member_inj.1 hs
  exact ⟨x, hx, rfl, rfl, hf⟩

theorem write_of_mem_namedConstructors {b : ClassBody} {target : Node}
    (h : Node.assignStmt (.member t n) v ∈ namedConstructors b target) :
    (∃ c ∈ b.namedCtors, t = target ∧ n = c.name) ∨ n = "prototype" := by
  unfold namedConstructors at h
  split at h
  · cases h
  · rcases List.mem_append.1 h with h | h
    · obtain ⟨c, hc, hs⟩ := List.mem_map.1 h
      obtain ⟨rfl, rfl, -⟩ := assignStmt_member_inj.1 hs
      exact .inl ⟨c, hc, rfl, rfl⟩
    · -- the statement sharing the prototype writes the first constructor's `prototype`
      right
      cases hcs : b.namedCtors with
      | nil => simp [hcs] at *
      | cons c cs =>
        rw [hcs, List.foldr_cons, List.mem_singleton] at h
        exact (assignStmt_member_inj.1 h).2.1

theorem write_of_mem_members {b : ClassBody} {target : Node} {isInterface : Bool}
    (h : Node.assignStmt (.member t n) v ∈ members b target isInterface none) :
    (∃ x ∈ b.staticMethods, t = target ∧ n = x.name ∧ methodFunction x = some v) ∨
      n = "prototype" ∨ ∃ c ∈ b.namedCtors, t = target ∧ n = c.name := by
  unfold members at h
  simp only [List.mem_append, Option.toList_none, List.not_mem_nil, or_false] at h
  rcases h with (hp | hc) | hs
  · split at hp
    · cases hp
    · exact .inr (.inl (assignStmt_member_inj.1 (List.mem_singleton.1 hp)).2.1)
  · split at hc
    · cases hc
    · rcases write_of_mem_namedConstructors hc with hc | hc
      · exact .inr (.inr hc)
      · exact .inr (.inl hc)
  · exact .inl (write_of_mem_attachStatics hs)

theorem not_write_banner {opts : Options} {d : Decl} :
    Node.assignStmt (.member t n) v ∉ banner opts d := by
  unfold banner
  split <;> simp [Node.lineComment, Node.assignStmt]

end Writes

section Fragments

variable (opts : Options) (batch : Batch) {j : Nat} {d : Decl} {b : ClassBody}
variable {t : Node} {n : String} {v : Node}

theorem exposesStatics_eq_true :
    exposesStatics d = true ↔ d.isGeneric = false ∧ ∀ e, d.marker ≠ .resources e := by
  unfold exposesStatics
  cases d.marker <;> simp

theorem shape_of_classBody (hg : d.isGeneric = false) (hb : d.classBody? = some b) :
    Shape.of d = .classShape b ∨ Shape.of d = .interfaceShape b := by
  unfold Decl.classBody? at hb
  unfold Shape.of
  split at hb
  · next hk => cases hb; simp [hk, hg]
  · next hk => cases hb; simp [hk, hg]
  · cases hb

theorem classBody_of_shape (h : Shape.of d = .classShape b ∨ Shape.of d = .interfaceShape b) :
    d.classBody? = some b := by
  unfold Shape.of at h
  unfold Decl.classBody?
  cases hk : d.kind with
  | classDecl b' =>
    simp only [hk] at h
    split at h <;> rcases h with h | h <;> cases h
    rfl
  | interfaceDecl b' =>
    simp only [hk] at h
    split at h <;> rcases h with h | h <;> cases h
    rfl
  | enumDecl e =>
    simp only [hk] at h
    rcases h with h | h <;> cases h

theorem mem_members_of_mem_attachStatics {target s : Node} {isInterface : Bool}
    {registration : Option Node} (h : s ∈ attachStatics b target) :
    s ∈ members b target isInterface registration := by
  unfold members
  exact List.mem_append_right _ h

theorem mem_fragment_attach (hs : Shape.of d = .classShape b ∨ Shape.of d = .interfaceShape b)
    {x : Method} {f : Node} (hx : x ∈ b.staticMethods) (hf : methodFunction x = some f) :
    Node.assignStmt (.member (batch.typeRef j) x.name) f ∈ fragment opts batch j d := by
  have hattach : Node.assignStmt (.member (batch.typeRef j) x.name) f ∈
      attachStatics b (batch.typeRef j) := mem_attachStatics hx hf
  unfold fragment
  apply List.mem_append_right
  rcases hs with hs | hs <;> rw [hs] <;>
    exact List.mem_append_left _ (List.mem_append_right _ (mem_members_of_mem_attachStatics hattach))

theorem mem_markedFragment_attach (he : exposesStatics d = true) (hb : d.classBody? = some b)
    {x : Method} {f : Node} (hx : x ∈ b.staticMethods) (hf : methodFunction x = some f) :
    Node.assignStmt (.member (staticTarget opts batch j d) x.name) f ∈
      markedFragment opts batch j d := by
  obtain ⟨hg, hr⟩ := exposesStatics_eq_true.1 he
  cases hm : d.marker with
  | plain =>
    simp only [markedFragment, staticTarget, hm]
    exact mem_fragment_attach opts batch (shape_of_classBody hg hb) hx hf
  | testFixture =>
    simp only [markedFragment, staticTarget, hm]
    split
    · -- the test runner changes the instance methods only
      next b' hk =>
      have hb' : b' = b := by
        unfold Decl.classBody? at hb
        rw [hk] at hb
        exact Option.some.inj hb
      subst hb'
      have hs := shape_of_classBody (d := { d with kind := .classDecl (withTestRunner opts b') })
        hg rfl
      exact mem_fragment_attach opts batch hs hx hf
    · exact mem_fragment_attach opts batch (shape_of_classBody hg hb) hx hf
  | resources e => exact absurd hm (hr e)
  | globalMethods =>
    rw [markedFragment_detached opts batch j (.inl hm) hb]
    exact List.mem_append_right _ (mem_attachStatics hx hf)
  | mixin target =>
    rw [markedFragment_detached opts batch j (.inr ⟨target, hm⟩) hb]
    exact List.mem_append_right _ (mem_attachStatics hx hf)

/-- A static method of `j` with a body on `target`, a named constructor of `j` on the declaration
itself, or a prototype. -/
def MemberWrite (batch : Batch) (j : Nat) (d : Decl) (target t : Node) (n : String) (v : Node) :
    Prop :=
  (∃ b, d.classBody? = some b ∧
    ((∃ x ∈ b.staticMethods, t = target ∧ n = x.name ∧ methodFunction x = some v) ∨
      ∃ c ∈ b.namedCtors, t = batch.typeRef j ∧ n = c.name)) ∨ n = "prototype"

theorem MemberWrite.of_members {target : Node} (hb : d.classBody? = some b)
    (h : (∃ x ∈ b.staticMethods, t = target ∧ n = x.name ∧ methodFunction x = some v) ∨
      n = "prototype" ∨ ∃ c ∈ b.namedCtors, t = batch.typeRef j ∧ n = c.name) :
    MemberWrite batch j d target t n v := by
  rcases h with hx | hp | hc
  · exact .inl ⟨b, hb, .inl hx⟩
  · exact .inr hp
  · exact .inl ⟨b, hb, .inr hc⟩

theorem assignStmt_member_ne_typeRef {w : Node} :
    Node.assignStmt (.member t n) v ≠ Node.assignStmt (batch.typeRef j) w := by
  simp [Node.assignStmt, Node.assign, Batch.typeRef]

theorem assignStmt_member_ne_methodCall {o : Node} {name : String} {args : List Node} :
    Node.assignStmt (.member t n) v ≠ .exprStmt (Node.methodCall o name args) := by
  simp [Node.assignStmt, Node.assign, Node.methodCall]

theorem write_of_mem_classLayout {isInterface : Bool} {ctor o : Node} {name : String}
    {args : List Node}
    (h : Node.assignStmt (.member t n) v ∈ [Node.assignStmt (batch.typeRef j) ctor] ++
      members b (batch.typeRef j) isInterface none ++ [.exprStmt (Node.methodCall o name args)]) :
    (∃ x ∈ b.staticMethods, t = batch.typeRef j ∧ n = x.name ∧ methodFunction x = some v) ∨
      n = "prototype" ∨ ∃ c ∈ b.namedCtors, t = batch.typeRef j ∧ n = c.name := by
  simp only [List.mem_append, List.mem_singleton] at h
  rcases h with (h | h) | h
  · exact absurd h (assignStmt_member_ne_typeRef batch)
  · exact write_of_mem_members h
  · exact absurd h assignStmt_member_ne_methodCall

theorem write_of_mem_fragment (h : Node.assignStmt (.member t n) v ∈ fragment opts batch j d) :
    MemberWrite batch j d (batch.typeRef j) t n v := by
  unfold fragment at h
  rcases List.mem_append.1 h with h | h
  · exact absurd h not_write_banner
  -- the declaration itself, its registration and a factory are no member writes
  cases hs : Shape.of d with
  | classShape b =>
    simp only [hs] at h
    exact .of_members batch (classBody_of_shape (.inl hs)) (write_of_mem_classLayout batch h)
  | interfaceShape b =>
    simp only [hs] at h
    exact .of_members batch (classBody_of_shape (.inr hs)) (write_of_mem_classLayout batch h)
  | enumShape e =>
    simp only [hs, enumFragment, List.mem_cons, List.not_mem_nil, or_false] at h
    rcases h with h | h | h
    · exact absurd h (assignStmt_member_ne_typeRef batch)
    · exact .inr (assignStmt_member_inj.1 h).2.1
    · exact absurd h assignStmt_member_ne_methodCall
  | genericShape b isInterface params =>
    simp only [hs, genericFragment, List.mem_cons, List.not_mem_nil, or_false] at h
    rcases h with h | h
    · exact absurd h (assignStmt_member_ne_typeRef batch)
    · exact absurd h assignStmt_member_ne_methodCall

theorem write_of_mem_detached (hdet : Detached d)
    (h : Node.assignStmt (.member t n) v ∈ markedFragment opts batch j d) :
    MemberWrite batch j d (staticTarget opts batch j d) t n v := by
  cases hb : d.classBody? with
  | none => rcases hdet with hm | ⟨target, hm⟩ <;> simp [markedFragment, hm, hb, not_write_banner] at h
  | some b =>
    rw [markedFragment_detached opts batch j hdet hb] at h
    rcases List.mem_append.1 h with h | h
    · exact absurd h not_write_banner
    · exact .inl ⟨b, hb, .inl (write_of_mem_attachStatics h)⟩

theorem write_of_mem_markedFragment
    (h : Node.assignStmt (.member t n) v ∈ markedFragment opts batch j d) :
    MemberWrite batch j d (staticTarget opts batch j d) t n v := by
  cases hm : d.marker with
  | plain =>
    simp only [markedFragment, staticTarget, hm] at h ⊢
    exact write_of_mem_fragment opts batch h
  | testFixture =>
    simp only [markedFragment, staticTarget, hm] at h ⊢
    split at h
    · -- the test runner keeps the static methods and the named constructors
      next b' hk =>
      rcases write_of_mem_fragment opts batch h with ⟨b'', hb'', hw⟩ | hp
      · cases hb''
        exact .inl ⟨b', by simp [Decl.classBody?, hk], hw⟩
      · exact .inr hp
    · exact write_of_mem_fragment opts batch h
  | resources e =>
    simp only [markedFragment, hm, List.mem_append, List.mem_singleton] at h
    rcases h with h | h
    · exact absurd h not_write_banner
    · exact absurd h (assignStmt_member_ne_typeRef batch)
  | globalMethods => exact write_of_mem_detached opts batch (.inl hm) h
  | mixin target => exact write_of_mem_detached opts batch (.inr ⟨target, hm⟩) h

end Fragments

section Output

variable (opts : Options) (batch : Batch) {order : List Nat}

theorem mem_fragments (hnd : order.Nodup) {j : Nat} (hj : j ∈ order) {s : Node}
    (hs : s ∈ fragmentOf opts batch j) : s ∈ fragments opts batch order := by
  obtain ⟨reg, -, heq⟩ := foldl_fragmentStep opts batch order ([], {}) hnd
  rw [fragments_eq, heq, List.nil_append]
  exact List.mem_flatMap.2 ⟨j, hj, List.mem_append_right _ hs⟩

/-- A namespace registration is a call, not a write. -/
theorem write_of_mem_fragments (hnd : order.Nodup) {t : Node} {n : String} {v : Node}
    (h : Node.assignStmt (.member t n) v ∈ fragments opts batch order) :
    ∃ j d, batch.get? j = some d ∧ Node.assignStmt (.member t n) v ∈ markedFragment opts batch j d := by
  obtain ⟨reg, hreg, heq⟩ := foldl_fragmentStep opts batch order ([], {}) hnd
  rw [fragments_eq, heq, List.nil_append, List.mem_flatMap] at h
  obtain ⟨j, -, hmem⟩ := h
  rcases List.mem_append.1 hmem with hr | hf
  · rcases hreg j with hn | ⟨d, path, -, -, -, hr'⟩
    · rw [hn] at hr; cases hr
    · rw [hr', Option.toList_some, List.mem_singleton] at hr
      exact absurd hr assignStmt_member_ne_methodCall
  · unfold fragmentOf at hf
    cases hd : batch.get? j with
    | none => rw [hd] at hf; cases hf
    | some d => rw [hd] at hf; exact ⟨j, d, hd, hf⟩

theorem exists_last_mem {α : Type} {s : α} : ∀ {L : List α}, s ∈ L →
    ∃ pre post, L = pre ++ s :: post ∧ s ∉ post
  | x :: L, h => by
    by_cases hs : s ∈ L
    · obtain ⟨pre, post, rfl, hpost⟩ := exists_last_mem hs
      exact ⟨x :: pre, post, rfl, hpost⟩
    · obtain rfl : s = x := by simpa [hs] using h
      exact ⟨[], L, rfl, hs⟩

theorem exists_last_write {L : List Node} {target : Node} {name : String} {f : Node}
    (hmem : Node.assignStmt (.member target name) f ∈ L)
    (honly : ∀ v, Node.assignStmt (.member target name) v ∈ L → v = f) :
    ∃ pre post, L = pre ++ Node.assignStmt (.member target name) f :: post ∧
      ∀ v, Node.assignStmt (.member target name) v ∉ post := by
  obtain ⟨pre, post, heq, hpost⟩ := exists_last_mem hmem
  refine ⟨pre, post, heq, fun v hv => hpost ?_⟩
  have hv' : Node.assignStmt (.member target name) v ∈ L := by
    rw [heq]; exact List.mem_append_right _ (List.mem_cons_of_mem _ hv)
  exact honly v hv' ▸ hv

theorem declarationOrder_nodup : (layout opts batch).declarationOrder.Nodup :=
  (Schedule.layout_declarationOrder_perm opts batch).nodup_iff.2 List.nodup_range

variable {batch} {i : Nat} {d : Decl} {b : ClassBody} {m : Method} {body : List Node}

theorem entry_assign_mem (hd : batch.get? i = some d) (hb : d.classBody? = some b)
    (hm : m ∈ b.staticMethods) (hbody : m.body = some body) (he : exposesStatics d = true)
    (hp : m.scriptParams = []) :
    Node.assignStmt (.member (staticTarget opts batch i d) m.name) (.func none [] body) ∈
      fragments opts batch (layout opts batch).declarationOrder := by
  have hi : i ∈ (layout opts batch).declarationOrder :=
    (Schedule.layout_declarationOrder_perm opts batch).mem_iff.2
      (List.mem_range.2 (List.getElem?_eq_some_iff.1 hd).1)
  have hf : methodFunction m = some (.func none [] body) := by
    simp [methodFunction, hbody, hp]
  refine mem_fragments opts batch (declarationOrder_nodup opts batch) hi ?_
  rw [fragmentOf_eq opts batch i hd]
  exact mem_markedFragment_attach opts batch he hb hm hf

theorem entry_writes_only (hbody : m.body = some body) (hp : m.scriptParams = [])
    (hstatics : ∀ j d' b' x, batch.get? j = some d' → d'.classBody? = some b' →
      x ∈ b'.staticMethods → x.body ≠ none →
      staticTarget opts batch j d' = staticTarget opts batch i d → x.name = m.name → x = m)
    (hctors : ∀ j d' b' c, batch.get? j = some d' → d'.classBody? = some b' →
      c ∈ b'.namedCtors → batch.typeRef j = staticTarget opts batch i d → c.name ≠ m.name)
    (hproto : m.name ≠ "prototype") (v : Node)
    (hv : Node.assignStmt (.member (staticTarget opts batch i d) m.name) v ∈
      fragments opts batch (layout opts batch).declarationOrder) :
    v = .func none [] body := by
  obtain ⟨j, d', hd', hw⟩ := write_of_mem_fragments opts batch (declarationOrder_nodup opts batch) hv
  rcases write_of_mem_markedFragment opts batch hw with
    ⟨b', hb', ⟨x, hx, ht, hn, hf⟩ | ⟨c, hc, ht, hn⟩⟩ | hn
  · -- a static method of that name on an equal target is the entry point itself
    have hxbody : x.body ≠ none := by
      intro hnone
      simp [methodFunction, hnone] at hf
    obtain rfl := hstatics j d' b' x hd' hb' hx hxbody ht.symm hn.symm
    simpa [methodFunction, hbody, hp] using hf.symm
  · exact absurd hn.symm (hctors j d' b' c hd' hb' hc ht.symm)
  · exact absurd hn hproto

end Output

/-- Without an entry point there is no call and no diagnostic; the first one is reported with code
7802 or 7801 and not called, or called last on its type's static target, where its function is
the last write among the fragments when no other member of that name goes to that target. -/
theorem entryPoint_invocation (opts : Options) (batch : Batch) :
    (NoEntryPoint batch →
      (layout opts batch).diagnostics = [] ∧
        (layout opts batch).statements =
          fragments opts batch (layout opts batch).declarationOrder ++ scheduledInits opts batch) ∧
    ∀ i d m, FirstEntryPoint batch i d m →
      ((m.semantics ≠ .normal ∨ m.body = none ∨ exposesStatics d = false) →
        (layout opts batch).diagnostics = [Diagnostic.ofCode 7802
            (d.name.qualified ++ "." ++ m.name) [d.name.qualified ++ "." ++ m.name]] ∧
          (layout opts batch).statements =
            fragments opts batch (layout opts batch).declarationOrder ++ scheduledInits opts batch) ∧
      (m.semantics = .normal → m.body ≠ none → exposesStatics d = true → m.scriptParams ≠ [] →
        (layout opts batch).diagnostics = [Diagnostic.ofCode 7801
            (d.name.qualified ++ "." ++ m.name) [d.name.qualified ++ "." ++ m.name]] ∧
          (layout opts batch).statements =
            fragments opts batch (layout opts batch).declarationOrder ++ scheduledInits opts batch) ∧
      ∀ body, m.semantics = .normal → m.body = some body → exposesStatics d = true →
        m.scriptParams = [] →
        (layout opts batch).diagnostics = [] ∧
        (layout opts batch).statements =
          fragments opts batch (layout opts batch).declarationOrder ++ scheduledInits opts batch ++
            [.exprStmt (Node.methodCall (staticTarget opts batch i d) m.name [])] ∧
        Node.assignStmt (.member (staticTarget opts batch i d) m.name) (.func none [] body) ∈
          fragments opts batch (layout opts batch).declarationOrder ∧
        ((∀ j d' b' x, batch.get? j = some d' → d'.classBody? = some b' →
            x ∈ b'.staticMethods → x.body ≠ none →
            staticTarget opts batch j d' = staticTarget opts batch i d → x.name = m.name → x = m) →
          (∀ j d' b' c, batch.get? j = some d' → d'.classBody? = some b' →
            c ∈ b'.namedCtors → batch.typeRef j = staticTarget opts batch i d → c.name ≠ m.name) →
          m.name ≠ "prototype" →
          ∃ pre post, fragments opts batch (layout opts batch).declarationOrder =
              pre ++ Node.assignStmt (.member (staticTarget opts batch i d) m.name)
                (.func none [] body) :: post ∧
            ∀ v, Node.assignStmt (.member (staticTarget opts batch i d) m.name) v ∉ post) := by
  refine ⟨fun h => ?_, fun i d m h => ⟨fun hbad => ?_, fun hs hb he hp => ?_,
    fun body hs hbody he hp => ?_⟩⟩
  · rw [layout_diagnostics_eq, layout_statements_eq, entryPoint_of_none opts batch h]
    exact ⟨rfl, List.append_nil _⟩
  · rw [layout_diagnostics_eq, layout_statements_eq, entryPoint_not_invocable h hbad]
    exact ⟨rfl, List.append_nil _⟩
  · rw [layout_diagnostics_eq, layout_statements_eq, entryPoint_with_parameters h hs hb he hp]
    exact ⟨rfl, List.append_nil _⟩
  · have hb : m.body ≠ none := by rw [hbody]; exact Option.some_ne_none _
    obtain ⟨b, pre, post, hcb, hsm, -, -⟩ := h.2.1
    have hmem := entry_assign_mem opts h.1 hcb (by rw [hsm]; simp) hbody he hp
    rw [layout_diagnostics_eq, layout_statements_eq, entryPoint_call h hs hb he hp]
    exact ⟨rfl, rfl, hmem, fun hstatics hctors hproto =>
      exists_last_write hmem (entry_writes_only opts hbody hp hstatics hctors hproto)⟩

/-- A class `A` whose entry point `main` its own static initialiser resets to `null`. -/
def staticReset : Batch :=
  ⟨[{ name := ⟨[], ["A"]⟩,
      kind := .classDecl
        { staticMethods := [{ name := "main", body := some [], isEntryPoint := true }],
          staticInit := [Node.assignStmt (.member (Node.typeAt 0 "A") "main") .null] } }]⟩

theorem staticReset_first :
    FirstEntryPoint staticReset 0 (staticReset.decls.getD 0 default)
      ({ name := "main", body := some [], isEntryPoint := true } : Method) :=
  ⟨rfl, ⟨_, [], [], rfl, rfl, rfl, by simp⟩, fun _ hj => absurd hj (Nat.not_lt_zero _)⟩

theorem entryPoint_invocation_staticReset :
    ∃ pre post, fragments {} staticReset (layout {} staticReset).declarationOrder =
        pre ++ Node.assignStmt (.member (staticReset.typeRef 0) "main") (.func none [] []) :: post ∧
      ∀ v, Node.assignStmt (.member (staticReset.typeRef 0) "main") v ∉ post := by
  have h := ((entryPoint_invocation {} staticReset).2 _ _ _ staticReset_first).2.2 [] rfl rfl rfl rfl
  refine h.2.2.2 ?_ ?_ (by decide)
  · -- the only static method of the batch is the entry point
    intro j d' b' x hj hb hx _ _ _
    cases j with
    | zero =>
      cases hj
      cases hb
      simpa using hx
    | succ j => cases hj
  · intro j d' b' c hj hb hc
    cases j with
    | zero =>
      cases hj
      cases hb
      cases hc
    | succ j => cases hj

theorem staticReset_overwrites_entry :
    ∃ pre, (layout {} staticReset).statements =
        pre ++ [Node.assignStmt (.member (staticReset.typeRef 0) "main") .null,
          .exprStmt (Node.methodCall (staticReset.typeRef 0) "main" [])] ∧
      Node.assignStmt (.member (staticReset.typeRef 0) "main") (.func none [] []) ∈ pre := by
  have hone : List.range staticReset.size = [0] := rfl
  have hinit := layout_initOrder_perm {} staticReset
  rw [hone, List.perm_singleton] at hinit
  have hinits : scheduledInits {} staticReset =
      [Node.assignStmt (.member (staticReset.typeRef 0) "main") .null] := by
    unfold scheduledInits
    rw [hinit]
    rfl
  have hmem : Node.assignStmt (.member (staticTarget {} staticReset 0 (staticReset.decls.getD 0 default))
      (Method.name { name := "main", body := some [], isEntryPoint := true })) (.func none [] []) ∈
      fragments {} staticReset (layout {} staticReset).declarationOrder :=
    entry_assign_mem {} rfl rfl List.mem_cons_self rfl rfl rfl
  refine ⟨fragments {} staticReset (layout {} staticReset).declarationOrder, ?_, hmem⟩
  rw [layout_statements_eq, hinits, entryPoint_call staticReset_first rfl (by simp) rfl rfl,
    List.append_assoc]
  rfl

end ProtoLayout.Layout
