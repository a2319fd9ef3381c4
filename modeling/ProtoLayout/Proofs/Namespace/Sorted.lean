import ProtoLayout.Proofs.Namespace.Display
import ProtoLayout.Proofs.Declaration.Order
import Mathlib.Data.List.Lex
import Mathlib.Data.String.Basic
import Mathlib.Data.Prod.Lex

/-!
The display order is the batch sorted by namespace path, nesting chain and id: every namespace
of the tree holds the ids of its own path, and its children stand in the order of their names.
-/

namespace ProtoLayout.Namespace

variable (b : Batch)

def pathOf (i : Nat) : List String := ((b.get? i).map (·.name.path)).getD []

def chainOf (i : Nat) : List String := ((b.get? i).map (·.name.nesting)).getD []

def displayKey (i : Nat) : List String ×ₗ List String ×ₗ Nat :=
  toLex (pathOf b i, toLex (chainOf b i, i))

variable {b}

theorem displayKey_injective {i j : Nat} (h : displayKey b i = displayKey b j) : i = j := by
  simp only [displayKey, EmbeddingLike.apply_eq_iff_eq, Prod.mk.injEq] at h
  exact h.2.2

/-! ### Comparing nesting chains -/

theorem compareChains_eq_iff : ∀ {x y : List String}, compareChains x y = .eq ↔ x = y
  | [], [] | [], _ :: _ | _ :: _, [] => by simp [compareChains]
  | a :: as, c :: cs => by
    cases h : compare a c <;> simp only [compareChains, h, reduceCtorEq, false_iff, List.cons.injEq]
    · exact fun hac => (compare_lt_iff_lt.1 h).ne hac.1
    · rw [compareChains_eq_iff, compare_eq_iff_eq.1 h]
      simp
    · exact fun hac => (compare_gt_iff_gt.1 h).ne' hac.1

theorem compareChains_lt_iff : ∀ {x y : List String}, compareChains x y = .lt ↔ x < y
  | [], [] | [], _ :: _ | _ :: _, [] => by simp [compareChains]
  | a :: as, c :: cs => by
    rw [List.cons_lt_cons_iff]
    cases h : compare a c <;> simp only [compareChains, h]
    · simp [compare_lt_iff_lt.1 h]
    · rw [compareChains_lt_iff, compare_eq_iff_eq.1 h]
      simp
    · have hca := compare_gt_iff_gt.1 h
      simp only [reduceCtorEq, false_iff, not_or, not_and]
      exact ⟨lt_asymm hca, fun hac => absurd hac hca.ne'⟩

theorem withinBefore_eq_displayKey {i j : Nat} {di dj : Decl} (hi : b.get? i = some di)
    (hj : b.get? j = some dj) (hp : di.name.path = dj.name.path) :
    withinBefore b i j = decide (displayKey b i ≤ displayKey b j) := by
  simp only [withinBefore, displayKey, pathOf, chainOf, hi, hj, Option.map_some, Option.getD_some,
    hp, Prod.Lex.toLex_le_toLex, lt_self_iff_false, true_and, false_or]
  rcases lt_trichotomy di.name.nesting dj.name.nesting with hlt | heq | hgt
  · rw [compareChains_lt_iff.2 hlt]
    simp [hlt]
  · rw [compareChains_eq_iff.2 heq, heq]
    simp
  · have hgt' : compareChains di.name.nesting dj.name.nesting = .gt := by
      cases h : compareChains di.name.nesting dj.name.nesting
      · exact absurd (compareChains_lt_iff.1 h) (lt_asymm hgt)
      · exact absurd (compareChains_eq_iff.1 h) hgt.ne'
      · rfl
    rw [hgt']
    simp only [false_eq_decide_iff, not_or, not_and]
    exact ⟨lt_asymm hgt, fun h => absurd h hgt.ne'⟩

/-! ### Paths against keys -/

theorem displayKey_lt_of_pathOf_lt {i j : Nat} (h : pathOf b i < pathOf b j) :
    displayKey b i < displayKey b j :=
  Prod.Lex.toLex_lt_toLex.2 (.inl h)

theorem lt_of_child_prefix {p x : List String} {s : String} (h : p ++ [s] <+: x) : p < x := by
  obtain ⟨v, rfl⟩ := h
  simpa using (List.append_left_lt (List.nil_lt_cons s v) : p ++ [] < p ++ s :: v)

theorem lt_of_sibling_prefix {p x y : List String} {s s' : String} (hx : p ++ [s] <+: x)
    (hy : p ++ [s'] <+: y) (hs : s < s') : x < y := by
  obtain ⟨u, rfl⟩ := hx
  obtain ⟨v, rfl⟩ := hy
  simpa using (List.append_left_lt (List.cons_lt_cons_iff.2 (.inl hs)) : p ++ s :: u < p ++ s' :: v)

/-! ### Trees whose ids are filed by path -/

mutual

/-- Its own ids have path `p`, and its children stand at `p` extended by their names, ascending. -/
def Tree.Filed (b : Batch) : List String → Tree → Prop
  | p, .node ts cs => (∀ i ∈ ts, ∃ d, b.get? i = some d ∧ d.name.path = p) ∧ childrenFiled b p cs

def childrenFiled (b : Batch) (p : List String) : List (String × Tree) → Prop
  | [] => True
  | (s, t) :: rest => t.Filed b (p ++ [s]) ∧ (∀ st ∈ rest, s < st.1) ∧ childrenFiled b p rest

end

theorem filed_node {p : List String} {ts : List Nat} {cs : List (String × Tree)} :
    (Tree.node ts cs).Filed b p ↔
      (∀ i ∈ ts, ∃ d, b.get? i = some d ∧ d.name.path = p) ∧ childrenFiled b p cs := by
  rw [Tree.Filed]

theorem filed_empty (p : List String) : Tree.empty.Filed b p := by
  rw [Tree.empty, filed_node]
  exact ⟨by simp, trivial⟩

mutual

theorem prefix_of_mem_order : ∀ {p : List String} {t : Tree}, t.Filed b p →
    ∀ i ∈ t.order b, p <+: pathOf b i
  | p, .node ts cs, h, i, hi => by
    rw [filed_node] at h
    rw [order_node, List.mem_append] at hi
    rcases hi with hi | hi
    · obtain ⟨d, hd, hp⟩ := h.1 i ((List.mergeSort_perm _ _).subset hi)
      simp [pathOf, hd, hp]
    · obtain ⟨st, -, hst⟩ := prefix_of_mem_childrenOrder h.2 i hi
      exact (List.prefix_append p [st.1]).trans hst

theorem prefix_of_mem_childrenOrder : ∀ {p : List String} {cs : List (String × Tree)},
    childrenFiled b p cs → ∀ i ∈ childrenOrder b cs, ∃ st ∈ cs, p ++ [st.1] <+: pathOf b i
  | _, [], _, i, hi => by simp [childrenOrder] at hi
  | p, (s, t) :: rest, h, i, hi => by
    rw [childrenFiled] at h
    rw [childrenOrder, List.mem_append] at hi
    rcases hi with hi | hi
    · exact ⟨(s, t), List.mem_cons_self .., prefix_of_mem_order h.1 i hi⟩
    · obtain ⟨st, hst, hp⟩ := prefix_of_mem_childrenOrder h.2.2 i hi
      exact ⟨st, List.mem_cons_of_mem _ hst, hp⟩

end

theorem pairwise_mergeSort_own {p : List String} {ts : List Nat}
    (h : ∀ i ∈ ts, ∃ d, b.get? i = some d ∧ d.name.path = p) :
    (ts.mergeSort (withinBefore b)).Pairwise fun i j => displayKey b i ≤ displayKey b j := by
  -- on ids of one path the walk's comparison is the display key's, so the sorts agree
  have hsort : ts.mergeSort (withinBefore b) =
      ts.mergeSort fun i j => decide (displayKey b i ≤ displayKey b j) := by
    have h' := @List.map_mergeSort Nat Nat (withinBefore b)
      (fun i j => decide (displayKey b i ≤ displayKey b j)) id ts fun i hi j hj => by
        obtain ⟨di, hdi, hpi⟩ := h i hi
        obtain ⟨dj, hdj, hpj⟩ := h j hj
        exact withinBefore_eq_displayKey hdi hdj (hpi.trans hpj.symm)
    rwa [List.map_id, List.map_id] at h'
  rw [hsort]
  refine (List.pairwise_mergeSort (fun _ _ _ h1 h2 => ?_)
    (fun i j => by simpa using le_total (displayKey b i) (displayKey b j)) ts).imp (by simp)
  simp only [decide_eq_true_eq] at h1 h2 ⊢
  exact le_trans h1 h2

mutual

theorem pairwise_order : ∀ {p : List String} {t : Tree}, t.Filed b p →
    (t.order b).Pairwise fun i j => displayKey b i ≤ displayKey b j
  | p, .node ts cs, h => by
    rw [filed_node] at h
    rw [order_node, List.pairwise_append]
    refine ⟨pairwise_mergeSort_own h.1, pairwise_childrenOrder h.2, fun i hi j hj => ?_⟩
    obtain ⟨d, hd, hp⟩ := h.1 i ((List.mergeSort_perm _ _).subset hi)
    obtain ⟨st, -, hst⟩ := prefix_of_mem_childrenOrder h.2 j hj
    have hpath : pathOf b i < pathOf b j := by
      simpa [pathOf, hd, hp] using lt_of_child_prefix hst
    exact (displayKey_lt_of_pathOf_lt hpath).le

theorem pairwise_childrenOrder : ∀ {p : List String} {cs : List (String × Tree)},
    childrenFiled b p cs →
      (childrenOrder b cs).Pairwise fun i j => displayKey b i ≤ displayKey b j
  | _, [], _ => List.Pairwise.nil
  | p, (s, t) :: rest, h => by
    rw [childrenFiled] at h
    rw [childrenOrder, List.pairwise_append]
    refine ⟨pairwise_order h.1, pairwise_childrenOrder h.2.2, fun i hi j hj => ?_⟩
    obtain ⟨st, hst, hpj⟩ := prefix_of_mem_childrenOrder h.2.2 j hj
    have hpath := lt_of_sibling_prefix (prefix_of_mem_order h.1 i hi) hpj (h.2.1 st hst)
    exact (displayKey_lt_of_pathOf_lt hpath).le

end

/-! ### Filing keeps the tree filed -/

theorem name_of_mem_updateChild {s : String} {f : Tree → Tree} :
    ∀ {cs : List (String × Tree)} {st : String × Tree}, st ∈ updateChild s f cs →
      st.1 = s ∨ ∃ st' ∈ cs, st'.1 = st.1
  | [], st, h => by
    rw [updateChild, List.mem_singleton] at h
    exact .inl (h ▸ rfl)
  | (k, t) :: rest, st, h => by
    unfold updateChild at h
    split at h
    · rcases List.mem_cons.1 h with rfl | h
      · exact .inl rfl
      · exact .inr ⟨st, h, rfl⟩
    · split at h
      · rcases List.mem_cons.1 h with rfl | h
        · exact .inr ⟨(k, t), List.mem_cons_self .., rfl⟩
        · exact .inr ⟨st, List.mem_cons_of_mem _ h, rfl⟩
      · rcases List.mem_cons.1 h with rfl | h
        · exact .inr ⟨_, List.mem_cons_self .., rfl⟩
        · rcases name_of_mem_updateChild h with h | ⟨st', hst', heq⟩
          · exact .inl h
          · exact .inr ⟨st', List.mem_cons_of_mem _ hst', heq⟩

theorem childrenFiled_updateChild {p : List String} (s : String) (f : Tree → Tree)
    (hf : ∀ t, t.Filed b (p ++ [s]) → (f t).Filed b (p ++ [s])) :
    ∀ cs, childrenFiled b p cs → childrenFiled b p (updateChild s f cs)
  | [], _ => by
    rw [updateChild, childrenFiled, childrenFiled]
    exact ⟨hf _ (filed_empty _), by simp, trivial⟩
  | (k, t) :: rest, h => by
    rw [childrenFiled] at h
    obtain ⟨ht, hk, hrest⟩ := h
    unfold updateChild
    split
    · rename_i hsk
      refine ⟨hf _ (filed_empty _), fun st hst => ?_, ht, hk, hrest⟩
      rcases List.mem_cons.1 hst with rfl | hst
      · exact hsk
      · exact hsk.trans (hk st hst)
    · split
      · rename_i hsk
        subst hsk
        exact ⟨hf t ht, hk, hrest⟩
      · rename_i hsk hne
        have hks : k < s := lt_of_le_of_ne (not_lt.1 hsk) (Ne.symm hne)
        refine ⟨ht, fun st hst => ?_, childrenFiled_updateChild s f hf rest hrest⟩
        rcases name_of_mem_updateChild hst with h | ⟨st', hst', heq⟩
        · exact h ▸ hks
        · exact heq ▸ hk st' hst'

theorem filed_insert : ∀ (q : List String) (i : Nat) {p : List String} {t : Tree}, t.Filed b p →
    (∃ d, b.get? i = some d ∧ d.name.path = p ++ q) → (t.insert q i).Filed b p
  | [], i, p, .node ts cs, h, hi => by
    rw [filed_node] at h
    rw [Tree.insert, filed_node]
    refine ⟨fun j hj => ?_, h.2⟩
    rcases List.mem_append.1 hj with hj | hj
    · exact h.1 j hj
    · rw [List.mem_singleton.1 hj]
      simpa using hi
  | s :: rest, i, p, .node ts cs, h, hi => by
    rw [filed_node] at h
    rw [Tree.insert, filed_node]
    refine ⟨h.1, childrenFiled_updateChild s _ (fun t ht => filed_insert rest i ht ?_) cs h.2⟩
    simpa using hi

theorem filed_ofBatch (b : Batch) : (Tree.ofBatch b).Filed b [] := by
  unfold Tree.ofBatch
  refine List.foldlRecOn (motive := fun t : Tree => t.Filed b []) _ _ (filed_empty []) fun t ht p hp => ?_
  obtain ⟨d, i⟩ := p
  exact filed_insert _ i ht ⟨d, List.mem_zipIdx_iff_getElem?.1 hp, rfl⟩

/-! ### The display order -/

theorem pairwise_displayOrder (b : Batch) :
    (displayOrder b).Pairwise fun i j => displayKey b i ≤ displayKey b j :=
  pairwise_order (filed_ofBatch b)

/-- Paths and chains compare segment by segment, a proper prefix first. -/
theorem displayOrder_eq_mergeSort (b : Batch) :
    displayOrder b = (List.range b.size).mergeSort fun i j => decide (displayKey b i ≤ displayKey b j) := by
  have hsorted := List.pairwise_mergeSort (fun i j k (h1 : decide (displayKey b i ≤ displayKey b j) = true)
      (h2 : decide (displayKey b j ≤ displayKey b k) = true) => by
        simp only [decide_eq_true_eq] at h1 h2 ⊢
        exact le_trans h1 h2)
    (fun i j => by simpa using le_total (displayKey b i) (displayKey b j)) (List.range b.size)
  refine List.Perm.eq_of_pairwise (fun i j _ _ hij hji => displayKey_injective (le_antisymm hij hji))
    (pairwise_displayOrder b) (hsorted.imp (by simp)) ?_
  exact (displayOrder_perm b).trans (List.mergeSort_perm _ _).symm

theorem lt_of_prefix_of_ne {x y : List String} (h : x <+: y) (hne : x ≠ y) : x < y := by
  obtain ⟨v, rfl⟩ := h
  cases v with
  | nil => exact absurd (List.append_nil x).symm hne
  | cons s v => simpa using (List.append_left_lt (List.nil_lt_cons s v) : x ++ [] < x ++ s :: v)

/-- Every id once, sorted by namespace path, nesting chain and id, so a namespace's own
declarations come before those of the namespaces inside it. -/
theorem displayOrder_sorted_by_namespace (b : Batch) :
    displayOrder b =
        (List.range b.size).mergeSort (fun i j => decide (displayKey b i ≤ displayKey b j)) ∧
      List.Perm (displayOrder b) (List.range b.size) ∧
      ∀ i j, i < b.size → j < b.size → pathOf b i <+: pathOf b j → pathOf b i ≠ pathOf b j →
        List.Sublist [i, j] (displayOrder b) := by
  refine ⟨displayOrder_eq_mergeSort b, displayOrder_perm b, fun i j hi hj hpre hne => ?_⟩
  have hlt := displayKey_lt_of_pathOf_lt (lt_of_prefix_of_ne hpre hne)
  have hmem : ∀ k < b.size, k ∈ displayOrder b := fun k hk =>
    (displayOrder_perm b).symm.subset (List.mem_range.2 hk)
  by_contra hij
  have hji := Schedule.pair_sublist_swap (hmem i hi) (hmem j hj)
    (fun h => hne (congrArg (pathOf b) h)) hij
  exact absurd (List.pairwise_iff_forall_sublist.1 (pairwise_displayOrder b) hji) (not_le.2 hlt)

end ProtoLayout.Namespace
