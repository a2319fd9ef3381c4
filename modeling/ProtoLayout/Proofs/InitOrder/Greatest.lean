import ProtoLayout.Proofs.InitOrder.Levels

/-!
The static-initialiser order is the lexicographically greatest one allowed: a round places the
free component with the latest-declared member, and a greedy choice is lexicographically greatest.
-/

namespace ProtoLayout.Schedule

open Relation

section Greedy

variable {β : Type} (prec : β → β → Prop) (key : β → Nat)

def Respects (order : List β) : Prop :=
  ∀ a ∈ order, ∀ b ∈ order, prec a b → List.Sublist [a, b] order

/-- Each element has no predecessor among itself and the later ones, and the greatest key among
those that have none. -/
inductive Greedy : List β → Prop
  | nil : Greedy []
  | cons {c : β} {rest : List β} : (∀ a ∈ c :: rest, ¬prec a c) →
      (∀ d ∈ rest, (∀ a ∈ c :: rest, ¬prec a d) → key d ≤ key c) → Greedy rest →
      Greedy (c :: rest)

variable {prec key}

theorem mem_of_pair_sublist_cons {a m : β} {M : List β} (h : List.Sublist [a, m] (m :: M)) :
    m ∈ M := by
  cases h with
  | cons _ h => exact h.subset (List.mem_cons_of_mem _ (List.mem_singleton_self m))
  | cons_cons _ h => exact h.subset (List.mem_singleton_self _)

theorem Respects.of_cons {m : β} {M : List β} (hnd : (m :: M).Nodup)
    (h : Respects prec (m :: M)) : Respects prec M := by
  intro a ha b hb hab
  have ham : a ≠ m := fun e => (List.nodup_cons.1 hnd).1 (e ▸ ha)
  cases h a (List.mem_cons_of_mem _ ha) b (List.mem_cons_of_mem _ hb) hab with
  | cons _ h => exact h
  | cons_cons _ _ => exact absurd rfl ham

/-- The first element of a respecting order has no predecessor, so its key is at most the greedy
choice's, and an equal key means the same element. -/
theorem Greedy.map_key_le {R : List β} (hg : Greedy prec key R) :
    R.Nodup → (∀ a ∈ R, ∀ b ∈ R, key a = key b → a = b) →
      ∀ M : List β, M.Perm R → Respects prec M → ¬R.map key < M.map key := by
  induction hg with
  | nil =>
    intro _ _ M hM _
    rw [List.perm_nil.1 hM]
    exact List.le_refl _
  | @cons c rest _ hmax _ ih =>
    intro hnd hinj M hM hresp
    cases M with
    | nil => exact absurd hM.symm.length_eq (by simp)
    | cons m M' =>
      have hndM : (m :: M').Nodup := hM.nodup_iff.2 hnd
      have hmR : m ∈ c :: rest := hM.subset (List.mem_cons_self ..)
      -- the first element of `M` has nothing before it, so the greedy choice beats it
      have hfree : ∀ a ∈ c :: rest, ¬prec a m := fun a ha hp =>
        (List.nodup_cons.1 hndM).1
          (mem_of_pair_sublist_cons (hresp a (hM.symm.subset ha) m (List.mem_cons_self ..) hp))
      have hle : key m ≤ key c := by
        rcases List.mem_cons.1 hmR with rfl | hm
        · exact Nat.le_refl _
        · exact hmax m hm hfree
      rcases Nat.lt_or_eq_of_le hle with hlt | heq
      · exact List.cons_le_cons_iff.2 (.inl hlt)
      · have hmc : m = c := hinj m hmR c (List.mem_cons_self ..) heq
        subst hmc
        refine List.cons_le_cons_iff.2 (.inr ⟨rfl, ?_⟩)
        exact ih (List.nodup_cons.1 hnd).2
          (fun a ha b hb => hinj a (List.mem_cons_of_mem _ ha) b (List.mem_cons_of_mem _ hb))
          M' ((List.perm_cons m).1 hM) (hresp.of_cons hndM)

theorem Greedy.map {γ : Type} {prec' : γ → γ → Prop} {key' : γ → Nat} (f : β → γ) {R : List β}
    (hg : Greedy prec key R) :
    (∀ a ∈ R, ∀ b ∈ R, prec' (f a) (f b) ↔ prec a b) → (∀ a ∈ R, key' (f a) = key a) →
      Greedy prec' key' (R.map f) := by
  induction hg with
  | nil => exact fun _ _ => .nil
  | @cons c rest hc hmax _ ih =>
    intro hp hk
    rw [List.map_cons]
    refine .cons (fun a' ha' hpa => ?_) (fun d' hd' hfree => ?_) (ih
      (fun a ha b hb => hp a (List.mem_cons_of_mem _ ha) b (List.mem_cons_of_mem _ hb))
      (fun a ha => hk a (List.mem_cons_of_mem _ ha)))
    · rw [← List.map_cons] at ha'
      obtain ⟨a, ha, rfl⟩ := List.mem_map.1 ha'
      exact hc a ha ((hp a ha c (List.mem_cons_self ..)).1 hpa)
    · obtain ⟨d, hd, rfl⟩ := List.mem_map.1 hd'
      rw [hk d (List.mem_cons_of_mem _ hd), hk c (List.mem_cons_self ..)]
      refine hmax d hd fun a ha hpa => hfree (f a) ?_ ?_
      · rw [← List.map_cons]; exact List.mem_map_of_mem ha
      · exact (hp a ha d (List.mem_cons_of_mem _ hd)).2 hpa

theorem greedy_of_pairwise_gt : ∀ {R : List Nat}, R.Pairwise (· > ·) →
    Greedy (fun _ _ => False) id R
  | [], _ => .nil
  | _ :: _, h => .cons (fun _ _ hp => hp)
      (fun _ hd _ => Nat.le_of_lt (List.rel_of_pairwise_cons h hd))
      (greedy_of_pairwise_gt h.of_cons)

theorem not_lt_perm_of_pairwise_gt {L R : List Nat} (hR : R.Pairwise (· > ·)) (h : L.Perm R) :
    ¬R < L := by
  have hle := (greedy_of_pairwise_gt hR).map_key_le
    (List.nodup_iff_pairwise_ne.2 (hR.imp Nat.ne_of_gt))
    (fun _ _ _ _ hab => hab) L h (fun _ _ _ _ hp => hp.elim)
  simpa using hle

end Greedy

section Placement

variable {k : Nat} {succs : List (List Nat)} (priority : Nat → Nat)

theorem le_pickLatest : ∀ {l : List Nat} {c : Nat}, pickLatest priority l = some c →
    ∀ d ∈ l, priority d ≤ priority c
  | [], _, h => by simp [pickLatest] at h
  | e :: es, c, h => by
    unfold pickLatest at h
    split at h
    · rename_i e' he'
      have hes := le_pickLatest he'
      split at h
      · rename_i hge
        cases h
        intro d hd
        rcases List.mem_cons.1 hd with rfl | hd
        · exact Nat.le_refl _
        · exact Nat.le_trans (hes d hd) hge
      · rename_i hlt
        cases h
        intro d hd
        rcases List.mem_cons.1 hd with rfl | hd
        · exact Nat.le_of_lt (Nat.lt_of_not_le hlt)
        · exact hes d hd
    · rename_i hnone
      cases h
      have hes : es = [] := by
        cases es with
        | nil => rfl
        | cons e' es' => exact absurd hnone (pickLatest_cons_ne_none priority e' es')
      subst hes
      simp

theorem placementOrder_of_none {fuel : Nat} {ready indeg : List Nat}
    (h : pickLatest priority ready = none) :
    placementOrder succs priority (fuel + 1) ready indeg = [] := by
  simp only [placementOrder, h]

theorem placementOrder_of_pick {fuel : Nat} {ready indeg : List Nat} {c : Nat}
    (h : pickLatest priority ready = some c) :
    placementOrder succs priority (fuel + 1) ready indeg =
      c :: placementOrder succs priority fuel (release succs c (ready.erase c) indeg).1
        (release succs c (ready.erase c) indeg).2 := by
  simp only [placementOrder, h]

theorem Kahn.placed_length_le {placed ready indeg : List Nat}
    (h : Kahn k succs placed ready indeg) : placed.length ≤ k := by
  simpa using h.placed_nodup.length_le_of_subset fun c hc => List.mem_range.2 (h.placed_lt c hc)

/-- Any other component without unplaced predecessors is ready too, so it has lower priority. -/
theorem placementOrder_greedy (hd : Dag k succs) :
    ∀ (fuel : Nat) (placed ready indeg : List Nat), Kahn k succs placed ready indeg →
      k < fuel + placed.length →
      Greedy (fun a c => c ∈ succs.getD a []) priority
        (placementOrder succs priority fuel ready indeg)
  | 0, _, _, _, h, hfuel => by have := h.placed_length_le; omega
  | fuel + 1, placed, ready, indeg, h, hfuel => by
    have hperm := (placementOrder_spec hd priority (fuel + 1) placed ready indeg h hfuel).1
    cases hpick : pickLatest priority ready with
    | none => rw [placementOrder_of_none priority hpick]; exact .nil
    | some c =>
      rw [placementOrder_of_pick priority hpick] at hperm ⊢
      have hc := mem_of_pickLatest priority hpick
      have hnd := (List.nodup_append.1 (hperm.nodup_iff.2 List.nodup_range)).2.2
      have hunplaced : ∀ a < k, a ∉ placed → a ∈ c :: placementOrder succs priority fuel
          (release succs c (ready.erase c) indeg).1 (release succs c (ready.erase c) indeg).2 := by
        intro a ha hap
        rcases List.mem_append.1 (hperm.symm.subset (List.mem_range.2 ha)) with h' | h'
        · exact absurd h' hap
        · exact h'
      refine .cons (fun a ha hac => h.not_succ_of_ready hd hc (fun hap => hnd a hap a ha rfl) hac)
        (fun d hd' hfree => ?_)
        (placementOrder_greedy hd fuel _ _ _ (h.step hd hc) (by simp; omega))
      -- a component with no unplaced predecessor is ready, so its priority is at most `c`'s
      have hdc : d ∈ c :: _ := List.mem_cons_of_mem _ hd'
      have hdk : d < k := List.mem_range.1 (hperm.subset (List.mem_append_right _ hdc))
      have hdp : d ∉ placed := fun hdp => hnd d hdp d hdc rfl
      have hd0 : indeg.getD d 0 = 0 := by
        rw [h.indeg d hdk hdp, List.countP_eq_zero]
        intro a ha hp
        simp only [decide_eq_true_eq] at hp
        exact hfree a (hunplaced a (List.mem_range.1 ha) hp.1) hp.2
      exact le_pickLatest priority hpick d ((h.ready_iff d).2 ⟨hdk, hdp, hd0⟩)

end Placement

/-- The priority of a component in `orderMembers`, `0` for none. -/
def largest (xs : List Nat) : Nat := xs.foldl max 0

theorem foldl_max_bounds : ∀ (a : Nat) (xs : List Nat),
    (a ≤ xs.foldl max a ∧ ∀ x ∈ xs, x ≤ xs.foldl max a) ∧ (xs.foldl max a = a ∨ xs.foldl max a ∈ xs)
  | a, [] => by simp
  | a, x :: xs => by
    obtain ⟨⟨hle, hall⟩, hmem⟩ := foldl_max_bounds (max a x) xs
    refine ⟨⟨Nat.le_trans (Nat.le_max_left a x) hle, fun y hy => ?_⟩, ?_⟩
    · rcases List.mem_cons.1 hy with rfl | hy
      · exact Nat.le_trans (Nat.le_max_right a y) hle
      · exact hall y hy
    · rw [List.foldl_cons]
      rcases hmem with heq | hin
      · rw [heq]
        rcases Nat.le_total a x with hax | hxa
        · exact .inr (by rw [Nat.max_eq_right hax]; exact List.mem_cons_self ..)
        · exact .inl (Nat.max_eq_left hxa)
      · exact .inr (List.mem_cons_of_mem _ hin)

theorem largest_mem {xs : List Nat} (h : xs ≠ []) : largest xs ∈ xs := by
  obtain ⟨⟨-, hall⟩, hmem⟩ := foldl_max_bounds 0 xs
  rcases hmem with h0 | hin
  · -- every id is at most `0`, so `0` is one of them
    obtain ⟨x, hx⟩ := List.exists_mem_of_ne_nil xs h
    have hx0 : x = 0 := Nat.eq_zero_of_le_zero (h0 ▸ hall x hx)
    unfold largest
    rw [h0, ← hx0]
    exact hx
  · exact hin

@[simp] theorem largest_singleton (x : Nat) : largest [x] = x := by simp [largest]

def Graph.BlockEdge (g : Graph) (members : List Nat) (tiers : TierSet) (xs ys : List Nat) : Prop :=
  xs ≠ ys ∧ ∃ x ∈ xs, ∃ y ∈ ys, g.Within members tiers x y

section Round

variable {g : Graph} {members : List Nat} {tiers : TierSet}

theorem componentIds_ne_nil (hnd : members.Nodup) {c : Nat}
    (hc : c < (tarjan (g.localAdjacency members tiers)).length) :
    componentIds members (tarjan (g.localAdjacency members tiers)) c ≠ [] := by
  have hadj := inRange_localAdjacency tiers g hnd
  have hne : (tarjan (g.localAdjacency members tiers)).getD c [] ≠ [] := by
    rw [List.getD_eq_getElem _ _ hc]
    exact tarjan_ne_nil hadj (List.getElem_mem hc)
  intro h
  have hlen := (List.mergeSort_perm (((tarjan (g.localAdjacency members tiers)).getD c []).map
    (members.getD · 0)) (fun a b => decide (a ≤ b))).length_eq
  rw [componentIds] at h
  rw [h, List.length_nil, List.length_map] at hlen
  exact hne (List.eq_nil_of_length_eq_zero hlen.symm)

theorem eq_of_mem_componentIds (hnd : members.Nodup) {a c x : Nat}
    (ha : x ∈ componentIds members (tarjan (g.localAdjacency members tiers)) a)
    (hc : x ∈ componentIds members (tarjan (g.localAdjacency members tiers)) c) : a = c := by
  have hadj := inRange_localAdjacency tiers g hnd
  have hlen : (g.localAdjacency members tiers).length = members.length :=
    length_localAdjacency tiers g
  obtain ⟨i, hi, rfl⟩ := mem_componentIds.1 ha
  obtain ⟨j, hj, hji⟩ := mem_componentIds.1 hc
  have hij : j = i := getD_injective hnd (hlen ▸ lt_of_mem_tarjan hadj hj)
    (hlen ▸ lt_of_mem_tarjan hadj hi) hji
  subst hij
  rw [← componentOf_of_mem hadj hi, ← componentOf_of_mem hadj hj]

theorem componentIds_inj (hnd : members.Nodup) {a c : Nat}
    (ha : a < (tarjan (g.localAdjacency members tiers)).length)
    (h : componentIds members (tarjan (g.localAdjacency members tiers)) a =
      componentIds members (tarjan (g.localAdjacency members tiers)) c) : a = c := by
  obtain ⟨x, hx⟩ := List.exists_mem_of_ne_nil _ (componentIds_ne_nil hnd ha)
  exact eq_of_mem_componentIds hnd hx (h ▸ hx)

theorem blockEdge_componentIds_iff (hnd : members.Nodup) {succs : List (List Nat)}
    {indeg : List Nat}
    (hcd : condense (g.localAdjacency members tiers) (tarjan (g.localAdjacency members tiers)) =
      (succs, indeg)) {a c : Nat} (ha : a < (tarjan (g.localAdjacency members tiers)).length) :
    g.BlockEdge members tiers (componentIds members (tarjan (g.localAdjacency members tiers)) a)
        (componentIds members (tarjan (g.localAdjacency members tiers)) c) ↔
      c ∈ succs.getD a [] := by
  have hadj := inRange_localAdjacency tiers g hnd
  have hlen : (g.localAdjacency members tiers).length = members.length :=
    length_localAdjacency tiers g
  have hmem := (condense_spec hadj (tarjan_perm hadj)).2
  rw [hcd] at hmem
  rw [hmem]
  constructor
  · rintro ⟨hne, x, hx, y, hy, hxy⟩
    obtain ⟨i, hi, rfl⟩ := mem_componentIds.1 hx
    obtain ⟨j, hj, rfl⟩ := mem_componentIds.1 hy
    have hil := hlen ▸ lt_of_mem_tarjan hadj hi
    have hjl := hlen ▸ lt_of_mem_tarjan hadj hj
    exact ⟨fun hac => hne (hac ▸ rfl), i, j, (succ_localAdjacency_iff hnd i j).2 ⟨hil, hjl, hxy⟩,
      componentOf_of_mem hadj hi, componentOf_of_mem hadj hj⟩
  · rintro ⟨hac, v, w, hvw, rfl, rfl⟩
    obtain ⟨hvl, hwl, hW⟩ := (succ_localAdjacency_iff hnd v w).1 hvw
    exact ⟨fun heq => hac (componentIds_inj hnd ha heq), _,
      mem_componentIds.2 ⟨v, (mem_componentOf hadj (hlen ▸ hvl)).2, rfl⟩, _,
      mem_componentIds.2 ⟨w, (mem_componentOf hadj (hlen ▸ hwl)).2, rfl⟩, hW⟩

theorem orderMembers_eq_placement (g : Graph) (members : List Nat) (tiers : TierSet)
    {succs : List (List Nat)} {indeg : List Nat}
    (hcd : condense (g.localAdjacency members tiers) (tarjan (g.localAdjacency members tiers)) =
      (succs, indeg)) :
    g.orderMembers members tiers =
      ((placementOrder succs
          (fun c => largest (componentIds members (tarjan (g.localAdjacency members tiers)) c))
          ((tarjan (g.localAdjacency members tiers)).length + 1)
          ((List.range (tarjan (g.localAdjacency members tiers)).length).filter
            fun c => indeg.getD c 0 = 0) indeg).map
        (componentIds members (tarjan (g.localAdjacency members tiers)))).flatMap
        (g.placeBlock tiers) := by
  rw [Graph.orderMembers]
  dsimp only
  rw [hcd, List.flatMap_map]
  rfl

/-- Every round places the components of its subgraph as contiguous blocks, in the
lexicographically greatest topological order of the condensation by largest id. -/
theorem orderMembers_greatest (g : Graph) (tiers : TierSet) {members : List Nat}
    (hnd : members.Nodup) :
    ∃ blocks, g.Blocks members tiers blocks ∧ (∀ X ∈ blocks, X ≠ []) ∧
      g.orderMembers members tiers = blocks.flatMap (g.placeBlock tiers) ∧
      (∀ X ∈ blocks, (g.placeBlock tiers X).Perm X) ∧
      Respects (g.BlockEdge members tiers) blocks ∧
      ∀ P : List (List Nat), P.Perm blocks → Respects (g.BlockEdge members tiers) P →
        ¬blocks.map largest < P.map largest := by
  have hadj := inRange_localAdjacency tiers g hnd
  cases hcd : condense (g.localAdjacency members tiers) (tarjan (g.localAdjacency members tiers)) with
  | mk succs indeg =>
    have hdag := dag_condense hadj
    have htally := (condense_spec hadj (tarjan_perm hadj)).1
    rw [hcd] at hdag htally
    obtain ⟨hP, hfw⟩ := placementOrder_condense hadj hcd
      (fun c => largest (componentIds members (tarjan (g.localAdjacency members tiers)) c))
    have hgreedy := placementOrder_greedy
      (fun c => largest (componentIds members (tarjan (g.localAdjacency members tiers)) c)) hdag
      ((tarjan (g.localAdjacency members tiers)).length + 1) [] _ indeg (kahn_init htally)
      (by simp)
    set f := componentIds members (tarjan (g.localAdjacency members tiers))
    set R := placementOrder succs (fun c => largest (f c))
      ((tarjan (g.localAdjacency members tiers)).length + 1)
      ((List.range (tarjan (g.localAdjacency members tiers)).length).filter
        fun c => indeg.getD c 0 = 0) indeg
    have hRk : ∀ a ∈ R, a < (tarjan (g.localAdjacency members tiers)).length :=
      fun a ha => List.mem_range.1 (hP.subset ha)
    have hedge : ∀ a ∈ R, ∀ c ∈ R, g.BlockEdge members tiers (f a) (f c) ↔ c ∈ succs.getD a [] :=
      fun a ha _ _ => blockEdge_componentIds_iff hnd hcd (hRk a ha)
    have hne : ∀ X ∈ R.map f, X ≠ [] := by
      intro X hX
      obtain ⟨c, hc, rfl⟩ := List.mem_map.1 hX
      exact componentIds_ne_nil hnd (hRk c hc)
    refine ⟨R.map f, blocks_of_placement hnd hcd hP hfw, hne,
      orderMembers_eq_placement g members tiers hcd,
      fun X hX => placeBlock_perm g (fun r _ xs hxs => orderMembers_perm g r xs hxs)
        (List.Pairwise.imp Nat.ne_of_lt ((blocks_of_placement hnd hcd hP hfw).sorted X hX)),
      fun X hX Y hY hXY => ?_, fun P hPerm hresp => ?_⟩
    · obtain ⟨a, ha, rfl⟩ := List.mem_map.1 hX
      obtain ⟨c, hc, rfl⟩ := List.mem_map.1 hY
      exact (hfw a c ((hedge a ha c hc).1 hXY)).map f
    · have hRnd : R.Nodup := hP.nodup_iff.2 List.nodup_range
      have hinj : ∀ a ∈ R, ∀ c ∈ R, f a = f c → a = c :=
        fun a ha _ _ h => componentIds_inj hnd (hRk a ha) h
      have hlargest : ∀ X ∈ R.map f, ∀ Y ∈ R.map f, largest X = largest Y → X = Y := by
        intro X hX Y hY hXY
        obtain ⟨a, -, rfl⟩ := List.mem_map.1 hX
        obtain ⟨c, -, rfl⟩ := List.mem_map.1 hY
        have hY' := largest_mem (hne _ hY)
        rw [← hXY] at hY'
        rw [eq_of_mem_componentIds hnd (largest_mem (hne _ hX)) hY']
      exact (hgreedy.map f hedge fun _ _ => rfl).map_key_le (hRnd.map_on hinj) hlargest P hPerm
        hresp

end Round

def Graph.Topological (g : Graph) (order : List Nat) : Prop :=
  List.Perm order (List.range g.size) ∧ ∀ a b, g.Link TierSet.full a b → List.Sublist [a, b] order

section Acyclic

variable {g : Graph} {members : List Nat} {tiers : TierSet} {blocks : List (List Nat)}

theorem Graph.Blocks.singleton_of_acyclic (hb : g.Blocks members tiers blocks)
    (hacyc : ∀ a, ¬TransGen (g.Within members tiers) a a) {X : List Nat} (hX : X ∈ blocks)
    (hne : X ≠ []) : ∃ x, X = [x] := by
  obtain ⟨x, X', rfl⟩ := List.exists_cons_of_ne_nil hne
  cases X' with
  | nil => exact ⟨x, rfl⟩
  | cons y X'' =>
    exfalso
    have hxy : x < y := List.rel_of_pairwise_cons (hb.sorted _ hX) (List.mem_cons_self ..)
    have hm : Mutual (g.Within members tiers) x y :=
      (hb.same _ hX x (List.mem_cons_self ..) y (hb.mem_members hX (by simp))).1 (by simp)
    -- the way from `x` to `y` and back is a cycle
    rcases reflTransGen_iff_eq_or_transGen.1 hm.1 with h | h
    · omega
    · exact hacyc x (h.trans_left hm.2)

theorem flatMap_placeBlock_of_singletons :
    ∀ {blocks : List (List Nat)}, (∀ X ∈ blocks, ∃ x, X = [x]) →
      blocks.flatMap (g.placeBlock tiers) = blocks.map largest
  | [], _ => rfl
  | X :: Xs, h => by
    obtain ⟨x, rfl⟩ := h X (List.mem_cons_self ..)
    rw [List.flatMap_cons, List.map_cons,
      flatMap_placeBlock_of_singletons fun Y hY => h Y (List.mem_cons_of_mem _ hY),
      largest_singleton]
    rfl

end Acyclic

theorem link_lt_size (b : Batch) {T : TierSet} {x y : Nat} (h : (Graph.build b).Link T x y) :
    x < b.size ∧ y < b.size := by
  obtain ⟨e, he, rfl, rfl, -⟩ := h
  exact ⟨(build_edges b e he).1, (build_edges b e he).2.1⟩

theorem initOrder_greatest_of_acyclic (b : Batch)
    (hacyc : ∀ a, ¬TransGen ((Graph.build b).Link TierSet.full) a a) :
    (Graph.build b).Topological (Graph.build b).initOrder ∧
      ∀ order, (Graph.build b).Topological order → ¬(Graph.build b).initOrder < order := by
  obtain ⟨blocks, hb, hne, heq, -, -, hgreat⟩ :=
    orderMembers_greatest (Graph.build b) TierSet.full (List.nodup_range (n := b.size))
  have hacyc' : ∀ a, ¬TransGen ((Graph.build b).Within (List.range b.size) TierSet.full) a a :=
    fun a h => hacyc a (TransGen.mono (fun _ _ hw => hw.2.2) a a h)
  have hsingle : ∀ X ∈ blocks, ∃ x, X = [x] :=
    fun X hX => hb.singleton_of_acyclic hacyc' hX (hne X hX)
  have horder : (Graph.build b).initOrder = blocks.map largest := by
    rw [Graph.initOrder, ← flatMap_placeBlock_of_singletons hsingle]
    exact heq
  have hperm : List.Perm (Graph.build b).initOrder (List.range b.size) :=
    orderMembers_perm (Graph.build b) TierSet.full _ List.nodup_range
  have hblocks : blocks = (Graph.build b).initOrder.map fun x => [x] := by
    rw [horder, List.map_map]
    conv_lhs => rw [← List.map_id blocks]
    refine List.map_congr_left fun X hX => ?_
    obtain ⟨x, rfl⟩ := hsingle X hX
    simp
  refine ⟨⟨hperm, fun x y hxy => ?_⟩, fun order horder' => ?_⟩
  · -- the two ends of an edge are different components, placed in edge order
    have hW : (Graph.build b).Within (List.range b.size) TierSet.full x y :=
      ⟨List.mem_range.2 (link_lt_size b hxy).1, List.mem_range.2 (link_lt_size b hxy).2, hxy⟩
    have hnm : ¬Mutual ((Graph.build b).Within (List.range b.size) TierSet.full) x y :=
      fun hm => hacyc' _ (TransGen.head' hW hm.2)
    obtain ⟨xs, ys, hsub, hx, hy⟩ := hb.forward _ _ hW hnm
    obtain ⟨x', rfl⟩ := hsingle xs (hsub.subset (List.mem_cons_self ..))
    obtain ⟨y', rfl⟩ := hsingle ys (hsub.subset (by simp))
    rw [List.mem_singleton] at hx hy
    subst hx hy
    rw [horder]
    simpa using hsub.map largest
  · -- the order, read as a list of one-declaration blocks, is a topological order of them
    obtain ⟨hoperm, hofw⟩ := horder'
    have hP : (order.map fun x => [x]).Perm blocks := by
      rw [hblocks]
      exact (hoperm.trans hperm.symm).map _
    have hresp : Respects ((Graph.build b).BlockEdge (List.range b.size) TierSet.full)
        (order.map fun x => [x]) := by
      intro X hX Y hY hXY
      obtain ⟨a, -, rfl⟩ := List.mem_map.1 hX
      obtain ⟨c, -, rfl⟩ := List.mem_map.1 hY
      obtain ⟨-, a', ha', c', hc', hW⟩ := hXY
      rw [List.mem_singleton] at ha' hc'
      subst ha' hc'
      simpa using (hofw _ _ hW.2.2).map fun x => [x]
    have hle := hgreat _ hP hresp
    rw [List.map_map, ← horder, show (largest ∘ fun x : Nat => [x]) = id from funext largest_singleton,
      List.map_id] at hle
    exact hle

theorem initOrder_of_edges_nil (b : Batch) (h : (Graph.build b).edges = []) :
    (Graph.build b).initOrder = (List.range b.size).reverse := by
  have hno : ∀ x y, ¬(Graph.build b).Link TierSet.full x y := by
    rintro x y ⟨e, he, -⟩
    rw [h] at he
    cases he
  have hacyc : ∀ a, ¬TransGen ((Graph.build b).Link TierSet.full) a a := fun a ha => by
    obtain ⟨c, hac, -⟩ := TransGen.head'_iff.1 ha
    exact hno _ _ hac
  obtain ⟨⟨hperm, -⟩, hgreat⟩ := initOrder_greatest_of_acyclic b hacyc
  have hdesc : (List.range b.size).reverse.Pairwise (· > ·) :=
    List.pairwise_reverse.2 List.pairwise_lt_range
  exact List.le_antisymm (not_lt_perm_of_pairwise_gt hdesc (hperm.trans (List.reverse_perm _).symm))
    (hgreat _ ⟨List.reverse_perm _, fun x y hxy => absurd hxy (hno x y)⟩)

/-- The greatest order allowed, lexicographically: without cycles the greatest topological order of
the reference graph, without edges the declarations latest first. -/
theorem initOrder_lex_greatest (b : Batch) :
    ((∀ a, ¬TransGen ((Graph.build b).Link TierSet.full) a a) →
      (Graph.build b).Topological (Graph.build b).initOrder ∧
        ∀ order, (Graph.build b).Topological order → ¬(Graph.build b).initOrder < order) ∧
    ((Graph.build b).edges = [] → (Graph.build b).initOrder = (List.range b.size).reverse) ∧
    ∀ (members : List Nat) (tiers : TierSet), members.Nodup →
      ∃ blocks, (Graph.build b).Blocks members tiers blocks ∧ (∀ X ∈ blocks, X ≠ []) ∧
        (Graph.build b).orderMembers members tiers =
          blocks.flatMap ((Graph.build b).placeBlock tiers) ∧
        (∀ X ∈ blocks, ((Graph.build b).placeBlock tiers X).Perm X) ∧
        Respects ((Graph.build b).BlockEdge members tiers) blocks ∧
        ∀ P : List (List Nat), P.Perm blocks →
          Respects ((Graph.build b).BlockEdge members tiers) P →
            ¬blocks.map largest < P.map largest :=
  ⟨initOrder_greatest_of_acyclic b, initOrder_of_edges_nil b,
    fun _ tiers hnd => orderMembers_greatest (Graph.build b) tiers hnd⟩

def sampleBackRef : Batch := ⟨[refClass [], refClass [0]]⟩

def sampleFree : Batch := ⟨[refClass [], refClass [], refClass []]⟩

theorem initOrder_lex_greatest_samples :
    (∀ a, ¬TransGen ((Graph.build sampleBackRef).Link TierSet.full) a a) ∧
      (Graph.build sampleBackRef).Topological (Graph.build sampleBackRef).initOrder ∧
      (∀ order, (Graph.build sampleBackRef).Topological order →
        ¬(Graph.build sampleBackRef).initOrder < order) ∧
    (Graph.build sampleFree).edges = [] ∧ (Graph.build sampleFree).initOrder = [2, 1, 0] := by
  have hedges : (Graph.build sampleBackRef).edges =
      [⟨1, 0, TierSet.empty.insert .constructor⟩] := by decide
  have hnil : (Graph.build sampleFree).edges = [] := by decide
  have hacyc : ∀ a, ¬TransGen ((Graph.build sampleBackRef).Link TierSet.full) a a := by
    intro a h
    obtain ⟨c, ⟨e, he, hs, hd, -⟩, hca⟩ := TransGen.head'_iff.1 h
    rw [hedges, List.mem_singleton] at he
    subst he hs hd
    rcases ReflTransGen.cases_head hca with h | ⟨d, ⟨e, he, hs, -, -⟩, -⟩
    · cases h
    · rw [hedges, List.mem_singleton] at he
      subst he
      cases hs
  obtain ⟨hgreat, -, -⟩ := initOrder_lex_greatest sampleBackRef
  obtain ⟨-, hfree, -⟩ := initOrder_lex_greatest sampleFree
  exact ⟨hacyc, (hgreat hacyc).1, (hgreat hacyc).2, hnil, by rw [hfree hnil]; rfl⟩

end ProtoLayout.Schedule
