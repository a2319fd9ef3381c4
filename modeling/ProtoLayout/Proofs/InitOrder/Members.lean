import ProtoLayout.Proofs.InitOrder.Placement
import Mathlib.Data.List.Sort
import Mathlib.Data.List.Perm.Basic

/-!
One round of `orderMembers`: components of the subgraph, placed so every edge between them goes
forward, each placed alone or ordered again by `orderCycle`.
-/

namespace ProtoLayout.Schedule

open Relation

def Mutual {α : Type} (r : α → α → Prop) (a b : α) : Prop :=
  ReflTransGen r a b ∧ ReflTransGen r b a

def Graph.Within (g : Graph) (members : List Nat) (tiers : TierSet) (a b : Nat) : Prop :=
  a ∈ members ∧ b ∈ members ∧ g.Link tiers a b

def Graph.placeBlock (g : Graph) (tiers : TierSet) : List Nat → List Nat
  | [x] => [x]
  | xs => g.orderCycle xs tiers

/-- The components of the subgraph on `members`, each ascending, listed so that every edge between
two of them goes forward. -/
structure Graph.Blocks (g : Graph) (members : List Nat) (tiers : TierSet)
    (blocks : List (List Nat)) : Prop where
  perm : List.Perm blocks.flatten members
  sorted : ∀ xs ∈ blocks, xs.Pairwise (· < ·)
  same : ∀ xs ∈ blocks, ∀ x ∈ xs, ∀ y ∈ members, y ∈ xs ↔ Mutual (g.Within members tiers) x y
  forward : ∀ x y, g.Within members tiers x y → ¬Mutual (g.Within members tiers) x y →
    ∃ xs ys, List.Sublist [xs, ys] blocks ∧ x ∈ xs ∧ y ∈ ys

theorem map_getD_range {α : Type} (l : List α) (d : α) :
    (List.range l.length).map (l.getD · d) = l := by
  apply List.ext_getElem (by simp)
  intro i _ h
  simp [List.getElem?_eq_getElem h]

section Local

variable {g : Graph} {members : List Nat} {tiers : TierSet}

theorem getD_injective (hnd : members.Nodup) {i j : Nat} (hi : i < members.length)
    (hj : j < members.length) (h : members.getD i 0 = members.getD j 0) : i = j := by
  rw [List.getD_eq_getElem _ _ hi, List.getD_eq_getElem _ _ hj] at h
  exact (hnd.getElem_inj_iff).1 h

theorem exists_getD_of_mem {x : Nat} (hx : x ∈ members) :
    ∃ i < members.length, members.getD i 0 = x := by
  obtain ⟨i, hi, rfl⟩ := List.getElem_of_mem hx
  exact ⟨i, hi, List.getD_eq_getElem _ _ hi⟩

theorem succ_localAdjacency_iff (hnd : members.Nodup) (i j : Nat) :
    Succ (g.localAdjacency members tiers) i j ↔ i < members.length ∧ j < members.length ∧
      g.Within members tiers (members.getD i 0) (members.getD j 0) := by
  rw [succ_localAdjacency tiers g hnd]
  constructor
  · rintro ⟨hi, hj, hl⟩
    rw [List.getD_eq_getElem _ _ hi, List.getD_eq_getElem _ _ hj]
    exact ⟨hi, hj, List.getElem_mem hi, List.getElem_mem hj, hl⟩
  · rintro ⟨hi, hj, -, -, hl⟩
    rw [List.getD_eq_getElem _ _ hi, List.getD_eq_getElem _ _ hj] at hl
    exact ⟨hi, hj, hl⟩

theorem reach_of_local (hnd : members.Nodup) {i j : Nat}
    (h : ReflTransGen (Succ (g.localAdjacency members tiers)) i j) :
    ReflTransGen (g.Within members tiers) (members.getD i 0) (members.getD j 0) := by
  induction h with
  | refl => exact ReflTransGen.refl
  | tail _ hst ih => exact ih.tail ((succ_localAdjacency_iff hnd _ _).1 hst).2.2

theorem reach_local_iff (hnd : members.Nodup) {i j : Nat} (hi : i < members.length)
    (hj : j < members.length) :
    ReflTransGen (Succ (g.localAdjacency members tiers)) i j ↔
      ReflTransGen (g.Within members tiers) (members.getD i 0) (members.getD j 0) := by
  refine ⟨reach_of_local hnd, ?_⟩
  · -- follow the path of members back to the local index of each node on it
    suffices ∀ y, ReflTransGen (g.Within members tiers) (members.getD i 0) y →
        ∀ j < members.length, members.getD j 0 = y →
          ReflTransGen (Succ (g.localAdjacency members tiers)) i j from
      fun h => this _ h j hj rfl
    intro y h
    induction h with
    | refl =>
      intro j hj hji
      rw [getD_injective hnd hj hi hji]
    | tail _ hyz ih =>
      intro j hj hjz
      obtain ⟨j', hj', rfl⟩ := exists_getD_of_mem hyz.1
      refine (ih j' hj' rfl).tail ((succ_localAdjacency_iff hnd _ _).2 ⟨hj', hj, ?_⟩)
      rw [hjz]
      exact hyz

theorem mutual_local_iff (hnd : members.Nodup) {i j : Nat} (hi : i < members.length)
    (hj : j < members.length) :
    Mutual (Succ (g.localAdjacency members tiers)) i j ↔
      Mutual (g.Within members tiers) (members.getD i 0) (members.getD j 0) := by
  unfold Mutual
  rw [reach_local_iff hnd hi hj, reach_local_iff hnd hj hi]

end Local

section Components

variable {adj : List (List Nat)}

theorem Succ.src_lt {v w : Nat} (h : Succ adj v w) : v < adj.length :=
  Classical.byContradiction fun hv => by
    unfold Succ at h
    rw [List.getD_eq_default _ _ (Nat.le_of_not_lt hv)] at h
    cases h

theorem mem_componentOf (hadj : InRange adj) {v : Nat} (hv : v < adj.length) :
    componentOf (tarjan adj) v < (tarjan adj).length ∧
      v ∈ (tarjan adj).getD (componentOf (tarjan adj) v) [] := by
  obtain ⟨i, c, hi, hvc⟩ := tarjan_mem hadj hv
  rw [componentOf_eq (tarjan_nodup hadj) hi hvc]
  exact ⟨(List.getElem?_eq_some_iff.1 hi).1, by simp [hi, hvc]⟩

theorem componentOf_of_mem (hadj : InRange adj) {a v : Nat}
    (hv : v ∈ (tarjan adj).getD a []) : componentOf (tarjan adj) v = a := by
  have ha : a < (tarjan adj).length := Classical.byContradiction fun ha => by
    rw [List.getD_eq_default _ _ (Nat.le_of_not_lt ha)] at hv
    cases hv
  rw [List.getD_eq_getElem _ _ ha] at hv
  exact componentOf_eq (tarjan_nodup hadj) (List.getElem?_eq_getElem ha) hv

theorem lt_of_mem_tarjan (hadj : InRange adj) {a v : Nat} (hv : v ∈ (tarjan adj).getD a []) :
    v < adj.length := by
  have hm : v ∈ (tarjan adj).flatten := by
    rw [List.getD_eq_getElem?_getD] at hv
    cases h : (tarjan adj)[a]? with
    | none => rw [h] at hv; cases hv
    | some c => rw [h] at hv; exact List.mem_flatten.2 ⟨c, List.mem_of_getElem? h, hv⟩
  exact List.mem_range.1 ((tarjan_perm hadj).mem_iff.1 hm)

theorem mem_tarjan_iff (hadj : InRange adj) {a v w : Nat} (hv : v ∈ (tarjan adj).getD a []) :
    w ∈ (tarjan adj).getD a [] ↔ Mutual (Succ adj) v w := by
  have hva := componentOf_of_mem hadj hv
  rw [Mutual, ← tarjan_same_iff hadj (lt_of_mem_tarjan hadj hv)]
  constructor
  · intro hwa
    obtain ⟨hal, -⟩ := mem_componentOf hadj (lt_of_mem_tarjan hadj hv)
    rw [hva] at hal
    rw [List.getD_eq_getElem _ _ hal] at hv hwa
    exact ⟨_, List.getElem_mem hal, hv, hwa⟩
  · rintro ⟨c, hc, hvc, hwc⟩
    obtain ⟨i, hi⟩ := List.getElem?_of_mem hc
    have hvi := componentOf_eq (tarjan_nodup hadj) hi hvc
    rw [hva] at hvi
    subst hvi
    simpa [hi] using hwc

/-- Its edges lead to components listed earlier. -/
theorem dag_condense (hadj : InRange adj) :
    Dag (tarjan adj).length (condense adj (tarjan adj)).1 := by
  obtain ⟨htally, hmem⟩ := condense_spec hadj (tarjan_perm hadj)
  refine ⟨htally.succs_length, htally.nodup, fun a c hac => ?_⟩
  obtain ⟨hne, v, w, hvw, rfl, rfl⟩ := (hmem a c).1 hac
  obtain ⟨hal, hva⟩ := mem_componentOf hadj (Succ.src_lt hvw)
  rw [List.getD_eq_getElem _ _ hal] at hva
  obtain ⟨j, hj, c', hc', hwc'⟩ := tarjan_closed hadj (List.getElem?_eq_getElem hal) hva hvw
  rw [componentOf_eq (tarjan_nodup hadj) hc' hwc']
  exact Nat.lt_of_le_of_ne hj (by rw [← componentOf_eq (tarjan_nodup hadj) hc' hwc']; exact Ne.symm hne)

theorem placementOrder_condense (hadj : InRange adj) {succs : List (List Nat)}
    {indeg : List Nat} (hcd : condense adj (tarjan adj) = (succs, indeg)) (priority : Nat → Nat) :
    List.Perm (placementOrder succs priority ((tarjan adj).length + 1)
        ((List.range (tarjan adj).length).filter fun c => indeg.getD c 0 = 0) indeg)
        (List.range (tarjan adj).length) ∧
      ∀ a c, c ∈ succs.getD a [] → List.Sublist [a, c] (placementOrder succs priority
        ((tarjan adj).length + 1)
        ((List.range (tarjan adj).length).filter fun c => indeg.getD c 0 = 0) indeg) := by
  have hdag := dag_condense hadj
  have htally := (condense_spec hadj (tarjan_perm hadj)).1
  rw [hcd] at hdag htally
  simpa using placementOrder_spec hdag priority _ [] _ _ (kahn_init htally) (by simp)

end Components

section Blocks

variable {g : Graph} {members : List Nat} {tiers : TierSet}

theorem mem_componentIds {comps : List (List Nat)} {c x : Nat} :
    x ∈ componentIds members comps c ↔ ∃ i ∈ comps.getD c [], members.getD i 0 = x := by
  simp [componentIds]

theorem componentIds_sorted (hnd : members.Nodup) {adj : List (List Nat)} (hadj : InRange adj)
    (hlen : adj.length = members.length) (c : Nat) :
    (componentIds members (tarjan adj) c).Pairwise (· < ·) := by
  have hle := @List.pairwise_mergeSort _ (fun a b : Nat => decide (a ≤ b))
    (fun a b c hab hbc => by simp only [decide_eq_true_eq] at *; omega)
    (fun a b => by simp only [Bool.or_eq_true, decide_eq_true_eq]; omega)
    (((tarjan adj).getD c []).map (members.getD · 0))
  have hcnd : ((tarjan adj).getD c []).Nodup := by
    rw [List.getD_eq_getElem?_getD]
    cases h : (tarjan adj)[c]? with
    | none => exact List.nodup_nil
    | some comp => exact (List.nodup_flatten.1 (tarjan_nodup hadj)).1 comp (List.mem_of_getElem? h)
  have hnd' : (componentIds members (tarjan adj) c).Nodup := by
    refine List.nodup_mergeSort.2 (hcnd.map_on fun i hi j hj hij => ?_)
    exact getD_injective hnd (hlen ▸ lt_of_mem_tarjan hadj hi) (hlen ▸ lt_of_mem_tarjan hadj hj) hij
  exact (hle.and (List.nodup_iff_pairwise_ne.1 hnd')).imp fun h =>
    Nat.lt_of_le_of_ne (of_decide_eq_true h.1) h.2

theorem blocks_of_placement (hnd : members.Nodup) {succs : List (List Nat)} {indeg : List Nat}
    (hcd : condense (g.localAdjacency members tiers) (tarjan (g.localAdjacency members tiers)) =
      (succs, indeg))
    {P : List Nat} (hP : List.Perm P (List.range (tarjan (g.localAdjacency members tiers)).length))
    (hfw : ∀ a c, c ∈ succs.getD a [] → List.Sublist [a, c] P) :
    g.Blocks members tiers (P.map (componentIds members (tarjan (g.localAdjacency members tiers)))) := by
  set adj := g.localAdjacency members tiers
  have hadj : InRange adj := inRange_localAdjacency tiers g hnd
  have hlen : adj.length = members.length := length_localAdjacency tiers g
  set comps := tarjan adj
  have hmemc : ∀ {a x}, x ∈ componentIds members comps a →
      ∃ i < members.length, i ∈ comps.getD a [] ∧ members.getD i 0 = x := by
    intro a x hx
    obtain ⟨i, hi, rfl⟩ := mem_componentIds.1 hx
    exact ⟨i, hlen ▸ lt_of_mem_tarjan hadj hi, hi, rfl⟩
  refine ⟨?_, ?_, ?_, ?_⟩
  · -- the placed components hold every local index once, and the members are the images
    have hflat : (List.range comps.length).flatMap (comps.getD · []) = comps.flatten := by
      rw [List.flatMap_def, map_getD_range]
    calc List.Perm (P.map (componentIds members comps)).flatten
          ((List.range comps.length).flatMap fun c => (comps.getD c []).map (members.getD · 0)) := by
          rw [← List.flatMap_def]
          exact hP.flatMap fun c _ => List.mergeSort_perm _ _
      _ = comps.flatten.map (members.getD · 0) := by rw [← hflat, List.map_flatMap]
      List.Perm _ ((List.range members.length).map (members.getD · 0)) := by
          rw [← hlen]; exact (tarjan_perm hadj).map _
      _ = members := map_getD_range members 0
  · intro xs hxs
    obtain ⟨c, -, rfl⟩ := List.mem_map.1 hxs
    exact componentIds_sorted hnd hadj hlen c
  · intro xs hxs x hx y hy
    obtain ⟨c, -, rfl⟩ := List.mem_map.1 hxs
    obtain ⟨i, hi, hic, rfl⟩ := hmemc hx
    obtain ⟨j, hj, rfl⟩ := exists_getD_of_mem hy
    rw [← mutual_local_iff hnd hi hj, ← mem_tarjan_iff hadj hic, mem_componentIds]
    constructor
    · rintro ⟨j', hj', hjj⟩
      rwa [← getD_injective hnd (hlen ▸ lt_of_mem_tarjan hadj hj') hj hjj]
    · exact fun hjc => ⟨j, hjc, rfl⟩
  · intro x y hxy hnm
    obtain ⟨i, hi, rfl⟩ := exists_getD_of_mem hxy.1
    obtain ⟨j, hj, rfl⟩ := exists_getD_of_mem hxy.2.1
    have hij : Succ adj i j := (succ_localAdjacency_iff hnd i j).2 ⟨hi, hj, hxy⟩
    obtain ⟨-, hia⟩ := mem_componentOf hadj (hlen ▸ hi)
    obtain ⟨-, hjc⟩ := mem_componentOf hadj (hlen ▸ hj)
    -- distinct components, since the two ends do not reach each other
    have hne : componentOf comps i ≠ componentOf comps j := by
      intro heq
      rw [heq] at hia
      exact hnm ((mutual_local_iff hnd hi hj).1 ((mem_tarjan_iff hadj hia).1 hjc))
    have hsucc : componentOf comps j ∈ succs.getD (componentOf comps i) [] := by
      have hmem := (condense_spec hadj (tarjan_perm hadj)).2
      rw [hcd] at hmem
      exact (hmem _ _).2 ⟨hne, i, j, hij, rfl, rfl⟩
    exact ⟨_, _, (hfw _ _ hsucc).map _, mem_componentIds.2 ⟨i, hia, rfl⟩,
      mem_componentIds.2 ⟨j, hjc, rfl⟩⟩

theorem orderMembers_blocks (g : Graph) (tiers : TierSet) (hnd : members.Nodup) :
    ∃ blocks, g.Blocks members tiers blocks ∧
      g.orderMembers members tiers = blocks.flatMap (g.placeBlock tiers) := by
  have hadj : InRange (g.localAdjacency members tiers) := inRange_localAdjacency tiers g hnd
  rw [Graph.orderMembers]
  dsimp only
  cases hcd : condense (g.localAdjacency members tiers) (tarjan (g.localAdjacency members tiers)) with
  | mk succs indeg =>
    obtain ⟨hP, hfw⟩ := placementOrder_condense hadj hcd
      (fun c => (componentIds members (tarjan (g.localAdjacency members tiers)) c).foldl max 0)
    refine ⟨_, blocks_of_placement hnd hcd hP hfw, ?_⟩
    rw [List.flatMap_map]
    rfl

end Blocks

theorem placeBlock_perm (g : Graph) {tiers : TierSet}
    (ih : ∀ r : TierSet, r.removable < tiers.removable → ∀ xs : List Nat, xs.Nodup →
      List.Perm (g.orderMembers xs r) xs)
    {xs : List Nat} (hxs : xs.Nodup) : List.Perm (g.placeBlock tiers xs) xs := by
  unfold Graph.placeBlock
  split
  · exact List.Perm.refl _
  · rw [Graph.orderCycle]
    split
    · rename_i r hr
      exact ih r (TierSet.removable_withoutLowest hr) xs hxs
    · exact List.reverse_perm xs

theorem orderMembers_perm (g : Graph) :
    ∀ (tiers : TierSet) (members : List Nat), members.Nodup →
      List.Perm (g.orderMembers members tiers) members := by
  intro tiers
  induction h : tiers.removable using Nat.strong_induction_on generalizing tiers with
  | _ n ih =>
    intro members hnd
    obtain ⟨blocks, hb, heq⟩ := orderMembers_blocks g tiers hnd
    rw [heq]
    refine List.Perm.trans ?_ hb.perm
    rw [← List.flatMap_id]
    refine List.Perm.flatMap (List.Perm.refl _) fun xs hxs => ?_
    exact placeBlock_perm g (fun r hr => ih r.removable (h ▸ hr) r rfl)
      (List.Pairwise.imp Nat.ne_of_lt (hb.sorted xs hxs))

/-- Every declaration exactly once, whatever cycles its references form. -/
theorem initOrder_perm (b : Batch) : List.Perm (Graph.build b).initOrder (List.range b.size) :=
  orderMembers_perm (Graph.build b) TierSet.full (List.range b.size) List.nodup_range

end ProtoLayout.Schedule
