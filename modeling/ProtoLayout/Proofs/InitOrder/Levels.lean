import ProtoLayout.Proofs.InitOrder.Members
import Mathlib.Data.List.Infix
import Mathlib.Data.List.Flatten

/-!
The static-initialiser order tier by tier: an edge goes forward unless a cycle at least as
strong as its strongest tier joins its ends.
-/

namespace ProtoLayout.Schedule

open Relation

def TierSet.highest (s : TierSet) : Option Tier :=
  if s.constructor then some .constructor
  else if s.staticMethod then some .staticMethod
  else if s.instanceMethod then some .instanceMethod
  else if s.staticInit then some .staticInit
  else none

namespace Tier

/-- Constructor highest. -/
def rank : Tier → Nat
  | .constructor => 3
  | .staticMethod => 2
  | .instanceMethod => 1
  | .staticInit => 0

def atLeast : Tier → TierSet
  | .constructor => ⟨true, false, false, false⟩
  | .staticMethod => ⟨true, true, false, false⟩
  | .instanceMethod => ⟨true, true, true, false⟩
  | .staticInit => TierSet.full

def above : Tier → Option Tier
  | .staticInit => some .instanceMethod
  | .instanceMethod => some .staticMethod
  | .staticMethod => some .constructor
  | .constructor => none

theorem rank_above : ∀ {t u : Tier}, t.above = some u → u.rank = t.rank + 1
  | .staticInit, _, h | .instanceMethod, _, h | .staticMethod, _, h => by cases h; rfl
  | .constructor, _, h => by cases h

theorem eq_of_rank_eq : ∀ {t u : Tier}, t.rank = u.rank → t = u := by
  intro t u h
  cases t <;> cases u <;> first | rfl | cases h

theorem above_of_rank_lt : ∀ {t u : Tier}, t.rank < u.rank → ∃ t', t.above = some t'
  | .staticInit, _, _ => ⟨_, rfl⟩
  | .instanceMethod, _, _ => ⟨_, rfl⟩
  | .staticMethod, _, _ => ⟨_, rfl⟩
  | .constructor, u, h => by cases u <;> simp [rank] at h

theorem rank_le_constructor (t : Tier) : t.rank ≤ Tier.constructor.rank := by
  cases t <;> decide

theorem above_eq_none : ∀ {t : Tier}, t.above = none → t = .constructor
  | .constructor, _ => rfl
  | .staticInit, h | .instanceMethod, h | .staticMethod, h => by cases h

theorem withoutLowest_atLeast (t : Tier) : (t.atLeast).withoutLowest = t.above.map atLeast := by
  cases t <;> rfl

theorem meets_atLeast_iff {s : TierSet} {t : Tier} (h : s.highest = some t) (u : Tier) :
    s.meets u.atLeast = true ↔ u.rank ≤ t.rank := by
  revert h
  cases s with
  | mk c sm im si =>
    cases c <;> cases sm <;> cases im <;> cases si <;> cases t <;> cases u <;> decide

theorem meets_atLeast_mono {s : TierSet} {t u : Tier} (h : u.rank ≤ t.rank)
    (hs : s.meets t.atLeast = true) : s.meets u.atLeast = true := by
  revert h hs
  cases s with
  | mk c sm im si =>
    cases c <;> cases sm <;> cases im <;> cases si <;> cases t <;> cases u <;> decide

end Tier

def Graph.SameComponent (g : Graph) (tiers : TierSet) (a b : Nat) : Prop :=
  Mutual (g.Link tiers) a b

section Graph

variable {g : Graph}

theorem Graph.Link.mono {T T' : TierSet} (hT : ∀ s : TierSet, s.meets T = true → s.meets T' = true)
    {a b : Nat} (h : g.Link T a b) : g.Link T' a b := by
  obtain ⟨e, he, hs, hd, hm⟩ := h
  exact ⟨e, he, hs, hd, hT _ hm⟩

theorem Graph.SameComponent.mono {t u : Tier} (h : u.rank ≤ t.rank) {a b : Nat}
    (hab : g.SameComponent t.atLeast a b) : g.SameComponent u.atLeast a b :=
  have hl : ∀ x y, g.Link t.atLeast x y → g.Link u.atLeast x y :=
    fun _ _ => Graph.Link.mono fun _ => Tier.meets_atLeast_mono h
  ⟨ReflTransGen.mono hl _ _ hab.1, ReflTransGen.mono hl _ _ hab.2⟩

variable {members : List Nat} {T : TierSet}

theorem reach_within_of_cycle {x : Nat} (hcl : ∀ z, g.SameComponent T x z → z ∈ members)
    {z : Nat} (hxz : ReflTransGen (g.Link T) x z) :
    ReflTransGen (g.Link T) z x → ReflTransGen (g.Within members T) x z := by
  induction hxz with
  | refl => exact fun _ => ReflTransGen.refl
  | tail hxw hwz ih =>
    intro hzx
    have hwx : ReflTransGen (g.Link T) _ x := ReflTransGen.head hwz hzx
    exact (ih hwx).tail ⟨hcl _ ⟨hxw, hwx⟩, hcl _ ⟨hxw.tail hwz, hzx⟩, hwz⟩

/-- Inside members closed under components, the components of the subgraph are those of the
graph. -/
theorem mutual_within_iff (hclosed : ∀ x ∈ members, ∀ y, g.SameComponent T x y → y ∈ members)
    {x y : Nat} (hx : x ∈ members) :
    Mutual (g.Within members T) x y ↔ g.SameComponent T x y := by
  have hsub : ∀ a b, g.Within members T a b → g.Link T a b := fun _ _ hw => hw.2.2
  constructor
  · exact fun h => ⟨ReflTransGen.mono hsub _ _ h.1, ReflTransGen.mono hsub _ _ h.2⟩
  · intro h
    have hcly : ∀ z, g.SameComponent T y z → z ∈ members := fun z hz =>
      hclosed x hx z ⟨h.1.trans hz.1, hz.2.trans h.2⟩
    exact ⟨reach_within_of_cycle (hclosed x hx) h.1 h.2, reach_within_of_cycle hcly h.2 h.1⟩

end Graph

theorem sublist_flatMap_of_pair {α β : Type} (f : α → List β) {a b : α} {L : List α}
    (h : List.Sublist [a, b] L) {x y : β} (hx : x ∈ f a) (hy : y ∈ f b) :
    List.Sublist [x, y] (L.flatMap f) := by
  have hab : List.Sublist ([x] ++ [y]) (f a ++ f b) :=
    (List.singleton_sublist.2 hx).append (List.singleton_sublist.2 hy)
  have hL := h.flatMap f
  simp only [List.flatMap_cons, List.flatMap_nil, List.append_nil] at hL
  exact hab.trans hL

theorem infix_flatMap {α β : Type} (f : α → List β) {a : α} {L : List α} (h : a ∈ L) :
    List.IsInfix (f a) (L.flatMap f) := by
  rw [List.flatMap_def]
  exact List.infix_of_mem_flatten (List.mem_map_of_mem h)

section Round

variable {g : Graph} {members : List Nat} {T : TierSet} {blocks : List (List Nat)}

theorem Graph.Blocks.mem_members (hb : g.Blocks members T blocks) {xs : List Nat}
    (hxs : xs ∈ blocks) {x : Nat} (hx : x ∈ xs) : x ∈ members :=
  hb.perm.subset (List.mem_flatten.2 ⟨xs, hxs, hx⟩)

theorem Graph.Blocks.exists_block (hb : g.Blocks members T blocks) {x : Nat} (hx : x ∈ members) :
    ∃ xs ∈ blocks, x ∈ xs :=
  List.mem_flatten.1 (hb.perm.symm.subset hx)

theorem Graph.Blocks.mem_iff (hb : g.Blocks members T blocks)
    (hclosed : ∀ x ∈ members, ∀ y, g.SameComponent T x y → y ∈ members) {xs : List Nat}
    (hxs : xs ∈ blocks) {x : Nat} (hx : x ∈ xs) (y : Nat) : y ∈ xs ↔ g.SameComponent T x y := by
  have hxm := hb.mem_members hxs hx
  constructor
  · intro hy
    exact (mutual_within_iff hclosed hxm).1 ((hb.same xs hxs x hx y (hb.mem_members hxs hy)).1 hy)
  · intro hxy
    exact (hb.same xs hxs x hx y (hclosed x hxm y hxy)).2 ((mutual_within_iff hclosed hxm).2 hxy)

theorem placeBlock_of_pair {xs : List Nat} {x y : Nat} (hx : x ∈ xs) (hy : y ∈ xs) (hxy : x ≠ y) :
    g.placeBlock T xs = g.orderCycle xs T := by
  unfold Graph.placeBlock
  split
  · rw [List.mem_singleton] at hx hy
    exact absurd (hx.trans hy.symm) hxy
  · rfl

theorem mem_placeBlock {xs : List Nat} (hxs : xs.Nodup) {x : Nat} :
    x ∈ g.placeBlock T xs ↔ x ∈ xs :=
  (placeBlock_perm g (fun r _ ys hys => orderMembers_perm g r ys hys) hxs).mem_iff

theorem orderCycle_of_above {u u' : Tier} (h : u.above = some u') (xs : List Nat) :
    g.orderCycle xs u.atLeast = g.orderMembers xs u'.atLeast := by
  rw [Graph.orderCycle]
  split
  · rename_i r hr
    rw [Tier.withoutLowest_atLeast, h] at hr
    cases hr
    rfl
  · rename_i hr
    rw [Tier.withoutLowest_atLeast, h] at hr
    cases hr

theorem orderCycle_constructor (xs : List Nat) :
    g.orderCycle xs Tier.constructor.atLeast = xs.reverse := by
  rw [Graph.orderCycle]
  rfl

/-- Distinct, holding the whole component of each member at `u`, and inside one component at every
lower tier. -/
structure Graph.Round (g : Graph) (u : Tier) (members : List Nat) : Prop where
  nodup : members.Nodup
  closed : ∀ x ∈ members, ∀ y, g.SameComponent u.atLeast x y → y ∈ members
  below : ∀ x ∈ members, ∀ y ∈ members, ∀ t : Tier, t.rank < u.rank →
    g.SameComponent t.atLeast x y

/-- An edge between members goes forward unless a cycle at least as strong as its strongest tier
joins its ends; a constructor component stands as one descending block. -/
structure Graph.Ordered (g : Graph) (members order : List Nat) : Prop where
  edges : ∀ e ∈ g.edges, e.src ∈ members → e.dst ∈ members → ∀ t, e.tiers.highest = some t →
    ¬g.SameComponent t.atLeast e.src e.dst → List.Sublist [e.src, e.dst] order
  cycles : ∀ x ∈ members, ∀ y, x ≠ y → g.SameComponent Tier.constructor.atLeast x y →
    ∃ block, List.IsInfix block order ∧ block.Pairwise (· > ·) ∧
      ∀ z, z ∈ block ↔ g.SameComponent Tier.constructor.atLeast x z

variable {u : Tier}

theorem Graph.Round.block (hM : g.Round u members) (hb : g.Blocks members u.atLeast blocks)
    {xs : List Nat} (hxs : xs ∈ blocks) {u' : Tier} (hu : u.above = some u') : g.Round u' xs where
  nodup := (hb.sorted xs hxs).imp Nat.ne_of_lt
  closed z hz y hzy := by
    have hr := Tier.rank_above hu
    exact (hb.mem_iff hM.closed hxs hz y).2 (hzy.mono (by omega))
  below z hz y hy t ht := by
    have hr := Tier.rank_above hu
    exact ((hb.mem_iff hM.closed hxs hz y).1 hy).mono (by omega)

theorem Graph.Round.ordered
    (ih : ∀ u', u.above = some u' → ∀ xs, g.Round u' xs → g.Ordered xs (g.orderMembers xs u'.atLeast))
    (hM : g.Round u members) : g.Ordered members (g.orderMembers members u.atLeast) := by
  obtain ⟨blocks, hb, heq⟩ := orderMembers_blocks g u.atLeast hM.nodup
  have hnd : ∀ xs ∈ blocks, xs.Nodup := fun xs hxs => (hb.sorted xs hxs).imp Nat.ne_of_lt
  rw [heq]
  constructor
  · intro e he hsrc hdst t ht hnot
    -- below `u` the ends share a component, so the strongest tier is at least `u`
    have hut : u.rank ≤ t.rank := Nat.le_of_not_lt fun hlt => hnot (hM.below _ hsrc _ hdst t hlt)
    have hlink : g.Link u.atLeast e.src e.dst :=
      ⟨e, he, rfl, rfl, (Tier.meets_atLeast_iff ht u).2 hut⟩
    by_cases hm : Mutual (g.Within members u.atLeast) e.src e.dst
    · -- one component at `u`: its block is ordered again a tier up
      rw [mutual_within_iff hM.closed hsrc] at hm
      have hne : e.src ≠ e.dst := fun h => hnot (h ▸ ⟨ReflTransGen.refl, ReflTransGen.refl⟩)
      have hlt : u.rank < t.rank := Nat.lt_of_le_of_ne hut fun h => hnot (Tier.eq_of_rank_eq h ▸ hm)
      obtain ⟨u', hu'⟩ := Tier.above_of_rank_lt hlt
      obtain ⟨xs, hxs, hsx⟩ := hb.exists_block hsrc
      have hdx : e.dst ∈ xs := (hb.mem_iff hM.closed hxs hsx _).2 hm
      have hinf := infix_flatMap (g.placeBlock u.atLeast) hxs
      rw [placeBlock_of_pair hsx hdx hne, orderCycle_of_above hu'] at hinf
      exact ((ih u' hu' xs (hM.block hb hxs hu')).edges e he hsx hdx t ht hnot).trans hinf.sublist
    · obtain ⟨xs, ys, hxy, hsx, hdy⟩ := hb.forward _ _ ⟨hsrc, hdst, hlink⟩ hm
      exact sublist_flatMap_of_pair _ hxy
        ((mem_placeBlock (hnd xs (hxy.subset (List.mem_cons_self ..)))).2 hsx)
        ((mem_placeBlock (hnd ys (hxy.subset (by simp)))).2 hdy)
  · intro x hx y hxy hc
    obtain ⟨xs, hxs, hxx⟩ := hb.exists_block hx
    have hyx : y ∈ xs := (hb.mem_iff hM.closed hxs hxx y).2 (hc.mono (Tier.rank_le_constructor u))
    have hinf := infix_flatMap (g.placeBlock u.atLeast) hxs
    rw [placeBlock_of_pair hxx hyx hxy] at hinf
    cases hu : u.above with
    | some u' =>
      rw [orderCycle_of_above hu] at hinf
      obtain ⟨block, hbl, hdesc, hmem⟩ :=
        (ih u' hu xs (hM.block hb hxs hu)).cycles x hxx y hxy hc
      exact ⟨block, hbl.trans hinf, hdesc, hmem⟩
    | none =>
      -- the constructor round: the block is the whole component, reversed
      obtain rfl := Tier.above_eq_none hu
      rw [orderCycle_constructor] at hinf
      refine ⟨xs.reverse, hinf, List.pairwise_reverse.2 (hb.sorted xs hxs), fun z => ?_⟩
      rw [List.mem_reverse]
      exact hb.mem_iff hM.closed hxs hxx z

/-- By induction on the tiers above the round. -/
theorem Graph.ordered_of_round (g : Graph) :
    ∀ (u : Tier) (members : List Nat), g.Round u members →
      g.Ordered members (g.orderMembers members u.atLeast) := by
  intro u
  induction h : Tier.constructor.rank - u.rank using Nat.strong_induction_on generalizing u with
  | _ n ih =>
    intro members hM
    refine hM.ordered fun u' hu' xs hxs => ih (Tier.constructor.rank - u'.rank) ?_ u' rfl xs hxs
    have h1 := Tier.rank_above hu'
    have h2 := Tier.rank_le_constructor u'
    omega

end Round

section Build

theorem highest_insert_isSome (s : TierSet) (t : Tier) : (s.insert t).highest.isSome := by
  cases s with
  | mk c sm im si => cases c <;> cases sm <;> cases im <;> cases si <;> cases t <;> decide

variable {n : Nat}

theorem addTier_edges {src dst : Nat} (hs : src < n) (hd : dst < n) (t : Tier) :
    ∀ es : List Edge, (∀ e ∈ es, e.src < n ∧ e.dst < n ∧ e.tiers.highest.isSome) →
      ∀ e ∈ addTier src dst t es, e.src < n ∧ e.dst < n ∧ e.tiers.highest.isSome
  | [], _ => by
    simp only [addTier, List.mem_singleton, forall_eq]
    exact ⟨hs, hd, highest_insert_isSome _ _⟩
  | e :: es, h => by
    unfold addTier
    split
    · intro e' he'
      rcases List.mem_cons.1 he' with rfl | he'
      · obtain ⟨h1, h2, -⟩ := h e (List.mem_cons_self ..)
        exact ⟨h1, h2, highest_insert_isSome _ _⟩
      · exact h e' (List.mem_cons_of_mem _ he')
    · intro e' he'
      rcases List.mem_cons.1 he' with rfl | he'
      · exact h _ (List.mem_cons_self ..)
      · exact addTier_edges hs hd t es (fun e'' he'' => h e'' (List.mem_cons_of_mem _ he'')) e' he'

theorem edgesFrom_edges {src : Nat} (hs : src < n) (d : Decl) (es : List Edge)
    (h : ∀ e ∈ es, e.src < n ∧ e.dst < n ∧ e.tiers.highest.isSome) :
    ∀ e ∈ edgesFrom n src d es, e.src < n ∧ e.dst < n ∧ e.tiers.highest.isSome := by
  unfold edgesFrom
  refine List.foldlRecOn (motive := fun (es : List Edge) => ∀ e ∈ es, e.src < n ∧ e.dst < n ∧
    e.tiers.highest.isSome) _ _ h fun es hes t _ => ?_
  refine List.foldlRecOn (motive := fun (es : List Edge) => ∀ e ∈ es, e.src < n ∧ e.dst < n ∧
    e.tiers.highest.isSome) _ _ hes fun es hes dst _ => ?_
  split
  · exact hes
  · rename_i hdst
    exact addTier_edges hs (Nat.lt_of_not_le fun hle => hdst (.inr hle)) t es hes

theorem build_edges (b : Batch) :
    ∀ e ∈ (Graph.build b).edges, e.src < b.size ∧ e.dst < b.size ∧ e.tiers.highest.isSome := by
  unfold Graph.build
  refine List.foldlRecOn (motive := fun (es : List Edge) => ∀ e ∈ es, e.src < b.size ∧ e.dst < b.size ∧
    e.tiers.highest.isSome) _ _ (by simp) fun es hes p hp => ?_
  obtain ⟨d, src⟩ := p
  have hsrc : src < b.size := (List.getElem?_eq_some_iff.1 (List.mem_zipIdx_iff_getElem?.1 hp)).1
  exact edgesFrom_edges hsrc d es hes

theorem reach_lt_size (b : Batch) {T : TierSet} {x y : Nat}
    (h : ReflTransGen ((Graph.build b).Link T) x y) (hx : x < b.size) : y < b.size := by
  induction h with
  | refl => exact hx
  | tail _ hyz _ =>
    obtain ⟨e, he, -, rfl, -⟩ := hyz
    exact (build_edges b e he).2.1

theorem src_lt_size (b : Batch) {T : TierSet} {x y : Nat}
    (h : ReflTransGen ((Graph.build b).Link T) x y) (hxy : x ≠ y) : x < b.size := by
  rcases ReflTransGen.cases_head h with rfl | ⟨z, ⟨e, he, rfl, -, -⟩, -⟩
  · exact absurd rfl hxy
  · exact (build_edges b e he).1

theorem round_build (b : Batch) : (Graph.build b).Round .staticInit (List.range b.size) where
  nodup := List.nodup_range
  closed _ hx _ hxy := List.mem_range.2 (reach_lt_size b hxy.1 (List.mem_range.1 hx))
  below _ _ _ _ _ ht := absurd ht (Nat.not_lt_zero _)

end Build

/-- An edge goes forward unless a cycle at least as strong as its strongest tier joins its ends;
without cycles every edge does, and a constructor cycle stands as one block, latest first. -/
theorem initOrder_respects_tiers (b : Batch) :
    (∀ e ∈ (Graph.build b).edges, ∀ t, e.tiers.highest = some t →
        ¬(Graph.build b).SameComponent t.atLeast e.src e.dst →
        List.Sublist [e.src, e.dst] (Graph.build b).initOrder) ∧
    ((∀ a, ¬TransGen ((Graph.build b).Link TierSet.full) a a) →
        ∀ e ∈ (Graph.build b).edges, List.Sublist [e.src, e.dst] (Graph.build b).initOrder) ∧
    (∀ x y, x ≠ y → (Graph.build b).SameComponent Tier.constructor.atLeast x y →
        ∃ block, List.IsInfix block (Graph.build b).initOrder ∧ block.Pairwise (· > ·) ∧
          ∀ z, z ∈ block ↔ (Graph.build b).SameComponent Tier.constructor.atLeast x z) := by
  have hord := (Graph.build b).ordered_of_round .staticInit _ (round_build b)
  have hedges : ∀ e ∈ (Graph.build b).edges, ∀ t, e.tiers.highest = some t →
      ¬(Graph.build b).SameComponent t.atLeast e.src e.dst →
      List.Sublist [e.src, e.dst] (Graph.build b).initOrder := fun e he =>
    hord.edges e he (List.mem_range.2 (build_edges b e he).1)
      (List.mem_range.2 (build_edges b e he).2.1)
  refine ⟨hedges, fun hacyc e he => ?_, fun x y hxy hc => ?_⟩
  · obtain ⟨t, ht⟩ := Option.isSome_iff_exists.1 (build_edges b e he).2.2
    refine hedges e he t ht fun hsame => hacyc e.src ?_
    -- the edge itself and the way back close a cycle
    have hlink : (Graph.build b).Link TierSet.full e.src e.dst :=
      ⟨e, he, rfl, rfl, (Tier.meets_atLeast_iff ht .staticInit).2 (Nat.zero_le _)⟩
    have hback : ReflTransGen ((Graph.build b).Link TierSet.full) e.dst e.src :=
      (hsame.mono (show Tier.staticInit.rank ≤ t.rank from Nat.zero_le _)).2
    exact TransGen.head' hlink hback
  · exact hord.cycles x (List.mem_range.2 (src_lt_size b hc.1 hxy)) y hxy hc

def refClass (refs : List Nat) : Decl :=
  { name := ⟨[], ["C"]⟩
    kind := .classDecl (({} : ClassBody).withConstructor []
      (refs.map fun i => .exprStmt (.typeRef (some i) "T"))) }

/-- Classes `0` and `1` refer to each other in their constructors, and `2` refers to `0`. -/
def sampleCycle : Batch := ⟨[refClass [1], refClass [0], refClass [0]]⟩

def sampleChain : Batch := ⟨[refClass [1], refClass []]⟩

theorem initOrder_respects_tiers_samples :
    ¬(Graph.build sampleCycle).SameComponent Tier.constructor.atLeast 2 0 ∧
      List.Sublist [2, 0] (Graph.build sampleCycle).initOrder ∧
    (Graph.build sampleCycle).SameComponent Tier.constructor.atLeast 0 1 ∧
      (∃ block, List.IsInfix block (Graph.build sampleCycle).initOrder ∧
        block.Pairwise (· > ·) ∧
        ∀ z, z ∈ block ↔ (Graph.build sampleCycle).SameComponent Tier.constructor.atLeast 0 z) ∧
    (∀ a, ¬TransGen ((Graph.build sampleChain).Link TierSet.full) a a) ∧
      List.Sublist [0, 1] (Graph.build sampleChain).initOrder := by
  have hcyc : (Graph.build sampleCycle).edges =
      [⟨0, 1, TierSet.empty.insert .constructor⟩, ⟨1, 0, TierSet.empty.insert .constructor⟩,
        ⟨2, 0, TierSet.empty.insert .constructor⟩] := by decide
  have hchain : (Graph.build sampleChain).edges = [⟨0, 1, TierSet.empty.insert .constructor⟩] := by
    decide
  have hnot : ¬(Graph.build sampleCycle).SameComponent Tier.constructor.atLeast 2 0 := by
    rintro ⟨-, h⟩
    rcases ReflTransGen.cases_tail h with h | ⟨z, -, e, he, -, hd, -⟩
    · cases h
    · rw [hcyc] at he
      simp only [List.mem_cons, List.not_mem_nil, or_false] at he
      rcases he with rfl | rfl | rfl <;> cases hd
  have hsame : (Graph.build sampleCycle).SameComponent Tier.constructor.atLeast 0 1 :=
    ⟨.single ⟨_, by rw [hcyc]; exact List.mem_cons_self .., rfl, rfl, rfl⟩,
      .single ⟨⟨1, 0, TierSet.empty.insert .constructor⟩, by rw [hcyc]; simp, rfl, rfl, rfl⟩⟩
  have hacyc : ∀ a, ¬TransGen ((Graph.build sampleChain).Link TierSet.full) a a := by
    intro a h
    obtain ⟨b, ⟨e, he, hs, hd, -⟩, hba⟩ := TransGen.head'_iff.1 h
    rw [hchain, List.mem_singleton] at he
    subst he hs hd
    rcases ReflTransGen.cases_head hba with h | ⟨c, ⟨e, he, hs, -, -⟩, -⟩
    · cases h
    · rw [hchain, List.mem_singleton] at he
      subst he
      cases hs
  obtain ⟨hedge, -, hblock⟩ := initOrder_respects_tiers sampleCycle
  obtain ⟨-, hforward, -⟩ := initOrder_respects_tiers sampleChain
  exact ⟨hnot, hedge ⟨2, 0, TierSet.empty.insert .constructor⟩ (by rw [hcyc]; simp) .constructor
    rfl hnot, hsame, hblock 0 1 (by decide) hsame, hacyc,
    hforward hacyc ⟨0, 1, TierSet.empty.insert .constructor⟩ (by rw [hchain]; simp)⟩

end ProtoLayout.Schedule
