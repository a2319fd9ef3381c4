import ProtoLayout.Proofs.References.Mentions
import ProtoLayout.Proofs.InitOrder.Levels

/-!
The edges of the reference graph, built by one list of calls: by source, then tier, then
reference.
-/

namespace ProtoLayout.Schedule

open Script

namespace TierSet

theorem mem_insert (s : TierSet) (t u : Tier) : (s.insert t).mem u = true ↔ s.mem u = true ∨ u = t := by
  cases s; cases t <;> cases u <;> simp [insert, mem]

theorem mem_empty (u : Tier) : TierSet.empty.mem u = false := by
  cases u <;> rfl

theorem ext_mem {s s' : TierSet} (h : ∀ u, s.mem u = s'.mem u) : s = s' := by
  have hc := h .constructor
  have hs := h .staticMethod
  have hi := h .instanceMethod
  have hn := h .staticInit
  cases s; cases s'
  simp_all [mem]

theorem mem_of_highest {s : TierSet} {u : Tier} (h : s.highest = some u) : s.mem u = true := by
  cases s with
  | mk c sm im si => cases c <;> cases sm <;> cases im <;> cases si <;> cases u <;> simp_all [highest, mem]

theorem highest_of_mem {s : TierSet} {u : Tier} (h : s.mem u = true) :
    ∃ v, s.highest = some v ∧ u.rank ≤ v.rank := by
  cases s with
  | mk c sm im si =>
    cases c <;> cases sm <;> cases im <;> cases si <;> cases u <;> simp_all [highest, mem, Tier.rank]

theorem highest_insert {s : TierSet} {u t : Tier} (h : s.highest = some u) (ht : t.rank < u.rank) :
    (s.insert t).highest = some u := by
  cases s with
  | mk c sm im si =>
    cases c <;> cases sm <;> cases im <;> cases si <;> cases u <;> cases t <;>
      simp_all [highest, insert, Tier.rank]

end TierSet

/-! ### Adding tiers one call at a time -/

abbrev Call := Nat × Tier × Nat

/-- By source, then tier in the order of `Tier.all`, then target. -/
def Call.Before (x y : Call) : Prop :=
  x.1 < y.1 ∨ x.1 = y.1 ∧ (y.2.1.rank < x.2.1.rank ∨ x.2.1 = y.2.1 ∧ x.2.2 < y.2.2)

def addCall (es : List Edge) (x : Call) : List Edge := addTier x.1 x.2.2 x.2.1 es

theorem addCall_mk (es : List Edge) (a : Nat) (t : Tier) (c : Nat) :
    addCall es (a, t, c) = addTier a c t es := rfl

/-- The rank of the first tier an edge carries, which orders the edges of one source. -/
def Edge.leadRank (e : Edge) : Nat := (e.tiers.highest.map Tier.rank).getD 0

def Edge.Before (e f : Edge) : Prop :=
  e.src < f.src ∨ e.src = f.src ∧ (f.leadRank < e.leadRank ∨ e.leadRank = f.leadRank ∧ e.dst < f.dst)

section AddTier

variable (src dst : Nat) (t : Tier)

theorem addTier_of_mem : ∀ {es : List Edge}, (es.map fun e => (e.src, e.dst)).Nodup →
    (∃ e ∈ es, e.src = src ∧ e.dst = dst) →
    addTier src dst t es =
      es.map fun e => if e.src = src ∧ e.dst = dst then { e with tiers := e.tiers.insert t } else e
  | [], _, h => by simp at h
  | e :: es, hnd, h => by
    rw [List.map_cons, List.nodup_cons] at hnd
    unfold addTier
    split
    · rename_i he
      -- the pair does not come again, so the rest stays as it is
      have hrest : ∀ f ∈ es, ¬(f.src = src ∧ f.dst = dst) := fun f hf hfk =>
        hnd.1 (List.mem_map.2 ⟨f, hf, by rw [hfk.1, hfk.2, he.1, he.2]⟩)
      rw [List.map_cons, if_pos he, List.map_congr_left fun f hf => if_neg (hrest f hf), List.map_id']
    · rename_i he
      have h' : ∃ f ∈ es, f.src = src ∧ f.dst = dst := by
        obtain ⟨f, hf, hfk⟩ := h
        rcases List.mem_cons.1 hf with rfl | hf
        · exact absurd hfk he
        · exact ⟨f, hf, hfk⟩
      rw [List.map_cons, if_neg he, addTier_of_mem hnd.2 h']

theorem addTier_of_not_mem : ∀ {es : List Edge}, (∀ e ∈ es, ¬(e.src = src ∧ e.dst = dst)) →
    addTier src dst t es = es ++ [⟨src, dst, TierSet.empty.insert t⟩]
  | [], _ => rfl
  | e :: es, h => by
    unfold addTier
    rw [if_neg (h e (List.mem_cons_self ..)),
      addTier_of_not_mem fun f hf => h f (List.mem_cons_of_mem _ hf), List.cons_append]

end AddTier

/-- Each edge carries exactly the tiers of the calls between its ends, every call has its edge,
and no pair has two edges. -/
structure Records (calls : List Call) (es : List Edge) : Prop where
  tiers : ∀ e ∈ es, ∀ u, e.tiers.mem u = true ↔ (e.src, u, e.dst) ∈ calls
  called : ∀ e ∈ es, ∃ u, (e.src, u, e.dst) ∈ calls
  complete : ∀ x ∈ calls, ∃ e ∈ es, e.src = x.1 ∧ e.dst = x.2.2
  nodup : (es.map fun e => (e.src, e.dst)).Nodup

theorem records_nil : Records [] [] := ⟨by simp, by simp, by simp, List.nodup_nil⟩

theorem mem_append_call_iff {calls : List Call} {a c s d : Nat} {t u : Tier}
    (h : ¬(s = a ∧ d = c)) : (s, u, d) ∈ calls ++ [(a, t, c)] ↔ (s, u, d) ∈ calls := by
  simp only [List.mem_append, List.mem_singleton, Prod.mk.injEq]
  exact ⟨fun h' => h'.elim id fun ⟨h1, _, h3⟩ => absurd ⟨h1, h3⟩ h, .inl⟩

section Record

variable {calls : List Call} {es : List Edge} {a c : Nat} {t : Tier}

theorem Records.add_known (h : Records calls es) (hx : ∃ e ∈ es, e.src = a ∧ e.dst = c) :
    Records (calls ++ [(a, t, c)]) (addTier a c t es) := by
  rw [addTier_of_mem a c t h.nodup hx]
  refine ⟨fun e' he' u => ?_, fun e' he' => ?_, fun y hy => ?_, ?_⟩
  · obtain ⟨e, he, rfl⟩ := List.mem_map.1 he'
    split
    · rename_i hk
      rw [TierSet.mem_insert, h.tiers e he, hk.1, hk.2]
      simp
    · rw [h.tiers e he, mem_append_call_iff ‹_›]
  · obtain ⟨e, he, rfl⟩ := List.mem_map.1 he'
    obtain ⟨u, hu⟩ := h.called e he
    split <;> exact ⟨u, List.mem_append_left _ hu⟩
  · rcases List.mem_append.1 hy with hy | hy
    · obtain ⟨e, he, hk⟩ := h.complete y hy
      refine ⟨_, List.mem_map_of_mem he, ?_⟩
      split <;> exact hk
    · rw [List.mem_singleton.1 hy]
      obtain ⟨e, he, hk⟩ := hx
      exact ⟨_, List.mem_map_of_mem he, by rw [if_pos hk]; exact hk⟩
  · rw [List.map_map]
    refine (List.map_congr_left fun e _ => ?_).symm ▸ h.nodup
    simp only [Function.comp]
    split <;> rfl

theorem Records.add_new (h : Records calls es) (hnew : ∀ e ∈ es, ¬(e.src = a ∧ e.dst = c)) :
    Records (calls ++ [(a, t, c)]) (addTier a c t es) := by
  have hfresh : ∀ u, (a, u, c) ∉ calls := fun u hu => by
    obtain ⟨e, he, hk⟩ := h.complete _ hu
    exact hnew e he hk
  rw [addTier_of_not_mem a c t hnew]
  refine ⟨fun e' he' u => ?_, fun e' he' => ?_, fun y hy => ?_, ?_⟩
  · rcases List.mem_append.1 he' with he | he
    · rw [h.tiers e' he, mem_append_call_iff (hnew e' he)]
    · rw [List.mem_singleton.1 he, TierSet.mem_insert, TierSet.mem_empty]
      simp [hfresh u]
  · rcases List.mem_append.1 he' with he | he
    · obtain ⟨u, hu⟩ := h.called e' he
      exact ⟨u, List.mem_append_left _ hu⟩
    · rw [List.mem_singleton.1 he]
      exact ⟨t, List.mem_append_right _ (List.mem_singleton_self _)⟩
  · rcases List.mem_append.1 hy with hy | hy
    · obtain ⟨e, he, hk⟩ := h.complete y hy
      exact ⟨e, List.mem_append_left _ he, hk⟩
    · rw [List.mem_singleton.1 hy]
      exact ⟨_, List.mem_append_right _ (List.mem_singleton_self _), rfl, rfl⟩
  · rw [List.map_append, List.nodup_append]
    refine ⟨h.nodup, List.nodup_singleton _, fun p hp q hq => ?_⟩
    obtain ⟨e, he, rfl⟩ := List.mem_map.1 hp
    rw [List.map_singleton, List.mem_singleton] at hq
    subst hq
    exact fun hk => hnew e he (Prod.mk.inj hk)

end Record

theorem records_foldl (calls : List Call) : Records calls (calls.foldl addCall []) := by
  induction calls using List.reverseRecOn with
  | nil => exact records_nil
  | append_singleton calls x ih =>
    rw [List.foldl_append, List.foldl_cons, List.foldl_nil]
    obtain ⟨a, t, c⟩ := x
    rw [addCall_mk]
    by_cases hx : ∃ e ∈ calls.foldl addCall [], e.src = a ∧ e.dst = c
    · exact ih.add_known hx
    · exact ih.add_new fun e he hk => hx ⟨e, he, hk⟩

theorem Records.mem_iff {calls : List Call} {es : List Edge} (h : Records calls es) (e : Edge) :
    e ∈ es ↔ (∃ u, (e.src, u, e.dst) ∈ calls) ∧ ∀ u, e.tiers.mem u = true ↔ (e.src, u, e.dst) ∈ calls := by
  refine ⟨fun he => ⟨h.called e he, h.tiers e he⟩, fun ⟨⟨u, hu⟩, htiers⟩ => ?_⟩
  obtain ⟨e', he', hs, hd⟩ := h.complete _ hu
  have : e' = e := by
    cases e'
    cases e
    simp only at hs hd
    subst hs hd
    congr
    exact TierSet.ext_mem fun v => Bool.eq_iff_iff.2 ((h.tiers _ he' v).trans (htiers v).symm)
  exact this ▸ he'

/-! ### The order of the edges -/

theorem highest_single (t : Tier) : (TierSet.empty.insert t).highest = some t := by
  cases t <;> rfl

theorem Records.lead {calls : List Call} {es : List Edge} (h : Records calls es) {e : Edge}
    (he : e ∈ es) : ∃ v, e.tiers.highest = some v ∧ (e.src, v, e.dst) ∈ calls := by
  obtain ⟨u, hu⟩ := h.called e he
  obtain ⟨v, hv, -⟩ := TierSet.highest_of_mem ((h.tiers e he u).2 hu)
  exact ⟨v, hv, (h.tiers e he v).1 (TierSet.mem_of_highest hv)⟩

section Order

variable {calls : List Call} {es : List Edge} {a c : Nat} {t : Tier}

/-- A later call between known ends has a lower tier, so the edge keeps its first tier and place. -/
theorem Records.pairwise_add_known (h : Records calls es) (hes : es.Pairwise Edge.Before)
    (hx : ∀ y ∈ calls, Call.Before y (a, t, c)) (hkey : ∃ e ∈ es, e.src = a ∧ e.dst = c) :
    (addTier a c t es).Pairwise Edge.Before := by
  rw [addTier_of_mem a c t h.nodup hkey, List.pairwise_map]
  have hkeep : ∀ g ∈ es, (if g.src = a ∧ g.dst = c then
      { g with tiers := g.tiers.insert t } else g).leadRank = g.leadRank := fun g hg => by
    split
    · obtain ⟨v, hv, hcall⟩ := h.lead hg
      have hlt : t.rank < v.rank := by
        rcases hx _ hcall with h | ⟨-, h | ⟨-, h⟩⟩ <;> simp_all
      simp only [Edge.leadRank, TierSet.highest_insert hv hlt, hv]
    · rfl
  refine hes.imp_of_mem fun {e f} he hf hef => ?_
  unfold Edge.Before at hef ⊢
  rw [hkeep e he, hkeep f hf]
  split <;> split <;> exact hef

theorem Records.pairwise_add_new (h : Records calls es) (hes : es.Pairwise Edge.Before)
    (hx : ∀ y ∈ calls, Call.Before y (a, t, c)) (hnew : ∀ e ∈ es, ¬(e.src = a ∧ e.dst = c)) :
    (addTier a c t es).Pairwise Edge.Before := by
  rw [addTier_of_not_mem a c t hnew, List.pairwise_append]
  refine ⟨hes, List.pairwise_singleton _ _, fun e he f hf => ?_⟩
  rw [List.mem_singleton.1 hf]
  obtain ⟨v, hv, hcall⟩ := h.lead he
  simp only [Edge.Before, Edge.leadRank, hv, highest_single, Option.map_some, Option.getD_some]
  rcases hx _ hcall with h | ⟨h1, h | ⟨h2, h3⟩⟩
  · exact .inl h
  · exact .inr ⟨h1, .inl h⟩
  · exact .inr ⟨h1, .inr ⟨congrArg Tier.rank h2, h3⟩⟩

end Order

theorem pairwise_foldl (calls : List Call) (hc : calls.Pairwise Call.Before) :
    (calls.foldl addCall []).Pairwise Edge.Before := by
  induction calls using List.reverseRecOn with
  | nil => exact List.Pairwise.nil
  | append_singleton calls x ih =>
    obtain ⟨hpre, -, hlast⟩ := List.pairwise_append.1 hc
    have hx : ∀ y ∈ calls, Call.Before y x := fun y hy => hlast y hy x (List.mem_singleton_self _)
    rw [List.foldl_append, List.foldl_cons, List.foldl_nil]
    obtain ⟨a, t, c⟩ := x
    rw [addCall_mk]
    by_cases hkey : ∃ e ∈ calls.foldl addCall [], e.src = a ∧ e.dst = c
    · exact (records_foldl calls).pairwise_add_known (ih hpre) hx hkey
    · exact (records_foldl calls).pairwise_add_new (ih hpre) hx fun e he hk => hkey ⟨e, he, hk⟩

/-! ### The calls of a batch -/

/-- Leaving out references to `a` itself and to ids outside the batch. -/
def sourceCalls (n a : Nat) (d : Decl) : List Call :=
  Tier.all.flatMap fun t =>
    ((tierReferences d t).filter fun c => decide (c ≠ a ∧ c < n)).map fun c => (a, t, c)

def calls (b : Batch) : List Call :=
  b.decls.zipIdx.flatMap fun (d, a) => sourceCalls b.size a d

theorem build_edges_eq (b : Batch) : (Graph.build b).edges = (calls b).foldl addCall [] := by
  unfold Graph.build calls sourceCalls
  simp only [List.foldl_flatMap, List.foldl_map, List.foldl_filter]
  congr
  funext es p
  obtain ⟨d, a⟩ := p
  unfold edgesFrom
  congr
  funext es t
  congr
  funext es c
  by_cases h : c = a ∨ b.size ≤ c
  · rw [if_pos h, if_neg (by simp only [decide_eq_true_eq]; omega)]
  · rw [if_neg h, if_pos (by simp only [decide_eq_true_eq]; omega)]
    rfl

theorem mem_sourceCalls {n a' a c : Nat} {d : Decl} {t : Tier} :
    (a, t, c) ∈ sourceCalls n a' d ↔ a = a' ∧ c ≠ a ∧ c < n ∧ c ∈ tierReferences d t := by
  simp only [sourceCalls, List.mem_flatMap, List.mem_map, List.mem_filter, decide_eq_true_eq,
    Prod.mk.injEq]
  constructor
  · rintro ⟨t', -, c', ⟨hc', hne, hlt⟩, rfl, rfl, rfl⟩
    exact ⟨rfl, hne, hlt, hc'⟩
  · rintro ⟨rfl, hne, hlt, hc⟩
    exact ⟨t, by cases t <;> simp [Tier.all], c, ⟨hc, hne, hlt⟩, rfl, rfl, rfl⟩

theorem mem_calls {b : Batch} {a c : Nat} {t : Tier} :
    (a, t, c) ∈ calls b ↔ c ≠ a ∧ c < b.size ∧ ∃ d, b.get? a = some d ∧ c ∈ tierReferences d t := by
  simp only [calls, List.mem_flatMap, mem_sourceCalls, Batch.get?, List.mem_zipIdx_iff_getElem?]
  constructor
  · rintro ⟨⟨d, a'⟩, hd, rfl, hne, hlt, hc⟩
    exact ⟨hne, hlt, d, hd, hc⟩
  · rintro ⟨hne, hlt, d, hd, hc⟩
    exact ⟨(d, a), hd, rfl, hne, hlt, hc⟩

theorem pairwise_calls (b : Batch) : (calls b).Pairwise Call.Before := by
  have hids : b.decls.zipIdx.Pairwise fun p q => p.2 < q.2 := by
    have : (List.range' 0 b.decls.length).Pairwise (· < ·) := List.pairwise_lt_range'
    rw [← List.zipIdx_map_snd 0 b.decls, List.pairwise_map] at this
    exact this
  have htiers : Tier.all.Pairwise fun t u => u.rank < t.rank := by decide
  refine List.pairwise_flatMap.2 ⟨fun p _ => List.pairwise_flatMap.2 ⟨fun t _ => ?_, ?_⟩, ?_⟩
  · rw [List.pairwise_map]
    exact ((tierReferences_enumerates p.1 t).1.filter _).imp fun h => .inr ⟨rfl, .inr ⟨rfl, h⟩⟩
  · refine htiers.imp fun {t u} h x hx y hy => ?_
    obtain ⟨_, _, rfl⟩ := List.mem_map.1 hx
    obtain ⟨_, _, rfl⟩ := List.mem_map.1 hy
    exact .inr ⟨rfl, .inl h⟩
  · refine hids.imp fun {p q} h x hx y hy => ?_
    obtain ⟨a, t, c⟩ := x
    obtain ⟨a', t', c'⟩ := y
    rw [(mem_sourceCalls.1 hx).1, (mem_sourceCalls.1 hy).1]
    exact .inl h

theorem mem_build_edges (b : Batch) (e : Edge) :
    e ∈ (Graph.build b).edges ↔ e.dst ≠ e.src ∧ e.dst < b.size ∧
      ∃ d, b.get? e.src = some d ∧ (∃ t, e.dst ∈ tierReferences d t) ∧
        ∀ t, e.tiers.mem t = true ↔ e.dst ∈ tierReferences d t := by
  rw [build_edges_eq, (records_foldl _).mem_iff]
  simp only [mem_calls]
  constructor
  · rintro ⟨⟨u, hne, hlt, d, hd, hu⟩, htiers⟩
    refine ⟨hne, hlt, d, hd, ⟨u, hu⟩, fun t => (htiers t).trans ?_⟩
    simp [hne, hlt, hd]
  · rintro ⟨hne, hlt, d, hd, ⟨u, hu⟩, htiers⟩
    refine ⟨⟨u, hne, hlt, d, hd, hu⟩, fun t => (htiers t).trans ?_⟩
    simp [hne, hlt, hd]

theorem pairwise_build_edges (b : Batch) : (Graph.build b).edges.Pairwise Edge.Before := by
  rw [build_edges_eq]
  exact pairwise_foldl _ (pairwise_calls b)

/-- References list, ascending and once each, the declarations mentioned at any depth; the graph
has an edge exactly where one declaration refers to another of the batch, with exactly the tiers
of the reference, listed by source, first tier, then target. -/
theorem references_enumerate_mentions :
    (∀ nodes : List Node, Enumerates (fun x => ∃ n ∈ nodes, n.Mentions x) (references nodes)) ∧
    (∀ body : ClassBody,
      Enumerates (fun x => ∃ n ∈ body.base.toList ++ body.interfaces, n.Mentions x) body.heritage) ∧
    (∀ (d : Decl) (t : Tier), Enumerates (fun x => ∃ body, d.classBody? = some body ∧
      MentionedIn body t x) (tierReferences d t)) ∧
    ∀ b : Batch,
      (∀ e, e ∈ (Graph.build b).edges ↔ e.dst ≠ e.src ∧ e.dst < b.size ∧
        ∃ d, b.get? e.src = some d ∧ (∃ t, e.dst ∈ tierReferences d t) ∧
          ∀ t, e.tiers.mem t = true ↔ e.dst ∈ tierReferences d t) ∧
      (Graph.build b).edges.Pairwise Edge.Before :=
  ⟨references_enumerates, heritage_enumerates, tierReferences_enumerates,
    fun b => ⟨mem_build_edges b, pairwise_build_edges b⟩⟩

end ProtoLayout.Schedule
