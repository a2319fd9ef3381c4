import ProtoLayout.Proofs.Components.Tarjan
import ProtoLayout.Schedule.InitOrder

/-!
The graphs `orderMembers` builds before it places anything: local successor lists and the
condensation by components.
-/

namespace ProtoLayout.Schedule

open Relation

section UpdateAt

variable {α : Type} (f : α → α)

@[simp] theorem length_updateAt : ∀ (l : List α) (i : Nat), (updateAt f l i).length = l.length
  | [], _ => rfl
  | _ :: _, 0 => rfl
  | _ :: xs, i + 1 => by simp [updateAt, length_updateAt xs i]

theorem getElem?_updateAt : ∀ (l : List α) (i j : Nat),
    (updateAt f l i)[j]? = if i = j then l[j]?.map f else l[j]?
  | [], _, _ => by simp [updateAt]
  | _ :: _, 0, 0 => by simp [updateAt]
  | _ :: _, 0, _ + 1 => by simp [updateAt]
  | _ :: _, _ + 1, 0 => by simp [updateAt]
  | _ :: xs, i + 1, j + 1 => by simp [updateAt, getElem?_updateAt xs i j]

theorem getD_updateAt (l : List α) (i j : Nat) (d : α) :
    (updateAt f l i).getD j d = if i = j ∧ j < l.length then f (l.getD j d) else l.getD j d := by
  by_cases hj : j < l.length
  · simp only [List.getD_eq_getElem?_getD, getElem?_updateAt, List.getElem?_eq_getElem hj, hj,
      and_true]
    split <;> rfl
  · simp only [hj, and_false, if_false]
    rw [List.getD_eq_default _ _ (by simp; omega), List.getD_eq_default _ _ (by omega)]

end UpdateAt

@[simp] theorem getD_map_const {α β : Type} (l : List β) (x : α) (i : Nat) :
    (l.map fun _ => x).getD i x = x := by
  simp only [List.getD_eq_getElem?_getD, List.getElem?_map]; cases l[i]? <;> rfl

theorem countP_range_update {k a : Nat} (p q : Nat → Bool) (ha : a < k)
    (hne : ∀ b, b ≠ a → q b = p b) :
    (List.range k).countP q + (if p a then 1 else 0) =
      (List.range k).countP p + (if q a then 1 else 0) := by
  induction k with
  | zero => exact absurd ha (Nat.not_lt_zero _)
  | succ k ih =>
    rw [List.range_succ, List.countP_append, List.countP_append, List.countP_singleton,
      List.countP_singleton]
    by_cases hak : a = k
    · subst hak
      have hsame : (List.range a).countP q = (List.range a).countP p :=
        List.countP_congr fun b hb => by rw [hne b (Nat.ne_of_lt (List.mem_range.1 hb))]
      rw [hsame]
      omega
    · have h := ih (by omega)
      rw [hne k (Ne.symm hak)]
      omega

theorem idxOf?_eq_some_of_nodup {l : List Nat} (hnd : l.Nodup) {x i : Nat} :
    l.idxOf? x = some i ↔ ∃ h : i < l.length, l[i] = x := by
  rw [List.idxOf?_eq_some_iff]
  constructor
  · rintro ⟨h, hx, -⟩; exact ⟨h, hx⟩
  · rintro ⟨h, hx⟩
    refine ⟨h, hx, fun j hj hjx => ?_⟩
    have := (List.Nodup.getElem_inj_iff hnd).1 (hjx.trans hx.symm)
    omega

def Graph.Link (g : Graph) (tiers : TierSet) (a b : Nat) : Prop :=
  ∃ e ∈ g.edges, e.src = a ∧ e.dst = b ∧ e.tiers.meets tiers = true

section Local

variable (members : List Nat) (tiers : TierSet)

theorem addLocalEdge_spec {adj : List (List Nat)} (hlen : adj.length = members.length)
    (e : Edge) :
    (addLocalEdge members tiers adj e).length = members.length ∧ ∀ a c,
      c ∈ (addLocalEdge members tiers adj e).getD a [] ↔ c ∈ adj.getD a [] ∨
        (e.tiers.meets tiers = true ∧ members.idxOf? e.src = some a ∧
          members.idxOf? e.dst = some c) := by
  unfold addLocalEdge
  by_cases hm : e.tiers.meets tiers = true
  · rw [if_pos hm]
    cases ha : members.idxOf? e.src with
    | none => simp [hlen]
    | some a' =>
      cases hc : members.idxOf? e.dst with
      | none => simp [hlen]
      | some c' =>
        have ha' : a' < adj.length := hlen ▸ (List.idxOf?_eq_some_iff.1 ha).1
        refine ⟨by simp [hlen], fun a c => ?_⟩
        rw [getD_updateAt]
        by_cases ha'a : a' = a
        · subst ha'a
          simp [hm, ha', eq_comm]
        · simp [ha'a]
  · rw [if_neg hm]; simp [hlen, hm]

theorem foldl_addLocalEdge : ∀ (es : List Edge) (adj : List (List Nat)),
    adj.length = members.length →
      (es.foldl (addLocalEdge members tiers) adj).length = members.length ∧ ∀ a c,
        c ∈ (es.foldl (addLocalEdge members tiers) adj).getD a [] ↔ c ∈ adj.getD a [] ∨
          ∃ e ∈ es, e.tiers.meets tiers = true ∧ members.idxOf? e.src = some a ∧
            members.idxOf? e.dst = some c
  | [], adj, hlen => ⟨hlen, by simp⟩
  | e :: es, adj, hlen => by
    obtain ⟨hlen₁, hmem₁⟩ := addLocalEdge_spec members tiers hlen e
    obtain ⟨hlen₂, hmem₂⟩ := foldl_addLocalEdge es _ hlen₁
    refine ⟨hlen₂, fun a c => ?_⟩
    rw [List.foldl_cons, hmem₂, hmem₁]
    simp only [List.mem_cons, exists_eq_or_imp]
    tauto

variable {members}

theorem length_localAdjacency (g : Graph) :
    (g.localAdjacency members tiers).length = members.length :=
  (foldl_addLocalEdge members tiers g.edges _ (by simp)).1

theorem succ_localAdjacency (g : Graph) (hnd : members.Nodup) (i j : Nat) :
    Succ (g.localAdjacency members tiers) i j ↔
      ∃ (hi : i < members.length) (hj : j < members.length), g.Link tiers members[i] members[j] := by
  unfold Succ Graph.localAdjacency
  rw [(foldl_addLocalEdge members tiers g.edges _ (by simp)).2]
  simp only [getD_map_const, List.not_mem_nil, false_or, idxOf?_eq_some_of_nodup hnd, Graph.Link]
  constructor
  · rintro ⟨e, he, hm, ⟨hi, hsrc⟩, ⟨hj, hdst⟩⟩
    exact ⟨hi, hj, e, he, hsrc.symm, hdst.symm, hm⟩
  · rintro ⟨hi, hj, e, he, hsrc, hdst, hm⟩
    exact ⟨e, he, hm, ⟨hi, hsrc.symm⟩, ⟨hj, hdst.symm⟩⟩

theorem inRange_localAdjacency (g : Graph) (hnd : members.Nodup) :
    InRange (g.localAdjacency members tiers) := by
  intro i j hij
  obtain ⟨-, hj, -⟩ := (succ_localAdjacency tiers g hnd i j).1 hij
  rw [length_localAdjacency]; exact hj

end Local

theorem componentOf_eq {comps : List (List Nat)} (h : comps.flatten.Nodup) {i : Nat}
    {c : List Nat} (hi : comps[i]? = some c) {v : Nat} (hv : v ∈ c) : componentOf comps v = i := by
  have hfind : comps.findIdx? (v ∈ ·) = some i := by
    obtain ⟨hil, rfl⟩ := List.getElem?_eq_some_iff.1 hi
    rw [List.findIdx?_eq_some_iff_getElem]
    refine ⟨hil, by simpa using hv, fun j hji hj => ?_⟩
    have hj' : comps[j]? = some comps[j] := List.getElem?_eq_getElem (by omega)
    have := index_unique_of_nodup h hj' hi (by simpa using hj) hv
    omega
  simp [componentOf, hfind]

/-- Successor lists without repeats, and in-degrees that count the lists holding each component. -/
structure Tally (k : Nat) (acc : List (List Nat) × List Nat) : Prop where
  succs_length : acc.1.length = k
  indeg_length : acc.2.length = k
  nodup : ∀ a, (acc.1.getD a []).Nodup
  lt : ∀ a c, c ∈ acc.1.getD a [] → c < k
  indeg : ∀ c, acc.2.getD c 0 = (List.range k).countP (fun a => c ∈ acc.1.getD a [])

theorem tally_init (comps : List (List Nat)) :
    Tally comps.length (comps.map fun _ => [], comps.map fun _ => 0) where
  succs_length := by simp
  indeg_length := by simp
  nodup a := by simp
  lt a c hc := by simp at hc
  indeg c := by simp

theorem addLink_spec {k : Nat} {acc : List (List Nat) × List Nat} (h : Tally k acc) {a c : Nat}
    (ha : a < k) (hc : c < k) :
    Tally k (addLink acc a c) ∧ ∀ a' c', c' ∈ (addLink acc a c).1.getD a' [] ↔
      c' ∈ acc.1.getD a' [] ∨ (a' = a ∧ c' = c ∧ a ≠ c) := by
  unfold addLink
  by_cases hcond : a ≠ c ∧ c ∉ acc.1.getD a []
  · rw [if_pos hcond]
    have hS : ∀ a', (updateAt (· ++ [c]) acc.1 a).getD a' [] =
        if a = a' then acc.1.getD a' [] ++ [c] else acc.1.getD a' [] := by
      intro a'
      rw [getD_updateAt, h.succs_length]
      by_cases haa : a = a'
      · subst haa; simp [ha]
      · simp [haa]
    have hmem : ∀ a' c', c' ∈ (updateAt (· ++ [c]) acc.1 a).getD a' [] ↔
        c' ∈ acc.1.getD a' [] ∨ (a' = a ∧ c' = c ∧ a ≠ c) := by
      intro a' c'
      rw [hS]
      by_cases haa : a = a'
      · subst haa; simp [hcond.1]
      · simp [haa, Ne.symm haa]
    refine ⟨⟨by simp [h.succs_length], by simp [h.indeg_length], fun a' => ?_, fun a' c' hc' => ?_,
      fun c' => ?_⟩, hmem⟩
    · rw [hS]
      split
      · rw [← List.concat_eq_append]
        exact (List.nodup_concat _ _).2 ⟨by subst_vars; exact hcond.2, h.nodup a'⟩
      · exact h.nodup a'
    · rcases (hmem a' c').1 hc' with hc' | ⟨-, rfl, -⟩
      · exact h.lt a' c' hc'
      · exact hc
    · -- only the list of `a` changed, and it gained `c`
      have hupd := countP_range_update (fun a' => decide (c' ∈ acc.1.getD a' []))
        (fun a' => decide (c' ∈ (updateAt (· ++ [c]) acc.1 a).getD a' [])) ha (fun b hb => by
          simp only [hS, if_neg (Ne.symm hb)])
      have hqa : c' ∈ (updateAt (· ++ [c]) acc.1 a).getD a [] ↔ c' ∈ acc.1.getD a [] ∨ c' = c := by
        rw [hS, if_pos rfl, List.mem_append, List.mem_singleton]
      simp only [decide_eq_true_eq] at hupd
      dsimp only
      rw [getD_updateAt, h.indeg_length, h.indeg c']
      by_cases hcc : c = c'
      · subst hcc
        rw [if_neg hcond.2, if_pos (hqa.2 (.inr rfl))] at hupd
        rw [if_pos ⟨rfl, hc⟩]
        omega
      · have hsame : c' ∈ (updateAt (· ++ [c]) acc.1 a).getD a [] ↔ c' ∈ acc.1.getD a [] := by
          rw [hqa, or_iff_left (Ne.symm hcc)]
        simp only [hsame] at hupd
        rw [if_neg fun h' => hcc h'.1]
        omega
  · rw [if_neg hcond]
    refine ⟨h, fun a' c' => ⟨.inl, fun hc' => hc'.elim id fun ⟨ha', hc'', hac⟩ => ?_⟩⟩
    subst ha' hc''
    exact Classical.byContradiction fun hn => hcond ⟨hac, hn⟩

theorem componentOf_lt {comps : List (List Nat)} (h : comps.flatten.Nodup) {v : Nat}
    (hv : v ∈ comps.flatten) : componentOf comps v < comps.length := by
  obtain ⟨c, hc, hvc⟩ := List.mem_flatten.1 hv
  obtain ⟨i, hi⟩ := List.getElem?_of_mem hc
  rw [componentOf_eq h hi hvc]
  exact (List.getElem?_eq_some_iff.1 hi).1

section Fold

variable (comps : List (List Nat)) {k : Nat}

theorem foldl_addLink (a : Nat) (ha : a < k) :
    ∀ (ws : List Nat) (acc : List (List Nat) × List Nat), Tally k acc →
      (∀ w ∈ ws, componentOf comps w < k) →
      Tally k (ws.foldl (fun acc w => addLink acc a (componentOf comps w)) acc) ∧ ∀ a' c',
        c' ∈ (ws.foldl (fun acc w => addLink acc a (componentOf comps w)) acc).1.getD a' [] ↔
          c' ∈ acc.1.getD a' [] ∨ (a' = a ∧ a ≠ c' ∧ ∃ w ∈ ws, componentOf comps w = c')
  | [], acc, h, _ => ⟨h, by simp⟩
  | w :: ws, acc, h, hws => by
    obtain ⟨h₁, hmem₁⟩ := addLink_spec h ha (hws w (List.mem_cons_self ..))
    obtain ⟨h₂, hmem₂⟩ := foldl_addLink a ha ws _ h₁ fun w' hw' => hws w' (List.mem_cons_of_mem _ hw')
    refine ⟨h₂, fun a' c' => ?_⟩
    rw [List.foldl_cons, hmem₂, hmem₁]
    constructor
    · rintro ((hc | ⟨rfl, rfl, hne⟩) | ⟨rfl, hne, w', hw', rfl⟩)
      · exact .inl hc
      · exact .inr ⟨rfl, hne, w, List.mem_cons_self .., rfl⟩
      · exact .inr ⟨rfl, hne, w', List.mem_cons_of_mem _ hw', rfl⟩
    · rintro (hc | ⟨rfl, hne, w', hw', rfl⟩)
      · exact .inl (.inl hc)
      · rcases List.mem_cons.1 hw' with rfl | hw'
        · exact .inl (.inr ⟨rfl, rfl, hne⟩)
        · exact .inr ⟨rfl, hne, w', hw', rfl⟩

theorem foldl_addLinksFrom :
    ∀ (ps : List (List Nat × Nat)) (acc : List (List Nat) × List Nat), Tally k acc →
      (∀ p ∈ ps, componentOf comps p.2 < k ∧ ∀ w ∈ p.1, componentOf comps w < k) →
      Tally k (ps.foldl (addLinksFrom comps) acc) ∧ ∀ a' c',
        c' ∈ (ps.foldl (addLinksFrom comps) acc).1.getD a' [] ↔ c' ∈ acc.1.getD a' [] ∨
          (a' ≠ c' ∧ ∃ p ∈ ps, ∃ w ∈ p.1, componentOf comps p.2 = a' ∧ componentOf comps w = c')
  | [], acc, h, _ => ⟨h, by simp⟩
  | p :: ps, acc, h, hps => by
    obtain ⟨hp, hws⟩ := hps p (List.mem_cons_self ..)
    obtain ⟨h₁, hmem₁⟩ := foldl_addLink comps _ hp p.1 acc h hws
    obtain ⟨h₂, hmem₂⟩ := foldl_addLinksFrom ps _ h₁ fun q hq => hps q (List.mem_cons_of_mem _ hq)
    refine ⟨h₂, fun a' c' => ?_⟩
    rw [List.foldl_cons, addLinksFrom, hmem₂, hmem₁]
    constructor
    · rintro ((hc | ⟨rfl, hne, w, hw, rfl⟩) | ⟨hne, q, hq, w, hw, rfl, rfl⟩)
      · exact .inl hc
      · exact .inr ⟨hne, p, List.mem_cons_self .., w, hw, rfl, rfl⟩
      · exact .inr ⟨hne, q, List.mem_cons_of_mem _ hq, w, hw, rfl, rfl⟩
    · rintro (hc | ⟨hne, q, hq, w, hw, rfl, rfl⟩)
      · exact .inl (.inl hc)
      · rcases List.mem_cons.1 hq with rfl | hq
        · exact .inl (.inr ⟨rfl, hne, w, hw, rfl⟩)
        · exact .inr ⟨hne, q, hq, w, hw, rfl, rfl⟩

end Fold

/-- Each component lists, once, every other component one of its nodes has an edge into. -/
theorem condense_spec {adj comps : List (List Nat)} (hadj : InRange adj)
    (hcomps : List.Perm comps.flatten (List.range adj.length)) :
    Tally comps.length (condense adj comps) ∧ ∀ a c, c ∈ (condense adj comps).1.getD a [] ↔
      a ≠ c ∧ ∃ v w, Succ adj v w ∧ componentOf comps v = a ∧ componentOf comps w = c := by
  have hnd : comps.flatten.Nodup := hcomps.nodup_iff.2 List.nodup_range
  have hlt : ∀ v < adj.length, componentOf comps v < comps.length :=
    fun v hv => componentOf_lt hnd (hcomps.mem_iff.2 (List.mem_range.2 hv))
  have hps : ∀ p ∈ adj.zipIdx, componentOf comps p.2 < comps.length ∧
      ∀ w ∈ p.1, componentOf comps w < comps.length := by
    intro p hp
    rw [List.mem_zipIdx_iff_getElem?] at hp
    have hp2 : p.2 < adj.length := (List.getElem?_eq_some_iff.1 hp).1
    refine ⟨hlt _ hp2, fun w hw => hlt w (hadj p.2 w ?_)⟩
    simp [Succ, hp, hw]
  obtain ⟨htally, hmem⟩ := foldl_addLinksFrom comps adj.zipIdx _ (tally_init comps) hps
  refine ⟨htally, fun a c => ?_⟩
  unfold condense
  rw [hmem, getD_map_const]
  simp only [List.not_mem_nil, false_or, List.mem_zipIdx_iff_getElem?]
  constructor
  · rintro ⟨hne, p, hp, w, hw, rfl, rfl⟩
    exact ⟨hne, p.2, w, by simp [Succ, hp, hw], rfl, rfl⟩
  · rintro ⟨hne, v, w, hvw, rfl, rfl⟩
    have hv : v < adj.length := Classical.byContradiction fun hv => by
      simp [Succ, List.getElem?_eq_none (Nat.le_of_not_lt hv)] at hvw
    exact ⟨hne, (adj[v], v), by simp [hv], w, by simpa [Succ, hv] using hvw, rfl, rfl⟩

end ProtoLayout.Schedule
