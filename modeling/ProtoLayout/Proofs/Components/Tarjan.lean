import ProtoLayout.Proofs.Components.Visit
import Mathlib.Data.List.Nodup

/-!
Correctness of `tarjan`.
-/

namespace ProtoLayout.Schedule

open Relation

variable {adj : List (List Nat)}

def outerStep (adj : List (List Nat)) (s : Search) (v : Nat) : Search :=
  if (s.index.getD v none).isNone then visit adj (adj.length + 1) v s else s

theorem tarjan_eq (adj : List (List Nat)) :
    tarjan adj = ((List.range adj.length).foldl (outerStep adj) (Search.start adj.length)).comps :=
  rfl

theorem wf_start (adj : List (List Nat)) : Wf adj [] (Search.start adj.length) where
  index_length := by simp [Search.start]
  low_length := by simp [Search.start]
  onStack_length := by simp [Search.start]
  idx_lt x k hk := by
    simp only [Search.idx, Search.start, List.getD_eq_getElem?_getD, List.getElem?_replicate] at hk
    split at hk <;> simp at hk
  marked_iff x := by
    simp only [Search.marked, Search.start, List.getD_eq_getElem?_getD, List.getElem?_replicate]
    split <;> simp
  stack_nodup := List.nodup_nil
  stack_seen := by simp [Search.start]
  done_seen := by simp [Search.start, Search.done]
  seen_stack x hx := by
    simp only [Search.idx, Search.start, List.getD_eq_getElem?_getD, List.getElem?_replicate] at hx
    split at hx <;> simp at hx
  done_nodup := by simp [Search.start, Search.done]
  gray_stack := by simp
  finished x y hx := by
    simp only [Search.idx, Search.start, List.getD_eq_getElem?_getD, List.getElem?_replicate] at hx
    split at hx <;> simp at hx
  stack_reach := by simp [Search.start]
  comp_reach := by simp [Search.start]
  comp_closed := by simp [Search.start]
  comp_ne := by simp [Search.start]

/-- Between two visits of the outer loop the stack is empty. -/
structure Outer (adj : List (List Nat)) (s : Search) : Prop where
  wf : Wf adj [] s
  stack : s.stack = []
  unseen : s.index.count none ≤ adj.length

theorem outer_start (adj : List (List Nat)) : Outer adj (Search.start adj.length) :=
  ⟨wf_start adj, rfl, by simp [Search.start]⟩

theorem Outer.step (hadj : InRange adj) {s : Search} (h : Outer adj s) {v : Nat}
    (hv : v < adj.length) :
    Outer adj (outerStep adj s v) ∧ Grows s (outerStep adj s v) ∧
      (outerStep adj s v).idx v ≠ none := by
  unfold outerStep
  cases hnew : s.idx v with
  | none =>
    have hc := visit_visited hadj (adj.length + 1) v [] s h.wf hv hnew (by have := h.unseen; omega)
    rw [if_pos (by simpa [Search.idx] using hnew)]
    obtain ⟨seg, hst, -, hroot, -⟩ := hc.seg
    -- with an empty stack below it, the root of the visit is emitted with everything above it
    have hseg : seg = [] := by
      rcases hroot with ⟨hseg, -⟩ | ⟨y, hy, -⟩
      · exact hseg
      · rw [h.stack] at hy; cases hy
    refine ⟨⟨hc.wf, by rw [hst, hseg, h.stack]; rfl, ?_⟩, hc.grows, by simp [hc.idx_v]⟩
    exact Nat.le_trans (Nat.le_of_lt hc.unseen) h.unseen
  | some k =>
    rw [if_neg (by simp [Search.idx] at hnew; simp [hnew])]
    exact ⟨h, Grows.refl s, by simp [hnew]⟩

theorem Outer.foldl (hadj : InRange adj) :
    ∀ (vs : List Nat) (s : Search), Outer adj s → (∀ v ∈ vs, v < adj.length) →
      Outer adj (vs.foldl (outerStep adj) s) ∧ Grows s (vs.foldl (outerStep adj) s) ∧
        ∀ v ∈ vs, (vs.foldl (outerStep adj) s).idx v ≠ none
  | [], s, h, _ => ⟨h, Grows.refl s, by simp⟩
  | v :: vs, s, h, hvs => by
    obtain ⟨h₁, hg₁, hv₁⟩ := h.step hadj (hvs v (List.mem_cons_self ..))
    obtain ⟨h₂, hg₂, hvs₂⟩ :=
      Outer.foldl hadj vs _ h₁ (fun w hw => hvs w (List.mem_cons_of_mem _ hw))
    refine ⟨h₂, hg₁.trans hg₂, fun w hw => ?_⟩
    rcases List.mem_cons.1 hw with rfl | hw
    · exact hg₂.seen hv₁
    · exact hvs₂ w hw

theorem outer_final (hadj : InRange adj) :
    Outer adj ((List.range adj.length).foldl (outerStep adj) (Search.start adj.length)) ∧
      ∀ v < adj.length,
        ((List.range adj.length).foldl (outerStep adj) (Search.start adj.length)).idx v ≠ none := by
  obtain ⟨h, -, hseen⟩ :=
    Outer.foldl hadj (List.range adj.length) _ (outer_start adj) (fun v hv => List.mem_range.1 hv)
  exact ⟨h, fun v hv => hseen v (List.mem_range.2 hv)⟩

theorem tarjan_perm (hadj : InRange adj) : List.Perm (tarjan adj).flatten (List.range adj.length) := by
  obtain ⟨h, hseen⟩ := outer_final hadj
  rw [tarjan_eq]
  refine (List.perm_ext_iff_of_nodup h.wf.done_nodup List.nodup_range).2 fun x => ?_
  rw [List.mem_range]
  constructor
  · exact fun hx => h.wf.seen_lt (h.wf.done_seen x hx)
  · intro hx
    have hst := h.wf.seen_stack x (hseen x hx)
    rw [h.stack] at hst
    exact Classical.byContradiction fun hxd => List.not_mem_nil (hst.2 hxd)

theorem tarjan_reach (hadj : InRange adj) {c : List Nat} (hc : c ∈ tarjan adj) {x y : Nat}
    (hx : x ∈ c) (hy : y ∈ c) : ReflTransGen (Succ adj) x y :=
  (outer_final hadj).1.wf.comp_reach c hc x hx y hy

theorem tarjan_closed (hadj : InRange adj) {i : Nat} {c : List Nat} (hc : (tarjan adj)[i]? = some c)
    {x y : Nat} (hx : x ∈ c) (hxy : Succ adj x y) :
    ∃ j ≤ i, ∃ c' : List Nat, (tarjan adj)[j]? = some c' ∧ y ∈ c' :=
  (outer_final hadj).1.wf.comp_closed i c hc x hx y hxy

theorem tarjan_reach_le (hadj : InRange adj) {i : Nat} {c : List Nat}
    (hc : (tarjan adj)[i]? = some c) {x y : Nat} (hx : x ∈ c) (hxy : ReflTransGen (Succ adj) x y) :
    ∃ j ≤ i, ∃ c' : List Nat, (tarjan adj)[j]? = some c' ∧ y ∈ c' := by
  induction hxy with
  | refl => exact ⟨i, Nat.le_refl _, c, hc, hx⟩
  | tail _ hyz ih =>
    obtain ⟨j, hji, c', hc', hyc'⟩ := ih
    obtain ⟨k, hkj, c'', hc'', hzc''⟩ := tarjan_closed hadj hc' hyc' hyz
    exact ⟨k, Nat.le_trans hkj hji, c'', hc'', hzc''⟩

theorem index_unique_of_nodup {L : List (List Nat)} (h : L.flatten.Nodup) {i j : Nat}
    {c c' : List Nat} (hi : L[i]? = some c) (hj : L[j]? = some c') {x : Nat} (hxc : x ∈ c)
    (hxc' : x ∈ c') : i = j := by
  have hd := (List.nodup_flatten.1 h).2
  rw [List.pairwise_iff_getElem] at hd
  obtain ⟨hil, rfl⟩ := List.getElem?_eq_some_iff.1 hi
  obtain ⟨hjl, rfl⟩ := List.getElem?_eq_some_iff.1 hj
  rcases Nat.lt_trichotomy i j with hij | hij | hij
  · exact (hd i j hil hjl hij hxc hxc').elim
  · exact hij
  · exact (hd j i hjl hil hij hxc' hxc).elim

theorem tarjan_nodup (hadj : InRange adj) : (tarjan adj).flatten.Nodup :=
  (tarjan_perm hadj).nodup_iff.2 List.nodup_range

theorem tarjan_index_unique (hadj : InRange adj) {i j : Nat} {c c' : List Nat}
    (hi : (tarjan adj)[i]? = some c) (hj : (tarjan adj)[j]? = some c') {x : Nat} (hxc : x ∈ c)
    (hxc' : x ∈ c') : i = j :=
  index_unique_of_nodup (tarjan_nodup hadj) hi hj hxc hxc'

theorem tarjan_mem (hadj : InRange adj) {x : Nat} (hx : x < adj.length) :
    ∃ i : Nat, ∃ c : List Nat, (tarjan adj)[i]? = some c ∧ x ∈ c := by
  obtain ⟨c, hc, hxc⟩ := List.mem_flatten.1 ((tarjan_perm hadj).mem_iff.2 (List.mem_range.2 hx))
  obtain ⟨i, hi⟩ := List.getElem?_of_mem hc
  exact ⟨i, c, hi, hxc⟩

theorem tarjan_same_iff (hadj : InRange adj) {x y : Nat} (hx : x < adj.length) :
    (∃ c ∈ tarjan adj, x ∈ c ∧ y ∈ c) ↔
      ReflTransGen (Succ adj) x y ∧ ReflTransGen (Succ adj) y x := by
  constructor
  · rintro ⟨c, hc, hxc, hyc⟩
    exact ⟨tarjan_reach hadj hc hxc hyc, tarjan_reach hadj hc hyc hxc⟩
  · rintro ⟨hxy, hyx⟩
    obtain ⟨i, c, hi, hxc⟩ := tarjan_mem hadj hx
    obtain ⟨j, hji, c', hj, hyc'⟩ := tarjan_reach_le hadj hi hxc hxy
    obtain ⟨k, hkj, c'', hk, hxc''⟩ := tarjan_reach_le hadj hj hyc' hyx
    have hik : i = k := tarjan_index_unique hadj hi hk hxc hxc''
    have hij : j = i := by omega
    subst hij
    rw [hi, Option.some.injEq] at hj
    subst hj
    exact ⟨c, List.mem_of_getElem? hi, hxc, hyc'⟩

theorem tarjan_ne_nil (hadj : InRange adj) {c : List Nat} (hc : c ∈ tarjan adj) : c ≠ [] :=
  (outer_final hadj).1.wf.comp_ne c hc

theorem tarjan_edge_earlier (hadj : InRange adj) {i j : Nat} {X Y : List Nat}
    (hi : (tarjan adj)[i]? = some X) (hj : (tarjan adj)[j]? = some Y) {x y : Nat} (hx : x ∈ X)
    (hy : y ∈ Y) (hxy : Succ adj x y) (hXY : X ≠ Y) : j < i := by
  obtain ⟨k, hki, Y', hk, hyY'⟩ := tarjan_closed hadj hi hx hxy
  have hkj : k = j := tarjan_index_unique hadj hk hj hyY' hy
  subst hkj
  refine Nat.lt_of_le_of_ne hki fun hik => hXY ?_
  subst hik
  rw [hi, Option.some.injEq] at hj
  exact hj

/-- Every node lies in exactly one component, two nodes share one exactly when each reaches the
other, and an edge between components leads into the one listed first. -/
theorem tarjan_components (hadj : InRange adj) :
    List.Perm (tarjan adj).flatten (List.range adj.length) ∧
    (∀ x y, x < adj.length →
      ((∃ c ∈ tarjan adj, x ∈ c ∧ y ∈ c) ↔
        ReflTransGen (Succ adj) x y ∧ ReflTransGen (Succ adj) y x)) ∧
    ∀ (i j : Nat) (X Y : List Nat) (x y : Nat), (tarjan adj)[i]? = some X →
      (tarjan adj)[j]? = some Y → x ∈ X → y ∈ Y → Succ adj x y → X ≠ Y → j < i :=
  ⟨tarjan_perm hadj, fun _ _ hx => tarjan_same_iff hadj hx,
    fun _ _ _ _ _ _ hi hj hx hy hxy hXY => tarjan_edge_earlier hadj hi hj hx hy hxy hXY⟩

/-- A cycle `0 ↔ 1` with a repeated edge, then `2` with only a self-loop. -/
def loopSample : List (List Nat) := [[1, 1], [0, 2], [2]]

theorem loopSample_reach_two {z : Nat} (h : ReflTransGen (Succ loopSample) 2 z) : z = 2 := by
  induction h with
  | refl => rfl
  | tail _ hyz ih =>
    subst ih
    simpa [Succ, loopSample] using hyz

theorem tarjan_components_loopSample :
    InRange loopSample ∧ List.Perm (tarjan loopSample).flatten [0, 1, 2] ∧
      (∃ c ∈ tarjan loopSample, 0 ∈ c ∧ 1 ∈ c) ∧ ¬∃ c ∈ tarjan loopSample, 1 ∈ c ∧ 2 ∈ c := by
  have hin : InRange loopSample := inRange_iff.1 rfl
  obtain ⟨hperm, hsame, -⟩ := tarjan_components hin
  have h01 : Succ loopSample 0 1 := by simp [Succ, loopSample]
  have h10 : Succ loopSample 1 0 := by simp [Succ, loopSample]
  refine ⟨hin, hperm, (hsame 0 1 (by decide)).2 ⟨.single h01, .single h10⟩, fun h12 => ?_⟩
  have h21 := ((hsame 1 2 (by decide)).1 h12).2
  exact absurd (loopSample_reach_two h21) (by decide)

end ProtoLayout.Schedule
