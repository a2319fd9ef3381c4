import ProtoLayout.Proofs.InitOrder.Condensation

/-!
Kahn's placement of the condensation: a component is placed once every component with an edge
into it has been.
-/

namespace ProtoLayout.Schedule

theorem pickLatest_cons_ne_none (priority : Nat → Nat) (c : Nat) (cs : List Nat) :
    pickLatest priority (c :: cs) ≠ none := by
  unfold pickLatest
  split
  · split <;> simp
  · simp

theorem mem_of_pickLatest (priority : Nat → Nat) :
    ∀ {l : List Nat} {c : Nat}, pickLatest priority l = some c → c ∈ l
  | [], _, h => by simp [pickLatest] at h
  | d :: ds, c, h => by
    unfold pickLatest at h
    split at h
    · rename_i e he
      split at h
      · cases h; exact List.mem_cons_self ..
      · cases h; exact List.mem_cons_of_mem _ (mem_of_pickLatest priority he)
    · cases h; exact List.mem_cons_self ..

def releaseStep (acc : List Nat × List Nat) (s : Nat) : List Nat × List Nat :=
  let indeg := updateAt (· - 1) acc.2 s
  if indeg.getD s 0 = 0 then (acc.1 ++ [s], indeg) else (acc.1, indeg)

theorem release_eq (succs : List (List Nat)) (c : Nat) (ready indeg : List Nat) :
    release succs c ready indeg =
      ((succs.getD c []).mergeSort (· ≤ ·)).foldl releaseStep (ready, indeg) :=
  rfl

/-- Lowers each in-degree by one and appends, in order, those that were at most one. -/
theorem foldl_releaseStep : ∀ (ss : List Nat) (ready indeg : List Nat), ss.Nodup →
    (∀ s ∈ ss, s < indeg.length) →
    (ss.foldl releaseStep (ready, indeg)).1 = ready ++ ss.filter (fun s => indeg.getD s 0 ≤ 1) ∧
      (ss.foldl releaseStep (ready, indeg)).2.length = indeg.length ∧
      ∀ j, (ss.foldl releaseStep (ready, indeg)).2.getD j 0 =
        if j ∈ ss then indeg.getD j 0 - 1 else indeg.getD j 0
  | [], ready, indeg, _, _ => by simp
  | s :: ss, ready, indeg, hnd, hlt => by
    obtain ⟨hs, hnd⟩ := List.nodup_cons.1 hnd
    have hsl : s < indeg.length := hlt s (List.mem_cons_self ..)
    have hget : ∀ j, (updateAt (· - 1) indeg s).getD j 0 =
        if s = j then indeg.getD j 0 - 1 else indeg.getD j 0 := by
      intro j
      rw [getD_updateAt]
      by_cases hsj : s = j
      · subst hsj; simp [hsl]
      · simp [hsj]
    have hstep : releaseStep (ready, indeg) s =
        (if indeg.getD s 0 ≤ 1 then ready ++ [s] else ready, updateAt (· - 1) indeg s) := by
      unfold releaseStep
      dsimp only
      rw [hget, if_pos rfl]
      by_cases h1 : indeg.getD s 0 ≤ 1
      · rw [if_pos (by omega), if_pos h1]
      · rw [if_neg (by omega), if_neg h1]
    obtain ⟨h1, h2, h3⟩ := foldl_releaseStep ss (if indeg.getD s 0 ≤ 1 then ready ++ [s] else ready)
      (updateAt (· - 1) indeg s) hnd
      (fun j hj => by simpa using hlt j (List.mem_cons_of_mem _ hj))
    rw [List.foldl_cons, hstep]
    refine ⟨?_, by rw [h2, length_updateAt], fun j => ?_⟩
    · -- the later successors still see their own in-degrees unchanged
      have hsame : ss.filter (fun s' => (updateAt (· - 1) indeg s).getD s' 0 ≤ 1) =
          ss.filter (fun s' => indeg.getD s' 0 ≤ 1) :=
        List.filter_congr fun j hj => by rw [hget, if_neg fun e : s = j => hs (e ▸ hj)]
      rw [h1, hsame, List.filter_cons]
      by_cases h1 : indeg.getD s 0 ≤ 1
      · rw [if_pos h1, if_pos (decide_eq_true h1), List.append_assoc, List.singleton_append]
      · rw [if_neg h1, if_neg fun h => h1 (of_decide_eq_true h)]
    · rw [h3, hget]
      by_cases hsj : s = j
      · subst hsj; simp [hs]
      · by_cases hj : j ∈ ss
        · simp [hsj, hj]
        · simp [hsj, hj, Ne.symm hsj]

/-- Components `0 … k-1` with edges leading to smaller components only. -/
structure Dag (k : Nat) (succs : List (List Nat)) : Prop where
  length : succs.length = k
  nodup : ∀ a, (succs.getD a []).Nodup
  lt : ∀ a c, c ∈ succs.getD a [] → c < a

theorem Dag.src_lt {k : Nat} {succs : List (List Nat)} (hd : Dag k succs) {a c : Nat}
    (h : c ∈ succs.getD a []) : a < k := by
  rw [← hd.length]
  exact Classical.byContradiction fun ha => by
    rw [List.getD_eq_default _ _ (Nat.le_of_not_lt ha)] at h
    cases h

structure Kahn (k : Nat) (succs : List (List Nat)) (placed ready indeg : List Nat) : Prop where
  placed_nodup : placed.Nodup
  placed_lt : ∀ c ∈ placed, c < k
  ready_nodup : ready.Nodup
  ready_iff : ∀ c, c ∈ ready ↔ c < k ∧ c ∉ placed ∧ indeg.getD c 0 = 0
  indeg_length : indeg.length = k
  indeg : ∀ c < k, c ∉ placed →
    indeg.getD c 0 = (List.range k).countP (fun a => a ∉ placed ∧ c ∈ succs.getD a [])
  ordered : ∀ a c, c ∈ succs.getD a [] → c ∈ placed → List.Sublist [a, c] placed

section Kahn

variable {k : Nat} {succs : List (List Nat)}

theorem kahn_init {indeg : List Nat} (h : Tally k (succs, indeg)) :
    Kahn k succs [] ((List.range k).filter (fun c => indeg.getD c 0 = 0)) indeg where
  placed_nodup := List.nodup_nil
  placed_lt := by simp
  ready_nodup := List.nodup_range.filter _
  ready_iff c := by simp
  indeg_length := h.indeg_length
  indeg c _ _ := by simpa using h.indeg c
  ordered := by simp

variable {placed ready indeg : List Nat}

theorem Kahn.mem_of_succ (h : Kahn k succs placed ready indeg) {a c : Nat}
    (hac : c ∈ succs.getD a []) (hc : c ∈ placed) : a ∈ placed :=
  (h.ordered a c hac hc).subset (List.mem_cons_self ..)

theorem Kahn.not_succ_of_ready (hd : Dag k succs) (h : Kahn k succs placed ready indeg)
    {c a : Nat} (hc : c ∈ ready) (ha : a ∉ placed) : c ∉ succs.getD a [] := by
  intro hac
  obtain ⟨hck, hcp, h0⟩ := (h.ready_iff c).1 hc
  rw [h.indeg c hck hcp, List.countP_eq_zero] at h0
  exact h0 a (List.mem_range.2 (hd.src_lt hac)) (by simp only [decide_eq_true_eq]; exact ⟨ha, hac⟩)

/-- Follow edges backwards, to larger and larger components, until one has no unplaced
predecessor. -/
theorem Kahn.exists_ready (hd : Dag k succs) (h : Kahn k succs placed ready indeg) :
    ∀ m, m < k → m ∉ placed → ∃ c, c ∈ ready := by
  intro m hm hmp
  by_cases h0 : indeg.getD m 0 = 0
  · exact ⟨m, (h.ready_iff m).2 ⟨hm, hmp, h0⟩⟩
  · rw [h.indeg m hm hmp] at h0
    obtain ⟨a, ha, hpa⟩ := List.countP_pos_iff.1 (Nat.pos_of_ne_zero h0)
    simp only [decide_eq_true_eq] at hpa
    have hma : m < a := hd.lt a m hpa.2
    exact h.exists_ready hd a (List.mem_range.1 ha) hpa.1
termination_by m => k - m
decreasing_by have := List.mem_range.1 ha; omega

theorem Kahn.succ_of_ready (hd : Dag k succs) (h : Kahn k succs placed ready indeg) {c s : Nat}
    (hc : c ∈ ready) (hs : s ∈ succs.getD c []) : s < k ∧ s ∉ placed ∧ s ≠ c := by
  obtain ⟨hck, hcp, -⟩ := (h.ready_iff c).1 hc
  exact ⟨Nat.lt_trans (hd.lt c s hs) hck, fun hsp => hcp (h.mem_of_succ hs hsp),
    Nat.ne_of_lt (hd.lt c s hs)⟩

theorem Kahn.release_spec (hd : Dag k succs) (h : Kahn k succs placed ready indeg) {c : Nat}
    (hc : c ∈ ready) :
    (release succs c (ready.erase c) indeg).1 =
        ready.erase c ++ ((succs.getD c []).mergeSort (· ≤ ·)).filter (fun s => indeg.getD s 0 ≤ 1) ∧
      (release succs c (ready.erase c) indeg).2.length = indeg.length ∧
      ∀ j, (release succs c (ready.erase c) indeg).2.getD j 0 =
        if j ∈ succs.getD c [] then indeg.getD j 0 - 1 else indeg.getD j 0 := by
  have hss : ((succs.getD c []).mergeSort (· ≤ ·)).Nodup := List.nodup_mergeSort.2 (hd.nodup c)
  have hsl : ∀ s ∈ (succs.getD c []).mergeSort (· ≤ ·), s < indeg.length := fun s hs => by
    rw [h.indeg_length]
    exact (h.succ_of_ready hd hc (List.mem_mergeSort.1 hs)).1
  obtain ⟨hready, hlen, hget⟩ := foldl_releaseStep _ (ready.erase c) indeg hss hsl
  simp only [List.mem_mergeSort] at hget
  rw [release_eq]
  exact ⟨hready, hlen, hget⟩

theorem Kahn.indeg_release (hd : Dag k succs) (h : Kahn k succs placed ready indeg) {c : Nat}
    (hc : c ∈ ready) : ∀ c', c' < k → c' ∉ placed ++ [c] →
      (release succs c (ready.erase c) indeg).2.getD c' 0 = (List.range k).countP
        (fun a => a ∉ placed ++ [c] ∧ c' ∈ succs.getD a []) := by
  obtain ⟨hck, hcp, -⟩ := (h.ready_iff c).1 hc
  intro c' hc'k hc'p
  rw [(h.release_spec hd hc).2.2]
  have hc'p' : c' ∉ placed := fun hm => hc'p (List.mem_append_left _ hm)
  -- the count loses exactly the predecessor `c`, if it is one
  have hupd := countP_range_update (fun a => decide (a ∉ placed ∧ c' ∈ succs.getD a []))
    (fun a => decide (a ∉ placed ++ [c] ∧ c' ∈ succs.getD a [])) hck (fun b hb => by simp [hb])
  simp only [decide_eq_true_eq] at hupd
  rw [if_neg (show ¬(c ∉ placed ++ [c] ∧ c' ∈ succs.getD c []) from
    fun hq => hq.1 (List.mem_append_right _ (List.mem_singleton_self c)))] at hupd
  rw [h.indeg c' hc'k hc'p']
  split
  · rename_i hs
    rw [if_pos ⟨hcp, hs⟩] at hupd
    omega
  · rename_i hs
    rw [if_neg fun hp => hs hp.2] at hupd
    omega

theorem Kahn.ready_release (hd : Dag k succs) (h : Kahn k succs placed ready indeg) {c : Nat}
    (hc : c ∈ ready) : ∀ c', c' ∈ (release succs c (ready.erase c) indeg).1 ↔
      c' < k ∧ c' ∉ placed ++ [c] ∧ (release succs c (ready.erase c) indeg).2.getD c' 0 = 0 := by
  obtain ⟨hready, -, hget⟩ := h.release_spec hd hc
  intro c'
  rw [hready, List.mem_append, List.mem_filter, List.mem_mergeSort,
    List.Nodup.mem_erase_iff h.ready_nodup, hget]
  constructor
  · rintro (⟨hne, hc'⟩ | ⟨hs, hle⟩)
    · -- still ready: not a successor of `c`, so its in-degree is unchanged
      obtain ⟨hc'k, hc'p, h0⟩ := (h.ready_iff c').1 hc'
      refine ⟨hc'k, by simp [hc'p, hne], ?_⟩
      rw [if_neg (h.not_succ_of_ready hd hc' ((h.ready_iff c).1 hc).2.1), h0]
    · obtain ⟨hs1, hs2, hs3⟩ := h.succ_of_ready hd hc hs
      refine ⟨hs1, by simp [hs2, hs3], ?_⟩
      rw [if_pos hs]
      simp only [decide_eq_true_eq] at hle
      omega
  · rintro ⟨hc'k, hc'p, h0⟩
    have hc'p' : c' ∉ placed := fun hm => hc'p (List.mem_append_left _ hm)
    have hne : c' ≠ c := fun e => hc'p (by simp [e])
    split at h0
    · exact .inr ⟨by assumption, by simp only [decide_eq_true_eq]; omega⟩
    · exact .inl ⟨hne, (h.ready_iff c').2 ⟨hc'k, hc'p', h0⟩⟩

theorem Kahn.step (hd : Dag k succs) (h : Kahn k succs placed ready indeg) {c : Nat}
    (hc : c ∈ ready) :
    Kahn k succs (placed ++ [c]) (release succs c (ready.erase c) indeg).1
      (release succs c (ready.erase c) indeg).2 := by
  obtain ⟨hck, hcp, -⟩ := (h.ready_iff c).1 hc
  obtain ⟨hready, hlen, -⟩ := h.release_spec hd hc
  refine ⟨?_, ?_, ?_, h.ready_release hd hc, by rw [hlen, h.indeg_length], h.indeg_release hd hc, ?_⟩
  · exact List.nodup_append.2 ⟨h.placed_nodup, List.nodup_singleton c, fun a ha b hb hab => by
      rw [List.mem_singleton] at hb; subst hb hab; exact hcp ha⟩
  · intro c' hc'
    rcases List.mem_append.1 hc' with hc' | hc'
    · exact h.placed_lt c' hc'
    · rw [List.mem_singleton.1 hc']; exact hck
  · rw [hready]
    refine List.nodup_append.2 ⟨h.ready_nodup.erase c,
      (List.nodup_mergeSort.2 (hd.nodup c)).filter _, fun a ha b hb hab => ?_⟩
    subst hab
    exact h.not_succ_of_ready hd (List.mem_of_mem_erase ha) hcp
      (List.mem_mergeSort.1 (List.mem_of_mem_filter hb))
  · intro a c' hac hc'
    rcases List.mem_append.1 hc' with hc' | hc'
    · exact (h.ordered a c' hac hc').trans (List.sublist_append_left _ _)
    · rw [List.mem_singleton] at hc'
      subst hc'
      have ha : a ∈ placed := Classical.byContradiction fun ha =>
        h.not_succ_of_ready hd hc ha hac
      exact (List.singleton_sublist.2 ha).append (List.Sublist.refl [c'])

theorem placementOrder_spec (hd : Dag k succs) (priority : Nat → Nat) :
    ∀ (fuel : Nat) (placed ready indeg : List Nat), Kahn k succs placed ready indeg →
      k < fuel + placed.length →
      List.Perm (placed ++ placementOrder succs priority fuel ready indeg) (List.range k) ∧
        ∀ a c, c ∈ succs.getD a [] → List.Sublist [a, c] (placed ++ placementOrder succs priority fuel ready indeg)
  | 0, placed, ready, indeg, h, hfuel => by
    have hle : placed.length ≤ k := by
      simpa using h.placed_nodup.length_le_of_subset fun c hc =>
        List.mem_range.2 (h.placed_lt c hc)
    omega
  | fuel + 1, placed, ready, indeg, h, hfuel => by
    unfold placementOrder
    split
    · rename_i hnone
      have hready : ready = [] := by
        cases ready with
        | nil => rfl
        | cons c cs => exact absurd hnone (pickLatest_cons_ne_none priority c cs)
      have hall : ∀ m, m < k → m ∈ placed := fun m hm => Classical.byContradiction fun hmp => by
        obtain ⟨c, hc⟩ := h.exists_ready hd m hm hmp
        rw [hready] at hc
        cases hc
      rw [List.append_nil]
      refine ⟨(List.perm_ext_iff_of_nodup h.placed_nodup List.nodup_range).2 fun m => ?_,
        fun a c hac => ?_⟩
      · rw [List.mem_range]
        exact ⟨h.placed_lt m, hall m⟩
      · exact h.ordered a c hac (hall c (Nat.lt_trans (hd.lt a c hac) (hd.src_lt hac)))
    · rename_i c hc
      have h' := h.step hd (mem_of_pickLatest priority hc)
      obtain ⟨hperm, hord⟩ := placementOrder_spec hd priority fuel _ _ _ h'
        (by rw [List.length_append, List.length_singleton]; omega)
      rw [List.append_assoc, List.singleton_append] at hperm hord
      exact ⟨hperm, hord⟩

end Kahn

end ProtoLayout.Schedule
