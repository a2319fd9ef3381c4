import ProtoLayout.Proofs.Components.Search

/-!
One visit of Tarjan's search, with the invariant `Visiting` of its loop over the successors.
-/

namespace ProtoLayout.Schedule

open Relation

variable {adj : List (List Nat)} {gray : List Nat} {v : Nat}

/-- The nodes pushed since `v` lie above it, in `seg`; the link of `v` is its own index or the
index of a node below `v` that `v` reaches, no larger than that of any node below `v` that an
edge from above reaches. -/
structure Visiting (adj : List (List Nat)) (gray : List Nat) (v : Nat) (s₀ : Search)
    (followed seg : List Nat) (s : Search) : Prop where
  wf : Wf adj (v :: gray) s
  grows : Grows s₀ s
  v_new : s₀.idx v = none
  idx_v : s.idx v = some s₀.counter
  stack : s.stack = seg ++ v :: s₀.stack
  seg_new : ∀ x ∈ seg, s₀.idx x = none
  link_le : s.link v ≤ s₀.counter
  link_root : s.link v = s₀.counter ∨
    ∃ y ∈ s₀.stack, s.idx y = some (s.link v) ∧ ReflTransGen (Succ adj) v y
  seg_edge : ∀ x ∈ seg, ∀ y ∈ s₀.stack, Succ adj x y → ∀ k, s.idx y = some k → s.link v ≤ k
  followed_seen : ∀ y ∈ followed, s.idx y ≠ none
  followed_edge : ∀ y ∈ followed, y ∈ s₀.stack → ∀ k, s.idx y = some k → s.link v ≤ k
  reach_new : ∀ x, s.idx x ≠ none → s₀.idx x = none → ReflTransGen (Succ adj) v x
  link_old : ∀ x, s₀.idx x ≠ none → s.link x = s₀.link x
  unseen : s.index.count none < s₀.index.count none

structure Visited (adj : List (List Nat)) (gray : List Nat) (v : Nat) (s₀ s : Search) : Prop where
  wf : Wf adj gray s
  grows : Grows s₀ s
  idx_v : s.idx v = some s₀.counter
  seg : ∃ seg, s.stack = seg ++ s₀.stack ∧ (∀ x ∈ seg, s₀.idx x = none) ∧
    ((seg = [] ∧ s.link v = s₀.counter) ∨
      ∃ y ∈ s₀.stack, s.idx y = some (s.link v) ∧ ReflTransGen (Succ adj) v y) ∧
    ∀ x ∈ seg, ∀ y ∈ s₀.stack, Succ adj x y → ∀ k, s.idx y = some k → s.link v ≤ k
  reach_new : ∀ x, s.idx x ≠ none → s₀.idx x = none → ReflTransGen (Succ adj) v x
  link_old : ∀ x, s₀.idx x ≠ none → s.link x = s₀.link x
  unseen : s.index.count none < s₀.index.count none

def Search.emit (s : Search) (top rest : List Nat) : Search :=
  { s with
    stack := rest
    onStack := top.foldl (fun o w => o.set w false) s.onStack
    comps := s.comps ++ [top] }

namespace Search

variable {s : Search} {top rest : List Nat}

@[simp] theorem emit_index : (s.emit top rest).index = s.index := rfl
@[simp] theorem emit_counter : (s.emit top rest).counter = s.counter := rfl
@[simp] theorem emit_idx (x : Nat) : (s.emit top rest).idx x = s.idx x := rfl
@[simp] theorem emit_link (x : Nat) : (s.emit top rest).link x = s.link x := rfl
@[simp] theorem emit_stack : (s.emit top rest).stack = rest := rfl
@[simp] theorem emit_comps : (s.emit top rest).comps = s.comps ++ [top] := rfl
@[simp] theorem emit_done : (s.emit top rest).done = s.done ++ top := by simp [done]

theorem emit_marked (x : Nat) :
    (s.emit top rest).marked x = if x ∈ top then false else s.marked x :=
  marked_foldl_set_false top s.onStack x

theorem comp_closed_emit
    (hc : ∀ (i : Nat) (c : List Nat), s.comps[i]? = some c → ∀ x ∈ c, ∀ y, Succ adj x y →
      ∃ j ≤ i, ∃ c' : List Nat, s.comps[j]? = some c' ∧ y ∈ c')
    (htop : ∀ x ∈ top, ∀ y, Succ adj x y → y ∈ top ∨ y ∈ s.done) :
    ∀ (i : Nat) (c : List Nat), (s.emit top rest).comps[i]? = some c → ∀ x ∈ c, ∀ y,
      Succ adj x y → ∃ j ≤ i, ∃ c' : List Nat, (s.emit top rest).comps[j]? = some c' ∧ y ∈ c' := by
  intro i c hci x hx y hxy
  rw [emit_comps] at hci ⊢
  by_cases hi : i < s.comps.length
  · rw [List.getElem?_append_left hi] at hci
    obtain ⟨j, hji, c', hc', hy⟩ := hc i c hci x hx y hxy
    exact ⟨j, hji, c', by rw [List.getElem?_append_left (by omega)]; exact hc', hy⟩
  · -- past the old components there is only `top`
    rw [List.getElem?_append_right (by omega)] at hci
    have hi' : i - s.comps.length = 0 := by
      rcases h : i - s.comps.length with _ | k
      · rfl
      · rw [h] at hci; simp at hci
    rw [hi', List.getElem?_singleton, if_pos rfl, Option.some.injEq] at hci
    subst hci
    rcases htop x hx y hxy with hy | hy
    · exact ⟨i, Nat.le_refl _, top, by rw [List.getElem?_append_right (by omega), hi']; rfl, hy⟩
    · obtain ⟨c', hc', hyc'⟩ := List.mem_flatten.1 hy
      obtain ⟨j, hj⟩ := List.getElem?_of_mem hc'
      have hjl : j < s.comps.length := (List.getElem?_eq_some_iff.1 hj).1
      exact ⟨j, by omega, c', by rw [List.getElem?_append_left hjl]; exact hj, hyc'⟩

end Search

namespace Visiting

variable {s₀ s : Search} {followed seg : List Nat}

theorem start (h₀ : Wf adj gray s₀) (hv : v < adj.length) (hnew : s₀.idx v = none) :
    Visiting adj gray v s₀ [] [] (s₀.push v) where
  wf := h₀.push hv hnew
  grows := h₀.grows_push hv hnew
  v_new := hnew
  idx_v := by rw [h₀.idx_push_eq hv, if_pos rfl]
  stack := rfl
  seg_new := by simp
  link_le := Nat.le_of_eq (by rw [Search.link_push (by rw [h₀.low_length]; exact hv), if_pos rfl])
  link_root := .inl (by rw [Search.link_push (by rw [h₀.low_length]; exact hv), if_pos rfl])
  seg_edge := by simp
  followed_seen := by simp
  followed_edge := by simp
  reach_new x hx hx₀ := by
    rw [h₀.idx_push_eq hv] at hx
    by_cases hvx : v = x
    · exact hvx ▸ ReflTransGen.refl
    · rw [if_neg hvx] at hx; exact absurd hx₀ hx
  link_old x hx := by
    rw [Search.link_push (by rw [h₀.low_length]; exact hv), if_neg]
    rintro rfl; exact hx hnew
  unseen := by have := h₀.count_push hv hnew; omega

theorem ne_of_old (hV : Visiting adj gray v s₀ followed seg s) {x : Nat} (hx : s₀.idx x ≠ none) :
    x ≠ v := by
  rintro rfl; exact hx hV.v_new

theorem counter_lt (hV : Visiting adj gray v s₀ followed seg s) : s₀.counter < s.counter :=
  hV.wf.idx_lt v _ hV.idx_v

theorem mem_old (hV : Visiting adj gray v s₀ followed seg s) {y k : Nat} (hy : y ∈ s.stack)
    (hk : s.idx y = some k) (hlt : k < s₀.counter) : y ∈ s₀.stack := by
  rw [hV.stack] at hy
  rcases List.mem_append.1 hy with hy | hy
  · exact absurd (hV.grows.fresh y k (hV.seg_new y hy) hk) (Nat.not_le.2 hlt)
  · rcases List.mem_cons.1 hy with rfl | hy
    · rw [hV.idx_v] at hk; cases hk; exact absurd hlt (Nat.lt_irrefl _)
    · exact hy

theorem old_idx (hV : Visiting adj gray v s₀ followed seg s) (h₀ : Wf adj gray s₀) {y : Nat}
    (hy : y ∈ s₀.stack) : ∃ k, s₀.idx y = some k ∧ s.idx y = some k ∧ k < s₀.counter := by
  obtain ⟨k, hk⟩ := Option.ne_none_iff_exists'.1 (h₀.stack_seen y hy)
  exact ⟨k, hk, hV.grows.idx y k hk, h₀.idx_lt y k hk⟩

theorem link_lower_v (hV : Visiting adj gray v s₀ followed seg s) (k : Nat) :
    (s.lower v k).link v = min (s.link v) k := by
  rw [Search.link_lower (by rw [hV.wf.low_length]; exact hV.wf.seen_lt (by simp [hV.idx_v])),
    if_pos rfl]

theorem link_lower_old (hV : Visiting adj gray v s₀ followed seg s) (k : Nat) {x : Nat}
    (hx : x ≠ v) : (s.lower v k).link x = s.link x := by
  rw [Search.link_lower (by rw [hV.wf.low_length]; exact hV.wf.seen_lt (by simp [hV.idx_v])),
    if_neg (Ne.symm hx)]

theorem lower (hV : Visiting adj gray v s₀ followed seg s) {k : Nat}
    (hk : s.link v ≤ k ∨ ∃ y ∈ s₀.stack, s.idx y = some k ∧ ReflTransGen (Succ adj) v y) :
    Visiting adj gray v s₀ followed seg (s.lower v k) where
  wf := hV.wf.lower v k
  grows := hV.grows.trans (Grows.lower s v k)
  v_new := hV.v_new
  idx_v := hV.idx_v
  stack := hV.stack
  seg_new := hV.seg_new
  link_le := by rw [hV.link_lower_v]; exact Nat.le_trans (Nat.min_le_left _ _) hV.link_le
  link_root := by
    rw [hV.link_lower_v]
    by_cases hlt : k < s.link v
    · rw [Nat.min_eq_right (Nat.le_of_lt hlt)]
      rcases hk with hk | hk
      · exact absurd hk (Nat.not_le.2 hlt)
      · exact .inr hk
    · rw [Nat.min_eq_left (Nat.le_of_not_lt hlt)]
      exact hV.link_root
  seg_edge x hx y hy hxy j hj := by
    rw [hV.link_lower_v]
    exact Nat.le_trans (Nat.min_le_left _ _) (hV.seg_edge x hx y hy hxy j hj)
  followed_seen := hV.followed_seen
  followed_edge y hy hy₀ j hj := by
    rw [hV.link_lower_v]
    exact Nat.le_trans (Nat.min_le_left _ _) (hV.followed_edge y hy hy₀ j hj)
  reach_new := hV.reach_new
  link_old x hx := by
    rw [hV.link_lower_old k (hV.ne_of_old hx)]
    exact hV.link_old x hx
  unseen := hV.unseen

theorem follow_to (hV : Visiting adj gray v s₀ followed seg s) {w : Nat} (hw : s.idx w ≠ none)
    (hle : w ∈ s₀.stack → ∀ k, s.idx w = some k → s.link v ≤ k) :
    Visiting adj gray v s₀ (followed ++ [w]) seg s :=
  { hV with
    followed_seen := fun y hy => by
      rcases List.mem_append.1 hy with hy | hy
      · exact hV.followed_seen y hy
      · rw [List.mem_singleton.1 hy]; exact hw
    followed_edge := fun y hy => by
      rcases List.mem_append.1 hy with hy | hy
      · exact hV.followed_edge y hy
      · rw [List.mem_singleton.1 hy]; exact hle }

theorem follow_stacked (hV : Visiting adj gray v s₀ followed seg s) {w wi : Nat}
    (hw : Succ adj v w) (hwi : s.idx w = some wi) (hm : s.marked w = true) :
    Visiting adj gray v s₀ (followed ++ [w]) seg (s.lower v wi) := by
  have hk : s.link v ≤ wi ∨ ∃ y ∈ s₀.stack, s.idx y = some wi ∧ ReflTransGen (Succ adj) v y := by
    by_cases hle : s.link v ≤ wi
    · exact .inl hle
    · refine .inr ⟨w, hV.mem_old ((hV.wf.marked_iff w).1 hm) hwi ?_, hwi, .single hw⟩
      exact Nat.lt_of_lt_of_le (Nat.lt_of_not_le hle) hV.link_le
  refine (hV.lower hk).follow_to (by simp [hwi]) fun _ k hk' => ?_
  rw [Search.lower_idx, hwi, Option.some.injEq] at hk'
  rw [hV.link_lower_v, ← hk']
  exact Nat.min_le_right _ _

theorem follow_emitted (hV : Visiting adj gray v s₀ followed seg s) {w wi : Nat}
    (hwi : s.idx w = some wi) (hm : s.marked w = false) :
    Visiting adj gray v s₀ (followed ++ [w]) seg s := by
  refine hV.follow_to (by simp [hwi]) fun hw₀ => ?_
  have : s.marked w = true := (hV.wf.marked_iff w).2 (by rw [hV.stack]; simp [hw₀])
  rw [hm] at this
  cases this

theorem follow_new (hV : Visiting adj gray v s₀ followed seg s) (h₀ : Wf adj gray s₀)
    {w : Nat} (hw : Succ adj v w) (hnew : s.idx w = none) {s₂ : Search}
    (hc : Visited adj (v :: gray) w s s₂) :
    ∃ seg', Visiting adj gray v s₀ (followed ++ [w]) seg' (s₂.lower v (s₂.link w)) := by
  obtain ⟨segw, hst, hsegw, hroot, hedge⟩ := hc.seg
  have hvs : s.idx v ≠ none := by simp [hV.idx_v]
  have hlink : (s₂.lower v (s₂.link w)).link v = min (s.link v) (s₂.link w) := by
    rw [Search.link_lower (by rw [hc.wf.low_length]; exact hV.wf.seen_lt hvs), if_pos rfl,
      hc.link_old v hvs]
  have hidx : ∀ x k, s.idx x = some k → (s₂.lower v (s₂.link w)).idx x = some k :=
    fun x k hk => hc.grows.idx x k hk
  have hold : ∀ y ∈ s₀.stack, ∀ k, (s₂.lower v (s₂.link w)).idx y = some k → s.idx y = some k := by
    intro y hy k hk
    obtain ⟨k', -, hk', -⟩ := hV.old_idx h₀ hy
    rw [hidx y k' hk'] at hk
    rwa [← Option.some.inj hk]
  refine ⟨segw ++ seg, ?_⟩
  exact
  { wf := hc.wf.lower v _
    grows := hV.grows.trans (hc.grows.trans (Grows.lower _ _ _))
    v_new := hV.v_new
    idx_v := hidx v _ hV.idx_v
    stack := by simp [hst, hV.stack]
    seg_new := fun x hx => by
      rcases List.mem_append.1 hx with hx | hx
      · exact Classical.byContradiction fun hx₀ => hV.grows.seen hx₀ (hsegw x hx)
      · exact hV.seg_new x hx
    link_le := by rw [hlink]; exact Nat.le_trans (Nat.min_le_left _ _) hV.link_le
    link_root := by
      rw [hlink]
      by_cases hlt : s₂.link w < s.link v
      · rw [Nat.min_eq_right (Nat.le_of_lt hlt)]
        refine .inr ?_
        rcases hroot with ⟨-, hw₂⟩ | ⟨y, hy, hyk, hwy⟩
        · have := hV.counter_lt
          have := hV.link_le
          omega
        · obtain ⟨k, hk⟩ := Option.ne_none_iff_exists'.1 (hV.wf.stack_seen y hy)
          have hk₂ := hc.grows.idx y k hk
          rw [hyk, Option.some.injEq] at hk₂
          subst hk₂
          refine ⟨y, hV.mem_old hy hk (Nat.lt_of_lt_of_le hlt hV.link_le), hyk, .head hw hwy⟩
      · rw [Nat.min_eq_left (Nat.le_of_not_lt hlt)]
        rcases hV.link_root with h | ⟨y, hy, hyk, hvy⟩
        · exact .inl h
        · exact .inr ⟨y, hy, hidx y _ hyk, hvy⟩
    seg_edge := fun x hx y hy hxy k hk => by
      rw [hlink]
      rcases List.mem_append.1 hx with hx | hx
      · exact Nat.le_trans (Nat.min_le_right _ _)
          (hedge x hx y (by rw [hV.stack]; simp [hy]) hxy k hk)
      · exact Nat.le_trans (Nat.min_le_left _ _) (hV.seg_edge x hx y hy hxy k (hold y hy k hk))
    followed_seen := fun y hy => by
      rcases List.mem_append.1 hy with hy | hy
      · exact hc.grows.seen (hV.followed_seen y hy)
      · rw [List.mem_singleton.1 hy]; simp [hc.idx_v]
    followed_edge := fun y hy hy₀ k hk => by
      rw [hlink]
      rcases List.mem_append.1 hy with hy | hy
      · exact Nat.le_trans (Nat.min_le_left _ _) (hV.followed_edge y hy hy₀ k (hold y hy₀ k hk))
      · rw [List.mem_singleton.1 hy] at hy₀
        obtain ⟨k', -, hk', -⟩ := hV.old_idx h₀ hy₀
        rw [hnew] at hk'
        cases hk'
    reach_new := fun x hx hx₀ => by
      by_cases hxs : s.idx x = none
      · exact .head hw (hc.reach_new x hx hxs)
      · exact hV.reach_new x hxs hx₀
    link_old := fun x hx => by
      rw [Search.link_lower (by rw [hc.wf.low_length]; exact hV.wf.seen_lt hvs),
        if_neg (Ne.symm (hV.ne_of_old hx)), hc.link_old x (hV.grows.seen hx)]
      exact hV.link_old x hx
    unseen := Nat.lt_trans hc.unseen hV.unseen }

theorem foldl {recur : Nat → Search → Search}
    (hstep : ∀ followed seg s w, Visiting adj gray v s₀ followed seg s → Succ adj v w →
      ∃ seg', Visiting adj gray v s₀ (followed ++ [w]) seg' (s.follow recur v w)) :
    ∀ (ws followed seg : List Nat) (s : Search), (∀ w ∈ ws, Succ adj v w) →
      Visiting adj gray v s₀ followed seg s →
      ∃ seg', Visiting adj gray v s₀ (followed ++ ws) seg' (ws.foldl (Search.follow recur v) s)
  | [], followed, seg, s, _, hV => ⟨seg, by simpa using hV⟩
  | w :: ws, followed, seg, s, hws, hV => by
    obtain ⟨seg', hV'⟩ := hstep followed seg s w hV (hws w (List.mem_cons_self ..))
    obtain ⟨seg'', hV''⟩ :=
      foldl hstep ws _ seg' _ (fun w' hw' => hws w' (List.mem_cons_of_mem _ hw')) hV'
    exact ⟨seg'', by simpa using hV''⟩

theorem top_nodup (hV : Visiting adj gray v s₀ followed seg s) :
    (seg ++ [v]).Nodup ∧ ∀ x ∈ seg ++ [v], x ∉ s₀.stack := by
  have hnd := hV.wf.stack_nodup
  rw [hV.stack, show seg ++ v :: s₀.stack = seg ++ [v] ++ s₀.stack by simp,
    List.nodup_append] at hnd
  exact ⟨hnd.1, fun x hx hx₀ => hnd.2.2 x hx x hx₀ rfl⟩

theorem mem_top_stack (hV : Visiting adj gray v s₀ followed seg s) {x : Nat}
    (hx : x ∈ seg ++ [v]) : x ∈ s.stack := by
  rw [hV.stack]
  rcases List.mem_append.1 hx with hx | hx
  · exact List.mem_append_left _ hx
  · rw [List.mem_singleton.1 hx]; simp

theorem not_gray_of_mem_top (hV : Visiting adj gray v s₀ followed seg s) (h₀ : Wf adj gray s₀)
    {x : Nat} (hx : x ∈ seg) : x ∉ v :: gray := by
  intro hxg
  have hxt : x ∈ seg ++ [v] := List.mem_append_left _ hx
  rcases List.mem_cons.1 hxg with rfl | hxg
  · have := (List.nodup_append.1 hV.top_nodup.1).2.2 x hx x (List.mem_singleton_self _)
    exact this rfl
  · exact hV.top_nodup.2 x hxt (h₀.gray_stack x hxg)

theorem top_finished (hV : Visiting adj gray v s₀ (adj.getD v []) seg s) (h₀ : Wf adj gray s₀)
    {x y : Nat} (hx : x ∈ seg ++ [v]) (hxy : Succ adj x y) : s.idx y ≠ none := by
  rcases List.mem_append.1 hx with hx | hx
  · exact hV.wf.finished x y (hV.wf.stack_seen x (hV.mem_top_stack (List.mem_append_left _ hx)))
      (hV.not_gray_of_mem_top h₀ hx) hxy
  · rw [List.mem_singleton.1 hx] at hxy
    exact hV.followed_seen y hxy

/-- An edge into the stack below `v` would have lowered the link of `v`. -/
theorem reach_closed (hV : Visiting adj gray v s₀ (adj.getD v []) seg s) (h₀ : Wf adj gray s₀)
    (hroot : s.link v = s₀.counter) {x y : Nat} (hx : x ∈ seg ++ [v])
    (hxy : ReflTransGen (Succ adj) x y) : y ∈ seg ++ [v] ∨ y ∈ s.done := by
  induction hxy with
  | refl => exact .inl hx
  | @tail z y _ hzy ih =>
    rcases ih with hz | hz
    · have hys := hV.top_finished h₀ hz hzy
      by_cases hyd : y ∈ s.done
      · exact .inr hyd
      · have hyst := (hV.wf.seen_stack y hys).2 hyd
        rw [hV.stack] at hyst
        rcases List.mem_append.1 hyst with hy | hy
        · exact .inl (List.mem_append_left _ hy)
        · rcases List.mem_cons.1 hy with rfl | hy₀
          · exact .inl (List.mem_append_right _ (List.mem_singleton_self _))
          · obtain ⟨k, -, hk, hlt⟩ := hV.old_idx h₀ hy₀
            have hle : s.link v ≤ k := by
              rcases List.mem_append.1 hz with hz | hz
              · exact hV.seg_edge z hz y hy₀ hzy k hk
              · rw [List.mem_singleton.1 hz] at hzy
                exact hV.followed_edge y hzy hy₀ k hk
            omega
    · exact .inr (hV.wf.done_reach hz (.single hzy))

theorem reach_root (hV : Visiting adj gray v s₀ (adj.getD v []) seg s) (h₀ : Wf adj gray s₀)
    (hroot : s.link v = s₀.counter) {x : Nat} (hx : x ∈ seg ++ [v]) :
    ReflTransGen (Succ adj) x v := by
  obtain ⟨g, hg, hxg⟩ := hV.wf.stack_reach x (hV.mem_top_stack hx)
  rcases List.mem_cons.1 hg with rfl | hg
  · exact hxg
  · have hg₀ := h₀.gray_stack g hg
    rcases hV.reach_closed h₀ hroot hx hxg with hgt | hgd
    · exact absurd hg₀ (hV.top_nodup.2 g hgt)
    · have hgs : g ∈ s.stack := by rw [hV.stack]; simp [hg₀]
      exact absurd hgd ((hV.wf.seen_stack g (hV.wf.stack_seen g hgs)).1 hgs)

theorem close_root (hV : Visiting adj gray v s₀ followed seg s) (hroot : s.link v = s₀.counter) :
    s.close v = s.emit (seg ++ [v]) s₀.stack := by
  have hv : v ∉ seg := fun h =>
    (List.nodup_append.1 hV.top_nodup.1).2.2 v h v (List.mem_singleton_self _) rfl
  have hcond : (s.index.getD v none == some (s.low.getD v 0)) = true := by
    show (s.idx v == some (s.link v)) = true
    rw [hV.idx_v, hroot]; simp
  simp only [Search.close, hcond, if_true, hV.stack, popTo_eq v s₀.stack seg s.onStack [] hv]
  simp [Search.emit]

theorem close_not_root (hV : Visiting adj gray v s₀ followed seg s)
    (hroot : s.link v ≠ s₀.counter) : s.close v = s := by
  have hcond : (s.index.getD v none == some (s.low.getD v 0)) = false := by
    show (s.idx v == some (s.link v)) = false
    rw [hV.idx_v]; simp [Ne.symm hroot]
  simp only [Search.close, hcond]
  rfl

theorem length_foldl_set (ws : List Nat) (o : List Bool) :
    (ws.foldl (fun o w => o.set w false) o).length = o.length := by
  induction ws generalizing o with
  | nil => rfl
  | cons w ws ih => rw [List.foldl_cons, ih, List.length_set]

theorem wf_root (hV : Visiting adj gray v s₀ (adj.getD v []) seg s) (h₀ : Wf adj gray s₀)
    (hroot : s.link v = s₀.counter) : Wf adj gray (s.emit (seg ++ [v]) s₀.stack) := by
  obtain ⟨htnd, htold⟩ := hV.top_nodup
  have htdone : ∀ x ∈ seg ++ [v], x ∉ s.done := fun x hx =>
    (hV.wf.seen_stack x (hV.wf.stack_seen x (hV.mem_top_stack hx))).1 (hV.mem_top_stack hx)
  have hreach : ∀ x ∈ seg ++ [v], ReflTransGen (Succ adj) v x := by
    intro x hx
    rcases List.mem_append.1 hx with hx | hx
    · exact hV.reach_new x (hV.wf.stack_seen x (hV.mem_top_stack (List.mem_append_left _ hx)))
        (hV.seg_new x hx)
    · rw [List.mem_singleton.1 hx]
  exact
  { index_length := hV.wf.index_length
    low_length := hV.wf.low_length
    onStack_length := by
      rw [← hV.wf.onStack_length]; exact length_foldl_set _ _
    idx_lt := hV.wf.idx_lt
    marked_iff := fun x => by
      rw [Search.emit_marked, Search.emit_stack]
      by_cases hx : x ∈ seg ++ [v]
      · simp [hx, htold x hx]
      · rw [if_neg hx, hV.wf.marked_iff, hV.stack]
        simp only [List.mem_append, List.mem_singleton, not_or] at hx
        simp [hx.1, hx.2]
    stack_nodup := h₀.stack_nodup
    stack_seen := fun x hx => hV.grows.seen (h₀.stack_seen x hx)
    done_seen := fun x hx => by
      rw [Search.emit_done] at hx
      rcases List.mem_append.1 hx with hx | hx
      · exact hV.wf.done_seen x hx
      · exact hV.wf.stack_seen x (hV.mem_top_stack hx)
    seen_stack := fun x hx => by
      rw [Search.emit_done, Search.emit_stack]
      constructor
      · intro hx₀ hxd
        rcases List.mem_append.1 hxd with hxd | hxt
        · exact (hV.wf.seen_stack x hx).1 (by rw [hV.stack]; simp [hx₀]) hxd
        · exact htold x hxt hx₀
      · intro hxd
        have hxs := (hV.wf.seen_stack x hx).2 (fun h => hxd (List.mem_append_left _ h))
        rw [hV.stack] at hxs
        rcases List.mem_append.1 hxs with hxs | hxs
        · exact absurd (List.mem_append_right _ (List.mem_append_left _ hxs)) hxd
        · rcases List.mem_cons.1 hxs with rfl | hxs
          · exact absurd (List.mem_append_right _ (by simp)) hxd
          · exact hxs
    done_nodup := by
      rw [Search.emit_done, List.nodup_append]
      exact ⟨hV.wf.done_nodup, htnd, fun a ha b hb hab => htdone b hb (hab ▸ ha)⟩
    gray_stack := h₀.gray_stack
    finished := fun x y hx hxg hxy => by
      by_cases hxv : x = v
      · rw [hxv] at hxy; exact hV.followed_seen y hxy
      · exact hV.wf.finished x y hx (by simp [hxv, hxg]) hxy
    stack_reach := h₀.stack_reach
    comp_reach := fun c hc x hx y hy => by
      rw [Search.emit_comps] at hc
      rcases List.mem_append.1 hc with hc | hc
      · exact hV.wf.comp_reach c hc x hx y hy
      · rw [List.mem_singleton.1 hc] at hx hy
        exact (hV.reach_root h₀ hroot hx).trans (hreach y hy)
    comp_closed := Search.comp_closed_emit hV.wf.comp_closed fun x hx y hxy =>
      hV.reach_closed h₀ hroot hx (.single hxy)
    comp_ne := fun c hc => by
      rw [Search.emit_comps] at hc
      rcases List.mem_append.1 hc with hc | hc
      · exact hV.wf.comp_ne c hc
      · rw [List.mem_singleton.1 hc]; simp }

theorem visited (hV : Visiting adj gray v s₀ (adj.getD v []) seg s) (h₀ : Wf adj gray s₀) :
    Visited adj gray v s₀ (s.close v) := by
  by_cases hroot : s.link v = s₀.counter
  · rw [hV.close_root hroot]
    exact
    { wf := hV.wf_root h₀ hroot
      grows := ⟨hV.grows.idx, hV.grows.fresh, hV.grows.counter, hV.grows.unseen⟩
      idx_v := hV.idx_v
      seg := ⟨[], rfl, by simp, .inl ⟨rfl, hroot⟩, by simp⟩
      reach_new := hV.reach_new
      link_old := hV.link_old
      unseen := hV.unseen }
  · rw [hV.close_not_root hroot]
    -- `v` stays on the stack, and reaches a node below it, which reaches a gray node
    obtain ⟨y, hy, hyk, hvy⟩ := hV.link_root.resolve_left hroot
    exact
    { wf :=
      { hV.wf with
        gray_stack := fun g hg => hV.wf.gray_stack g (List.mem_cons_of_mem _ hg)
        finished := fun x z hx hxg hxz => by
          by_cases hxv : x = v
          · rw [hxv] at hxz; exact hV.followed_seen z hxz
          · exact hV.wf.finished x z hx (by simp [hxv, hxg]) hxz
        stack_reach := fun x hx => by
          obtain ⟨g, hg, hxg⟩ := hV.wf.stack_reach x hx
          rcases List.mem_cons.1 hg with rfl | hg
          · obtain ⟨g', hg', hyg'⟩ := h₀.stack_reach y hy
            exact ⟨g', hg', hxg.trans (hvy.trans hyg')⟩
          · exact ⟨g, hg, hxg⟩ }
      grows := hV.grows
      idx_v := hV.idx_v
      seg := ⟨seg ++ [v], by rw [hV.stack]; simp, fun x hx => by
          rcases List.mem_append.1 hx with hx | hx
          · exact hV.seg_new x hx
          · rw [List.mem_singleton.1 hx]; exact hV.v_new,
        .inr ⟨y, hy, hyk, hvy⟩, fun x hx z hz hxz k hk => by
          rcases List.mem_append.1 hx with hx | hx
          · exact hV.seg_edge x hx z hz hxz k hk
          · rw [List.mem_singleton.1 hx] at hxz
            exact hV.followed_edge z hxz hz k hk⟩
      reach_new := hV.reach_new
      link_old := hV.link_old
      unseen := hV.unseen }

end Visiting

/-- Fuel above the number of unvisited nodes suffices. -/
theorem visit_visited (hadj : InRange adj) :
    ∀ (fuel v : Nat) (gray : List Nat) (s : Search), Wf adj gray s → v < adj.length →
      s.idx v = none → s.index.count none < fuel → Visited adj gray v s (visit adj fuel v s)
  | 0, _, _, _, _, _, _, hfuel => absurd hfuel (Nat.not_lt_zero _)
  | fuel + 1, v, gray, s, h, hv, hnew, hfuel => by
    have hstart := Visiting.start h hv hnew
    obtain ⟨seg, hV⟩ := Visiting.foldl
      (fun followed seg s' w hV' hw => by
        cases hwi : s'.idx w with
        | none =>
          have hc := visit_visited hadj fuel w (v :: gray) s' hV'.wf (hadj v w hw) hwi
            (by have := hV'.unseen; omega)
          rw [Search.follow_of_new hwi]
          exact hV'.follow_new h hw hwi hc
        | some wi =>
          cases hm : s'.marked w
          · rw [Search.follow_of_unmarked hwi hm]
            exact ⟨seg, hV'.follow_emitted hwi hm⟩
          · rw [Search.follow_of_marked hwi hm]
            exact ⟨seg, hV'.follow_stacked hw hwi hm⟩)
      (adj.getD v []) [] [] (s.push v) (fun w hw => hw) hstart
    exact hV.visited h

end ProtoLayout.Schedule
