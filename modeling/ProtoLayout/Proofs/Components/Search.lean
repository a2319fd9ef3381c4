import ProtoLayout.Schedule.Components
import Mathlib.Logic.Relation
import Mathlib.Data.List.GetD

/-!
The invariant of Tarjan's search, `Wf`, relative to the gray nodes whose visit is still
running, and one lemma for each step of the search.
-/

namespace ProtoLayout.Schedule

open Relation

def Succ (adj : List (List Nat)) (x y : Nat) : Prop := y ∈ adj.getD x []

def InRange (adj : List (List Nat)) : Prop := ∀ x y, Succ adj x y → y < adj.length

theorem inRange_iff {adj : List (List Nat)} : inRange adj = true ↔ InRange adj := by
  simp only [inRange, List.all_eq_true, decide_eq_true_eq, InRange, Succ,
    List.getD_eq_getElem?_getD]
  constructor
  · intro h x y hy
    rcases hx : adj[x]? with _ | ws
    · simp [hx] at hy
    · rw [hx, Option.getD_some] at hy
      exact h ws (List.mem_of_getElem? hx) y hy
  · intro h ws hws y hy
    obtain ⟨x, hx, rfl⟩ := List.getElem_of_mem hws
    exact h x y (by simpa [List.getElem?_eq_getElem hx] using hy)

theorem getD_set_of_lt {α : Type} {l : List α} {i j : Nat} {a d : α} (h : i < l.length) :
    (l.set i a).getD j d = if i = j then a else l.getD j d := by
  by_cases hij : i = j
  · subst hij; simp [List.getElem?_set_self h]
  · simp [List.getElem?_set_ne hij, hij]

namespace Search

def idx (s : Search) (x : Nat) : Option Nat := s.index.getD x none

def link (s : Search) (x : Nat) : Nat := s.low.getD x 0

def marked (s : Search) (x : Nat) : Bool := s.onStack.getD x false

def done (s : Search) : List Nat := s.comps.flatten

section Steps

variable {s : Search} {v x k : Nat}

@[simp] theorem push_counter : (s.push v).counter = s.counter + 1 := rfl
@[simp] theorem push_stack : (s.push v).stack = v :: s.stack := rfl
@[simp] theorem push_comps : (s.push v).comps = s.comps := rfl
@[simp] theorem push_done : (s.push v).done = s.done := rfl

theorem idx_push (h : v < s.index.length) :
    (s.push v).idx x = if v = x then some s.counter else s.idx x :=
  getD_set_of_lt h

theorem link_push (h : v < s.low.length) :
    (s.push v).link x = if v = x then s.counter else s.link x :=
  getD_set_of_lt h

theorem marked_push (h : v < s.onStack.length) :
    (s.push v).marked x = if v = x then true else s.marked x :=
  getD_set_of_lt h

@[simp] theorem lower_counter : (s.lower v k).counter = s.counter := rfl
@[simp] theorem lower_index : (s.lower v k).index = s.index := rfl
@[simp] theorem lower_stack : (s.lower v k).stack = s.stack := rfl
@[simp] theorem lower_onStack : (s.lower v k).onStack = s.onStack := rfl
@[simp] theorem lower_comps : (s.lower v k).comps = s.comps := rfl
@[simp] theorem lower_idx : (s.lower v k).idx x = s.idx x := rfl
@[simp] theorem lower_marked : (s.lower v k).marked x = s.marked x := rfl
@[simp] theorem lower_done : (s.lower v k).done = s.done := rfl
@[simp] theorem length_lower_low : (s.lower v k).low.length = s.low.length := by
  simp [lower]

theorem link_lower (h : v < s.low.length) :
    (s.lower v k).link x = if v = x then min (s.link v) k else s.link x :=
  getD_set_of_lt h

theorem follow_of_new {recur : Nat → Search → Search} {w : Nat} (h : s.idx w = none) :
    s.follow recur v w = (recur w s).lower v ((recur w s).link w) := by
  simp only [follow, show s.index.getD w none = none from h]; rfl

theorem follow_of_marked {recur : Nat → Search → Search} {w k : Nat} (h : s.idx w = some k)
    (hm : s.marked w = true) : s.follow recur v w = s.lower v k := by
  simp only [follow, show s.index.getD w none = some k from h,
    show s.onStack.getD w false = true from hm, if_true]

theorem follow_of_unmarked {recur : Nat → Search → Search} {w k : Nat} (h : s.idx w = some k)
    (hm : s.marked w = false) : s.follow recur v w = s := by
  simp only [follow, show s.index.getD w none = some k from h,
    show s.onStack.getD w false = false from hm]; rfl

theorem marked_set_false (o : List Bool) (w x : Nat) :
    (o.set w false).getD x false = if w = x then false else o.getD x false := by
  by_cases hw : w < o.length
  · exact getD_set_of_lt hw
  · have : o.set w false = o := List.set_eq_of_length_le (by omega)
    rw [this]
    split
    · subst_vars
      exact List.getD_eq_default _ _ (by omega)
    · rfl

theorem marked_foldl_set_false (ws : List Nat) (o : List Bool) (x : Nat) :
    (ws.foldl (fun o w => o.set w false) o).getD x false = if x ∈ ws then false else o.getD x false := by
  induction ws generalizing o with
  | nil => simp
  | cons w ws ih =>
    rw [List.foldl_cons, ih, marked_set_false]
    by_cases hx : x ∈ ws
    · simp [hx]
    · by_cases hw : w = x
      · subst hw; simp
      · simp [hx, hw, Ne.symm hw]

end Steps

end Search

/-- With `v` under `top`, popping takes off `top` and then `v`. -/
theorem popTo_eq (v : Nat) (rest : List Nat) :
    ∀ (top : List Nat) (onStack : List Bool) (acc : List Nat), v ∉ top →
      popTo v (top ++ v :: rest) onStack acc =
        (acc.reverse ++ top ++ [v], (top ++ [v]).foldl (fun o w => o.set w false) onStack, rest)
  | [], onStack, acc, _ => by simp [popTo]
  | w :: top, onStack, acc, hv => by
    have hw : w ≠ v := fun h => hv (h ▸ List.mem_cons_self ..)
    simp only [List.cons_append, popTo, hw, if_false, List.foldl_cons]
    rw [popTo_eq v rest top _ _ (fun h => hv (List.mem_cons_of_mem _ h))]
    simp

/-- Every seen node is on the stack or emitted, never both; a seen node that is not gray has its
successors seen; a node on the stack reaches a gray node; an emitted component is strongly
connected, its edges leading into itself or into components emitted before it. -/
structure Wf (adj : List (List Nat)) (gray : List Nat) (s : Search) : Prop where
  index_length : s.index.length = adj.length
  low_length : s.low.length = adj.length
  onStack_length : s.onStack.length = adj.length
  idx_lt : ∀ x k, s.idx x = some k → k < s.counter
  marked_iff : ∀ x, s.marked x = true ↔ x ∈ s.stack
  stack_nodup : s.stack.Nodup
  stack_seen : ∀ x ∈ s.stack, s.idx x ≠ none
  done_seen : ∀ x ∈ s.done, s.idx x ≠ none
  seen_stack : ∀ x, s.idx x ≠ none → (x ∈ s.stack ↔ x ∉ s.done)
  done_nodup : s.done.Nodup
  gray_stack : ∀ g ∈ gray, g ∈ s.stack
  finished : ∀ x y, s.idx x ≠ none → x ∉ gray → Succ adj x y → s.idx y ≠ none
  stack_reach : ∀ y ∈ s.stack, ∃ g ∈ gray, ReflTransGen (Succ adj) y g
  comp_reach : ∀ c ∈ s.comps, ∀ x ∈ c, ∀ y ∈ c, ReflTransGen (Succ adj) x y
  comp_closed : ∀ (i : Nat) (c : List Nat), s.comps[i]? = some c → ∀ x ∈ c, ∀ y, Succ adj x y →
    ∃ j ≤ i, ∃ c' : List Nat, s.comps[j]? = some c' ∧ y ∈ c'
  comp_ne : ∀ c ∈ s.comps, c ≠ []

/-- Indices stay, a new index is at least the earlier counter, and no node becomes unvisited. -/
structure Grows (s s' : Search) : Prop where
  idx : ∀ x k, s.idx x = some k → s'.idx x = some k
  fresh : ∀ x k, s.idx x = none → s'.idx x = some k → s.counter ≤ k
  counter : s.counter ≤ s'.counter
  unseen : s'.index.count none ≤ s.index.count none

theorem Grows.refl (s : Search) : Grows s s :=
  ⟨fun _ _ h => h, fun _ _ h h' => by simp [h] at h', Nat.le_refl _, Nat.le_refl _⟩

theorem Grows.trans {s₁ s₂ s₃ : Search} (h₁ : Grows s₁ s₂) (h₂ : Grows s₂ s₃) : Grows s₁ s₃ where
  idx x k h := h₂.idx x k (h₁.idx x k h)
  fresh x k h h' := by
    cases h₂' : s₂.idx x with
    | none => exact Nat.le_trans h₁.counter (h₂.fresh x k h₂' h')
    | some k₂ =>
      have hk := h₂.idx x k₂ h₂'
      rw [h'] at hk
      rw [Option.some.inj hk]
      exact h₁.fresh x k₂ h h₂'
  counter := Nat.le_trans h₁.counter h₂.counter
  unseen := Nat.le_trans h₂.unseen h₁.unseen

theorem Grows.seen {s s' : Search} (h : Grows s s') {x : Nat} (hx : s.idx x ≠ none) :
    s'.idx x ≠ none := by
  obtain ⟨k, hk⟩ := Option.ne_none_iff_exists'.1 hx
  rw [h.idx x k hk]
  simp

theorem Grows.lower (s : Search) (v k : Nat) : Grows s (s.lower v k) :=
  ⟨fun _ _ h => h, fun _ _ h h' => by simp [h] at h', Nat.le_refl _, Nat.le_refl _⟩

namespace Wf

variable {adj : List (List Nat)} {gray : List Nat} {s : Search}

theorem seen_lt (h : Wf adj gray s) {x : Nat} (hx : s.idx x ≠ none) : x < adj.length := by
  rw [← h.index_length]
  exact Nat.lt_of_not_le fun hle => hx (List.getD_eq_default _ _ hle)

theorem lower (h : Wf adj gray s) (v k : Nat) : Wf adj gray (s.lower v k) :=
  { h with low_length := by rw [Search.length_lower_low, h.low_length] }

theorem done_reach (h : Wf adj gray s) {x y : Nat} (hx : x ∈ s.done)
    (hxy : ReflTransGen (Succ adj) x y) : y ∈ s.done := by
  induction hxy with
  | refl => exact hx
  | tail _ hyz ih =>
    obtain ⟨c, hc, hyc⟩ := List.mem_flatten.1 ih
    obtain ⟨i, hi⟩ := List.getElem?_of_mem hc
    obtain ⟨j, -, c', hc', hzc'⟩ := h.comp_closed i c hi _ hyc _ hyz
    exact List.mem_flatten.2 ⟨c', List.mem_of_getElem? hc', hzc'⟩

theorem idx_push_eq (h : Wf adj gray s) {v : Nat} (hv : v < adj.length) (x : Nat) :
    (s.push v).idx x = if v = x then some s.counter else s.idx x :=
  Search.idx_push (by rw [h.index_length]; exact hv)

theorem not_mem_stack (h : Wf adj gray s) {v : Nat} (hnew : s.idx v = none) : v ∉ s.stack :=
  fun hmem => h.stack_seen v hmem hnew

theorem not_mem_done (h : Wf adj gray s) {v : Nat} (hnew : s.idx v = none) : v ∉ s.done :=
  fun hmem => h.done_seen v hmem hnew

section Push

variable {v : Nat} (h : Wf adj gray s) (hv : v < adj.length) (hnew : s.idx v = none)
include h hv hnew

theorem push : Wf adj (v :: gray) (s.push v) where
  index_length := by simp [Search.push, h.index_length]
  low_length := by simp [Search.push, h.low_length]
  onStack_length := by simp [Search.push, h.onStack_length]
  idx_lt x k hk := by
    rw [h.idx_push_eq hv] at hk
    split at hk
    · cases hk; simp
    · exact Nat.lt_succ_of_lt (h.idx_lt x k hk)
  marked_iff x := by
    rw [Search.marked_push (by rw [h.onStack_length]; exact hv), Search.push_stack]
    by_cases hx : v = x
    · simp [hx]
    · simp [hx, h.marked_iff x, Ne.symm hx]
  stack_nodup := List.nodup_cons.2 ⟨h.not_mem_stack hnew, h.stack_nodup⟩
  stack_seen x hx := by
    rw [h.idx_push_eq hv]
    split
    · simp
    · exact h.stack_seen x (List.mem_of_ne_of_mem (Ne.symm ‹_›) hx)
  done_seen x hx := by
    rw [h.idx_push_eq hv]
    split
    · simp
    · exact h.done_seen x hx
  seen_stack x hx := by
    rw [h.idx_push_eq hv] at hx
    rw [Search.push_stack, Search.push_done]
    by_cases hvx : v = x
    · subst hvx
      simp [h.not_mem_done hnew]
    · rw [if_neg hvx] at hx
      rw [List.mem_cons, h.seen_stack x hx]
      simp [Ne.symm hvx]
  done_nodup := h.done_nodup
  gray_stack g hg := by
    rcases List.mem_cons.1 hg with rfl | hg
    · exact List.mem_cons_self ..
    · exact List.mem_cons_of_mem _ (h.gray_stack g hg)
  finished x y hx hxg hxy := by
    have hvx : v ≠ x := fun e => hxg (e ▸ List.mem_cons_self ..)
    rw [h.idx_push_eq hv, if_neg hvx] at hx
    have hy := h.finished x y hx (fun hg => hxg (List.mem_cons_of_mem _ hg)) hxy
    rw [h.idx_push_eq hv]
    split
    · simp
    · exact hy
  stack_reach y hy := by
    rcases List.mem_cons.1 hy with rfl | hy
    · exact ⟨y, List.mem_cons_self .., ReflTransGen.refl⟩
    · obtain ⟨g, hg, hyg⟩ := h.stack_reach y hy
      exact ⟨g, List.mem_cons_of_mem _ hg, hyg⟩
  comp_reach := h.comp_reach
  comp_closed := h.comp_closed
  comp_ne := h.comp_ne

theorem count_push : (s.push v).index.count none + 1 = s.index.count none := by
  have hlt : v < s.index.length := by rw [h.index_length]; exact hv
  have hget : s.index[v] = none := by
    simpa [Search.idx, List.getElem?_eq_getElem hlt] using hnew
  simp only [Search.push]
  rw [List.count_set hlt, hget]
  have : 0 < s.index.count none := List.count_pos_iff.2 (hget ▸ List.getElem_mem hlt)
  simp
  omega

theorem grows_push : Grows s (s.push v) where
  idx x k hk := by
    rw [h.idx_push_eq hv, if_neg]
    · exact hk
    · rintro rfl
      rw [hnew] at hk
      cases hk
  fresh x k hx hk := by
    rw [h.idx_push_eq hv] at hk
    split at hk
    · cases hk; exact Nat.le_refl _
    · rw [hx] at hk; cases hk
  counter := Nat.le_succ _
  unseen := by have := h.count_push hv hnew; omega

end Push

end Wf

end ProtoLayout.Schedule
