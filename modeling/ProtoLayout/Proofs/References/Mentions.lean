import ProtoLayout.Schedule.Graph
import Mathlib.Logic.Relation
import Mathlib.Data.List.Sort

/-!
What a piece of script refers to: the declarations its nodes mention, at any depth.
-/

namespace ProtoLayout

open Script Relation

namespace Script.Node

def children : Node → List Node
  | .numeric _ | .string _ | .bool _ | .null | .undefined | .ident _ | .this
  | .typeRef _ _ | .comment _ _ => []
  | .binary l _ r => [l, r]
  | .unary _ x => [x]
  | .call f args => f :: args
  | .construct f args => f :: args
  | .member o _ => [o]
  | .index o k => [o, k]
  | .cond c a b => [c, a, b]
  | .paren x => [x]
  | .array xs => xs
  | .object props => props.map Prod.snd
  | .func _ _ body => body
  | .varDecl _ init => init.toList
  | .exprStmt x => [x]
  | .ret v => v.toList
  | .throw x => [x]
  | .ifStmt c t e => c :: t :: e.toList
  | .block xs => xs
  | .seq xs => xs

def ownTarget : Node → Option Nat
  | .typeRef t _ => t
  | _ => none

/-- A reference to `x` is `n` or lies inside it. -/
def Mentions (n : Node) (x : Nat) : Prop :=
  ∃ name, ReflTransGen (fun p c => c ∈ p.children) n (.typeRef (some x) name)

theorem sizeOf_lt_of_mem_children {n c : Node} (h : c ∈ n.children) : sizeOf c < sizeOf n := by
  cases n <;> simp only [children, List.mem_cons, List.mem_map, Option.mem_toList, List.not_mem_nil,
    or_false] at h
  case array | func | block | seq =>
    have := List.sizeOf_lt_of_mem h
    simp; omega
  case object =>
    obtain ⟨⟨k, v⟩, hk, rfl⟩ := h
    have := List.sizeOf_lt_of_mem hk
    simp at this ⊢; omega
  case call | construct =>
    rcases h with rfl | h
    · simp; omega
    · have := List.sizeOf_lt_of_mem h
      simp; omega
  case varDecl | ret => subst h; simp; omega
  all_goals rcases h with rfl | rfl | rfl <;> simp <;> omega

theorem children_induction {P : Node → Prop} (step : ∀ n, (∀ c ∈ n.children, P c) → P n)
    (n : Node) : P n :=
  step n fun c _ => children_induction step c
termination_by sizeOf n
decreasing_by exact sizeOf_lt_of_mem_children ‹_›

theorem targetsAll_eq (xs : List Node) : Node.targetsAll xs = xs.flatMap Node.targets := by
  induction xs with
  | nil => rfl
  | cons x xs ih => rw [Node.targetsAll, ih, List.flatMap_cons]

theorem targetsProps_eq (ps : List (Key × Node)) :
    Node.targetsProps ps = (ps.map Prod.snd).flatMap Node.targets := by
  induction ps with
  | nil => rfl
  | cons p ps ih => rw [Node.targetsProps, ih]; simp

/-- No part is skipped. -/
theorem targets_eq (n : Node) : n.targets = n.ownTarget.toList ++ n.children.flatMap targets := by
  rw [targets.eq_def]
  split <;> simp [ownTarget, children, targetsAll_eq, targetsProps_eq]

theorem mentions_iff {n : Node} {x : Nat} :
    n.Mentions x ↔ n.ownTarget = some x ∨ ∃ c ∈ n.children, c.Mentions x := by
  constructor
  · rintro ⟨name, h⟩
    rcases ReflTransGen.cases_head_iff.1 h with rfl | ⟨c, hc, h⟩
    · exact .inl rfl
    · exact .inr ⟨c, hc, name, h⟩
  · rintro (h | ⟨c, hc, name, h⟩)
    · rw [ownTarget.eq_def] at h
      split at h
      · subst h
        exact ⟨_, .refl⟩
      · cases h
    · exact ⟨name, .head hc h⟩

theorem mem_targets_iff (n : Node) (x : Nat) : x ∈ n.targets ↔ n.Mentions x := by
  induction n using children_induction with
  | step n ih =>
    rw [targets_eq, mentions_iff]
    simp only [List.mem_append, Option.mem_toList, List.mem_flatMap]
    constructor
    · rintro (h | ⟨c, hc, hx⟩)
      · exact .inl h
      · exact .inr ⟨c, hc, (ih c hc).1 hx⟩
    · rintro (h | ⟨c, hc, hx⟩)
      · exact .inl h
      · exact .inr ⟨c, hc, (ih c hc).2 hx⟩

end Script.Node

/-! ### Ascending lists without repeats -/

def Enumerates (P : Nat → Prop) (l : List Nat) : Prop :=
  l.Pairwise (· < ·) ∧ ∀ x, x ∈ l ↔ P x

theorem Enumerates.eq {P : Nat → Prop} {l l' : List Nat} (h : Enumerates P l)
    (h' : Enumerates P l') : l = l' :=
  h.1.eq_of_mem_iff h'.1 fun x => (h.2 x).trans (h'.2 x).symm

theorem mem_insertAsc {x y : Nat} : ∀ {l : List Nat}, y ∈ insertAsc x l ↔ y = x ∨ y ∈ l
  | [] => by simp [insertAsc]
  | z :: l => by
    unfold insertAsc
    split
    · simp
    · split
      · subst x; simp
      · simp only [List.mem_cons, mem_insertAsc]
        tauto

theorem pairwise_insertAsc (x : Nat) : ∀ {l : List Nat}, l.Pairwise (· < ·) →
    (insertAsc x l).Pairwise (· < ·)
  | [], _ => List.pairwise_singleton _ _
  | z :: l, h => by
    obtain ⟨hz, hl⟩ := List.pairwise_cons.1 h
    unfold insertAsc
    split
    · rename_i hxz
      exact List.Pairwise.cons (fun y hy => (List.mem_cons.1 hy).elim (· ▸ hxz)
        fun hy => hxz.trans (hz y hy)) h
    · split
      · exact h
      · refine List.Pairwise.cons (fun y hy => ?_) (pairwise_insertAsc x hl)
        rcases mem_insertAsc.1 hy with rfl | hy
        · omega
        · exact hz y hy

theorem ascending_enumerates (xs : List Nat) : Enumerates (· ∈ xs) (ascending xs) := by
  induction xs with
  | nil => exact ⟨List.Pairwise.nil, by simp [ascending]⟩
  | cons x xs ih =>
    refine ⟨pairwise_insertAsc x ih.1, fun y => ?_⟩
    change y ∈ insertAsc x (ascending xs) ↔ y ∈ x :: xs
    rw [mem_insertAsc, ih.2, List.mem_cons]

theorem references_enumerates (nodes : List Node) :
    Enumerates (fun x => ∃ n ∈ nodes, n.Mentions x) (references nodes) := by
  refine ⟨(ascending_enumerates _).1, fun x => ?_⟩
  change x ∈ ascending _ ↔ ∃ n ∈ nodes, n.Mentions x
  rw [(ascending_enumerates _).2]
  change x ∈ Node.targetsAll nodes ↔ _
  rw [Node.targetsAll_eq, List.mem_flatMap]
  exact exists_congr fun n => and_congr_right fun _ => Node.mem_targets_iff n x

theorem heritage_eq (b : ClassBody) : b.heritage = references (b.base.toList ++ b.interfaces) := by
  rw [ClassBody.heritage, references, Node.targetsAll_eq, Node.targetsAll_eq]
  cases b.base <;> simp

theorem heritage_enumerates (b : ClassBody) :
    Enumerates (fun x => ∃ n ∈ b.base.toList ++ b.interfaces, n.Mentions x) b.heritage := by
  rw [heritage_eq]
  exact references_enumerates _

namespace Schedule

/-- In a constructor body, a method body, or the static initialiser. -/
def MentionedIn (b : ClassBody) : Tier → Nat → Prop
  | .constructor, x => (∃ c, b.ctor = some c ∧ ∃ n ∈ c.body, n.Mentions x) ∨
      ∃ c ∈ b.namedCtors, ∃ n ∈ c.body, n.Mentions x
  | .staticMethod, x =>
      ∃ m ∈ b.staticMethods, ∃ body, m.body = some body ∧ ∃ n ∈ body, n.Mentions x
  | .instanceMethod, x =>
      ∃ m ∈ b.instanceMethods, ∃ body, m.body = some body ∧ ∃ n ∈ body, n.Mentions x
  | .staticInit, x => ∃ n ∈ b.staticInit, n.Mentions x

theorem exists_mem_flatMap_iff {α β : Type} {f : α → List β} {P : β → Prop} {xs : List α} :
    (∃ y ∈ xs.flatMap f, P y) ↔ ∃ x ∈ xs, ∃ y ∈ f x, P y := by
  simp only [List.mem_flatMap]
  exact ⟨fun ⟨y, ⟨x, hx, hy⟩, hp⟩ => ⟨x, hx, y, hy, hp⟩, fun ⟨x, hx, y, hy, hp⟩ => ⟨y, ⟨x, hx, hy⟩, hp⟩⟩

theorem exists_mem_getD_iff {β : Type} {P : β → Prop} {o : Option (List β)} :
    (∃ y ∈ o.getD [], P y) ↔ ∃ l, o = some l ∧ ∃ y ∈ l, P y := by
  cases o <;> simp

theorem mentions_tierScript_iff (b : ClassBody) (t : Tier) (x : Nat) :
    (∃ n ∈ tierScript b t, n.Mentions x) ↔ MentionedIn b t x := by
  cases t with
  | constructor =>
    simp only [tierScript, MentionedIn, List.mem_append, or_and_right, exists_or,
      exists_mem_flatMap_iff]
    cases b.ctor <;> simp
  | staticMethod | instanceMethod =>
    simp only [tierScript, MentionedIn, exists_mem_flatMap_iff, exists_mem_getD_iff]
  | staticInit => rfl

theorem tierReferences_enumerates (d : Decl) (t : Tier) :
    Enumerates (fun x => ∃ b, d.classBody? = some b ∧ MentionedIn b t x) (tierReferences d t) := by
  unfold tierReferences
  cases hd : d.classBody? with
  | none => exact ⟨List.Pairwise.nil, by simp⟩
  | some b =>
    refine ⟨(references_enumerates _).1, fun x => ?_⟩
    exact ((references_enumerates _).2 x).trans ((mentions_tierScript_iff b t x).trans (by simp))

end Schedule

end ProtoLayout
