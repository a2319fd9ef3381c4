import ProtoLayout.Proofs.Declaration.Depth
import ProtoLayout.Proofs.Namespace.Display
import ProtoLayout.Proofs.Layout.Statements

/-!
The declaration order puts a declaration after everything it inherits from.
-/

namespace ProtoLayout.Schedule

open Relation

section Keyed

variable {α : Type} (key : α → Nat)

theorem keyLe_trans (a b c : α) (hab : decide (key a ≤ key b) = true)
    (hbc : decide (key b ≤ key c) = true) : decide (key a ≤ key c) = true := by
  simp only [decide_eq_true_eq] at *
  omega

theorem keyLe_total (a b : α) : (decide (key a ≤ key b) || decide (key b ≤ key a)) = true := by
  simp only [Bool.or_eq_true, decide_eq_true_eq]
  omega

theorem filter_mergeSort_key (l : List α) (k : Nat) :
    (l.mergeSort fun i j => key i ≤ key j).filter (key · = k) = l.filter (key · = k) := by
  -- the elements of one key are in order already, so the sort keeps them as a sublist
  have hpair : (l.filter (key · = k)).Pairwise fun i j => decide (key i ≤ key j) = true :=
    List.pairwise_filter.2 <| List.pairwise_of_forall fun i j hi hj => by
      simp only [decide_eq_true_eq] at hi hj ⊢
      omega
  have hsub := (List.sublist_mergeSort (keyLe_trans key) (keyLe_total key) hpair
    List.filter_sublist).filter (key · = k)
  simp only [List.filter_filter, Bool.and_self] at hsub
  have hlen := ((List.mergeSort_perm l fun i j => key i ≤ key j).filter (key · = k)).length_eq
  exact (hsub.eq_of_length hlen.symm).symm

theorem not_pair_sublist_mergeSort_key (l : List α) {a c : α} (h : key c < key a) :
    ¬List.Sublist [a, c] (l.mergeSort fun i j => key i ≤ key j) := by
  intro hac
  have hle := List.pairwise_iff_forall_sublist.1
    (List.pairwise_mergeSort (keyLe_trans key) (keyLe_total key) l) hac
  simp only [decide_eq_true_eq] at hle
  omega

theorem pair_sublist_swap {a c : α} : ∀ {l : List α}, a ∈ l → c ∈ l → a ≠ c →
    ¬List.Sublist [a, c] l → List.Sublist [c, a] l
  | x :: l, ha, hc, hne, hac => by
    rcases List.mem_cons.1 ha with rfl | hal
    · have hcl : c ∈ l := (List.mem_cons.1 hc).resolve_left (Ne.symm hne)
      exact absurd (List.cons_sublist_cons.2 (List.singleton_sublist.2 hcl)) hac
    rcases List.mem_cons.1 hc with rfl | hcl
    · exact List.cons_sublist_cons.2 (List.singleton_sublist.2 hal)
    · exact (pair_sublist_swap hal hcl hne fun h => hac (h.cons x)).cons x

end Keyed

section Depth

variable {b : Batch} {baseline : List Nat}

theorem declarationOrder_eq_fullDepth (hbase : ∀ i ∈ baseline, i < b.size) :
    declarationOrder b baseline =
      baseline.mergeSort fun i j => fullDepth b baseline i ≤ fullDepth b baseline j := by
  -- the two keys agree on the baseline, which is all the sort compares
  have h := @List.map_mergeSort Nat Nat
    (fun i j => depthKey (depths b baseline) i ≤ depthKey (depths b baseline) j)
    (fun i j => fullDepth b baseline i ≤ fullDepth b baseline j) id baseline
    fun i hi j hj => by rw [id, id, fullDepth_eq hbase hi, fullDepth_eq hbase hj]
  rw [List.map_id, List.map_id] at h
  rw [declarationOrder_eq, h]

theorem not_inherited_before (hbase : ∀ i ∈ baseline, i < b.size) {A B : Nat}
    (h : Inherits b A B) (hnr : ¬ReflTransGen (Inherits b) B A) :
    ¬List.Sublist [A, B] (declarationOrder b baseline) := by
  rw [declarationOrder_eq_fullDepth hbase]
  exact not_pair_sublist_mergeSort_key _ baseline (fullDepth_lt hbase h hnr)

theorem declarationOrder_perm (hbase : ∀ i ∈ baseline, i < b.size)
    (hperm : List.Perm baseline (List.range b.size)) :
    List.Perm (declarationOrder b baseline) (List.range b.size) := by
  rw [declarationOrder_eq_fullDepth hbase]
  exact (List.mergeSort_perm _ _).trans hperm

end Depth

theorem displayOrder_lt (b : Batch) : ∀ i ∈ Namespace.displayOrder b, i < b.size := fun _ hi =>
  List.mem_range.1 ((Namespace.displayOrder_perm b).mem_iff.1 hi)

theorem layout_declarationOrder_perm (opts : Options) (b : Batch) :
    List.Perm (Layout.layout opts b).declarationOrder (List.range b.size) :=
  declarationOrder_perm (displayOrder_lt b) (Namespace.displayOrder_perm b)

theorem layout_inherited_first (opts : Options) (b : Batch) :
    ∃ reg : Nat → Option Script.Node, (∀ i, Layout.Registers opts b i (reg i)) ∧
      ∀ A B, Inherits b A B → ¬ReflTransGen (Inherits b) B A →
        ∃ P Q R, (Layout.layout opts b).statements =
          P ++ ((reg B).toList ++ Layout.fragmentOf opts b B) ++ Q ++
            ((reg A).toList ++ Layout.fragmentOf opts b A) ++ R := by
  have hperm := layout_declarationOrder_perm opts b
  obtain ⟨reg, hreg, hst⟩ := Layout.layout_statements opts b (hperm.nodup_iff.2 List.nodup_range)
  refine ⟨reg, hreg, fun A B h hnr => ?_⟩
  have hmem : ∀ {i}, i < b.size → i ∈ (Layout.layout opts b).declarationOrder := fun hi =>
    hperm.mem_iff.2 (List.mem_range.2 hi)
  have hBA : List.Sublist [B, A] (Layout.layout opts b).declarationOrder :=
    pair_sublist_swap (hmem h.src_lt) (hmem h.dst_lt) (Ne.symm h.ne)
      (not_inherited_before (displayOrder_lt b) h hnr)
  obtain ⟨P, Q, R, hsplit⟩ := Layout.flatMap_split_of_pair
    (fun i => (reg i).toList ++ Layout.fragmentOf opts b i) hBA
  rw [hst, hsplit, List.append_assoc, List.append_assoc]
  exact ⟨P, Q, _, rfl⟩

/-- The baseline sorted stably by a depth that exceeds that of anything inherited off a cycle, is
zero without heritage, and without cycles is the longest heritage chain; so a base and its
registration are emitted before what is built on it. -/
theorem declarationOrder_by_depth (b : Batch) (baseline : List Nat)
    (hbase : ∀ i ∈ baseline, i < b.size) :
    ∃ d : Nat → Nat,
      declarationOrder b baseline = baseline.mergeSort (fun i j => d i ≤ d j) ∧
      (∀ A B, Inherits b A B → ¬ReflTransGen (Inherits b) B A → d B < d A) ∧
      (∀ A, (∀ c, ¬Inherits b A c) → d A = 0) ∧
      ((∀ a, ¬TransGen (Inherits b) a a) →
        ∀ A, Chain b A (d A) ∧ ∀ n, Chain b A n → n ≤ d A) ∧
      (∀ A B, Inherits b A B → ¬ReflTransGen (Inherits b) B A →
        ¬List.Sublist [A, B] (declarationOrder b baseline)) ∧
      (∀ k, (declarationOrder b baseline).filter (d · = k) = baseline.filter (d · = k)) ∧
      ∀ opts, ∃ reg : Nat → Option Script.Node, (∀ i, Layout.Registers opts b i (reg i)) ∧
        ∀ A B, Inherits b A B → ¬ReflTransGen (Inherits b) B A →
          ∃ P Q R, (Layout.layout opts b).statements =
            P ++ ((reg B).toList ++ Layout.fragmentOf opts b B) ++ Q ++
              ((reg A).toList ++ Layout.fragmentOf opts b A) ++ R := by
  have horder := declarationOrder_eq_fullDepth hbase
  refine ⟨fullDepth b baseline, horder, fun A B h hnr => fullDepth_lt hbase h hnr,
    fun A h => fullDepth_eq_zero hbase h, fun hacyc A => fullDepth_longest hacyc hbase A,
    fun A B h hnr => not_inherited_before hbase h hnr, fun k => ?_,
    fun opts => layout_inherited_first opts b⟩
  rw [horder]
  exact filter_mergeSort_key _ baseline k

/-- Class `0` extends class `1`. -/
def heritageSample : Batch :=
  ⟨[{ name := ⟨[], ["A"]⟩, kind := .classDecl { base := some (.typeRef (some 1) "B") } },
    { name := ⟨[], ["B"]⟩, kind := .classDecl {} }]⟩

theorem declarationOrder_by_depth_sample :
    (∀ i ∈ [0, 1, 0], i < heritageSample.size) ∧ Inherits heritageSample 0 1 ∧
      ¬ReflTransGen (Inherits heritageSample) 1 0 ∧
      ¬List.Sublist [0, 1] (declarationOrder heritageSample [0, 1, 0]) := by
  have hbase : ∀ i ∈ [0, 1, 0], i < heritageSample.size := by decide
  have hinh : Inherits heritageSample 0 1 := ⟨_, rfl, by decide, by decide, by decide⟩
  have hnr : ¬ReflTransGen (Inherits heritageSample) 1 0 := by
    intro h
    rcases ReflTransGen.cases_head h with h | ⟨c, ⟨d, hd, hc, -⟩, -⟩
    · cases h
    · cases hd
      cases hc
  obtain ⟨-, -, -, -, -, hbefore, -, -⟩ := declarationOrder_by_depth heritageSample [0, 1, 0] hbase
  exact ⟨hbase, hinh, hnr, hbefore 0 1 hinh hnr⟩

end ProtoLayout.Schedule
