import ProtoLayout.Schedule.Depth
import ProtoLayout.Proofs.Components.Search

/-!
Inheritance depths computed by `depthOf`, a memoised search: every recorded depth is settled
against its heritage, so depths grow along heritage edges off a cycle.
-/

namespace ProtoLayout.Schedule

open Relation

/-- Its heritage inside the batch, itself left out. -/
def heritageDeps (b : Batch) (i : Nat) : List Nat :=
  ((b.get? i).map heritageOf).getD [] |>.filter (fun j => j ≠ i ∧ j < b.size)

def Inherits (b : Batch) (a c : Nat) : Prop :=
  ∃ d, b.get? a = some d ∧ c ∈ heritageOf d ∧ c ≠ a ∧ c < b.size

theorem Inherits.dst_lt {b : Batch} {a c : Nat} (h : Inherits b a c) : c < b.size := by
  obtain ⟨_, _, _, _, hc⟩ := h
  exact hc

theorem Inherits.ne {b : Batch} {a c : Nat} (h : Inherits b a c) : c ≠ a := by
  obtain ⟨_, _, _, hne, _⟩ := h
  exact hne

theorem Inherits.src_lt {b : Batch} {a c : Nat} (h : Inherits b a c) : a < b.size := by
  obtain ⟨d, hd, -⟩ := h
  exact (List.getElem?_eq_some_iff.1 hd).1

theorem mem_heritageDeps {b : Batch} {a c : Nat} : c ∈ heritageDeps b a ↔ Inherits b a c := by
  unfold heritageDeps Inherits
  cases b.get? a <;> simp

def depthStep (recur : Nat → Depths → Nat × Depths) (acc : Option Nat × Depths) (j : Nat) :
    Option Nat × Depths :=
  let (d, memo) := recur j acc.2
  (some (match acc.1 with | some m => max m (d + 1) | none => d + 1), memo)

theorem depthOf_of_new (b : Batch) (fuel : Nat) (visiting : List Nat) (i : Nat) (memo : Depths)
    (hi : memo.getD i none = none) (hv : i ∉ visiting) :
    depthOf b (fuel + 1) visiting i memo =
      (((heritageDeps b i).foldl (depthStep (depthOf b fuel (i :: visiting))) (none, memo)).1.getD 0,
        ((heritageDeps b i).foldl (depthStep (depthOf b fuel (i :: visiting))) (none, memo)).2.set i
          (some (((heritageDeps b i).foldl (depthStep (depthOf b fuel (i :: visiting)))
            (none, memo)).1.getD 0))) := by
  rw [depthOf, hi]
  simp only [if_neg hv]
  rfl

theorem depthStep_best (recur : Nat → Depths → Nat × Depths) (acc : Option Nat × Depths)
    (j : Nat) : (depthStep recur acc j).1.getD 0 = max (acc.1.getD 0) ((recur j acc.2).1 + 1) := by
  unfold depthStep
  cases acc.1 <;> simp

/-- Each heritage depth is below `d` unless it leads back to `i`, and `d` is zero or one more than
one of them. -/
structure Settled (b : Batch) (memo : Depths) (i d : Nat) : Prop where
  above : ∀ j ∈ heritageDeps b i,
    ReflTransGen (Inherits b) j i ∨ ∃ dj, memo.getD j none = some dj ∧ dj + 1 ≤ d
  attained : d = 0 ∨ ∃ j ∈ heritageDeps b i,
    ReflTransGen (Inherits b) j i ∨ ∃ dj, memo.getD j none = some dj ∧ d = dj + 1

structure MemoOk (b : Batch) (memo : Depths) : Prop where
  length : memo.length = b.size
  settled : ∀ i d, memo.getD i none = some d → Settled b memo i d

def Keeps (memo memo' : Depths) : Prop :=
  ∀ i d, memo.getD i none = some d → memo'.getD i none = some d

theorem Keeps.refl (memo : Depths) : Keeps memo memo := fun _ _ h => h

theorem Keeps.trans {m₁ m₂ m₃ : Depths} (h₁ : Keeps m₁ m₂) (h₂ : Keeps m₂ m₃) : Keeps m₁ m₃ :=
  fun i d h => h₂ i d (h₁ i d h)

theorem keeps_set {memo : Depths} {i : Nat} (hi : memo.getD i none = none) (x : Option Nat) :
    Keeps memo (memo.set i x) := by
  intro j d hj
  have hij : i ≠ j := fun h => by rw [h, hj] at hi; cases hi
  by_cases hl : i < memo.length
  · rw [getD_set_of_lt hl, if_neg hij]; exact hj
  · rw [List.set_eq_of_length_le (Nat.le_of_not_lt hl)]; exact hj

theorem Settled.mono {b : Batch} {memo memo' : Depths} (hk : Keeps memo memo') {i d : Nat}
    (h : Settled b memo i d) : Settled b memo' i d where
  above j hj := (h.above j hj).imp id fun ⟨dj, hdj, hle⟩ => ⟨dj, hk j dj hdj, hle⟩
  attained := h.attained.imp id fun ⟨j, hj, hr⟩ =>
    ⟨j, hj, hr.imp id fun ⟨dj, hdj, heq⟩ => ⟨dj, hk j dj hdj, heq⟩⟩

theorem memoOk_init (b : Batch) : MemoOk b (List.replicate b.size none) where
  length := List.length_replicate ..
  settled i d h := by
    rw [List.getD_eq_getElem?_getD, List.getElem?_replicate] at h
    split at h <;> simp at h

/-- Distinct, in the batch, with no depth yet, and each leading to `i`. -/
structure Pending (b : Batch) (memo : Depths) (visiting : List Nat) (i : Nat) : Prop where
  nodup : visiting.Nodup
  lt : ∀ v ∈ visiting, v < b.size
  unset : ∀ v ∈ visiting, memo.getD v none = none
  reach : ∀ v ∈ visiting, ReflTransGen (Inherits b) v i

/-- The table stays a memo table and keeps what was recorded; the returned depth is recorded for
`i` unless `i` is being computed, when nothing changes and the depth is zero. -/
structure Answered (b : Batch) (visiting : List Nat) (i : Nat) (memo : Depths)
    (r : Nat × Depths) : Prop where
  ok : MemoOk b r.2
  keeps : Keeps memo r.2
  unset : ∀ v ∈ visiting, r.2.getD v none = none
  back : i ∈ visiting → r = (0, memo)
  found : i ∉ visiting → r.2.getD i none = some r.1

structure Gathered (b : Batch) (i : Nat) (visiting : List Nat) (memo₀ : Depths) (ps : List Nat)
    (acc : Option Nat × Depths) : Prop where
  ok : MemoOk b acc.2
  keeps : Keeps memo₀ acc.2
  unset : ∀ v ∈ i :: visiting, acc.2.getD v none = none
  above : ∀ j ∈ ps,
    ReflTransGen (Inherits b) j i ∨ ∃ dj, acc.2.getD j none = some dj ∧ dj + 1 ≤ acc.1.getD 0
  attained : acc.1.getD 0 = 0 ∨ ∃ j ∈ ps,
    ReflTransGen (Inherits b) j i ∨ ∃ dj, acc.2.getD j none = some dj ∧ acc.1.getD 0 = dj + 1

section Gather

variable {b : Batch} {i : Nat} {visiting : List Nat} {memo₀ : Depths}

theorem Gathered.step {recur : Nat → Depths → Nat × Depths} {ps : List Nat}
    {acc : Option Nat × Depths} (h : Gathered b i visiting memo₀ ps acc)
    (hreach : ∀ v ∈ visiting, ReflTransGen (Inherits b) v i) {j : Nat} (hj : j ∈ heritageDeps b i)
    (hrec : Answered b (i :: visiting) j acc.2 (recur j acc.2)) :
    Gathered b i visiting memo₀ (ps ++ [j]) (depthStep recur acc j) := by
  have hbest := depthStep_best recur acc j
  have hmemo : (depthStep recur acc j).2 = (recur j acc.2).2 := rfl
  have hji : j ≠ i := (List.mem_filter.1 hj).2 |> fun h => (of_decide_eq_true h).1
  by_cases hv : j ∈ i :: visiting
  · -- a dependency still being computed: it leads back to `i` and counts as zero
    have hr := hrec.back hv
    have hjv : j ∈ visiting := (List.mem_cons.1 hv).resolve_left hji
    rw [hr] at hbest hmemo
    refine ⟨?_, ?_, ?_, fun k hk => ?_, ?_⟩
    · rw [hmemo]; exact h.ok
    · rw [hmemo]; exact h.keeps
    · rw [hmemo]; exact h.unset
    · rcases List.mem_append.1 hk with hk | hk
      · rw [hmemo, hbest]
        exact (h.above k hk).imp id fun ⟨dk, hdk, hle⟩ => ⟨dk, hdk, Nat.le_trans hle (Nat.le_max_left _ _)⟩
      · rw [List.mem_singleton.1 hk]; exact .inl (hreach j hjv)
    · rw [hmemo, hbest]
      by_cases hle : 1 ≤ acc.1.getD 0
      · rw [Nat.max_eq_left hle]
        exact h.attained.imp id fun ⟨k, hk, hr⟩ => ⟨k, List.mem_append_left _ hk, hr⟩
      · exact .inr ⟨j, List.mem_append_right _ (List.mem_singleton_self j), .inl (hreach j hjv)⟩
  · have hkeeps := hrec.keeps
    have hfound := hrec.found hv
    rw [← hmemo] at hkeeps hfound
    refine ⟨?_, h.keeps.trans hkeeps, ?_, fun k hk => ?_, ?_⟩
    · rw [hmemo]; exact hrec.ok
    · rw [hmemo]; exact hrec.unset
    · rcases List.mem_append.1 hk with hk | hk
      · rw [hbest]
        exact (h.above k hk).imp id fun ⟨dk, hdk, hle⟩ =>
          ⟨dk, hkeeps k dk hdk, Nat.le_trans hle (Nat.le_max_left _ _)⟩
      · rw [List.mem_singleton.1 hk]
        exact .inr ⟨_, hfound, by rw [hbest]; exact Nat.le_max_right _ _⟩
    · rw [hbest]
      by_cases hle : (recur j acc.2).1 + 1 ≤ acc.1.getD 0
      · rw [Nat.max_eq_left hle]
        refine h.attained.imp id fun ⟨k, hk, hr⟩ => ⟨k, List.mem_append_left _ hk, ?_⟩
        exact hr.imp id fun ⟨dk, hdk, heq⟩ => ⟨dk, hkeeps k dk hdk, heq⟩
      · rw [Nat.max_eq_right (Nat.le_of_lt (Nat.lt_of_not_le hle))]
        exact .inr ⟨j, List.mem_append_right _ (List.mem_singleton_self j), .inr ⟨_, hfound, rfl⟩⟩

theorem foldl_depthStep {recur : Nat → Depths → Nat × Depths}
    (hreach : ∀ v ∈ visiting, ReflTransGen (Inherits b) v i)
    (hrec : ∀ j memo, j ∈ heritageDeps b i → MemoOk b memo →
      (∀ v ∈ i :: visiting, memo.getD v none = none) →
      Answered b (i :: visiting) j memo (recur j memo)) :
    ∀ (js ps : List Nat) (acc : Option Nat × Depths), (∀ j ∈ js, j ∈ heritageDeps b i) →
      Gathered b i visiting memo₀ ps acc →
      Gathered b i visiting memo₀ (ps ++ js) (js.foldl (depthStep recur) acc)
  | [], ps, acc, _, h => by simpa using h
  | j :: js, ps, acc, hjs, h => by
    have hj := hjs j (List.mem_cons_self ..)
    have h' := h.step hreach hj (hrec j acc.2 hj h.ok h.unset)
    have hrest := foldl_depthStep hreach hrec js (ps ++ [j]) _
      (fun k hk => hjs k (List.mem_cons_of_mem _ hk)) h'
    rwa [List.append_assoc, List.singleton_append] at hrest

theorem Pending.enter {memo memo' : Depths} (hp : Pending b memo visiting i) (hv : i ∉ visiting)
    (hi : i < b.size) {j : Nat} (hij : Inherits b i j)
    (hun : ∀ v ∈ i :: visiting, memo'.getD v none = none) : Pending b memo' (i :: visiting) j where
  nodup := List.nodup_cons.2 ⟨hv, hp.nodup⟩
  lt v hv' := by
    rcases List.mem_cons.1 hv' with rfl | hv'
    · exact hi
    · exact hp.lt v hv'
  unset := hun
  reach v hv' := by
    rcases List.mem_cons.1 hv' with rfl | hv'
    · exact ReflTransGen.single hij
    · exact (hp.reach v hv').tail hij

theorem Gathered.start {memo : Depths} (hm : MemoOk b memo) (hp : Pending b memo visiting i)
    (hmi : memo.getD i none = none) : Gathered b i visiting memo [] (none, memo) := by
  refine ⟨hm, Keeps.refl _, fun v hv' => ?_, by simp, .inl rfl⟩
  rcases List.mem_cons.1 hv' with rfl | hv'
  · exact hmi
  · exact hp.unset v hv'

theorem Gathered.record {memo : Depths} {r : Option Nat × Depths}
    (hg : Gathered b i visiting memo (heritageDeps b i) r) (hi : i < b.size) (hv : i ∉ visiting) :
    Answered b visiting i memo (r.1.getD 0, r.2.set i (some (r.1.getD 0))) := by
  have hlen : i < r.2.length := by rw [hg.ok.length]; exact hi
  have hkeep := keeps_set (hg.unset i (List.mem_cons_self ..)) (some (r.1.getD 0))
  refine ⟨⟨by rw [List.length_set, hg.ok.length], fun k d hk => ?_⟩, hg.keeps.trans hkeep,
    fun v hv' => ?_, fun h => absurd h hv, fun _ => ?_⟩
  · rw [getD_set_of_lt hlen] at hk
    split at hk
    · rename_i hik
      subst hik
      cases hk
      exact Settled.mono hkeep ⟨hg.above, hg.attained⟩
    · exact (hg.ok.settled k d hk).mono hkeep
  · rw [getD_set_of_lt hlen, if_neg fun (h : i = v) => hv (h ▸ hv')]
    exact hg.unset v (List.mem_cons_of_mem _ hv')
  · rw [getD_set_of_lt hlen, if_pos rfl]

end Gather

/-- Induction on the fuel, which stays above the number of declarations left to enter. -/
theorem depthOf_answered (b : Batch) :
    ∀ (fuel : Nat) (visiting : List Nat) (i : Nat) (memo : Depths), MemoOk b memo →
      Pending b memo visiting i → i < b.size → b.size < fuel + visiting.length →
      Answered b visiting i memo (depthOf b fuel visiting i memo)
  | 0, visiting, _, _, _, hp, _, hfuel => by
    -- the pending declarations are distinct and in the batch: fewer than its size
    have hle : visiting.length ≤ (List.range b.size).length :=
      hp.nodup.length_le_of_subset fun v hv => List.mem_range.2 (hp.lt v hv)
    rw [List.length_range] at hle
    omega
  | fuel + 1, visiting, i, memo, hm, hp, hi, hfuel => by
    by_cases hv : i ∈ visiting
    · have hr : depthOf b (fuel + 1) visiting i memo = (0, memo) := by
        rw [depthOf, hp.unset i hv]
        simp [hv]
      rw [hr]
      exact ⟨hm, Keeps.refl _, hp.unset, fun _ => rfl, fun h => absurd hv h⟩
    · cases hmi : memo.getD i none with
      | some d =>
        have hr : depthOf b (fuel + 1) visiting i memo = (d, memo) := by rw [depthOf, hmi]
        rw [hr]
        exact ⟨hm, Keeps.refl _, hp.unset, fun h => absurd h hv, fun _ => hmi⟩
      | none =>
        rw [depthOf_of_new b fuel visiting i memo hmi hv]
        have hrec : ∀ j memo', j ∈ heritageDeps b i → MemoOk b memo' →
            (∀ v ∈ i :: visiting, memo'.getD v none = none) →
            Answered b (i :: visiting) j memo' (depthOf b fuel (i :: visiting) j memo') :=
          fun j memo' hj hm' hun =>
            depthOf_answered b fuel (i :: visiting) j memo' hm'
              (hp.enter hv hi (mem_heritageDeps.1 hj) hun) (mem_heritageDeps.1 hj).dst_lt
              (by simp only [List.length_cons]; omega)
        have hg := foldl_depthStep hp.reach hrec (heritageDeps b i) [] _ (fun _ hj => hj)
          (Gathered.start hm hp hmi)
        rw [List.nil_append] at hg
        exact hg.record hi hv

theorem foldl_depthOf (b : Batch) :
    ∀ (baseline : List Nat) (memo : Depths), MemoOk b memo → (∀ i ∈ baseline, i < b.size) →
      MemoOk b (baseline.foldl (fun memo i => (depthOf b (b.size + 1) [] i memo).2) memo) ∧
      Keeps memo (baseline.foldl (fun memo i => (depthOf b (b.size + 1) [] i memo).2) memo) ∧
      ∀ i ∈ baseline, ∃ d,
        (baseline.foldl (fun memo i => (depthOf b (b.size + 1) [] i memo).2) memo).getD i none =
          some d
  | [], memo, hm, _ => ⟨hm, Keeps.refl _, by simp⟩
  | i :: rest, memo, hm, hbase => by
    have ha := depthOf_answered b (b.size + 1) [] i memo hm
      ⟨List.nodup_nil, by simp, by simp, by simp⟩ (hbase i (List.mem_cons_self ..)) (by simp)
    obtain ⟨hm', hk', hset⟩ := foldl_depthOf b rest _ ha.ok
      (fun j hj => hbase j (List.mem_cons_of_mem _ hj))
    refine ⟨hm', ha.keeps.trans hk', fun j hj => ?_⟩
    rcases List.mem_cons.1 hj with rfl | hj
    · exact ⟨_, hk' _ _ (ha.found (List.not_mem_nil))⟩
    · exact hset j hj

def depthKey (memo : Depths) (i : Nat) : Nat := (memo.getD i none).getD 0

theorem declarationOrder_eq (b : Batch) (baseline : List Nat) :
    declarationOrder b baseline =
      baseline.mergeSort (fun i j => depthKey (depths b baseline) i ≤ depthKey (depths b baseline) j) :=
  rfl

/-- The depths after the baseline, completed by every other declaration of the batch. -/
def fullDepth (b : Batch) (baseline : List Nat) (i : Nat) : Nat :=
  depthKey (depths b (baseline ++ List.range b.size)) i

section Full

variable {b : Batch} {baseline : List Nat}

theorem memoOk_full (hbase : ∀ i ∈ baseline, i < b.size) :
    MemoOk b (depths b (baseline ++ List.range b.size)) ∧
      ∀ i < b.size, ∃ d, (depths b (baseline ++ List.range b.size)).getD i none = some d := by
  obtain ⟨hm, -, hset⟩ := foldl_depthOf b (baseline ++ List.range b.size) _ (memoOk_init b)
    fun i hi => (List.mem_append.1 hi).elim (hbase i) List.mem_range.1
  exact ⟨hm, fun i hi => hset i (List.mem_append_right _ (List.mem_range.2 hi))⟩

theorem fullDepth_eq (hbase : ∀ i ∈ baseline, i < b.size) {i : Nat} (hi : i ∈ baseline) :
    fullDepth b baseline i = depthKey (depths b baseline) i := by
  obtain ⟨hm, -, hset⟩ := foldl_depthOf b baseline _ (memoOk_init b) hbase
  obtain ⟨-, hk, -⟩ := foldl_depthOf b (List.range b.size) _ hm fun j hj => List.mem_range.1 hj
  obtain ⟨d, hd⟩ := hset i hi
  unfold fullDepth depthKey depths
  rw [List.foldl_append, hk i d hd, hd]

theorem fullDepth_of_memo {A dA : Nat}
    (h : (depths b (baseline ++ List.range b.size)).getD A none = some dA) :
    fullDepth b baseline A = dA := by
  unfold fullDepth depthKey
  rw [h]
  rfl

theorem fullDepth_of_ge (hbase : ∀ i ∈ baseline, i < b.size) {A : Nat} (hA : b.size ≤ A) :
    fullDepth b baseline A = 0 := by
  obtain ⟨hm, -⟩ := memoOk_full hbase
  unfold fullDepth depthKey
  rw [List.getD_eq_default _ _ (by rw [hm.length]; exact hA)]
  rfl

theorem fullDepth_lt (hbase : ∀ i ∈ baseline, i < b.size) {A B : Nat} (h : Inherits b A B)
    (hnr : ¬ReflTransGen (Inherits b) B A) : fullDepth b baseline B < fullDepth b baseline A := by
  obtain ⟨hm, hset⟩ := memoOk_full hbase
  obtain ⟨dA, hdA⟩ := hset A h.src_lt
  rcases (hm.settled A dA hdA).above B (mem_heritageDeps.2 h) with hr | ⟨dB, hdB, hle⟩
  · exact absurd hr hnr
  · rw [fullDepth_of_memo hdA, fullDepth_of_memo hdB]
    exact hle

theorem fullDepth_eq_zero (hbase : ∀ i ∈ baseline, i < b.size) {A : Nat}
    (h : ∀ c, ¬Inherits b A c) : fullDepth b baseline A = 0 := by
  obtain ⟨hm, hset⟩ := memoOk_full hbase
  by_cases hA : A < b.size
  · obtain ⟨dA, hdA⟩ := hset A hA
    rw [fullDepth_of_memo hdA]
    rcases (hm.settled A dA hdA).attained with rfl | ⟨c, hc, -⟩
    · rfl
    · exact absurd (mem_heritageDeps.1 hc) (h c)
  · exact fullDepth_of_ge hbase (Nat.le_of_not_lt hA)

end Full

inductive Chain (b : Batch) : Nat → Nat → Prop
  | nil (a : Nat) : Chain b a 0
  | cons {a c n : Nat} : Inherits b a c → Chain b c n → Chain b a (n + 1)

theorem Chain.eq_zero_of_ge {b : Batch} {a n : Nat} (h : Chain b a n) (ha : b.size ≤ a) : n = 0 := by
  cases h with
  | nil => rfl
  | cons hac _ => exact absurd hac.src_lt (Nat.not_lt_of_le ha)

section Acyclic

variable {b : Batch} {memo : Depths} (hacyc : ∀ a, ¬TransGen (Inherits b) a a)
include hacyc

theorem Chain.le_of_memo (hm : MemoOk b memo) {a n : Nat} (h : Chain b a n) :
    ∀ da, memo.getD a none = some da → n ≤ da := by
  induction h with
  | nil => exact fun _ _ => Nat.zero_le _
  | @cons a c n hac _ ih =>
    intro da hda
    rcases (hm.settled a da hda).above c (mem_heritageDeps.2 hac) with hr | ⟨dc, hdc, hle⟩
    · exact absurd (TransGen.head' hac hr) (hacyc a)
    · exact Nat.le_trans (Nat.succ_le_succ (ih dc hdc)) hle

theorem chain_of_memo (hm : MemoOk b memo) :
    ∀ (da a : Nat), memo.getD a none = some da → Chain b a da := by
  intro da
  induction da using Nat.strongRecOn with
  | _ da ih =>
    intro a hda
    rcases (hm.settled a da hda).attained with rfl | ⟨c, hc, hr | ⟨dc, hdc, rfl⟩⟩
    · exact Chain.nil a
    · exact absurd (TransGen.head' (mem_heritageDeps.1 hc) hr) (hacyc a)
    · exact Chain.cons (mem_heritageDeps.1 hc) (ih dc (Nat.lt_succ_self dc) c hdc)

/-- Without cycles, the completed depth is the length of the longest heritage chain. -/
theorem fullDepth_longest {baseline : List Nat} (hbase : ∀ i ∈ baseline, i < b.size) (a : Nat) :
    Chain b a (fullDepth b baseline a) ∧ ∀ n, Chain b a n → n ≤ fullDepth b baseline a := by
  obtain ⟨hm, hset⟩ := memoOk_full hbase
  by_cases ha : a < b.size
  · obtain ⟨da, hda⟩ := hset a ha
    rw [fullDepth_of_memo hda]
    exact ⟨chain_of_memo hacyc hm da a hda, fun n hn => hn.le_of_memo hacyc hm da hda⟩
  · rw [fullDepth_of_ge hbase (Nat.le_of_not_lt ha)]
    exact ⟨Chain.nil a, fun n hn => Nat.le_of_eq (hn.eq_zero_of_ge (Nat.le_of_not_lt ha))⟩

end Acyclic

end ProtoLayout.Schedule
