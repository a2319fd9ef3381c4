import ProtoLayout.Layout.Fixture
import Mathlib.Data.List.Dedup
import Mathlib.Data.List.Perm.Basic
import Mathlib.Data.List.Induction

/-!
The runner of a test fixture registers every test exactly once and starts every category once.
-/

namespace ProtoLayout.Layout

open Script

def testsOf (ms : List Method) : List (Method × TestInfo) :=
  ms.filterMap fun m => m.test.map (m, ·)

/-- Each once, in the order of its first test. -/
def categoriesOf (ms : List Method) : List String :=
  ((testsOf ms).filterMap (·.2.category)).reverse.dedup.reverse

/-- With `none` for the uncategorised tests. -/
def testsIn (ms : List Method) (c : Option String) : List (Method × TestInfo) :=
  (testsOf ms).filter fun p => decide (p.2.category = c)

def beginCall (names : TestFunctions) (c : String) : Node :=
  .exprStmt (.call (.ident names.beginCategory) [.string c])

/-- The runner's body as the fixture rule states it. -/
def runnerSpec (names : TestFunctions) (ms : List Method) : List Node :=
  (testsIn ms none).map (fun p => testCall names p.1 p.2) ++
    (categoriesOf ms).flatMap fun c =>
      beginCall names c :: (testsIn ms (some c)).map fun p => testCall names p.1 p.2

/-! ### Tests and categories, one method at a time -/

theorem testsOf_append_test (ms : List Method) {m : Method} {t : TestInfo} (h : m.test = some t) :
    testsOf (ms ++ [m]) = testsOf ms ++ [(m, t)] := by
  simp [testsOf, h]

theorem testsOf_append_plain (ms : List Method) {m : Method} (h : m.test = none) :
    testsOf (ms ++ [m]) = testsOf ms := by
  simp [testsOf, h]

theorem reverse_dedup_reverse_append (l : List String) (c : String) :
    (l ++ [c]).reverse.dedup.reverse =
      if c ∈ l then l.reverse.dedup.reverse else l.reverse.dedup.reverse ++ [c] := by
  rw [List.reverse_append, List.reverse_singleton, List.singleton_append]
  split
  · rw [List.dedup_cons_of_mem (List.mem_reverse.2 ‹_›)]
  · rw [List.dedup_cons_of_notMem (fun h => ‹c ∉ l› (List.mem_reverse.1 h)), List.reverse_cons]

theorem mem_categoriesOf {ms : List Method} {c : String} :
    c ∈ categoriesOf ms ↔ ∃ p ∈ testsOf ms, p.2.category = some c := by
  simp [categoriesOf]

theorem nodup_categoriesOf (ms : List Method) : (categoriesOf ms).Nodup :=
  List.nodup_reverse.2 (List.nodup_dedup _)

theorem categoriesOf_append_of_none (ms : List Method) {m : Method} {t : TestInfo}
    (h : m.test = some t) (htc : t.category = none) : categoriesOf (ms ++ [m]) = categoriesOf ms := by
  simp [categoriesOf, testsOf_append_test ms h, htc]

theorem categoriesOf_append_of_some (ms : List Method) {m : Method} {t : TestInfo}
    (h : m.test = some t) {c : String} (htc : t.category = some c) :
    categoriesOf (ms ++ [m]) =
      if c ∈ categoriesOf ms then categoriesOf ms else categoriesOf ms ++ [c] := by
  have hmem : c ∈ categoriesOf ms ↔ c ∈ (testsOf ms).filterMap (·.2.category) := by
    simp [categoriesOf]
  unfold categoriesOf at hmem ⊢
  rw [testsOf_append_test ms h, List.filterMap_append]
  simp only [List.filterMap_cons, List.filterMap_nil, htc]
  rw [reverse_dedup_reverse_append]
  by_cases hc : c ∈ (testsOf ms).filterMap (·.2.category)
  · rw [if_pos hc, if_pos (hmem.2 hc)]
  · rw [if_neg hc, if_neg fun h' => hc (hmem.1 h')]

theorem testsIn_append_test (ms : List Method) {m : Method} {t : TestInfo} (h : m.test = some t)
    (c : Option String) :
    testsIn (ms ++ [m]) c = if t.category = c then testsIn ms c ++ [(m, t)] else testsIn ms c := by
  unfold testsIn
  rw [testsOf_append_test ms h, List.filter_append]
  split <;> simp [*]

/-! ### Filing tests into groups -/

def groupsSpec (ms : List Method) : List (Option String × List (Method × TestInfo)) :=
  (none, testsIn ms none) :: (categoriesOf ms).map fun c => (some c, testsIn ms (some c))

theorem fileTest_of_mem (ms : List Method) {m : Method} {t : TestInfo} (h : m.test = some t)
    (hc : ∀ c, t.category = some c → c ∈ categoriesOf ms) :
    fileTest (groupsSpec ms) m t = groupsSpec (ms ++ [m]) := by
  have hany : (groupsSpec ms).any (·.1 == t.category) = true := by
    cases htc : t.category with
    | none => simp [groupsSpec]
    | some c => simpa [groupsSpec] using hc c htc
  unfold fileTest
  rw [if_pos hany]
  cases htc : t.category with
  | none =>
    simp [groupsSpec, categoriesOf_append_of_none ms h htc, testsIn_append_test ms h, htc]
  | some c =>
    simp only [groupsSpec, categoriesOf_append_of_some ms h htc, if_pos (hc c htc), List.map_cons,
      List.map_map, testsIn_append_test ms h, htc]
    congr 1
    refine List.map_congr_left fun a _ => ?_
    by_cases hac : a = c
    · subst hac
      simp
    · simp [hac, Ne.symm hac]

theorem fileTest_of_new (ms : List Method) {m : Method} {t : TestInfo} (h : m.test = some t)
    {c : String} (htc : t.category = some c) (hc : c ∉ categoriesOf ms) :
    fileTest (groupsSpec ms) m t = groupsSpec (ms ++ [m]) := by
  have hother : ∀ a ∈ categoriesOf ms, a ≠ c := fun a ha hac => hc (hac ▸ ha)
  have hany : (groupsSpec ms).any (·.1 == t.category) = false := by
    simpa [groupsSpec, htc] using hother
  have hnone : testsIn ms (some c) = [] := by
    refine List.filter_eq_nil_iff.2 fun p hp hpc => hc (mem_categoriesOf.2 ⟨p, hp, ?_⟩)
    simpa using hpc
  unfold fileTest
  rw [if_neg (by simp [hany])]
  simp only [groupsSpec, categoriesOf_append_of_some ms h htc, if_neg hc, List.map_append,
    List.map_cons, List.map_nil, List.cons_append, testsIn_append_test ms h, htc, hnone]
  congr 1
  simpa using fun a ha hca => hother a ha hca.symm

theorem testGroups_eq (ms : List Method) : testGroups ms = groupsSpec ms := by
  induction ms using List.reverseRecOn with
  | nil => simp [testGroups, groupsSpec, testsIn, testsOf, categoriesOf]
  | append_singleton ms m ih =>
    rw [testGroups, List.foldl_append, List.foldl_cons, List.foldl_nil, ← testGroups, ih]
    cases h : m.test with
    | none =>
      simp only [groupsSpec, categoriesOf, testsIn, testsOf_append_plain ms h]
    | some t =>
      dsimp only
      cases htc : t.category with
      | none => exact fileTest_of_mem ms h fun c hc => by simp [htc] at hc
      | some c =>
        by_cases hc : c ∈ categoriesOf ms
        · exact fileTest_of_mem ms h fun c' hc' => by rw [htc] at hc'; exact Option.some_inj.1 hc' ▸ hc
        · exact fileTest_of_new ms h htc hc

theorem runnerBody_eq (names : TestFunctions) (ms : List Method) :
    runnerBody names ms = runnerSpec names ms := by
  rw [runnerBody, testGroups_eq, groupsSpec, List.flatMap_cons, List.flatMap_map]
  simp [runnerSpec, beginCall]

/-! ### Every test once -/

theorem filter_key_of_ne {α : Type} (k : α → Option String) (l : List α) {c : String}
    {v : Option String} (hv : v ≠ some c) :
    ((l.filter fun x => !decide (k x = some c)).filter fun x => decide (k x = v)) =
      l.filter fun x => decide (k x = v) := by
  rw [List.filter_filter]
  congr 1
  funext x
  by_cases hx : k x = v <;> simp [hx, hv]

/-- For categories without repeats that cover every category present, splitting by category
rearranges the list. -/
theorem perm_groups {α : Type} (k : α → Option String) :
    ∀ (cats : List String) (l : List α), cats.Nodup → (∀ x ∈ l, ∀ c, k x = some c → c ∈ cats) →
      List.Perm (l.filter (fun x => decide (k x = none)) ++
        cats.flatMap fun c => l.filter fun x => decide (k x = some c)) l
  | [], l, _, hcats => by
    have hnone : ∀ x ∈ l, decide (k x = none) = true := fun x hx => by
      cases h : k x with
      | none => rfl
      | some c => exact absurd (hcats x hx c h) List.not_mem_nil
    rw [List.filter_eq_self.2 hnone, List.flatMap_nil, List.append_nil]
  | c :: cats, l, hnd, hcats => by
    obtain ⟨hc, hnd⟩ := List.nodup_cons.1 hnd
    have ih := perm_groups k cats (l.filter fun x => !decide (k x = some c)) hnd fun x hx c' hc' => by
      have hx' := List.mem_filter.1 hx
      refine (List.mem_cons.1 (hcats x hx'.1 c' hc')).resolve_left fun h => ?_
      simp [hc', h] at hx'
    have hrest : ∀ c' ∈ cats, ((l.filter fun x => !decide (k x = some c)).filter
        fun x => decide (k x = some c')) = l.filter fun x => decide (k x = some c') :=
      fun c' hc' => filter_key_of_ne k l fun h => hc (Option.some.inj h ▸ hc')
    rw [filter_key_of_ne k l (Option.some_ne_none c).symm, List.flatMap_congr hrest] at ih
    rw [List.flatMap_cons]
    calc List.Perm _ (l.filter (fun x => decide (k x = some c)) ++
          (l.filter (fun x => decide (k x = none)) ++
            cats.flatMap fun c => l.filter fun x => decide (k x = some c))) :=
          List.perm_append_comm_assoc _ _ _
      List.Perm _ (l.filter (fun x => decide (k x = some c)) ++
          l.filter fun x => !decide (k x = some c)) := ih.append_left _
      List.Perm _ l := List.filter_append_perm _ l

theorem perm_runnerTests (ms : List Method) :
    List.Perm (testsIn ms none ++ (categoriesOf ms).flatMap fun c => testsIn ms (some c))
      (testsOf ms) :=
  perm_groups (fun p : Method × TestInfo => p.2.category) _ _ (nodup_categoriesOf ms) fun p hp _ hc =>
    mem_categoriesOf.2 ⟨p, hp, hc⟩

theorem mem_testsOf {ms : List Method} {p : Method × TestInfo} :
    p ∈ testsOf ms ↔ p.1 ∈ ms ∧ p.1.test = some p.2 := by
  obtain ⟨m, t⟩ := p
  simp only [testsOf, List.mem_filterMap, Option.map_eq_some_iff, Prod.mk.injEq]
  constructor
  · rintro ⟨m', hm', t', ht', rfl, rfl⟩
    exact ⟨hm', ht'⟩
  · rintro ⟨hm, ht⟩
    exact ⟨m, hm, t, ht, rfl, rfl⟩

/-- A fixture keeps its methods without a test, in order, and gains one runner method that registers
the uncategorised tests, then each category's in the order of its first test. -/
theorem withTestRunner_eq (opts : Options) (b : ClassBody) :
    ∃ runner : Method,
      withTestRunner opts b =
        { b with instanceMethods := b.instanceMethods.filter (fun m => m.test.isNone) ++ [runner] } ∧
      runner.name = opts.testRunnerMethod ∧ runner.semantics = .normal ∧ runner.typeParams = [] ∧
      runner.params = [] ∧ runner.test = none ∧ runner.isEntryPoint = false ∧
      runner.body = some (runnerSpec opts.testFunctions b.instanceMethods) ∧
      List.Perm (testsIn b.instanceMethods none ++
        (categoriesOf b.instanceMethods).flatMap fun c => testsIn b.instanceMethods (some c))
        (testsOf b.instanceMethods) ∧
      (categoriesOf b.instanceMethods).Nodup ∧
      ∀ c, c ∈ categoriesOf b.instanceMethods ↔
        ∃ m ∈ b.instanceMethods, ∃ t, m.test = some t ∧ t.category = some c := by
  refine ⟨_, rfl, rfl, rfl, rfl, rfl, rfl, rfl, ?_, perm_runnerTests _, nodup_categoriesOf _,
    fun c => ?_⟩
  · rw [runnerBody_eq]
  · rw [mem_categoriesOf]
    constructor
    · rintro ⟨p, hp, hc⟩
      exact ⟨p.1, (mem_testsOf.1 hp).1, p.2, (mem_testsOf.1 hp).2, hc⟩
    · rintro ⟨m, hm, t, ht, hc⟩
      exact ⟨(m, t), mem_testsOf.2 ⟨hm, ht⟩, hc⟩

end ProtoLayout.Layout
