import ProtoLayout.Proofs.Layout.Statements
import Mathlib.Data.List.Infix

/-!
Namespace registration records the dot-prefixes of a path without its leading dots, and the
empty prefix for a leading dot, so a path with a leading dot is registered again.
-/

namespace ProtoLayout.Namespace

open Script

/-- Either `q` is `s`, or it starts with `s` followed by a dot. -/
def DotPrefix (s q : String) : Prop := q = s ∨ s.toList ++ ['.'] <+: q.toList

instance (s q : String) : Decidable (DotPrefix s q) := inferInstanceAs (Decidable (_ ∨ _))

def stripDots (p : String) : String := String.ofList (p.toList.dropWhile (· == '.'))

section Segments

def joinSegment (cur seg : List Char) : List Char := if cur = [] then seg else cur ++ '.' :: seg

def segmentPrefixes : List (List Char) → List Char → List (List Char)
  | [], _ => []
  | seg :: rest, cur => joinSegment cur seg :: segmentPrefixes rest (joinSegment cur seg)

theorem prefixStep_ofList (cur seg : List Char) (acc : List String) :
    prefixStep (String.ofList cur, acc) (String.ofList seg) =
      (String.ofList (joinSegment cur seg), acc ++ [String.ofList (joinSegment cur seg)]) := by
  unfold prefixStep joinSegment
  by_cases h : cur = []
  · subst h; simp
  · have hjoin : String.ofList cur ++ "." ++ String.ofList seg =
        String.ofList (cur ++ '.' :: seg) := by
      rw [← String.toList_inj]; simp
    simp [h, hjoin]

theorem foldl_prefixStep : ∀ (segs : List (List Char)) (cur : List Char) (acc : List String),
    ((segs.map String.ofList).foldl prefixStep (String.ofList cur, acc)).2 =
      acc ++ (segmentPrefixes segs cur).map String.ofList
  | [], _, acc => by simp [segmentPrefixes]
  | seg :: rest, cur, acc => by
    rw [List.map_cons, List.foldl_cons, prefixStep_ofList, foldl_prefixStep rest]
    simp [segmentPrefixes]

theorem prefixes_eq (path : String) :
    prefixes path = (segmentPrefixes (path.toList.splitOn '.') []).map String.ofList := by
  have h := foldl_prefixStep (path.toList.splitOn '.') [] []
  rw [String.ofList_nil, List.nil_append] at h
  exact h

theorem splitOn_dot : ∀ c : List Char, ∃ f rest, c.splitOn '.' = f :: rest ∧
    c = f ++ rest.flatMap ('.' :: ·) ∧ '.' ∉ f ∧ ∀ seg ∈ rest, '.' ∉ seg
  | [] => ⟨[], [], List.splitOn_nil _, rfl, by simp, by simp⟩
  | x :: xs => by
    obtain ⟨f, rest, hs, hc, hf, hr⟩ := splitOn_dot xs
    rw [List.splitOn_cons_eq_if_modifyHead, hs]
    by_cases hx : x = '.'
    · subst hx
      refine ⟨[], f :: rest, by simp, by simp [hc], by simp, ?_⟩
      intro seg hseg
      rcases List.mem_cons.1 hseg with rfl | hseg
      · exact hf
      · exact hr seg hseg
    · refine ⟨x :: f, rest, by simp [hx], by simp [hc], ?_, hr⟩
      simp [Ne.symm hx, hf]

theorem length_le_of_dot_cut {s u r : List Char} (h : s ++ ['.'] <+: u ++ r) (hu : '.' ∉ u) :
    u.length ≤ s.length := by
  refine Nat.le_of_not_lt fun hlt => hu ?_
  have hpre : s ++ ['.'] <+: u :=
    (List.isPrefix_append_of_length (by simp; omega)).1 h
  exact hpre.subset (by simp)

/-- From a non-empty `v` on, the prefixes built are the cuts at a dot of `v ++ .seg₁.seg₂…` at
least as long as `v`. -/
theorem mem_cons_segmentPrefixes : ∀ (segs : List (List Char)) (v : List Char), v ≠ [] →
    (∀ seg ∈ segs, '.' ∉ seg) → ∀ s : List Char,
      s ∈ v :: segmentPrefixes segs v ↔
        (s = v ++ segs.flatMap ('.' :: ·) ∨ s ++ ['.'] <+: v ++ segs.flatMap ('.' :: ·)) ∧
          v.length ≤ s.length
  | [], v, _, _, s => by
    simp only [segmentPrefixes, List.mem_singleton, List.flatMap_nil, List.append_nil]
    constructor
    · rintro rfl; exact ⟨.inl rfl, Nat.le_refl _⟩
    · rintro ⟨rfl | hcut, hle⟩
      · rfl
      · have := hcut.length_le
        simp at this
        omega
  | seg :: rest, v, hv, hsegs, s => by
    have hnext : joinSegment v seg = v ++ '.' :: seg := if_neg hv
    have ih := mem_cons_segmentPrefixes rest (v ++ '.' :: seg) (by simp)
      (fun seg' h => hsegs seg' (List.mem_cons_of_mem _ h)) s
    have hW : v ++ (seg :: rest).flatMap ('.' :: ·) =
        (v ++ '.' :: seg) ++ rest.flatMap ('.' :: ·) := by simp
    rw [segmentPrefixes, hnext, List.mem_cons, ih, hW]
    constructor
    · rintro (rfl | ⟨hcut, hle⟩)
      · -- `v` is cut off by the dot that follows it
        exact ⟨.inr (by simp), Nat.le_refl _⟩
      · exact ⟨hcut, by simp at hle; omega⟩
    · rintro ⟨hcut, hle⟩
      rcases Nat.lt_or_eq_of_le hle with hlt | heq
      · -- longer than `v`: it runs past the dot after `v` and then past the whole segment
        right
        refine ⟨hcut, ?_⟩
        have hpre : v ++ ['.'] <+: s := by
          have hs : s <+: (v ++ '.' :: seg) ++ rest.flatMap ('.' :: ·) := by
            rcases hcut with rfl | hcut
            · exact List.prefix_refl _
            · exact (List.prefix_append s ['.']).trans hcut
          exact List.prefix_of_prefix_length_le (by simp) hs (by simp; omega)
        obtain ⟨t, rfl⟩ := hpre
        have hseg : '.' ∉ seg := hsegs seg (List.mem_cons_self ..)
        have ht : seg.length ≤ t.length := by
          rcases hcut with heq' | hcut
          · have := congrArg List.length heq'
            simp at this
            omega
          · simp only [List.append_assoc, List.cons_append] at hcut
            rw [List.prefix_append_right_inj, List.prefix_cons_inj] at hcut
            exact length_le_of_dot_cut hcut hseg
        simp
        omega
      · -- as long as `v`, so it is `v`
        left
        have hs : s <+: v ++ ('.' :: seg ++ rest.flatMap ('.' :: ·)) := by
          rcases hcut with rfl | hcut
          · simp
          · exact (List.prefix_append s ['.']).trans (by simpa using hcut)
        exact (List.prefix_of_prefix_length_le hs (List.prefix_append v _) (by omega)).eq_of_length
          heq.symm

theorem mem_segmentPrefixes_splitOn : ∀ (c s : List Char),
    s ∈ segmentPrefixes (c.splitOn '.') [] ↔
      (s = c.dropWhile (· == '.') ∨ s ++ ['.'] <+: c.dropWhile (· == '.')) ∨
        (s = [] ∧ c.head? = some '.')
  | [], s => by simp [segmentPrefixes, joinSegment, List.splitOn_nil]
  | x :: xs, s => by
    by_cases hx : x = '.'
    · subst hx
      have ih := mem_segmentPrefixes_splitOn xs s
      rw [List.splitOn_cons_eq_if_modifyHead, if_pos (by simp)]
      simp only [segmentPrefixes, joinSegment, List.mem_cons, ih,
        List.dropWhile_cons, beq_self_eq_true, if_true, List.head?_cons]
      tauto
    · obtain ⟨f, rest, hs, hc, hf, hr⟩ := splitOn_dot xs
      have hsplit : (x :: xs).splitOn '.' = (x :: f) :: rest := by
        rw [List.splitOn_cons_eq_if_modifyHead, hs]; simp [hx]
      have hdrop : (x :: xs).dropWhile (· == '.') = x :: xs := by
        simp [hx]
      have hmem := mem_cons_segmentPrefixes rest (x :: f) (by simp) hr s
      rw [hsplit, segmentPrefixes, show joinSegment [] (x :: f) = x :: f from rfl, hmem, hdrop]
      have hW : (x :: f) ++ rest.flatMap ('.' :: ·) = x :: xs := by simp [hc]
      rw [hW]
      have hxf : '.' ∉ x :: f := by simp [Ne.symm hx, hf]
      constructor
      · rintro ⟨h, -⟩; exact .inl h
      · rintro (h | ⟨-, h⟩)
        · refine ⟨h, ?_⟩
          -- a cut at a dot of `x :: xs` lies past the first segment, which holds no dot
          rcases h with rfl | hcut
          · rw [← hW]; simp
          · exact length_le_of_dot_cut (by rw [hW]; exact hcut) hxf
        · simp [hx] at h

end Segments

theorem mem_prefixes (path s : String) :
    s ∈ prefixes path ↔ DotPrefix s (stripDots path) ∨ (s = "" ∧ path.toList.head? = some '.') := by
  rw [prefixes_eq, List.mem_map]
  constructor
  · rintro ⟨c, hc, rfl⟩
    rcases (mem_segmentPrefixes_splitOn path.toList c).1 hc with h | ⟨rfl, hhead⟩
    · left
      unfold DotPrefix stripDots
      rcases h with rfl | hcut
      · exact .inl rfl
      · exact .inr (by simpa using hcut)
    · exact .inr ⟨rfl, hhead⟩
  · intro h
    refine ⟨s.toList, (mem_segmentPrefixes_splitOn path.toList s.toList).2 ?_, by simp⟩
    rcases h with (h | hcut) | ⟨rfl, hhead⟩
    · left; left
      unfold stripDots at h
      rw [← h]; simp
    · exact .inl (.inr (by simpa [stripDots] using hcut))
    · exact .inr ⟨rfl, hhead⟩

theorem mem_prefixes_of_ne {path s : String} (hs : s ≠ "") :
    s ∈ prefixes path ↔ DotPrefix s (stripDots path) := by
  rw [mem_prefixes]
  exact ⟨fun h => h.resolve_right fun h' => hs h'.1, .inl⟩

theorem mem_flatMap_prefixes {done : List String} {s : String} (hs : s ≠ "") :
    s ∈ done.flatMap prefixes ↔ ∃ q ∈ done, DotPrefix s (stripDots q) := by
  simp only [List.mem_flatMap, mem_prefixes_of_ne hs]

theorem stripDots_of_head {p : String} (h : p.toList.head? ≠ some '.') : stripDots p = p := by
  unfold stripDots
  cases hp : p.toList with
  | nil => rw [List.dropWhile_nil, ← hp, String.ofList_toList]
  | cons c cs =>
    have hc : c ≠ '.' := fun hc => h (by rw [hp, hc]; rfl)
    rw [List.dropWhile_cons, if_neg (by simpa using hc), ← hp, String.ofList_toList]

theorem head_of_not_dotPrefix_stripDots {p : String} (h : ¬DotPrefix p (stripDots p)) :
    p.toList.head? = some '.' := by
  by_contra hp
  exact h (.inl (stripDots_of_head hp))

theorem registration_injective (typeSystem : String) :
    Function.Injective (registration typeSystem) := by
  intro p q h
  simpa [registration, Node.methodCall] using h

section Ensure

variable (r : Registry) (typeSystem : String) {path : String}

theorem ensure_of_new (hp : path ≠ "") (hk : path ∉ r.known) :
    r.ensure typeSystem path = (some (registration typeSystem path), ⟨r.known ++ prefixes path⟩) := by
  have he : path.isEmpty = false := by simpa [String.isEmpty_iff] using hp
  simp [Registry.ensure, he, hk]

theorem ensure_of_known (h : path = "" ∨ path ∈ r.known) : r.ensure typeSystem path = (none, r) := by
  unfold Registry.ensure
  rw [if_pos]
  rcases h with rfl | hk
  · simp
  · simp [hk]

end Ensure

def Registry.ensureAll (r : Registry) (typeSystem : String) : List String → List (Option Node)
  | [] => []
  | path :: rest =>
    (r.ensure typeSystem path).1 :: (r.ensure typeSystem path).2.ensureAll typeSystem rest

@[simp]
theorem length_ensureAll (r : Registry) (typeSystem : String) (paths : List String) :
    (r.ensureAll typeSystem paths).length = paths.length := by
  induction paths generalizing r with
  | nil => rfl
  | cons path rest ih => simp [Registry.ensureAll, ih]

/-- Request `i`, the path `p`, is new: `p` is not empty and not a dot-prefix of a path registered
before it, once that path's leading dots are removed. -/
def Fresh (typeSystem : String) (done paths : List String) (out : List (Option Node)) (i : Nat)
    (p : String) : Prop :=
  p ≠ "" ∧ (∀ q ∈ done, ¬DotPrefix p (stripDots q)) ∧
    ∀ j q, j < i → paths[j]? = some q → out[j]? = some (some (registration typeSystem q)) →
      ¬DotPrefix p (stripDots q)

section Fresh

variable {typeSystem : String} {done paths : List String} {out : List (Option Node)} {p : String}

theorem fresh_zero (n : String) (o : Option Node) :
    Fresh typeSystem done (n :: paths) (o :: out) 0 p ↔
      p ≠ "" ∧ ∀ q ∈ done, ¬DotPrefix p (stripDots q) := by
  simp [Fresh]

theorem fresh_succ (n : String) (o : Option Node) (i : Nat) :
    Fresh typeSystem done (n :: paths) (o :: out) (i + 1) p ↔
      Fresh typeSystem done paths out i p ∧
        (o = some (registration typeSystem n) → ¬DotPrefix p (stripDots n)) := by
  constructor
  · rintro ⟨hp, hdone, hearlier⟩
    exact ⟨⟨hp, hdone, fun j q hj hq ho => hearlier (j + 1) q (by omega) hq ho⟩,
      fun ho => hearlier 0 n (by omega) rfl (by rw [ho]; rfl)⟩
  · rintro ⟨⟨hp, hdone, hearlier⟩, hfirst⟩
    refine ⟨hp, hdone, fun j q hj hq ho => ?_⟩
    cases j with
    | zero =>
      obtain rfl : n = q := by simpa using hq
      exact hfirst (by simpa using ho)
    | succ j => exact hearlier j q (by omega) hq ho

theorem fresh_append_done (n : String) (i : Nat) :
    Fresh typeSystem (done ++ [n]) paths out i p ↔
      Fresh typeSystem done paths out i p ∧ ¬DotPrefix p (stripDots n) := by
  simp only [Fresh, List.mem_append, List.mem_singleton, or_imp, forall_and, forall_eq]
  tauto

end Fresh

theorem ensureAll_getElem (typeSystem : String) : ∀ (paths done : List String) (r : Registry),
    r.known = done.flatMap prefixes → ∀ i p, paths[i]? = some p →
      ((r.ensureAll typeSystem paths)[i]? = some (some (registration typeSystem p)) ∧
          Fresh typeSystem done paths (r.ensureAll typeSystem paths) i p) ∨
        ((r.ensureAll typeSystem paths)[i]? = some none ∧
          ¬Fresh typeSystem done paths (r.ensureAll typeSystem paths) i p)
  | [], _, _, _, _, _, hp => by simp at hp
  | n :: rest, done, r, hr, 0, p, hp => by
    obtain rfl : n = p := by simpa using hp
    rw [Registry.ensureAll, fresh_zero]
    by_cases hn : n ≠ "" ∧ n ∉ r.known
    · -- a new path: the registrar's record of `done` does not hold it
      left
      rw [ensure_of_new r typeSystem hn.1 hn.2]
      have hdone := hn.2
      rw [hr, mem_flatMap_prefixes hn.1] at hdone
      exact ⟨rfl, hn.1, fun q hq h => hdone ⟨q, hq, h⟩⟩
    · right
      rw [ensure_of_known r typeSystem (by tauto)]
      refine ⟨rfl, fun ⟨hne, hdone⟩ => hn ⟨hne, ?_⟩⟩
      rw [hr, mem_flatMap_prefixes hne]
      exact fun ⟨q, hq, h⟩ => hdone q hq h
  | n :: rest, done, r, hr, i + 1, p, hp => by
    rw [List.getElem?_cons_succ] at hp
    rw [Registry.ensureAll, fresh_succ, List.getElem?_cons_succ]
    by_cases hn : n ≠ "" ∧ n ∉ r.known
    · -- `n` is registered and joins `done`
      rw [ensure_of_new r typeSystem hn.1 hn.2]
      have ih := ensureAll_getElem typeSystem rest (done ++ [n]) ⟨r.known ++ prefixes n⟩
        (by simp [hr]) i p hp
      simpa only [fresh_append_done, forall_const] using ih
    · rw [ensure_of_known r typeSystem (by tauto)]
      have ih := ensureAll_getElem typeSystem rest done r hr i p hp
      simpa using ih

theorem ensureAll_fresh (typeSystem : String) (paths : List String) (i : Nat) (p : String)
    (hp : paths[i]? = some p) :
    ((Registry.ensureAll {} typeSystem paths)[i]? = some (some (registration typeSystem p)) ∧
        Fresh typeSystem [] paths (Registry.ensureAll {} typeSystem paths) i p) ∨
      ((Registry.ensureAll {} typeSystem paths)[i]? = some none ∧
        ¬Fresh typeSystem [] paths (Registry.ensureAll {} typeSystem paths) i p) :=
  ensureAll_getElem typeSystem paths [] {} rfl i p hp

theorem ensureAll_registered_twice (typeSystem : String) (paths : List String) {i j : Nat}
    {p : String} (hij : i < j)
    (hi : (Registry.ensureAll {} typeSystem paths)[i]? = some (some (registration typeSystem p)))
    (hj : (Registry.ensureAll {} typeSystem paths)[j]? = some (some (registration typeSystem p))) :
    p.toList.head? = some '.' := by
  have hpath : ∀ {k : Nat}, (Registry.ensureAll {} typeSystem paths)[k]? =
      some (some (registration typeSystem p)) → paths[k]? = some p := by
    intro k hk
    have hlt : k < paths.length := by
      simpa using (List.getElem?_eq_some_iff.1 hk).1
    obtain ⟨q, hq⟩ : ∃ q, paths[k]? = some q := ⟨_, List.getElem?_eq_getElem hlt⟩
    rcases ensureAll_fresh typeSystem paths k q hq with ⟨hk', -⟩ | ⟨hk', -⟩
    · rw [hk] at hk'
      rw [hq, registration_injective typeSystem (Option.some.inj (Option.some.inj hk'))]
    · rw [hk] at hk'; simp at hk'
  rcases ensureAll_fresh typeSystem paths j p (hpath hj) with ⟨-, hfresh⟩ | ⟨hj', -⟩
  · exact head_of_not_dotPrefix_stripDots (hfresh.2.2 i p hij (hpath hi) hi)
  · rw [hj] at hj'; simp at hj'

theorem ensureAll_answered_iff (typeSystem : String) (paths : List String)
    (hdots : ∀ q ∈ paths, q.toList.head? ≠ some '.') (i : Nat) (p : String)
    (hp : paths[i]? = some p) :
    (∃ x, (Registry.ensureAll {} typeSystem paths)[i]? = some (some x)) ↔
      p ≠ "" ∧ ∀ j q, j < i → paths[j]? = some q →
        (Registry.ensureAll {} typeSystem paths)[j]? = some (some (registration typeSystem q)) →
        ¬DotPrefix p q := by
  have hstrip : ∀ {j q}, paths[j]? = some q → stripDots q = q := fun hq =>
    stripDots_of_head (hdots _ (List.mem_of_getElem? hq))
  have hfresh : Fresh typeSystem [] paths (Registry.ensureAll {} typeSystem paths) i p ↔
      p ≠ "" ∧ ∀ j q, j < i → paths[j]? = some q →
        (Registry.ensureAll {} typeSystem paths)[j]? = some (some (registration typeSystem q)) →
        ¬DotPrefix p q := by
    constructor
    · rintro ⟨hne, -, hearlier⟩
      exact ⟨hne, fun j q hj hq ho => hstrip hq ▸ hearlier j q hj hq ho⟩
    · rintro ⟨hne, hearlier⟩
      exact ⟨hne, by simp, fun j q hj hq ho => (hstrip hq).symm ▸ hearlier j q hj hq ho⟩
  rw [← hfresh]
  rcases ensureAll_fresh typeSystem paths i p hp with ⟨h, hf⟩ | ⟨h, hf⟩
  · simp [h, hf]
  · simp [h, hf]

theorem ensureAll_leading_dot :
    Registry.ensureAll {} "Type" [".A", ".A", "A"] =
        [some (registration "Type" ".A"), some (registration "Type" ".A"), none] ∧
      DotPrefix ".A" ".A" ∧ ¬DotPrefix "A" ".A" :=
  ⟨rfl, by decide, by decide⟩

end ProtoLayout.Namespace

namespace ProtoLayout.Layout

open Script Namespace

/-- Every path the registry holds is a prefix recorded for a registration among the statements. -/
def RegistryBacked (typeSystem : String) (acc : List Node × Registry) : Prop :=
  ∀ s ∈ acc.2.known, ∃ M, registration typeSystem M ∈ acc.1 ∧ s ∈ prefixes M

theorem RegistryBacked.append {typeSystem : String} {acc : List Node × Registry}
    (h : RegistryBacked typeSystem acc) (extra : List Node) :
    RegistryBacked typeSystem (acc.1 ++ extra, acc.2) := fun s hs =>
  let ⟨M, hM, hs⟩ := h s hs
  ⟨M, List.mem_append_left _ hM, hs⟩

theorem RegistryBacked.ensure {typeSystem path : String} {acc : List Node × Registry}
    (h : RegistryBacked typeSystem acc) :
    RegistryBacked typeSystem
      (acc.1 ++ (acc.2.ensure typeSystem path).1.toList, (acc.2.ensure typeSystem path).2) := by
  by_cases hnew : path ≠ "" ∧ path ∉ acc.2.known
  · rw [ensure_of_new acc.2 typeSystem hnew.1 hnew.2]
    intro s hs
    rcases List.mem_append.1 hs with hs | hs
    · exact (h.append _) s hs
    · exact ⟨path, by simp, hs⟩
  · rw [ensure_of_known acc.2 typeSystem (by tauto)]
    simpa using h

section Fragments

variable (opts : Options) (batch : Batch)

theorem fragmentStep_of_path (acc : List Node × Registry) {i : Nat} {d : Decl} {path : String}
    (hd : batch.get? i = some d) (hn : needsNamespace d = true)
    (hp : d.name.pathText? = some path) :
    fragmentStep opts batch acc i =
      (acc.1 ++ (acc.2.ensure opts.typeSystem path).1.toList ++ fragmentOf opts batch i,
        (acc.2.ensure opts.typeSystem path).2) := by
  simp [fragmentStep, fragmentOf, hd, hn, hp]

theorem fragmentStep_of_no_path (acc : List Node × Registry) {i : Nat}
    (h : ∀ d path, batch.get? i = some d → needsNamespace d = true →
      d.name.pathText? ≠ some path) :
    fragmentStep opts batch acc i = (acc.1 ++ fragmentOf opts batch i, acc.2) := by
  unfold fragmentStep fragmentOf
  cases hd : batch.get? i with
  | none => simp
  | some d =>
    dsimp only
    by_cases hn : needsNamespace d = true
    · cases hp : d.name.pathText? with
      | none => simp [hn]
      | some path => exact absurd hp (h d path hd hn)
    · simp [hn]

theorem registryBacked_fragmentStep (acc : List Node × Registry) (i : Nat)
    (h : RegistryBacked opts.typeSystem acc) :
    RegistryBacked opts.typeSystem (fragmentStep opts batch acc i) := by
  by_cases hpath : ∃ d path, batch.get? i = some d ∧ needsNamespace d = true ∧
      d.name.pathText? = some path
  · obtain ⟨d, path, hd, hn, hp⟩ := hpath
    rw [fragmentStep_of_path opts batch acc hd hn hp]
    exact h.ensure.append _
  · rw [fragmentStep_of_no_path opts batch acc fun d path hd hn hp => hpath ⟨d, path, hd, hn, hp⟩]
    exact h.append _

theorem registryBacked_foldl (opts : Options) (batch : Batch) :
    ∀ (order : List Nat) (acc : List Node × Registry), RegistryBacked opts.typeSystem acc →
      RegistryBacked opts.typeSystem (order.foldl (fragmentStep opts batch) acc)
  | [], _, h => h
  | i :: order, acc, h =>
    registryBacked_foldl opts batch order _ (registryBacked_fragmentStep opts batch acc i h)

theorem prefix_foldl_fragmentStep :
    ∀ (order : List Nat) (acc : List Node × Registry),
      acc.1 <+: (order.foldl (fragmentStep opts batch) acc).1
  | [], _ => List.prefix_refl _
  | i :: order, acc => by
    obtain ⟨r, -, hstep⟩ := fragmentStep_fst opts batch acc i
    have hnext := prefix_foldl_fragmentStep order (fragmentStep opts batch acc i)
    rw [hstep] at hnext
    exact (List.prefix_append _ _).trans hnext

theorem prefix_fragments_take (order : List Nat) (n : Nat) :
    fragments opts batch (order.take n) <+: fragments opts batch order := by
  rw [fragments_eq, fragments_eq]
  conv_rhs => rw [← List.take_append_drop n order, List.foldl_append]
  exact prefix_foldl_fragmentStep opts batch _ _

theorem fragments_prefix_statements :
    fragments opts batch (layout opts batch).declarationOrder <+: (layout opts batch).statements := by
  unfold layout
  dsimp only
  rw [List.append_assoc]
  exact List.prefix_append _ _

theorem layout_registers_namespace {k i : Nat} {d : Decl} {N : String}
    (hk : (layout opts batch).declarationOrder[k]? = some i) (hd : batch.get? i = some d)
    (hn : needsNamespace d = true) (hN : d.name.pathText? = some N) (hne : N ≠ "") :
    ∃ pre, fragments opts batch ((layout opts batch).declarationOrder.take (k + 1)) =
        pre ++ fragmentOf opts batch i ∧
      fragments opts batch ((layout opts batch).declarationOrder.take (k + 1)) <+:
        (layout opts batch).statements ∧
      ∃ M, registration opts.typeSystem M ∈ pre ∧ (N = M ∨ DotPrefix N (stripDots M)) := by
  set order := (layout opts batch).declarationOrder
  set acc := (order.take k).foldl (fragmentStep opts batch) ([], {})
  have htake : order.take (k + 1) = order.take k ++ [i] := by
    rw [List.take_add_one, hk]; rfl
  have hfrag : fragments opts batch (order.take (k + 1)) = (fragmentStep opts batch acc i).1 := by
    rw [fragments_eq, htake, List.foldl_append]; rfl
  rw [fragmentStep_of_path opts batch acc hd hn hN] at hfrag
  refine ⟨acc.1 ++ (acc.2.ensure opts.typeSystem N).1.toList, hfrag,
    (prefix_fragments_take opts batch order (k + 1)).trans (fragments_prefix_statements opts batch), ?_⟩
  by_cases hnew : N ∉ acc.2.known
  · rw [ensure_of_new acc.2 opts.typeSystem hne hnew]
    exact ⟨N, by simp, .inl rfl⟩
  · -- `N` is already recorded, by the registration of a path among the statements so far
    have hback : RegistryBacked opts.typeSystem acc :=
      registryBacked_foldl opts batch _ _ fun s hs => by simp at hs
    obtain ⟨M, hM, hs⟩ := hback N (not_not.1 hnew)
    exact ⟨M, List.mem_append_left _ hM, .inr ((mem_prefixes_of_ne hne).1 hs)⟩

/-- A fresh registrar answers a request with its registration exactly when the path is new, and
registers a path twice only when it has a leading dot; a declaration under a non-empty
namespace comes after a registration that records it. -/
theorem namespace_registration (typeSystem : String) (paths : List String) (opts : Options)
    (batch : Batch) :
    (Registry.ensureAll {} typeSystem paths).length = paths.length ∧
    (∀ (i : Nat) (p : String), paths[i]? = some p →
      ((Registry.ensureAll {} typeSystem paths)[i]? = some (some (registration typeSystem p)) ∧
          Fresh typeSystem [] paths (Registry.ensureAll {} typeSystem paths) i p) ∨
        ((Registry.ensureAll {} typeSystem paths)[i]? = some none ∧
          ¬Fresh typeSystem [] paths (Registry.ensureAll {} typeSystem paths) i p)) ∧
    ((∀ q ∈ paths, q.toList.head? ≠ some '.') → ∀ (i : Nat) (p : String), paths[i]? = some p →
      ((∃ x, (Registry.ensureAll {} typeSystem paths)[i]? = some (some x)) ↔
        p ≠ "" ∧ ∀ (j : Nat) (q : String), j < i → paths[j]? = some q →
          (Registry.ensureAll {} typeSystem paths)[j]? = some (some (registration typeSystem q)) →
          ¬DotPrefix p q)) ∧
    (∀ (i j : Nat) (p : String), i < j →
      (Registry.ensureAll {} typeSystem paths)[i]? = some (some (registration typeSystem p)) →
      (Registry.ensureAll {} typeSystem paths)[j]? = some (some (registration typeSystem p)) →
      p.toList.head? = some '.') ∧
    ∀ (k i : Nat) (d : Decl) (N : String), (layout opts batch).declarationOrder[k]? = some i → batch.get? i = some d →
      needsNamespace d = true → d.name.pathText? = some N → N ≠ "" →
      ∃ pre, fragments opts batch ((layout opts batch).declarationOrder.take (k + 1)) =
          pre ++ fragmentOf opts batch i ∧
        fragments opts batch ((layout opts batch).declarationOrder.take (k + 1)) <+:
          (layout opts batch).statements ∧
        ∃ M, registration opts.typeSystem M ∈ pre ∧ (N = M ∨ DotPrefix N (stripDots M)) :=
  ⟨length_ensureAll _ _ _, ensureAll_fresh typeSystem paths,
    fun hdots => ensureAll_answered_iff typeSystem paths hdots,
    fun _ _ _ hij hi hj => ensureAll_registered_twice typeSystem paths hij hi hj,
    fun _ _ _ _ hk hd hn hN hne => layout_registers_namespace opts batch hk hd hn hN hne⟩

/-- After `A.B` is registered, a request for `A` gets no statement. -/
theorem namespace_registration_nested :
    (∀ q ∈ ["A.B", "A"], q.toList.head? ≠ some '.') ∧
      ¬∃ x, (Registry.ensureAll {} "Type" ["A.B", "A"])[1]? = some (some x) := by
  refine ⟨by decide, fun hx => ?_⟩
  have h := ((namespace_registration "Type" ["A.B", "A"] {} {}).2.2.1 (by decide) 1 "A" rfl).1 hx
  exact h.2 0 "A.B" (by omega) rfl rfl (.inr (by decide))

end Fragments

end ProtoLayout.Layout
