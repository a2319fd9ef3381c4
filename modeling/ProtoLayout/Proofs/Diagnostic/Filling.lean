import ProtoLayout.Diagnostic
import Mathlib.Data.List.Induction
import Mathlib.Data.List.Infix
import Mathlib.Data.List.TakeWhile

/-!
Filling message templates one argument after another agrees with filling all placeholders at
once, reading the template once, as long as each argument but the last is inert.
-/

namespace ProtoLayout

/-- Wherever the placeholder `{i}` of an argument starts, the argument is written and reading goes
on after it; what an argument brings in is never read again. -/
def fillPlaceholders (args : List String) : List Char → List Char
  | [] => []
  | c :: cs =>
    match args.zipIdx.find? (fun a => (placeholder a.2).toList.isPrefixOf (c :: cs)) with
    | some (arg, i) =>
      arg.toList ++ fillPlaceholders args ((c :: cs).drop (placeholder i).toList.length)
    | none => c :: fillPlaceholders args cs
termination_by s => s.length
decreasing_by
  · have : 0 < (placeholder i).toList.length := by simp [placeholder]
    simp only [List.length_drop, List.length_cons]
    omega
  · simp

/-- Holds no `{` and starts with neither a decimal digit nor `}`, so it cannot complete a
placeholder begun before it. -/
def inert (arg : String) : Bool :=
  match arg.toList with
  | [] => false
  | c :: _ => !c.isDigit && c != '}' && !arg.toList.contains '{'

theorem inert_iff {arg : String} : inert arg = true ↔
    '{' ∉ arg.toList ∧ ∃ c rest, arg.toList = c :: rest ∧ c.isDigit = false ∧ c ≠ '}' := by
  unfold inert
  split
  · next h => simp [h]
  · next c rest h => simp [h, and_comm, and_left_comm]

section Placeholder

theorem placeholder_toList (i : Nat) :
    (placeholder i).toList = '{' :: (Nat.toDigits 10 i ++ ['}']) := by
  simp [placeholder, Nat.toList_repr]

theorem isDigit_of_mem_digits (i : Nat) : ∀ c ∈ Nat.toDigits 10 i, c.isDigit = true :=
  fun _ hc => Nat.isDigit_of_mem_toDigits (by decide) (by decide) hc

theorem digits_close_eq {w x : List Char} (hw : ∀ c ∈ w.head?, c.isDigit = false) :
    ∀ {e d : List Char}, (∀ c ∈ e, c.isDigit = true) → (∀ c ∈ d, c.isDigit = true) →
      e ++ '}' :: x = d ++ w → e = d ∧ w = '}' :: x
  | [], [], _, _, h => ⟨rfl, by simpa using h.symm⟩
  | [], c :: d, _, hd, h => by
    simp only [List.nil_append, List.cons_append, List.cons.injEq] at h
    exact absurd (hd '}' (by rw [h.1]; simp)) (by decide)
  | c :: e, [], he, _, h => by
    have hw0 : w = c :: (e ++ '}' :: x) := by simpa using h.symm
    have hc := hw c (by simp [hw0])
    rw [he c (by simp)] at hc
    exact absurd hc (by decide)
  | c :: e, c' :: d, he, hd, h => by
    simp only [List.cons_append, List.cons.injEq] at h
    obtain ⟨rfl, h⟩ := h
    obtain ⟨rfl, hw'⟩ := digits_close_eq hw (fun a ha => he a (by simp [ha]))
      (fun a ha => hd a (by simp [ha])) h
    exact ⟨rfl, hw'⟩

/-- No placeholder begins another. -/
theorem eq_of_placeholder_prefixes {i j : Nat} {s : List Char}
    (hi : (placeholder i).toList <+: s) (hj : (placeholder j).toList <+: s) : i = j := by
  have key : ∀ {i j : Nat}, (placeholder i).toList <+: (placeholder j).toList → i = j := by
    intro i j h
    rw [placeholder_toList, placeholder_toList, List.cons_prefix_cons] at h
    obtain ⟨x, hx⟩ := h.2
    have hx' : Nat.toDigits 10 i ++ '}' :: x = Nat.toDigits 10 j ++ ['}'] := by simpa using hx
    have hdigits := (digits_close_eq (by simp) (isDigit_of_mem_digits i) (isDigit_of_mem_digits j) hx').1
    have := congrArg (Nat.ofDigitChars 10 · 0) hdigits
    simpa [Nat.ofDigitChars_ten_toDigits] using this
  rcases List.prefix_or_prefix_of_prefix hi hj with h | h
  · exact key h
  · exact (key h).symm

theorem not_placeholder_prefix_of_ne {c : Char} (hc : c ≠ '{') (i : Nat) (cs : List Char) :
    ¬ (placeholder i).toList <+: c :: cs := by
  rw [placeholder_toList, List.cons_prefix_cons]
  exact fun h => hc h.1.symm

theorem find?_placeholder {args : List String} {s : List Char} {i : Nat} (hi : i < args.length)
    (h : (placeholder i).toList <+: s) :
    args.zipIdx.find? (fun a => (placeholder a.2).toList.isPrefixOf s) = some (args[i], i) := by
  rw [List.find?_eq_some_iff_getElem]
  refine ⟨by simpa [List.isPrefixOf_iff_prefix] using h, i, by simpa using hi,
    by simp [List.getElem_zipIdx], fun j hj => ?_⟩
  -- an earlier placeholder that started the text would be this one
  simp only [List.getElem_zipIdx, Nat.zero_add, Bool.not_eq_true', Bool.eq_false_iff]
  intro hj'
  rw [List.isPrefixOf_iff_prefix] at hj'
  exact absurd (eq_of_placeholder_prefixes hj' h) (by omega)

theorem find?_placeholder_eq_none {args : List String} {s : List Char}
    (h : ∀ i < args.length, ¬ (placeholder i).toList <+: s) :
    args.zipIdx.find? (fun a => (placeholder a.2).toList.isPrefixOf s) = none := by
  rw [List.find?_eq_none]
  rintro ⟨arg, i⟩ hmem
  have hi := (List.mem_zipIdx hmem).2.1
  simpa [List.isPrefixOf_iff_prefix] using h i (by omega)

end Placeholder

section Replace

@[simp] theorem replaceAll_nil (pat rep : List Char) : replaceAll pat rep [] = [] := by
  rw [replaceAll]

theorem replaceAll_pattern_append {pat : List Char} (hpat : pat ≠ []) (rep t : List Char) :
    replaceAll pat rep (pat ++ t) = rep ++ replaceAll pat rep t := by
  obtain ⟨c, cs, rfl⟩ := List.exists_cons_of_ne_nil hpat
  rw [List.cons_append, replaceAll, dif_pos ⟨hpat, by simp [List.isPrefixOf_iff_prefix]⟩]
  simp

theorem replaceAll_cons {pat : List Char} {c : Char} {cs : List Char} (h : ¬ pat <+: c :: cs)
    (rep : List Char) : replaceAll pat rep (c :: cs) = c :: replaceAll pat rep cs := by
  rw [replaceAll, dif_neg (by simp [List.isPrefixOf_iff_prefix, h])]

theorem replaceAll_append_of_not_mem {x : Char} {p a : List Char} (hx : x ∉ a) (rep b : List Char) :
    replaceAll (x :: p) rep (a ++ b) = a ++ replaceAll (x :: p) rep b := by
  induction a with
  | nil => rfl
  | cons c a ih =>
    simp only [List.mem_cons, not_or] at hx
    rw [List.cons_append, replaceAll_cons (by rw [List.cons_prefix_cons]; exact fun h => hx.1 h.1),
      ih hx.2, List.cons_append]

end Replace

section Fill

variable {args : List String}

@[simp] theorem fillPlaceholders_nil : fillPlaceholders args [] = [] := by
  rw [fillPlaceholders]

theorem fillPlaceholders_placeholder {i : Nat} (hi : i < args.length) (t : List Char) :
    fillPlaceholders args ((placeholder i).toList ++ t) = args[i].toList ++ fillPlaceholders args t := by
  have hcons : (placeholder i).toList ++ t = '{' :: (Nat.toDigits 10 i ++ '}' :: t) := by
    simp [placeholder_toList]
  have hfind := find?_placeholder hi (List.prefix_append (placeholder i).toList t)
  rw [hcons] at hfind ⊢
  rw [fillPlaceholders, hfind]
  simp only [← hcons, List.drop_left]

theorem fillPlaceholders_cons {c : Char} {cs : List Char}
    (h : ∀ i < args.length, ¬ (placeholder i).toList <+: c :: cs) :
    fillPlaceholders args (c :: cs) = c :: fillPlaceholders args cs := by
  rw [fillPlaceholders, find?_placeholder_eq_none h]

theorem fillPlaceholders_append_of_not_mem {a : List Char} (ha : '{' ∉ a) (b : List Char) :
    fillPlaceholders args (a ++ b) = a ++ fillPlaceholders args b := by
  induction a with
  | nil => rfl
  | cons c a ih =>
    simp only [List.mem_cons, not_or] at ha
    rw [List.cons_append, fillPlaceholders_cons fun i _ => not_placeholder_prefix_of_ne
      (Ne.symm ha.1) i _, ih ha.2, List.cons_append]

theorem fillPlaceholders_placeholder_of_le {i : Nat} (hi : args.length ≤ i) (t : List Char) :
    fillPlaceholders args ((placeholder i).toList ++ t) =
      (placeholder i).toList ++ fillPlaceholders args t := by
  have hdigits : '{' ∉ Nat.toDigits 10 i ++ ['}'] := by
    intro h
    rcases List.mem_append.1 h with h | h
    · exact absurd (isDigit_of_mem_digits i _ h) (by decide)
    · simp at h
  have hcons : (placeholder i).toList ++ t = '{' :: (Nat.toDigits 10 i ++ ['}'] ++ t) := by
    simp [placeholder_toList]
  -- any placeholder starting here is the one of index `i`, which has no argument
  have hnone : ∀ j < args.length, ¬ (placeholder j).toList <+: '{' :: (Nat.toDigits 10 i ++ ['}'] ++ t) := by
    intro j hj hpre
    rw [← hcons] at hpre
    exact absurd (eq_of_placeholder_prefixes hpre (List.prefix_append _ t)) (by omega)
  rw [hcons, fillPlaceholders_cons hnone, fillPlaceholders_append_of_not_mem hdigits, placeholder_toList]
  simp

theorem fillPlaceholders_no_args (t : List Char) : fillPlaceholders [] t = t := by
  induction t with
  | nil => simp
  | cons c t ih => rw [fillPlaceholders_cons fun i hi => absurd hi (by simp), ih]

/-- Filling with inert arguments completes no placeholder at a character it keeps. -/
theorem placeholder_prefix_of_fill (hargs : ∀ b ∈ args, inert b = true) {i : Nat} {c : Char}
    {cs : List Char} (h : (placeholder i).toList <+: c :: fillPlaceholders args cs) :
    (placeholder i).toList <+: c :: cs := by
  rw [placeholder_toList, List.cons_prefix_cons] at h ⊢
  obtain ⟨rfl, x, hx⟩ := h
  refine ⟨rfl, ?_⟩
  have hrun : ∀ c ∈ cs.takeWhile Char.isDigit, c.isDigit = true := fun c hc =>
    List.mem_takeWhile_imp hc
  have hsplit : cs = cs.takeWhile Char.isDigit ++ cs.dropWhile Char.isDigit :=
    List.takeWhile_append_dropWhile.symm
  have hopen : '{' ∉ cs.takeWhile Char.isDigit := fun h => absurd (hrun '{' h) (by decide)
  rw [hsplit, fillPlaceholders_append_of_not_mem hopen] at hx
  generalize hr : cs.dropWhile Char.isDigit = r at hx hsplit
  cases r with
  | nil =>
    have hx' : Nat.toDigits 10 i ++ '}' :: x = cs.takeWhile Char.isDigit ++ [] := by simpa using hx
    have := (digits_close_eq (by simp) (isDigit_of_mem_digits i) hrun hx').2
    simp at this
  | cons y r =>
    have hy : y.isDigit = false := by
      have := @List.head_dropWhile_not _ Char.isDigit cs (by simp [hr])
      simpa [hr] using this
    by_cases hearly : ∃ j < args.length, (placeholder j).toList <+: y :: r
    · -- an argument is written next; it starts with no digit and no closing brace
      obtain ⟨j, hj, after, hafter⟩ := hearly
      obtain ⟨-, z, rest, hz, hzdig, hzclose⟩ := inert_iff.1 (hargs args[j] (List.getElem_mem hj))
      rw [← hafter, fillPlaceholders_placeholder hj, hz] at hx
      have hx' : Nat.toDigits 10 i ++ '}' :: x =
          cs.takeWhile Char.isDigit ++ z :: (rest ++ fillPlaceholders args after) := by simpa using hx
      have := (digits_close_eq (by simpa using hzdig) (isDigit_of_mem_digits i) hrun hx').2
      exact absurd (List.cons_eq_cons.1 this).1 hzclose
    · -- the template's own character is kept, so it is the closing brace
      simp only [not_exists, not_and] at hearly
      rw [fillPlaceholders_cons hearly] at hx
      have hx' : Nat.toDigits 10 i ++ '}' :: x =
          cs.takeWhile Char.isDigit ++ y :: fillPlaceholders args r := by simpa using hx
      obtain ⟨hsame, hclose⟩ := digits_close_eq (by simpa using hy) (isDigit_of_mem_digits i) hrun hx'
      obtain ⟨rfl, -⟩ := List.cons_eq_cons.1 hclose
      exact ⟨r, by rw [hsplit, hsame]; simp⟩

/-- The recursion follows the template. -/
theorem replaceAll_fillPlaceholders (hargs : ∀ b ∈ args, inert b = true) (a : String) :
    ∀ t : List Char, replaceAll (placeholder args.length).toList a.toList (fillPlaceholders args t) =
      fillPlaceholders (args ++ [a]) t
  | [] => by simp
  | c :: cs => by
    have hpat : (placeholder args.length).toList = '{' :: (Nat.toDigits 10 args.length ++ ['}']) :=
      placeholder_toList _
    by_cases hearly : ∃ j < args.length, (placeholder j).toList <+: c :: cs
    · -- an earlier argument: both sides write it, and the step passes over it
      obtain ⟨j, hj, after, hafter⟩ := hearly
      have hopen := (inert_iff.1 (hargs args[j] (List.getElem_mem hj))).1
      -- the text after the placeholder is shorter, for the recursive call
      have hlen : after.length < (c :: cs).length := by
        rw [← hafter, List.length_append, placeholder_toList]
        simp
      rw [← hafter, fillPlaceholders_placeholder hj, hpat, replaceAll_append_of_not_mem hopen, ← hpat,
        replaceAll_fillPlaceholders hargs a after,
        fillPlaceholders_placeholder (by simp; omega), List.getElem_append_left hj]
    · by_cases hnext : (placeholder args.length).toList <+: c :: cs
      · -- the next argument: the earlier filling keeps its placeholder, the step replaces it
        obtain ⟨after, hafter⟩ := hnext
        have hlen : after.length < (c :: cs).length := by
          rw [← hafter, List.length_append, placeholder_toList]
          simp
        rw [← hafter, fillPlaceholders_placeholder_of_le (Nat.le_refl _),
          replaceAll_pattern_append (by simp [hpat]), replaceAll_fillPlaceholders hargs a after,
          fillPlaceholders_placeholder (by simp)]
        simp
      · -- neither: the character is kept, and filling completed no placeholder at it
        simp only [not_exists, not_and] at hearly
        have hall : ∀ i < (args ++ [a]).length, ¬ (placeholder i).toList <+: c :: cs := by
          intro i hi
          rcases Nat.lt_or_ge i args.length with hlt | hge
          · exact hearly i hlt
          · have : i = args.length := by simp at hi; omega
            exact this ▸ hnext
        rw [fillPlaceholders_cons hearly, fillPlaceholders_cons hall,
          replaceAll_cons (fun h => hnext (placeholder_prefix_of_fill hargs h)),
          replaceAll_fillPlaceholders hargs a cs]
termination_by t => t.length
decreasing_by
  all_goals first
    | exact hlen
    | simp

theorem foldl_replaceAll_placeholders (template : List Char) (args : List String)
    (hargs : ∀ a ∈ args.dropLast, inert a = true) :
    args.zipIdx.foldl (fun text (arg, i) => replaceAll (placeholder i).toList arg.toList text)
      template = fillPlaceholders args template := by
  induction args using List.reverseRecOn with
  | nil => simp [fillPlaceholders_no_args]
  | append_singleton args a ih =>
    rw [List.dropLast_concat] at hargs
    rw [List.zipIdx_append, List.foldl_append,
      ih fun b hb => hargs b (List.mem_of_mem_dropLast hb)]
    simp [replaceAll_fillPlaceholders hargs]

end Fill

/-- A message is its template with all placeholders filled at once whenever each argument but the
last is inert; with one argument there is no condition. -/
theorem formatMessage_eq_fillPlaceholders (template : String) (args : List String)
    (hargs : ∀ a ∈ args.dropLast, inert a = true) :
    formatMessage template args = String.ofList (fillPlaceholders args template.toList) := by
  rw [formatMessage, foldl_replaceAll_placeholders _ _ hargs]

theorem formatMessage_eq_fillPlaceholders_calls :
    (∀ a ∈ ["Program.main", "\x7b0\x7d"].dropLast, inert a = true) ∧
    formatMessage "\x7b1\x7d calls \x7b0\x7d" ["Program.main", "\x7b0\x7d"] =
      String.ofList (fillPlaceholders ["Program.main", "\x7b0\x7d"] "\x7b1\x7d calls \x7b0\x7d".toList) := by
  have h : ∀ a ∈ ["Program.main", "\x7b0\x7d"].dropLast, inert a = true := by decide
  exact ⟨h, formatMessage_eq_fillPlaceholders _ _ h⟩

/-- The `{1}` brought in by the first argument is filled with the second, and an empty first
argument completes the `{1}` around it. -/
theorem formatMessage_refills :
    formatMessage "\x7b0\x7d" ["\x7b1\x7d", "x"] = "x" ∧
    String.ofList (fillPlaceholders ["\x7b1\x7d", "x"] "\x7b0\x7d".toList) = "\x7b1\x7d" ∧
    formatMessage "\x7b\x7b0\x7d1\x7d" ["", "x"] = "x" ∧
    String.ofList (fillPlaceholders ["", "x"] "\x7b\x7b0\x7d1\x7d".toList) = "\x7b1\x7d" :=
  ⟨by decide +kernel, by decide +kernel, by decide +kernel, by decide +kernel⟩

end ProtoLayout
