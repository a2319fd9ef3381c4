import ProtoLayout.TypeName
import ProtoLayout.Script.Render
import Mathlib.Data.String.Basic

/-!
Dotted names are read back by splitting at every dot, which keeps empty segments.
-/

namespace ProtoLayout

open String

section Split

/-- The splitter walks byte positions; `l` is the text already split off, `m` the current piece. -/
theorem splitOnAux_singleton (c : Char) (l m r : List Char) (acc : List String) :
    String.splitOnAux (String.ofList (l ++ m ++ r)) (String.singleton c) ⟨utf8Len l⟩
      ⟨utf8Len l + utf8Len m⟩ 0 acc =
      acc.reverse ++ (List.splitOnPPrepend (· == c) r m.reverse).map String.ofList := by
  have hsep : String.singleton c = String.ofList ([] ++ c :: []) := by simp
  have hget : Pos.Raw.get (String.singleton c) 0 = c := by
    rw [hsep]; exact get_of_valid [] [c]
  have hnext : Pos.Raw.next (String.singleton c) 0 = ⟨c.utf8Size⟩ := by
    rw [hsep]; simpa using next_of_valid [] c []
  have hsepEnd : Pos.Raw.atEnd (String.singleton c) ⟨c.utf8Size⟩ = true := by
    simp [Pos.Raw.atEnd]
  induction r generalizing l m acc with
  | nil =>
    have hend : Pos.Raw.atEnd (ofList (l ++ m ++ [])) ⟨utf8Len l + utf8Len m⟩ = true := by
      simpa using atEnd_of_valid (l ++ m) []
    rw [String.splitOnAux, if_pos hend, extract_of_valid l m []]
    simp
  | cons x r ih =>
    have hend : ¬ Pos.Raw.atEnd (ofList (l ++ m ++ x :: r)) ⟨utf8Len l + utf8Len m⟩ = true := by
      simpa using (atEnd_of_valid (l ++ m) (x :: r)).not
    have hx : Pos.Raw.get (ofList (l ++ m ++ x :: r)) ⟨utf8Len l + utf8Len m⟩ = x := by
      simpa using get_of_valid (l ++ m) (x :: r)
    have hxnext : Pos.Raw.next (ofList (l ++ m ++ x :: r)) ⟨utf8Len l + utf8Len m⟩ =
        ⟨utf8Len l + utf8Len m + x.utf8Size⟩ := by
      simpa using next_of_valid (l ++ m) x r
    rw [String.splitOnAux, if_neg hend, hx, hget, hnext, hxnext, if_pos hsepEnd]
    by_cases hxc : x = c
    · -- a separator: the current piece is closed and a new one starts after it
      subst hxc
      have hcut : (⟨utf8Len l + utf8Len m + x.utf8Size⟩ : Pos.Raw).unoffsetBy ⟨x.utf8Size⟩ =
          ⟨utf8Len l + utf8Len m⟩ := by
        simp [Pos.Raw.unoffsetBy]
      have key := ih (l ++ m ++ [x]) [] (ofList m :: acc)
      rw [show l ++ m ++ [x] ++ [] ++ r = l ++ m ++ x :: r by simp,
        show utf8Len (l ++ m ++ [x]) = utf8Len l + utf8Len m + x.utf8Size by simp; omega,
        utf8Len_nil, Nat.add_zero] at key
      rw [beq_self_eq_true, if_pos rfl, hcut, extract_of_valid l m (x :: r), key,
        List.splitOnPPrepend_cons_pos (by simp)]
      simp
    · -- any other character extends the current piece
      have key := ih l (m ++ [x]) acc
      rw [show l ++ (m ++ [x]) ++ r = l ++ m ++ x :: r by simp,
        show utf8Len l + utf8Len (m ++ [x]) = utf8Len l + utf8Len m + x.utf8Size by
          simp; omega] at key
      have hstay : (⟨utf8Len l + utf8Len m⟩ : Pos.Raw).unoffsetBy 0 = ⟨utf8Len l + utf8Len m⟩ := by
        simp [Pos.Raw.unoffsetBy]
      rw [if_neg (by simpa using hxc), hstay, hxnext, key,
        List.splitOnPPrepend_cons_neg (by simpa using hxc)]
      simp

theorem splitOn_dot (s : String) : s.splitOn "." = (s.toList.splitOn '.').map String.ofList := by
  have h := splitOnAux_singleton '.' [] [] s.toList []
  simp only [List.nil_append, ofList_toList, utf8Len_nil, Nat.add_zero, List.reverse_nil,
    List.splitOnPPrepend_nil_right] at h
  rw [String.splitOn, if_neg (by decide)]
  exact h

theorem splitOn_dot_ne_nil (s : String) : s.splitOn "." ≠ [] := by
  simp [splitOn_dot]

theorem not_mem_intercalate {c : Char} {sep : List Char} (hsep : c ∉ sep) :
    ∀ {l : List (List Char)}, (∀ seg ∈ l, c ∉ seg) → c ∉ sep.intercalate l
  | [], _ => by simp
  | [x], h => by simpa using h
  | x :: y :: zs, h => by
    rw [List.intercalate_cons_cons]
    simp only [List.mem_append, not_or]
    exact ⟨⟨h x (by simp), hsep⟩, not_mem_intercalate hsep fun seg hs => h seg (by simp_all)⟩

theorem intercalate_splitOn_dot (s : String) : ".".intercalate (s.splitOn ".") = s := by
  rw [← String.toList_inj, String.toList_intercalate, splitOn_dot, List.map_map]
  simp [List.intercalate_splitOn]

theorem splitOn_dot_intercalate {segs : List String} (hsegs : ∀ seg ∈ segs, '.' ∉ seg.toList)
    (hne : segs ≠ []) : (".".intercalate segs).splitOn "." = segs := by
  rw [splitOn_dot, String.toList_intercalate]
  have h := List.splitOn_intercalate '.'
    (show ∀ l ∈ segs.map String.toList, '.' ∉ l by simpa using hsegs) (by simpa using hne)
  simp [h]

end Split

namespace TypeName

theorem simpleName_singleton (path : List String) (s : String) :
    simpleName ⟨path, [s]⟩ = s := by
  simp [simpleName]

theorem qualified_eq_intercalate (n : TypeName) :
    n.qualified = ".".intercalate (n.path ++ [n.simpleName]) := by
  unfold qualified pathText?
  cases hp : n.path with
  | nil => simp
  | cons seg rest =>
    simp only [List.isEmpty_cons, Bool.false_eq_true, ↓reduceIte]
    rw [String.intercalate_append_of_ne_nil (by simp) (by simp), String.intercalate_singleton]

theorem parse_eq (q : String) :
    parse q = ⟨(q.splitOn ".").dropLast, [(q.splitOn ".").getLast?.getD ""]⟩ := rfl

theorem qualified_parse (q : String) : (parse q).qualified = q := by
  have hne := splitOn_dot_ne_nil q
  have hlast : (q.splitOn ".").getLast?.getD "" = (q.splitOn ".").getLast hne := by
    simp [List.getLast?_eq_some_getLast hne]
  rw [qualified_eq_intercalate, parse_eq, hlast, simpleName_singleton,
    List.dropLast_append_getLast hne, intercalate_splitOn_dot]

theorem not_dot_mem_simpleName {n : TypeName} (h : ∀ seg ∈ n.nesting, '.' ∉ seg.toList) :
    '.' ∉ n.simpleName.toList := by
  rw [simpleName, String.toList_intercalate]
  exact not_mem_intercalate (by decide) (by simpa using h)

theorem parse_qualified {n : TypeName} (hpath : ∀ seg ∈ n.path, '.' ∉ seg.toList)
    (hnest : ∀ seg ∈ n.nesting, '.' ∉ seg.toList) :
    parse n.qualified = ⟨n.path, [n.simpleName]⟩ := by
  have hsegs : ∀ seg ∈ n.path ++ [n.simpleName], '.' ∉ seg.toList := by
    intro seg hs
    rcases List.mem_append.1 hs with hp | hs
    · exact hpath seg hp
    · rw [List.mem_singleton.1 hs]
      exact not_dot_mem_simpleName hnest
  rw [parse_eq, qualified_eq_intercalate, splitOn_dot_intercalate hsegs (by simp)]
  simp

end TypeName

namespace Script.Node

theorem textAt_member (level : UInt32) (o : Node) (name : String) :
    (Node.member o name).textAt level = o.head (o.textAt level) ++ "." ++ name := rfl

theorem text_foldl_member : ∀ (names : List String) (o : Node), o.isFunc = false →
    (names.foldl .member o).text = ".".intercalate (o.text :: names)
  | [], o, _ => by simp
  | name :: names, o, ho => by
    rw [List.foldl_cons, text_foldl_member names _ rfl, text, textAt_member, head, if_neg (by simp [ho])]
    simp [text, String.append_assoc]

theorem text_dotted (p : String) : (dotted p).text = p := by
  obtain ⟨first, rest, hsplit⟩ := List.exists_cons_of_ne_nil (splitOn_dot_ne_nil p)
  rw [dotted, hsplit, text_foldl_member rest _ rfl, ← intercalate_splitOn_dot p, hsplit]
  rfl

end Script.Node

/-- Reading a qualified name and writing it again gives the text back; a name whose segments hold
no dot is read back as itself; the member chain built from a path prints as the path. -/
theorem dotted_names_roundtrip :
    (∀ q : String, (TypeName.parse q).qualified = q) ∧
    (∀ n : TypeName, (∀ seg ∈ n.path, '.' ∉ seg.toList) → (∀ seg ∈ n.nesting, '.' ∉ seg.toList) →
      TypeName.parse n.qualified = ⟨n.path, [n.simpleName]⟩) ∧
    (∀ p : String, (Script.Node.dotted p).text = p) :=
  ⟨TypeName.qualified_parse, fun _ => TypeName.parse_qualified, Script.Node.text_dotted⟩

theorem dotted_names_roundtrip_nested :
    (∀ seg ∈ ["App", "Models"], '.' ∉ seg.toList) ∧ (∀ seg ∈ ["Outer", "Inner"], '.' ∉ seg.toList) ∧
    TypeName.parse (⟨["App", "Models"], ["Outer", "Inner"]⟩ : TypeName).qualified =
      ⟨["App", "Models"], ["Outer$Inner"]⟩ := by
  have hpath : ∀ seg ∈ ["App", "Models"], '.' ∉ seg.toList := by decide
  have hnest : ∀ seg ∈ ["Outer", "Inner"], '.' ∉ seg.toList := by decide
  exact ⟨hpath, hnest, dotted_names_roundtrip.2.1 ⟨["App", "Models"], ["Outer", "Inner"]⟩ hpath hnest⟩

end ProtoLayout
