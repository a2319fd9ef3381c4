import ProtoLayout.Script.Render
import ProtoLayout.Proofs.References.Mentions

/-!
Indentation: printing a node `k` levels deeper only adds `4 * k` spaces after each line break
it writes, as long as the levels stay below the counter's wrap.
-/

namespace ProtoLayout.Script

open Relation

def reindent (level : UInt32) (s : String) : String :=
  String.ofList (s.toList.flatMap fun c => if c = '\n' then '\n' :: (indent level).toList else [c])

namespace Node

/-- A block, a function with a body, an object literal with properties. -/
def opensLevel : Node → Bool
  | .block _ => true
  | .func _ _ (_ :: _) => true
  | .object (_ :: _) => true
  | _ => false

def depth (n : Node) : Nat :=
  (if n.opensLevel then 1 else 0) + (n.children.attach.map fun c => c.1.depth).foldr max 0
termination_by sizeOf n
decreasing_by exact sizeOf_lt_of_mem_children c.2

/-- Numerals, names, operators, parameter names, bare keys and comment text, unescaped. -/
def ownTexts : Node → List String
  | .numeric text | .ident text | .typeRef _ text | .member _ text | .varDecl text _
  | .comment text _ => [text]
  | .binary _ op _ | .unary op _ => [op]
  | .object props => props.filterMap fun p => match p.1 with
    | .name text => some text
    | .quoted _ => none
  | .func name params _ => name.toList ++ params.map Param.name
  | _ => []

def unbroken (n : Node) : Bool :=
  n.ownTexts.all (fun t => '\n' ∉ t.toList) && n.children.attach.all fun c => c.1.unbroken
termination_by sizeOf n
decreasing_by exact sizeOf_lt_of_mem_children c.2

theorem depth_eq (n : Node) :
    n.depth = (if n.opensLevel then 1 else 0) + (n.children.map depth).foldr max 0 := by
  rw [depth]
  congr 2
  exact List.attach_map_val

theorem unbroken_eq (n : Node) :
    n.unbroken = ((n.ownTexts.all fun t => '\n' ∉ t.toList) && n.children.all unbroken) := by
  rw [unbroken]
  simp

theorem unbroken_iff {n : Node} : n.unbroken = true ↔
    (∀ t ∈ n.ownTexts, '\n' ∉ t.toList) ∧ ∀ c ∈ n.children, c.unbroken = true := by
  rw [unbroken_eq]
  simp

theorem le_foldr_max {l : List Nat} {x : Nat} (h : x ∈ l) : x ≤ l.foldr max 0 := by
  induction l with
  | nil => simp at h
  | cons y l ih =>
    rcases List.mem_cons.1 h with rfl | h
    · simp
    · simp [ih h]

theorem depth_le_of_mem_children {n c : Node} (h : c ∈ n.children) :
    (if n.opensLevel then 1 else 0) + c.depth ≤ n.depth := by
  rw [depth_eq n]
  have : c.depth ≤ (n.children.map depth).foldr max 0 := le_foldr_max (List.mem_map_of_mem h)
  split <;> omega

end Node

namespace Quoted

theorem hexDigit_ne_newline {n : Nat} (hn : n < 16) : hexDigit n ≠ '\n' := fun h =>
  absurd (h ▸ hexDigit_mem n hn) (by decide)

theorem not_newline_mem_encodeChar (c : Char) : '\n' ∉ encodeChar c := by
  have hx : ∀ n, '\n' ≠ hexDigit (n % 16) := fun n =>
    (hexDigit_ne_newline (Nat.mod_lt n (by decide))).symm
  unfold encodeChar
  split_ifs with h1 h2 h3
  any_goals simp [hex4, hx]
  exact fun h => h3 h.symm

/-- The one line break a string can hold is written as an escape. -/
theorem not_newline_mem_quote (s : String) : '\n' ∉ (quote s).toList := by
  have : ∀ l, '\n' ∉ encode l := by
    intro l
    induction l with
    | nil => simp
    | cons c l ih => simp [not_newline_mem_encodeChar c, ih]
  simp [quote, this]

end Quoted

theorem not_newline_mem_renderParams :
    ∀ {ps : List Param}, (∀ p ∈ ps, '\n' ∉ p.name.toList) → '\n' ∉ (renderParams ps).toList
  | [], _ => by simp [renderParams]
  | [p], h => by
    have := h p (by simp)
    by_cases hr : p.rest <;> simp [renderParams, hr, this]
  | p :: q :: ps, h => by
    have hp := h p (by simp)
    have hrest := not_newline_mem_renderParams fun r (hr : r ∈ q :: ps) => h r (by simp_all)
    by_cases hr : p.rest <;> simp_all [renderParams]

section Reindent

variable (k : UInt32)

@[simp] theorem reindent_append (a b : String) : reindent k (a ++ b) = reindent k a ++ reindent k b := by
  simp [reindent]

@[simp] theorem reindent_of_not_mem {s : String} (h : '\n' ∉ s.toList) : reindent k s = s := by
  rw [reindent, ← String.toList_inj, String.toList_ofList]
  generalize s.toList = l at h ⊢
  induction l with
  | nil => rfl
  | cons c l ih =>
    simp only [List.mem_cons, not_or] at h
    simp [Ne.symm h.1, ih h.2]

@[simp] theorem reindent_newline : reindent k "\n" = "\n" ++ indent k := by
  rw [reindent, ← String.toList_inj]
  simp

theorem reindent_open_brace : reindent k "\x7b\n" = "\x7b\n" ++ indent k := by
  rw [reindent, ← String.toList_inj]
  simp

@[simp] theorem reindent_indent (L : UInt32) : reindent k (indent L) = indent L :=
  reindent_of_not_mem k (by simp [indent])

@[simp] theorem reindent_empty : reindent k "" = "" := rfl

theorem indent_add {L k : UInt32} (h : L.toNat + k.toNat < UInt32.size) :
    indent (L + k) = indent k ++ indent L := by
  rw [← String.toList_inj]
  have hsum : (L + k).toNat = L.toNat + k.toNat := by
    rw [UInt32.toNat_add, Nat.mod_eq_of_lt h]
  simp only [indent, String.toList_append, String.toList_ofList, hsum, List.replicate_append_replicate]
  congr 1
  omega

end Reindent

section Shifts

/-- Printing from `k` levels deeper gives the text reindented by `k`, and both come back to where
they started. -/
def Shifts (print : UInt32 → String × UInt32) (L k : UInt32) : Prop :=
  ∃ t, print L = (t, L) ∧ print (L + k) = (reindent k t, L + k)

/-- Items each end with a line break, so the extra indentation moves from the end to the front. -/
def ShiftsLines (print : UInt32 → String × UInt32) (L k : UInt32) : Prop :=
  ∃ t t', print L = (t, L) ∧ print (L + k) = (t', L + k) ∧ indent k ++ reindent k t = t' ++ indent k

variable {L k : UInt32}

theorem shifts_const {t : String} (h : '\n' ∉ t.toList) : Shifts (fun M => (t, M)) L k :=
  ⟨t, rfl, by rw [reindent_of_not_mem k h]⟩

theorem printArgsTail_shifts :
    ∀ {xs : List Node}, (∀ x ∈ xs, Shifts (Node.print · x) L k) →
      Shifts (Node.printArgsTail · xs) L k
  | [], _ => ⟨"", by simp [Node.printArgsTail], by simp [Node.printArgsTail]⟩
  | x :: xs, h => by
    obtain ⟨a, ha, ha'⟩ := h x (by simp)
    obtain ⟨b, hb, hb'⟩ := printArgsTail_shifts fun y (hy : y ∈ xs) => h y (by simp [hy])
    dsimp only at ha ha' hb hb'
    exact ⟨", " ++ a ++ b, by simp [Node.printArgsTail, ha, hb],
      by simp [Node.printArgsTail, ha', hb']⟩

theorem printArgs_shifts {xs : List Node} (h : ∀ x ∈ xs, Shifts (Node.print · x) L k) :
    Shifts (Node.printArgs · xs) L k := by
  cases xs with
  | nil => exact ⟨"", by simp [Node.printArgs], by simp [Node.printArgs]⟩
  | cons x xs =>
    obtain ⟨a, ha, ha'⟩ := h x (by simp)
    obtain ⟨b, hb, hb'⟩ := printArgsTail_shifts fun y (hy : y ∈ xs) => h y (by simp [hy])
    dsimp only at ha ha' hb hb'
    exact ⟨a ++ b, by simp [Node.printArgs, ha, hb], by simp [Node.printArgs, ha', hb']⟩

theorem printSeqTail_shifts (hL : L.toNat + k.toNat < UInt32.size) :
    ∀ {xs : List Node}, (∀ x ∈ xs, Shifts (Node.print · x) L k) →
      Shifts (Node.printSeqTail · xs) L k
  | [], _ => ⟨"", by simp [Node.printSeqTail], by simp [Node.printSeqTail]⟩
  | x :: xs, h => by
    obtain ⟨a, ha, ha'⟩ := h x (by simp)
    obtain ⟨b, hb, hb'⟩ := printSeqTail_shifts hL fun y (hy : y ∈ xs) => h y (by simp [hy])
    dsimp only at ha ha' hb hb'
    exact ⟨"\n" ++ indent L ++ a ++ b, by simp [Node.printSeqTail, ha, hb],
      by simp [Node.printSeqTail, ha', hb', indent_add hL, String.append_assoc]⟩

theorem printLines_shifts (hL : L.toNat + k.toNat < UInt32.size) :
    ∀ {xs : List Node}, (∀ x ∈ xs, Shifts (Node.print · x) L k) →
      ShiftsLines (Node.printLines · xs) L k
  | [], _ => ⟨"", "", by simp [Node.printLines], by simp [Node.printLines], by simp⟩
  | x :: xs, h => by
    obtain ⟨a, ha, ha'⟩ := h x (by simp)
    obtain ⟨b, b', hb, hb', hbb⟩ := printLines_shifts hL fun y (hy : y ∈ xs) => h y (by simp [hy])
    dsimp only at ha ha' hb hb'
    refine ⟨indent L ++ a ++ "\n" ++ b, indent (L + k) ++ reindent k a ++ "\n" ++ b',
      by simp [Node.printLines, ha, hb], by simp [Node.printLines, ha', hb'], ?_⟩
    simp only [reindent_append, reindent_indent, reindent_newline, indent_add hL,
      String.append_assoc, ← hbb]

theorem printProps_shifts (hL : L.toNat + k.toNat < UInt32.size) :
    ∀ {ps : List (Key × Node)}, (∀ p ∈ ps, '\n' ∉ p.1.render.toList) →
      (∀ p ∈ ps, Shifts (Node.print · p.2) L k) → ShiftsLines (Node.printProps · ps) L k
  | [], _, _ => ⟨"", "", by simp [Node.printProps], by simp [Node.printProps], by simp⟩
  | (key, v) :: ps, hkeys, h => by
    obtain ⟨a, ha, ha'⟩ := h (key, v) (by simp)
    obtain ⟨b, b', hb, hb', hbb⟩ :=
      printProps_shifts hL (fun p (hp : p ∈ ps) => hkeys p (by simp [hp])) fun p hp => h p (by simp [hp])
    dsimp only at ha ha' hb hb'
    have hkey : reindent k key.render = key.render := reindent_of_not_mem k (hkeys (key, v) (by simp))
    refine ⟨indent L ++ key.render ++ ": " ++ a ++ (if ps.isEmpty then "" else ",") ++ "\n" ++ b,
      indent (L + k) ++ key.render ++ ": " ++ reindent k a ++ (if ps.isEmpty then "" else ",") ++
        "\n" ++ b', by simp [Node.printProps, ha, hb], by simp [Node.printProps, ha', hb'], ?_⟩
    have hsep : reindent k (if ps.isEmpty then "" else ",") = if ps.isEmpty then "" else "," := by
      split <;> simp
    simp only [reindent_append, reindent_indent, reindent_newline, hkey, hsep, indent_add hL,
      String.append_assoc, ← hbb]
    simp

theorem deeper_add (L k : UInt32) : deeper (L + k) = deeper L + k := by
  simp only [deeper]
  ac_rfl

theorem shallower_deeper {M : UInt32} (h : M.toNat + 1 < UInt32.size) :
    shallower (deeper M) = M := by
  have hne : M + 1 ≠ 0 := by
    intro h0
    have := congrArg UInt32.toNat h0
    rw [UInt32.toNat_add, Nat.mod_eq_of_lt (by simpa using h)] at this
    simp at this
  simp [shallower, deeper, hne]

theorem toNat_deeper {M : UInt32} (h : M.toNat + 1 < UInt32.size) :
    (deeper M).toNat = M.toNat + 1 := by
  rw [deeper, UInt32.toNat_add, Nat.mod_eq_of_lt (by simpa using h)]
  rfl

theorem reindent_opening (hL : L.toNat + k.toNat < UInt32.size) {header t t' : String}
    (hh : '\n' ∉ header.toList) (h : indent k ++ reindent k t = t' ++ indent k) :
    reindent k (header ++ "\x7b\n" ++ t ++ indent L ++ "\x7d") =
      header ++ "\x7b\n" ++ t' ++ indent (L + k) ++ "\x7d" := by
  simp only [reindent_append, reindent_open_brace, reindent_indent, indent_add hL,
    String.append_assoc, reindent_of_not_mem k hh,
    reindent_of_not_mem k (show '\n' ∉ "\x7d".toList by simp)]
  -- the extra indentation after the opening brace moves to the last line, before the brace
  have hmove : ∀ X, indent k ++ (reindent k t ++ X) = t' ++ (indent k ++ X) := fun X => by
    rw [← String.append_assoc, h, String.append_assoc]
  rw [hmove]

theorem reindent_block (hL : L.toNat + k.toNat < UInt32.size) {t t' : String}
    (h : indent k ++ reindent k t = t' ++ indent k) :
    reindent k ("\x7b\n" ++ t ++ indent L ++ "\x7d") = "\x7b\n" ++ t' ++ indent (L + k) ++ "\x7d" := by
  simpa using reindent_opening hL (show '\n' ∉ "".toList by simp) h

end Shifts

namespace Node

theorem unbroken_own {n : Node} (h : n.unbroken = true) {t : String} (ht : t ∈ n.ownTexts) :
    '\n' ∉ t.toList :=
  (unbroken_iff.1 h).1 t ht

theorem unbroken_child {n c : Node} (h : n.unbroken = true) (hc : c ∈ n.children) :
    c.unbroken = true :=
  (unbroken_iff.1 h).2 c hc

theorem reindent_head (k : UInt32) (n : Node) (t : String) :
    reindent k (n.head t) = n.head (reindent k t) := by
  unfold head
  split <;> simp

theorem one_le_depth {n : Node} (h : n.opensLevel = true) : 1 ≤ n.depth := by
  rw [depth_eq, if_pos h]
  omega

theorem not_newline_mem_key {props : List (Key × Node)} (hn : (Node.object props).unbroken = true)
    {p : Key × Node} (hp : p ∈ props) : '\n' ∉ p.1.render.toList := by
  obtain ⟨key, v⟩ := p
  cases key with
  | name text =>
    exact unbroken_own hn (by simp only [ownTexts, List.mem_filterMap]; exact ⟨_, hp, rfl⟩)
  | quoted text => exact Quoted.not_newline_mem_quote text

theorem not_newline_mem_funcHeader {name : Option String} {params : List Param} {body : List Node}
    (hn : (Node.func name params body).unbroken = true) :
    '\n' ∉ ("function " ++ name.getD "" ++ "(" ++ renderParams params ++ ") ").toList := by
  have hname : '\n' ∉ (name.getD "").toList := by
    cases name with
    | none => simp
    | some text => exact unbroken_own hn (by simp [ownTexts])
  have hparams : '\n' ∉ (renderParams params).toList :=
    not_newline_mem_renderParams fun p hp => unbroken_own hn (by simp [ownTexts]; exact .inr ⟨p, hp, rfl⟩)
  simp [hname, hparams]

theorem print_shifts (n : Node) : n.unbroken = true → ∀ L k : UInt32,
    L.toNat + k.toNat + n.depth < UInt32.size → Shifts (Node.print · n) L k := by
  induction n using children_induction with
  | step n ih =>
  intro hn L k hdepth
  have hpart : ∀ c ∈ n.children, Shifts (Node.print · c) L k := fun c hc =>
    ih c hc (unbroken_child hn hc) L k (by
      have := depth_le_of_mem_children hc
      split at this <;> omega)
  have hdeep : n.opensLevel = true → ∀ c ∈ n.children, Shifts (Node.print · c) (deeper L) k :=
    fun ho c hc => ih c hc (unbroken_child hn hc) (deeper L) k (by
      have := depth_le_of_mem_children hc
      rw [if_pos ho] at this
      rw [toNat_deeper (by omega)]
      omega)
  have hown : ∀ t ∈ n.ownTexts, reindent k t = t := fun t ht =>
    reindent_of_not_mem k (unbroken_own hn ht)
  have hLk : L.toNat + k.toNat < UInt32.size := by omega
  cases n with
  | numeric text => exact shifts_const (unbroken_own hn (by simp [ownTexts]))
  | string value => exact shifts_const (Quoted.not_newline_mem_quote value)
  | bool b => exact shifts_const (by cases b <;> simp)
  | null => exact shifts_const (by simp)
  | undefined => exact shifts_const (by simp)
  | ident name => exact shifts_const (unbroken_own hn (by simp [ownTexts]))
  | this => exact shifts_const (by simp)
  | typeRef target name => exact shifts_const (unbroken_own hn (by simp [ownTexts]))
  | comment text isBlock =>
    have : '\n' ∉ text.toList := unbroken_own hn (by simp [ownTexts])
    cases isBlock
    · exact shifts_const (by simpa using this)
    · exact shifts_const (by simpa using this)
  | binary l op r =>
    obtain ⟨a, ha, ha'⟩ := hpart l (by simp [children])
    obtain ⟨b, hb, hb'⟩ := hpart r (by simp [children])
    dsimp only at ha ha' hb hb'
    exact ⟨a ++ " " ++ op ++ " " ++ b, by simp [Node.print, ha, hb],
      by simp [Node.print, ha', hb', hown op (by simp [ownTexts])]⟩
  | unary op x =>
    obtain ⟨a, ha, ha'⟩ := hpart x (by simp [children])
    dsimp only at ha ha'
    have hsp : reindent k (if isWordOp op then " " else "") = if isWordOp op then " " else "" := by
      split <;> simp
    exact ⟨op ++ (if isWordOp op then " " else "") ++ a, by simp [Node.print, ha],
      by simp [Node.print, ha', hsp, hown op (by simp [ownTexts])]⟩
  | call f args =>
    obtain ⟨a, ha, ha'⟩ := hpart f (by simp [children])
    obtain ⟨b, hb, hb'⟩ := printArgs_shifts fun x (hx : x ∈ args) => hpart x (by simp [children, hx])
    dsimp only at ha ha' hb hb'
    exact ⟨f.head a ++ "(" ++ b ++ ")", by simp [Node.print, ha, hb],
      by simp [Node.print, ha', hb', reindent_head]⟩
  | construct f args =>
    obtain ⟨a, ha, ha'⟩ := hpart f (by simp [children])
    obtain ⟨b, hb, hb'⟩ := printArgs_shifts fun x (hx : x ∈ args) => hpart x (by simp [children, hx])
    dsimp only at ha ha' hb hb'
    exact ⟨"new " ++ f.head a ++ "(" ++ b ++ ")", by simp [Node.print, ha, hb],
      by simp [Node.print, ha', hb', reindent_head]⟩
  | member o name =>
    obtain ⟨a, ha, ha'⟩ := hpart o (by simp [children])
    dsimp only at ha ha'
    exact ⟨o.head a ++ "." ++ name, by simp [Node.print, ha],
      by simp [Node.print, ha', reindent_head, hown name (by simp [ownTexts])]⟩
  | index o key =>
    obtain ⟨a, ha, ha'⟩ := hpart o (by simp [children])
    obtain ⟨b, hb, hb'⟩ := hpart key (by simp [children])
    dsimp only at ha ha' hb hb'
    exact ⟨o.head a ++ "[" ++ b ++ "]", by simp [Node.print, ha, hb],
      by simp [Node.print, ha', hb', reindent_head]⟩
  | cond c x y =>
    obtain ⟨a, ha, ha'⟩ := hpart c (by simp [children])
    obtain ⟨b, hb, hb'⟩ := hpart x (by simp [children])
    obtain ⟨d, hd, hd'⟩ := hpart y (by simp [children])
    dsimp only at ha ha' hb hb' hd hd'
    exact ⟨a ++ " ? " ++ b ++ " : " ++ d, by simp [Node.print, ha, hb, hd],
      by simp [Node.print, ha', hb', hd']⟩
  | paren x =>
    obtain ⟨a, ha, ha'⟩ := hpart x (by simp [children])
    dsimp only at ha ha'
    exact ⟨"(" ++ a ++ ")", by simp [Node.print, ha], by simp [Node.print, ha']⟩
  | array items =>
    obtain ⟨a, ha, ha'⟩ := printArgs_shifts fun x (hx : x ∈ items) => hpart x (by simp [children, hx])
    dsimp only at ha ha'
    exact ⟨"[" ++ a ++ "]", by simp [Node.print, ha], by simp [Node.print, ha']⟩
  | object props =>
    cases props with
    | nil => exact shifts_const (by simp)
    | cons p ps =>
      have h1 : 1 ≤ (Node.object (p :: ps)).depth := one_le_depth rfl
      have hL1 : L.toNat + 1 < UInt32.size := by omega
      have hdL : (deeper L).toNat + k.toNat < UInt32.size := by rw [toNat_deeper hL1]; omega
      have hLk1 : (L + k).toNat + 1 < UInt32.size := by
        rw [UInt32.toNat_add, Nat.mod_eq_of_lt hLk]; omega
      have hvals : ∀ q ∈ p :: ps, Shifts (Node.print · q.2) (deeper L) k := fun q hq =>
        hdeep rfl q.2 (by simp only [children]; exact List.mem_map_of_mem hq)
      obtain ⟨t, t', ht, ht', htt⟩ :=
        printProps_shifts hdL (fun q hq => not_newline_mem_key hn hq) hvals
      dsimp only at ht ht'
      rw [← deeper_add] at ht'
      refine ⟨"\x7b\n" ++ t ++ indent L ++ "\x7d", ?_, ?_⟩
      · simp [Node.print, ht, shallower_deeper hL1]
      · rw [reindent_block hLk htt]
        simp [Node.print, ht', shallower_deeper hLk1]
  | func name params body =>
    have hhead := not_newline_mem_funcHeader hn
    cases body with
    | nil => exact shifts_const (by simpa [String.append_assoc] using hhead)
    | cons x xs =>
      have h1 : 1 ≤ (Node.func name params (x :: xs)).depth := one_le_depth rfl
      have hL1 : L.toNat + 1 < UInt32.size := by omega
      have hdL : (deeper L).toNat + k.toNat < UInt32.size := by rw [toNat_deeper hL1]; omega
      have hLk1 : (L + k).toNat + 1 < UInt32.size := by
        rw [UInt32.toNat_add, Nat.mod_eq_of_lt hLk]; omega
      obtain ⟨t, t', ht, ht', htt⟩ := printLines_shifts hdL fun y (hy : y ∈ x :: xs) => hdeep rfl y hy
      dsimp only at ht ht'
      rw [← deeper_add] at ht'
      refine ⟨"function " ++ name.getD "" ++ "(" ++ renderParams params ++ ") " ++ "\x7b\n" ++ t ++
        indent L ++ "\x7d", ?_, ?_⟩
      · simp [Node.print, ht, shallower_deeper hL1]
      · rw [reindent_opening hLk hhead htt]
        simp [Node.print, ht', shallower_deeper hLk1]
  | varDecl name init =>
    have hname : '\n' ∉ name.toList := unbroken_own hn (by simp [ownTexts])
    cases init with
    | none => exact shifts_const (by simpa using hname)
    | some v =>
      obtain ⟨a, ha, ha'⟩ := hpart v (by simp [children])
      dsimp only at ha ha'
      exact ⟨"var " ++ name ++ " = " ++ a ++ ";", by simp [Node.print, ha],
        by simp [Node.print, ha', reindent_of_not_mem k hname]⟩
  | exprStmt e =>
    obtain ⟨a, ha, ha'⟩ := hpart e (by simp [children])
    dsimp only at ha ha'
    exact ⟨a ++ ";", by simp [Node.print, ha], by simp [Node.print, ha']⟩
  | ret value =>
    cases value with
    | none => exact shifts_const (by simp)
    | some v =>
      obtain ⟨a, ha, ha'⟩ := hpart v (by simp [children])
      dsimp only at ha ha'
      exact ⟨"return " ++ a ++ ";", by simp [Node.print, ha], by simp [Node.print, ha']⟩
  | throw e =>
    obtain ⟨a, ha, ha'⟩ := hpart e (by simp [children])
    dsimp only at ha ha'
    exact ⟨"throw " ++ a ++ ";", by simp [Node.print, ha], by simp [Node.print, ha']⟩
  | ifStmt c t e =>
    obtain ⟨a, ha, ha'⟩ := hpart c (by simp [children])
    obtain ⟨b, hb, hb'⟩ := hpart t (by simp [children])
    dsimp only at ha ha' hb hb'
    cases e with
    | none =>
      exact ⟨"if (" ++ a ++ ") " ++ b, by simp [Node.print, ha, hb], by simp [Node.print, ha', hb']⟩
    | some e =>
      obtain ⟨d, hd, hd'⟩ := hpart e (by simp [children])
      dsimp only at hd hd'
      exact ⟨"if (" ++ a ++ ") " ++ b ++ " else " ++ d, by simp [Node.print, ha, hb, hd],
        by simp [Node.print, ha', hb', hd']⟩
  | block stmts =>
    have h1 : 1 ≤ (Node.block stmts).depth := one_le_depth rfl
    have hL1 : L.toNat + 1 < UInt32.size := by omega
    have hdL : (deeper L).toNat + k.toNat < UInt32.size := by rw [toNat_deeper hL1]; omega
    have hLk1 : (L + k).toNat + 1 < UInt32.size := by
      rw [UInt32.toNat_add, Nat.mod_eq_of_lt hLk]; omega
    obtain ⟨t, t', ht, ht', htt⟩ := printLines_shifts hdL fun y (hy : y ∈ stmts) => hdeep rfl y hy
    dsimp only at ht ht'
    rw [← deeper_add] at ht'
    refine ⟨"\x7b\n" ++ t ++ indent L ++ "\x7d", ?_, ?_⟩
    · simp [Node.print, ht, shallower_deeper hL1]
    · rw [reindent_block hLk htt]
      simp [Node.print, ht', shallower_deeper hLk1]
  | seq items =>
    cases items with
    | nil => exact shifts_const (by simp)
    | cons x xs =>
      obtain ⟨a, ha, ha'⟩ := hpart x (by simp [children])
      obtain ⟨b, hb, hb'⟩ := printSeqTail_shifts hLk fun y (hy : y ∈ xs) => hpart y (by simp [children, hy])
      dsimp only at ha ha' hb hb'
      exact ⟨a ++ b, by simp [Node.print, ha, hb], by simp [Node.print, ha', hb']⟩

theorem print_zero {n : Node} (hn : n.unbroken = true) (hd : n.depth < UInt32.size) :
    n.print 0 = (n.text, 0) := by
  obtain ⟨t, h0, -⟩ := print_shifts n hn 0 0 (by simpa using hd)
  dsimp only at h0
  rw [text, textAt, h0]

end Node

theorem printLines_zero :
    ∀ {stmts : List Node}, (∀ s ∈ stmts, s.print 0 = (s.text, 0)) →
      Node.printLines 0 stmts = (String.join (stmts.map fun s => s.text ++ "\n"), 0)
  | [], _ => by simp [Node.printLines]
  | s :: stmts, h => by
    have hrest := printLines_zero fun x (hx : x ∈ stmts) => h x (by simp [hx])
    simp [Node.printLines, h s (by simp), hrest, indent, String.append_assoc]

/-- From level `k`, a node prints as its text at level zero with the indentation of `k` after every
line break, and the printer is back at `k`; so every statement starts a line of its own. -/
theorem print_indented :
    (∀ (n : Node) (k : UInt32), n.unbroken = true → k.toNat + n.depth < UInt32.size →
      n.print k = (reindent k n.text, k)) ∧
    (∀ stmts : List Node, (∀ s ∈ stmts, s.unbroken = true ∧ s.depth < UInt32.size) →
      renderStatements stmts = String.join (stmts.map fun s => s.text ++ "\n")) := by
  refine ⟨fun n k hn hk => ?_, fun stmts h => ?_⟩
  · obtain ⟨t, h0, hk'⟩ := Node.print_shifts n hn 0 k (by simpa using hk)
    dsimp only at h0 hk'
    rw [UInt32.zero_add] at hk'
    rw [hk', Node.text, Node.textAt, h0]
  · rw [renderStatements, printLines_zero fun s hs => Node.print_zero (h s hs).1 (h s hs).2]

theorem print_indented_prototype :
    (Node.exprStmt (.binary (.member (.ident "A") "prototype") "="
      (.object [(.name "m", .func none [] [.ret none])]))).unbroken = true ∧
    (1 : UInt32).toNat + (Node.exprStmt (.binary (.member (.ident "A") "prototype") "="
      (.object [(.name "m", .func none [] [.ret none])]))).depth < UInt32.size ∧
    (Node.exprStmt (.binary (.member (.ident "A") "prototype") "="
      (.object [(.name "m", .func none [] [.ret none])]))).print 1 =
      (reindent 1 (Node.exprStmt (.binary (.member (.ident "A") "prototype") "="
        (.object [(.name "m", .func none [] [.ret none])]))).text, 1) ∧
    renderStatements [.exprStmt (.binary (.member (.ident "A") "prototype") "="
      (.object [(.name "m", .func none [] [.ret none])]))] =
      (Node.exprStmt (.binary (.member (.ident "A") "prototype") "="
        (.object [(.name "m", .func none [] [.ret none])]))).text ++ "\n" := by
  have hn : (Node.exprStmt (.binary (.member (.ident "A") "prototype") "="
      (.object [(.name "m", .func none [] [.ret none])]))).unbroken = true := by
    simp [Node.unbroken_eq, Node.children, Node.ownTexts]
  have hd : (1 : UInt32).toNat + (Node.exprStmt (.binary (.member (.ident "A") "prototype") "="
      (.object [(.name "m", .func none [] [.ret none])]))).depth < UInt32.size := by
    simp [Node.depth_eq, Node.children, Node.opensLevel, UInt32.size]
  refine ⟨hn, hd, print_indented.1 _ 1 hn hd, ?_⟩
  rw [print_indented.2 _ fun s hs => by
    rw [List.mem_singleton.1 hs]
    exact ⟨hn, by simp at hd; omega⟩]
  simp

end ProtoLayout.Script
