import ProtoLayout.Script.Render
import Mathlib.Tactic.SplitIfs

/-!
String literals read back as UTF-16 code units under the strict-code grammar, in which `\0`
before a decimal digit is a legacy octal escape and an error.
-/

namespace ProtoLayout.Script.Literal

/-- Itself below `0x10000`, a surrogate pair above. -/
def codeUnits (cp : Nat) : List Nat :=
  if cp < 0x10000 then [cp]
  else [0xD800 + (cp - 0x10000) / 0x400, 0xDC00 + (cp - 0x10000) % 0x400]

def units (s : List Char) : List Nat := s.flatMap fun c => codeUnits c.toNat

def hexValue? (c : Char) : Option Nat :=
  if c.isDigit then some (c.toNat - 48)
  else if 'a' ≤ c ∧ c ≤ 'f' then some (c.toNat - 87)
  else if 'A' ≤ c ∧ c ≤ 'F' then some (c.toNat - 55)
  else none

def singleEscape? : Char → Option Nat
  | '\x27' => some 0x27
  | '"' => some 0x22
  | '\\' => some 0x5C
  | 'b' => some 0x08
  | 'f' => some 0x0C
  | 'n' => some 0x0A
  | 'r' => some 0x0D
  | 't' => some 0x09
  | 'v' => some 0x0B
  | _ => none

/-- Where reading a literal stands: between the quotes, after a backslash, after `\0`, among the
digits of an escape, after a backslash and a carriage return, or after the closing quote. -/
inductive Mode where
  | body
  | escape
  | zero
  | unicode
  | hex (left value : Nat)
  | braced (value : Nat) (digits : Bool)
  | carriageReturn
  | closed

/-- A raw line feed or carriage return is an error. -/
def bodyStep (c : Char) : Option (Mode × List Nat) :=
  if c = '"' then some (.closed, [])
  else if c = '\\' then some (.escape, [])
  else if c = '\n' ∨ c = '\r' then none
  else some (.body, codeUnits c.toNat)

def hexStep (left value : Nat) (c : Char) : Option (Mode × List Nat) :=
  match hexValue? c with
  | none => none
  | some v =>
    if left ≤ 1 then some (.body, [value * 16 + v]) else some (.hex (left - 1) (value * 16 + v), [])

def step : Mode → Char → Option (Mode × List Nat)
  | .body, c => bodyStep c
  | .escape, c =>
    if c = '0' then some (.zero, [])
    else if c.isDigit then none
    else if c = 'x' then some (.hex 2 0, [])
    else if c = 'u' then some (.unicode, [])
    else if c = '\r' then some (.carriageReturn, [])
    -- a line continuation stands for nothing
    else if c = '\n' ∨ c = '\u2028' ∨ c = '\u2029' then some (.body, [])
    else some (.body, ((singleEscape? c).map ([·])).getD (codeUnits c.toNat))
  | .zero, c => if c.isDigit then none else (bodyStep c).map fun r => (r.1, 0 :: r.2)
  | .unicode, c => if c = '{' then some (.braced 0 false, []) else hexStep 4 0 c
  | .hex left value, c => hexStep left value c
  | .braced value digits, c =>
    if c = '}' then
      if digits ∧ value ≤ 0x10FFFF then some (.body, codeUnits value) else none
    else (hexValue? c).map fun v => (.braced (value * 16 + v) true, [])
  | .carriageReturn, c => if c = '\n' then some (.body, []) else bodyStep c
  | .closed, _ => none

/-- Gives `none` where the text is no such literal, or goes on after the closing quote. -/
def scan : Mode → List Char → Option (List Nat)
  | .closed, [] => some []
  | _, [] => none
  | m, c :: rest =>
    match step m c with
    | none => none
    | some (m', u) => (scan m' rest).map (u ++ ·)

def read : List Char → Option (List Nat)
  | '"' :: rest => scan .body rest
  | _ => none

example : read "\"a\\x41\\u\x7b1F600\x7d\\\n\"".toList = some [0x61, 0x41, 0xD83D, 0xDE00] := by
  decide

example : read "\"\\01\"".toList = none := by decide

def nulBeforeDigit : List Char → Bool
  | [] => false
  | c :: rest => (c = '\x00' && rest.head?.any Char.isDigit) || nulBeforeDigit rest

section Scan

theorem scan_cons (m : Mode) (c : Char) (rest : List Char) :
    scan m (c :: rest) = (step m c).bind fun r => (scan r.1 rest).map (r.2 ++ ·) := by
  rw [scan]
  cases step m c <;> rfl

theorem scan_nil_of_ne {m : Mode} (h : m ≠ .closed) : scan m [] = none := by
  cases m <;> first | rfl | exact absurd rfl h

theorem scan_zero (rest : List Char) :
    scan .zero rest =
      if rest.head?.any Char.isDigit then none else (scan .body rest).map (0 :: ·) := by
  cases rest with
  | nil => simp [scan_nil_of_ne]
  | cons d rest =>
    rw [scan_cons, scan_cons]
    by_cases hd : d.isDigit = true
    · simp [step, hd]
    · cases hb : bodyStep d <;> simp [step, hd, hb, Option.map_map, Function.comp_def]

end Scan

section Escapes

open Quoted

theorem hexValue?_hexDigit : ∀ n, n < 16 → hexValue? (hexDigit n) = some n
  | 0, _ | 1, _ | 2, _ | 3, _ | 4, _ | 5, _ | 6, _ | 7, _ | 8, _ | 9, _ | 10, _ | 11, _ | 12, _
  | 13, _ | 14, _ | 15, _ => by decide
  | _ + 16, h => absurd h (by omega)

theorem hexDigit_ne_brace {n : Nat} (hn : n < 16) : hexDigit n ≠ '{' := fun h =>
  absurd (h ▸ hexDigit_mem n hn) (by decide)

theorem step_hex_hexDigit {d : Nat} (hd : d < 16) (left value : Nat) :
    step (.hex left value) (hexDigit d) =
      if left ≤ 1 then some (.body, [value * 16 + d]) else some (.hex (left - 1) (value * 16 + d), []) := by
  simp only [step, hexStep, hexValue?_hexDigit d hd]

theorem step_unicode_hexDigit {d : Nat} (hd : d < 16) :
    step .unicode (hexDigit d) = some (.hex 3 d, []) := by
  simp [step, hexStep, hexValue?_hexDigit d hd, hexDigit_ne_brace hd]

theorem scan_hex4 {n : Nat} (hn : n < 0x10000) (rest : List Char) :
    scan .unicode (hex4 n ++ rest) = (scan .body rest).map (n :: ·) := by
  have h3 : n / 4096 % 16 < 16 := Nat.mod_lt _ (by decide)
  have h2 : n / 256 % 16 < 16 := Nat.mod_lt _ (by decide)
  have h1 : n / 16 % 16 < 16 := Nat.mod_lt _ (by decide)
  have h0 : n % 16 < 16 := Nat.mod_lt _ (by decide)
  have hval : ((n / 4096 % 16 * 16 + n / 256 % 16) * 16 + n / 16 % 16) * 16 + n % 16 = n := by
    omega
  rw [hex4, List.cons_append, scan_cons, step_unicode_hexDigit h3, Option.bind_some,
    List.cons_append, scan_cons, step_hex_hexDigit h2, if_neg (by decide), Option.bind_some,
    List.cons_append, scan_cons, step_hex_hexDigit h1, if_neg (by decide), Option.bind_some,
    List.singleton_append, scan_cons, step_hex_hexDigit h0, if_pos (by decide), Option.bind_some]
  simp [hval, Function.comp_def]

/-- Unless the character is NUL and a decimal digit follows its `\0`. -/
theorem scan_encodeChar (c : Char) (rest : List Char) :
    scan .body (encodeChar c ++ rest) =
      if c = '\x00' ∧ rest.head?.any Char.isDigit then none
      else (scan .body rest).map (codeUnits c.toNat ++ ·) := by
  by_cases hz : c = '\x00'
  · -- NUL is written as a zero escape, which a digit after it turns into a legacy octal one
    subst hz
    simp [encodeChar, scan_cons, step, bodyStep, scan_zero, codeUnits, Function.comp_def]
  rw [if_neg fun h => hz h.1]
  unfold encodeChar
  split_ifs with hq hb hn hr ht hctl
  · subst hq; simp [scan_cons, step, bodyStep, singleEscape?, codeUnits, Function.comp_def]
  · subst hb; simp [scan_cons, step, bodyStep, singleEscape?, codeUnits, Function.comp_def]
  · subst hn; simp [scan_cons, step, bodyStep, singleEscape?, codeUnits, Function.comp_def]
  · subst hr; simp [scan_cons, step, bodyStep, singleEscape?, codeUnits, Function.comp_def]
  · subst ht; simp [scan_cons, step, bodyStep, singleEscape?, codeUnits, Function.comp_def]
  · -- the other control characters are written as four-digit escapes
    have hlt : c.toNat < 0x10000 := by
      simp only [isControl, Bool.or_eq_true, decide_eq_true_eq, beq_iff_eq] at hctl
      omega
    simp [scan_cons, step, bodyStep, scan_hex4 hlt, codeUnits, hlt, Function.comp_def]
  · -- every other character stands for itself
    simp [scan_cons, step, bodyStep, hq, hb, hn, hr]

theorem isDigit_eq_false_of_isControl {c : Char} (h : isControl c = true) : c.isDigit = false := by
  simp only [isControl, Bool.or_eq_true, decide_eq_true_eq, beq_iff_eq] at h
  rw [Bool.eq_false_iff]
  intro hd
  have h0 : '0'.toNat = 48 := rfl
  have h9 : '9'.toNat = 57 := rfl
  have := Char.isDigit_iff_toNat.1 hd
  omega

/-- Every escape starts with a backslash. -/
theorem head_encodeChar_isDigit (c : Char) (rest : List Char) :
    (encodeChar c ++ rest).head?.any Char.isDigit = c.isDigit := by
  unfold encodeChar
  split_ifs with hq hb hn hr ht hz hctl
  any_goals subst_vars; rfl
  simp [isDigit_eq_false_of_isControl hctl]

end Escapes

/-- The induction follows the text. -/
theorem scan_encode (s : List Char) :
    scan .body (Quoted.encode s ++ ['"']) = if nulBeforeDigit s then none else some (units s) := by
  induction s with
  | nil => simp [scan_cons, step, bodyStep, nulBeforeDigit, units, scan]
  | cons c s ih =>
    have hhead : (Quoted.encode s ++ ['"']).head?.any Char.isDigit = s.head?.any Char.isDigit := by
      cases s with
      | nil => rfl
      | cons c' s' => rw [Quoted.encode_cons, List.append_assoc, head_encodeChar_isDigit]; rfl
    rw [Quoted.encode_cons, List.append_assoc, scan_encodeChar, hhead, ih]
    by_cases hnul : c = '\x00' ∧ s.head?.any Char.isDigit = true
    · simp [nulBeforeDigit, hnul]
    · rw [if_neg hnul]
      cases hrest : nulBeforeDigit s <;> simp_all [nulBeforeDigit, units]

theorem read_quote (s : String) :
    read (Quoted.quote s).toList = if nulBeforeDigit s.toList then none else some (units s.toList) := by
  have htext : (Quoted.quote s).toList = '"' :: (Quoted.encode s.toList ++ ['"']) := by
    simp [Quoted.quote]
  rw [htext, read, scan_encode]

/-- The literal printed for a string, as a node or a property key, reads back as the string,
unless a NUL stands directly before a decimal digit: then it is no strict literal at all. -/
theorem string_literal_value (s : String) :
    read (Node.string s).text.toList =
      (if nulBeforeDigit s.toList then none else some (units s.toList)) ∧
    read (Key.quoted s).render.toList =
      (if nulBeforeDigit s.toList then none else some (units s.toList)) := by
  have hnode : (Node.string s).text = Quoted.quote s := rfl
  have hkey : (Key.quoted s).render = Quoted.quote s := rfl
  rw [hnode, hkey]
  exact ⟨read_quote s, read_quote s⟩

/-- NUL followed by `1` is printed as `"\01"`, a legacy octal escape. -/
theorem string_literal_nul_digit :
    (Node.string "\x001").text = "\"\\01\"" ∧ read (Node.string "\x001").text.toList = none := by
  decide +kernel

end ProtoLayout.Script.Literal
