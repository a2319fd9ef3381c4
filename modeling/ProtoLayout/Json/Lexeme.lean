import ProtoLayout.Json.Cursor

/-!
The lexemes of JSON text. A number without sign, fraction or exponent that fits 64 bits is
unsigned, a negative one that fits 64 signed bits is signed, and any other a finite double.
-/

namespace ProtoLayout.Json

def hexValue (c : Char) : Option Nat :=
  if '0' ≤ c ∧ c ≤ '9' then some (c.toNat - 48)
  else if 'a' ≤ c ∧ c ≤ 'f' then some (c.toNat - 87)
  else if 'A' ≤ c ∧ c ≤ 'F' then some (c.toNat - 55)
  else none

def hex4 (a b c d : Char) : Option Nat := do
  let w ← hexValue a
  let x ← hexValue b
  let y ← hexValue c
  let z ← hexValue d
  pure (((w * 16 + x) * 16 + y) * 16 + z)

/-- Fewer than four bytes left means the text ended; otherwise a bad escape after them. -/
def hexError (p : Position) (r : List Char) : ReadError :=
  if byteLength r < 4 then .malformed .eofInString (p.over r)
  else .malformed .invalidEscape (p.bytes r 4)

def shortEscape? (c : Char) : Option Char :=
  if c = '"' then some '"'
  else if c = '\\' then some '\\'
  else if c = '/' then some '/'
  else if c = 'b' then some '\x08'
  else if c = 'f' then some '\x0c'
  else if c = 'n' then some '\n'
  else if c = 'r' then some '\r'
  else if c = 't' then some '\t'
  else none

def Position.right (p : Position) (n : Nat) : Position := ⟨p.line, p.column + n⟩

/-- Collects the characters in `acc`, last first, up to and including the closing quote. -/
def scanString (acc : List Char) : List Char → Position → Except ReadError (String × Cursor)
  | [], p => .error (.malformed .eofInString p)
  | '"' :: tl, p => .ok (String.ofList acc.reverse, ⟨tl, p.step '"'⟩)
  | '\\' :: tl, p =>
    let p1 := p.step '\\'
    match tl with
    | [] => .error (.malformed .eofInString p1)
    | 'u' :: a :: b :: c :: d :: r =>
      let p2 := p1.step 'u'
      match hex4 a b c d with
      | none => .error (hexError p2 (a :: b :: c :: d :: r))
      | some n =>
        let p3 := p2.right 4
        if 0xDC00 ≤ n ∧ n ≤ 0xDFFF then .error (.malformed .loneSurrogate p3)
        else if n < 0xD800 ∨ n > 0xDBFF then scanString (Char.ofNat n :: acc) r p3
        else
          match r with
          | [] => .error (.malformed .eofInString p3)
          | '\\' :: r2 =>
            let p4 := p3.step '\\'
            match r2 with
            | [] => .error (.malformed .eofInString p4)
            | 'u' :: e :: f :: g :: h :: r3 =>
              let p5 := p4.step 'u'
              match hex4 e f g h with
              | none => .error (hexError p5 (e :: f :: g :: h :: r3))
              | some m =>
                let p6 := p5.right 4
                if 0xDC00 ≤ m ∧ m ≤ 0xDFFF then
                  scanString (Char.ofNat (((n - 0xD800) * 1024 + (m - 0xDC00)) + 0x10000) :: acc) r3 p6
                else .error (.malformed .loneSurrogate p6)
            | 'u' :: short => .error (hexError (p4.step 'u') short)
            | other => .error (.malformed .unexpectedEndOfHexEscape (p4.bytes other 1))
          | other => .error (.malformed .unexpectedEndOfHexEscape (p3.bytes other 1))
    | 'u' :: short => .error (hexError (p1.step 'u') short)
    | e :: r =>
      match shortEscape? e with
      | some ch => scanString (ch :: acc) r (p1.step e)
      | none => .error (.malformed .invalidEscape (p1.bytes (e :: r) 1))
  | c :: tl, p =>
    if c.toNat < 0x20 then .error (.malformed .controlCharacter (p.step c))
    else scanString (c :: acc) tl (p.step c)

/-- Surrogate escapes need not pair here; a raw control character is reported. -/
def skipString : List Char → Position → Except ReadError Cursor
  | [], p => .error (.malformed .eofInString p)
  | '"' :: tl, p => .ok ⟨tl, p.step '"'⟩
  | '\\' :: tl, p =>
    let p1 := p.step '\\'
    match tl with
    | [] => .error (.malformed .eofInString p1)
    | 'u' :: a :: b :: c :: d :: r =>
      let p2 := p1.step 'u'
      match hex4 a b c d with
      | none => .error (hexError p2 (a :: b :: c :: d :: r))
      | some _ => skipString r (p2.right 4)
    | 'u' :: short => .error (hexError (p1.step 'u') short)
    | e :: r =>
      match shortEscape? e with
      | some _ => skipString r (p1.step e)
      | none => .error (.malformed .invalidEscape (p1.bytes (e :: r) 1))
  | c :: tl, p =>
    if c.toNat < 0x20 then .error (.malformed .controlCharacter p)
    else skipString tl (p.step c)

def scanWord : List Char → Cursor → Except ReadError Cursor
  | [], c => .ok c
  | w :: ws, c =>
    match c.rest with
    | [] => .error (.malformed .eofInValue c.pos)
    | ch :: tl =>
      let c' : Cursor := ⟨tl, c.pos.step ch⟩
      if ch = w then scanWord ws c' else .error (.malformed .expectedIdent c.peekPos)

inductive Num where
  | unsigned (n : Nat)
  | signed (i : Int)
  | float (f : Float)

def maxU64 : Nat := Nat.pow 2 64 - 1

def maxI32 : Nat := Nat.pow 2 31 - 1

def clampI32 (e : Int) : Int := max (-Int.ofNat (Nat.pow 2 31)) (min e (Int.ofNat maxI32))

def isDigitChar (c : Char) : Bool := '0' ≤ c && c ≤ '9'

def digitValue (c : Char) : Nat := c.toNat - 48

/-- Accumulates digits while the value stays within 64 bits; returns it and the digits taken. -/
def takeFitting (sig : Nat) : List Char → Nat × Nat
  | [] => (sig, 0)
  | d :: ds =>
    let v := sig * 10 + digitValue d
    if v ≤ maxU64 then
      let r := takeFitting v ds
      (r.1, r.2 + 1)
    else (sig, 0)

def takeExponent (e : Nat) : List Char → Nat × Nat
  | [] => (e, 0)
  | d :: ds =>
    let v := e * 10 + digitValue d
    if v ≤ maxI32 then
      let r := takeExponent v ds
      (r.1, r.2 + 1)
    else (e, 0)

def pow10 (k : Nat) : Float := Float.ofScientific 1 false k

/-- One multiplication or division by a power of ten of at most 308, dividing by `10^308` first
while the exponent is below `-308`; `none` on overflow. -/
def fromParts (sig : Nat) (exp : Int) : Option Float :=
  let rec go : Nat → Float → Int → Option Float
    | 0, f, _ => some f
    | fuel + 1, f, e =>
      if e.natAbs ≤ 308 then
        if 0 ≤ e then
          let g := f * pow10 e.toNat
          if g.isInf then none else some g
        else some (f / pow10 e.natAbs)
      else if f == 0 then some f
      else if 0 ≤ e then none
      else go fuel (f / pow10 308) (e + 308)
  go (exp.natAbs / 308 + 2) (Float.ofNat sig) exp

def Cursor.skipAscii (c : Cursor) (n : Nat) : Cursor := ⟨c.rest.drop n, c.pos.right n⟩

def finishFloat (positive : Bool) (sig : Nat) (exp : Int) (c : Cursor) :
    Except ReadError (Num × Cursor) :=
  match fromParts sig exp with
  | none => .error (.malformed .numberOutOfRange c.pos)
  | some f => .ok (.float (if positive then f else -f), c)

def scanExponent (positive : Bool) (sig : Nat) (exp0 : Int) (c : Cursor) :
    Except ReadError (Num × Cursor) :=
  let c1 := c.skipAscii 1
  let (positiveExp, c2) : Bool × Cursor :=
    match c1.rest with
    | '+' :: _ => (true, c1.skipAscii 1)
    | '-' :: _ => (false, c1.skipAscii 1)
    | _ => (true, c1)
  match c2.rest with
  | [] => .error (.malformed .eofInValue c2.pos)
  | d :: tl =>
    if isDigitChar d then
      let run := tl.takeWhile isDigitChar
      let (e, k) := takeExponent (digitValue d) run
      if k < run.length then
        let cOver := c2.skipAscii (k + 2)
        if sig ≠ 0 ∧ positiveExp then .error (.malformed .numberOutOfRange cOver.pos)
        else .ok (.float (if positive then 0.0 else -0.0), c2.skipAscii (run.length + 1))
      else
        let final := clampI32 (if positiveExp then exp0 + e else exp0 - e)
        finishFloat positive sig final (c2.skipAscii (run.length + 1))
    else .error (.malformed .invalidNumber c2.peekPos)

def scanFraction (positive : Bool) (sig : Nat) (exp0 : Int) (c : Cursor) :
    Except ReadError (Num × Cursor) :=
  let c1 := c.skipAscii 1
  let run := c1.rest.takeWhile isDigitChar
  let (sig', k) := takeFitting sig run
  let c2 := c1.skipAscii run.length
  let exp := exp0 - k
  let tail : Except ReadError (Num × Cursor) :=
    match c2.rest with
    | 'e' :: _ | 'E' :: _ => scanExponent positive sig' exp c2
    | _ => finishFloat positive sig' exp c2
  if k < run.length then tail
  else if run.isEmpty then
    match c1.rest with
    | [] => .error (.malformed .eofInValue c1.peekPos)
    | _ => .error (.malformed .invalidNumber c1.peekPos)
  else tail

def scanAfterInteger (positive : Bool) (sig : Nat) (c : Cursor) :
    Except ReadError (Num × Cursor) :=
  match c.rest with
  | '.' :: _ => scanFraction positive sig 0 c
  | 'e' :: _ | 'E' :: _ => scanExponent positive sig 0 c
  | _ =>
    if positive then .ok (.unsigned sig, c)
    else if sig = 0 then .ok (.float (-0.0), c)
    else if sig ≤ Nat.pow 2 63 then .ok (.signed (-(sig : Int)), c)
    else .ok (.float (-(Float.ofNat sig)), c)

def scanNumber (positive : Bool) (c : Cursor) : Except ReadError (Num × Cursor) :=
  match c.rest with
  | [] => .error (.malformed .eofInValue c.pos)
  | '0' :: tl =>
    let c1 := c.skipAscii 1
    match tl with
    | d :: _ => if isDigitChar d then .error (.malformed .invalidNumber c1.peekPos)
                else scanAfterInteger positive 0 c1
    | [] => scanAfterInteger positive 0 c1
  | ch :: tl =>
    if isDigitChar ch then
      let run := ch :: tl.takeWhile isDigitChar
      let (sig, k) := takeFitting 0 run
      let c1 := c.skipAscii run.length
      if k = run.length then scanAfterInteger positive sig c1
      else
        -- too long for 64 bits: the remaining digits only scale the value
        let exp : Int := run.length - k
        match c1.rest with
        | '.' :: _ => scanFraction positive sig exp c1
        | 'e' :: _ | 'E' :: _ => scanExponent positive sig exp c1
        | _ => finishFloat positive sig exp c1
    else .error (.malformed .invalidNumber c.peekPos)

def skipExponent (c : Cursor) : Except ReadError Cursor :=
  let c1 := c.skipAscii 1
  let c2 := match c1.rest with
    | '+' :: _ | '-' :: _ => c1.skipAscii 1
    | _ => c1
  match c2.rest with
  | [] => .error (.malformed .invalidNumber c2.pos)
  | d :: tl =>
    if isDigitChar d then .ok (c2.skipAscii (1 + (tl.takeWhile isDigitChar).length))
    else .error (.malformed .invalidNumber c2.peekPos)

/-- Skipping never reports a value out of range. -/
def skipNumber (c : Cursor) : Except ReadError Cursor :=
  let afterDigits (c1 : Cursor) : Except ReadError Cursor :=
    match c1.rest with
    | '.' :: _ =>
      let c2 := c1.skipAscii 1
      let run := c2.rest.takeWhile isDigitChar
      if run.isEmpty then .error (.malformed .invalidNumber c2.peekPos)
      else
        let c3 := c2.skipAscii run.length
        match c3.rest with
        | 'e' :: _ | 'E' :: _ => skipExponent c3
        | _ => .ok c3
    | 'e' :: _ | 'E' :: _ => skipExponent c1
    | _ => .ok c1
  match c.rest with
  | [] => .error (.malformed .invalidNumber c.pos)
  | '0' :: tl =>
    let c1 := c.skipAscii 1
    match tl with
    | d :: _ => if isDigitChar d then .error (.malformed .invalidNumber c1.peekPos) else afterDigits c1
    | [] => afterDigits c1
  | ch :: tl =>
    if isDigitChar ch then afterDigits (c.skipAscii (1 + (tl.takeWhile isDigitChar).length))
    else .error (.malformed .invalidNumber c.peekPos)

end ProtoLayout.Json
