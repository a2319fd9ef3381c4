import ProtoLayout.Json.Lexeme

/-!
The reading monad. A data error raised by a value's own check is pending: it takes its position
from the enclosing scalar, array or object once that has been closed.
-/

namespace ProtoLayout.Json

inductive Fault where
  | fixed (e : ReadError)
  | pending (m : Mismatch) (at_ : Cursor)

/-- The length of the whole text bounds the steps of every loop. -/
abbrev Reader := ReaderT Nat (StateT Cursor (Except Fault))

namespace Reader

def fail (code : Syntax) (p : Position) : Reader α := throw (.fixed (.malformed code p))

def mismatch (m : Mismatch) : Reader α := do throw (.pending m (← get))

def scan (f : Cursor → Except ReadError (α × Cursor)) : Reader α := do
  match f (← get) with
  | .ok (a, c) => set c; pure a
  | .error e => throw (.fixed e)

def peek : Reader (Option Char) := do
  let c := (← get).blank
  set c
  pure c.peek?

def bump : Reader Unit := modify Cursor.next

def peekPos : Reader Position := do pure (← get).peekPos

def here : Reader Position := do pure (← get).pos

def failNext (code : Syntax) : Reader α := do fail code (← peekPos)

def failHere (code : Syntax) : Reader α := do fail code (← here)

/-- The position rule for a scalar, whose check runs right after it was read. -/
def fixHere (r : Reader α) : Reader α := fun size c =>
  match r size c with
  | .error (.pending m at_) => .error (.fixed (.data m (some at_.pos)))
  | other => other

/-- Every step reads at least one character, so the length of the text bounds the steps. -/
def iterate (step : σ → Reader (σ ⊕ α)) (s : σ) : Reader α := do
  let rec go : Nat → σ → Reader α
    | 0, _ => failHere .eofInValue
    | fuel + 1, s => do
      match ← step s with
      | .inl s' => go fuel s'
      | .inr a => pure a
  go ((← readThe Nat) + 2) s

def Num.found : Num → Found
  | .unsigned n => .unsigned n
  | .signed i => .signed i
  | .float f => .float f

/-- Reads a scalar first to name it; an array or object is named without reading it. -/
def wrongType (expected : String) : Reader α := do
  let c ← get
  let found : Reader Found := match c.rest with
    | 'n' :: _ => do bump; scan (fun c => (scanWord ['u', 'l', 'l'] c).map ((), ·)); pure .null
    | 't' :: _ => do bump; scan (fun c => (scanWord ['r', 'u', 'e'] c).map ((), ·)); pure (.bool true)
    | 'f' :: _ => do
      bump; scan (fun c => (scanWord ['a', 'l', 's', 'e'] c).map ((), ·)); pure (.bool false)
    | '-' :: _ => do bump; pure (Num.found (← scan (scanNumber false)))
    | '"' :: _ => do bump; pure (.string (← scan fun c => scanString [] c.rest c.pos))
    | '[' :: _ => pure .seq
    | '{' :: _ => pure .map
    | d :: _ => if isDigitChar d then do pure (Num.found (← scan (scanNumber true)))
                else failNext .expectedValue
    | [] => failNext .expectedValue
  let f ← found
  fixHere (mismatch (.invalidType f expected))

def enter (room : Nat) : Reader Unit := do
  if room ≤ 1 then failNext .recursionLimit

def colon : Reader Unit := do
  match ← peek with
  | some ':' => bump
  | some _ => failNext .expectedColon
  | none => failNext .eofInObject

def hasNext (first : Bool) : Reader Bool := do
  match ← peek with
  | none => failNext .eofInList
  | some ']' => pure false
  | some ch =>
    if first then pure true
    else if ch = ',' then do
      bump
      match ← peek with
      | some ']' => failNext .trailingComma
      | some _ => pure true
      | none => failNext .eofInValue
    else failNext .expectedListCommaOrEnd

def nextKey (first : Bool) : Reader (Option String) := do
  let next ← match ← peek with
    | some '}' => pure none
    | some ',' => if first then pure (some (some ',')) else do bump; pure (some (← peek))
    | some ch => if first then pure (some (some ch)) else failNext .expectedObjectCommaOrEnd
    | none => failNext .eofInObject
  match next with
  | none => pure none
  | some (some '"') => do bump; pure (some (← scan fun c => scanString [] c.rest c.pos))
  | some (some '}') => failNext .trailingComma
  | some (some _) => failNext .keyMustBeString
  | some none => failNext .eofInValue

def closeArray (c : Cursor) : Cursor × Option ReadError :=
  let c1 := c.blank
  match c1.rest with
  | ']' :: _ => (c1.next, none)
  | ',' :: _ =>
    let c2 := c1.next.blank
    match c2.rest with
    | ']' :: _ => (c2, some (.malformed .trailingComma c2.peekPos))
    | _ => (c2, some (.malformed .trailingCharacters c2.peekPos))
  | [] => (c1, some (.malformed .eofInList c1.peekPos))
  | _ => (c1, some (.malformed .trailingCharacters c1.peekPos))

def closeObject (c : Cursor) : Cursor × Option ReadError :=
  let c1 := c.blank
  match c1.rest with
  | '}' :: _ => (c1.next, none)
  | ',' :: _ => (c1, some (.malformed .trailingComma c1.peekPos))
  | [] => (c1, some (.malformed .eofInObject c1.peekPos))
  | _ => (c1, some (.malformed .trailingCharacters c1.peekPos))

/-- The closing is looked for even after a failure inside; a pending error takes the position
after it. -/
def closed (close : Cursor → Cursor × Option ReadError) (body : Reader α) : Reader α :=
  fun size c =>
    match body size c with
    | .ok (a, c1) =>
      match close c1 with
      | (c2, none) => .ok (a, c2)
      | (_, some e) => .error (.fixed e)
    | .error (.pending m at_) => .error (.fixed (.data m (some (close at_).1.pos)))
    | .error e => .error e

/-- Nesting is not bounded here. -/
def skipValue : Reader Unit := do
  -- the state: the innermost open bracket whose items are being read, and the outer ones
  let step : Option Char × List Char → Reader ((Option Char × List Char) ⊕ Unit) :=
    fun (enclosing, outer) => do
      let opened ← match ← peek with
        | none => failNext .eofInValue
        | some 'n' => do bump; scan (fun c => (scanWord ['u', 'l', 'l'] c).map ((), ·)); pure none
        | some 't' => do bump; scan (fun c => (scanWord ['r', 'u', 'e'] c).map ((), ·)); pure none
        | some 'f' => do
          bump; scan (fun c => (scanWord ['a', 'l', 's', 'e'] c).map ((), ·)); pure none
        | some '-' => do bump; scan (fun c => (skipNumber c).map ((), ·)); pure none
        | some '"' => do bump; scan (fun c => (skipString c.rest c.pos).map ((), ·)); pure none
        | some '[' => do bump; pure (some '[')
        | some '{' => do bump; pure (some '{')
        | some d =>
          if isDigitChar d then do scan (fun c => (skipNumber c).map ((), ·)); pure none
          else failNext .expectedValue
      let outer := match opened with
        | some _ => enclosing.toList ++ outer
        | none => outer
      let start : Option (Bool × Char × List Char) := match opened with
        | some b => some (false, b, outer)
        | none => match enclosing with
          | some b => some (true, b, outer)
          | none => match outer with
            | b :: rest => some (true, b, rest)
            | [] => none
      match start with
      | none => pure (.inr ())
      | some (acceptComma, frame, outer) =>
        let closing : Bool × Char × List Char → Reader ((Bool × Char × List Char) ⊕ Option (Char × List Char)) :=
          fun (acceptComma, frame, outer) => do
            match ← peek with
            | some ',' =>
              if acceptComma then do bump; pure (.inr (some (frame, outer)))
              else pure (.inr (some (frame, outer)))
            | some ']' =>
              if frame = '[' then do
                bump
                match outer with
                | b :: rest => pure (.inl (true, b, rest))
                | [] => pure (.inr none)
              else if acceptComma then failNext .expectedObjectCommaOrEnd
              else pure (.inr (some (frame, outer)))
            | some '}' =>
              if frame = '{' then do
                bump
                match outer with
                | b :: rest => pure (.inl (true, b, rest))
                | [] => pure (.inr none)
              else if acceptComma then failNext .expectedListCommaOrEnd
              else pure (.inr (some (frame, outer)))
            | some _ =>
              if acceptComma then
                failNext (if frame = '[' then .expectedListCommaOrEnd else .expectedObjectCommaOrEnd)
              else pure (.inr (some (frame, outer)))
            | none => failNext (if frame = '[' then .eofInList else .eofInObject)
        match ← iterate closing (acceptComma, frame, outer) with
        | none => pure (.inr ())
        | some (frame, outer) =>
          if frame = '{' then do
            match ← peek with
            | some '"' => bump
            | some _ => failNext .keyMustBeString
            | none => failNext .eofInObject
            scan (fun c => (skipString c.rest c.pos).map ((), ·))
            match ← peek with
            | some ':' => bump
            | some _ => failNext .expectedColon
            | none => failNext .eofInObject
          pure (.inl (some frame, outer))
  iterate step (none, [])

/-- The value must be followed by blanks only. -/
def run (r : Reader α) (text : String) : Except ReadError α :=
  match r text.length (Cursor.ofString text) with
  | .ok (a, c) =>
    let c1 := c.blank
    match c1.rest with
    | [] => .ok a
    | _ => .error (.malformed .trailingCharacters c1.peekPos)
  | .error (.fixed e) => .error e
  | .error (.pending m _) => .error (.data m none)

end Reader

end ProtoLayout.Json
