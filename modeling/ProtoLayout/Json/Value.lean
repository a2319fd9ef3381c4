import ProtoLayout.Json.Decode

/-!
JSON documents. A number keeps its text; an object keeps its keys in first-appearance order,
a repeated key its last value.
-/

namespace ProtoLayout.Json

inductive Value where
  | null
  | bool (b : Bool)
  | number (text : String)
  | string (s : String)
  | array (items : List Value)
  | object (fields : List (String × Value))
deriving Inhabited

namespace Value

def insertField (k : String) (v : Value) : List (String × Value) → List (String × Value)
  | [] => [(k, v)]
  | (k', v') :: rest => if k' = k then (k, v) :: rest else (k', v') :: insertField k v rest

def field? (v : Value) (k : String) : Option Value :=
  match v with
  | .object fs => fs.lookup k
  | _ => none

/-- A number is ASCII on one line, so its length is the distance between the columns. -/
def consumed (before after : Cursor) : String :=
  String.ofList (before.rest.take (after.pos.column - before.pos.column))

def read : Nat → Reader Value
  | 0 => Reader.failNext .recursionLimit
  | room + 1 => do
    match ← Reader.peek with
    | none => Reader.failNext .eofInValue
    | some 'n' => do Reader.bump; Reader.word ['u', 'l', 'l']; pure .null
    | some 't' => do Reader.bump; Reader.word ['r', 'u', 'e']; pure (.bool true)
    | some 'f' => do Reader.bump; Reader.word ['a', 'l', 's', 'e']; pure (.bool false)
    | some '"' => do
      Reader.bump
      pure (.string (← Reader.scan fun c => scanString [] c.rest c.pos))
    | some '[' => do
      Reader.enter (room + 1)
      Reader.bump
      let step : Bool × List Value → Reader ((Bool × List Value) ⊕ List Value) :=
        fun (first, acc) => do
          if ← Reader.hasNext first then pure (.inl (false, (← read room) :: acc))
          else pure (.inr acc.reverse)
      pure (.array (← Reader.closed Reader.closeArray (Reader.iterate step (true, []))))
    | some '{' => do
      Reader.enter (room + 1)
      Reader.bump
      let step : Bool × List (String × Value) →
          Reader ((Bool × List (String × Value)) ⊕ List (String × Value)) :=
        fun (first, acc) => do
          match ← Reader.nextKey first with
          | none => pure (.inr acc)
          | some k => do
            Reader.colon
            let v ← read room
            pure (.inl (false, insertField k v acc))
      pure (.object (← Reader.closed Reader.closeObject (Reader.iterate step (true, []))))
    | some ch =>
      if ch = '-' ∨ isDigitChar ch then do
        let before ← get
        if ch = '-' then Reader.bump
        let _ ← Reader.scan (scanNumber (ch ≠ '-'))
        pure (.number (consumed before (← get)))
      else Reader.failNext .expectedValue

/-- At most 127 arrays and objects inside each other. -/
def depthLimit : Nat := 128

def parse (text : String) : Except ReadError Value := Reader.run (read depthLimit) text

def hex4 (n : Nat) : String :=
  let d (k : Nat) : Char := if k < 10 then Char.ofNat (48 + k) else Char.ofNat (87 + k)
  String.ofList [d (n / 4096 % 16), d (n / 256 % 16), d (n / 16 % 16), d (n % 16)]

def escapeChar (c : Char) : String :=
  if c = '"' then "\\\""
  else if c = '\\' then "\\\\"
  else if c = '\n' then "\\n"
  else if c = '\r' then "\\r"
  else if c = '\t' then "\\t"
  else if c = '\x08' then "\\b"
  else if c = '\x0c' then "\\f"
  else if c.toNat < 0x20 then "\\u" ++ hex4 c.toNat
  else String.singleton c

def quote (s : String) : String := "\"" ++ String.join (s.toList.map escapeChar) ++ "\""

mutual

def render : Value → String
  | .null => "null"
  | .bool b => if b then "true" else "false"
  | .number t => t
  | .string s => quote s
  | .array items => "[" ++ renderItems items ++ "]"
  | .object fs => "\x7b" ++ renderFields fs ++ "\x7d"

def renderItems : List Value → String
  | [] => ""
  | [v] => render v
  | v :: vs => render v ++ "," ++ renderItems vs

def renderFields : List (String × Value) → String
  | [] => ""
  | [(k, v)] => quote k ++ ":" ++ render v
  | (k, v) :: fs => quote k ++ ":" ++ render v ++ "," ++ renderFields fs

end

def pad (level : Nat) : String := String.ofList (List.replicate (2 * level) ' ')

mutual

def pretty (level : Nat) : Value → String
  | .array [] => "[]"
  | .object [] => "\x7b\x7d"
  | .array items => "[\n" ++ prettyItems (level + 1) items ++ "\n" ++ pad level ++ "]"
  | .object fs => "\x7b\n" ++ prettyFields (level + 1) fs ++ "\n" ++ pad level ++ "\x7d"
  | v => render v

def prettyItems (level : Nat) : List Value → String
  | [] => ""
  | [v] => pad level ++ pretty level v
  | v :: vs => pad level ++ pretty level v ++ ",\n" ++ prettyItems level vs

def prettyFields (level : Nat) : List (String × Value) → String
  | [] => ""
  | [(k, v)] => pad level ++ quote k ++ ": " ++ pretty level v
  | (k, v) :: fs => pad level ++ quote k ++ ": " ++ pretty level v ++ ",\n" ++ prettyFields level fs

end

end Value

end ProtoLayout.Json
