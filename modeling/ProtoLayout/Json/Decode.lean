import ProtoLayout.Json.Reader

/-!
Typed reading. A record is an object of named fields in any order, or an array of its fields
in declared order; a tagged variant is a name, or an object with the name as its one key.
-/

namespace ProtoLayout.Json

structure FieldSpec (σ : Type) where
  name : String
  /-- Whether the array form of the record may end before this field. -/
  optional : Bool
  read : σ → Reader σ

/-- The shape of a record: its name in messages, its fields in declared order, the empty state,
and the step to the value, which fails on a missing field. -/
structure Record (σ α : Type) where
  expecting : String
  fields : List (FieldSpec σ)
  init : σ
  finish : σ → Except Mismatch α

/-- The variant's `kind` names its content in messages. -/
inductive Variant (α : Type) where
  | unit (value : α)
  | content (kind : String) (read : Reader α)

namespace Reader

def string : Reader String := do
  match ← peek with
  | none => failNext .eofInValue
  | some '"' => do bump; scan fun c => scanString [] c.rest c.pos
  | some _ => wrongType "a string"

def word (w : List Char) : Reader Unit := scan fun c => (scanWord w c).map ((), ·)

def bool : Reader Bool := do
  match ← peek with
  | none => failNext .eofInValue
  | some 't' => do bump; word ['r', 'u', 'e']; pure true
  | some 'f' => do bump; word ['a', 'l', 's', 'e']; pure false
  | some _ => wrongType "a boolean"

def unit : Reader Unit := do
  match ← peek with
  | none => failNext .eofInValue
  | some 'n' => do bump; word ['u', 'l', 'l']
  | some _ => wrongType "unit"

def number : Reader (Option Num) := do
  match ← peek with
  | none => failNext .eofInValue
  | some '-' => do bump; pure (some (← scan (scanNumber false)))
  | some d => if isDigitChar d then do pure (some (← scan (scanNumber true))) else pure none

/-- Reads a number up to `bound`; `name` names the range in messages. -/
def natUpTo (bound : Nat) (name : String) : Reader Nat := fixHere do
  match ← number with
  | none => wrongType name
  | some (.unsigned n) => if n ≤ bound then pure n else mismatch (.invalidValue (.unsigned n) name)
  | some (.signed i) => mismatch (.invalidValue (.signed i) name)
  | some (.float f) => mismatch (.invalidType (.float f) name)

def int64 : Reader Int := fixHere do
  match ← number with
  | none => wrongType "i64"
  | some (.unsigned n) =>
    if n < Nat.pow 2 63 then pure n else mismatch (.invalidValue (.unsigned n) "i64")
  | some (.signed i) => pure i
  | some (.float f) => mismatch (.invalidType (.float f) "i64")

def u8 : Reader Nat := natUpTo (Nat.pow 2 8 - 1) "u8"

def u32 : Reader Nat := natUpTo (Nat.pow 2 32 - 1) "u32"

def usize : Reader Nat := natUpTo (Nat.pow 2 64 - 1) "usize"

def option (r : Reader α) : Reader (Option α) := do
  match ← peek with
  | some 'n' => do bump; word ['u', 'l', 'l']; pure none
  | _ => some <$> r

def list (room : Nat) (elem : Reader α) : Reader (List α) := do
  match ← peek with
  | none => failNext .eofInValue
  | some '[' => do
    enter room
    bump
    let step : Bool × List α → Reader ((Bool × List α) ⊕ List α) := fun (first, acc) => do
      if ← hasNext first then pure (.inl (false, (← elem) :: acc)) else pure (.inr acc.reverse)
    closed closeArray (iterate step (true, []))
  | some _ => wrongType "a sequence"

def fieldsInOrder (expecting : String) (total : Nat) :
    Nat → Bool → σ → List (FieldSpec σ) → Reader σ
  | _, _, s, [] => pure s
  | i, first, s, f :: fs => do
    if ← hasNext first then fieldsInOrder expecting total (i + 1) false (← f.read s) fs
    else if f.optional then fieldsInOrder expecting total (i + 1) first s fs
    else mismatch (.invalidLength i (expecting ++ " with " ++ toString total ++ " elements"))

def findField (k : String) : Nat → List (FieldSpec σ) → Option (Nat × FieldSpec σ)
  | _, [] => none
  | i, f :: fs => if f.name = k then some (i, f) else findField k (i + 1) fs

/-- Reads a record; `arrays` allows the array form. -/
def record (room : Nat) (r : Record σ α) (arrays : Bool := true) : Reader α := do
  let done (s : σ) : Reader α := match r.finish s with
    | .ok a => pure a
    | .error m => mismatch m
  match ← peek with
  | none => failNext .eofInValue
  | some '[' =>
    if arrays then do
      enter room
      bump
      closed closeArray do
        done (← fieldsInOrder r.expecting r.fields.length 0 true r.init r.fields)
    else wrongType r.expecting
  | some '{' => do
    enter room
    bump
    let step : Bool × List Nat × σ → Reader ((Bool × List Nat × σ) ⊕ σ) :=
      fun (first, seen, s) => do
        match ← nextKey first with
        | none => pure (.inr s)
        | some k =>
          match findField k 0 r.fields with
          | some (i, f) =>
            if i ∈ seen then mismatch (.duplicateField k)
            else do
              colon
              pure (.inl (false, i :: seen, ← f.read s))
          | none => do
            colon
            skipValue
            pure (.inl (false, seen, s))
    closed closeObject do done (← iterate step (true, [], r.init))
  | some _ => wrongType r.expecting

def variantName (variants : List (String × Variant α)) : Reader (Variant α) := fixHere do
  match ← peek with
  | none => failNext .eofInValue
  | some '"' => do
    bump
    let s ← scan fun c => scanString [] c.rest c.pos
    match variants.lookup s with
    | some v => pure v
    | none => mismatch (.unknownVariant s (variants.map Prod.fst))
  | some _ => wrongType "variant identifier"

def tagged (room : Nat) (variants : List (String × Variant α)) : Reader α := do
  match ← peek with
  | some '{' => do
    enter room
    bump
    -- the name of the variant is the object's only key, so it must be a string
    let v ← match ← peek with
      | some '"' => variantName variants
      | some '}' => failNext .expectedValue
      | some _ => failNext .keyMustBeString
      | none => failNext .eofInObject
    colon
    let a ← match v with
      | .unit a => do unit; pure a
      | .content _ read => read
    match ← peek with
    | some '}' => do bump; pure a
    | some _ => failHere .expectedValue
    | none => failHere .eofInObject
  | some '"' => do
    match ← variantName variants with
    | .unit a => pure a
    | .content kind _ => mismatch (.invalidType .unitVariant kind)
  | some _ => failNext .expectedValue
  | none => failNext .eofInValue

end Reader

end ProtoLayout.Json
