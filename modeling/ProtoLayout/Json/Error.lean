import ProtoLayout.Decimal.Shortest
import ProtoLayout.Text.Printable

/-!
Errors of reading JSON into a typed value: syntax errors, and data errors in well-formed text,
each at a line and a byte column.
-/

namespace ProtoLayout.Json

structure Position where
  line : Nat
  column : Nat
deriving DecidableEq, Repr

inductive Syntax where
  | eofInList
  | eofInObject
  | eofInString
  | eofInValue
  | expectedColon
  | expectedListCommaOrEnd
  | expectedObjectCommaOrEnd
  | expectedIdent
  | expectedValue
  | invalidEscape
  | invalidNumber
  | numberOutOfRange
  | controlCharacter
  | keyMustBeString
  | loneSurrogate
  | trailingComma
  | trailingCharacters
  | unexpectedEndOfHexEscape
  | recursionLimit
deriving DecidableEq, Repr

def Syntax.message : Syntax → String
  | .eofInList => "EOF while parsing a list"
  | .eofInObject => "EOF while parsing an object"
  | .eofInString => "EOF while parsing a string"
  | .eofInValue => "EOF while parsing a value"
  | .expectedColon => "expected `:`"
  | .expectedListCommaOrEnd => "expected `,` or `]`"
  | .expectedObjectCommaOrEnd => "expected `,` or `\x7d`"
  | .expectedIdent => "expected ident"
  | .expectedValue => "expected value"
  | .invalidEscape => "invalid escape"
  | .invalidNumber => "invalid number"
  | .numberOutOfRange => "number out of range"
  | .controlCharacter => "control character (\\u0000-\\u001F) found while parsing a string"
  | .keyMustBeString => "key must be a string"
  | .loneSurrogate => "lone leading surrogate in hex escape"
  | .trailingComma => "trailing comma"
  | .trailingCharacters => "trailing characters"
  | .unexpectedEndOfHexEscape => "unexpected end of hex escape"
  | .recursionLimit => "recursion limit exceeded"

def Syntax.isEof : Syntax → Bool
  | .eofInList | .eofInObject | .eofInString | .eofInValue => true
  | _ => false

/-- What the text held where a value of another kind was expected. -/
inductive Found where
  | bool (b : Bool)
  | unsigned (n : Nat)
  | signed (i : Int)
  | float (f : Float)
  | string (s : String)
  | null
  | seq
  | map
  | unitVariant

/-- Positional while the point falls between 5 places left of the first digit and 16 right of it,
`.0` after a whole number; otherwise one digit, a point, the rest and `e` with the exponent. -/
def floatText (f : Float) : String :=
  let bits := f.toBits
  let sign := if bits.toNat ≥ Nat.pow 2 63 then "-" else ""
  match Decimal.Binary.ofBits bits with
  | none => if f.isNaN then "NaN" else if f.isInf then sign ++ "inf" else sign ++ "0.0"
  | some x =>
    let (d, q) := x.shortest
    let ds := Decimal.digitsOf d
    let len : Int := ds.length
    let kk := len + q
    let body :=
      if 0 ≤ q ∧ kk ≤ 16 then
        String.ofList ds ++ String.ofList (List.replicate q.toNat '0') ++ ".0"
      else if 0 < kk ∧ kk ≤ 16 then
        String.ofList (ds.take kk.toNat) ++ "." ++ String.ofList (ds.drop kk.toNat)
      else if -5 < kk ∧ kk ≤ 0 then
        "0." ++ String.ofList (List.replicate (-kk).toNat '0') ++ String.ofList ds
      else
        let e := kk - 1
        let mant := match ds with
          | [c] => String.singleton c
          | c :: rest => String.singleton c ++ "." ++ String.ofList rest
          | [] => "0"
        mant ++ "e" ++ (if e < 0 then "-" else "+") ++ toString e.natAbs
    sign ++ body

/-- Short escapes for quote, backslash, NUL, tab, carriage return and line feed; `\u{..}` in
lowercase for characters that are not printable or extend a grapheme. -/
def debugQuote (s : String) : String :=
  let esc (c : Char) : String :=
    if c = '"' then "\\\""
    else if c = '\\' then "\\\\"
    else if c = '\n' then "\\n"
    else if c = '\r' then "\\r"
    else if c = '\t' then "\\t"
    else if c = '\x00' then "\\0"
    else if Text.showsEscaped c then
      "\\u" ++ "\x7b" ++ String.ofList (Nat.toDigits 16 c.toNat) ++ "\x7d"
    else String.singleton c
  "\"" ++ String.join (s.toList.map esc) ++ "\""

def Found.message : Found → String
  | .bool b => "boolean `" ++ (if b then "true" else "false") ++ "`"
  | .unsigned n => "integer `" ++ toString n ++ "`"
  | .signed i => "integer `" ++ toString i ++ "`"
  | .float f => "floating point `" ++ floatText f ++ "`"
  | .string s => "string " ++ debugQuote s
  | .null => "null"
  | .seq => "sequence"
  | .map => "map"
  | .unitVariant => "unit variant"

inductive Mismatch where
  | invalidType (found : Found) (expected : String)
  | invalidValue (found : Found) (expected : String)
  | invalidLength (count : Nat) (expected : String)
  | unknownVariant (name : String) (variants : List String)
  | missingField (name : String)
  | duplicateField (name : String)

def oneOf : List String → String
  | [] => "there are no variants"
  | [a] => "expected `" ++ a ++ "`"
  | [a, b] => "expected `" ++ a ++ "` or `" ++ b ++ "`"
  | names => "expected one of " ++ ", ".intercalate (names.map fun n => "`" ++ n ++ "`")

def Mismatch.message : Mismatch → String
  | .invalidType f e => "invalid type: " ++ f.message ++ ", expected " ++ e
  | .invalidValue f e => "invalid value: " ++ f.message ++ ", expected " ++ e
  | .invalidLength n e => "invalid length " ++ toString n ++ ", expected " ++ e
  | .unknownVariant v [] => "unknown variant `" ++ v ++ "`, " ++ oneOf []
  | .unknownVariant v names => "unknown variant `" ++ v ++ "`, " ++ oneOf names
  | .missingField n => "missing field `" ++ n ++ "`"
  | .duplicateField n => "duplicate field `" ++ n ++ "`"

inductive Category where
  | malformed
  | eof
  | data
deriving DecidableEq, Repr

def Category.name : Category → String
  | .malformed => "syntax"
  | .eof => "eof"
  | .data => "data"

inductive ReadError where
  | malformed (code : Syntax) (pos : Position)
  | data (m : Mismatch) (pos : Option Position)

def ReadError.category : ReadError → Category
  | .malformed code _ => if code.isEof then .eof else .malformed
  | .data .. => .data

/-- With ` at line L column C` when the error has a position. -/
def ReadError.message : ReadError → String
  | .malformed code p =>
      code.message ++ " at line " ++ toString p.line ++ " column " ++ toString p.column
  | .data m none => m.message
  | .data m (some p) =>
      m.message ++ " at line " ++ toString p.line ++ " column " ++ toString p.column

end ProtoLayout.Json
