/-!
Diagnostics, with messages whose placeholders `{0}`, `{1}`, … are filled one after another.
-/

namespace ProtoLayout

inductive Severity where
  | warning
  | error
  | message
deriving DecidableEq, Repr, Inhabited

def Severity.name : Severity → String
  | .warning => "Warning"
  | .error => "Error"
  | .message => "Message"

/-- The word that starts a displayed diagnostic. -/
def Severity.word : Severity → String
  | .warning => "warning"
  | .error => "error"
  | .message => "message"

structure Diagnostic where
  severity : Severity
  code : Nat
  message : String
  symbol : String
deriving DecidableEq, Repr, Inhabited

def entryPointHasParameters : Nat := 7801

def entryPointNotNormal : Nat := 7802

/-- The severity and template of a known code. -/
def template? (code : Nat) : Option (Severity × String) :=
  if code = entryPointHasParameters then
    some (.error, "The entry point method '\x7b0\x7d' cannot have any parameters.")
  else if code = entryPointNotNormal then
    some (.error, "The entry point method '\x7b0\x7d' must be implemented as a normal method.")
  else none

def placeholder (i : Nat) : String := "\x7b" ++ toString i ++ "\x7d"

/-- Replaces every occurrence of `pat`, left to right and without overlaps; the empty pattern
occurs nowhere. -/
def replaceAll (pat rep : List Char) : List Char → List Char
  | [] => []
  | c :: cs =>
    if _ : pat ≠ [] ∧ pat.isPrefixOf (c :: cs) then
      rep ++ replaceAll pat rep ((c :: cs).drop pat.length)
    else c :: replaceAll pat rep cs
termination_by s => s.length
decreasing_by
  · have := List.length_pos_iff.2 (‹pat ≠ [] ∧ _›).1
    simp only [List.length_drop, List.length_cons]
    omega
  · simp

/-- Fills `{0}`, `{1}`, … in turn, each in the text so far, so an argument can be filled again. -/
def formatMessage (template : String) (args : List String) : String :=
  String.ofList ((args.zipIdx).foldl
    (fun text (arg, i) => replaceAll (placeholder i).toList arg.toList text) template.toList)

namespace Diagnostic

/-- The diagnostic for `code`; an unknown code gives an error whose message is `SC` and the code. -/
def ofCode (code : Nat) (symbol : String) (args : List String) : Diagnostic :=
  match template? code with
  | some (sev, t) => ⟨sev, code, formatMessage t args, symbol⟩
  | none => ⟨.error, code, "SC" ++ toString code, symbol⟩

/-- The displayed form `error SC7801: message (symbol)`. -/
def display (d : Diagnostic) : String :=
  d.severity.word ++ " SC" ++ toString d.code ++ ": " ++ d.message ++ " (" ++ d.symbol ++ ")"

end Diagnostic

end ProtoLayout
