import ProtoLayout.Command.Similarity

/-!
The command line: an optional input path and five switches, read left to right. A value
and the input are checked only at the next switch, input or the end.
-/

namespace ProtoLayout.Command

inductive Switch where
  | outFile
  | json
  | noBanners
  | globalObject
  | help
  | version
deriving DecidableEq, Repr

/-- In the order the help lists them. -/
def Switch.all : List Switch := [.outFile, .json, .noBanners, .globalObject, .help, .version]

def Switch.name : Switch → String
  | .outFile => "outFile"
  | .json => "json"
  | .noBanners => "noBanners"
  | .globalObject => "globalObject"
  | .help => "help"
  | .version => "version"

/-- Its name, then its hidden aliases. -/
def Switch.longNames : Switch → List String
  | .outFile => ["outFile", "out-file"]
  | .noBanners => ["noBanners", "no-banners"]
  | .globalObject => ["globalObject", "global-object"]
  | s => [s.name]

def Switch.short? : Switch → Option Char
  | .outFile => some 'o'
  | .help => some 'h'
  | .version => some 'V'
  | _ => none

def Switch.valueName? : Switch → Option String
  | .outFile => some "OUT_FILE"
  | .globalObject => some "GLOBAL_OBJECT"
  | _ => none

def Switch.isPath (s : Switch) : Bool := s == .outFile

def Switch.spec (s : Switch) : String :=
  "--" ++ s.name ++ ((s.valueName?.map fun v => " <" ++ v ++ ">").getD "")

def Switch.about : Switch → String
  | .outFile => "Write output to this file instead of stdout"
  | .json => "Print the whole result (script, orders, diagnostics) as JSON"
  | .noBanners => "Omit the `// Name` comment before each type"
  | .globalObject => "Object global-methods holders attach to (overrides the batch options)"
  | .help => "Print help"
  | .version => "Print version"

def Switch.ofLong? (name : String) : Option Switch :=
  Switch.all.find? fun s => s.longNames.contains name

def Switch.ofShort? (c : Char) : Option Switch :=
  Switch.all.find? fun s => s.short? == some c

/-- In the order suggestions consider them. -/
def allLongNames : List String := Switch.all.flatMap Switch.longNames

def toolName : String := "scriptlet"

def toolVersion : String := "0.1.0"

def inputSpec : String := "[INPUT]"

def fullUsage : String := toolName ++ " [OPTIONS] " ++ inputSpec

inductive Part where
  | switch (s : Switch)
  | input
deriving DecidableEq, Repr

/-- Every part but the help and the version, which the usage gathers into one group. -/
def Part.inGroup : Part → Bool
  | .switch .help | .switch .version => false
  | _ => true

def groupParts : List Part :=
  [.input, .switch .outFile, .switch .json, .switch .noBanners, .switch .globalObject]

def groupSpec : String :=
  "<" ++ "|".intercalate (groupParts.map fun
    | .switch s => s.spec
    | .input => "INPUT") ++ ">"

def switchesOf (used : List Part) : List Switch :=
  (used.filterMap fun
    | .switch s => some s
    | .input => none).eraseDups

/-- The switches in the order taken, then the input, bracketed when it was not given. -/
def usageOf (used : List Part) : String :=
  if used.isEmpty then fullUsage
  else
    toolName ++ String.join ((switchesOf used).map fun s => " " ++ s.spec) ++
      (if used.contains .input then " <INPUT>" else " " ++ inputSpec)

def groupUsage (used : List Part) : String :=
  toolName ++ String.join (((switchesOf used).filter fun s => !(Part.switch s).inGroup).map
    fun s => " " ++ s.spec) ++ " " ++ groupSpec

/-- Each switch's about text stands in one column, two places after the longest switch. -/
def helpText : String :=
  let width := (Switch.all.map fun s => s.spec.length).foldl max 0
  let line (s : Switch) : String :=
    let lead := match s.short? with
      | some c => "-" ++ c.toString ++ ", "
      | none => "    "
    "  " ++ lead ++ s.spec ++ String.ofList (List.replicate (width - s.spec.length + 2) ' ') ++
      s.about ++ "\n"
  "Lower resolved type declarations to prototype-based runtime code\n\nUsage: " ++ fullUsage ++
    "\n\nArguments:\n  " ++ inputSpec ++ "  Batch JSON file. Reads stdin when omitted or `-`" ++
    "\n\nOptions:\n" ++ String.join (Switch.all.map line)

inductive Hint where
  | none
  | escape
  | similar (name : String)
deriving DecidableEq, Repr

inductive Refusal where
  | unexpectedArgument (arg : String) (hint : Hint) (usage : String)
  /-- An option without a value, or an empty path. -/
  | missingValue (spec : String)
  | repeated (spec : String)
  | unexpectedValue (value spec usage : String)
  | showHelp
  | showVersion
deriving DecidableEq, Repr

def moreInformation : String := "\n\nFor more information, try '--help'.\n"

def Refusal.text : Refusal → String
  | .unexpectedArgument arg hint usage =>
    let tip := match hint with
      | .none => ""
      | .escape => "\n\n  tip: to pass '" ++ arg ++ "' as a value, use '-- " ++ arg ++ "'"
      | .similar name => "\n\n  tip: a similar argument exists: '--" ++ name ++ "'"
    "error: unexpected argument '" ++ arg ++ "' found" ++ tip ++ "\n\nUsage: " ++ usage ++
      moreInformation
  | .missingValue spec =>
    "error: a value is required for '" ++ spec ++ "' but none was supplied" ++ moreInformation
  | .repeated spec =>
    "error: the argument '" ++ spec ++ "' cannot be used multiple times\n\nUsage: " ++
      fullUsage ++ moreInformation
  | .unexpectedValue value spec usage =>
    "error: unexpected value '" ++ value ++ "' for '" ++ spec ++
      "' found; no more were expected\n\nUsage: " ++ usage ++ moreInformation
  | .showHelp => helpText
  | .showVersion => toolName ++ " " ++ toolVersion ++ "\n"

def Refusal.isAnswer : Refusal → Bool
  | .showHelp | .showVersion => true
  | _ => false

def Refusal.exitCode (r : Refusal) : Nat := if r.isAnswer then 0 else 2

structure Invocation where
  input : Option String := none
  outFile : Option String := none
  json : Bool := false
  noBanners : Bool := false
  globalObject : Option String := none
deriving DecidableEq, Repr

/-- Without an input path, or with `-`. -/
def Invocation.readsStdin (i : Invocation) : Bool :=
  match i.input with
  | none => true
  | some path => path == "-"

structure Scan where
  found : Invocation := {}
  used : List Part := []
  /-- A part whose values are collected but not yet checked. -/
  pending : Option (Part × List String) := none
  awaiting : Bool := false
  inputGiven : Bool := false
  escaped : Bool := false
  /-- Set once one of the tool's own arguments is taken, even if later dropped. -/
  grouped : Bool := false

def Invocation.setValue (i : Invocation) : Switch → String → Invocation
  | .outFile, v => { i with outFile := some v }
  | .globalObject, v => { i with globalObject := some v }
  | _, _ => i

def Invocation.setFlag (i : Invocation) : Switch → Invocation
  | .json => { i with json := true }
  | .noBanners => { i with noBanners := true }
  | _ => i

def Scan.start (s : Scan) (p : Part) : Scan :=
  { s with used := s.used ++ [p], grouped := s.grouped || p.inGroup }

def Scan.take (s : Scan) (sw : Switch) (set : Invocation → Invocation) : Except Refusal Scan :=
  if s.used.contains (.switch sw) then .error (.repeated sw.spec)
  else .ok { s.start (.switch sw) with found := set s.found }

/-- A part with a value counts as taken before its value is checked, so an empty path is taken
and refused; an option given twice drops its first occurrence. -/
def Scan.resolve (s : Scan) : Scan × Option Refusal :=
  match s.pending with
  | none => (s, none)
  | some (part, values) =>
    let s := { s with pending := none }
    match part, values with
    | .input, v :: _ =>
      let s := s.start .input
      if v.isEmpty then (s, some (.missingValue inputSpec))
      else ({ s with found := { s.found with input := some v } }, none)
    | .input, [] => (s, none)
    | .switch sw, [] => (s, some (.missingValue sw.spec))
    | .switch sw, v :: _ =>
      if s.used.contains (.switch sw) then
        ({ s with used := s.used.erase (.switch sw) }, some (.repeated sw.spec))
      else
        let s := s.start (.switch sw)
        if sw.isPath ∧ v.isEmpty then (s, some (.missingValue sw.spec))
        else ({ s with found := s.found.setValue sw v }, none)

def Scan.settle (s : Scan) : Except Refusal Scan :=
  match s.resolve with
  | (s, none) => .ok s
  | (_, some r) => .error r

/-- For a failure overtaken by a later one. -/
def Scan.settleQuietly (s : Scan) : Scan := s.resolve.1

def Scan.named (s : Scan) (sw : Switch) (value : Option String) : Except Refusal Scan :=
  match sw.valueName?, value with
  | some _, some v => do
    let s ← s.settle
    let s := { s with pending := some (.switch sw, [v]), awaiting := false }
    s.settle
  | some _, none => do
    let s ← s.settle
    .ok { s with pending := some (.switch sw, []), awaiting := true }
  | none, some v =>
    let used := s.used ++ [.switch sw]
    .error (.unexpectedValue v sw.spec (if s.grouped then groupUsage used else usageOf used))
  | none, none => do
    let s ← s.settle
    match sw with
    | .help => .error .showHelp
    | .version => .error .showVersion
    | _ => (s.take sw fun i => i.setFlag sw).map fun s => { s with awaiting := false }

def Scan.unknownLong (s : Scan) (name : String) : Refusal :=
  let s := s.settleQuietly
  match closest name allLongNames with
  | some c =>
    let used := match Switch.ofLong? c with
      | some sw => if s.used.contains (.switch sw) then s.used else s.used ++ [.switch sw]
      | none => s.used
    .unexpectedArgument ("--" ++ name) (.similar c) (usageOf used)
  | none => .unexpectedArgument ("--" ++ name) .escape (usageOf s.used)

def Scan.value (s : Scan) (arg : String) : Except Refusal Scan :=
  match s.pending, s.awaiting && !s.escaped with
  | some (part, vs), true => .ok { s with pending := some (part, vs ++ [arg]), awaiting := false }
  | _, _ =>
    if s.inputGiven then
      .error (.unexpectedArgument arg .none fullUsage)
    else do
      let s ← s.settle
      .ok { s with pending := some (.input, [arg]), inputGiven := true, awaiting := false }

def splitLong (body : String) : String × Option String :=
  match body.splitOn "=" with
  | [] => (body, none)
  | [name] => (name, none)
  | name :: rest => (name, some ("=".intercalate rest))

def Scan.step (s : Scan) (arg : String) : Except Refusal Scan :=
  let cs := arg.toList
  if s.escaped then s.value arg
  else
    match cs with
    | ['-', '-'] => .ok { s with escaped := true }
    | '-' :: '-' :: body =>
      let (name, value) := splitLong (String.ofList body)
      match Switch.ofLong? name with
      | some sw => s.named sw value
      | none => .error (s.unknownLong name)
    | '-' :: c :: rest =>
      match Switch.ofShort? c with
      | some sw =>
        match sw.valueName?, rest with
        | some _, [] => s.named sw none
        | some _, '=' :: v => s.named sw (some (String.ofList v))
        | some _, v => s.named sw (some (String.ofList v))
        | none, _ => s.named sw none
      | none =>
        .error (.unexpectedArgument ("-" ++ c.toString) .escape fullUsage)
    | _ => s.value arg

def parseArgs (args : List String) : Except Refusal Invocation := do
  let s ← args.foldlM Scan.step {}
  let s ← s.settle
  .ok s.found

end ProtoLayout.Command
