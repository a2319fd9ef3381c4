import ProtoLayout.Command.Run

/-!
The tool's entry point.
-/

open ProtoLayout Command

/-- The system error number a failed operation carries. -/
def errorNumber : IO.Error → Option UInt32
  | .alreadyExists _ c _ | .otherError c _ | .resourceBusy c _ | .resourceVanished c _
  | .unsupportedOperation c _ | .hardwareFault c _ | .unsatisfiedConstraints c _
  | .illegalOperation c _ | .protocolError c _ | .timeExpired c _ | .interrupted _ c _
  | .noFileOrDirectory _ c _ | .invalidArgument _ c _ | .permissionDenied _ c _
  | .resourceExhausted _ c _ | .inappropriateType _ c _ | .noSuchThing _ c _ => some c
  | .unexpectedEof | .userError _ => none

def describeFailure (e : IO.Error) : String :=
  match (errorNumber e).bind fun c => FileError.ofCode c.toNat with
  | some f => f.message
  | none => toString e

/-- The batch text the invocation names, or `none` once a failed read is reported. -/
def readSource (inv : Invocation) : IO (Option String) := do
  match inv.input with
  | some path =>
    if inv.readsStdin then
      return some (← (← IO.getStdin).readToEnd)
    try
      return some (← IO.FS.readFile path)
    catch e =>
      IO.eprint (failure ("failed to read " ++ path) (describeFailure e))
      return none
  | none => return some (← (← IO.getStdin).readToEnd)

/-- Writes the output where the invocation says; `false` once a failed write is reported. -/
def writeOutput (inv : Invocation) (output : String) : IO Bool := do
  match inv.outFile with
  | none =>
    IO.print output
    return true
  | some path =>
    try
      IO.FS.writeFile path output
      return true
    catch e =>
      IO.eprint (failure ("failed to write " ++ path) (describeFailure e))
      return false

def main (args : List String) : IO UInt32 := do
  match parseArgs args with
  | .error r =>
    if r.isAnswer then IO.print r.text else IO.eprint r.text
    return r.exitCode.toUInt32
  | .ok inv =>
    let some text ← readSource inv | return 1
    match inv.produce text with
    | .error report =>
      IO.eprint report
      return 1
    | .ok p =>
      IO.eprint p.notes
      if ← writeOutput inv p.output then return p.status.toUInt32 else return 1
