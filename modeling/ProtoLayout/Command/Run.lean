import ProtoLayout.Command.Line
import ProtoLayout.Command.FileSystem
import ProtoLayout.Interchange.Request
import ProtoLayout.Interchange.Write

/-!
One run of the tool: read the batch, lay it out, report diagnostics on standard error and
write the script or the JSON result.
-/

namespace ProtoLayout.Command

open Interchange Json

structure Outcome where
  stdout : String := ""
  stderr : String := ""
  exitCode : Nat := 0
  directory : Directory

/-- Every line of the cause indented by four places. -/
def failure (context cause : String) : String :=
  "Error: " ++ context ++ "\n\nCaused by:\n    " ++ cause.replace "\n" "\n    " ++ "\n"

def Invocation.source (i : Invocation) (stdin : String) (dir : Directory) :
    Except String String :=
  match i.input with
  | some path =>
    if i.readsStdin then .ok stdin
    else (dir.read stdin path).mapError fun e => failure ("failed to read " ++ path) e.message
  | none => .ok stdin

def Invocation.adjust (i : Invocation) (r : Request) : Request :=
  let o := if i.noBanners then { r.options with emitTypeBanners := false } else r.options
  let o := match i.globalObject with
    | some g => { o with globalObject := g }
    | none => o
  { r with options := o }

structure Produced where
  notes : String
  output : String
  status : Nat

/-- Lays out the batch text under the invocation, or reports why the text is no batch. -/
def Invocation.produce (i : Invocation) (text : String) : Except String Produced :=
  match Request.parse text with
  | .error e => .error (failure "failed to parse batch JSON" e.message)
  | .ok req =>
    let c := (i.adjust req).compile
    .ok { notes := String.join (c.diagnostics.map fun d => d.display ++ "\n")
          output := if i.json then (compiledValue c).pretty 0 else c.text
          status := if c.hasErrors then 1 else 0 }

/-- Runs the tool on its arguments (without the program name), standard input and working
directory. -/
def run (args : List String) (stdin : String) (dir : Directory) : Outcome :=
  match parseArgs args with
  | .error r =>
    if r.isAnswer then { stdout := r.text, exitCode := r.exitCode, directory := dir }
    else { stderr := r.text, exitCode := r.exitCode, directory := dir }
  | .ok inv =>
    match inv.source stdin dir >>= inv.produce with
    | .error report => { stderr := report, exitCode := 1, directory := dir }
    | .ok p =>
      match inv.outFile with
      | none => { stdout := p.output, stderr := p.notes, exitCode := p.status, directory := dir }
      | some path =>
        match dir.write path p.output with
        | .ok (.directory dir) => { stderr := p.notes, exitCode := p.status, directory := dir }
        | .ok .output =>
          { stdout := p.output, stderr := p.notes, exitCode := p.status, directory := dir }
        | .ok .errors => { stderr := p.notes ++ p.output, exitCode := p.status, directory := dir }
        | .ok .nowhere => { stderr := p.notes, exitCode := p.status, directory := dir }
        | .error e =>
          { stderr := p.notes ++ failure ("failed to write " ++ path) e.message, exitCode := 1,
            directory := dir }

end ProtoLayout.Command
