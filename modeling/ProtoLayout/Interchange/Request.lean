import ProtoLayout.Interchange.Read
import ProtoLayout.Json.Value
import ProtoLayout.Layout.Program

/-!
A compile request: layout options and the declarations of one batch.
-/

namespace ProtoLayout.Interchange

open Json

structure Request where
  options : Options := {}
  decls : List Decl
deriving Inhabited

/-- The `options` may be left out, the `types` may not. -/
def readRequest (room : Nat) : Reader Request :=
  Reader.record room
    { expecting := "struct CompileRequest"
      fields := [slot "options" true (readOptions (room - 1))
                   (fun (s : Option Options × Option (List Decl)) v => (some v, s.2)),
                 slot "types" false (readDecls false (room - 1)) (fun s v => (s.1, some v))]
      init := (none, none)
      finish := fun (o, t) => do pure ⟨o.getD {}, ← need "types" t⟩ }

def Request.parse (text : String) : Except ReadError Request :=
  Reader.run (readRequest Value.depthLimit) text

/-- Script text, both orders by qualified name, and diagnostics. -/
structure Compiled where
  text : String
  declarationOrder : List String
  initOrder : List String
  diagnostics : List Diagnostic
deriving Inhabited

def Request.compile (r : Request) : Compiled :=
  let batch : Batch := ⟨r.decls⟩
  let p := Layout.layout r.options batch
  ⟨p.text, p.declarationOrder.map batch.qualifiedName, p.initOrder.map batch.qualifiedName,
   p.diagnostics⟩

def Compiled.hasErrors (c : Compiled) : Bool := c.diagnostics.any (·.severity == .error)

end ProtoLayout.Interchange
