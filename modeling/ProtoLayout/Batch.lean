import ProtoLayout.Decl.Basic

/-!
A batch of declarations; a declaration's id is its position in the batch.
-/

namespace ProtoLayout

/-- Declarations in id order. -/
structure Batch where
  decls : List Decl := []
deriving Inhabited

namespace Batch

def size (b : Batch) : Nat := b.decls.length

def get? (b : Batch) (i : Nat) : Option Decl := b.decls[i]?

/-- Adds a declaration; its id is the former size. -/
def add (b : Batch) (d : Decl) : Batch × Nat := (⟨b.decls ++ [d]⟩, b.size)

/-- Replaces the declaration with id `i`; an id outside the batch changes nothing. -/
def replace (b : Batch) (i : Nat) (d : Decl) : Batch := ⟨b.decls.set i d⟩

def ids (b : Batch) : List Nat := List.range b.size

/-- The qualified name of the declaration with id `i`, or `""` outside the batch. -/
def qualifiedName (b : Batch) (i : Nat) : String :=
  match b.get? i with
  | some d => d.name.qualified
  | none => ""

/-- A reference to the declaration with id `i`, printed as its qualified name. -/
def typeRef (b : Batch) (i : Nat) : Script.Node := .typeRef (some i) (b.qualifiedName i)

end Batch

end ProtoLayout
