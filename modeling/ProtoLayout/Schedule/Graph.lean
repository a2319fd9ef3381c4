import ProtoLayout.References
import ProtoLayout.Batch
import ProtoLayout.Schedule.Tiers

/-!
The reference graph of a batch: edges labelled with the tiers of the references, kept in
the order first found. References to itself or outside the batch are left out.
-/

namespace ProtoLayout.Schedule

open Script

/-- The script of a tier: constructor bodies, static or instance method bodies, or the
static initialiser. -/
def tierScript (b : ClassBody) : Tier → List Node
  | .constructor =>
    (match b.ctor with | some c => c.body | none => []) ++ b.namedCtors.flatMap (·.body)
  | .staticMethod => b.staticMethods.flatMap (·.body.getD [])
  | .instanceMethod => b.instanceMethods.flatMap (·.body.getD [])
  | .staticInit => b.staticInit

def tierReferences (d : Decl) (t : Tier) : List Nat :=
  match d.classBody? with
  | some b => references (tierScript b t)
  | none => []

def heritageOf (d : Decl) : List Nat :=
  match d.classBody? with
  | some b => b.heritage
  | none => []

structure Edge where
  src : Nat
  dst : Nat
  tiers : TierSet
deriving DecidableEq, Repr

structure Graph where
  size : Nat
  edges : List Edge
deriving Inhabited

/-- Adds tier `t` to the edge from `src` to `dst`, appending the edge if it is new. -/
def addTier (src dst : Nat) (t : Tier) : List Edge → List Edge
  | [] => [⟨src, dst, TierSet.empty.insert t⟩]
  | e :: es =>
    if e.src = src ∧ e.dst = dst then { e with tiers := e.tiers.insert t } :: es
    else e :: addTier src dst t es

def edgesFrom (size src : Nat) (d : Decl) (es : List Edge) : List Edge :=
  Tier.all.foldl (fun es t =>
    (tierReferences d t).foldl (fun es dst =>
      if dst = src ∨ size ≤ dst then es else addTier src dst t es) es) es

def Graph.build (b : Batch) : Graph :=
  ⟨b.size, (b.decls.zipIdx).foldl (fun es (d, src) => edgesFrom b.size src d es) []⟩

def Graph.tiersBetween (g : Graph) (src dst : Nat) : TierSet :=
  match g.edges.find? (fun e => e.src = src ∧ e.dst = dst) with
  | some e => e.tiers
  | none => TierSet.empty

end ProtoLayout.Schedule
