import ProtoLayout.Schedule.Graph
import ProtoLayout.Schedule.Components

/-!
Static-initialiser order: components of the reference graph, each after those it refers
to and the latest-declared first when free, a cycle ordered again with its lowest tier dropped.
-/

namespace ProtoLayout.Schedule

def updateAt (f : α → α) : List α → Nat → List α
  | [], _ => []
  | x :: xs, 0 => f x :: xs
  | x :: xs, i + 1 => x :: updateAt f xs i

/-- Adds `e` over local indices (positions in `members`) when it carries a tier of `tiers`
and joins two members. -/
def addLocalEdge (members : List Nat) (tiers : TierSet) (adj : List (List Nat)) (e : Edge) :
    List (List Nat) :=
  if e.tiers.meets tiers then
    match members.idxOf? e.src, members.idxOf? e.dst with
    | some a, some c => updateAt (· ++ [c]) adj a
    | _, _ => adj
  else adj

def Graph.localAdjacency (g : Graph) (members : List Nat) (tiers : TierSet) : List (List Nat) :=
  g.edges.foldl (addLocalEdge members tiers) (members.map fun _ => [])

def componentOf (comps : List (List Nat)) (v : Nat) : Nat := (comps.findIdx? (v ∈ ·)).getD 0

/-- Records an edge between components unless it stays inside one or is already recorded. -/
def addLink (acc : List (List Nat) × List Nat) (a c : Nat) : List (List Nat) × List Nat :=
  if a ≠ c ∧ c ∉ acc.1.getD a [] then (updateAt (· ++ [c]) acc.1 a, updateAt (· + 1) acc.2 c)
  else acc

def addLinksFrom (comps : List (List Nat)) (acc : List (List Nat) × List Nat)
    (p : List Nat × Nat) : List (List Nat) × List Nat :=
  p.1.foldl (fun acc w => addLink acc (componentOf comps p.2) (componentOf comps w)) acc

/-- For each component, the components it has an edge to and how many have an edge to it. -/
def condense (adj : List (List Nat)) (comps : List (List Nat)) : List (List Nat) × List Nat :=
  (adj.zipIdx).foldl (addLinksFrom comps) (comps.map fun _ => [], comps.map fun _ => 0)

def pickLatest (priority : Nat → Nat) : List Nat → Option Nat
  | [] => none
  | c :: cs =>
    match pickLatest priority cs with
    | some d => if priority c ≥ priority d then some c else some d
    | none => some c

/-- A successor whose last incoming edge this was becomes ready; successors go in ascending
order. -/
def release (succs : List (List Nat)) (c : Nat) (ready indeg : List Nat) : List Nat × List Nat :=
  ((succs.getD c []).mergeSort (· ≤ ·)).foldl (fun (acc : List Nat × List Nat) s =>
    let indeg := updateAt (· - 1) acc.2 s
    if indeg.getD s 0 = 0 then (acc.1 ++ [s], indeg) else (acc.1, indeg)) (ready, indeg)

/-- Repeatedly places the ready component of greatest priority. -/
def placementOrder (succs : List (List Nat)) (priority : Nat → Nat) :
    Nat → List Nat → List Nat → List Nat
  | 0, _, _ => []
  | fuel + 1, ready, indeg =>
    match pickLatest priority ready with
    | none => []
    | some c =>
      let (ready, indeg) := release succs c (ready.erase c) indeg
      c :: placementOrder succs priority fuel ready indeg

def componentIds (members : List Nat) (comps : List (List Nat)) (c : Nat) : List Nat :=
  ((comps.getD c []).map (members.getD · 0)).mergeSort (· ≤ ·)

mutual

def Graph.orderMembers (g : Graph) (members : List Nat) (tiers : TierSet) : List Nat :=
  let adj := g.localAdjacency members tiers
  let comps := tarjan adj
  let (succs, indeg) := condense adj comps
  let priority (c : Nat) : Nat := (componentIds members comps c).foldl max 0
  let ready := (List.range comps.length).filter (fun c => indeg.getD c 0 = 0)
  (placementOrder succs priority (comps.length + 1) ready indeg).flatMap fun c =>
    match componentIds members comps c with
    | [x] => [x]
    | xs => g.orderCycle xs tiers
termination_by (tiers.removable, 1)

/-- Members ordered again without the lowest tier, or latest declared first once only the
constructor tier is left. -/
def Graph.orderCycle (g : Graph) (component : List Nat) (tiers : TierSet) : List Nat :=
  match h : tiers.withoutLowest with
  | some reduced =>
    have := TierSet.removable_withoutLowest h
    g.orderMembers component reduced
  | none => component.reverse
termination_by (tiers.removable, 0)

end

def Graph.initOrder (g : Graph) : List Nat := g.orderMembers (List.range g.size) TierSet.full

end ProtoLayout.Schedule
