import ProtoLayout.Batch

/-!
The namespace tree of a batch and its display order: in pre-order, a namespace's own
declarations, by nesting chain and then id, before those of the namespaces inside it.
-/

namespace ProtoLayout.Namespace

/-- A namespace: the ids declared in it and its sub-namespaces keyed by segment. -/
inductive Tree where
  | node (types : List Nat) (children : List (String × Tree))
deriving Inhabited

def Tree.empty : Tree := .node [] []

/-- Applies `f` to the child `s`, made empty if absent; children stay ordered by name. -/
def updateChild (s : String) (f : Tree → Tree) : List (String × Tree) → List (String × Tree)
  | [] => [(s, f Tree.empty)]
  | (k, t) :: rest =>
    if s < k then (s, f Tree.empty) :: (k, t) :: rest
    else if s = k then (k, f t) :: rest
    else (k, t) :: updateChild s f rest

def Tree.insert : List String → Nat → Tree → Tree
  | [], i, .node ts cs => .node (ts ++ [i]) cs
  | s :: rest, i, .node ts cs => .node ts (updateChild s (Tree.insert rest i) cs)

def Tree.ofBatch (b : Batch) : Tree :=
  (b.decls.zipIdx).foldl (fun t (d, i) => t.insert d.name.path i) Tree.empty

/-- Lexicographic comparison of nesting chains: a chain comes before its extensions. -/
def compareChains : List String → List String → Ordering
  | [], [] => .eq
  | [], _ :: _ => .lt
  | _ :: _, [] => .gt
  | a :: as, b :: bs =>
    match compare a b with
    | .eq => compareChains as bs
    | o => o

/-- Whether `i` comes no later than `j` within one namespace: by nesting chain, then id. -/
def withinBefore (b : Batch) (i j : Nat) : Bool :=
  let ni := (b.get? i).map (·.name.nesting)
  let nj := (b.get? j).map (·.name.nesting)
  match ni, nj with
  | some x, some y =>
    match compareChains x y with
    | .lt => true
    | .gt => false
    | .eq => i ≤ j
  | none, some _ => true
  | some _, none => false
  | none, none => i ≤ j

mutual

def Tree.order (b : Batch) : Tree → List Nat
  | .node ts cs => ts.mergeSort (withinBefore b) ++ childrenOrder b cs

def childrenOrder (b : Batch) : List (String × Tree) → List Nat
  | [] => []
  | (_, t) :: rest => t.order b ++ childrenOrder b rest

end

def displayOrder (b : Batch) : List Nat := (Tree.ofBatch b).order b

end ProtoLayout.Namespace
