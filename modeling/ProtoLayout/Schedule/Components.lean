/-!
Strongly connected components by Tarjan's depth-first search, emitted in reverse
topological order.
-/

namespace ProtoLayout.Schedule

structure Search where
  counter : Nat := 0
  index : List (Option Nat)
  low : List Nat
  stack : List Nat := []
  onStack : List Bool
  comps : List (List Nat) := []

def Search.start (n : Nat) : Search :=
  { index := List.replicate n none, low := List.replicate n 0, onStack := List.replicate n false }

/-- Pops the stack down to and including `v`, collecting the popped nodes in pop order. -/
def popTo (v : Nat) : List Nat → List Bool → List Nat → List Nat × List Bool × List Nat
  | [], onStack, acc => (acc.reverse, onStack, [])
  | w :: rest, onStack, acc =>
    let onStack := onStack.set w false
    if w = v then ((w :: acc).reverse, onStack, rest)
    else popTo v rest onStack (w :: acc)

def Search.push (s : Search) (v : Nat) : Search :=
  { s with
    counter := s.counter + 1
    index := s.index.set v (some s.counter)
    low := s.low.set v s.counter
    stack := v :: s.stack
    onStack := s.onStack.set v true }

def Search.lower (s : Search) (v k : Nat) : Search :=
  { s with low := s.low.set v (min (s.low.getD v 0) k) }

/-- An unvisited `w` is visited by `recur` and passes its link back; one still on the stack
passes its index. -/
def Search.follow (recur : Nat → Search → Search) (v : Nat) (s : Search) (w : Nat) : Search :=
  match s.index.getD w none with
  | none =>
    let s := recur w s
    s.lower v (s.low.getD w 0)
  | some wi => if s.onStack.getD w false then s.lower v wi else s

def Search.close (s : Search) (v : Nat) : Search :=
  if s.index.getD v none == some (s.low.getD v 0) then
    let (comp, onStack, stack) := popTo v s.stack s.onStack []
    { s with stack, onStack, comps := s.comps ++ [comp] }
  else s

/-- Every nested visit is of a new node, so `fuel` above the number of nodes suffices. -/
def visit (adj : List (List Nat)) : Nat → Nat → Search → Search
  | 0, _, s => s
  | fuel + 1, v, s => ((adj.getD v []).foldl (Search.follow (visit adj fuel) v) (s.push v)).close v

/-- The components in the order the search emits them; successors must be nodes of the graph. -/
def tarjan (adj : List (List Nat)) : List (List Nat) :=
  let n := adj.length
  let s := (List.range n).foldl (fun s v =>
    if (s.index.getD v none).isNone then visit adj (n + 1) v s else s) (Search.start n)
  s.comps

def inRange (adj : List (List Nat)) : Bool :=
  adj.all fun ws => ws.all (· < adj.length)

end ProtoLayout.Schedule
