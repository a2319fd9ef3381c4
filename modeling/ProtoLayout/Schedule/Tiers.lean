/-!
Reference tiers: where in a declaration a reference occurs, from the constructor (which
matters most for initialisation order) down to the static initialiser.
-/

namespace ProtoLayout.Schedule

inductive Tier where
  | constructor
  | staticMethod
  | instanceMethod
  | staticInit
deriving DecidableEq, Repr

/-- The tiers in the order the reference graph is built. -/
def Tier.all : List Tier := [.constructor, .staticMethod, .instanceMethod, .staticInit]

structure TierSet where
  constructor : Bool := false
  staticMethod : Bool := false
  instanceMethod : Bool := false
  staticInit : Bool := false
deriving DecidableEq, Repr, Inhabited

namespace TierSet

def empty : TierSet := {}

def full : TierSet := ⟨true, true, true, true⟩

def mem (s : TierSet) : Tier → Bool
  | .constructor => s.constructor
  | .staticMethod => s.staticMethod
  | .instanceMethod => s.instanceMethod
  | .staticInit => s.staticInit

def insert (s : TierSet) : Tier → TierSet
  | .constructor => { s with constructor := true }
  | .staticMethod => { s with staticMethod := true }
  | .instanceMethod => { s with instanceMethod := true }
  | .staticInit => { s with staticInit := true }

def meets (a b : TierSet) : Bool :=
  (a.constructor && b.constructor) || (a.staticMethod && b.staticMethod) ||
    (a.instanceMethod && b.instanceMethod) || (a.staticInit && b.staticInit)

/-- Constructor 1, static method 2, instance method 4, static initialiser 8. -/
def bits (s : TierSet) : Nat :=
  (if s.constructor then 1 else 0) + (if s.staticMethod then 2 else 0) +
    (if s.instanceMethod then 4 else 0) + (if s.staticInit then 8 else 0)

/-- The set of the four low bits of `n`; higher bits are ignored. -/
def ofBits (n : Nat) : TierSet := ⟨n.testBit 0, n.testBit 1, n.testBit 2, n.testBit 3⟩

def removable (s : TierSet) : Nat :=
  (if s.staticMethod then 1 else 0) + (if s.instanceMethod then 1 else 0) +
    (if s.staticInit then 1 else 0)

/-- The set without its lowest tier; the constructor tier alone, or none, has nothing to give up. -/
def withoutLowest (s : TierSet) : Option TierSet :=
  if s.staticInit then some { s with staticInit := false }
  else if s.instanceMethod then some { s with instanceMethod := false }
  else if s.staticMethod then some { s with staticMethod := false }
  else none

theorem removable_withoutLowest {s r : TierSet} (h : s.withoutLowest = some r) :
    r.removable < s.removable := by
  unfold withoutLowest at h
  cases s with
  | mk c sm im si =>
    cases si <;> cases im <;> cases sm <;> simp at h <;> subst h <;> simp [removable]

end TierSet

end ProtoLayout.Schedule
