/-!
Jaro similarity of two words, in binary64 and evaluated left to right, used to suggest the
switch a mistyped one was meant to be.
-/

namespace ProtoLayout.Command

/-- Anything above this is worth a suggestion. -/
def suggestionThreshold : Float := 0.7

def firstFree (b : List Char) (taken : List Bool) (c : Char) (lo hi : Nat) : Option Nat :=
  (List.range hi).find? fun j => lo ≤ j ∧ b.getD j ' ' = c ∧ !taken.getD j true

def matchMarks (a b : List Char) : List Bool × List Bool :=
  let window := max a.length b.length / 2 - 1
  a.zipIdx.foldl (fun (acc : List Bool × List Bool) (c, i) =>
    match firstFree b acc.2 c (i - window) (min b.length (i + window + 1)) with
    | some j => (acc.1 ++ [true], acc.2.set j true)
    | none => (acc.1 ++ [false], acc.2)) ([], b.map fun _ => false)

def marked (w : List Char) (marks : List Bool) : List Char :=
  (w.zip marks).filterMap fun (c, m) => if m then some c else none

def jaro (a b : String) : Float :=
  let (as, bs) := (a.toList, b.toList)
  if as.isEmpty ∧ bs.isEmpty then 1
  else if as.isEmpty ∨ bs.isEmpty then 0
  else
    let (ma, mb) := matchMarks as bs
    let (xs, ys) := (marked as ma, marked bs mb)
    let m := xs.length
    if m = 0 then 0
    else
      let t := ((xs.zip ys).filter fun (x, y) => x ≠ y).length / 2
      (m.toFloat / as.length.toFloat + m.toFloat / bs.length.toFloat +
        (m - t).toFloat / m.toFloat) / 3

/-- Of equally similar candidates above the threshold, the last. -/
def closest (w : String) (candidates : List String) : Option String :=
  (candidates.foldl (fun (best : Option (String × Float)) c =>
    let s := jaro w c
    if !(s > suggestionThreshold) then best
    else
      match best with
      | some (_, b) => if s < b then best else some (c, s)
      | none => some (c, s)) none).map (·.1)

end ProtoLayout.Command
