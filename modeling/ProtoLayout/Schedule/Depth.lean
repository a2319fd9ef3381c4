import ProtoLayout.Schedule.Graph

/-!
Declaration order: the baseline sorted stably by inheritance depth, so a declaration comes
after those it inherits from.
-/

namespace ProtoLayout.Schedule

abbrev Depths := List (Option Nat)

/-- The list `visiting` holds the declarations being computed, where a cycle is cut at depth
zero; every nested call adds one, so `fuel` above the batch size suffices. -/
def depthOf (b : Batch) : Nat → List Nat → Nat → Depths → Nat × Depths
  | 0, _, _, memo => (0, memo)
  | fuel + 1, visiting, i, memo =>
    match memo.getD i none with
    | some d => (d, memo)
    | none =>
      if i ∈ visiting then (0, memo)
      else
        let deps := ((b.get? i).map heritageOf).getD [] |>.filter (fun j => j ≠ i ∧ j < b.size)
        let (best, memo) := deps.foldl (fun (acc : Option Nat × Depths) j =>
          let (d, memo) := depthOf b fuel (i :: visiting) j acc.2
          (some (match acc.1 with | some m => max m (d + 1) | none => d + 1), memo)) (none, memo)
        let d := best.getD 0
        (d, memo.set i (some d))

def depths (b : Batch) (baseline : List Nat) : Depths :=
  baseline.foldl (fun memo i => (depthOf b (b.size + 1) [] i memo).2)
    (List.replicate b.size none)

def declarationOrder (b : Batch) (baseline : List Nat) : List Nat :=
  let ds := depths b baseline
  let key (i : Nat) : Nat := (ds.getD i none).getD 0
  baseline.mergeSort (fun i j => key i ≤ key j)

end ProtoLayout.Schedule
