import ProtoLayout.Layout.Program
import Mathlib.Data.List.Basic

/-!
The statements of a laid-out batch, part by part.
-/

namespace ProtoLayout.Layout

open Script

/-- None outside the batch. -/
def fragmentOf (opts : Options) (batch : Batch) (i : Nat) : List Node :=
  match batch.get? i with
  | some d => markedFragment opts batch i d
  | none => []

def Registers (opts : Options) (batch : Batch) (i : Nat) (r : Option Node) : Prop :=
  r = none ∨ ∃ d path, batch.get? i = some d ∧ needsNamespace d = true ∧
    d.name.pathText? = some path ∧ r = some (Namespace.registration opts.typeSystem path)

def fragmentStep (opts : Options) (batch : Batch) (acc : List Node × Namespace.Registry)
    (i : Nat) : List Node × Namespace.Registry :=
  match batch.get? i with
  | none => acc
  | some d =>
    let (reg, registry) :=
      if needsNamespace d then
        match d.name.pathText? with
        | some path => acc.2.ensure opts.typeSystem path
        | none => (none, acc.2)
      else (none, acc.2)
    (acc.1 ++ reg.toList ++ markedFragment opts batch i d, registry)

theorem flatMap_split_of_pair {α β : Type} (f : α → List β) {x y : α} :
    ∀ {L : List α}, List.Sublist [x, y] L → ∃ P Q R, L.flatMap f = P ++ f x ++ Q ++ f y ++ R
  | z :: L, .cons _ h => by
    obtain ⟨P, Q, R, hsplit⟩ := flatMap_split_of_pair f h
    exact ⟨f z ++ P, Q, R, by rw [List.flatMap_cons, hsplit]; simp only [List.append_assoc]⟩
  | _ :: L, .cons_cons _ h => by
    obtain ⟨s, t, rfl⟩ := List.append_of_mem (List.singleton_sublist.1 h)
    exact ⟨[], s.flatMap f, t.flatMap f, by simp⟩

theorem fragments_eq (opts : Options) (batch : Batch) (order : List Nat) :
    fragments opts batch order = (order.foldl (fragmentStep opts batch) ([], {})).1 :=
  rfl

section Split

variable (opts : Options) (batch : Batch)

theorem ensure_registers (r : Namespace.Registry) {path : String} {d : Decl} {i : Nat}
    (hd : batch.get? i = some d) (hn : needsNamespace d = true) (hp : d.name.pathText? = some path) :
    Registers opts batch i (r.ensure opts.typeSystem path).1 := by
  unfold Namespace.Registry.ensure
  split
  · exact .inl rfl
  · exact .inr ⟨d, path, hd, hn, hp, rfl⟩

theorem fragmentStep_fst (acc : List Node × Namespace.Registry) (i : Nat) :
    ∃ r, Registers opts batch i r ∧
      (fragmentStep opts batch acc i).1 = acc.1 ++ (r.toList ++ fragmentOf opts batch i) := by
  unfold fragmentStep fragmentOf
  cases hd : batch.get? i with
  | none => exact ⟨none, .inl rfl, by simp⟩
  | some d =>
    dsimp only
    by_cases hn : needsNamespace d = true
    · rw [if_pos hn]
      cases hp : d.name.pathText? with
      | none => exact ⟨none, .inl rfl, by simp⟩
      | some path =>
        exact ⟨_, ensure_registers opts batch acc.2 hd hn hp, by simp [List.append_assoc]⟩
    · rw [if_neg hn]
      exact ⟨none, .inl rfl, by simp⟩

theorem foldl_fragmentStep : ∀ (order : List Nat) (acc : List Node × Namespace.Registry),
    order.Nodup → ∃ reg : Nat → Option Node, (∀ i, Registers opts batch i (reg i)) ∧
      (order.foldl (fragmentStep opts batch) acc).1 =
        acc.1 ++ order.flatMap fun i => (reg i).toList ++ fragmentOf opts batch i
  | [], acc, _ => ⟨fun _ => none, fun _ => .inl rfl, by simp⟩
  | i :: order, acc, hnd => by
    obtain ⟨hi, hnd⟩ := List.nodup_cons.1 hnd
    obtain ⟨r, hr, hstep⟩ := fragmentStep_fst opts batch acc i
    obtain ⟨reg, hreg, hrest⟩ := foldl_fragmentStep order (fragmentStep opts batch acc i) hnd
    -- `i` does not come again, so its registration can be told apart by its id
    refine ⟨fun j => if j = i then r else reg j, fun j => ?_, ?_⟩
    · dsimp only
      by_cases hj : j = i
      · rw [if_pos hj]; exact hj ▸ hr
      · rw [if_neg hj]; exact hreg j
    · have hlater : (order.flatMap fun j => (if j = i then r else reg j).toList ++
          fragmentOf opts batch j) = order.flatMap fun j => (reg j).toList ++ fragmentOf opts batch j :=
        List.flatMap_congr fun j hj => by rw [if_neg fun h : j = i => hi (h ▸ hj)]
      rw [List.foldl_cons, hrest, hstep, List.flatMap_cons, hlater]
      dsimp only
      rw [if_pos rfl]
      simp only [List.append_assoc]

end Split

/-- For each id of the declaration order, an optional namespace registration and its fragment;
the scheduled static initialisers; at most one entry-point call. -/
theorem layout_statements (opts : Options) (batch : Batch)
    (hnd : (layout opts batch).declarationOrder.Nodup) :
    ∃ reg : Nat → Option Node, (∀ i, Registers opts batch i (reg i)) ∧
      (layout opts batch).statements =
        (layout opts batch).declarationOrder.flatMap
            (fun i => (reg i).toList ++ fragmentOf opts batch i) ++
          (layout opts batch).initOrder.flatMap
            (fun i => ((batch.get? i).map scheduledInit).getD []) ++
          (entryPoint opts batch).1.toList := by
  obtain ⟨reg, hreg, h⟩ := foldl_fragmentStep opts batch _ ([], {}) hnd
  refine ⟨reg, hreg, ?_⟩
  unfold layout at h ⊢
  dsimp only at h ⊢
  rw [fragments_eq, h, List.nil_append]

end ProtoLayout.Layout
