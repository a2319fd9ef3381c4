import ProtoLayout.Namespace.Tree
import Mathlib.Data.List.Perm.Basic

/-!
The display order lists every declaration of the batch once.
-/

namespace ProtoLayout.Namespace

variable (b : Batch)

theorem order_node (ts : List Nat) (cs : List (String × Tree)) :
    (Tree.node ts cs).order b = ts.mergeSort (withinBefore b) ++ childrenOrder b cs := by
  rw [Tree.order]

theorem order_empty : Tree.empty.order b = [] := by
  rw [Tree.empty, order_node, childrenOrder, List.mergeSort_nil]
  rfl

theorem childrenOrder_updateChild (s : String) (f : Tree → Tree) (i : Nat)
    (hf : ∀ t, List.Perm ((f t).order b) (t.order b ++ [i])) :
    ∀ cs, List.Perm (childrenOrder b (updateChild s f cs)) (childrenOrder b cs ++ [i])
  | [] => by
    have h := hf Tree.empty
    rw [order_empty] at h
    simpa [updateChild, childrenOrder] using h
  | (k, t) :: rest => by
    unfold updateChild
    split
    · -- a new child in front
      have h := hf Tree.empty
      rw [order_empty, List.nil_append] at h
      simp only [childrenOrder]
      exact (h.append_right _).trans List.perm_append_comm
    · split
      · simp only [childrenOrder]
        refine ((hf t).append_right _).trans ?_
        rw [List.append_assoc, List.append_assoc]
        exact List.perm_append_comm.append_left _
      · simp only [childrenOrder, List.append_assoc]
        exact (childrenOrder_updateChild s f i hf rest).append_left _

theorem order_insert : ∀ (path : List String) (i : Nat) (t : Tree),
    List.Perm ((t.insert path i).order b) (t.order b ++ [i])
  | [], i, .node ts cs => by
    rw [Tree.insert, order_node, order_node, List.append_assoc]
    refine ((List.mergeSort_perm _ _).append_right _).trans ?_
    refine (((List.mergeSort_perm ts (withinBefore b)).symm.append_right [i]).append_right _).trans ?_
    rw [List.append_assoc]
    exact (List.perm_append_comm.append_left _)
  | s :: rest, i, .node ts cs => by
    rw [Tree.insert, order_node, order_node, List.append_assoc]
    exact (childrenOrder_updateChild b s _ i (order_insert rest i) cs).append_left _

theorem displayOrder_perm : List.Perm (displayOrder b) (List.range b.size) := by
  have hfold : ∀ (ps : List (Decl × Nat)) (t : Tree),
      List.Perm ((ps.foldl (fun t (p : Decl × Nat) => t.insert p.1.name.path p.2) t).order b)
        (t.order b ++ ps.map Prod.snd) := by
    intro ps
    induction ps with
    | nil => intro t; simp
    | cons p ps ih =>
      intro t
      rw [List.foldl_cons, List.map_cons]
      refine (ih _).trans ?_
      refine ((order_insert b _ _ t).append_right _).trans ?_
      rw [List.append_assoc, List.singleton_append]
  have h := hfold b.decls.zipIdx Tree.empty
  rw [order_empty, List.nil_append, List.zipIdx_map_snd, ← List.range_eq_range'] at h
  exact h

end ProtoLayout.Namespace
