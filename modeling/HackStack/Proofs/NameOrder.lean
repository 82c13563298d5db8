import HackStack.Job.Plan
import Mathlib.Data.List.Basic
/-!
# The order of names

The units of a directory are sorted by the bytes of their names. Hence they come in this order, each once
(`sort_strict`), and do not depend on the order in which the directory lists them (`sort_perm`).
-/

namespace HackStack.Job

theorem pairwise_sort (names : List Bytes) : (names.mergeSort inOrder).Pairwise (· ≤ ·) := by
  have htrans (a b c : Bytes) (hab : inOrder a b) (hbc : inOrder b c) : inOrder a c :=
    decide_eq_true (List.le_trans (of_decide_eq_true hab) (of_decide_eq_true hbc))
  have htotal (a b : Bytes) : inOrder a b || inOrder b a := by
    rw [Bool.or_eq_true]
    exact (List.le_total a b).imp decide_eq_true decide_eq_true
  exact (List.pairwise_mergeSort htrans htotal names).imp of_decide_eq_true

/-- The sorted names depend only on which names there are, not on their order. -/
theorem sort_perm {names names' : List Bytes} (h : names.Perm names') :
    names.mergeSort inOrder = names'.mergeSort inOrder := by
  have hperm : (names.mergeSort inOrder).Perm (names'.mergeSort inOrder) :=
    ((names.mergeSort_perm inOrder).trans h).trans (names'.mergeSort_perm inOrder).symm
  exact hperm.eq_of_pairwise (fun _ _ _ _ => List.le_antisymm) (pairwise_sort names) (pairwise_sort names')

/-- Different names come in the strict order of their bytes. -/
theorem sort_strict {names : List Bytes} (h : names.Nodup) : (names.mergeSort inOrder).Pairwise (· < ·) := by
  have hnodup : (names.mergeSort inOrder).Nodup := (names.mergeSort_perm inOrder).nodup_iff.2 h
  refine (List.Pairwise.and (pairwise_sort names) hnodup).imp ?_
  rintro a b ⟨hle, hne⟩
  rw [← List.not_le]
  intro hba
  exact hne (List.le_antisymm hle hba)

end HackStack.Job
