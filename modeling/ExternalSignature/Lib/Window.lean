import ExternalSignature.Lib.Run

/-!
# Windows

A window has the newest entries of a sequence, `n` of them at most and the newest first. After a run
of pushes it has the newest `n` of the entries before and of those pushed (`toList_run`), so an entry
stays as long as fewer than `n` are in front of it (`mem_run`).
-/

namespace Lib

structure Window (α : Type) (n : Nat) where
  toList : List α
  length_le : toList.length ≤ n

namespace Window

variable {α : Type} {n : Nat}

/-- The new entry goes to the front, and the oldest of a full window is dropped. -/
def push (w : Window α n) (a : α) : Window α n :=
  ⟨(a :: w.toList).take n, List.length_take_le n _⟩

theorem toList_run (w : Window α n) (as : List α) :
    (run push w as).toList = (as.reverse ++ w.toList).take n := by
  induction as generalizing w with
  | nil => exact (List.take_of_length_le w.length_le).symm
  | cons a as ih =>
    rw [run_cons, ih, push, List.reverse_cons, List.append_assoc, List.singleton_append]
    simp only [List.take_append, List.take_take, Nat.min_eq_left (Nat.sub_le n _)]

/-- What a window has after a run was in it before, or has been pushed. -/
theorem mem_of_mem_run {w : Window α n} {as : List α} {a : α} (h : a ∈ (run push w as).toList) :
    a ∈ as ∨ a ∈ w.toList := by
  rw [toList_run] at h
  simpa using List.mem_of_mem_take h

theorem mem_run {w : Window α n} {as : List α} {i : Nat} {a : α} (ha : w.toList[i]? = some a)
    (hi : as.length + i < n) : a ∈ (run push w as).toList := by
  rw [toList_run]
  refine List.mem_iff_getElem?.mpr ⟨as.length + i, ?_⟩
  rw [List.getElem?_take_of_lt hi, List.getElem?_append_right (by simp)]
  simpa using ha

/-- The order of a sequence is the order of its windows. -/
theorem pairwise_run {r : α → α → Prop} {w : Window α n} {as : List α}
    (h : (as.reverse ++ w.toList).Pairwise r) : (run push w as).toList.Pairwise r := by
  rw [toList_run]
  exact h.sublist (List.take_sublist n _)

end Window

end Lib
