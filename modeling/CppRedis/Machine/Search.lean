import Mathlib.Data.List.Basic

/-! # Binary search for a partition point

`std::lower_bound`, `std::upper_bound` and `std::equal_range` over a list, by halving. The two bounds may
use different comparisons; all that counts is that the elements for which a comparison holds come first.
-/

namespace CppRedis.Machine

variable {α : Type*}

/-- The loop of `std::lower_bound` over the `len` elements from `first` on. -/
def bisect (before : α → Bool) (elements : List α) : ℕ → ℕ → ℕ → ℕ
  | 0, first, _ => first
  | fuel + 1, first, len =>
      if len = 0 then first
      else
        match elements[first + len / 2]? with
        | none => first
        | some middle =>
            if before middle then bisect before elements fuel (first + len / 2 + 1) (len - len / 2 - 1)
            else bisect before elements fuel first (len / 2)

/-- Where the elements with `before` end. -/
def partitionPoint (before : α → Bool) (elements : List α) : ℕ :=
  bisect before elements elements.length 0 elements.length

/-- `std::equal_range` for a value, given the tests of elements against it. -/
def equalRange (less greater : α → Bool) (elements : List α) : ℕ × ℕ :=
  (partitionPoint less elements, partitionPoint (fun element => !greater element) elements)

/-- The search closes in on the border as long as it lies between its two ends. -/
theorem bisect_eq_of_partitioned (before : α → Bool) (front back : List α) (below : ∀ element ∈ front, before element)
    (above : ∀ element ∈ back, ¬ before element) (fuel first len : ℕ) (enough : len ≤ fuel)
    (started : first ≤ front.length) (ends : front.length ≤ first + len)
    (within : first + len ≤ (front ++ back).length) :
    bisect before (front ++ back) fuel first len = front.length := by
  induction fuel generalizing first len with
  | zero =>
    simp only [bisect]
    omega
  | succ fuel ih =>
    simp only [bisect]
    by_cases empty : len = 0
    · rw [if_pos empty]
      omega
    · rw [if_neg empty]
      have inside : first + len / 2 < (front ++ back).length := by omega
      rw [List.getElem?_eq_getElem inside]
      dsimp only
      by_cases left : first + len / 2 < front.length
      · have here : before (front ++ back)[first + len / 2] = true := by
          rw [List.getElem_append_left left]
          exact below _ (List.getElem_mem left)
        rw [if_pos here]
        exact ih _ _ (by omega) (by omega) (by omega) (by omega)
      · have here : ¬ before (front ++ back)[first + len / 2] = true := by
          rw [List.getElem_append_right (by omega)]
          exact above _ (List.getElem_mem _)
        rw [if_neg here]
        exact ih _ _ (by omega) (by omega) (by omega) (by omega)

/-- On a partitioned list the search finds the border. -/
theorem partitionPoint_append (before : α → Bool) (front back : List α)
    (below : ∀ element ∈ front, before element) (above : ∀ element ∈ back, ¬ before element) :
    partitionPoint before (front ++ back) = front.length :=
  bisect_eq_of_partitioned before front back below above _ 0 _ (Nat.le_refl _) (Nat.zero_le _)
    (by simp only [List.length_append]; omega) (by omega)

/-- The range of a value that exactly the middle element equals. -/
theorem equalRange_of_mem (less greater : α → Bool) (front back : List α) (element : α)
    (lower : ∀ other ∈ front, less other ∧ ¬ greater other) (here : ¬ less element ∧ ¬ greater element)
    (upper : ∀ other ∈ back, ¬ less other ∧ greater other) :
    equalRange less greater (front ++ element :: back) = (front.length, front.length + 1) := by
  have first : partitionPoint less (front ++ element :: back) = front.length := by
    refine partitionPoint_append less front (element :: back) (fun other member => (lower other member).1) ?_
    intro other member
    rcases List.mem_cons.mp member with rfl | later
    · exact here.1
    · exact (upper other later).1
  have last : partitionPoint (fun other => !greater other) ((front ++ [element]) ++ back) =
      (front ++ [element]).length := by
    refine partitionPoint_append _ _ _ ?_ ?_
    · intro other member
      rcases List.mem_append.mp member with earlier | same
      · simpa using (lower other earlier).2
      · rw [List.mem_singleton.mp same]
        simpa using here.2
    · intro other member
      simpa using (upper other member).2
  rw [List.append_assoc, List.singleton_append, List.length_append, List.length_singleton] at last
  rw [equalRange, first, last]

/-- The empty range of a value that no element equals. -/
theorem equalRange_of_not_mem (less greater : α → Bool) (front back : List α)
    (lower : ∀ other ∈ front, less other ∧ ¬ greater other)
    (upper : ∀ other ∈ back, ¬ less other ∧ greater other) :
    equalRange less greater (front ++ back) = (front.length, front.length) := by
  have first := partitionPoint_append less front back (fun other member => (lower other member).1)
    (fun other member => (upper other member).1)
  have last := partitionPoint_append (fun other => !greater other) front back
    (fun other member => by simpa using (lower other member).2)
    (fun other member => by simpa using (upper other member).2)
  rw [equalRange, first, last]

end CppRedis.Machine
