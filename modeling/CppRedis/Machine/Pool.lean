import Mathlib.Data.List.Basic

/-! # Pools of threads

A pool is a list with the position of every thread, and a step of one thread writes its entry. Facts
about a pool are counts: a step takes the old position out of every count and puts the new one in.
-/

namespace CppRedis.Machine

variable {α : Type*} {pool : List α} {thread : ℕ} {old : α}

/-- One entry changes: the counts before and after, each with the other's entry. -/
theorem countP_set_add (here : pool[thread]? = some old) (new : α) (counts : α → Bool) :
    (pool.set thread new).countP counts + (counts old).toNat = pool.countP counts + (counts new).toNat := by
  obtain ⟨inside, rfl⟩ := List.getElem?_eq_some_iff.mp here
  rw [List.countP_set inside]
  cases own : counts pool[thread] with
  | false => cases counts new <;> simp
  | true =>
    have counted : 0 < pool.countP counts := List.countP_pos_iff.mpr ⟨_, List.getElem_mem inside, own⟩
    cases counts new <;> simp <;> omega

theorem countP_set_of_eq (here : pool[thread]? = some old) (new : α) (counts : α → Bool)
    (same : counts new = counts old) : (pool.set thread new).countP counts = pool.countP counts := by
  have moved := countP_set_add here new counts
  rw [same] at moved
  exact Nat.add_right_cancel moved

theorem countP_set_enter (here : pool[thread]? = some old) (new : α) (counts : α → Bool)
    (before : counts old = false) (after : counts new = true) :
    (pool.set thread new).countP counts = pool.countP counts + 1 := by
  have moved := countP_set_add here new counts
  rw [before, after] at moved
  exact moved

theorem countP_set_leave (here : pool[thread]? = some old) (new : α) (counts : α → Bool)
    (before : counts old = true) (after : counts new = false) :
    (pool.set thread new).countP counts + 1 = pool.countP counts := by
  have moved := countP_set_add here new counts
  rw [before, after] at moved
  exact moved

end CppRedis.Machine
