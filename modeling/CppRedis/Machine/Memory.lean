import Mathlib.Data.List.Basic

/-! # Flat memory behind a pointer

`Memory α` is what a pointer can reach: cell `k` is the one `k` places behind it. Memory has no end
of its own, so a copy that leaves its allocation simply lands behind it, and whether it does is a
statement about positions. `read` and `write` are bulk copies; both take the whole source before the
destination changes, so an overlapping copy moves the old cells.
-/

namespace CppRedis.Machine

/-- The cells at and behind a pointer. -/
abbrev Memory (α : Type*) := ℕ → α

namespace Memory

variable {α : Type*} (memory : Memory α)

/-- The pointer moved forward. -/
def offset (position : ℕ) : Memory α := fun index => memory (position + index)

/-- Copy `count` cells out, starting at `position`. -/
def read (position count : ℕ) : List α :=
  (List.range count).map fun index => memory (position + index)

/-- Copy the cells of `data` in, starting at `position`. -/
def write (position : ℕ) (data : List α) : Memory α := fun index =>
  if position ≤ index then data[index - position]?.getD (memory index) else memory index

@[simp] theorem read_length (position count : ℕ) : (memory.read position count).length = count := by
  simp only [read, List.length_map, List.length_range]

@[simp] theorem getElem_read (position count index : ℕ) (bound : index < (memory.read position count).length) :
    (memory.read position count)[index] = memory (position + index) := by
  simp only [read, List.getElem_map, List.getElem_range]

theorem read_offset (position start count : ℕ) :
    (memory.offset position).read start count = memory.read (position + start) count := by
  simp only [read, offset, Nat.add_assoc]

theorem read_add (position first second : ℕ) :
    memory.read position (first + second) =
      memory.read position first ++ memory.read (position + first) second := by
  simp only [read, List.range_add, List.map_append, List.map_map, Function.comp_def, Nat.add_assoc]

theorem read_take (position count : ℕ) {kept : ℕ} (bound : kept ≤ count) :
    (memory.read position count).take kept = memory.read position kept := by
  obtain ⟨more, rfl⟩ := Nat.exists_eq_add_of_le bound
  rw [read_add, List.take_left' (read_length ..)]

theorem read_drop (position count : ℕ) {dropped : ℕ} (bound : dropped ≤ count) :
    (memory.read position count).drop dropped = memory.read (position + dropped) (count - dropped) := by
  obtain ⟨more, rfl⟩ := Nat.exists_eq_add_of_le bound
  rw [read_add, List.drop_left' (read_length ..), Nat.add_sub_cancel_left]

/-- A written interval reads back. -/
theorem read_write_self (position : ℕ) (data : List α) :
    (memory.write position data).read position data.length = data := by
  apply List.ext_getElem
  · exact read_length ..
  · intro index _ bound
    rw [getElem_read]
    simp only [write, if_pos (Nat.le_add_right position index), Nat.add_sub_cancel_left,
      List.getElem?_eq_getElem bound, Option.getD_some]

/-- Cells before the written interval keep their contents. -/
theorem read_write_before {position start count : ℕ} (data : List α) (before : start + count ≤ position) :
    (memory.write position data).read start count = memory.read start count := by
  apply List.map_congr_left
  intro index member
  have bound := List.mem_range.mp member
  exact if_neg (by omega)

/-- So do cells behind it. -/
theorem read_write_behind {position start : ℕ} (count : ℕ) {data : List α}
    (behind : position + data.length ≤ start) :
    (memory.write position data).read start count = memory.read start count := by
  apply List.map_congr_left
  intro index _
  simp only [write, List.getElem?_eq_none (show data.length ≤ start + index - position by omega),
    Option.getD_none, ite_self]

/-- Two copies, the second right behind the first, are one. -/
theorem write_append (position : ℕ) (first second : List α) :
    (memory.write position first).write (position + first.length) second =
      memory.write position (first ++ second) := by
  funext index
  simp only [write]
  by_cases before : position ≤ index
  · rw [if_pos before, if_pos before]
    by_cases inside : position + first.length ≤ index
    · have past : first[index - position]? = none := List.getElem?_eq_none (by omega)
      rw [if_pos inside, List.getElem?_append_right (by omega), past, Option.getD_none, Nat.sub_sub]
    · rw [if_neg inside, List.getElem?_append_left (by omega)]
  · rw [if_neg before, if_neg before, if_neg (by omega)]

theorem read_eq_read_iff (other : Memory α) (position count : ℕ) :
    memory.read position count = other.read position count ↔
      ∀ index, position ≤ index → index < position + count → memory index = other index := by
  simp only [read]
  rw [List.map_inj_left]
  constructor
  · intro same index lower upper
    have cell := same (index - position) (List.mem_range.mpr (by omega))
    rwa [Nat.add_sub_cancel' lower] at cell
  · intro same index member
    have bound := List.mem_range.mp member
    exact same (position + index) (Nat.le_add_right _ _) (by omega)

end Memory

end CppRedis.Machine
