import Mathlib.Computability.Language

/-! # Words of sessions

The words of `(start item* stop)*`, and the words on the way to one. The last session of such a word is
open or closed, and what may come next depends on nothing else.
-/

namespace CppRedis.Machine

open scoped Computability

variable {α : Type*} (start item stop : α)

/-- The words of `(start item* stop)*`. -/
def sessions : Language α := ({[start]} * {[item]}∗ * {[stop]})∗

/-- A word on the way to a word of sessions, and whether its last session is open. -/
inductive SessionWord : Bool → List α → Prop where
  | closed {word : List α} (whole : word ∈ sessions start item stop) : SessionWord false word
  | opened {before : List α} (whole : before ∈ sessions start item stop) (count : ℕ) :
      SessionWord true (before ++ start :: List.replicate count item)

variable {start item stop}

/-- One more session. -/
theorem append_session_mem {before : List α} (whole : before ∈ sessions start item stop) (count : ℕ) :
    before ++ (start :: List.replicate count item ++ [stop]) ∈ sessions start item stop := by
  have items : List.replicate count item ∈ ({[item]} : Language α)∗ := by
    refine Language.mem_kstar.mpr ⟨List.replicate count [item], ?_, fun one member => ?_⟩
    · rw [List.flatten_replicate_singleton]
    · rw [List.eq_of_mem_replicate member]
      exact rfl
  have session : start :: List.replicate count item ++ [stop] ∈
      ({[start]} * {[item]}∗ * {[stop]} : Language α) := by
    refine Language.append_mem_mul ?_ rfl
    exact Language.append_mem_mul (show [start] ∈ ({[start]} : Language α) from rfl) items
  exact (kstar_mul_le_kstar (a := ({[start]} * {[item]}∗ * {[stop]} : Language α)))
    (Language.append_mem_mul whole session)

theorem sessionWord_nil : SessionWord start item stop false [] := .closed (Language.nil_mem_kstar _)

theorem SessionWord.snoc_start {word : List α} (closed : SessionWord start item stop false word) :
    SessionWord start item stop true (word ++ [start]) := by
  cases closed with
  | closed whole => exact .opened whole 0

theorem SessionWord.snoc_item {word : List α} (opened : SessionWord start item stop true word) :
    SessionWord start item stop true (word ++ [item]) := by
  cases opened with
  | @opened before whole count =>
    rw [List.append_assoc, List.cons_append, ← List.replicate_succ']
    exact .opened whole (count + 1)

theorem SessionWord.snoc_stop {word : List α} (opened : SessionWord start item stop true word) :
    SessionWord start item stop false (word ++ [stop]) := by
  cases opened with
  | @opened before whole count =>
    rw [List.append_assoc]
    exact .closed (append_session_mem whole count)

/-- Every word on the way leads to a word of sessions. -/
theorem SessionWord.exists_append_mem {opened : Bool} {word : List α}
    (onTheWay : SessionWord start item stop opened word) :
    ∃ more, word ++ more ∈ sessions start item stop := by
  cases opened with
  | false =>
    cases onTheWay with
    | closed whole => exact ⟨[], by rwa [List.append_nil]⟩
  | true =>
    cases onTheWay.snoc_stop with
    | closed whole => exact ⟨[stop], whole⟩

/-- A word of sessions starts with a start. -/
theorem head_of_mem_sessions {first : α} {rest : List α}
    (whole : first :: rest ∈ sessions start item stop) : first = start := by
  obtain ⟨words, split, each⟩ := Language.mem_kstar.mp whole
  cases words with
  | nil => cases split
  | cons word words =>
    obtain ⟨front, ⟨head, rfl, items, -, rfl⟩, tail, rfl, rfl⟩ := each _ List.mem_cons_self
    exact (List.cons.inj split).1

end CppRedis.Machine
