import Mathlib.Data.List.Basic
import Mathlib.Logic.Relation

/-! # Incremental readers

A reader takes its input step by step. `advance` gives the state and the unread input after one step, or nothing
where the reader has to wait for more input. What arrives later does not change a step that could be taken before,
so what a reader comes to depends on its whole input and not on how the input was cut.
-/

namespace CppRedis.Machine

/-- A reader in states `σ` over cells `α`. -/
structure Incremental (σ α : Type*) where
  advance : σ × List α → Option (σ × List α)
  stable {source target : σ} {input rest : List α} : advance (source, input) = some (target, rest) →
    ∀ more, advance (source, input ++ more) = some (target, rest ++ more)

namespace Incremental

variable {σ α : Type*} (reader : Incremental σ α)

/-- One step, from a state with its unread input to the next. -/
def Step (source target : σ × List α) : Prop := reader.advance source = some target

/-- Any number of steps. -/
def Reaches : σ × List α → σ × List α → Prop := Relation.ReflTransGen reader.Step

/-- As many steps as there are. -/
def Settles (source target : σ × List α) : Prop := reader.Reaches source target ∧ reader.advance target = none

variable {reader} {source middle target other : σ × List α}

theorem rightUnique : Relator.RightUnique reader.Step := by
  intro source target other step also
  rw [Step, step] at also
  exact Option.some.inj also

theorem Reaches.refl (source : σ × List α) : reader.Reaches source source := Relation.ReflTransGen.refl

theorem Reaches.trans (first : reader.Reaches source middle) (second : reader.Reaches middle target) :
    reader.Reaches source target := Relation.ReflTransGen.trans first second

theorem Reaches.head (first : reader.Step source middle) (later : reader.Reaches middle target) :
    reader.Reaches source target := Relation.ReflTransGen.head first later

theorem Reaches.single (step : reader.Step source target) : reader.Reaches source target :=
  Relation.ReflTransGen.single step

/-- Later input waits behind what is not read yet. -/
theorem Reaches.append (reaches : reader.Reaches source target) (more : List α) :
    reader.Reaches (source.1, source.2 ++ more) (target.1, target.2 ++ more) := by
  induction reaches with
  | refl => exact .refl _
  | tail _ step ih => exact ih.tail (reader.stable step more)

/-- From a state where the reader waits it gets nowhere. -/
theorem Reaches.eq_of_waiting (waits : reader.advance source = none) (reaches : reader.Reaches source target) :
    target = source := by
  rcases Relation.ReflTransGen.cases_head reaches with same | ⟨next, step, -⟩
  · exact same.symm
  · rw [Step, waits] at step
    exact absurd step (Option.some_ne_none _).symm

/-- Every state on the way settles where the way ends. -/
theorem Settles.of_reaches (settles : reader.Settles source target) (reaches : reader.Reaches source middle) :
    reader.Settles middle target := by
  refine ⟨?_, settles.2⟩
  rcases Relation.ReflTransGen.total_of_right_unique rightUnique reaches settles.1 with onward | back
  · exact onward
  · rw [Reaches.eq_of_waiting settles.2 back]
    exact .refl _

/-- A reader settles in one state. -/
theorem Settles.unique (settles : reader.Settles source target) (also : reader.Settles source other) :
    target = other :=
  Reaches.eq_of_waiting also.2 (settles.of_reaches also.1).1

theorem Settles.of_step (step : reader.Reaches source middle) (settles : reader.Settles middle target) :
    reader.Settles source target := ⟨step.trans settles.1, settles.2⟩

end Incremental

end CppRedis.Machine
