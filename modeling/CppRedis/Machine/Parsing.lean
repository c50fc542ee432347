import Mathlib.Data.List.Basic

/-! # Parsers that may need more input

A parser finds a value at the front of its input, or that the input stops too early, or an error. It is `Stable` when
input that arrives later changes neither a value nor an error that was found, and `Shrinks` when a value
takes none of the input twice.
-/

namespace CppRedis.Machine

/-- What an input of cells `κ` starts with. -/
inductive Parsed (κ ε α : Type) where
  | done (value : α) (rest : List κ)
  | more
  | bad (error : ε)

namespace Parsed

variable {κ ε α β : Type}

def bind (first : Parsed κ ε α) (next : α → List κ → Parsed κ ε β) : Parsed κ ε β :=
  match first with
  | done value rest => next value rest
  | more => more
  | bad error => bad error

def map (change : α → β) (first : Parsed κ ε α) : Parsed κ ε β := first.bind fun value rest => done (change value) rest

def ofExcept (result : Except ε α) (rest : List κ) : Parsed κ ε α :=
  match result with
  | .ok value => done value rest
  | .error error => bad error

/-- That many values one after the other. -/
def many (one : List κ → Parsed κ ε α) : ℕ → List κ → Parsed κ ε (List α)
  | 0, input => done [] input
  | count + 1, input => (one input).bind fun first rest => (many one count rest).map (first :: ·)

/-- The same with more input behind. -/
def behind (more : List κ) : Parsed κ ε α → Parsed κ ε α
  | done value rest => done value (rest ++ more)
  | .more => .more
  | bad error => bad error

@[simp] theorem done_bind (value : α) (rest : List κ) (next : α → List κ → Parsed κ ε β) :
    (done value rest).bind next = next value rest := rfl

@[simp] theorem more_bind (next : α → List κ → Parsed κ ε β) : (more : Parsed κ ε α).bind next = more := rfl

@[simp] theorem bad_bind (error : ε) (next : α → List κ → Parsed κ ε β) : (bad error).bind next = bad error := rfl

@[simp] theorem done_map (change : α → β) (value : α) (rest : List κ) :
    (done value rest : Parsed κ ε α).map change = done (change value) rest := rfl

@[simp] theorem more_map (change : α → β) : (more : Parsed κ ε α).map change = more := rfl

@[simp] theorem bad_map (change : α → β) (error : ε) : (bad error : Parsed κ ε α).map change = bad error := rfl

@[simp] theorem many_zero (one : List κ → Parsed κ ε α) (input : List κ) : many one 0 input = done [] input := rfl

theorem many_succ (one : List κ → Parsed κ ε α) (count : ℕ) (input : List κ) :
    many one (count + 1) input = (one input).bind fun first rest => (many one count rest).map (first :: ·) := rfl

theorem bind_eq_done_iff {first : Parsed κ ε α} {next : α → List κ → Parsed κ ε β} {value : β} {rest : List κ} :
    first.bind next = done value rest ↔
      ∃ middle between, first = done middle between ∧ next middle between = done value rest := by
  cases first with
  | done middle between =>
    rw [done_bind]
    exact ⟨fun found => ⟨middle, between, rfl, found⟩, by rintro ⟨_, _, same, found⟩; cases same; exact found⟩
  | more => exact ⟨by rintro ⟨⟩, by rintro ⟨_, _, ⟨⟩, _⟩⟩
  | bad error => exact ⟨by rintro ⟨⟩, by rintro ⟨_, _, ⟨⟩, _⟩⟩

theorem map_eq_done_iff {first : Parsed κ ε α} {change : α → β} {value : β} {rest : List κ} :
    first.map change = done value rest ↔ ∃ middle, first = done middle rest ∧ change middle = value := by
  rw [map, bind_eq_done_iff]
  constructor
  · rintro ⟨middle, between, found, same⟩
    cases same
    exact ⟨middle, found, rfl⟩
  · rintro ⟨middle, found, rfl⟩
    exact ⟨middle, rest, found, rfl⟩

theorem length_of_many {one : List κ → Parsed κ ε α} {count : ℕ} {input rest : List κ} {values : List α}
    (found : many one count input = done values rest) : values.length = count := by
  induction count generalizing input values with
  | zero =>
    cases found
    rfl
  | succ count ih =>
    obtain ⟨first, between, -, later⟩ := bind_eq_done_iff.mp found
    obtain ⟨others, tail, rfl⟩ := map_eq_done_iff.mp later
    rw [List.length_cons, ih tail]

/-- Later input changes neither a value nor an error. -/
def Stable (one : List κ → Parsed κ ε α) : Prop :=
  ∀ input more, one input ≠ .more → one (input ++ more) = (one input).behind more

theorem Stable.done {one : List κ → Parsed κ ε α} (stable : Stable one) {input rest : List κ} {value : α}
    (found : one input = done value rest) (more : List κ) : one (input ++ more) = .done value (rest ++ more) := by
  rw [stable input more (by rw [found]; rintro ⟨⟩), found]
  rfl

theorem Stable.bad {one : List κ → Parsed κ ε α} (stable : Stable one) {input : List κ} {error : ε}
    (found : one input = bad error) (more : List κ) : one (input ++ more) = .bad error := by
  rw [stable input more (by rw [found]; rintro ⟨⟩), found]
  rfl

theorem Stable.bind {one : List κ → Parsed κ ε α} {next : α → List κ → Parsed κ ε β} (first : Stable one)
    (later : ∀ value, Stable (next value)) : Stable fun input => (one input).bind next := by
  intro input more goes
  dsimp only at goes ⊢
  cases found : one input with
  | done value rest =>
    rw [found, done_bind] at goes
    rw [first.done found, done_bind, done_bind]
    exact later value rest more goes
  | more => exact absurd (by rw [found, more_bind]) goes
  | bad error =>
    rw [first.bad found, bad_bind]
    rfl

theorem Stable.pure (value : α) : Stable fun rest : List κ => (Parsed.done value rest : Parsed κ ε α) :=
  fun _ _ _ => rfl

theorem Stable.error (error : ε) : Stable fun _ : List κ => (Parsed.bad error : Parsed κ ε α) := fun _ _ _ => rfl

theorem Stable.wait : Stable fun _ : List κ => (Parsed.more : Parsed κ ε α) := fun _ _ goes => absurd rfl goes

theorem Stable.ofExcept (result : Except ε α) : Stable fun rest : List κ => Parsed.ofExcept result rest := by
  cases result with
  | ok value => exact .pure value
  | error error => exact .error error

theorem Stable.map {one : List κ → Parsed κ ε α} (first : Stable one) (change : α → β) :
    Stable fun input => (one input).map change := first.bind fun value => .pure (change value)

theorem Stable.many {one : List κ → Parsed κ ε α} (first : Stable one) (count : ℕ) :
    Stable (Parsed.many one count) := by
  induction count with
  | zero => exact .pure []
  | succ count ih => exact first.bind fun value => ih.map (value :: ·)

/-- A value takes that much of the input at least. -/
def Shrinks (least : ℕ) (one : List κ → Parsed κ ε α) : Prop :=
  ∀ input rest value, one input = done value rest → rest.length + least ≤ input.length

theorem Shrinks.bind {least : ℕ} {one : List κ → Parsed κ ε α} {next : α → List κ → Parsed κ ε β}
    (first : Shrinks least one) (later : ∀ value, Shrinks 0 (next value)) :
    Shrinks least fun input => (one input).bind next := by
  intro input rest value found
  obtain ⟨middle, between, head, tail⟩ := bind_eq_done_iff.mp found
  have before := first input between middle head
  have after := later middle between rest value tail
  omega

theorem Shrinks.pure (value : α) : Shrinks 0 fun rest : List κ => (Parsed.done value rest : Parsed κ ε α) := by
  rintro input rest _ ⟨⟩
  exact Nat.le_refl _

theorem Shrinks.error (least : ℕ) (error : ε) : Shrinks least fun _ : List κ => (Parsed.bad error : Parsed κ ε α) := by
  rintro input rest value ⟨⟩

theorem Shrinks.wait (least : ℕ) : Shrinks least fun _ : List κ => (Parsed.more : Parsed κ ε α) := by
  rintro input rest value ⟨⟩

theorem Shrinks.ofExcept (result : Except ε α) : Shrinks 0 fun rest : List κ => Parsed.ofExcept result rest := by
  cases result with
  | ok value => exact .pure value
  | error error => exact .error 0 error

theorem Shrinks.map {least : ℕ} {one : List κ → Parsed κ ε α} (first : Shrinks least one) (change : α → β) :
    Shrinks least fun input => (one input).map change := first.bind fun value => .pure (change value)

theorem Shrinks.many {one : List κ → Parsed κ ε α} (first : Shrinks 0 one) (count : ℕ) :
    Shrinks 0 (Parsed.many one count) := by
  induction count with
  | zero => exact .pure []
  | succ count ih => exact first.bind fun value => ih.map (value :: ·)

end Parsed

end CppRedis.Machine
