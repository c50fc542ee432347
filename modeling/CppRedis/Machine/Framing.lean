import Mathlib.Data.List.Basic
import Mathlib.Logic.Function.Iterate

/-! # Length-prefixed frames in a byte stream

A format reads the length of a whole frame off a header of fixed size. `next?` is the frame at the
front of the bytes at hand, if it is complete there; whether and where it ends does not depend on
what arrives behind it. `Parses` relates a stream to the frames taken from its front one after the
other, and `completed` counts how many frames of a given sequence lie wholly in its first cells.
-/

namespace CppRedis.Machine

/-- How the length of a frame is read off its first `header` cells. -/
structure Framing (α : Type*) where
  header : ℕ
  declared : List α → ℕ
  declared_take (bytes : List α) : header ≤ bytes.length → declared (bytes.take header) = declared bytes

namespace Framing

variable {α : Type*} (format : Framing α)

/-- The frame at the front, once its header and all its declared cells are there. -/
def next? (bytes : List α) : Option (List α) :=
  if format.header ≤ bytes.length ∧ format.declared bytes ≤ bytes.length then
    some (bytes.take (format.declared bytes))
  else none

/-- A frame that declares its own length. -/
def IsFrame (frame : List α) : Prop :=
  format.header ≤ frame.length ∧ format.declared frame = frame.length

instance (frame : List α) : Decidable (format.IsFrame frame) := inferInstanceAs (Decidable (_ ∧ _))

variable {format}

theorem declared_append {front : List α} (long : format.header ≤ front.length) (more : List α) :
    format.declared (front ++ more) = format.declared front := by
  rw [← format.declared_take (front ++ more) (by rw [List.length_append]; omega),
    List.take_append_of_le_length long, format.declared_take front long]

theorem next?_eq_some_iff {bytes frame : List α} :
    format.next? bytes = some frame ↔
      format.header ≤ bytes.length ∧ format.declared bytes ≤ bytes.length ∧
        bytes.take (format.declared bytes) = frame := by
  simp only [next?]
  split_ifs with complete
  · simp only [Option.some.injEq, complete.1, complete.2, true_and]
  · refine iff_of_false nofun ?_
    rintro ⟨long, declared, -⟩
    exact complete ⟨long, declared⟩

theorem length_of_next? {bytes frame : List α} (found : format.next? bytes = some frame) :
    frame.length = format.declared bytes ∧ frame.length ≤ bytes.length := by
  obtain ⟨-, declared, rfl⟩ := next?_eq_some_iff.mp found
  rw [List.length_take, Nat.min_eq_left declared]
  exact ⟨rfl, declared⟩

theorem take_of_next? {bytes frame : List α} (found : format.next? bytes = some frame) :
    bytes.take frame.length = frame := by
  rw [(length_of_next? found).1]
  exact (next?_eq_some_iff.mp found).2.2

/-- Bytes behind a complete frame do not change it. -/
theorem next?_append {bytes frame : List α} (found : format.next? bytes = some frame) (more : List α) :
    format.next? (bytes ++ more) = some frame := by
  obtain ⟨long, declared, taken⟩ := next?_eq_some_iff.mp found
  rw [next?_eq_some_iff, declared_append long, List.length_append]
  exact ⟨by omega, by omega, by rw [List.take_append_of_le_length declared, taken]⟩

theorem IsFrame.next? {frame : List α} (framed : format.IsFrame frame) (more : List α) :
    format.next? (frame ++ more) = some frame := by
  apply next?_append
  rw [next?_eq_some_iff, framed.2]
  exact ⟨framed.1, Nat.le_refl _, List.take_length⟩

/-- Of a stream that starts with a frame, the bytes at hand give that frame or nothing. -/
theorem IsFrame.next?_of_prefix {frame more bytes rest : List α} (framed : format.IsFrame frame)
    (cut : bytes ++ rest = frame ++ more) :
    format.next? bytes = if frame.length ≤ bytes.length then some frame else none := by
  have front : bytes = (frame ++ more).take bytes.length := by rw [← cut, List.take_left]
  split_ifs with complete
  · rw [front, List.take_append, List.take_of_length_le complete]
    exact framed.next? _
  · rw [List.take_append_of_le_length (by omega)] at front
    apply if_neg
    rintro ⟨long, declared⟩
    have same : format.declared bytes = frame.length := by
      rw [← declared_append long (frame.drop bytes.length), front, List.length_take,
        Nat.min_eq_left (by omega), List.take_append_drop, framed.2]
    omega

variable (format) in
/-- The bytes left when the frame at the front, if it is complete, is taken. -/
def rest (bytes : List α) : List α := bytes.drop ((format.next? bytes).elim 0 List.length)

theorem rest_of_none {bytes : List α} (waiting : format.next? bytes = none) : format.rest bytes = bytes := by
  rw [rest, waiting, Option.elim_none, List.drop_zero]

theorem rest_of_some {bytes frame : List α} (found : format.next? bytes = some frame) :
    format.rest bytes = bytes.drop frame.length := by
  rw [rest, found, Option.elim_some]

/-- If no frame met on the way is empty, taking frames ends where none is complete. -/
theorem exists_rest_waiting (bytes : List α)
    (nonempty : ∀ taken frame, format.next? (format.rest^[taken] bytes) = some frame → 0 < frame.length) :
    ∃ taken, format.next? (format.rest^[taken] bytes) = none := by
  generalize size : bytes.length = length
  induction length using Nat.strongRecOn generalizing bytes with
  | _ length ih =>
    cases found : format.next? bytes with
    | none => exact ⟨0, found⟩
    | some frame =>
      have positive := nonempty 0 frame found
      have bound := (length_of_next? found).2
      have shorter : (format.rest bytes).length < length := by
        rw [rest_of_some found, List.length_drop]
        omega
      obtain ⟨taken, waiting⟩ := ih _ shorter (format.rest bytes)
        (fun taken frame => nonempty (taken + 1) frame) rfl
      exact ⟨taken + 1, waiting⟩

/-- The frames taken one after the other from the front of a stream, each with what `tag` reads off
the bytes it starts. -/
def Parses (format : Framing α) {τ : Type*} (tag : List α → τ) : List (τ × List α) → List α → Prop
  | [], _ => True
  | (label, frame) :: rest, bytes =>
      tag bytes = label ∧ format.next? bytes = some frame ∧ Parses format tag rest (bytes.drop frame.length)

/-- Later bytes leave all frames taken so far as they are. -/
theorem Parses.append {τ : Type*} {tag : List α → τ}
    (stable : ∀ bytes more, format.header ≤ bytes.length → tag (bytes ++ more) = tag bytes)
    {packets : List (τ × List α)} {bytes : List α} (parsed : format.Parses tag packets bytes)
    (more : List α) : format.Parses tag packets (bytes ++ more) := by
  induction packets generalizing bytes with
  | nil => trivial
  | cons packet rest ih =>
    obtain ⟨label, first, later⟩ := parsed
    have long := (next?_eq_some_iff.mp first).1
    refine ⟨(stable bytes more long).trans label, next?_append first more, ?_⟩
    rw [List.drop_append_of_le_length (length_of_next? first).2]
    exact ih later

/-- Taking one more frame where the frames so far ended. -/
theorem Parses.snoc {τ : Type*} {tag : List α → τ} {packets : List (τ × List α)}
    {bytes rest frame : List α} (parsed : format.Parses tag packets bytes)
    (consumed : bytes = (packets.map Prod.snd).flatten ++ rest) (found : format.next? rest = some frame) :
    format.Parses tag (packets ++ [(tag rest, frame)]) bytes := by
  induction packets generalizing bytes with
  | nil =>
    rw [consumed]
    exact ⟨rfl, found, trivial⟩
  | cons packet tail ih =>
    obtain ⟨label, first, later⟩ := parsed
    refine ⟨label, first, ih later ?_⟩
    rw [consumed, List.map_cons, List.flatten_cons, List.append_assoc, List.drop_left]

/-- How many frames of a sequence lie wholly in the first `available` cells. -/
def completed : List (List α) → ℕ → ℕ
  | [], _ => 0
  | frame :: frames, available =>
      if frame.length ≤ available then completed frames (available - frame.length) + 1 else 0

theorem completed_cons_of_le {frame : List α} {available : ℕ} (frames : List (List α))
    (complete : frame.length ≤ available) :
    completed (frame :: frames) available = completed frames (available - frame.length) + 1 :=
  if_pos complete

theorem completed_cons_of_lt {frame : List α} {available : ℕ} (frames : List (List α))
    (short : available < frame.length) : completed (frame :: frames) available = 0 :=
  if_neg (by omega)

end Framing

end CppRedis.Machine
