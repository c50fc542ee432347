import Mathlib.Data.List.Basic

/-! # Servers that answer in order

A server answers each request by what it is and by the requests before it. More requests leave the earlier answers as
they are.
-/

namespace CppRedis.Machine

variable {α β : Type*}

/-- The answers to requests that come behind others. -/
def answersBehind (serve : List α → α → β) : List α → List α → List β
  | _, [] => []
  | history, request :: rest => serve history request :: answersBehind serve (history ++ [request]) rest

/-- The answers to requests, one after the other. -/
def answers (serve : List α → α → β) (requests : List α) : List β := answersBehind serve [] requests

theorem answersBehind_append (serve : List α → α → β) (history requests more : List α) :
    answersBehind serve history (requests ++ more) =
      answersBehind serve history requests ++ answersBehind serve (history ++ requests) more := by
  induction requests generalizing history with
  | nil => rw [List.nil_append, List.append_nil, answersBehind, List.nil_append]
  | cons request rest ih =>
    rw [List.cons_append, answersBehind, answersBehind, ih, List.append_assoc]
    rfl

theorem answers_append (serve : List α → α → β) (requests more : List α) :
    answers serve (requests ++ more) = answers serve requests ++ answersBehind serve requests more :=
  answersBehind_append serve [] requests more

theorem answers_concat (serve : List α → α → β) (requests : List α) (request : α) :
    answers serve (requests ++ [request]) = answers serve requests ++ [serve requests request] :=
  answers_append serve requests [request]

theorem answers_mono (serve : List α → α → β) {requests all : List α} (front : requests <+: all) :
    answers serve requests <+: answers serve all := by
  obtain ⟨more, rfl⟩ := front
  exact ⟨_, (answers_append serve requests more).symm⟩

@[simp]
theorem length_answers (serve : List α → α → β) (requests : List α) :
    (answers serve requests).length = requests.length := by
  have general : ∀ history, (answersBehind serve history requests).length = requests.length := by
    induction requests with
    | nil => exact fun _ => rfl
    | cons request rest ih => exact fun history => congrArg (· + 1) (ih (history ++ [request]))
  exact general []

theorem forall_answers {serve : List α → α → β} {holds : β → Prop}
    (each : ∀ history request, holds (serve history request))
    (requests : List α) : ∀ answer ∈ answers serve requests, holds answer := by
  have general : ∀ history, ∀ answer ∈ answersBehind serve history requests, holds answer := by
    induction requests with
    | nil => exact fun _ _ none => absurd none List.not_mem_nil
    | cons request rest ih =>
      intro history answer member
      rcases List.mem_cons.mp member with rfl | later
      · exact each history request
      · exact ih _ answer later
  exact general []

end CppRedis.Machine
