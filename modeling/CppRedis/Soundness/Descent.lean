import CppRedis.Machine.Incremental
import CppRedis.Model.Hiredis.Protocol

/-! # A task stack for recursive descent

The reader keeps a stack of tasks where the grammar recurs. Here the stack runs over a stream by itself, without
buffers: a step takes a type byte or one piece. From a fresh task the steps do what the grammar says of the
value at the front, at every depth, so the whole stream leaves the stack where its replies and its error are those
of the grammar.
-/

namespace CppRedis.Soundness.Descent

open Machine Model.Hiredis
open Model.RedisCpp (ReplyType)

variable {δ : Type}

/-- Why a reader stops for good. -/
inductive Halt where
  | error (error : Error)
  /-- A failed assertion, or a store outside of an object. -/
  | abort
deriving DecidableEq

/-- A stack of tasks with the reply under construction, and the replies before it. -/
structure Core (δ : Type) where
  stack : List ReadTask := [rootTask]
  reply : Option (RedisReply δ) := none
  halt : Option Halt := none
  emitted : List (RedisReply δ) := []

namespace Core

variable (core : Core δ)

def stop (halt : Halt) : Core δ := { stack := [], halt := some halt, emitted := core.emitted }

/-- The stack after an object; the root task gives its reply out and starts anew. -/
def proceed (reply : Option (RedisReply δ)) : Option (List ReadTask) → Core δ
  | none => core.stop .abort
  | some [] => { emitted := core.emitted ++ reply.toList }
  | some (cur :: below) => { core with stack := cur :: below, reply := reply }

/-- The current task takes a piece. -/
def put (cur : ReadTask) (below : List ReadTask) (piece : Piece δ) : Core δ :=
  if (RedisReply.slot? (path (cur :: below)) core.reply).isSome then
    match piece with
    | .object obj =>
        core.proceed (RedisReply.store obj (path (cur :: below)) core.reply) (moveToNextTask (cur :: below))
    | .head type size =>
        { core with
          stack := { idx := 0 } :: { cur with elements := size } :: below
          reply := RedisReply.store (.createArray type size) (path (cur :: below)) core.reply }
  else core.stop .abort

end Core

variable (doubles : Doubles δ) (calloc : ℕ → Bool)

/-- The types that the reader meets. -/
def isRead : ReplyType → Bool
  | .attr | .push | .bignum => false
  | _ => true

/-- One step over a stream. -/
def advance (config : Core δ × CppString) : Option (Core δ × CppString) :=
  match config.1.halt, config.1.stack with
  | some _, _ => none
  | none, [] => none
  | none, cur :: below =>
      match cur.type, config.2 with
      | none, [] => none
      | none, byte :: rest =>
          match replyTypeOf byte with
          | none => some (config.1.stop (.error (protocolByte byte)), byte :: rest)
          | some type => some ({ config.1 with stack := { cur with type := some type } :: below }, rest)
      | some type, input =>
          if isRead type then
            match piece doubles calloc (below.length = 8) type input with
            | .more => none
            | .bad error => some (config.1.stop (.error error), input)
            | .done piece rest => some (config.1.put cur below piece, rest)
          else some (config.1.stop .abort, input)

theorem newline?_append {input : CppString} {len : ℕ} (found : newline? input = some len) (more : CppString) :
    newline? (input ++ more) = some len ∧ len + 2 ≤ input.length := by
  fun_induction newline? input generalizing len with
  | case1 => cases found
  | case2 => cases found
  | case3 first second rest crlf =>
    cases found
    rw [List.cons_append, List.cons_append, newline?, if_pos crlf]
    exact ⟨rfl, by simp only [List.length_cons]; omega⟩
  | case4 first second rest other ih =>
    obtain ⟨position, later, rfl⟩ := Option.map_eq_some_iff.mp found
    obtain ⟨same, bound⟩ := ih later
    rw [List.cons_append, List.cons_append, newline?, if_neg other, ← List.cons_append, same]
    exact ⟨rfl, by simp only [List.length_cons] at bound ⊢; omega⟩

theorem line_stable : Parsed.Stable line := by
  intro input more goes
  simp only [line] at goes ⊢
  cases found : newline? input with
  | none => rw [found] at goes; exact absurd rfl goes
  | some len =>
    obtain ⟨same, bound⟩ := newline?_append found more
    rw [same]
    simp only [Parsed.behind, Parsed.done.injEq]
    exact ⟨List.take_append_of_le_length (by omega), List.drop_append_of_le_length bound⟩

theorem line_shrinks : Parsed.Shrinks 2 line := by
  intro input rest p found
  simp only [line] at found
  cases newline : newline? input with
  | none => rw [newline] at found; cases found
  | some len =>
    rw [newline] at found
    cases found
    have bound := (newline?_append newline []).2
    rw [List.length_drop]
    omega

theorem ite_shrinks {α : Type} {condition : Prop} [Decidable condition] {least : ℕ} {yes no : CppString → Reading α}
    (whenYes : Parsed.Shrinks least yes) (whenNo : Parsed.Shrinks least no) :
    Parsed.Shrinks least fun rest => if condition then yes rest else no rest := by
  split
  · exact whenYes
  · exact whenNo

theorem ite_stable {α : Type} {condition : Prop} [Decidable condition] {yes no : CppString → Reading α}
    (whenYes : Parsed.Stable yes) (whenNo : Parsed.Stable no) :
    Parsed.Stable fun rest => if condition then yes rest else no rest := by
  split
  · exact whenYes
  · exact whenNo

theorem bulkBody_stable (len : ℕ) :
    Parsed.Stable fun rest : CppString =>
      if len + 2 ≤ rest.length then
        (.done (.object (.createString .string (rest.take len))) (rest.drop (len + 2)) : Reading (Piece δ))
      else .more := by
  intro rest more goes
  dsimp only at goes ⊢
  by_cases whole : len + 2 ≤ rest.length
  · rw [if_pos whole, if_pos (by rw [List.length_append]; omega), List.take_append_of_le_length (by omega),
      List.drop_append_of_le_length whole]
    rfl
  · exact absurd (if_neg whole) goes

theorem bulk_stable : Parsed.Stable (bulk : CppString → Reading (Piece δ)) := by
  refine line_stable.bind fun p => ?_
  cases string2ll p with
  | none => exact .error _
  | some len => exact ite_stable (.error _) (ite_stable (.pure _) (bulkBody_stable _))

theorem bulk_shrinks : Parsed.Shrinks 2 (bulk : CppString → Reading (Piece δ)) := by
  refine line_shrinks.bind fun p => ?_
  cases string2ll p with
  | none => exact .error 0 _
  | some len =>
    refine ite_shrinks (.error 0 _) (ite_shrinks (.pure _) ?_)
    intro input rest piece found
    dsimp only at found
    split_ifs at found
    cases found
    rw [List.length_drop]
    exact Nat.sub_le _ _

theorem aggregateHead_shrinks (type : ReplyType) :
    Parsed.Shrinks 2 (aggregateHead calloc type : CppString → Reading (Piece δ)) := by
  refine line_shrinks.bind fun p => ?_
  cases string2ll p with
  | none => exact .error 0 _
  | some elements =>
    exact ite_shrinks (.error 0 _) (ite_shrinks (.pure _) (ite_shrinks (.pure _) (ite_shrinks (.pure _) (.error 0 _))))

theorem aggregateHead_stable (type : ReplyType) :
    Parsed.Stable (aggregateHead calloc type : CppString → Reading (Piece δ)) := by
  refine line_stable.bind fun p => ?_
  cases string2ll p with
  | none => exact .error _
  | some elements =>
    exact ite_stable (.error _) (ite_stable (.pure _) (ite_stable (.pure _) (ite_stable (.pure _) (.error _))))

theorem piece_stable (deep : Bool) (type : ReplyType) : Parsed.Stable (piece doubles calloc deep type) := by
  have lines : Parsed.Stable fun input => (line input).bind fun p rest =>
      (Parsed.ofExcept ((lineObject doubles type p).map Piece.object) rest : Reading (Piece δ)) :=
    line_stable.bind fun p => .ofExcept _
  cases type with
  | error => exact lines
  | status => exact lines
  | integer => exact lines
  | double => exact lines
  | nil => exact lines
  | bool => exact lines
  | string => exact bulk_stable
  | array => exact ite_stable (.error _) (aggregateHead_stable calloc _)
  | map => exact ite_stable (.error _) (aggregateHead_stable calloc _)
  | set => exact ite_stable (.error _) (aggregateHead_stable calloc _)
  | attr => exact .wait
  | push => exact .wait
  | bignum => exact .wait

theorem piece_shrinks (deep : Bool) (type : ReplyType) : Parsed.Shrinks 2 (piece doubles calloc deep type) := by
  have lines : Parsed.Shrinks 2 fun input => (line input).bind fun p rest =>
      (Parsed.ofExcept ((lineObject doubles type p).map Piece.object) rest : Reading (Piece δ)) :=
    line_shrinks.bind fun p => .ofExcept _
  cases type with
  | error => exact lines
  | status => exact lines
  | integer => exact lines
  | double => exact lines
  | nil => exact lines
  | bool => exact lines
  | string => exact bulk_shrinks
  | array => exact ite_shrinks (.error 2 _) (aggregateHead_shrinks calloc _)
  | map => exact ite_shrinks (.error 2 _) (aggregateHead_shrinks calloc _)
  | set => exact ite_shrinks (.error 2 _) (aggregateHead_shrinks calloc _)
  | attr => exact .wait 2
  | push => exact .wait 2
  | bignum => exact .wait 2

/-- A value takes its type byte at least. -/
theorem valueWith_length {nested : Option (CppString → Reading (RedisReply δ))}
    (elements : ∀ one, nested = some one → Parsed.Shrinks 0 one) {input rest : CppString} {obj : RedisReply δ}
    (found : valueWith doubles calloc nested input = .done obj rest) : rest.length < input.length := by
  cases input with
  | nil => cases found
  | cons byte behind =>
    rw [valueWith] at found
    cases announced : replyTypeOf byte with
    | none => rw [announced] at found; cases found
    | some type =>
      rw [announced] at found
      obtain ⟨piece, between, read, found⟩ := Parsed.bind_eq_done_iff.mp found
      have first := piece_shrinks doubles calloc _ type behind between piece read
      have later : rest.length ≤ between.length := by
        cases piece with
        | object obj => cases found; exact le_refl _
        | head kind size =>
          cases nested with
          | none => cases found
          | some one => exact (Parsed.Shrinks.many (elements one rfl) size).map _ _ _ _ found
      rw [List.length_cons]
      omega

theorem value_length {levels : ℕ} {input rest : CppString} {obj : RedisReply δ}
    (found : value doubles calloc levels input = .done obj rest) : rest.length < input.length := by
  induction levels generalizing input rest obj with
  | zero => exact valueWith_length doubles calloc (by rintro one ⟨⟩) found
  | succ levels ih =>
    refine valueWith_length doubles calloc ?_ found
    rintro one ⟨⟩ input rest obj found
    exact (ih found).le

/-- The stack over a stream, as a reader. -/
def stackReader : Incremental (Core δ) UInt8 where
  advance := advance doubles calloc
  stable := by
    intro source target input rest step more
    rcases source with ⟨_ | ⟨⟨type, elements, idx⟩, below⟩, reply, _ | halt, emitted⟩
    · cases step
    · cases step
    · cases type with
      | none =>
        cases input with
        | nil => cases step
        | cons byte behind =>
          simp only [advance, List.cons_append] at step ⊢
          cases announced : replyTypeOf byte with
          | none => rw [announced] at step; cases step; rfl
          | some type => rw [announced] at step; cases step; rfl
      | some type =>
        simp only [advance] at step ⊢
        split_ifs at step ⊢
        · cases read : piece doubles calloc (below.length = 8) type input with
          | more => rw [read] at step; cases step
          | bad error =>
            rw [read] at step
            cases step
            rw [(piece_stable doubles calloc _ type).bad read]
          | done piece behind =>
            rw [read] at step
            cases step
            rw [(piece_stable doubles calloc _ type).done read]
        · cases step
          rfl
    · cases step

theorem put_emitted (core : Core δ) (cur : ReadTask) (below : List ReadTask) (piece : Piece δ) :
    core.emitted <+: (core.put cur below piece).emitted := by
  rw [Core.put.eq_def]
  split
  · split
    · rcases moveToNextTask (cur :: below) with _ | _ | _
      · exact List.prefix_refl _
      · exact List.prefix_append _ _
      · exact List.prefix_refl _
    · exact List.prefix_refl _
  · exact List.prefix_refl _

theorem step_emitted {source target : Core δ × CppString} (step : (stackReader doubles calloc).Step source target) :
    source.1.emitted <+: target.1.emitted := by
  obtain ⟨⟨_ | ⟨⟨type, elements, idx⟩, below⟩, reply, _ | halt, emitted⟩, input⟩ := source
  · cases step
  · cases step
  · cases type with
    | none =>
      cases input with
      | nil => cases step
      | cons byte behind =>
        simp only [Incremental.Step, stackReader, advance] at step
        cases announced : replyTypeOf byte with
        | none => rw [announced] at step; cases step; exact List.prefix_refl _
        | some type => rw [announced] at step; cases step; exact List.prefix_refl _
    | some type =>
      simp only [Incremental.Step, stackReader, advance] at step
      split_ifs at step
      · cases read : piece doubles calloc (below.length = 8) type input with
        | more => rw [read] at step; cases step
        | bad error => rw [read] at step; cases step; exact List.prefix_refl _
        | done piece behind => rw [read] at step; cases step; exact put_emitted _ _ _ _
      · cases step
        exact List.prefix_refl _
  · cases step

/-- A reply that was given out is not taken back. -/
theorem reaches_emitted {source target : Core δ × CppString}
    (reaches : (stackReader doubles calloc).Reaches source target) :
    source.1.emitted <+: target.1.emitted := by
  induction reaches with
  | refl => exact List.prefix_refl _
  | tail _ step ih => exact ih.trans (step_emitted doubles calloc step)

/-- An object with one of its elements replaced. -/
def setElement : RedisReply δ → ℕ → Option (RedisReply δ) → RedisReply δ
  | .mk type integer dval str element, idx, child => .mk type integer dval str (element.set idx child)

theorem slot?_append (first second : List ℕ) (slot : Option (RedisReply δ)) :
    RedisReply.slot? (first ++ second) slot = (RedisReply.slot? first slot).bind (RedisReply.slot? second) := by
  induction first generalizing slot with
  | nil => rfl
  | cons idx first ih =>
    cases slot with
    | none => rfl
    | some reply =>
      obtain ⟨type, integer, dval, str, element⟩ := reply
      simp only [List.cons_append, RedisReply.slot?]
      split
      · cases element[idx]? with
        | none => rfl
        | some child => exact ih child
      · rfl

theorem slot?_store (obj : RedisReply δ) {indices : List ℕ} {slot : Option (RedisReply δ)}
    (inside : (RedisReply.slot? indices slot).isSome) :
    RedisReply.slot? indices (RedisReply.store obj indices slot) = some (some obj) := by
  induction indices generalizing slot with
  | nil => rfl
  | cons idx indices ih =>
    cases slot with
    | none => cases inside
    | some reply =>
      obtain ⟨type, integer, dval, str, element⟩ := reply
      simp only [RedisReply.slot?, RedisReply.store] at inside ⊢
      split at inside
      · rename_i aggregate
        rw [if_pos aggregate]
        cases present : element[idx]? with
        | none => rw [present] at inside; cases inside
        | some child =>
          rw [present, Option.bind_some] at inside
          rw [List.getElem?_set_self (List.getElem?_eq_some_iff.mp present).1, Option.bind_some, Option.getD_some]
          exact ih inside
      · cases inside

theorem store_some (obj : RedisReply δ) {indices : List ℕ} {slot : Option (RedisReply δ)}
    (inside : (RedisReply.slot? indices slot).isSome) : ∃ root, RedisReply.store obj indices slot = some root := by
  cases indices with
  | nil => exact ⟨obj, rfl⟩
  | cons idx indices =>
    cases slot with
    | none => cases inside
    | some reply =>
      obtain ⟨type, integer, dval, str, element⟩ := reply
      exact ⟨_, rfl⟩

/-- A child goes into the object that was stored for its parent. -/
theorem store_child (parent child : RedisReply δ) (indices : List ℕ) (idx : ℕ) (slot : Option (RedisReply δ)) :
    RedisReply.store child (indices ++ [idx]) (RedisReply.store parent indices slot) =
      RedisReply.store (setElement parent idx (some child)) indices slot := by
  induction indices generalizing slot with
  | nil =>
    obtain ⟨type, integer, dval, str, element⟩ := parent
    rfl
  | cons first indices ih =>
    cases slot with
    | none => rfl
    | some reply =>
      obtain ⟨type, integer, dval, str, element⟩ := reply
      simp only [List.cons_append, RedisReply.store, List.set_set, Option.some.injEq, RedisReply.mk.injEq, true_and]
      by_cases inside : first < element.length
      · rw [List.getElem?_set_self inside, Option.getD_some, ih]
      · rw [List.set_eq_of_length_le (Nat.le_of_not_lt inside), List.set_eq_of_length_le (Nat.le_of_not_lt inside)]

/-- An aggregate of which the first elements are there. -/
def filled (type : ReplyType) (size : ℕ) (objs : List (RedisReply δ)) : RedisReply δ :=
  .mk type 0 none none (objs.map some ++ List.replicate (size - objs.length) none)

theorem filled_nil (type : ReplyType) (size : ℕ) : filled type size ([] : List (RedisReply δ)) =
    .createArray type size := rfl

theorem filled_all (type : ReplyType) (objs : List (RedisReply δ)) :
    filled type objs.length objs = .mk type 0 none none (objs.map some) := by
  rw [filled, Nat.sub_self, List.replicate_zero, List.append_nil]

theorem filled_next {type : ReplyType} {size : ℕ} {objs : List (RedisReply δ)} (space : objs.length < size)
    (obj : RedisReply δ) :
    setElement (filled type size objs) objs.length (some obj) = filled type size (objs ++ [obj]) := by
  obtain ⟨left, rfl⟩ := Nat.exists_eq_add_of_lt space
  have remaining : objs.length + left + 1 - objs.length = left + 1 := by omega
  have after : objs.length + left + 1 - (objs ++ [obj]).length = left := by
    rw [List.length_append, List.length_singleton]
    omega
  simp only [filled, setElement, remaining, after, List.replicate_succ, RedisReply.mk.injEq, true_and]
  rw [List.set_append_right _ _ (by rw [List.length_map]), List.length_map, Nat.sub_self, List.set_cons_zero,
    List.map_append, List.append_assoc, List.map_singleton, List.singleton_append]

theorem slot?_filled {type : ReplyType} {size : ℕ} {objs : List (RedisReply δ)} (space : objs.length < size)
    (aggregate : RedisReply.isAggregate type = true) :
    (RedisReply.slot? [objs.length] (some (filled type size objs))).isSome := by
  have inside : objs.length < (objs.map some ++ List.replicate (size - objs.length) none).length := by
    rw [List.length_append, List.length_map, List.length_replicate]
    omega
  simp only [filled, RedisReply.slot?, if_pos aggregate, List.getElem?_eq_getElem inside, Option.bind_some,
    Option.isSome_some]

/-- The steps from a state over an input come to what the input parses to. -/
def Comes (source : Core δ) (input : CppString) {α : Type} (parsed : Reading α) (target : α → Core δ) : Prop :=
  match parsed with
  | .done value rest => (stackReader doubles calloc).Reaches (source, input) (target value, rest)
  | .more =>
      ∃ waiting, (stackReader doubles calloc).Settles (source, input) waiting ∧ waiting.1.halt = none ∧
        waiting.1.emitted = source.emitted
  | .bad error => ∃ rest, (stackReader doubles calloc).Reaches (source, input) (source.stop (.error error), rest)

variable {doubles calloc}

theorem Comes.head {source middle : Core δ} {input between : CppString} {α : Type} {parsed : Reading α}
    {target : α → Core δ} (steps : (stackReader doubles calloc).Reaches (source, input) (middle, between))
    (same : middle.emitted = source.emitted) (comes : Comes doubles calloc middle between parsed target) :
    Comes doubles calloc source input parsed target := by
  have stops : ∀ halt, middle.stop halt = source.stop halt := fun halt => by rw [Core.stop, Core.stop, same]
  cases parsed with
  | done value rest => exact steps.trans comes
  | more =>
    obtain ⟨waiting, settles, running, kept⟩ := comes
    exact ⟨waiting, settles.of_step steps, running, kept.trans same⟩
  | bad error =>
    obtain ⟨rest, reaches⟩ := comes
    exact ⟨rest, by rw [← stops]; exact steps.trans reaches⟩

theorem Comes.bind {source : Core δ} {input : CppString} {α β : Type} {first : Reading α} {middle : α → Core δ}
    {next : α → CppString → Reading β} {target : β → Core δ} (comes : Comes doubles calloc source input first middle)
    (same : ∀ value, (middle value).emitted = source.emitted)
    (later : ∀ value rest, first = .done value rest →
      Comes doubles calloc (middle value) rest (next value rest) target) :
    Comes doubles calloc source input (first.bind next) target := by
  cases first with
  | done value rest => exact .head comes (same value) (later value rest rfl)
  | more => exact comes
  | bad error => exact comes

theorem Comes.map {source : Core δ} {input : CppString} {α β : Type} {parsed : Reading α} {change : α → β}
    {target : β → Core δ} (comes : Comes doubles calloc source input parsed fun value => target (change value)) :
    Comes doubles calloc source input (parsed.map change) target := by
  cases parsed with
  | done value rest => exact comes
  | more => exact comes
  | bad error => exact comes

theorem Comes.congr {source : Core δ} {input : CppString} {α : Type} {parsed : Reading α} {target other : α → Core δ}
    (comes : Comes doubles calloc source input parsed target)
    (same : ∀ value rest, parsed = .done value rest → target value = other value) :
    Comes doubles calloc source input parsed other := by
  cases parsed with
  | done value rest =>
    rw [Comes, ← same value rest rfl]
    exact comes
  | more => exact comes
  | bad error => exact comes

theorem isRead_of_announced {byte : UInt8} {type : ReplyType} (announced : replyTypeOf byte = some type) :
    isRead type = true := by
  rw [replyTypeOf] at announced
  split_ifs at announced <;> cases announced <;> rfl

variable (doubles calloc) in
/-- A fresh task takes a type byte, then a piece. -/
theorem comes_piece (elements idx : ℤ) (below : List ReadTask) (reply : Option (RedisReply δ))
    (emitted : List (RedisReply δ)) (rest : CppString) {byte : UInt8} {type : ReplyType}
    (announced : replyTypeOf byte = some type) :
    Comes doubles calloc ⟨⟨none, elements, idx⟩ :: below, reply, none, emitted⟩ (byte :: rest)
      (piece doubles calloc (below.length = 8) type rest) fun piece =>
        (⟨⟨some type, elements, idx⟩ :: below, reply, none, emitted⟩ : Core δ).put ⟨some type, elements, idx⟩ below
          piece := by
  have start : (stackReader doubles calloc).Step (⟨⟨none, elements, idx⟩ :: below, reply, none, emitted⟩, byte :: rest)
      (⟨⟨some type, elements, idx⟩ :: below, reply, none, emitted⟩, rest) := by
    simp only [Incremental.Step, stackReader, advance, announced]
  have met := isRead_of_announced announced
  refine .head (.single start) rfl ?_
  cases read : piece doubles calloc (below.length = 8) type rest with
  | done piece behind =>
    refine .single ?_
    simp only [Incremental.Step, stackReader, advance, if_pos met, read]
  | more =>
    refine ⟨_, ⟨.refl _, ?_⟩, rfl, rfl⟩
    simp only [stackReader, advance, if_pos met, read]
  | bad error =>
    refine ⟨rest, .single ?_⟩
    simp only [Incremental.Step, stackReader, advance, if_pos met, read]

/-- What the head of an aggregate promises. -/
theorem piece_head {deep : Bool} {announced type : ReplyType} {input rest : CppString} {size : ℕ}
    (read : piece doubles calloc deep announced input = .done (.head type size) rest) :
    deep = false ∧ type = announced ∧ RedisReply.isAggregate type = true ∧ 0 < size ∧ calloc size = true := by
  have heads : ∀ kind, (aggregateHead calloc kind input : Reading (Piece δ)) = .done (.head type size) rest →
      type = kind ∧ 0 < size ∧ calloc size = true := by
    intro kind found
    obtain ⟨p, behind, -, found⟩ := Parsed.bind_eq_done_iff.mp found
    cases number : string2ll p with
    | none => rw [number] at found; cases found
    | some elements =>
      rw [number] at found
      dsimp only at found
      split_ifs at found with _ _ empty granted <;> cases found
      exact ⟨rfl, Nat.pos_of_ne_zero empty, granted⟩
  have lines : ∀ kind, ((line input).bind fun p rest =>
      (Parsed.ofExcept ((lineObject doubles kind p).map Piece.object) rest : Reading (Piece δ))) ≠
        .done (.head type size) rest := by
    intro kind found
    obtain ⟨p, behind, -, found⟩ := Parsed.bind_eq_done_iff.mp found
    cases object : lineObject doubles kind p with
    | error error => rw [object] at found; cases found
    | ok obj => rw [object] at found; cases found
  cases announced with
  | error => exact absurd read (lines _)
  | status => exact absurd read (lines _)
  | integer => exact absurd read (lines _)
  | double => exact absurd read (lines _)
  | nil => exact absurd read (lines _)
  | bool => exact absurd read (lines _)
  | string =>
    obtain ⟨p, behind, -, found⟩ := Parsed.bind_eq_done_iff.mp read
    cases number : string2ll p with
    | none => rw [number] at found; cases found
    | some len =>
      rw [number] at found
      dsimp only at found
      split_ifs at found <;> cases found
  | array =>
    rw [piece] at read
    split_ifs at read with nested
    · obtain ⟨rfl, positive, granted⟩ := heads _ read
      exact ⟨Bool.eq_false_iff.mpr nested, rfl, rfl, positive, granted⟩
  | map =>
    rw [piece] at read
    split_ifs at read with nested
    · obtain ⟨rfl, positive, granted⟩ := heads _ read
      exact ⟨Bool.eq_false_iff.mpr nested, rfl, rfl, positive, granted⟩
  | set =>
    rw [piece] at read
    split_ifs at read with nested
    · obtain ⟨rfl, positive, granted⟩ := heads _ read
      exact ⟨Bool.eq_false_iff.mpr nested, rfl, rfl, positive, granted⟩
  | attr => cases read
  | push => cases read
  | bignum => cases read

/-- Only the index of the current task counts for where its object goes. -/
theorem path_cons (task : ReadTask) (below : List ReadTask) :
    path (task :: below) = path ({ idx := task.idx } :: below) := by
  cases below with
  | nil => rfl
  | cons => rfl

/-- Only the index of the current task counts for what comes after it. -/
theorem moveToNextTask_cons (task : ReadTask) (below : List ReadTask) :
    moveToNextTask (task :: below) = moveToNextTask ({ idx := task.idx } :: below) := by
  cases below with
  | nil => rfl
  | cons => rfl

theorem many_one {α : Type} (one : CppString → Reading α) (input : CppString) :
    Parsed.many one 1 input = (one input).map fun value => [value] := by
  cases read : one input <;> simp only [Parsed.many_succ, read, Parsed.many_zero, Parsed.done_bind, Parsed.done_map,
    Parsed.more_bind, Parsed.bad_bind, Parsed.more_map, Parsed.bad_map]

/-- What a value at the front of an input does to the stack. -/
def Descends (doubles : Doubles δ) (calloc : ℕ → Bool) (one : CppString → Reading (RedisReply δ)) (depth : ℕ) : Prop :=
  ∀ (source : Core δ) (idx : ℤ) (below : List ReadTask) (input : CppString), source.halt = none →
    source.stack = { idx := idx } :: below → below.length = depth →
    (RedisReply.slot? (path ({ idx := idx } :: below)) source.reply).isSome →
    (moveToNextTask ({ idx := idx } :: below)).isSome →
    Comes doubles calloc source input (one input) fun obj =>
      source.proceed (RedisReply.store obj (path ({ idx := idx } :: below)) source.reply)
        (moveToNextTask ({ idx := idx } :: below))

/-- Where nothing else differs, the same comes next. -/
theorem proceed_congr {first second : Core δ} (halt : first.halt = second.halt)
    (emitted : first.emitted = second.emitted)
    (reply : Option (RedisReply δ)) (next : Option (List ReadTask)) :
    first.proceed reply next = second.proceed reply next := by
  obtain ⟨stack, old, halt', emitted'⟩ := first
  dsimp only at halt emitted
  subst halt emitted
  rcases next with _ | _ | _ <;> rfl

theorem put_object {core : Core δ} {task : ReadTask} {below : List ReadTask}
    (inside : (RedisReply.slot? (path ({ idx := task.idx } :: below)) core.reply).isSome) (obj : RedisReply δ) :
    core.put task below (.object obj) =
      core.proceed (RedisReply.store obj (path ({ idx := task.idx } :: below)) core.reply)
        (moveToNextTask ({ idx := task.idx } :: below)) := by
  rw [Core.put, path_cons task, moveToNextTask_cons task, if_pos inside]

theorem put_head {core : Core δ} {task : ReadTask} {below : List ReadTask}
    (inside : (RedisReply.slot? (path ({ idx := task.idx } :: below)) core.reply).isSome)
    (type : ReplyType) (size : ℕ) :
    core.put task below (.head type size) =
      { core with
        stack := { idx := 0 } :: { task with elements := size } :: below
        reply := RedisReply.store (filled type size []) (path ({ idx := task.idx } :: below)) core.reply } := by
  rw [Core.put, path_cons task, if_pos inside, filled_nil]

theorem path_child (idx : ℕ) (parent : ReadTask) (below : List ReadTask) :
    path ({ idx := idx } :: parent :: below) = path (parent :: below) ++ [idx] := by
  rw [path, Int.toNat_natCast]

/-- The element that a stack is at goes into its aggregate. -/
theorem Descends.element {one : CppString → Reading (RedisReply δ)} {below : List ReadTask}
    (descends : Descends doubles calloc one (below.length + 1)) {type : ReplyType}
    (aggregate : RedisReply.isAggregate type = true) {parent : ReadTask} {size : ℕ}
    {indices : List ℕ} (leads : path (parent :: below) = indices) {reply : Option (RedisReply δ)}
    (inside : (RedisReply.slot? indices reply).isSome) (emitted : List (RedisReply δ))
    {objs : List (RedisReply δ)} (space : objs.length < size)
    (next : (moveToNextTask ({ idx := objs.length } :: parent :: below)).isSome) (input : CppString) :
    Comes doubles calloc
      ⟨{ idx := objs.length } :: parent :: below, RedisReply.store (filled type size objs) indices reply, none, emitted⟩
      input (one input) fun obj =>
        (⟨[], none, none, emitted⟩ : Core δ).proceed (RedisReply.store (filled type size (objs ++ [obj])) indices reply)
          (moveToNextTask ({ idx := objs.length } :: parent :: below)) := by
  have child : path ({ idx := objs.length } :: parent :: below) = indices ++ [objs.length] := by
    rw [path_child, leads]
  have stored : ∀ obj, RedisReply.store obj (indices ++ [objs.length])
    (RedisReply.store (filled type size objs) indices reply) =
      RedisReply.store (filled type size (objs ++ [obj])) indices reply := by
    intro obj
    rw [store_child, filled_next space]
  have comes := descends
    ⟨{ idx := objs.length } :: parent :: below, RedisReply.store (filled type size objs) indices reply, none, emitted⟩
    objs.length (parent :: below) input rfl rfl rfl
    (by rw [child, slot?_append, slot?_store _ inside]; exact slot?_filled space aggregate) next
  simp only [child, stored] at comes
  exact comes

/-- The elements of an aggregate, from one of them to the last. -/
theorem Descends.many {one : CppString → Reading (RedisReply δ)} {below : List ReadTask}
    (descends : Descends doubles calloc one (below.length + 1)) {type : ReplyType}
    (aggregate : RedisReply.isAggregate type = true) {idx : ℤ} {indices : List ℕ}
    (leads : path ({ idx := idx } :: below) = indices) {reply : Option (RedisReply δ)}
    (inside : (RedisReply.slot? indices reply).isSome) (emitted : List (RedisReply δ)) {next : List ReadTask}
    (after : moveToNextTask ({ idx := idx } :: below) = some next) {size : ℕ} (count : ℕ) {objs : List (RedisReply δ)}
    (all : objs.length + (count + 1) = size) (input : CppString) :
    Comes doubles calloc
      ⟨{ idx := objs.length } :: ⟨some type, size, idx⟩ :: below,
        RedisReply.store (filled type size objs) indices reply,
        none, emitted⟩
      input (Parsed.many one (count + 1) input) fun rest =>
        (⟨[], none, none, emitted⟩ : Core δ).proceed
          (RedisReply.store (filled type size (objs ++ rest)) indices reply) (some next) := by
  have parent : path (⟨some type, size, idx⟩ :: below) = indices := by rw [path_cons, leads]
  have space : objs.length < size := by omega
  induction count generalizing objs input with
  | zero =>
    have last : moveToNextTask ({ idx := objs.length } :: ⟨some type, size, idx⟩ :: below) = some next := by
      rw [moveToNextTask, Option.any_some, if_pos aggregate, if_pos (by dsimp only; omega), moveToNextTask_cons, after]
    rw [many_one]
    have comes := descends.element aggregate parent inside emitted space (by rw [last]; rfl) input
    rw [last] at comes
    exact .map comes
  | succ count ih =>
    have step : moveToNextTask ({ idx := objs.length } :: ⟨some type, size, idx⟩ :: below) =
        some ({ idx := objs.length + 1 } :: ⟨some type, size, idx⟩ :: below) := by
      rw [moveToNextTask, Option.any_some, if_pos aggregate, if_neg (by dsimp only; omega),
        if_pos (by dsimp only; omega)]
    have comes := descends.element aggregate parent inside emitted space (by rw [step]; rfl) input
    rw [step] at comes
    rw [Parsed.many_succ]
    refine comes.bind (fun _ => rfl) fun obj rest _ => .map ?_
    have longer : (objs ++ [obj]).length = objs.length + 1 := by rw [List.length_append, List.length_singleton]
    have left : (objs ++ [obj]).length + (count + 1) = size := by omega
    have later := ih left rest (by omega)
    simp only [longer, Int.natCast_add, Int.cast_ofNat_Int, List.append_assoc, List.singleton_append] at later
    exact later

/-- What the grammar takes for a value, with or without nested values, the stack takes. -/
theorem descends_valueWith {depth : ℕ} {nested : Option (CppString → Reading (RedisReply δ))}
    (deep : nested.isNone = decide (depth = 8))
    (descends : ∀ one, nested = some one → Descends doubles calloc one (depth + 1)) :
    Descends doubles calloc (valueWith doubles calloc nested) depth := by
  rintro ⟨_, reply, _, emitted⟩ idx below input running stack rfl inside next
  dsimp only at running stack inside
  subst running stack
  obtain ⟨stack, after⟩ := Option.isSome_iff_exists.mp next
  cases input with
  | nil => exact ⟨_, ⟨.refl _, rfl⟩, rfl, rfl⟩
  | cons byte rest =>
    rw [valueWith]
    cases announced : replyTypeOf byte with
    | none =>
      refine ⟨byte :: rest, .single ?_⟩
      simp only [Incremental.Step, stackReader, advance, announced]
    | some type =>
      dsimp only
      have start := comes_piece doubles calloc (-1) idx below reply emitted rest announced
      rw [deep]
      cases read : piece doubles calloc (below.length = 8) type rest with
      | more => rwa [read] at start
      | bad error => rwa [read] at start
      | done piece behind =>
        rw [read] at start
        cases piece with
        | object obj =>
          rw [Comes, put_object inside, proceed_congr rfl rfl] at start
          exact start
        | head kind size =>
          obtain ⟨shallow, rfl, aggregate, positive, granted⟩ := piece_head read
          rw [Comes, put_head inside] at start
          cases within : nested with
          | none => rw [within, shallow] at deep; cases deep
          | some one =>
            obtain ⟨count, rfl⟩ := Nat.exists_eq_succ_of_ne_zero (Nat.pos_iff_ne_zero.mp positive)
            have fresh : ([] : List (RedisReply δ)).length + (count + 1) = count.succ := Nat.zero_add _
            have elements := (descends one within).many aggregate rfl inside emitted after count fresh behind
            refine .head start rfl (.map (elements.congr fun objs rest found => ?_))
            have size : objs.length = count.succ := Parsed.length_of_many found
            rw [List.nil_append, ← size, filled_all, after]
            exact proceed_congr rfl rfl _ _

/-- A value at the front of an input, at every depth. -/
theorem descends_value {levels depth : ℕ} (all : levels + depth = 8) :
    Descends doubles calloc (value doubles calloc levels) depth := by
  induction levels generalizing depth with
  | zero =>
    have deepest : depth = 8 := by omega
    refine descends_valueWith ?_ ?_
    · rw [deepest]
      rfl
    · rintro one ⟨⟩
  | succ levels ih =>
    refine descends_valueWith ?_ ?_
    · rw [decide_eq_false (by omega)]
      rfl
    · rintro one ⟨⟩
      exact ih (by omega)

variable (doubles calloc) in
/-- A value at the root. -/
theorem comes_root (emitted : List (RedisReply δ)) (input : CppString) :
    Comes doubles calloc { emitted := emitted } input (value doubles calloc 8 input) fun obj =>
      { emitted := emitted ++ [obj] } :=
  descends_value rfl { emitted := emitted } (-1) [] input rfl rfl rfl rfl rfl

/-- From a fresh root the stack settles with the replies of the stream, and stops with its error. -/
theorem settles_repliesUpTo (emitted : List (RedisReply δ)) {count : ℕ} {input : CppString}
    (enough : input.length < count) :
    ∃ target, (stackReader doubles calloc).Settles ({ emitted := emitted }, input) target ∧
      target.1.emitted = emitted ++ (repliesUpTo doubles calloc count input).1 ∧
      target.1.halt = (repliesUpTo doubles calloc count input).2.map .error := by
  induction count generalizing emitted input with
  | zero => exact absurd enough (Nat.not_lt_zero _)
  | succ count ih =>
    have comes := comes_root doubles calloc emitted input
    rw [repliesUpTo]
    cases read : value doubles calloc 8 input with
    | more =>
      rw [read] at comes
      obtain ⟨waiting, settles, running, kept⟩ := comes
      exact ⟨waiting, settles, kept.trans (List.append_nil _).symm, running⟩
    | bad error =>
      rw [read] at comes
      obtain ⟨rest, reaches⟩ := comes
      exact ⟨_, ⟨reaches, rfl⟩, (List.append_nil _).symm, rfl⟩
    | done obj rest =>
      rw [read] at comes
      have shorter := value_length doubles calloc read
      obtain ⟨target, settles, replies, halt⟩ := ih (emitted ++ [obj]) (by omega : rest.length < count)
      refine ⟨target, settles.of_step comes, ?_, halt⟩
      rw [replies, List.append_assoc]
      rfl

variable (doubles calloc) in
theorem settles_replies (input : CppString) :
    ∃ target, (stackReader doubles calloc).Settles ({}, input) target ∧
      target.1.emitted = (replies doubles calloc input).1 ∧
      target.1.halt = (replies doubles calloc input).2.map .error :=
  settles_repliesUpTo [] (Nat.lt_succ_self _)

section

variable {input : CppString} {core : Core δ} {rest : CppString}
  (reaches : (stackReader doubles calloc).Reaches ({}, input) (core, rest))

include reaches

theorem emitted_prefix : core.emitted <+: (replies doubles calloc input).1 := by
  obtain ⟨target, settles, emitted, -⟩ := settles_replies doubles calloc input
  rw [← emitted]
  exact reaches_emitted doubles calloc (settles.of_reaches reaches).1

/-- Where the stack waits, all replies were given out. -/
theorem replies_of_settled (waits : advance doubles calloc (core, rest) = none) :
    core.emitted = (replies doubles calloc input).1 ∧ core.halt = (replies doubles calloc input).2.map .error := by
  obtain ⟨target, settles, emitted, halt⟩ := settles_replies doubles calloc input
  rw [settles.unique ⟨reaches, waits⟩] at emitted halt
  exact ⟨emitted, halt⟩

/-- No input makes the stack abort. -/
theorem halt_ne_abort : core.halt ≠ some .abort := by
  intro aborted
  have waits : advance doubles calloc (core, rest) = none := by rw [advance, aborted]
  have halt := (replies_of_settled reaches waits).2
  rw [aborted] at halt
  cases error : (replies doubles calloc input).2 <;> rw [error] at halt <;> cases halt

end

end CppRedis.Soundness.Descent
