import CppRedis.Machine.Run
import CppRedis.Soundness.Descent

/-! # Replies come out as the stream has them

The reader of `read.c` keeps its unread input in a buffer and its place in a task stack, and is called in any order
with new input and for replies. Every call for a reply gives the next one that the grammar finds in all the input so
far, or nothing where the next one is not complete, or the error that the stream has behind its replies. No input
makes an assertion fail or a store go astray, as long as no array of 2^31 pointers is to be had and the buffer
stays below 2^31 bytes.
-/

namespace CppRedis.Soundness.ReplyStream

open Machine Model.Hiredis Descent
open Model.RedisCpp (ReplyType)

variable {δ : Type}

/-- Memory is not enough for 2^31 pointers. -/
def Modest (calloc : ℕ → Bool) : Prop := ∀ size, calloc size = true → size < 2147483648

theorem seekNewlineWithin_eq {places : ℕ} {s : CppString} (small : s.length ≤ places + 1) :
    seekNewlineWithin places s = newline? s := by
  induction s generalizing places with
  | nil => cases places <;> rfl
  | cons first s ih =>
    cases s with
    | nil => cases places <;> rfl
    | cons second rest =>
      cases places with
      | zero => simp only [List.length_cons] at small; omega
      | succ places =>
        rw [seekNewlineWithin, newline?, ih (by simp only [List.length_cons] at small ⊢; omega)]

theorem toInt_of_lt {value : ℤ} (low : -2147483648 ≤ value) (high : value < 2147483648) : toInt value = value := by
  rw [toInt, Int.bmod_eq_of_le (by omega) (by omega)]

theorem seekNewline_eq {s : CppString} (small : s.length ≤ 2147483648) : seekNewline s = newline? s := by
  rw [seekNewline, toInt_of_lt (by omega) (by omega)]
  exact seekNewlineWithin_eq (by omega)

/-- `readLine` takes the first line off. -/
theorem readLine_spec {r : RedisReader δ} (small : r.unread.length ≤ 2147483648) :
    (line r.unread = .more ∧ r.readLine = none) ∨
      ∃ p len, line r.unread = .done p (r.unread.drop (len + 2)) ∧ len + 2 ≤ r.unread.length ∧
        r.readLine = some (p, { r with pos := r.pos + len + 2 }) := by
  rw [RedisReader.readLine, line, seekNewline_eq small]
  cases found : newline? r.unread with
  | none => exact .inl ⟨rfl, rfl⟩
  | some len => exact .inr ⟨_, len, rfl, (newline?_append found []).2, rfl⟩

theorem string2ll_lt {s : CppString} {value : ℤ} (read : string2ll s = some value) : value < 9223372036854775808 := by
  have numbers : ∀ negative rest, readNumber negative rest = some value → value < 9223372036854775808 := by
    intro negative rest found
    cases rest with
    | nil => cases found
    | cons first rest =>
      rw [readNumber] at found
      split at found
      · split at found
        · split_ifs at found <;> cases found <;> exact Int64.toInt_lt _
        · cases found
      · cases found
  rw [string2ll] at read
  split_ifs at read
  · cases read
    decide
  · exact numbers _ _ read
  · exact numbers _ _ read

namespace Item

variable (r : RedisReader δ) (cur : ReadTask) (below : List ReadTask)

/-- What the code does with a piece. -/
def accept : Piece δ → Option (Status × RedisReader δ)
  | .object obj => r.complete obj
  | .head type size => do
      let r ← r.store (.createArray type size)
      return (.ok, { r with rstack := { idx := 0 } :: { cur with elements := size } :: below })

/-- What an item comes to, by what is parsed in its place. -/
def Takes (result : Option (Status × RedisReader δ)) : Reading (Piece δ) → Prop
  | .more => result = some (.err, r)
  | .bad error => result = some (.err, .failed error)
  | .done piece rest =>
      ∃ taken ≤ r.unread.length, rest = r.unread.drop taken ∧
        result = accept { r with pos := r.pos + taken } cur below piece

variable {r cur below} {doubles : Doubles δ} {calloc : ℕ → Bool}

theorem takes_line (small : r.unread.length ≤ 2147483648) (type : ReplyType) :
    Takes r cur below (r.processLineItem doubles type)
      ((line r.unread).bind fun p rest => .ofExcept ((lineObject doubles type p).map Piece.object) rest) := by
  rw [RedisReader.processLineItem]
  obtain ⟨unfinished, none⟩ | ⟨p, len, finished, bound, some⟩ := readLine_spec small
  · rw [unfinished, none]
    rfl
  · rw [finished, some]
    dsimp only [Parsed.done_bind]
    cases lineObject doubles type p with
    | error error => rfl
    | ok obj => exact ⟨len + 2, bound, rfl, rfl⟩

theorem takes_bulk (inside : r.pos ≤ r.buf.length) (small : r.unread.length ≤ 2147483648) :
    Takes r cur below r.processBulkItem (bulk r.unread) := by
  rw [RedisReader.processBulkItem, bulk, line, seekNewline_eq small]
  cases found : newline? r.unread with
  | none => rfl
  | some s =>
    have bound := (newline?_append found []).2
    dsimp only [Parsed.done_bind]
    cases number : string2ll (r.unread.take s) with
    | none => rfl
    | some len =>
      dsimp only
      by_cases low : len < -1
      · rw [if_pos low, if_pos low]
        rfl
      · rw [if_neg low, if_neg low]
        by_cases null : len = -1
        · rw [if_pos null, if_pos null]
          exact ⟨s + 2, bound, rfl, rfl⟩
        · rw [if_neg null, if_neg null]
          have unread : r.unread.length = r.buf.length - r.pos := List.length_drop
          have whole : r.pos + (s + 2 + (len.toNat + 2)) ≤ r.buf.length ↔
              len.toNat + 2 ≤ (r.unread.drop (s + 2)).length := by
            rw [List.length_drop]
            omega
          by_cases complete : len.toNat + 2 ≤ (r.unread.drop (s + 2)).length
          · rw [if_pos complete, if_pos (whole.mpr complete)]
            rw [List.length_drop] at complete
            exact ⟨s + 2 + (len.toNat + 2), by omega, by rw [List.drop_drop], rfl⟩
          · rw [if_neg complete, if_neg (mt whole.mp complete)]
            rfl

/-- The number of elements survives its casts. -/
theorem openAggregate_eq (modest : Modest calloc) {type : ReplyType} {elements : ℤ} (natural : 0 ≤ elements)
    (high : elements < 9223372036854775808) :
    r.openAggregate calloc cur below type elements =
      if elementCount type elements = 0 then r.complete (.createArray type 0)
      else if calloc (elementCount type elements) then accept r cur below (.head type (elementCount type elements))
      else some (.err, .failed outOfMemory) := by
  rw [RedisReader.openAggregate]
  generalize signed : (if type = ReplyType.map then (elements * 2).bmod (2 ^ 64) else elements) = wide
  have range : -9223372036854775808 ≤ wide ∧ wide < 9223372036854775808 := by
    rw [← signed]
    split_ifs
    · exact ⟨Int.le_bmod (by decide), Int.bmod_lt (by decide)⟩
    · exact ⟨by omega, high⟩
  have size : (wide % 2 ^ 64).toNat = elementCount type elements := by
    rw [← signed, elementCount]
    split_ifs
    · have wrapped : (elements * 2).bmod (2 ^ 64) % 2 ^ 64 = elements * 2 % 2 ^ 64 := Int.bmod_emod
      rw [wrapped, Int.emod_eq_of_lt (by omega) (by omega)]
      omega
    · rw [Int.emod_eq_of_lt natural (by omega)]
  rw [size]
  generalize elementCount type elements = count at size
  by_cases empty : count = 0
  · subst empty
    have zero : wide = 0 := by omega
    rw [if_pos rfl, if_neg (by rintro ⟨positive, -⟩; exact absurd positive (lt_irrefl 0)), zero]
    rfl
  · rw [if_neg empty]
    by_cases granted : calloc count = true
    · have small := modest count granted
      have same : wide = count := by omega
      have positive : 0 < (count : ℤ) := by omega
      have exact : toInt count = count := toInt_of_lt (by omega) (by omega)
      rw [if_pos granted, if_neg (by rw [granted]; rintro ⟨-, ⟨⟩⟩), same]
      simp only [if_pos positive, exact]
      rfl
    · rw [if_neg granted, if_pos ⟨Nat.pos_of_ne_zero empty, by rw [Bool.eq_false_iff.mpr granted]; rfl⟩]

theorem takes_aggregate (modest : Modest calloc) (small : r.unread.length ≤ 2147483648) {type : ReplyType} :
    Takes r cur below (r.processAggregateItem calloc cur below type)
      (if decide (below.length = 8) = true then .bad nestedTooDeep else aggregateHead calloc type r.unread) := by
  rw [RedisReader.processAggregateItem]
  by_cases deep : below.length = 8
  · rw [if_pos deep, if_pos (decide_eq_true deep)]
    rfl
  · rw [if_neg deep, if_neg (by rw [decide_eq_true_eq]; exact deep), aggregateHead]
    obtain ⟨unfinished, none⟩ | ⟨p, len, finished, bound, some⟩ := readLine_spec small
    · rw [unfinished, none]
      rfl
    · rw [finished, some]
      dsimp only [Parsed.done_bind]
      cases number : string2ll p with
      | none => rfl
      | some elements =>
        dsimp only
        by_cases low : elements < -1
        · rw [if_pos low, if_pos low]
          rfl
        · rw [if_neg low, if_neg low]
          by_cases null : elements = -1
          · rw [if_pos null, if_pos null]
            exact ⟨len + 2, bound, rfl, rfl⟩
          · rw [if_neg null, if_neg null, openAggregate_eq modest (by omega) (string2ll_lt number)]
            split_ifs
            · exact ⟨len + 2, bound, rfl, rfl⟩
            · exact ⟨len + 2, bound, rfl, rfl⟩
            · rfl

variable (r cur below doubles) in
/-- Every item of a type that the reader meets is what is parsed in its place. -/
theorem takes_typed (modest : Modest calloc) (inside : r.pos ≤ r.buf.length) (small : r.unread.length ≤ 2147483648)
    {type : ReplyType} (met : isRead type = true) :
    Takes r cur below (r.processTyped doubles calloc cur below type)
      (piece doubles calloc (below.length = 8) type r.unread) := by
  cases type with
  | error => exact takes_line small _
  | status => exact takes_line small _
  | integer => exact takes_line small _
  | double => exact takes_line small _
  | nil => exact takes_line small _
  | bool => exact takes_line small _
  | string => exact takes_bulk inside small
  | array => exact takes_aggregate modest small
  | map => exact takes_aggregate modest small
  | set => exact takes_aggregate modest small
  | attr => cases met
  | push => cases met
  | bignum => cases met

end Item

/-- A reader shows the stack over the stream, after the replies that were returned before. -/
structure Shows (returned : List (RedisReply δ)) (r : RedisReader δ) (core : Core δ) : Prop where
  inside : r.pos ≤ r.buf.length
  fine : r.err = none
  running : core.halt = none
  here : (r.rstack ≠ [] ∧ core.stack = r.rstack ∧ core.reply = r.reply ∧ core.emitted = returned) ∨
    (r.rstack = [] ∧ ∃ obj, r.reply = some obj ∧ core = { emitted := returned ++ [obj] })

section

variable {returned : List (RedisReply δ)} {r : RedisReader δ} {cur : ReadTask} {below : List ReadTask}
  {doubles : Doubles δ} {calloc : ℕ → Bool}

theorem store_eq (stack : r.rstack = cur :: below) (obj : RedisReply δ) :
    r.store obj =
      if (RedisReply.slot? (path (cur :: below)) r.reply).isSome then
        some { r with reply := RedisReply.store obj (path (cur :: below)) r.reply }
      else none := by
  rw [RedisReader.store, stack]

/-- How the code takes a piece, by what the stack over the stream does with it. -/
def Accepts (returned : List (RedisReply δ)) (r : RedisReader δ) (before after : Core δ) :
    Option (Status × RedisReader δ) → Prop
  | none => after = before.stop .abort
  | some (status, next) => status = .ok ∧ next.pos = r.pos ∧ next.buf = r.buf ∧ Shows returned next after

variable (returned r) in
/-- The code takes a piece as the stack does. -/
theorem accept_spec (stack : r.rstack = cur :: below) (inside : r.pos ≤ r.buf.length) (fine : r.err = none)
    (piece : Piece δ) :
    Accepts returned r ⟨cur :: below, r.reply, none, returned⟩
      ((⟨cur :: below, r.reply, none, returned⟩ : Core δ).put cur below piece) (Item.accept r cur below piece) := by
  by_cases reachable : (RedisReply.slot? (path (cur :: below)) r.reply).isSome
  · cases piece with
    | object obj =>
      rw [Item.accept, RedisReader.complete, store_eq stack, if_pos reachable, Core.put, if_pos reachable]
      simp only [Option.bind_eq_bind, Option.bind_some, RedisReader.nextTask, stack]
      obtain ⟨root, stored⟩ := store_some obj reachable
      rw [stored]
      rcases next : moveToNextTask (cur :: below) with _ | _ | ⟨task, rest⟩
      · rfl
      · exact ⟨rfl, rfl, rfl, inside, fine, rfl, .inr ⟨rfl, root, rfl, rfl⟩⟩
      · exact ⟨rfl, rfl, rfl, inside, fine, rfl, .inl ⟨List.cons_ne_nil _ _, rfl, rfl, rfl⟩⟩
    | head type size =>
      rw [Item.accept, store_eq stack, if_pos reachable, Core.put, if_pos reachable]
      exact ⟨rfl, rfl, rfl, inside, fine, rfl, .inl ⟨List.cons_ne_nil _ _, rfl, rfl, rfl⟩⟩
  · have closed : Item.accept r cur below piece = none := by
      cases piece with
      | object obj => rw [Item.accept, RedisReader.complete, store_eq stack, if_neg reachable]; rfl
      | head type size => rw [Item.accept, store_eq stack, if_neg reachable]; rfl
    rw [closed]
    exact if_neg reachable

/-- How an item ends, for a stack over the stream before it. -/
def Ends (doubles : Doubles δ) (calloc : ℕ → Bool) (returned : List (RedisReply δ)) (r : RedisReader δ) (core : Core δ)
    (unread : CppString) : Option (Status × RedisReader δ) → Prop
  | none => ∃ rest, (stackReader doubles calloc).Reaches (core, unread) (core.stop .abort, rest)
  | some (.ok, next) =>
      ∃ after, (stackReader doubles calloc).Reaches (core, unread) (after, next.unread) ∧ Shows returned next after ∧
        next.buf = r.buf ∧ next.unread.length < unread.length
  | some (.err, next) =>
      (∃ error rest, next = .failed error ∧
        (stackReader doubles calloc).Reaches (core, unread) (core.stop (.error error), rest)) ∨
      (∃ after, (stackReader doubles calloc).Settles (core, unread) (after, next.unread) ∧ Shows returned next after ∧
        next.rstack ≠ [] ∧ next.buf = r.buf)

variable (doubles returned r) in
theorem typed_ends (modest : Modest calloc) (small : r.buf.length ≤ 2147483648) (stack : r.rstack = cur :: below)
    (inside : r.pos ≤ r.buf.length) (fine : r.err = none) {type : ReplyType} (typed : cur.type = some type) :
    Ends doubles calloc returned r ⟨cur :: below, r.reply, none, returned⟩ r.unread
      (r.processTyped doubles calloc cur below type) := by
  obtain ⟨_, elements, idx⟩ := cur
  dsimp only at typed
  subst typed
  have length : r.unread.length = r.buf.length - r.pos := List.length_drop
  by_cases met : isRead type = true
  · have takes := Item.takes_typed r ⟨some type, elements, idx⟩ below doubles modest inside (by omega) met
    have shrinks := piece_shrinks doubles calloc (below.length = 8) type r.unread
    cases read : piece doubles calloc (below.length = 8) type r.unread with
    | more =>
      rw [read] at takes
      rw [takes]
      refine .inr ⟨_, ⟨.refl _, ?_⟩, ⟨inside, fine, rfl, .inl ⟨?_, stack.symm, rfl, rfl⟩⟩, ?_, rfl⟩
      · simp only [stackReader, advance, if_pos met, read]
      · rw [stack]
        exact List.cons_ne_nil _ _
      · rw [stack]
        exact List.cons_ne_nil _ _
    | bad error =>
      rw [read] at takes
      rw [takes]
      refine .inl ⟨error, r.unread, rfl, .single ?_⟩
      simp only [Incremental.Step, stackReader, advance, if_pos met, read]
    | done piece rest =>
      have step : (stackReader doubles calloc).Step
          (⟨⟨some type, elements, idx⟩ :: below, r.reply, none, returned⟩, r.unread)
          ((⟨⟨some type, elements, idx⟩ :: below, r.reply, none, returned⟩ : Core δ).put
            ⟨some type, elements, idx⟩ below piece, rest) := by
        simp only [Incremental.Step, stackReader, advance, if_pos met, read]
      have shorter := shrinks rest piece read
      rw [read] at takes
      obtain ⟨taken, bound, rfl, result⟩ := takes
      have accepted := accept_spec returned { r with pos := r.pos + taken } stack (by dsimp only; omega) fine piece
      rw [result]
      rcases final : Item.accept { r with pos := r.pos + taken } ⟨some type, elements, idx⟩ below piece with
        _ | ⟨status, next⟩
      · rw [final] at accepted
        exact ⟨_, .single (step.trans (congrArg (fun core => some (core, r.unread.drop taken)) accepted))⟩
      · rw [final] at accepted
        obtain ⟨rfl, pos, buf, shows⟩ := accepted
        have unread : next.unread = r.unread.drop taken := by
          rw [RedisReader.unread, RedisReader.unread, pos, buf, List.drop_drop]
        refine ⟨_, .single ?_, shows, buf, ?_⟩
        · rw [unread]
          exact step
        · rw [unread]
          omega
  · have fails : r.processTyped doubles calloc ⟨some type, elements, idx⟩ below type = none := by
      cases type <;> first | exact absurd rfl met | rfl
    rw [fails]
    refine ⟨r.unread, .single ?_⟩
    simp only [Incremental.Step, stackReader, advance, if_neg met]

/-- A step before an item. -/
theorem Ends.head {before core : Core δ} {input unread : CppString} {first : RedisReader δ}
    {result : Option (Status × RedisReader δ)}
    (step : (stackReader doubles calloc).Step (before, input) (core, unread)) (same : core.emitted = before.emitted)
    (buf : first.buf = r.buf) (shorter : unread.length ≤ input.length)
    (ends : Ends doubles calloc returned first core unread result) :
    Ends doubles calloc returned r before input result := by
  have stops : ∀ halt, core.stop halt = before.stop halt := fun halt => by rw [Core.stop, Core.stop, same]
  rcases result with _ | ⟨_ | _, next⟩
  · obtain ⟨rest, reaches⟩ := ends
    exact ⟨rest, by rw [← stops]; exact .head step reaches⟩
  · obtain ⟨after, reaches, shows, kept, progress⟩ := ends
    exact ⟨after, .head step reaches, shows, kept.trans buf, by omega⟩
  · rcases ends with ⟨error, rest, failed, reaches⟩ | ⟨after, settles, shows, waits, kept⟩
    · exact .inl ⟨error, rest, failed, by rw [← stops]; exact .head step reaches⟩
    · exact .inr ⟨after, settles.of_step (.single step), shows, waits, kept.trans buf⟩

variable (doubles returned) in
theorem item_ends (modest : Modest calloc) (small : r.buf.length ≤ 2147483648) (inside : r.pos ≤ r.buf.length)
    (fine : r.err = none) (waits : r.rstack ≠ []) :
    Ends doubles calloc returned r ⟨r.rstack, r.reply, none, returned⟩ r.unread (r.processItem doubles calloc) := by
  rw [RedisReader.processItem]
  cases stack : r.rstack with
  | nil => exact absurd stack waits
  | cons cur below =>
    dsimp only
    obtain ⟨type, elements, idx⟩ := cur
    cases type with
    | some type => exact typed_ends returned r doubles modest small stack inside fine rfl
    | none =>
      have length : r.unread.length = r.buf.length - r.pos := List.length_drop
      dsimp only
      rw [RedisReader.readBytes]
      cases unread : r.unread with
      | nil =>
        rw [unread, List.length_nil] at length
        rw [if_neg (by omega)]
        refine .inr ⟨_, ⟨by rw [unread]; exact .refl _, ?_⟩,
          ⟨inside, fine, rfl, .inl ⟨waits, stack.symm, rfl, rfl⟩⟩, waits, rfl⟩
        rw [unread]
        rfl
      | cons byte rest =>
        rw [unread, List.length_cons] at length
        rw [if_pos (by omega)]
        dsimp only [List.take_succ_cons, List.headD_cons]
        cases announced : replyTypeOf byte with
        | none =>
          refine .inl ⟨protocolByte byte, byte :: rest, rfl, .single ?_⟩
          simp only [Incremental.Step, stackReader, advance, announced]
        | some type =>
          have behind : r.buf.drop (r.pos + 1) = rest := by
            rw [← List.drop_drop]
            exact congrArg (List.drop 1) unread
          have step : (stackReader doubles calloc).Step
              (⟨⟨none, elements, idx⟩ :: below, r.reply, none, returned⟩, byte :: rest)
              (⟨⟨some type, elements, idx⟩ :: below, r.reply, none, returned⟩, r.buf.drop (r.pos + 1)) := by
            simp only [Incremental.Step, stackReader, advance, announced, behind]
          have ends := typed_ends returned
            { r with pos := r.pos + 1, rstack := ⟨some type, elements, idx⟩ :: below } doubles modest small rfl
            (by dsimp only; omega) fine rfl
          exact .head step rfl rfl (by rw [behind]; exact Nat.le_succ _) ends

/-- How the loop over items ends. -/
def Halts (doubles : Doubles δ) (calloc : ℕ → Bool) (returned : List (RedisReply δ))
    (r : RedisReader δ) (core : Core δ) :
    Option (RedisReader δ) → Prop
  | none => ∃ rest, (stackReader doubles calloc).Reaches (core, r.unread) (core.stop .abort, rest)
  | some next =>
      (∃ error rest, next = .failed error ∧
        (stackReader doubles calloc).Reaches (core, r.unread) (core.stop (.error error), rest)) ∨
      (∃ after, (stackReader doubles calloc).Reaches (core, r.unread) (after, next.unread) ∧ Shows returned next after ∧
        next.buf = r.buf ∧ (next.rstack ≠ [] → advance doubles calloc (after, next.unread) = none))

theorem Halts.head {first : RedisReader δ} {before core : Core δ} {result : Option (RedisReader δ)}
    (reaches : (stackReader doubles calloc).Reaches (before, r.unread) (core, first.unread))
    (same : core.emitted = before.emitted) (buf : first.buf = r.buf)
    (halts : Halts doubles calloc returned first core result) : Halts doubles calloc returned r before result := by
  have stops : ∀ halt, core.stop halt = before.stop halt := fun halt => by rw [Core.stop, Core.stop, same]
  rcases result with _ | next
  · obtain ⟨rest, onward⟩ := halts
    exact ⟨rest, by rw [← stops]; exact reaches.trans onward⟩
  · rcases halts with ⟨error, rest, failed, onward⟩ | ⟨after, onward, shows, kept, waits⟩
    · exact .inl ⟨error, rest, failed, by rw [← stops]; exact reaches.trans onward⟩
    · exact .inr ⟨after, reaches.trans onward, shows, kept.trans buf, waits⟩

variable (doubles) in
/-- The loop goes on until the reader waits, or has a reply, or fails. -/
theorem items_halt (modest : Modest calloc) (small : r.buf.length ≤ 2147483648) {core : Core δ}
    (shows : Shows returned r core) {fuel : ℕ} (enough : r.unread.length < fuel) :
    Halts doubles calloc returned r core (RedisReader.processItems doubles calloc fuel r) := by
  induction fuel generalizing r core with
  | zero => exact absurd enough (Nat.not_lt_zero _)
  | succ fuel ih =>
    rw [RedisReader.processItems]
    by_cases idle : r.rstack = []
    · rw [if_pos idle]
      exact .inr ⟨core, .refl _, shows, rfl, fun waits => absurd idle waits⟩
    · rw [if_neg idle]
      obtain ⟨stack, reply, emitted⟩ : core.stack = r.rstack ∧ core.reply = r.reply ∧ core.emitted = returned :=
        (shows.here.resolve_right fun done => idle done.1).2
      have same : core = ⟨r.rstack, r.reply, none, returned⟩ := by
        rw [← stack, ← reply, ← emitted, ← shows.running]
      have ends := item_ends returned doubles modest small shows.inside shows.fine idle
      rw [← same] at ends
      rcases item : r.processItem doubles calloc with _ | ⟨_ | _, next⟩
      · rw [item] at ends
        exact ends
      · rw [item] at ends
        obtain ⟨after, reaches, shown, kept, shorter⟩ := ends
        have halts := ih (by rw [kept]; exact small) shown (by omega : next.unread.length < fuel)
        by_cases done : next.rstack = []
        · obtain ⟨fuel, rfl⟩ : ∃ left, fuel = left + 1 := ⟨fuel - 1, by omega⟩
          dsimp only
          rw [RedisReader.processItems, if_pos done]
          exact .inr ⟨after, reaches, shown, kept, fun waits => absurd done waits⟩
        · have still : after.emitted = core.emitted :=
            (shown.here.resolve_right fun other => done other.1).2.2.2.trans emitted.symm
          exact halts.head reaches still kept
      · rw [item] at ends
        rcases ends with ⟨error, rest, failed, reaches⟩ | ⟨after, settles, shown, waits, kept⟩
        · exact .inl ⟨error, rest, failed, reaches⟩
        · exact .inr ⟨after, settles.1, shown, kept, fun _ => settles.2⟩

end

theorem sdsrange_rest {s : CppString} {start : ℕ} (inside : start ≤ s.length) (small : s.length < 2147483648) :
    sdsrange s (toInt start) (-1) = s.drop start := by
  by_cases empty : s = []
  · rw [sdsrange, if_pos empty, empty, List.drop_nil]
  · have positive : 0 < s.length := List.length_pos_iff.mpr empty
    have first : toInt start = start := toInt_of_lt (by omega) (by omega)
    have size : toInt s.length = s.length := toInt_of_lt (by omega) (by omega)
    have last : max 0 (toInt (s.length + -1)) = s.length - 1 := by
      rw [toInt_of_lt (by omega) (by omega)]
      omega
    rw [sdsrange, if_neg empty]
    simp only [first, size, last, if_neg (Int.not_lt.mpr (Int.natCast_nonneg start)), if_pos (by decide : (-1 : ℤ) < 0)]
    by_cases whole : (s.length : ℤ) - 1 < start
    · rw [if_pos whole, List.drop_eq_nil_of_le (by omega)]
    · rw [if_neg whole, if_neg (by omega), if_neg (by omega), Int.toNat_natCast, List.take_of_length_le]
      rw [List.length_drop]
      omega

/-- What a program can ask of a reader. -/
inductive Call where
  | feed (buf : CppString)
  | getReply

/-- A reader with the input that it was given and the replies that it returned. -/
structure Session (δ : Type) where
  reader : RedisReader δ := {}
  fed : CppString := []
  returned : List (RedisReply δ) := []

variable (doubles : Doubles δ) (calloc : ℕ → Bool)

def Session.call (session : Session δ) : Call → Option (Session δ)
  | .feed buf => some { session with reader := (redisReaderFeed session.reader buf).2, fed := session.fed ++ buf }
  | .getReply =>
      (redisReaderGetReply doubles calloc session.reader).map fun (_, reply, reader) =>
        { session with reader := reader, returned := session.returned ++ reply.toList }

/-- The calls of a session; `none` where the program ended in an assertion. -/
def step (session : Option (Session δ)) (call : Call) : Option (Session δ) :=
  session.bind fun session => session.call doubles calloc call

/-- New input leaves the buffer below 2^31 bytes. -/
def Fits (session : Option (Session δ)) : Call → Prop
  | .feed buf => ∀ here, session = some here → here.reader.buf.length + buf.length < 2147483648
  | .getReply => True

/-- What a call for a reply has to answer after some input and that many replies: a status, a reply and an error. -/
def nextReply (fed : CppString) (count : ℕ) : Status × Option (RedisReply δ) × Option Error :=
  match (replies doubles calloc fed).1[count]?, (replies doubles calloc fed).2 with
  | some reply, _ => (.ok, some reply, none)
  | none, none => (.ok, none, none)
  | none, some error => (.err, none, some { error with str := error.str.take 127 })

/-- Everything that was returned is what the stream has, and the next call answers what comes next in it. -/
structure Exact (session : Session δ) : Prop where
  returned : session.returned <+: (replies doubles calloc session.fed).1
  next : ∃ status reply reader, redisReaderGetReply doubles calloc session.reader = some (status, reply, reader) ∧
    (status, reply, reader.err) = nextReply doubles calloc session.fed session.returned.length

/-- Where a session is in its stream. -/
inductive Tracks (session : Session δ) : Prop where
  | idle (inside : session.reader.pos ≤ session.reader.buf.length) (fine : session.reader.err = none)
      (rstack : session.reader.rstack = []) (reply : session.reader.reply = none)
      (reaches : (stackReader doubles calloc).Reaches ({}, session.fed)
        ({ emitted := session.returned }, session.reader.unread))
  | busy (core : Core δ) (shows : Shows session.returned session.reader core) (rstack : session.reader.rstack ≠ [])
      (reaches : (stackReader doubles calloc).Reaches ({}, session.fed) (core, session.reader.unread))
      (waits : session.reader.unread = [] → advance doubles calloc (core, []) = none)
  | failed (error : Error) (rest : CppString) (reader : session.reader = .failed error)
      (reaches : (stackReader doubles calloc).Reaches ({}, session.fed)
        (({ emitted := session.returned } : Core δ).stop (.error error), rest))

variable {doubles calloc} {session : Session δ}

theorem redisReaderFeed_fine {r : RedisReader δ} (fine : r.err = none) (buf : CppString) :
    (redisReaderFeed r buf).2 = { r with buf := r.buf ++ buf } := by
  rw [redisReaderFeed, if_neg (by rw [fine]; rintro ⟨⟩)]

theorem feed_tracks (tracks : Tracks doubles calloc session) (buf : CppString) :
    Tracks doubles calloc
      { session with reader := (redisReaderFeed session.reader buf).2, fed := session.fed ++ buf } := by
  have behind : ∀ reader : RedisReader δ, reader.pos ≤ reader.buf.length →
      ({ reader with buf := reader.buf ++ buf } : RedisReader δ).unread = reader.unread ++ buf :=
    fun reader inside => List.drop_append_of_le_length inside
  have grows : session.reader.buf.length ≤ (session.reader.buf ++ buf).length := by
    rw [List.length_append]
    exact Nat.le_add_right _ _
  cases tracks with
  | idle inside fine rstack reply reaches =>
    rw [redisReaderFeed_fine fine]
    exact .idle (inside.trans grows) fine rstack reply (by rw [behind _ inside]; exact reaches.append buf)
  | busy core shows rstack reaches waits =>
    have inside := shows.inside
    rw [redisReaderFeed_fine shows.fine]
    refine .busy core ⟨inside.trans grows, shows.fine, shows.running, shows.here⟩ rstack
      (by rw [behind _ inside]; exact reaches.append buf) ?_
    intro empty
    rw [behind _ inside] at empty
    exact waits (List.append_eq_nil_iff.mp empty).1
  | failed error rest reader reaches =>
    rw [reader]
    exact .failed error (rest ++ buf) rfl (reaches.append buf)

/-- The end of a call keeps what is not read yet. -/
theorem emit_unread {r : RedisReader δ} (inside : r.pos ≤ r.buf.length) (small : r.buf.length < 2147483648) :
    let kept := if 1024 ≤ r.pos then { r with buf := sdsrange r.buf (toInt r.pos) (-1), pos := 0 } else r
    kept.unread = r.unread ∧ kept.pos ≤ kept.buf.length ∧ kept.buf.length ≤ r.buf.length ∧ kept.err = r.err ∧
      kept.rstack = r.rstack ∧ kept.reply = r.reply := by
  dsimp only
  split_ifs
  · rw [sdsrange_rest inside small]
    refine ⟨List.drop_zero, Nat.zero_le _, ?_, rfl, rfl, rfl⟩
    dsimp only
    rw [List.length_drop]
    exact Nat.sub_le _ _
  · exact ⟨rfl, inside, le_refl _, rfl, rfl, rfl⟩

/-- A call for a reply, in a session where it is. -/
def Answers (doubles : Doubles δ) (calloc : ℕ → Bool) (session : Session δ)
    (result : Option (Status × Option (RedisReply δ) × RedisReader δ)) : Prop :=
  ∃ status reply reader, result = some (status, reply, reader) ∧
    (status, reply, reader.err) = nextReply doubles calloc session.fed session.returned.length ∧
    reader.buf.length ≤ session.reader.buf.length ∧
    Tracks doubles calloc { session with reader := reader, returned := session.returned ++ reply.toList }

theorem nextReply_of_settled {core : Core δ} {rest : CppString}
    (reaches : (stackReader doubles calloc).Reaches ({}, session.fed) (core, rest))
    (waits : advance doubles calloc (core, rest) = none) (all : core.emitted = session.returned) :
    nextReply doubles calloc session.fed session.returned.length =
      match core.halt with
      | some (.error error) => (.err, none, some { error with str := error.str.take 127 })
      | _ => (.ok, none, none) := by
  obtain ⟨emitted, halt⟩ := replies_of_settled reaches waits
  rw [nextReply, ← emitted, all, halt, List.getElem?_eq_none (le_refl _)]
  cases (replies doubles calloc session.fed).2 <;> rfl

theorem nextReply_of_emitted {core : Core δ} {rest : CppString} {obj : RedisReply δ}
    (reaches : (stackReader doubles calloc).Reaches ({}, session.fed) (core, rest))
    (more : core.emitted = session.returned ++ [obj]) :
    nextReply doubles calloc session.fed session.returned.length = (.ok, some obj, none) := by
  obtain ⟨later, split⟩ := emitted_prefix reaches
  rw [nextReply, ← split, more, List.append_assoc, List.getElem?_append_right (le_refl _), Nat.sub_self]
  rfl

/-- The loop and the end of a call, from a task that is there. -/
theorem loop_answers (modest : Modest calloc) {r : RedisReader δ} (buf : r.buf = session.reader.buf)
    (small : r.buf.length < 2147483648) {core : Core δ} (shows : Shows session.returned r core) (waits : r.rstack ≠ [])
    (reaches : (stackReader doubles calloc).Reaches ({}, session.fed) (core, r.unread)) :
    Answers doubles calloc session ((r.processItems doubles calloc (r.unread.length + 1)).map emit) := by
  have emitted : core.emitted = session.returned := (shows.here.resolve_right fun done => waits done.1).2.2.2
  have halts := items_halt doubles modest small.le shows (Nat.lt_succ_self r.unread.length)
  rcases items : r.processItems doubles calloc (r.unread.length + 1) with _ | next
  · rw [items] at halts
    obtain ⟨rest, aborted⟩ := halts
    exact absurd rfl (halt_ne_abort (reaches.trans aborted))
  · rw [items] at halts
    rcases halts with ⟨error, rest, rfl, stopped⟩ | ⟨after, onward, shown, kept, done⟩
    · have whole := reaches.trans stopped
      rw [Core.stop, emitted] at whole
      exact ⟨.err, none, .failed error, rfl, (nextReply_of_settled whole rfl rfl).symm, Nat.zero_le _,
        .failed error rest rfl (by rw [Option.toList_none, List.append_nil]; exact whole)⟩
    · have whole := reaches.trans onward
      obtain ⟨unread, inside, shorter, err, rstack, reply⟩ := emit_unread shown.inside (by rw [kept]; exact small)
      have bound : next.buf.length ≤ session.reader.buf.length := by rw [kept, buf]
      rw [Option.map_some, emit, if_neg (by rw [shown.fine]; rintro ⟨⟩)]
      generalize (
        if 1024 ≤ next.pos then { next with buf := sdsrange next.buf (toInt next.pos) (-1), pos := 0 }
        else next : RedisReader δ) = last at unread inside shorter err rstack reply
      rw [← unread] at whole
      rcases shown.here with ⟨still, stack, underWay, same⟩ | ⟨empty, obj, full, rfl⟩
      · have stuck := done still
        rw [← unread] at stuck
        rw [if_neg (by rw [rstack]; exact still)]
        refine ⟨.ok, none, last, rfl, ?_, shorter.trans bound, ?_⟩
        · rw [nextReply_of_settled whole stuck same, shown.running, err, shown.fine]
        · refine .busy after ?_ (by rw [rstack]; exact still) whole fun empty => by rw [← empty]; exact stuck
          refine ⟨inside, err.trans shown.fine, shown.running, .inl ⟨by rw [rstack]; exact still, ?_, ?_, ?_⟩⟩
          · rw [rstack]
            exact stack
          · rw [reply]
            exact underWay
          · rw [Option.toList_none, List.append_nil]
            exact same
      · rw [if_pos (rstack.trans empty)]
        refine ⟨.ok, some obj, { last with reply := none }, ?_, ?_, shorter.trans bound, ?_⟩
        · rw [reply, full]
        · rw [nextReply_of_emitted whole rfl, err, shown.fine]
        · exact .idle inside (err.trans shown.fine) (rstack.trans empty) rfl whole

/-- Every call for a reply answers what comes next in the stream. -/
theorem getReply_answers (modest : Modest calloc) (small : session.reader.buf.length < 2147483648)
    (tracks : Tracks doubles calloc session) :
    Answers doubles calloc session (redisReaderGetReply doubles calloc session.reader) := by
  have nothing : ∀ core, (stackReader doubles calloc).Reaches ({}, session.fed) (core, session.reader.unread) →
      core.emitted = session.returned → core.halt = none → session.reader.err = none →
      advance doubles calloc (core, session.reader.unread) = none → Tracks doubles calloc session →
      Answers doubles calloc session (some (.ok, none, session.reader)) := by
    intro core reaches emitted running fine stuck tracks
    refine ⟨.ok, none, session.reader, rfl, ?_, le_refl _, ?_⟩
    · rw [nextReply_of_settled reaches stuck emitted, running, fine]
    · rw [Option.toList_none, List.append_nil]
      exact tracks
  cases tracks with
  | idle inside fine rstack reply reaches =>
    rw [redisReaderGetReply, if_neg (by rw [fine]; rintro ⟨⟩)]
    by_cases empty : session.reader.buf = []
    · have unread : session.reader.unread = [] := by rw [RedisReader.unread, empty, List.drop_nil]
      rw [if_pos empty]
      exact nothing _ reaches rfl rfl fine (by rw [unread]; rfl) (.idle inside fine rstack reply reaches)
    · rw [if_neg empty, if_pos rstack]
      exact loop_answers modest rfl small
        ⟨inside, fine, rfl, .inl ⟨List.cons_ne_nil _ _, rfl, reply.symm, rfl⟩⟩ (List.cons_ne_nil _ _) reaches
  | busy core shows rstack reaches waits =>
    obtain ⟨stack, reply, emitted⟩ := (shows.here.resolve_right fun done => rstack done.1).2
    rw [redisReaderGetReply, if_neg (by rw [shows.fine]; rintro ⟨⟩)]
    by_cases empty : session.reader.buf = []
    · have unread : session.reader.unread = [] := by rw [RedisReader.unread, empty, List.drop_nil]
      rw [if_pos empty]
      exact nothing core reaches emitted shows.running shows.fine (by rw [unread]; exact waits unread)
        (.busy core shows rstack reaches waits)
    · rw [if_neg empty, if_neg rstack]
      exact loop_answers modest rfl small shows rstack reaches
  | failed error rest reader reaches =>
    have failed : session.reader.err.isSome = true := by rw [reader]; rfl
    rw [redisReaderGetReply, if_pos failed]
    refine ⟨.err, none, session.reader, rfl, ?_, le_refl _, ?_⟩
    · rw [nextReply_of_settled reaches rfl rfl, reader]
      rfl
    · rw [Option.toList_none, List.append_nil]
      exact .failed error rest reader reaches

theorem Tracks.within (tracks : Tracks doubles calloc session) :
    session.returned <+: (replies doubles calloc session.fed).1 := by
  cases tracks with
  | idle inside fine rstack reply reaches => exact emitted_prefix reaches
  | busy core shows rstack reaches waits =>
    rw [← (shows.here.resolve_right fun done => rstack done.1).2.2.2]
    exact emitted_prefix reaches
  | failed error rest reader reaches => exact emitted_prefix reaches

variable (doubles calloc) in
/-- A step gives out at most one reply, and takes a byte for it. -/
theorem advance_pays {source target : Core δ × CppString} (step : advance doubles calloc source = some target) :
    target.1.emitted.length + target.2.length ≤ source.1.emitted.length + source.2.length := by
  obtain ⟨core, input⟩ := source
  have one : ∀ (reply : Option (RedisReply δ)) stack, (core.proceed reply stack).emitted.length ≤
      core.emitted.length + 1 := by
    intro reply stack
    rcases stack with _ | ⟨_ | ⟨cur, below⟩⟩
    · exact Nat.le_succ _
    · cases reply <;> simp [Core.proceed]
    · exact Nat.le_succ _
  have put : ∀ cur below (piece : Piece δ), (core.put cur below piece).emitted.length ≤ core.emitted.length + 1 := by
    intro cur below piece
    rw [Core.put.eq_def]
    split_ifs
    · cases piece with
      | object obj => exact one _ _
      | head type size => exact Nat.le_succ _
    · exact Nat.le_succ _
  rw [advance] at step
  split at step
  · cases step
  · cases step
  · next cur below _ _ =>
    split at step
    · cases step
    · next byte rest _ same =>
      obtain rfl : input = byte :: rest := same
      split at step
      · cases step
        exact le_refl _
      · cases step
        simp
    · next type _ _ =>
      split_ifs at step
      · split at step
        · cases step
        · cases step
          exact le_refl _
        · next piece rest read =>
          cases step
          have shorter := piece_shrinks doubles calloc _ _ _ _ _ read
          have most := put cur below piece
          dsimp only at shorter most ⊢
          omega
      · cases step
        exact le_refl _

variable (doubles calloc) in
theorem reaches_pays {source target : Core δ × CppString}
    (reaches : (stackReader doubles calloc).Reaches source target) :
    target.1.emitted.length + target.2.length ≤ source.1.emitted.length + source.2.length := by
  induction reaches with
  | refl => exact le_refl _
  | tail _ step ih => exact (advance_pays doubles calloc step).trans ih

/-- A session that gave out one more reply has less input before it. -/
theorem Tracks.shrinks (tracks : Tracks doubles calloc session) (fine : session.reader.err = none)
    {reader : RedisReader δ}
    {obj : RedisReply δ}
    (next : Tracks doubles calloc { session with reader := reader, returned := session.returned ++ [obj] }) :
    reader.unread.length < session.reader.unread.length := by
  have here : ∃ core, (stackReader doubles calloc).Reaches ({}, session.fed) (core, session.reader.unread) ∧
      core.emitted = session.returned := by
    cases tracks with
    | idle inside fine rstack reply reaches => exact ⟨_, reaches, rfl⟩
    | busy core shows rstack reaches waits =>
      exact ⟨core, reaches, (shows.here.resolve_right fun done => rstack done.1).2.2.2⟩
    | failed error rest reader reaches =>
      rw [reader] at fine
      cases fine
  have there : ∃ core rest, (stackReader doubles calloc).Reaches ({}, session.fed) (core, rest) ∧
      core.emitted = session.returned ++ [obj] ∧ reader.unread.length ≤ rest.length := by
    cases next with
    | idle inside fine rstack reply reaches => exact ⟨_, _, reaches, rfl, le_refl _⟩
    | busy core shows rstack reaches waits =>
      exact ⟨core, _, reaches, (shows.here.resolve_right fun done => rstack done.1).2.2.2, le_refl _⟩
    | failed error rest reader reaches =>
      dsimp only at reader
      exact ⟨_, rest, reaches, rfl, by rw [reader]; exact Nat.zero_le _⟩
  obtain ⟨core, reaches, emitted⟩ := here
  obtain ⟨after, rest, reaches', emitted', bound⟩ := there
  rcases Relation.ReflTransGen.total_of_right_unique Incremental.rightUnique reaches reaches' with onward | back
  · have pays := reaches_pays doubles calloc onward
    dsimp only at pays
    rw [emitted, emitted', List.length_append, List.length_singleton] at pays
    omega
  · have less := (reaches_emitted doubles calloc back).length_le
    rw [emitted, emitted', List.length_append, List.length_singleton] at less
    omega

/-- A reader fails only on a stream that has an error behind its replies. -/
theorem Tracks.fine (tracks : Tracks doubles calloc session) (sound : (replies doubles calloc session.fed).2 = none) :
    session.reader.err = none := by
  cases tracks with
  | idle inside fine rstack reply reaches => exact fine
  | busy core shows rstack reaches waits => exact shows.fine
  | failed error rest reader reaches =>
    obtain ⟨-, halt⟩ := replies_of_settled reaches rfl
    rw [sound] at halt
    cases halt

/-- A session that has lost nothing and can go on. -/
def Healthy (doubles : Doubles δ) (calloc : ℕ → Bool) (session : Option (Session δ)) : Prop :=
  ∃ here, session = some here ∧ here.reader.buf.length < 2147483648 ∧ Tracks doubles calloc here

theorem step_healthy (modest : Modest calloc) {session : Option (Session δ)} {call : Call}
    (healthy : Healthy doubles calloc session) (fits : Fits session call) :
    Healthy doubles calloc (step doubles calloc session call) := by
  obtain ⟨here, rfl, small, tracks⟩ := healthy
  cases call with
  | feed buf =>
    refine ⟨_, rfl, ?_, feed_tracks tracks buf⟩
    have grown := fits here rfl
    dsimp only [redisReaderFeed]
    split_ifs
    · exact small
    · rw [List.length_append]
      exact grown
  | getReply =>
    obtain ⟨status, reply, reader, answered, -, shorter, tracks⟩ := getReply_answers modest small tracks
    refine ⟨_, ?_, shorter.trans_lt small, tracks⟩
    rw [step, Option.bind_some, Session.call, answered]
    rfl

theorem sessions_healthy (modest : Modest calloc) {calls : List Call}
    (fits : Along (step doubles calloc) Fits (some ({} : Session δ)) calls) :
    Always (step doubles calloc) (Healthy doubles calloc) (some ({} : Session δ)) calls := by
  have start : Healthy doubles calloc (some ({} : Session δ)) :=
    ⟨{}, rfl, Nat.succ_pos _, .idle (le_refl _) rfl rfl rfl (.refl _)⟩
  exact always_of_along (fun session call => step_healthy modest) start fits

theorem Healthy.exact (modest : Modest calloc) {session : Option (Session δ)}
    (healthy : Healthy doubles calloc session) :
    ∃ here, session = some here ∧ Exact doubles calloc here := by
  obtain ⟨here, rfl, small, tracks⟩ := healthy
  obtain ⟨status, reply, reader, answered, next, -, -⟩ := getReply_answers modest small tracks
  exact ⟨here, rfl, tracks.within, status, reply, reader, answered, next⟩

/-- The bytes that the calls of a session bring. -/
def brought : List Call → ℕ
  | [] => 0
  | .feed buf :: calls => buf.length + brought calls
  | .getReply :: calls => brought calls

theorem fits_of_tracks (modest : Modest calloc) (tracks : Tracks doubles calloc session) {calls : List Call}
    (short : session.reader.buf.length + brought calls < 2147483648) :
    Along (step doubles calloc) Fits (some session) calls := by
  induction calls generalizing session with
  | nil => trivial
  | cons call calls ih =>
    cases call with
    | feed buf =>
      rw [brought] at short
      constructor
      · rintro _ ⟨⟩
        omega
      · refine ih (feed_tracks tracks buf) ?_
        dsimp only [redisReaderFeed]
        split_ifs
        · dsimp only
          omega
        · dsimp only
          rw [List.length_append]
          omega
    | getReply =>
      rw [brought] at short
      obtain ⟨status, reply, reader, answered, -, shorter, tracks⟩ := getReply_answers modest (by omega) tracks
      refine ⟨trivial, ?_⟩
      rw [step, Option.bind_some, Session.call, answered, Option.map_some]
      exact ih tracks (by dsimp only; omega)

/-- Calls that bring less than 2^31 bytes in all fit. -/
theorem fits_of_short (modest : Modest calloc) {calls : List Call} (short : brought calls < 2147483648) :
    Along (step doubles calloc) Fits (some ({} : Session δ)) calls :=
  fits_of_tracks modest (.idle (le_refl _) rfl rfl rfl (.refl _))
    (by rwa [show (({} : Session δ).reader.buf.length) = 0 from rfl, Nat.zero_add])

/-- Doubles that are their texts. -/
def textual : Doubles CppString := ⟨Model.RedisCpp.text "inf", Model.RedisCpp.text "-inf", some⟩

end CppRedis.Soundness.ReplyStream
