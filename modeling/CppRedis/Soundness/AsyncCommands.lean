import CppRedis.Model.Hiredis.Async
import CppRedis.Soundness.Pipelining

/-! # What an asynchronous connection makes of a command

A formatted command is taken apart again to see what it is: the arguments that are found in it are the words that it was
formatted of, and the kind of the command depends on the first of them alone.
-/

namespace CppRedis.Soundness.AsyncCommands

open Machine Model.Hiredis Formatting
open Model.RedisCpp (text)

theorem strchr_append {front : CppString} {byte : UInt8} (rest : CppString) (nonzero : byte ≠ 0)
    (others : ∀ other ∈ front, other ≠ 0 ∧ other ≠ byte) : strchr (front ++ byte :: rest) byte =
      some (byte :: rest) := by
  have zeros : ∀ other ∈ front, decide (other ≠ 0) = true := fun other member => decide_eq_true (others other member).1
  have skips : ∀ other ∈ front, decide (other ≠ byte) = true :=
    fun other member => decide_eq_true (others other member).2
  have there : byte ∈ (front ++ byte :: rest).takeWhile (· ≠ 0) := by
    rw [List.takeWhile_append_of_pos zeros, List.takeWhile_cons_of_pos (by simpa using nonzero)]
    simp
  rw [strchr, if_pos there, List.dropWhile_append_of_pos skips, List.dropWhile_cons_of_neg (by simp)]

theorem decimal_others {byte : UInt8} (other : Model.RedisClient.isDigit byte = false) (value : ℕ) :
    ∀ digit ∈ decimal value, digit ≠ 0 ∧ digit ≠ byte := by
  intro digit member
  constructor
  · rintro rfl
    exact Numerals.notMem_convertToString (by decide) value member
  · rintro rfl
    exact Numerals.notMem_convertToString other value member

theorem encode_string (word rest : CppString) :
    (Value.string word).encode ++ rest = 36 :: (decimal word.length ++ 13 :: 10 :: (word ++ (crlf ++ rest))) := by
  simp [Value.encode, crlf]

/-- An argument is found at its place. -/
theorem nextArgument_string {word : CppString} (small : word.length < 2147483648) (rest : CppString) :
    nextArgument ((Value.string word).encode ++ rest) = .argument (word ++ (crlf ++ rest)) word.length rest := by
  have number : Model.RedisClient.leadingNumber (decimal word.length ++ 13 :: 10 :: (word ++ (crlf ++ rest))) =
      word.length := Numerals.leadingNumber_convertToString_append word.length (by simp; decide)
  have long : Model.RedisClient.strtol (decimal word.length ++ 13 :: 10 :: (word ++ (crlf ++ rest))) = word.length := by
    rw [Model.RedisClient.strtol_of_lt (by omega) (by omega), number]
  have line : strchr (36 :: (decimal word.length ++ 13 :: 10 :: (word ++ (crlf ++ rest)))) 13 =
      some (13 :: 10 :: (word ++ (crlf ++ rest))) := by
    rw [← List.cons_append]
    refine strchr_append _ (by decide) fun other member => ?_
    rcases List.mem_cons.mp member with rfl | digit
    · decide
    · exact decimal_others (by decide) _ other digit
  have cast : toInt word.length = word.length := ReplyStream.toInt_of_lt (by omega) (by omega)
  have room : word.length + 4 ≤ (13 :: 10 :: (word ++ (crlf ++ rest))).length := by
    simp only [List.length_cons, List.length_append, crlf]
    omega
  have behind : (13 :: 10 :: (word ++ (crlf ++ rest))).drop (word.length + 4) = rest := by
    simp [crlf, List.drop_append]
  rw [nextArgument, encode_string, List.headD_cons, if_pos rfl]
  simp only [List.tail_cons, long, cast, line, Int.toNat_natCast]
  rw [if_pos ⟨by omega, room⟩, behind]
  rfl

/-- The first argument of a command. -/
theorem nextArgument_command {word : CppString} (small : word.length < 2147483648) (words : List CppString) :
    nextArgument (command (word :: words)) = .argument (word ++ (crlf ++ bulks words)) word.length (bulks words) := by
  have start : strchr (command (word :: words)) 36 = some (bulks (word :: words)) := by
    rw [command_eq, bulks_cons, encode_string]
    refine strchr_append _ (by decide) fun other member => ?_
    simp only [List.mem_append, List.mem_cons, crlf, List.not_mem_nil, or_false] at member
    rcases member with (rfl | digit) | rfl | rfl
    · decide
    · exact decimal_others (by decide) _ other digit
    · decide
    · decide
  have other : (command (word :: words)).headD 0 ≠ 36 := by
    rw [command_eq, List.append_assoc, List.append_assoc, List.singleton_append, List.headD_cons]
    decide
  have first := nextArgument_string small (bulks words)
  rw [← bulks_cons] at first
  have front : (bulks (word :: words)).headD 0 = 36 := by
    rw [bulks_cons, encode_string, List.headD_cons]
  rw [nextArgument, if_pos front] at first
  rw [nextArgument, if_neg other, start]
  exact first

/-- Whether there is an argument. -/
theorem headD_bulks (words : List CppString) : (bulks words).headD 0 = 36 ↔ words ≠ [] := by
  cases words with
  | nil => simp [bulks]
  | cons word words => simp [encode_string]

/-- A name without the letter that makes it one of patterns. -/
def unprefixed (name : CppString) : CppString := if toLower (name.headD 0) = 112 then name.tail else name

/-- What the code compares with the names of the commands that it knows, with a line end behind both. -/
theorem startsAs_line (name word rest : CppString) (letters : ∀ byte ∈ word, byte ≠ 13) :
    startsAs (name ++ (crlf ++ rest)) (word ++ crlf) = startsAs (name ++ crlf) (word ++ crlf) := by
  induction word generalizing name with
  | nil =>
    rcases name with _ | ⟨first, _ | ⟨second, name⟩⟩ <;> simp [startsAs, crlf]
  | cons letter word ih =>
    have here := letters letter List.mem_cons_self
    have later := fun name => ih name fun byte member => letters byte (List.mem_cons_of_mem _ member)
    cases name with
    | nil =>
      have apart : (toLower 13 == letter) = false := beq_false_of_ne fun same => here (same.symm.trans (by decide))
      simp [startsAs, crlf, apart]
    | cons first name =>
      have rest := later name
      simp only [startsAs, List.cons_append, List.length_cons, List.take_succ_cons, List.map_cons] at rest ⊢
      rw [List.cons_beq_cons, List.cons_beq_cons, rest]

/-- The kinds of commands that the code tells apart; channels and patterns make the two kinds of subscriptions. -/
inductive Kind where
  | subscribe
  | unsubscribe
  | monitor
  | regular
deriving DecidableEq

/-- The kind of a command, by its words. A command has a name, else the code ends in an assertion. -/
def kindOf : List CppString → Option Kind
  | [] => none
  | name :: words =>
      if words ≠ [] ∧ startsAs (unprefixed name ++ crlf) (text "subscribe\r\n") then some .subscribe
      else if startsAs (unprefixed name ++ crlf) (text "unsubscribe\r\n") then some .unsubscribe
      else if startsAs (unprefixed name ++ crlf) (text "monitor\r\n") then some .monitor
      else some .regular

theorem startsAs_word (name rest : CppString) :
    startsAs (name ++ (crlf ++ rest)) (text "subscribe\r\n") = startsAs (name ++ crlf) (text "subscribe\r\n") ∧
      startsAs (name ++ (crlf ++ rest)) (text "unsubscribe\r\n") = startsAs (name ++ crlf) (text "unsubscribe\r\n") ∧
      startsAs (name ++ (crlf ++ rest)) (text "monitor\r\n") = startsAs (name ++ crlf) (text "monitor\r\n") :=
  ⟨startsAs_line name (text "subscribe") rest (by decide +kernel),
    startsAs_line name (text "unsubscribe") rest (by decide +kernel),
    startsAs_line name (text "monitor") rest (by decide +kernel)⟩

/-- The name that the code compares, and whether it is one of patterns. -/
theorem unprefixed_append (name rest : CppString) :
    (if toLower ((name ++ (crlf ++ rest)).headD 0) = 112 then (name ++ (crlf ++ rest)).tail
      else name ++ (crlf ++ rest)) =
        unprefixed name ++ (crlf ++ rest) ∧
      (toLower ((name ++ (crlf ++ rest)).headD 0) = 112 ↔ toLower (name.headD 0) = 112) := by
  cases name with
  | nil =>
    have line : (([] : CppString) ++ (crlf ++ rest)).headD 0 = 13 := rfl
    rw [line]
    exact ⟨rfl, by decide⟩
  | cons first name =>
    rw [unprefixed, List.cons_append, List.headD_cons, List.headD_cons]
    refine ⟨?_, .rfl⟩
    split_ifs <;> rfl

variable {δ Fn Priv υ : Type}

/-- A command in the output buffer. -/
def put (ac : RedisAsyncContext δ Fn Priv υ) (argv : List CppString) : RedisAsyncContext δ Fn Priv υ :=
  { ac with c := { ac.c with obuf := ac.c.obuf ++ command argv }, writing := true }

/-- A command that was taken. -/
def accept (ac : RedisAsyncContext δ Fn Priv υ) (fn : Option Fn) (privdata : Priv) (argv : List CppString) :
    RedisAsyncContext δ Fn Priv υ :=
  { ac with history := { ac.history with accepted := ac.history.accepted ++ [(fn, privdata, argv)] } }

/-- What `__redisAsyncCommand` makes of a command of that kind. -/
def issue (kind : Kind) (fn : Option Fn) (privdata : Priv) (name : CppString) (words : List CppString) :
    Async δ Fn Priv υ Status := do
  let ac ← get
  match kind with
  | .subscribe => do
      modify fun ac => { ac with subscribed := true }
      Async.subscribeFrom (toLower (name.headD 0) = 112) ((bulks words).length + 1) ⟨fn, 1, privdata⟩ (bulks words)
      Async.appendCommand (command (name :: words))
  | .unsubscribe => if ac.subscribed then Async.appendCommand (command (name :: words)) else return .err
  | .monitor => do
      modify fun ac => { ac with monitoring := true }.pushReply ⟨fn, 1, privdata⟩
      Async.appendCommand (command (name :: words))
  | .regular => do
      modify fun ac => if ac.subscribed then ac.pushInvalid ⟨fn, 1, privdata⟩ else ac.pushReply ⟨fn, 1, privdata⟩
      Async.appendCommand (command (name :: words))

/-- A command is refused before the connection ends, and is else what its kind makes of it. -/
def request (kind : Kind) (fn : Option Fn) (privdata : Priv) (name : CppString) (words : List CppString) :
    Async δ Fn Priv υ Status := do
  let ac ← get
  if ac.disconnecting ∨ ac.freeing then return .err else issue kind fn privdata name words

theorem redisAsyncFormatted_eq {fn : Option Fn} {privdata : Priv} {name : CppString} {words : List CppString}
    (small : name.length < 2147483648) {kind : Kind} (known : kindOf (name :: words) = some kind) :
    (Async.redisAsyncFormatted fn privdata (command (name :: words)) (command (name :: words)).length :
      Async δ Fn Priv υ Status) = request kind fn privdata name words := by
  obtain ⟨first, letter⟩ := unprefixed_append name (bulks words)
  obtain ⟨subscribe, unsubscribe, monitor⟩ := startsAs_word (unprefixed name) (bulks words)
  funext ac
  rw [Async.redisAsyncFormatted, request, Program.bind_apply, Program.bind_apply, Program.get_apply]
  dsimp only
  by_cases closing : ac.disconnecting ∨ ac.freeing
  · rw [if_pos closing, if_pos closing]
  rw [if_neg closing, if_neg closing, nextArgument_command small]
  simp only [first, decide_eq_decide.mpr letter, headD_bulks, List.take_length, subscribe, unsubscribe, monitor]
  rw [kindOf] at known
  split_ifs at known with one two three
  · cases known
    rw [if_pos one]
    rfl
  · cases known
    rw [if_neg one, if_pos two]
    rfl
  · cases known
    rw [if_neg one, if_neg two, if_pos three]
    rfl
  · cases known
    rw [if_neg one, if_neg two, if_neg three]
    rfl

theorem redisAsyncCommandArgv_eq {fn : Option Fn} {privdata : Priv} {name : CppString} {words : List CppString}
    (small : (command (name :: words)).length < 2147483647) {kind : Kind} (known : kindOf (name :: words) = some kind) :
    (Async.redisAsyncCommandArgv fn privdata (name :: words) : Async δ Fn Priv υ Status) = do
      let status ← request kind fn privdata name words
      if status = .ok then modify fun ac => accept ac fn privdata (name :: words)
      return status := by
  have count : (name :: words).length < 2147483648 := (count_lt_command _).trans (by omega)
  have each : ∀ arg ∈ name :: words, arg.length < 4294967296 :=
    fun arg member => (argument_lt_command member).trans (by omega)
  have cast : toInt (command (name :: words)).length = (command (name :: words)).length :=
    ReplyStream.toInt_of_lt (by omega) (by omega)
  have inside : name ∈ name :: words := List.mem_cons_self
  have short := argument_lt_command inside
  rw [Async.redisAsyncCommandArgv, redisFormatSdsCommandArgv_eq count each, cast]
  dsimp only
  rw [if_neg (by omega), Int.toNat_natCast, redisAsyncFormatted_eq (by omega) known]
  rfl

/-- Commands that neither subscribe nor monitor, of a size that an `int` holds. -/
def Plain (argv : List CppString) : Prop :=
  (command argv).length < 2147483647 ∧ (kindOf argv = some .regular ∨ kindOf argv = some .unsubscribe)

instance (argv : List CppString) : Decidable (Plain argv) := by
  unfold Plain
  infer_instance

/-- What a connection without subscriptions makes of a plain command. -/
theorem redisAsyncCommandArgv_plain {ac : RedisAsyncContext δ Fn Priv υ} (regular : ac.subscribed = false)
    {argv : List CppString} (plain : Plain argv) (fn : Option Fn) (privdata : Priv) :
    Async.redisAsyncCommandArgv fn privdata argv ac =
      .ok (if ac.disconnecting ∨ ac.freeing ∨ kindOf argv = some .unsubscribe then (.err, ac)
        else (.ok, accept (put (ac.pushReply ⟨fn, 1, privdata⟩) argv) fn privdata argv)) := by
  obtain ⟨small, known⟩ := plain
  cases argv with
  | nil => simp [kindOf] at known
  | cons name words =>
    by_cases closing : ac.disconnecting ∨ ac.freeing
    · rw [if_pos (or_assoc.mp (.inl closing))]
      rcases known with known | known
      all_goals
        rw [redisAsyncCommandArgv_eq small known, Program.bind_apply, request, Program.bind_apply, Program.get_apply]
        dsimp only
        rw [if_pos closing]
        rfl
    · rcases known with known | known
      · rw [known, if_neg (by simpa using closing), redisAsyncCommandArgv_eq small known, Program.bind_apply, request,
          Program.bind_apply, Program.get_apply]
        dsimp only
        rw [if_neg closing, issue, Program.bind_apply, Program.get_apply]
        dsimp only
        rw [Program.bind_apply, Program.modify_apply]
        dsimp only
        rw [if_neg (by rw [regular]; exact Bool.false_ne_true)]
        rfl
      · rw [known, if_pos (.inr (.inr rfl)), redisAsyncCommandArgv_eq small known, Program.bind_apply, request,
          Program.bind_apply, Program.get_apply]
        dsimp only
        rw [if_neg closing, issue, Program.bind_apply, Program.get_apply]
        dsimp only
        rw [if_neg (by rw [regular]; exact Bool.false_ne_true)]
        rfl

end CppRedis.Soundness.AsyncCommands
