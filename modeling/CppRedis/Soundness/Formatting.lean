import CppRedis.Model.Hiredis.Format
import CppRedis.Soundness.ReplyRoundTrip

/-! # Commands as the server reads them

A formatted command is the array of its words, so the grammar of the reader finds these words in it and nothing behind
them. The words of a format are laid out by the format: an argument fills its place and can neither end a word
nor begin one.
-/

namespace CppRedis.Soundness.Formatting

open Machine Model.Hiredis ReplyRoundTrip
open Model.RedisClient (convertToString)
open Model.RedisCpp (text)

theorem countDigits_eq (v : ℕ) : countDigits v = (Decimal.write v).length := by
  induction v using Nat.strongRecOn with
  | ind v ih =>
    have many (count : ℕ) (low : 10 ^ count ≤ v) (high : v < 10 ^ (count + 1)) :
        (Decimal.write v).length = count + 1 := Decimal.length_write low high
    rw [countDigits]
    split_ifs with one two three four
    · exact (Decimal.length_write_of_lt one).symm
    · exact (many 1 (by omega) (by omega)).symm
    · exact (many 2 (by omega) (by omega)).symm
    · exact (many 3 (by omega) (by omega)).symm
    · have rest : (Decimal.write v).length = (Decimal.write (v / 10000)).length + 4 :=
        Decimal.length_write_div 4 (not_lt.mp four)
      rw [ih _ (by omega), rest]

theorem convertToString_natCast (value : ℕ) : convertToString value = Decimal.write value :=
  Integers.convertToString_of_nonneg (Int.natCast_nonneg value)

theorem decimal_eq (value : ℕ) : decimal value = Decimal.write value := convertToString_natCast value

/-- The bytes of a command. -/
def command (words : List CppString) : CppString := (Value.command words).encode

/-- The arguments of a command. -/
def bulks (words : List CppString) : CppString := (words.map fun word => (Value.string word).encode).flatten

@[simp] theorem bulks_nil : bulks [] = [] := rfl

@[simp] theorem bulks_cons (word : CppString) (words : List CppString) :
    bulks (word :: words) = (Value.string word).encode ++ bulks words := rfl

theorem length_string (word : CppString) : (Value.string word).encode.length = bulklen word.length := by
  simp only [Value.encode, crlf, List.length_append, List.length_cons, List.length_nil, decimal_eq,
    bulklen, countDigits_eq]

theorem command_eq (words : List CppString) :
    command words = [42] ++ decimal words.length ++ crlf ++ bulks words := by
  have elements : ∀ words : List CppString,
      Value.encodeAll (words.map .string) = bulks words := by
    intro words
    induction words with
    | nil => rfl
    | cons word words ih => rw [List.map_cons, Value.encodeAll, bulks_cons, ih]
  rw [command, Value.command, Value.encode, elements, List.length_map]
  rfl

theorem length_command (words : List CppString) :
    (command words).length = 1 + countDigits words.length + 2 + (words.map fun word => bulklen word.length).sum := by
  simp only [command_eq, bulks, List.length_append, List.length_flatten, List.map_map, Function.comp_def,
    length_string, crlf,
    List.length_cons, List.length_nil, decimal_eq, countDigits_eq]

theorem argument_lt_command {argv : List CppString} {arg : CppString} (member : arg ∈ argv) :
    arg.length < (command argv).length := by
  have part := List.single_le_sum (by simp) _ (List.mem_map_of_mem (f := fun word => bulklen word.length) member)
  have total := length_command argv
  rw [bulklen] at part
  omega

theorem count_lt_command (argv : List CppString) : argv.length < (command argv).length := by
  have most : argv.length ≤ (argv.map fun word => bulklen word.length).sum := by
    rw [← List.length_map (fun word : CppString => bulklen word.length)]
    refine List.length_le_sum_of_one_le _ fun length member => ?_
    obtain ⟨word, -, rfl⟩ := List.mem_map.mp member
    rw [bulklen]
    omega
  have total := length_command argv
  omega

/-- Casts on the way do not matter for the cast at the end. -/
theorem foldl_toInt (words : List CppString) (start : ℤ) :
    toInt (words.foldl (fun totlen arg => toInt (totlen + bulklen arg.length)) start) =
      toInt (start + (words.map fun word => bulklen word.length).sum) := by
  induction words generalizing start with
  | nil => simp
  | cons word words ih =>
    rw [List.foldl_cons, ih, List.map_cons, List.sum_cons]
    simp only [toInt, Int.bmod_add_bmod, Nat.cast_add, Int.add_assoc]

section

variable {capacity : ℕ}

theorem memcpy_of_le {cmd str : CppString} (fits : cmd.length + str.length ≤ capacity) :
    memcpy capacity cmd str = some (cmd ++ str) := if_pos fits

theorem memcpy_of_lt {cmd str : CppString} (large : capacity < cmd.length + str.length) :
    memcpy capacity cmd str = none := if_neg (not_le.mpr large)

/-- Two copies are one. -/
theorem memcpy_bind (cmd first second : CppString) :
    (memcpy capacity cmd first).bind (memcpy capacity · second) = memcpy capacity cmd (first ++ second) := by
  by_cases fits : cmd.length + first.length ≤ capacity
  · rw [memcpy_of_le fits, Option.bind_some, memcpy, memcpy]
    simp only [List.length_append, List.append_assoc, Nat.add_assoc]
  · rw [memcpy_of_lt (not_le.mp fits), memcpy_of_lt (by rw [List.length_append]; omega)]
    rfl

/-- The zero behind a text does no harm where something is copied over it. -/
theorem sprintf_bind (cmd first : CppString) {second : CppString} (more : second ≠ []) :
    (sprintf capacity cmd first).bind (memcpy capacity · second) = memcpy capacity cmd (first ++ second) := by
  have positive := List.length_pos_iff.mpr more
  by_cases fits : cmd.length + first.length + 1 ≤ capacity
  · rw [sprintf, if_pos fits, Option.bind_some, memcpy, memcpy]
    simp only [List.length_append, List.append_assoc, Nat.add_assoc]
  · rw [sprintf, if_neg fits, memcpy_of_lt (by rw [List.length_append]; omega)]
    rfl

/-- An argument is copied in one. -/
theorem putArgument_eq (cmd arg : CppString) :
    putArgument capacity cmd arg = memcpy capacity cmd (Value.string arg).encode := by
  have bytes : (Value.string arg).encode =
      text "$" ++ convertToString arg.length ++ text "\r\n" ++ (arg ++ ([13] ++ [10])) := by
    rw [Value.encode, List.append_assoc _ arg crlf]
    rfl
  rw [bytes, ← sprintf_bind cmd _ (by simp), putArgument]
  congr 1
  funext cmd
  rw [← memcpy_bind cmd arg]
  congr 1
  funext cmd
  exact memcpy_bind cmd [13] [10]

theorem putArguments_eq {cmd : CppString} (inside : cmd.length ≤ capacity) (argv : List CppString) :
    argv.foldlM (putArgument capacity) cmd =
      memcpy capacity cmd (bulks argv) := by
  induction argv generalizing cmd with
  | nil =>
    rw [bulks_nil, memcpy_of_le (by rw [List.length_nil]; exact inside), List.append_nil]
    rfl
  | cons arg argv ih =>
    rw [List.foldlM_cons, putArgument_eq, bulks_cons, ← memcpy_bind]
    by_cases fits : cmd.length + (Value.string arg).encode.length ≤ capacity
    · rw [memcpy_of_le fits]
      exact ih (by rw [List.length_append]; exact fits)
    · rw [memcpy_of_lt (not_le.mp fits)]
      rfl

/-- A command is built where it fits with the zero behind it. -/
theorem buildCommand_eq (malloc : ℕ → Bool) (argv : List CppString) :
    buildCommand malloc (toInt (command argv).length) argv =
      if malloc (toInt (toInt (command argv).length + 1) % 2 ^ 64).toNat = true then
        if (command argv).length + 1 ≤ (toInt (toInt (command argv).length + 1) % 2 ^ 64).toNat then
          some (toInt (command argv).length, command argv)
        else none
      else some (-1, []) := by
  generalize measured : toInt (command argv).length = totlen
  generalize given : (toInt (totlen + 1) % 2 ^ 64).toNat = capacity
  have bytes : command argv = text "*" ++ convertToString argv.length ++ text "\r\n" ++
      bulks argv := command_eq argv
  rw [buildCommand, given]
  generalize text "*" ++ convertToString argv.length ++ text "\r\n" = head at bytes
  have total : (command argv).length = head.length + (bulks argv).length := by
    rw [bytes, List.length_append]
  by_cases granted : malloc capacity = true
  · rw [if_neg (by rw [granted]; simp), if_pos granted]
    by_cases opened : head.length + 1 ≤ capacity
    · rw [sprintf, List.length_nil, Nat.zero_add, if_pos opened, Option.bind_eq_bind, Option.bind_some, List.nil_append,
        putArguments_eq (by omega)]
      by_cases copied : (command argv).length ≤ capacity
      · rw [memcpy_of_le (by omega), ← bytes, Option.bind_some, if_pos measured]
        by_cases closed : (command argv).length + 1 ≤ capacity
        · rw [if_pos closed, memcpy_of_le closed]
          rfl
        · rw [if_neg closed, memcpy_of_lt (not_le.mp closed)]
          rfl
      · rw [memcpy_of_lt (by omega), if_neg (by omega)]
        rfl
    · rw [sprintf, List.length_nil, Nat.zero_add, if_neg opened, if_neg (by omega)]
      rfl
  · rw [if_pos (by rw [Bool.eq_false_iff.mpr granted]; rfl), if_neg granted]

/-- No memory of 2^63 bytes. -/
def Finite (malloc : ℕ → Bool) : Prop := ∀ size, malloc size = true → size < 9223372036854775808

/-- The memory that a length asks for. -/
def commandMemory (total : ℕ) : ℕ := (toInt (toInt total + 1) % 2 ^ 64).toNat

theorem commandMemory_of_lt {total : ℕ} (small : total < 2147483647) : commandMemory total = total + 1 := by
  have cast : toInt total = total := ReplyStream.toInt_of_lt (by omega) (by omega)
  have next : toInt (total + 1) = total + 1 := ReplyStream.toInt_of_lt (by omega) (by omega)
  rw [commandMemory, cast, next]
  omega

/-- A length that an `int` does not hold asks for too little, or for more than there is. -/
theorem commandMemory_of_le {total : ℕ} (large : 2147483647 ≤ total) :
    commandMemory total ≤ total ∨ 9223372036854775808 ≤ commandMemory total := by
  rw [commandMemory]
  have low : -2147483648 ≤ toInt (toInt total + 1) := Int.le_bmod (by decide)
  have high : toInt (toInt total + 1) < 2147483648 := Int.bmod_lt (by decide)
  have other : toInt (toInt total + 1) = toInt ((total : ℤ) + 1) := Int.bmod_add_bmod
  by_cases same : total = 2147483647
  · subst same
    exact .inr (by decide)
  · omega

/-- A command is written whole where its length and the zero behind it are within an `int`, and past its memory
elsewhere. -/
theorem buildCommand_spec {malloc : ℕ → Bool} (finite : Finite malloc) (argv : List CppString) :
    buildCommand malloc (toInt (command argv).length) argv =
      if malloc (commandMemory (command argv).length) = true then
        if (command argv).length < 2147483647 then some (((command argv).length : ℤ), command argv) else none
      else some (-1, []) := by
  rw [buildCommand_eq, ← commandMemory]
  by_cases granted : malloc (commandMemory (command argv).length) = true
  · rw [if_pos granted, if_pos granted]
    by_cases small : (command argv).length < 2147483647
    · have cast : toInt (command argv).length = (command argv).length := ReplyStream.toInt_of_lt (by omega) (by omega)
      rw [if_pos small, commandMemory_of_lt small, if_pos (le_refl _), cast]
    · have bounded := finite _ granted
      have wrapped := commandMemory_of_le (not_lt.mp small)
      rw [if_neg small, if_neg (by omega)]
  · rw [if_neg granted, if_neg granted]

theorem countDigits_le {v : ℕ} (small : v < 2147483648) : countDigits v ≤ 10 := by
  rw [countDigits_eq, Decimal.length_write_le_iff (by omega)]
  omega

theorem toInt_toInt (value : ℤ) : toInt (toInt value) = toInt value := Int.bmod_bmod

theorem redisFormatCommandArgv_eq (malloc : ℕ → Bool) {argv : List CppString} (count : argv.length < 2147483648) :
    redisFormatCommandArgv malloc argv = buildCommand malloc (toInt (command argv).length) argv := by
  have digits := countDigits_le count
  have start : toInt (1 + countDigits argv.length + 2) = 1 + countDigits argv.length + 2 :=
    ReplyStream.toInt_of_lt (by omega) (by omega)
  have within : ∀ (words : List CppString) (start : ℤ), toInt start = start →
      toInt (words.foldl (fun totlen arg => toInt (totlen + bulklen arg.length)) start) =
        words.foldl (fun totlen arg => toInt (totlen + bulklen arg.length)) start := by
    intro words
    induction words with
    | nil => exact fun start small => small
    | cons word words ih => exact fun start _ => ih _ (toInt_toInt _)
  rw [redisFormatCommandArgv, length_command, ← within argv _ start, foldl_toInt]
  simp only [Nat.cast_add, Nat.cast_one, Nat.cast_ofNat]

theorem reversedDigits_eq (v : ℕ) : (reversedDigits v).reverse = Decimal.write v := by
  have digit : ∀ value < 10, 48 + value.toUInt8 = Decimal.digit value := by decide
  induction v using Nat.strongRecOn with
  | ind v ih =>
    rw [reversedDigits]
    split_ifs with small
    · rw [List.reverse_singleton, digit v small, Decimal.write_of_lt small]
    · rw [List.reverse_cons, ih _ (by omega), digit _ (Nat.mod_lt v (by decide)), Decimal.write_of_le (not_lt.mp small)]

theorem sdsull2str_eq (v : UInt64) : sdsull2str v = Decimal.write v.toNat := reversedDigits_eq v.toNat

/-- `sdsll2str` writes what `ll2string` writes. -/
theorem sdsll2str_eq (value : Int64) : sdsll2str value = convertToString value.toInt := by
  have magnitude : (if value < 0 then (-value).toUInt64 else value.toUInt64) = Model.R3c.Utils.magnitude value := by
    rw [Model.R3c.Utils.magnitude]
    by_cases least : value = Int64.minValue
    · rw [least]
      decide
    · rw [if_pos least]
  have zero : value < 0 ↔ value.toInt < 0 := Int64.lt_iff_toInt_lt
  rw [sdsll2str, magnitude, List.reverse_append, reversedDigits_eq, Integers.magnitude_toNat,
    Integers.convertToString_eq]
  by_cases negative : value < 0
  · rw [if_pos negative, if_pos (zero.mp negative)]
    rfl
  · rw [if_neg negative, if_neg (mt zero.mpr negative)]
    rfl

/-- The head of an argument, with the low half of its length. -/
theorem sdscatfmt_length (cmd : CppString) (len : UInt64) :
    sdscatfmt cmd (text "$%u\r\n") [.word len] = some (cmd ++ ([36] ++ Decimal.write len.toUInt32.toNat ++ crlf)) := by
  have fmt : text "$%u\r\n" = [36, 37, 117, 13, 10] := rfl
  have half : sdsull2str len.toUInt32.toUInt64 = Decimal.write len.toUInt32.toNat := sdsull2str_eq _
  rw [fmt, ← half]
  simp [sdscatfmt, FmtArg.convert, crlf]

theorem sdscatfmt_count (argc : UInt64) :
    sdscatfmt [] (text "*%i\r\n") [.word argc] =
      some ([42] ++ convertToString argc.toUInt32.toInt32.toInt ++ crlf) := by
  have fmt : text "*%i\r\n" = [42, 37, 105, 13, 10] := rfl
  have half : sdsll2str argc.toUInt32.toInt32.toInt64 = convertToString argc.toUInt32.toInt32.toInt := by
    rw [sdsll2str_eq, Int32.toInt_toInt64]
  rw [fmt, ← half]
  simp [sdscatfmt, FmtArg.convert, crlf]

theorem toInt_count {argc : ℕ} (small : argc < 2147483648) : argc.toUInt64.toUInt32.toInt32.toInt = argc := by
  rw [Nat.toUInt64, UInt64.toUInt32_ofNat', UInt32.toInt32_ofNat']
  exact Int32.toInt_ofNat_of_lt small

theorem toNat_length {len : ℕ} (small : len < 4294967296) : len.toUInt64.toUInt32.toNat = len := by
  rw [Nat.toUInt64, UInt64.toUInt32_ofNat']
  exact UInt32.toNat_ofNat_of_lt small

theorem sdsPutArgument_eq (cmd : CppString) {arg : CppString} (small : arg.length < 4294967296) :
    sdsPutArgument cmd arg = some (cmd ++ (Value.string arg).encode) := by
  have bytes : cmd ++ ([36] ++ Decimal.write arg.length ++ crlf) ++ arg ++ text "\r\n" =
      cmd ++ (Value.string arg).encode := by
    simp only [Value.encode, decimal_eq, List.append_assoc]
    rfl
  rw [sdsPutArgument, sdscatfmt_length, toNat_length small, ← bytes]
  rfl

theorem sdsPutArguments_eq {argv : List CppString} (cmd : CppString) (small : ∀ arg ∈ argv, arg.length < 4294967296) :
    argv.foldlM sdsPutArgument cmd = some (cmd ++ bulks argv) := by
  induction argv generalizing cmd with
  | nil => simp
  | cons arg argv ih =>
    rw [List.foldlM_cons, sdsPutArgument_eq cmd (small arg List.mem_cons_self), Option.bind_eq_bind, Option.bind_some,
      ih _ fun word member => small word (List.mem_cons_of_mem arg member), bulks_cons,
      List.append_assoc]

theorem foldl_bulklen (argv : List CppString) (start : ℕ) :
    argv.foldl (fun totlen arg => totlen + bulklen arg.length) start =
      start + (argv.map fun word => bulklen word.length).sum := by
  induction argv generalizing start with
  | nil => rfl
  | cons arg argv ih => rw [List.foldl_cons, ih, List.map_cons, List.sum_cons, Nat.add_assoc]

theorem redisFormatSdsCommandArgv_eq {argv : List CppString} (count : argv.length < 2147483648)
    (small : ∀ arg ∈ argv, arg.length < 4294967296) :
    redisFormatSdsCommandArgv argv = some (toInt (command argv).length, command argv) := by
  have bytes : command argv = [42] ++ Decimal.write argv.length ++ crlf ++ bulks argv := by
    rw [← decimal_eq]
    exact command_eq argv
  rw [redisFormatSdsCommandArgv, sdscatfmt_count, toInt_count count, convertToString_natCast, Option.bind_eq_bind,
    Option.bind_some, sdsPutArguments_eq _ small, ← bytes, Option.bind_some, foldl_bulklen,
    ← length_command, if_pos rfl]

variable {δ : Type} (doubles : Doubles δ) (calloc : ℕ → Bool)

/-- The reply that shows a command. -/
def commandReply (words : List CppString) : RedisReply δ := (Value.command words).object doubles

/-- A stream in which the grammar finds that command, and behind it the rest. -/
def ReadsAs (words : List CppString) (bytes : CppString) : Prop :=
  ∀ levels rest, value doubles calloc (levels + 1) (bytes ++ rest) = .done (commandReply doubles words) rest

variable {doubles calloc}

theorem command_writable (levels : ℕ) {words : List CppString} (small : (command words).length < 9223372036854775808)
    (granted : words ≠ [] → calloc words.length = true) :
    (Value.command words).Writable doubles calloc (levels + 1) := by
  have elements : ∀ words : List CppString, (∀ word ∈ words, word.length < 9223372036854775808) →
      Value.AllWritable doubles calloc levels (words.map .string) := by
    intro words
    induction words with
    | nil => simp [Value.AllWritable]
    | cons word words ih =>
      intro each
      rw [List.map_cons, Value.AllWritable, Value.Writable]
      exact ⟨each word List.mem_cons_self, ih fun other member => each other (List.mem_cons_of_mem word member)⟩
  rw [Value.command, Value.Writable, List.length_map]
  refine ⟨fun some => granted fun none => some (by rw [none]; rfl), (count_lt_command words).trans small, ?_,
    elements words fun word member => (argument_lt_command member).trans small⟩
  rintro ⟨⟩

theorem command_readsAs {words : List CppString} (small : (command words).length < 9223372036854775808)
    (granted : words ≠ [] → calloc words.length = true) : ReadsAs doubles calloc words (command words) :=
      fun levels rest =>
  value_encode (Value.command words) (levels + 1) (command_writable levels small granted) rest

variable (doubles calloc) in
/-- `redisFormatCommandArgv` leaves its memory for the commands that an `int` cannot measure, where memory of the
wrapped size is to be had. Every other command that it returns is read back as its arguments, and
`redisFormatSdsCommandArgv` returns the same. -/
theorem formatters_exact {malloc : ℕ → Bool} (finite : Finite malloc) {argv : List CppString}
    (count : argv.length < 2147483648) (granted : argv ≠ [] → calloc argv.length = true) :
    (redisFormatCommandArgv malloc argv = none ↔
      2147483647 ≤ (command argv).length ∧ malloc (commandMemory (command argv).length) = true) ∧
      ∀ len cmd, redisFormatCommandArgv malloc argv = some (len, cmd) → 0 ≤ len →
        len = cmd.length ∧ ReadsAs doubles calloc argv cmd ∧ redisFormatSdsCommandArgv argv = some (len, cmd) := by
  rw [redisFormatCommandArgv_eq malloc count, buildCommand_spec finite]
  by_cases there : malloc (commandMemory (command argv).length) = true
  · by_cases small : (command argv).length < 2147483647
    · rw [if_pos there, if_pos small]
      refine ⟨iff_of_false (by simp) fun large => absurd small (not_lt.mpr large.1), ?_⟩
      rintro len cmd same -
      obtain ⟨rfl, rfl⟩ := Prod.mk.inj (Option.some.inj same)
      have each : ∀ arg ∈ argv, arg.length < 4294967296 := fun arg member =>
        (argument_lt_command member).trans (by omega)
      have cast : toInt (command argv).length = (command argv).length := ReplyStream.toInt_of_lt (by omega) (by omega)
      exact ⟨rfl, command_readsAs (by omega) granted, by rw [redisFormatSdsCommandArgv_eq count each, cast]⟩
    · rw [if_pos there, if_neg small]
      exact ⟨iff_of_true rfl ⟨not_lt.mp small, there⟩, by rintro len cmd ⟨⟩⟩
  · rw [if_neg there]
    refine ⟨iff_of_false (by simp) fun large => there large.2, ?_⟩
    rintro len cmd same natural
    obtain ⟨rfl, -⟩ := Prod.mk.inj (Option.some.inj same)
    exact absurd natural (by decide)

end

/-- What a format has in one place. A conversion that is too long for its copy takes its argument and shows nothing. -/
inductive Token where
  | space
  | literal (byte : UInt8)
  | str
  | bytes
  | number (width : Width) (format : CppString)
  | skipped (width : Width)

/-- How a format ends: at its end, in front of a conversion that is not valid, or behind its terminator. -/
inductive Ending where
  | finished
  | invalid
  | beyond
deriving DecidableEq

/-- What a format of that many bytes at most has, one after the other. -/
def tokens : ℕ → CppString → List Token × Ending
  | 0, _ => ([], .finished)
  | _ + 1, [] => ([], .finished)
  | fuel + 1, c :: rest =>
      let next := fun (token : Token) (rest : CppString) => (token :: (tokens fuel rest).1, (tokens fuel rest).2)
      if c ≠ 37 ∨ rest = [] then
        if c = 32 then next .space rest else next (.literal c) rest
      else if rest.head? = some 115 then next .str rest.tail
      else if rest.head? = some 98 then next .bytes rest.tail
      else if rest.head? = some 37 then next (.literal 37) rest.tail
      else
        match specifier rest with
        | none => ([], .invalid)
        | some (width, p) =>
            let l := rest.length + 2 - p.length
            if l < 14 then
              if p = [] then ([], .beyond) else next (.number width ((c :: rest).take l)) p.tail
            else next (.skipped width) rest.tail

/-- The words that tokens make up, where some tokens of the first word are known. -/
def grouped : List Token → List Token → List (List Token)
  | word, [] => if word = [] then [] else [word]
  | word, .space :: rest => if word = [] then grouped [] rest else word :: grouped [] rest
  | word, token :: rest => grouped (word ++ [token]) rest

/-- The words of a format, each with the places for its arguments. -/
def layout (format : CppString) : List (List Token) := grouped [] (tokens format.length format).1

section

variable {ν : Type} (vsnprintf : CppString → ν → CppString)

/-- What a token shows of the arguments, and the arguments behind it. -/
def Token.render (token : Token) (args : List (Argument ν)) : Option (CppString × List (Argument ν)) :=
  match token with
  | .space => some ([], args)
  | .literal byte => some ([byte], args)
  | .str => (Argument.takePointer args).map fun (arg, args) => (cStr arg, args)
  | .bytes =>
      (Argument.takePointer args).bind fun (arg, args) =>
        (Argument.takeSize args).bind fun (size, args) =>
          if size ≤ arg.length then some (arg.take size, args) else none
  | .number width format =>
      (Argument.takeNumber width args).map fun (value, args) => (cStr (vsnprintf format value), args)
  | .skipped width => (Argument.takeNumber width args).map fun (_, args) => ([], args)

/-- A word with its arguments in place. -/
def fill : List Token → List (Argument ν) → Option (CppString × List (Argument ν))
  | [], args => some ([], args)
  | token :: rest, args =>
      (token.render vsnprintf args).bind fun (str, args) => (fill rest args).map fun (later, args) =>
        (str ++ later, args)

/-- Words with their arguments in place. -/
def fillAll : List (List Token) → List (Argument ν) → Option (List CppString)
  | [], _ => some []
  | word :: rest, args => (fill vsnprintf word args).bind fun (str, args) => (fillAll rest args).map (str :: ·)

/-- Tokens one after the other, as the loop takes them. -/
def takeTokens : List Token → List (Argument ν) → Words → Option Words
  | [], _, words => some words
  | .space :: rest, args, words => takeTokens rest args words.space
  | token :: rest, args, words =>
      (token.render vsnprintf args).bind fun (str, args) => takeTokens rest args (words.touch str)

/-- What the loop makes of an ending. -/
def Ending.result (ending : Ending) (words : Words) : Option (Option Words) :=
  match ending with
  | .finished => some (some words)
  | .invalid => some none
  | .beyond => none

/-- The loop takes the tokens of its format, whatever the arguments are. -/
theorem formatLoop_eq (fuel : ℕ) (c : CppString) (args : List (Argument ν)) (words : Words) :
    formatLoop vsnprintf fuel c args words =
      (takeTokens vsnprintf (tokens fuel c).1 args words).bind (tokens fuel c).2.result := by
  induction fuel generalizing c args words with
  | zero => rfl
  | succ fuel ih =>
    cases c with
    | nil => rfl
    | cons c rest =>
      rw [formatLoop, tokens]
      dsimp only
      by_cases plain : c ≠ 37 ∨ rest = []
      · by_cases space : c = 32
        · simp only [if_pos plain, if_pos space, ih, takeTokens]
        · simp only [if_pos plain, if_neg space, ih]
          rfl
      rw [if_neg plain, if_neg plain]
      by_cases isStr : rest.head? = some 115
      · simp only [if_pos isStr, ih, takeTokens, Token.render]
        cases Argument.takePointer args <;> rfl
      rw [if_neg isStr, if_neg isStr]
      by_cases isBytes : rest.head? = some 98
      · simp only [if_pos isBytes, ih, takeTokens, Token.render]
        rcases Argument.takePointer args with _ | ⟨arg, args⟩
        · rfl
        dsimp only [Option.bind_some]
        rcases Argument.takeSize args with _ | ⟨size, args⟩
        · rfl
        dsimp only [Option.bind_some]
        split_ifs <;> rfl
      rw [if_neg isBytes, if_neg isBytes]
      by_cases isPercent : rest.head? = some 37
      · simp only [if_pos isPercent, ih]
        rfl
      rw [if_neg isPercent, if_neg isPercent]
      rcases specifier rest with _ | ⟨width, p⟩
      · rfl
      dsimp only
      by_cases copied : rest.length + 2 - p.length < 14
      · by_cases beyond : p = []
        · simp only [if_pos copied, if_pos beyond]
          cases Argument.takeNumber width args <;> rfl
        · simp only [if_pos copied, if_neg beyond, ih, takeTokens, Token.render]
          cases Argument.takeNumber width args <;> rfl
      · simp only [if_neg copied, ih, takeTokens, Token.render]
        cases Argument.takeNumber width args <;> rfl

variable {vsnprintf}

theorem fill_append (word more : List Token) (args : List (Argument ν)) :
    fill vsnprintf (word ++ more) args =
      (fill vsnprintf word args).bind fun (str, args) =>
        (fill vsnprintf more args).map fun (later, args) => (str ++ later, args) := by
  induction word generalizing args with
  | nil =>
    rw [List.nil_append, fill, Option.bind_some]
    dsimp only
    cases fill vsnprintf more args <;> rfl
  | cons token word ih =>
    rw [List.cons_append, fill, fill]
    rcases token.render vsnprintf args with _ | ⟨str, args⟩
    · rfl
    · simp only [Option.bind_some, ih]
      rcases fill vsnprintf word args with _ | ⟨middle, args⟩
      · rfl
      · simp only [Option.bind_some, Option.map_some]
        cases fill vsnprintf more args <;> simp

theorem fill_singleton (token : Token) (args : List (Argument ν)) :
    fill vsnprintf [token] args = token.render vsnprintf args := by
  rw [fill]
  rcases token.render vsnprintf args with _ | ⟨str, args⟩
  · rfl
  · simp [fill]

theorem grouped_token {token : Token} (other : token ≠ .space) (word rest : List Token) :
    grouped word (token :: rest) = grouped (word ++ [token]) rest := by
  cases token <;> first | rfl | exact absurd rfl other

theorem takeTokens_token {token : Token} (other : token ≠ .space) (rest : List Token) (args : List (Argument ν))
    (words : Words) :
    takeTokens vsnprintf (token :: rest) args words =
      (token.render vsnprintf args).bind fun (str, args) => takeTokens vsnprintf rest args (words.touch str) := by
  cases token <;> first | rfl | exact absurd rfl other

/-- What is known of the first word stays in front of it. -/
theorem grouped_front {word : List Token} (some : word ≠ []) (rest : List Token) :
    ∃ more others, grouped word rest = (word ++ more) :: others := by
  induction rest generalizing word with
  | nil => exact ⟨[], [], by rw [grouped, if_neg some, List.append_nil]⟩
  | cons token rest ih =>
    by_cases space : token = .space
    · subst space
      exact ⟨[], grouped [] rest, by rw [grouped, if_neg some, List.append_nil]⟩
    · obtain ⟨more, others, front⟩ := @ih (word ++ [token]) (by simp)
      exact ⟨token :: more, others, by rw [grouped_token space, front, List.append_assoc]; rfl⟩

/-- Taking the tokens fills the words of their layout. -/
theorem takeTokens_grouped (rest : List Token) {word : List Token} {start args : List (Argument ν)} {words : Words}
    (filled : fill vsnprintf word start = some (words.curarg, args)) (touched : words.touched = true ↔ word ≠ []) :
    (takeTokens vsnprintf rest args words).map (·.space.curargv) =
      (fillAll vsnprintf (grouped word rest) start).map (words.curargv ++ ·) := by
  induction rest generalizing word start args words with
  | nil =>
    rw [takeTokens, grouped, Option.map_some, Words.space]
    by_cases empty : word = []
    · rw [if_neg (mt touched.mp (not_not.mpr empty)), if_pos empty, fillAll, Option.map_some, List.append_nil]
    · rw [if_pos (touched.mpr empty), if_neg empty, fillAll, filled]
      rfl
  | cons token rest ih =>
    by_cases space : token = .space
    · subst space
      rw [takeTokens, grouped, Words.space]
      by_cases empty : word = []
      · subst empty
        obtain ⟨same, rfl⟩ := Prod.mk.inj (Option.some.inj filled)
        rw [if_neg (mt touched.mp (not_not.mpr rfl)), if_pos rfl]
        exact ih filled touched
      · rw [if_pos (touched.mpr empty), if_neg empty, fillAll, filled, Option.bind_some]
        have later := @ih [] args args { curargv := words.curargv ++ [words.curarg] } rfl (by simp)
        rw [later, Option.map_map]
        congr 1
        funext more
        exact List.append_assoc _ [words.curarg] more
    · rw [takeTokens_token space, grouped_token space]
      have onward := @fill_append ν vsnprintf word [token] start
      rw [filled, Option.bind_some] at onward
      dsimp only at onward
      rw [fill_singleton] at onward
      rcases render : token.render vsnprintf args with _ | ⟨str, after⟩
      · rw [render] at onward
        obtain ⟨more, others, front⟩ := grouped_front (by simp : word ++ [token] ≠ []) rest
        rw [front, fillAll, fill_append, onward]
        rfl
      · rw [render] at onward
        rw [Option.bind_some]
        exact @ih (word ++ [token]) start after (words.touch str) onward (by simp [Words.touch])

theorem length_fillAll {words : List (List Token)} {args : List (Argument ν)} {filled : List CppString}
    (all : fillAll vsnprintf words args = some filled) : filled.length = words.length := by
  induction words generalizing args filled with
  | nil =>
    cases all
    rfl
  | cons word words ih =>
    obtain ⟨⟨str, args⟩, -, later⟩ := Option.bind_eq_some_iff.mp all
    obtain ⟨others, found, rfl⟩ := Option.map_eq_some_iff.mp later
    rw [List.length_cons, List.length_cons, ih found]

/-- What `redisvFormatCommand` makes of its format and of the words that its arguments fill. -/
theorem redisvFormatCommand_eq (malloc : ℕ → Bool) (format : CppString) (ap : List (Argument ν)) :
    redisvFormatCommand vsnprintf malloc format ap =
      (fillAll vsnprintf (layout (cStr format)) ap).bind fun words =>
        match (tokens (cStr format).length (cStr format)).2 with
        | .finished => buildCommand malloc (toInt (command words).length) words
        | .invalid => some (-2, [])
        | .beyond => none := by
  have placed := @takeTokens_grouped ν vsnprintf (tokens (cStr format).length (cStr format)).1 [] ap ap {} rfl (by simp)
  rw [redisvFormatCommand, formatLoop_eq, layout]
  generalize tokens (cStr format).length (cStr format) = read at placed
  obtain ⟨known, ending⟩ := read
  dsimp only at placed ⊢
  rcases taken : takeTokens vsnprintf known ap {} with _ | words
  · rw [taken] at placed
    rcases filled : fillAll vsnprintf (grouped [] known) ap with _ | argv
    · rfl
    · rw [filled] at placed
      cases placed
  · rw [taken] at placed
    obtain ⟨argv, filled, same⟩ := Option.map_eq_some_iff.mp placed.symm
    rw [List.nil_append] at same
    rw [filled]
    cases ending with
    | invalid => rfl
    | beyond => rfl
    | finished =>
      have unwrap (first second : ℤ) : toInt (first + second) = toInt (toInt first + second) := Int.bmod_add_bmod.symm
      have total : toInt (words.space.curargv.foldl (fun totlen arg => toInt (totlen + bulklen arg.length)) 0 +
          (1 + countDigits words.space.curargv.length + 2)) = toInt (command words.space.curargv).length := by
        rw [unwrap, foldl_toInt, ← unwrap, length_command]
        congr 1
        omega
      subst same
      exact congrArg (buildCommand malloc · words.space.curargv) total

variable (vsnprintf) (doubles : Doubles δ) (calloc : ℕ → Bool) in
/-- The words of a formatted command are those of the layout of its format, and each argument stays in its place. The
command is read back as these words. What is written past the command, or read past the format, is known from the
format and the lengths. -/
theorem formats_exact {malloc : ℕ → Bool} (finite : Finite malloc) {format : CppString} (ap : List (Argument ν))
    (granted : layout (cStr format) ≠ [] → calloc (layout (cStr format)).length = true) :
    (redisvFormatCommand vsnprintf malloc format ap = none ↔
      ∀ words, fillAll vsnprintf (layout (cStr format)) ap = some words →
        (tokens (cStr format).length (cStr format)).2 = .beyond ∨
          (tokens (cStr format).length (cStr format)).2 = .finished ∧
            2147483647 ≤ (command words).length ∧ malloc (commandMemory (command words).length) = true) ∧
      ∀ len cmd, redisvFormatCommand vsnprintf malloc format ap = some (len, cmd) → 0 ≤ len →
        ∃ words, fillAll vsnprintf (layout (cStr format)) ap = some words ∧
          words.length = (layout (cStr format)).length ∧ len = cmd.length ∧ ReadsAs doubles calloc words cmd := by
  rw [redisvFormatCommand_eq]
  rcases filled : fillAll vsnprintf (layout (cStr format)) ap with _ | words
  · exact ⟨iff_of_true rfl (by rintro words ⟨⟩), by rintro len cmd ⟨⟩⟩
  · rw [Option.bind_some]
    simp only [Option.some.injEq, forall_eq', exists_eq_left']
    generalize (tokens (cStr format).length (cStr format)).2 = ending
    cases ending with
    | invalid =>
      refine ⟨iff_of_false (by simp) (by simp), ?_⟩
      rintro len cmd same natural
      obtain ⟨rfl, -⟩ := Prod.mk.inj (Option.some.inj same)
      exact absurd natural (by decide)
    | beyond => exact ⟨iff_of_true rfl (.inl rfl), by rintro len cmd ⟨⟩⟩
    | finished =>
      have length := length_fillAll filled
      have several : words ≠ [] → calloc words.length = true := by
        intro some
        rw [length]
        exact granted (List.ne_nil_of_length_pos (by rw [← length]; exact List.length_pos_iff.mpr some))
      dsimp only
      rw [buildCommand_spec finite]
      by_cases there : malloc (commandMemory (command words).length) = true
      · rw [if_pos there]
        by_cases small : (command words).length < 2147483647
        · rw [if_pos small]
          refine ⟨iff_of_false (by simp) (by simp [small]), ?_⟩
          rintro len cmd same -
          obtain ⟨rfl, rfl⟩ := Prod.mk.inj (Option.some.inj same)
          exact ⟨length, rfl, command_readsAs (by omega) several⟩
        · rw [if_neg small]
          exact ⟨iff_of_true rfl (.inr ⟨rfl, not_lt.mp small, there⟩), by rintro len cmd ⟨⟩⟩
      · rw [if_neg there]
        refine ⟨iff_of_false (by simp) (by simp [there]), ?_⟩
        rintro len cmd same natural
        obtain ⟨rfl, -⟩ := Prod.mk.inj (Option.some.inj same)
        exact absurd natural (by decide)

end

/-- An `int` as `%d` shows it. -/
def showNumber (_ : CppString) (value : ℕ) : CppString := decimal value

/-- An argument with a line of its own, one with a zero inside, and a number. -/
def injected : List (Argument ℕ) :=
  [.pointer (text "a b\r\n$1"), .pointer [0, 32, 0], .size 3, .number .int 42]

def injectedFormat : CppString := text "SET k:%s  %b%05d"

def injectedBytes : CppString :=
  text "*3\r\n$3\r\nSET\r\n$9\r\nk:a b\r\n$1\r\n$5\r\n" ++ [0, 32, 0, 52, 50, 13, 10]

theorem finite_thousand : Finite (· < 1000) := by
  intro size granted
  have small := of_decide_eq_true granted
  omega

theorem formats_exact_injected :
    ∃ words, fillAll showNumber (layout (cStr injectedFormat)) injected = some words ∧
      words.length = (layout (cStr injectedFormat)).length ∧ (39 : ℤ) = injectedBytes.length ∧
      ReadsAs ReplyStream.textual (· < 1000) words injectedBytes := by
  have formatted : redisvFormatCommand showNumber (· < 1000) injectedFormat injected = some (39, injectedBytes) := by
    decide +kernel
  exact (formats_exact showNumber ReplyStream.textual (· < 1000) finite_thousand injected fun _ => by
    decide +kernel).2 39 _
    formatted (by decide)

/-- An argument that looks like the end of a command. -/
def twoWords : List CppString := [text "GET", [0, 13, 10]]

def twoBytes : CppString := text "*2\r\n$3\r\nGET\r\n$3\r\n" ++ [0, 13, 10, 13, 10]

theorem formatters_exact_two :
    (22 : ℤ) = twoBytes.length ∧ ReadsAs ReplyStream.textual (· < 1000) twoWords twoBytes ∧
      redisFormatSdsCommandArgv twoWords = some (22, twoBytes) := by
  have formatted : redisFormatCommandArgv (· < 1000) twoWords = some (22, twoBytes) := by decide +kernel
  exact (formatters_exact ReplyStream.textual (· < 1000) finite_thousand (by decide) fun _ => by
    decide).2 22 _ formatted
    (by decide)

end CppRedis.Soundness.Formatting
