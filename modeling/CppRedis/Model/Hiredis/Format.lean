import CppRedis.Model.Hiredis.Sds
import CppRedis.Model.RedisClient.Reply

/-! # Commands as bytes

The functions of `hiredis.c` that format a command. The lengths are of type `int`, and so is the position in the
memory that they size, so both come out of casts. `none` stands for an access outside of the memory for the command or
of the format, for a failed assertion, and for an argument of another kind than its conversion takes. Memory is there
for everything but the command itself.
-/

namespace CppRedis.Model.Hiredis

open Machine RedisCpp

/-- `countDigits`. -/
def countDigits (v : ℕ) : ℕ :=
  if v < 10 then 1
  else if v < 100 then 1 + 1
  else if v < 1000 then 1 + 2
  else if v < 10000 then 1 + 3
  else countDigits (v / 10000) + 4

/-- `bulklen`. -/
def bulklen (len : ℕ) : ℕ := 1 + countDigits len + 2 + len + 2

/-- A `sprintf` to the end of a command in that much memory. It writes a zero behind its text. -/
def sprintf (capacity : ℕ) (cmd str : CppString) : Option CppString :=
  if cmd.length + str.length + 1 ≤ capacity then some (cmd ++ str) else none

/-- A `memcpy` to the end of a command in that much memory. -/
def memcpy (capacity : ℕ) (cmd str : CppString) : Option CppString :=
  if cmd.length + str.length ≤ capacity then some (cmd ++ str) else none

/-- One argument at the end of a command. -/
def putArgument (capacity : ℕ) (cmd arg : CppString) : Option CppString := do
  let cmd ← sprintf capacity cmd (text "$" ++ RedisClient.convertToString arg.length ++ text "\r\n")
  let cmd ← memcpy capacity cmd arg
  let cmd ← memcpy capacity cmd [13]
  memcpy capacity cmd [10]

/-- The end of `redisvFormatCommand` and of `redisFormatCommandArgv`: the length that they return, and the command. -/
def buildCommand (malloc : ℕ → Bool) (totlen : ℤ) (argv : List CppString) : Option (ℤ × CppString) :=
  let capacity := (toInt (totlen + 1) % 2 ^ 64).toNat
  if !malloc capacity then some (-1, [])
  else do
    let cmd ← sprintf capacity [] (text "*" ++ RedisClient.convertToString argv.length ++ text "\r\n")
    let cmd ← argv.foldlM (putArgument capacity) cmd
    if toInt cmd.length = totlen then
      let _ ← memcpy capacity cmd [0]
      return (totlen, cmd)
    else none

/-- `redisFormatCommandArgv`. Its arguments have the lengths of `argvlen`. -/
def redisFormatCommandArgv (malloc : ℕ → Bool) (argv : List CppString) : Option (ℤ × CppString) :=
  let totlen := argv.foldl (fun totlen arg => toInt (totlen + bulklen arg.length)) (1 + countDigits argv.length + 2)
  buildCommand malloc totlen argv

/-- `redisFormatCommandArgv` without an `argvlen`. -/
def redisFormatCommandArgvNull (malloc : ℕ → Bool) (argv : List CppString) : Option (ℤ × CppString) :=
  redisFormatCommandArgv malloc (argv.map cStr)

/-- One argument at the end of an sds command. Its length is passed for `%u`. -/
def sdsPutArgument (cmd arg : CppString) : Option CppString := do
  let cmd ← sdscatfmt cmd (text "$%u\r\n") [.word arg.length.toUInt64]
  return cmd ++ arg ++ text "\r\n"

/-- `redisFormatSdsCommandArgv`. -/
def redisFormatSdsCommandArgv (argv : List CppString) : Option (ℤ × CppString) := do
  let totlen := argv.foldl (fun totlen arg => totlen + bulklen arg.length) (1 + countDigits argv.length + 2)
  let cmd ← sdscatfmt [] (text "*%i\r\n") [.word argv.length.toUInt64]
  let cmd ← argv.foldlM sdsPutArgument cmd
  if cmd.length = totlen then some (toInt totlen, cmd) else none

/-- What the conversion of a number reads. -/
inductive Width where
  | int
  | double
  | long
  | longLong
deriving DecidableEq, Repr

/-- What stands behind a format: the memory at a pointer, a `size_t`, or a number. -/
inductive Argument (ν : Type) where
  | pointer (arg : CppString)
  | size (value : ℕ)
  | number (width : Width) (value : ν)

/-- `intfmts`. -/
def intfmts : CppString := text "diouxX"

/-- `flags`. -/
def flags : CppString := text "#0-+ "

/-- The test for a conversion behind a size. -/
def sized (width : Width) (p : CppString) : Option (Width × CppString) :=
  match p with
  | [] => none
  | first :: _ => if first ∈ intfmts then some (width, p) else none

/-- What a `printf` conversion reads, and the format from its last byte on, where that is one. `strchr` finds the
terminator of a format, too. -/
def specifier (c : CppString) : Option (Width × CppString) :=
  let p := c.dropWhile (· ∈ flags)
  let p := p.dropWhile RedisClient.isDigit
  let p := if p.head? = some 46 then p.tail.dropWhile RedisClient.isDigit else p
  match p with
  | [] => some (.int, [])
  | first :: rest =>
      if first ∈ intfmts then some (.int, p)
      else if first ∈ text "eEfFgGaA" then some (.double, p)
      else if first = 104 then
        if rest.head? = some 104 then sized .int rest.tail else sized .int rest
      else if first = 108 then
        if rest.head? = some 108 then sized .longLong rest.tail else sized .long rest
      else none

/-- What a word of a format is made of. -/
structure Words where
  curarg : CppString := []
  touched : Bool := false
  curargv : List CppString := []
deriving DecidableEq, Repr

namespace Words

def touch (words : Words) (str : CppString) : Words :=
  { words with curarg := words.curarg ++ str, touched := true }

/-- The end of a word. -/
def space (words : Words) : Words :=
  if words.touched then { curargv := words.curargv ++ [words.curarg] } else words

end Words

variable {ν : Type}

namespace Argument

/-- `va_arg` for a `char*`. -/
def takePointer : List (Argument ν) → Option (CppString × List (Argument ν))
  | pointer arg :: args => some (arg, args)
  | _ => none

/-- `va_arg` for a `size_t`. -/
def takeSize : List (Argument ν) → Option (ℕ × List (Argument ν))
  | size value :: args => some (value, args)
  | _ => none

/-- `va_arg` for a number. -/
def takeNumber (width : Width) : List (Argument ν) → Option (ν × List (Argument ν))
  | number given value :: args => if given = width then some (value, args) else none
  | _ => none

end Argument

/-- The loop of `redisvFormatCommand`, over a format of that many bytes at most: the words, or nothing where the format
is not valid. -/
def formatLoop (vsnprintf : CppString → ν → CppString) :
    ℕ → CppString → List (Argument ν) → Words → Option (Option Words)
  | 0, _, _, words => some (some words)
  | _ + 1, [], _, words => some (some words)
  | fuel + 1, c :: rest, args, words =>
      if c ≠ 37 ∨ rest = [] then
        if c = 32 then formatLoop vsnprintf fuel rest args words.space
        else formatLoop vsnprintf fuel rest args (words.touch [c])
      else if rest.head? = some 115 then
        (Argument.takePointer args).bind fun (arg, args) =>
          formatLoop vsnprintf fuel rest.tail args (words.touch (cStr arg))
      else if rest.head? = some 98 then
        (Argument.takePointer args).bind fun (arg, args) =>
          (Argument.takeSize args).bind fun (size, args) =>
            if size ≤ arg.length then formatLoop vsnprintf fuel rest.tail args (words.touch (arg.take size)) else none
      else if rest.head? = some 37 then formatLoop vsnprintf fuel rest.tail args (words.touch [37])
      else
        match specifier rest with
        | none => some none
        | some (width, p) =>
            (Argument.takeNumber width args).bind fun (value, args) =>
              let l := rest.length + 2 - p.length
              if l < 14 then
                if p = [] then none
                else
                  formatLoop vsnprintf fuel p.tail args (words.touch (cStr (vsnprintf ((c :: rest).take l) value)))
              else formatLoop vsnprintf fuel rest.tail args (words.touch [])

/-- `redisvFormatCommand`. -/
def redisvFormatCommand (vsnprintf : CppString → ν → CppString) (malloc : ℕ → Bool) (format : CppString)
    (ap : List (Argument ν)) : Option (ℤ × CppString) := do
  match ← formatLoop vsnprintf (cStr format).length (cStr format) ap {} with
  | none => return (-2, [])
  | some words =>
      let argv := words.space.curargv
      let totlen := argv.foldl (fun totlen arg => toInt (totlen + bulklen arg.length)) 0
      buildCommand malloc (toInt (totlen + (1 + countDigits argv.length + 2))) argv

/-- `redisFormatCommand`. -/
def redisFormatCommand (vsnprintf : CppString → ν → CppString) (malloc : ℕ → Bool) (format : CppString)
    (ap : List (Argument ν)) : Option (ℤ × CppString) := do
  let (len, target) ← redisvFormatCommand vsnprintf malloc format ap
  return (if len < 0 then -1 else len, target)

end CppRedis.Model.Hiredis
