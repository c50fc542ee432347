import CppRedis.Model.Hiredis.Format

/-! # A connection

The functions of `hiredis.c` and `net.c` that move bytes between a context and its socket, and the ones that put
commands into it and take replies out. What `send` and `recv` do is given from outside, call by call. The context is
connected, and has memory for its buffers.
-/

namespace CppRedis.Model.Hiredis

open Machine RedisCpp

variable {δ : Type}

/-- The `errno` values that the code tells apart. -/
inductive Errno where
  | wouldBlock
  | interrupted
  | timedOut
  | other (code : ℕ)
deriving DecidableEq, Repr

/-- What `send` comes to. -/
inductive SendResult where
  | sent (count : ℕ)
  | failed (errno : Errno)
deriving DecidableEq, Repr

/-- What `recv` comes to. -/
inductive RecvResult where
  | bytes (buf : CppString)
  | closed
  | failed (errno : Errno)
deriving DecidableEq, Repr

/-- `redisContext`, without what only connecting uses. -/
structure RedisContext (δ : Type) where
  err : Option Error := none
  block : Bool := true
  obuf : CppString := []
  reader : RedisReader δ := {}

namespace RedisContext

variable (c : RedisContext δ)

/-- `__redisSetError`. -/
def redisSetError (type : ErrorType) (str : CppString) : RedisContext δ := { c with err := some ⟨type, str.take 127⟩ }

/-- `redisNetRead`: what it returns, and what stands in the buffer. -/
def redisNetRead (strerror : Errno → CppString) (result : RecvResult) : ℤ × CppString × RedisContext δ :=
  match result with
  | .bytes buf => (buf.length, buf, c)
  | .closed => (-1, [], c.redisSetError .eof (text "Server closed the connection"))
  | .failed errno =>
      if (errno = .wouldBlock ∧ !c.block) ∨ errno = .interrupted then (0, [], c)
      else if errno = .timedOut ∧ c.block then (-1, [], c.redisSetError .timeout (text "recv timeout"))
      else (-1, [], c.redisSetError .io (strerror errno))

/-- `redisNetWrite`. -/
def redisNetWrite (strerror : Errno → CppString) (result : SendResult) : ℤ × RedisContext δ :=
  match result with
  | .sent count => (count, c)
  | .failed errno =>
      if (errno = .wouldBlock ∧ !c.block) ∨ errno = .interrupted then (-1, c)
      else (-1, c.redisSetError .io (strerror errno))

/-- The error of a reader, for the context. -/
def readerError (reader : RedisReader δ) : RedisContext δ :=
  match reader.err with
  | none => { c with reader := reader }
  | some error => { c with reader := reader }.redisSetError error.type error.str

/-- `redisBufferRead`. -/
def redisBufferRead (strerror : Errno → CppString) (result : RecvResult) : Status × RedisContext δ :=
  if c.err.isSome then (.err, c)
  else
    let (nread, buf, c) := c.redisNetRead strerror result
    if 0 < nread then
      match redisReaderFeed c.reader buf with
      | (.ok, reader) => (.ok, { c with reader := reader })
      | (.err, reader) => (.err, c.readerError reader)
    else if nread < 0 then (.err, c)
    else (.ok, c)

/-- `redisBufferWrite`: the status, whether it is done, and the context. -/
def redisBufferWrite (strerror : Errno → CppString) (result : SendResult) : Status × Bool × RedisContext δ :=
  if c.err.isSome then (.err, false, c)
  else if c.obuf = [] then (.ok, true, c)
  else
    let (nwritten, c) := c.redisNetWrite strerror result
    if nwritten < 0 then (.err, false, c)
    else if nwritten = 0 then (.ok, c.obuf.isEmpty, c)
    else
      let c := { c with obuf := if nwritten = toInt c.obuf.length then [] else sdsrange c.obuf (toInt nwritten) (-1) }
      (.ok, c.obuf.isEmpty, c)

/-- `redisGetReplyFromReader`. -/
def redisGetReplyFromReader (doubles : Doubles δ) (calloc : ℕ → Bool) :
    Option (Status × Option (RedisReply δ) × RedisContext δ) :=
  (redisReaderGetReply doubles calloc c.reader).map fun (status, reply, reader) =>
    match status with
    | .ok => (.ok, reply, { c with reader := reader })
    | .err => (.err, reply, c.readerError reader)

/-- `__redisAppendCommand`. -/
def redisAppendFormatted (cmd : CppString) : Status × RedisContext δ := (.ok, { c with obuf := c.obuf ++ cmd })

/-- `redisAppendCommandArgv`. The length goes through an `int`; `none` where that many bytes are not there. -/
def redisAppendCommandArgv (argv : List CppString) : Option (Status × RedisContext δ) :=
  (redisFormatSdsCommandArgv argv).bind fun (len, cmd) =>
    if len = -1 then some (.err, c.redisSetError .oom (text "Out of memory"))
    else if (len % 2 ^ 64).toNat ≤ cmd.length then some (c.redisAppendFormatted (cmd.take (len % 2 ^ 64).toNat))
    else none

section

variable (strerror : Errno → CppString) (doubles : Doubles δ) (calloc : ℕ → Bool)

/-- The first loop of `redisGetReply`, as far as `send` is known to go. -/
def writeUntilDone : List SendResult → RedisContext δ → Option (Status × RedisContext δ)
  | results, c =>
      if c.err.isSome then some (.err, c)
      else if c.obuf = [] then some (.ok, c)
      else
        match results with
        | [] => none
        | result :: results =>
            match c.redisBufferWrite strerror result with
            | (.err, _, c) => some (.err, c)
            | (.ok, true, c) => some (.ok, c)
            | (.ok, false, c) => writeUntilDone results c

/-- The second loop, as far as `recv` is known to go. -/
def readUntilReply : List RecvResult → RedisContext δ → Option (Status × Option (RedisReply δ) × RedisContext δ)
  | results, c =>
      if c.err.isSome then some (.err, none, c)
      else
        match results with
        | [] => none
        | result :: results =>
            match c.redisBufferRead strerror result with
            | (.err, c) => some (.err, none, c)
            | (.ok, c) =>
                (c.redisGetReplyFromReader doubles calloc).bind fun (status, aux, c) =>
                  match status, aux with
                  | .err, _ => some (.err, none, c)
                  | .ok, none => readUntilReply results c
                  | .ok, some reply => some (.ok, some reply, c)

/-- `redisGetReply`, as far as the socket is known to go. -/
def redisGetReply (sends : List SendResult) (recvs : List RecvResult) :
    Option (Status × Option (RedisReply δ) × RedisContext δ) :=
  (c.redisGetReplyFromReader doubles calloc).bind fun (status, aux, c) =>
    if status = .err then some (.err, none, c)
    else if aux.isNone ∧ c.block then
      (c.writeUntilDone strerror sends).bind fun (status, c) =>
        if status = .err then some (.err, none, c) else c.readUntilReply strerror doubles calloc recvs
    else some (.ok, aux, c)

/-- `redisCommandArgv`. -/
def redisCommandArgv (argv : List CppString) (sends : List SendResult) (recvs : List RecvResult) :
    Option (Option (RedisReply δ) × RedisContext δ) :=
  (c.redisAppendCommandArgv argv).bind fun (status, c) =>
    if status ≠ .ok then some (none, c)
    else if c.block then
      (c.redisGetReply strerror doubles calloc sends recvs).map fun (status, reply, c) =>
        (if status ≠ .ok then none else reply, c)
    else some (none, c)

end

end RedisContext

end CppRedis.Model.Hiredis
