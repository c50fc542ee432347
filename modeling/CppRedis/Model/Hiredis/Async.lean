import CppRedis.Machine.Program
import CppRedis.Model.Hiredis.Context
import CppRedis.Model.Hiredis.Dict

/-! # An asynchronous connection

The functions of `async.c`, over the functions of the program that they call back. A callback is given as what it does
with the state of the program and with the connection; the callbacks for a connection that is there or gone touch only
the state of the program. An event library calls the handlers. A failed assertion, and an access outside of memory or to
what was freed, is a crash. A loop that runs callbacks is watched for all the callbacks that it finds, and for as many
more as `patience` says. Memory is there.
-/

namespace CppRedis.Model.Hiredis

open Machine RedisCpp

/-- `redisCallback`, without `next`. -/
structure RedisCallback (Fn Priv : Type) where
  fn : Option Fn
  pendingSubs : ℤ
  privdata : Priv
deriving DecidableEq, Repr

/-- The callback that a command puts in for a channel: it waits for one confirmation more than the one that is there. -/
def RedisCallback.renewed {Fn Priv : Type} (cb : RedisCallback Fn Priv)
    (existing : Option (CppString × RedisCallback Fn Priv)) :
    RedisCallback Fn Priv :=
  match existing with
  | none => cb
  | some (_, existcb) => { cb with pendingSubs := existcb.pendingSubs + 1 }

/-- What a callback does: it gives commands and ends the connection, and leaves a state of the program. -/
inductive Script (Fn Priv υ : Type) where
  | done (user : υ)
  | command (fn : Option Fn) (privdata : Priv) (argv : List CppString) (next : Status → Script Fn Priv υ)
  | disconnect (next : Script Fn Priv υ)
  | free (next : Script Fn Priv υ)

/-- A call of a function of the program. -/
inductive Invocation (δ Fn Priv : Type) where
  | reply (fn : Fn) (reply : Option (RedisReply δ)) (privdata : Priv)
  | connect (status : Status)
  | disconnect (status : Status)

/-- What was between a connection and its surroundings: the commands that it took, the calls that it made and for each
of them how many commands had been taken before, and the bytes that passed its socket. -/
structure History (δ Fn Priv : Type) where
  accepted : List (Option Fn × Priv × List CppString) := []
  invoked : List (Invocation δ Fn Priv) := []
  moments : List ℕ := []
  sent : CppString := []
  received : CppString := []

/-- `redisAsyncContext`, with its flags. `reading` and `writing` tell what the event library was asked to watch for. -/
structure RedisAsyncContext (δ Fn Priv υ : Type) where
  c : RedisContext δ := { block := false }
  connected : Bool := false
  disconnecting : Bool := false
  freeing : Bool := false
  inCallback : Bool := false
  subscribed : Bool := false
  monitoring : Bool := false
  noAutoFree : Bool := false
  err : Option Error := none
  onConnect : Bool := false
  onDisconnect : Bool := false
  replies : List (RedisCallback Fn Priv) := []
  invalid : List (RedisCallback Fn Priv) := []
  channels : Option (Dict CppString (RedisCallback Fn Priv)) := some {}
  patterns : Option (Dict CppString (RedisCallback Fn Priv)) := some {}
  reading : Bool := false
  writing : Bool := false
  freed : Bool := false
  user : υ
  history : History δ Fn Priv := {}

/-- How a run does not come to its end. -/
inductive Fault where
  | crash
  | running
deriving DecidableEq, Repr

/-- What `connect` comes to when it is called again. -/
inductive ConnectResult where
  | done
  | inProgress
  | failed (errno : Errno)
deriving DecidableEq, Repr

/-- The surroundings of a connection. -/
structure Surroundings (δ Fn Priv υ : Type) where
  strerror : Errno → CppString
  doubles : Doubles δ
  calloc : ℕ → Bool
  null : Priv
  patience : ℕ
  call : Fn → Option (RedisReply δ) → Priv → υ → Script Fn Priv υ
  connectCallback : Status → υ → υ
  disconnectCallback : Status → υ → υ

/-- `strchr` for a byte that is not zero. -/
def strchr (p : CppString) (byte : UInt8) : Option CppString :=
  if byte ∈ p.takeWhile (· ≠ 0) then some (p.dropWhile (· ≠ byte)) else none

/-- `strncasecmp` with a text of the length that it compares. -/
def startsAs (p str : CppString) : Bool := (p.take str.length).map toLower == str

/-- What `nextArgument` comes to: a crash, a null pointer, or the argument, its length and what is behind it. -/
inductive NextArgument where
  | crash
  | null
  | argument (str : CppString) (len : ℕ) (p : CppString)
deriving DecidableEq, Repr

/-- `nextArgument`. -/
def nextArgument (start : CppString) : NextArgument :=
  match if start.headD 0 = 36 then some start else strchr start 36 with
  | none => .null
  | some p =>
      let len := toInt (RedisClient.strtol p.tail)
      match strchr p 13 with
      | none => .crash
      | some p =>
          if 0 ≤ len ∧ len.toNat + 4 ≤ p.length then .argument (p.drop 2) len.toNat (p.drop (len.toNat + 4)) else .crash

/-- `callbackDict`. -/
def callbackDict : DictType CppString := ⟨dictGenHashFunction, fun key1 key2 => key1 == key2⟩

variable {δ Fn Priv υ : Type}

/-- Code over an asynchronous connection. -/
abbrev Async (δ Fn Priv υ : Type) := Program (RedisAsyncContext δ Fn Priv υ) Fault

namespace RedisAsyncContext

/-- The callbacks of channels or of patterns, where they were not released. -/
def subs (ac : RedisAsyncContext δ Fn Priv υ) (pvariant : Bool) : Option (Dict CppString (RedisCallback Fn Priv)) :=
  if pvariant then ac.patterns else ac.channels

def setSubs (ac : RedisAsyncContext δ Fn Priv υ) (pvariant : Bool)
    (dict : Option (Dict CppString (RedisCallback Fn Priv))) :
    RedisAsyncContext δ Fn Priv υ :=
  if pvariant then { ac with patterns := dict } else { ac with channels := dict }

def invoke (ac : RedisAsyncContext δ Fn Priv υ) (invocation : Invocation δ Fn Priv) : RedisAsyncContext δ Fn Priv υ :=
  { ac with
    history := { ac.history with
      invoked := ac.history.invoked ++ [invocation]
      moments := ac.history.moments ++ [ac.history.accepted.length] } }

/-- `__redisPushCallback` to the callbacks of replies. -/
def pushReply (ac : RedisAsyncContext δ Fn Priv υ) (cb : RedisCallback Fn Priv) : RedisAsyncContext δ Fn Priv υ :=
  { ac with replies := ac.replies ++ [cb] }

/-- `__redisPushCallback` to the callbacks of invalid commands. -/
def pushInvalid (ac : RedisAsyncContext δ Fn Priv υ) (cb : RedisCallback Fn Priv) : RedisAsyncContext δ Fn Priv υ :=
  { ac with invalid := ac.invalid ++ [cb] }

/-- `__redisShiftCallback` on the callbacks of replies. -/
def shiftReply (ac : RedisAsyncContext δ Fn Priv υ) : Option (RedisCallback Fn Priv × RedisAsyncContext δ Fn Priv υ) :=
  match ac.replies with
  | [] => none
  | cb :: replies => some (cb, { ac with replies := replies })

/-- `__redisShiftCallback` on the callbacks of invalid commands. -/
def shiftInvalid (ac : RedisAsyncContext δ Fn Priv υ) :
    Option (RedisCallback Fn Priv × RedisAsyncContext δ Fn Priv υ) :=
  match ac.invalid with
  | [] => none
  | cb :: invalid => some (cb, { ac with invalid := invalid })

/-- `__redisAsyncCopyError`. -/
def copyError (ac : RedisAsyncContext δ Fn Priv υ) : RedisAsyncContext δ Fn Priv υ := { ac with err := ac.c.err }

/-- `_EL_CLEANUP`. -/
def cleanup (ac : RedisAsyncContext δ Fn Priv υ) : RedisAsyncContext δ Fn Priv υ :=
  { ac with reading := false, writing := false }

end RedisAsyncContext

namespace Async

/-- The loop of `__redisAsyncCommand` over channels or patterns. Every turn moves on in the command. -/
def subscribeFrom (pvariant : Bool) : ℕ → RedisCallback Fn Priv → CppString → Async δ Fn Priv υ Unit
  | 0, _, _ => throw .crash
  | turns + 1, cb, p =>
      match nextArgument p with
      | .crash => throw .crash
      | .null => pure ()
      | .argument astr alen p => do
          let ac ← get
          match ac.subs pvariant with
          | none => throw .crash
          | some cbdict =>
              let sname := astr.take alen
              let cb := cb.renewed (cbdict.dictFind callbackDict sname)
              match cbdict.dictReplace callbackDict sname cb with
              | none => throw .crash
              | some (_, cbdict) =>
                  set (ac.setSubs pvariant (some cbdict))
                  subscribeFrom pvariant turns cb p

/-- The end of `__redisAsyncCommand`. -/
def appendCommand (cmd : CppString) : Async δ Fn Priv υ Status := do
  modify fun ac => { ac with c := (ac.c.redisAppendFormatted cmd).2, writing := true }
  return .ok

/-- `__redisAsyncCommand`, for a command that is the front of a text in memory. -/
def redisAsyncFormatted (fn : Option Fn) (privdata : Priv) (cmd : CppString) (len : ℕ) : Async δ Fn Priv υ Status := do
  let ac ← get
  if ac.disconnecting ∨ ac.freeing then return .err
  else
    let cb : RedisCallback Fn Priv := ⟨fn, 1, privdata⟩
    match nextArgument cmd with
    | .crash | .null => throw .crash
    | .argument cstr _ p =>
        let pvariant := toLower (cstr.headD 0) = 112
        let cstr := if pvariant then cstr.tail else cstr
        if p.headD 0 = 36 ∧ startsAs cstr (text "subscribe\r\n") then
          modify fun ac => { ac with subscribed := true }
          subscribeFrom pvariant (p.length + 1) cb p
          appendCommand (cmd.take len)
        else if startsAs cstr (text "unsubscribe\r\n") then
          if ac.subscribed then appendCommand (cmd.take len) else return .err
        else if startsAs cstr (text "monitor\r\n") then
          modify fun ac => { ac with monitoring := true }.pushReply cb
          appendCommand (cmd.take len)
        else
          modify fun ac => if ac.subscribed then ac.pushInvalid cb else ac.pushReply cb
          appendCommand (cmd.take len)

/-- `redisAsyncCommandArgv`. -/
def redisAsyncCommandArgv (fn : Option Fn) (privdata : Priv) (argv : List CppString) : Async δ Fn Priv υ Status :=
  match redisFormatSdsCommandArgv argv with
  | none => throw .crash
  | some (len, cmd) =>
      if len < 0 then return .err
      else do
        let status ← redisAsyncFormatted fn privdata cmd len.toNat
        if status = .ok then
          modify fun ac => { ac with
            history := { ac.history with accepted := ac.history.accepted ++ [(fn, privdata, argv)] } }
        return status

/-- What a callback does. While it runs, `redisAsyncDisconnect` and `redisAsyncFree` only leave their flags. -/
def runScript : Script Fn Priv υ → Async δ Fn Priv υ Unit
  | .done user => modify fun ac => { ac with user := user }
  | .command fn privdata argv next => do
      let status ← redisAsyncCommandArgv fn privdata argv
      runScript (next status)
  | .disconnect next => do
      modify fun ac => { ac with disconnecting := true, noAutoFree := false }
      runScript next
  | .free next => do
      modify fun ac => { ac with freeing := true }
      runScript next

variable (env : Surroundings δ Fn Priv υ)

/-- `__redisRunCallback`. -/
def redisRunCallback (cb : RedisCallback Fn Priv) (reply : Option (RedisReply δ)) : Async δ Fn Priv υ Unit :=
  match cb.fn with
  | none => pure ()
  | some fn => do
      modify fun ac => { ac with inCallback := true }.invoke (.reply fn reply cb.privdata)
      let ac ← get
      runScript (env.call fn reply cb.privdata ac.user)
      modify fun ac => { ac with inCallback := false }

/-- A loop that runs the callbacks of a list without a reply. -/
def drain (shift : RedisAsyncContext δ Fn Priv υ → Option (RedisCallback Fn Priv × RedisAsyncContext δ Fn Priv υ)) :
    ℕ → Async δ Fn Priv υ Unit
  | 0 => throw .running
  | turns + 1 => do
      match shift (← get) with
      | none => pure ()
      | some (cb, ac) =>
          set ac
          redisRunCallback env cb none
          drain shift turns

/-- A loop that runs the callbacks of channels or of patterns without a reply. -/
def drainSubs (pvariant : Bool) : ℕ → DictIterator CppString → Async δ Fn Priv υ Unit
  | 0, _ => throw .running
  | turns + 1, iter => do
      let ac ← get
      match (ac.subs pvariant).bind fun dict => dict.dictNext callbackDict iter with
      | none => throw .crash
      | some (none, _) => pure ()
      | some (some (_, cb), iter) =>
          redisRunCallback env cb none
          drainSubs pvariant turns iter

def drainReplies : Async δ Fn Priv υ Unit := do
  let ac ← get
  drain env RedisAsyncContext.shiftReply (ac.replies.length + env.patience + 1)

def drainInvalid : Async δ Fn Priv υ Unit := do
  let ac ← get
  drain env RedisAsyncContext.shiftInvalid (ac.invalid.length + env.patience + 1)

/-- The callbacks of channels or of patterns, and the end of their dictionary. -/
def releaseSubs (pvariant : Bool) : Async δ Fn Priv υ Unit := do
  let ac ← get
  drainSubs env pvariant (((ac.subs pvariant).elim 0 Dict.used) + env.patience + 1) {}
  modify fun ac => ac.setSubs pvariant none

/-- The end of `__redisAsyncFree`: the event library is told, and the program. -/
def finish (ac : RedisAsyncContext δ Fn Priv υ) : RedisAsyncContext δ Fn Priv υ :=
  let ac := ac.cleanup
  if ac.onDisconnect ∧ ac.connected then
    let status := if ac.freeing then Status.ok else if ac.err.isNone then .ok else .err
    { ac with user := env.disconnectCallback status ac.user, freed := true }.invoke (.disconnect status)
  else { ac with freed := true }

/-- `__redisAsyncFree`. -/
def redisAsyncFreeContext : Async δ Fn Priv υ Unit := do
  drainReplies env
  drainInvalid env
  releaseSubs env false
  releaseSubs env true
  modify (finish env)

/-- `redisAsyncFree`. -/
def redisAsyncFree : Async δ Fn Priv υ Unit := do
  modify fun ac => { ac with freeing := true }
  let ac ← get
  if !ac.inCallback then redisAsyncFreeContext env

/-- `__redisAsyncDisconnect`. -/
def redisAsyncDropConnection : Async δ Fn Priv υ Unit := do
  modify fun ac => ac.copyError
  let ac ← get
  if ac.err.isNone then
    if ac.shiftReply.isSome then throw .crash
  else
    modify fun ac => { ac with disconnecting := true }
  modify fun ac => ac.cleanup
  let ac ← get
  if !ac.noAutoFree then redisAsyncFreeContext env

/-- `redisAsyncDisconnect`. -/
def redisAsyncDisconnect : Async δ Fn Priv υ Unit := do
  modify fun ac => { ac with disconnecting := true, noAutoFree := false }
  let ac ← get
  if !ac.inCallback ∧ ac.replies.isEmpty then redisAsyncDropConnection env

/-- `__redisGetSubscribeCallback`, with the callback that `dstcb` holds before. -/
def redisGetSubscribeCallback (reply : RedisReply δ) (dstcb : RedisCallback Fn Priv) :
    Async δ Fn Priv υ (RedisCallback Fn Priv) := do
  let ac ← get
  match reply with
  | .mk .array _ _ _ (some (.mk .string _ _ (some stype) _) :: some (.mk .string _ _ (some sname) _) :: rest) =>
      let pvariant := toLower (stype.headD 0) = 112
      let action := (cStr (if pvariant then stype.tail else stype)).map toLower
      match ac.subs pvariant with
      | none => throw .crash
      | some callbacks =>
          match callbacks.dictFind callbackDict sname with
          | none => return dstcb
          | some (_, cb) =>
              if action = text "subscribe" then
                let cb := { cb with pendingSubs := cb.pendingSubs - 1 }
                set (ac.setSubs pvariant (some (callbacks.setEntry callbackDict sname cb)))
                return cb
              else if action = text "unsubscribe" then
                if cb.pendingSubs = 0 then
                  set (ac.setSubs pvariant (some (callbacks.dictDelete callbackDict sname).2))
                match rest with
                | some (.mk .integer count _ _ _) :: _ =>
                    modify fun ac =>
                      if count = 0 ∧ ac.channels.all (·.used = 0) ∧ ac.patterns.all (·.used = 0) then
                        { ac with subscribed := false }
                      else ac
                    return cb
                | _ => throw .crash
              else return cb
  | .mk .array _ _ _ _ => throw .crash
  | _ =>
      match ac.shiftInvalid with
      | none => return dstcb
      | some (cb, ac) =>
          set ac
          return cb

/-- `redisGetReply` on the connection. -/
def getReply : Async δ Fn Priv υ (Status × Option (RedisReply δ)) := do
  let ac ← get
  match ac.c.redisGetReply env.strerror env.doubles env.calloc [] [] with
  | none => throw .crash
  | some (status, reply, c) =>
      set { ac with c := c }
      return (status, reply)

/-- The end of a turn of `redisProcessCallbacks`, with the reply and its callback. -/
def handOver (reply : RedisReply δ) (next : RedisCallback Fn Priv → Async δ Fn Priv υ Unit)
    (cb : RedisCallback Fn Priv) :
    Async δ Fn Priv υ Unit := do
  if cb.fn.isSome then
    redisRunCallback env cb (some reply)
    let ac ← get
    if ac.freeing then redisAsyncFreeContext env else next cb
  else next cb

/-- The loop of `redisProcessCallbacks`. Every turn takes bytes from the reader. -/
def processReplies : ℕ → RedisCallback Fn Priv → Async δ Fn Priv υ Unit
  | 0, _ => throw .running
  | turns + 1, cb => do
      let (status, reply) ← getReply env
      let ac ← get
      match status, reply with
      | .err, _ => redisAsyncDropConnection env
      | .ok, none =>
          if ac.disconnecting ∧ ac.c.obuf.isEmpty ∧ ac.replies.isEmpty then redisAsyncDropConnection env
          else if ac.monitoring then set (ac.pushReply cb)
      | .ok, some reply =>
          match ac.shiftReply with
          | some (cb, ac) =>
              set ac
              handOver env reply (processReplies turns) cb
          | none =>
              match reply with
              | .mk .error _ _ str _ =>
                  set { ac with c := ac.c.redisSetError .other (cStr (str.getD [])) }
                  redisAsyncDropConnection env
              | reply =>
                  if ac.subscribed then
                    let cb ← redisGetSubscribeCallback reply cb
                    handOver env reply (processReplies turns) cb
                  else if ac.monitoring then handOver env reply (processReplies turns) cb
                  else throw .crash

/-- `redisProcessCallbacks`. -/
def redisProcessCallbacks : Async δ Fn Priv υ Unit := do
  let ac ← get
  processReplies env (ac.c.reader.buf.length + 1) ⟨none, 0, env.null⟩

/-- `onConnect`, where there is one. -/
def runConnectCallback (status : Status) : Async δ Fn Priv υ Unit :=
  modify fun ac =>
    if ac.onConnect then { ac with user := env.connectCallback status ac.user }.invoke (.connect status) else ac

/-- `__redisAsyncHandleConnect`, with `redisCheckConnectDone` and `redisCheckSocketError`. -/
def redisAsyncHandleConnect (connect : ConnectResult) : Async δ Fn Priv υ Status :=
  match connect with
  | .failed errno => do
      modify fun ac => { ac with c := ac.c.redisSetError .io (env.strerror errno) }
      runConnectCallback env .err
      redisAsyncDropConnection env
      return .err
  | .done => do
      runConnectCallback env .ok
      modify fun ac => { ac with connected := true }
      return .ok
  | .inProgress => return .ok

/-- The front of a handler: whether it goes on. -/
def whenConnected (connect : ConnectResult) : Async δ Fn Priv υ Bool := do
  let ac ← get
  if ac.connected then return true
  else
    let status ← redisAsyncHandleConnect env connect
    let ac ← get
    return status = .ok ∧ ac.connected

/-- `redisAsyncRead`. -/
def redisAsyncRead (result : RecvResult) : Async δ Fn Priv υ Unit := do
  let ac ← get
  let buf := match ac.c.err, result with
    | none, .bytes buf => buf
    | _, _ => []
  let (status, c) := ac.c.redisBufferRead env.strerror result
  set { ac with c := c, history := { ac.history with received := ac.history.received ++ buf } }
  if status = .err then redisAsyncDropConnection env
  else
    modify fun ac => { ac with reading := true }
    redisProcessCallbacks env

/-- `redisAsyncHandleRead`. -/
def redisAsyncHandleRead (connect : ConnectResult) (result : RecvResult) : Async δ Fn Priv υ Unit := do
  if ← whenConnected env connect then redisAsyncRead env result

/-- `redisAsyncWrite`. -/
def redisAsyncWrite (result : SendResult) : Async δ Fn Priv υ Unit := do
  let ac ← get
  let buf := match ac.c.err, result with
    | none, .sent count => ac.c.obuf.take count
    | _, _ => []
  let (status, finished, c) := ac.c.redisBufferWrite env.strerror result
  set { ac with c := c, history := { ac.history with sent := ac.history.sent ++ buf } }
  if status = .err then redisAsyncDropConnection env
  else modify fun ac => { ac with writing := !finished, reading := true }

/-- `redisAsyncHandleWrite`. -/
def redisAsyncHandleWrite (connect : ConnectResult) (result : SendResult) : Async δ Fn Priv υ Unit := do
  if ← whenConnected env connect then redisAsyncWrite env result

/-- `redisAsyncHandleTimeout`. -/
def redisAsyncHandleTimeout : Async δ Fn Priv υ Unit := do
  let ac ← get
  if ac.connected ∧ ac.replies.isEmpty then return
  else
    if ac.c.err.isNone then modify fun ac => { ac with c := ac.c.redisSetError .timeout (text "Timeout") }
    if !ac.connected then runConnectCallback env .err
    drainReplies env
    redisAsyncDropConnection env

end Async

end CppRedis.Model.Hiredis
