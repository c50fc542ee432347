import CppRedis.Model.R3c.Command
import CppRedis.Model.R3c.Numbers

/-! # Increments that can be repeated

`hincrby` and `hmincrby` with a unique id, from `r3c.cpp`: a script that leaves a marker, sent as a whole or by its
SHA-1. The commands that go out are kept with their answers. A script that is cut off, in the sense that its rounds do
not suffice, has no result.
-/

namespace CppRedis.Model.R3c

open Machine RedisCpp RedisClient

/-- `hincrby_script`. -/
def hincrbyScript : CppString :=
  text ("local hk='\x7b'..KEYS[1]..'\x7d'..ARGV[3];" ++
    "local ret=redis.call('SET',hk,'1','EX',ARGV[4],'NX');" ++
    "if not ret then" ++
    "  return nil;" ++
    "else" ++
    "  return redis.call('HINCRBY',KEYS[1],ARGV[1],ARGV[2]);" ++
    "end")

/-- A client with the SHA-1 of its scripts, and the commands it has sent. -/
structure Session where
  world : World
  hincrbyShastr1 : CppString := []
  hmincrbyShastr1 : CppString := []
  sent : List (List CppString × Answer) := []

abbrev SessionAction := Effect Session Fault

/-- The answers to commands. -/
def answersIn (log : List Event) : List Answer :=
  log.filterMap fun
    | .request .command _ _ answer => some answer
    | _ => none

variable (env : Env) (strsha1 : CppString → CppString) (rounds : ℕ) (key : CppString) (numRetries : ℤ)

/-- `redis_command`, with the arguments that are sent by each attempt. -/
def sendCommand (args : List CppString) : SessionAction (Option Outcome) := fun session =>
  match redisCommand env rounds false numRetries key session.world with
  | (outcome, world) =>
      (outcome, { session with
        world := world
        sent := session.sent ++
          (answersIn (world.log.drop session.world.log.length)).map fun answer => (args, answer) })

def evalArgs (luaScripts key : CppString) (parameters : List CppString) : List CppString :=
  [text "EVAL", luaScripts, text "1", key] ++ parameters

def evalshaArgs (sha1 key : CppString) (parameters : List CppString) : List CppString :=
  [text "EVALSHA", sha1, text "1", key] ++ parameters

def eval (luaScripts : CppString) (parameters : List CppString) : SessionAction (Option Outcome) :=
  sendCommand env rounds key numRetries (evalArgs luaScripts key parameters)

def evalsha (sha1 : CppString) (parameters : List CppString) : SessionAction (Option Outcome) :=
  sendCommand env rounds key numRetries (evalshaArgs sha1 key parameters)

/-- How `hincrby` ends: `false`, `true` with what `newvalue` gets, or with an exception. -/
inductive Incremented where
  | returned (newvalue : Option ℤ)
  | thrown (errinfo : ErrorInfo)

def Incremented.isTrue : Incremented → Bool
  | .returned newvalue => newvalue.isSome
  | .thrown _ => false

/-- The value that a reply stands for; `nil` is the answer of a script that has found the marker. -/
def hincrbyValue : RedisReply → Option ℤ
  | .nil => none
  | .integer integer => some integer
  | .string str => some (string2int str)
  | _ => some 0

def hincrbyParameters (field : CppString) (increment : Int64) (uid : CppString) (expiredSeconds : UInt32) :
    List CppString :=
  [field, convertToString increment.toInt, uid, convertToString expiredSeconds.toNat]

/-- `EVALSHA` if the SHA-1 is known, and otherwise `EVAL`, from which it is known if this returns. -/
def hincrbySend (parameters : List CppString) : SessionAction (Option Outcome) := do
  let session ← get
  if session.hincrbyShastr1 ≠ [] then evalsha env rounds key numRetries session.hincrbyShastr1 parameters
  else
    match ← eval env rounds key numRetries hincrbyScript parameters with
    | some (.returned reply) => do
        modify fun session => { session with hincrbyShastr1 := strsha1 hincrbyScript }
        return some (.returned reply)
    | outcome => return outcome

/-- What is returned for a reply. -/
def hincrbyReturn : Option RedisReply → SessionAction Incremented
  | none => throw .dangling
  | some reply => return .returned (hincrbyValue reply)

/-- `hincrby` with a unique id; `none` when the rounds do not suffice. -/
def hincrby (field : CppString) (increment : Int64) (uid : CppString) (expiredSeconds : UInt32) :
    SessionAction (Option Incremented) := do
  let parameters := hincrbyParameters field increment uid expiredSeconds
  match ← hincrbySend env strsha1 rounds key numRetries parameters with
  | none => return none
  | some (.returned reply) => return some (← hincrbyReturn reply)
  | some (.thrown errinfo) =>
      if errinfo.errtype ≠ text "NOSCRIPT" then return some (.thrown errinfo)
      else
        -- only once, since the second exception is thrown on
        modify fun session => { session with hincrbyShastr1 := [] }
        match ← hincrbySend env strsha1 rounds key numRetries parameters with
        | none => return none
        | some (.returned reply) => return some (← hincrbyReturn reply)
        | some (.thrown errinfo) => return some (.thrown errinfo)

/-- The sessions of clients: between the calls of `hincrby` the tables change in any way. -/
inductive Used (strsha1 : CppString → CppString) : Session → Prop where
  | constructed (world : World) : Used strsha1 { world := world }
  | otherwise (session : Session) (world : World) : Used strsha1 session → Used strsha1 { session with world := world }
  | called (env : Env) (rounds : ℕ) (key : CppString) (numRetries : ℤ) (field : CppString) (increment : Int64)
      (uid : CppString) (expiredSeconds : UInt32) (session : Session) :
      Used strsha1 session →
      Used strsha1 (hincrby env strsha1 rounds key numRetries field increment uid expiredSeconds session).2

/-- `hmincrby_script`. -/
def hmincrbyScript : CppString :=
  text ("local hk='\x7b'..KEYS[1]..'\x7d'..ARGV[1];" ++
    "local ret=redis.call('SET',hk,'1','EX',ARGV[2],'NX');" ++
    "if not ret then" ++
    "  return nil;" ++
    "else" ++
    "  local results=\x7b\x7d;" ++
    "  local j=1;" ++
    "  for i=3,#ARGV,2" ++
    "  do" ++
    "    local f=ARGV[i];" ++
    "    local v=ARGV[i+1];" ++
    "    results[j]=redis.call('HINCRBY',KEYS[1],f,v);" ++
    "    j=j+1;" ++
    "  end" ++
    "  return results;" ++
    "end")

/-- A script, and the member of the client that has its SHA-1. -/
structure Script where
  luaScripts : CppString
  shastr1 : Session → CppString
  setShastr1 : CppString → Session → Session

/-- `EVALSHA` if the SHA-1 is known, and otherwise `EVAL`, from which it is known if this returns. -/
def Script.send (script : Script) (parameters : List CppString) : SessionAction (Option Outcome) := do
  let session ← get
  if script.shastr1 session ≠ [] then evalsha env rounds key numRetries (script.shastr1 session) parameters
  else
    match ← eval env rounds key numRetries script.luaScripts parameters with
    | some (.returned reply) => do
        modify (script.setShastr1 (strsha1 script.luaScripts))
        return some (.returned reply)
    | outcome => return outcome

def hincrbyMember : Script where
  luaScripts := hincrbyScript
  shastr1 := (·.hincrbyShastr1)
  setShastr1 shastr1 session := { session with hincrbyShastr1 := shastr1 }

def hmincrbyMember : Script where
  luaScripts := hmincrbyScript
  shastr1 := (·.hmincrbyShastr1)
  setShastr1 shastr1 session := { session with hmincrbyShastr1 := shastr1 }

theorem hincrbySend_eq (parameters : List CppString) :
    hincrbySend env strsha1 rounds key numRetries parameters =
      hincrbyMember.send env strsha1 rounds key numRetries parameters := by
  simp only [hincrbySend, Script.send, hincrbyMember]
  generalize hincrbyScript = luaScripts
  rfl

/-- How `hmincrby` ends: with what it returns and what `newvalues` is then, or with an exception. -/
inductive MultiIncremented where
  | returned (applied : Bool) (newvalues : Option (List ℤ))
  | thrown (errinfo : ErrorInfo)

def hmincrbyParameters (increments : List (CppString × Int64)) (uid : CppString) (expiredSeconds : UInt32) :
    List CppString :=
  uid :: convertToString expiredSeconds.toNat ::
    increments.flatMap fun increment => [increment.1, convertToString increment.2.toInt]

/-- `get_values` for integers. No elements leave the vector as it is. -/
def getIntegers (values : Option (List ℤ)) (element : List RedisReply) : Option (List ℤ) :=
  values.map fun values => if element.isEmpty then values else element.map integerField

/-- What is returned for a reply. -/
def hmincrbyReturn (newvalues : Option (List ℤ)) : Option RedisReply → SessionAction MultiIncremented
  | none => throw .dangling
  | some .nil => return .returned false newvalues
  | some (.array element) => return .returned true (getIntegers newvalues element)
  | some _ => return .returned true newvalues

/-- `hmincrby` with a unique id; `none` when the rounds do not suffice. -/
def hmincrby (increments : List (CppString × Int64)) (uid : CppString) (expiredSeconds : UInt32)
    (newvalues : Option (List ℤ)) : SessionAction (Option MultiIncremented) := do
  let parameters := hmincrbyParameters increments uid expiredSeconds
  match ← hmincrbyMember.send env strsha1 rounds key numRetries parameters with
  | none => return none
  | some (.returned reply) => return some (← hmincrbyReturn newvalues reply)
  | some (.thrown errinfo) =>
      if errinfo.errtype ≠ text "NOSCRIPT" then return some (.thrown errinfo)
      else
        -- only once, since the second exception is thrown on
        modify fun session => { session with hmincrbyShastr1 := [] }
        match ← hmincrbyMember.send env strsha1 rounds key numRetries parameters with
        | none => return none
        | some (.returned reply) => return some (← hmincrbyReturn newvalues reply)
        | some (.thrown errinfo) => return some (.thrown errinfo)

end CppRedis.Model.R3c
