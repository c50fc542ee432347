import CppRedis.Model.RedisClient.Commands

/-! # The use of a pipeline

What a caller can do with a pipeline, one call at a time, and `Mget` and `Mset` in cluster mode, which
make a pipeline of their own. A call that follows a null pointer is the last one.
-/

namespace CppRedis.Model.RedisClient

open Machine RedisCpp

/-- What the overloads of `FetchReply` that look into a reply take out of it. -/
inductive FetchType where
  | long
  | string
  | vectorLong
  | vectorString
deriving DecidableEq, Repr

section

variable {σ : Type}

/-- The overloads of `FetchReply`, without the values. -/
def FetchType.fetchReply (ppLine : CRedisPipeline) : FetchType → Action σ (ReturnCode × CRedisPipeline)
  | .long => do
      let ((nRet, _), ppLine) ← RedisClient.fetchReply fetchInteger ppLine
      return (nRet, ppLine)
  | .string => do
      let ((nRet, _), ppLine) ← RedisClient.fetchReply fetchString ppLine
      return (nRet, ppLine)
  | .vectorLong => do
      let ((nRet, _), ppLine) ← RedisClient.fetchReply fetchIntegerArray ppLine
      return (nRet, ppLine)
  | .vectorString => do
      let ((nRet, _), ppLine) ← RedisClient.fetchReply fetchStringArray ppLine
      return (nRet, ppLine)

end

/-- A caller with its pipeline. -/
structure PipelineUser (σ : Type) where
  world : World σ
  ppLine : CRedisPipeline := {}
  /-- The pointer or position that was followed and leads nowhere. -/
  fault : Option Fault := none
  /-- A call had commands without a reply, and its code was not negative. -/
  silent : Bool := false

inductive PipelineEvent where
  | createPipeline
  | queueCommand (args : List CppString) (nSlot : ℤ) (funcConv : Convert)
  | flushPipeline
  | fetchReply (type : FetchType)
  | fetchRawReply
  | mget (vecKey : List CppString)
  | mset (vecKey vecVal : List CppString)

namespace PipelineUser

variable {σ : Type} (servers : Servers σ)

/-- What a program leaves to the caller. -/
def after {α : Type} (user : PipelineUser σ) (program : Action σ α) (next : α → World σ → PipelineUser σ) :
    PipelineUser σ :=
  match program user.world with
  | .ok (value, world) => next value world
  | .error fault => { user with fault := some fault }

/-- Some of these commands have no reply, and the code is not negative. -/
def unreported (world : World σ) (nRet : ReturnCode) (vecCmd : List ℕ) : Bool :=
  0 ≤ nRet.value && vecCmd.any fun command => (world.command command).pReply.isNone

/-- The command that the next fetch is for. -/
def fetched (user : PipelineUser σ) : List ℕ := user.ppLine.vecCmd[user.ppLine.nCursor]?.toList

/-- A method in cluster mode that queues this many commands and returns a code. -/
def call (user : PipelineUser σ) (commands : ℕ) (program : Action σ ReturnCode) : PipelineUser σ :=
  if user.world.client.bCluster then
    user.after program fun nRet world => { user with
      world := world
      silent := user.silent || unreported world nRet (List.range' user.world.commands commands) }
  else user

def step (user : PipelineUser σ) (event : PipelineEvent) : PipelineUser σ :=
  if user.fault.isSome then user
  else
    match event with
    | .createPipeline => { user with ppLine := {} }
    | .queueCommand args nSlot funcConv =>
        user.after (queueImpl args nSlot user.ppLine funcConv) fun ppLine world =>
          { user with world := world, ppLine := ppLine }
    | .flushPipeline =>
        user.after (RedisClient.flushPipeline servers (some user.ppLine)) fun nRet world => { user with
          world := world
          silent := user.silent || unreported world nRet user.ppLine.vecCmd }
    | .fetchReply type =>
        user.after (type.fetchReply user.ppLine) fun (nRet, ppLine) world => { user with
          world := world
          ppLine := ppLine
          silent := user.silent || unreported world nRet user.fetched }
    | .fetchRawReply =>
        user.after (RedisClient.fetchRawReply user.ppLine) fun ((nRet, _), ppLine) world => { user with
          world := world
          ppLine := ppLine
          silent := user.silent || unreported world nRet user.fetched }
    | .mget vecKey =>
        user.call vecKey.length do
          let (nRet, _) ← RedisClient.mget servers vecKey []
          return nRet
    | .mset vecKey vecVal => user.call vecKey.length (RedisClient.mset servers vecKey vecVal)

end PipelineUser

end CppRedis.Model.RedisClient
