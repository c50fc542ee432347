import CppRedis.Model.R3c.Refresh
import CppRedis.Model.R3c.Utils

/-! # Commands

`redis_command`, `get_redis_node` and what they call, from `r3c.cpp`. The address that an exception names,
`which` and the reply of a failed command are left out.
-/

namespace CppRedis.Model.R3c

open Machine RedisCpp RedisClient

inductive HandleResult where
  | success
  | error
  | retryCond
  | retryUncond
  | reconnCond
  | reconnUncond
  | redirect
deriving DecidableEq, Repr

def HandleResult.isReconn (result : HandleResult) : Bool := result = .reconnCond || result = .reconnUncond

/-- How `redis_command` ends. -/
inductive Outcome where
  | returned (reply : Option RedisReply)
  | thrown (errinfo : ErrorInfo)

/-- What comes of a round of its loop. -/
inductive Turn where
  | finish (outcome : Outcome)
  /-- The next round, with `ask_node`. -/
  | again (askNode : Option Node)

/-- The largest `int`. -/
def intMax : ℕ := 2147483647

variable (env : Env)

/-- Connects an entry of the tables that has no context. -/
def ensureContext (redisNode : NodeRef) : Action Bool := do
  let entry ← entryAt redisNode
  match entry.context with
  | some _ => return true
  | none =>
      let context ← connectRedisNode env entry.node false
      modifyClient (CRedisClient.modifyAt (·.setRedisContext context) redisNode)
      return context.isSome

def randomRedisMasterNode : Action (Option Node) := do
  let world ← get
  let masters := env.order world.log world.client.masters.keys
  if masters = [] then return none
  else if world.client.nodes = [] then throw .divisionByZero
  else return masters[(env.random world.log).toNat % world.client.nodes.length % masters.length]?

/-- `choose_node` of a master. -/
def chooseNode (node : Node) : Action NodeRef := do
  let world ← get
  match world.client.masters.lookup node with
  | none => throw .dangling
  | some master =>
      let replicas := env.order world.log master.replicas.keys
      if replicas = [] then return .master node
      else
        let k := master.index.toNat % (replicas.length + 1)
        modifyClient (CRedisClient.modifyMaster node fun master => { master with index := master.index + 1 })
        if world.client.readPolicy = .readReplica ∧ k = replicas.length then return .master node
        else return .replica node (replicas.getD (k % replicas.length) ([], 0))

/-- `get_redis_node` for a single server. -/
def standaloneNode : Action (Option NodeRef) := do
  let world ← get
  check env (world.client.masters.keys ≠ [])
  match env.order world.log world.client.masters.keys with
  | [] => throw .emptyTable
  | node :: _ =>
      let _ ← ensureContext env (.master node)
      return some (.master node)

/-- An empty table is filled again. -/
def refill : Action Bool := do
  if (← get).client.masters.keys ≠ [] then return true
  else
    modifyClient fun client => { client with nodes := client.nodes ++ parseNodes client.nodesString }
    check env (1 < (← get).client.nodes.length)
    initCluster env

/-- The master of a slot or of a redirection, or any master. -/
def findMaster (slot : ℕ) (askNode : Option Node) : Action (Option Node) := do
  let client := (← get).client
  let node := askNode.getD (client.slot2node slot)
  if (client.masters.lookup node).isSome then return some node else randomRedisMasterNode env

/-- The node that is read from, once its master has been connected or not. -/
def readNode (readonly : Bool) (node : Node) (connected : Bool) : Action NodeRef := do
  let policy := (← get).client.readPolicy
  if !readonly ∨ policy = .onlyMaster then return .master node
  else if connected ∧ policy = .priorityMaster then return .master node
  else
    let redisNode ← chooseNode env node
    if ← ensureContext env redisNode then return redisNode else return .master node

/-- `get_redis_node` for a cluster. -/
def clusterNode (slot : ℕ) (readonly : Bool) (askNode : Option Node) : Action (Option NodeRef) := do
  check env (slot < clusterSlots)
  if ← refill env then
    match ← findMaster env slot askNode with
    | none => return none
    | some node =>
        let connected ← ensureContext env (.master node)
        let redisNode ← readNode env readonly node connected
        return some redisNode
  else return none

/-- `get_redis_node`, with no slot where it is -1. -/
def getRedisNode (slot : Option ℕ) (readonly : Bool) (askNode : Option Node) : Action (Option NodeRef) :=
  match slot with
  | none => standaloneNode env
  | some slot => clusterNode env slot readonly askNode

def handleRedisCommandError (redisNode : NodeRef) (err : Option RedisErr) : Action HandleResult := do
  let world ← get
  setErrinfo { world.errinfo with errcode := env.errno world.log }
  if err ≠ some .io ∧ err ≠ some .eof then return .error
  else
    modifyClient (CRedisClient.modifyAt (fun entry => { entry with connErrors := entry.connErrors + 1 }) redisNode)
    return .reconnCond

/-- The result that an error type stands for. -/
def errtypeResult (errtype : CppString) : HandleResult :=
  if errtype = text "CLUSTERDOWN" then .retryUncond
  else if errtype = text "ASK" then .redirect
  else if errtype = text "MOVED" then .retryUncond
  else .error

def handleRedisReplayError (redisNode : NodeRef) (str : CppString) : Action HandleResult := do
  let errtype := extractErrtype str (← get).errinfo.errtype
  setErrinfo { errcode := errorCommand, errtype := errtype }
  provided (errtype = text "MOVED")
    (modifyClient (CRedisClient.modifyAt ({ · with connErrors := 2019 }) redisNode))
  return errtypeResult errtype

def handleRedisReply (redisNode : NodeRef) (reply : RedisReply) : Action HandleResult := do
  modifyClient (CRedisClient.modifyAt ({ · with connErrors := 0 }) redisNode)
  match reply with
  | .error str => handleRedisReplayError redisNode str
  | _ => return .success

/-- `ASKING` if the command is redirected. A null reply leaves an error in the context. -/
def askFirst (asked : Bool) (redisNode : NodeRef) (node : Node) (context : RedisContext) : Action RedisContext := do
  if asked then
    let (_, context) ← send env .asking (some redisNode) node context
    return context
  else return context

/-- The command, over the connection of a node if there is one. -/
def transmit (asked : Bool) (redisNode : NodeRef) : Action (HandleResult × Option RedisReply) := do
  let entry ← entryAt redisNode
  match entry.context with
  | none => return (.reconnUncond, none)
  | some context =>
      let context ← askFirst env asked redisNode entry.node context
      let (reply, context) ← send env .command (some redisNode) entry.node context
      modifyClient (CRedisClient.modifyAt ({ · with context := some context }) redisNode)
      match reply with
      | none =>
          let result ← handleRedisCommandError env redisNode context.err
          return (result, none)
      | some reply =>
          let result ← handleRedisReply redisNode reply
          return (result, some reply)

/-- The tests on `loop_counter` that do not end the loop. -/
def goesOn (result : HandleResult) (loopCounter : ℕ) (numRetries : ℤ) : Bool :=
  match result with
  | .reconnUncond => !(numRetries < loopCounter && 0 < loopCounter)
  | .retryUncond => !(numRetries < loopCounter)
  | _ => !(numRetries ≤ loopCounter)

/-- `redis_reply->str` of an error. -/
def errorStr : Option RedisReply → CppString
  | some (.error str) => cStr str
  | _ => []

/-- The exception that leaves the loop. -/
def giveUp : Action Turn := return .finish (.thrown (← get).errinfo)

/-- The masters are refreshed when a node has failed often enough. -/
def refreshIfNeeded (result : HandleResult) (redisNode : NodeRef) (node : Node) : Action Unit := do
  let entry ← entryAt redisNode
  let client := (← get).client
  provided (client.clusterMode ∧ entry.needRefreshMaster)
    (refreshMasterNodeTable env (if result.isReconn then some node else none))

/-- A failed attempt that may be followed by another one. -/
def retry (numRetries : ℤ) (loopCounter : ℕ) (redisNode : NodeRef) (node : Node) (result : HandleResult) :
    Action Turn := do
  provided result.isReconn (modifyClient (CRedisClient.modifyAt (·.close) redisNode))
  if goesOn result loopCounter numRetries then
    refreshIfNeeded env result redisNode node
    return .again none
  else giveUp

/-- What follows a transmission. -/
def conclude (numRetries : ℤ) (loopCounter : ℕ) (redisNode : NodeRef) (node : Node) (result : HandleResult)
    (reply : Option RedisReply) : Action Turn :=
  match result with
  | .success => return .finish (.returned reply)
  | .error => giveUp
  | .redirect =>
      match parseMovedString (errorStr reply) with
      | none => giveUp
      | some askNode => if loopCounter ≤ 2 then return .again (some askNode) else giveUp
  | result => retry env numRetries loopCounter redisNode node result

/-- No node is left. -/
def noAnyNode : Action Turn := do
  let errinfo := (← get).errinfo
  setErrinfo { errinfo with errcode := errorNoAnyNode }
  giveUp

/-- An attempt on a node. -/
def attempt (numRetries : ℤ) (loopCounter : ℕ) (askNode : Option Node) (redisNode : NodeRef) : Action Turn := do
  let entry ← entryAt redisNode
  let (result, reply) ← transmit env askNode.isSome redisNode
  conclude env numRetries loopCounter redisNode entry.node result reply

/-- A round of the loop of `redis_command`. -/
def round (readonly : Bool) (numRetries : ℤ) (key : CppString) (loopCounter : ℕ) (askNode : Option Node) :
    Action Turn := do
  let world ← get
  let slot := if world.client.clusterMode then some (getKeySlot (env.random world.log).toNat key) else none
  let redisNode ← getRedisNode env slot readonly askNode
  modify (World.note (.attempt redisNode))
  match redisNode with
  | none => noAnyNode
  | some redisNode => attempt env numRetries loopCounter askNode redisNode

/-- The loop, for some rounds. -/
def commandLoop (readonly : Bool) (numRetries : ℤ) (key : CppString) :
    ℕ → ℕ → Option Node → Action (Option Outcome)
  | 0, _, _ => return none
  | rounds + 1, loopCounter, askNode => do
      match ← round env readonly numRetries key loopCounter askNode with
      | .finish outcome => return some outcome
      | .again askNode =>
          if loopCounter = intMax then throw .overflow
          else commandLoop readonly numRetries key rounds (loopCounter + 1) askNode

/-- `redis_command`; `none` when the rounds do not suffice. -/
def redisCommand (rounds : ℕ) (readonly : Bool) (numRetries : ℤ) (key : CppString) : Action (Option Outcome) := do
  setErrinfo {}
  if (← get).client.clusterMode ∧ key = [] then return some (.thrown { errcode := errorZeroKey })
  else commandLoop env readonly numRetries key rounds 0 none

end CppRedis.Model.R3c
