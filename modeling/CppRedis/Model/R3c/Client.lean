import CppRedis.Model.R3c.Command

/-! # The client as a whole

The constructor of `CRedisClient` and `list_nodes`, from `r3c.cpp`, and the runs of a client. Where the source
throws an exception the result tells so.
-/

namespace CppRedis.Model.R3c

open Machine RedisCpp RedisClient

def errorParameter : ℤ := -1

/-- A client whose members have been initialized. -/
def newClient (rawNodesString : CppString) (readPolicy : ReadPolicy) : CRedisClient where
  nodes := []
  rawNodesString := rawNodesString
  nodesString := []
  readPolicy := readPolicy

variable (env : Env)

def initStandlone (node : Node) : Action Bool := do
  modifyClient fun client => { client with nodesString := client.rawNodesString }
  match ← connectRedisNode env node false with
  | none => return false
  | some context =>
      let absent := ((← get).client.masters.lookup node).isNone
      check env absent
      provided absent (modifyClient fun client =>
        { client with masters := client.masters.insert node { nodeid := [], node := node, context := some context } })
      return true

/-- `init`; `false` when it throws. -/
def init : Action Bool := do
  modifyClient fun client => { client with nodes := client.nodes ++ parseNodes client.rawNodesString }
  match (← get).client.nodes with
  | [] => do
      setErrinfo { errcode := errorParameter }
      return false
  | [node] => initStandlone env node
  | _ => initCluster env

/-- The loop of `list_nodes` over the masters, until one lists the nodes. -/
def listNodesLoop : List Node → Action (Option (List NodeInfo))
  | [] => return none
  | node :: nodes => do
      let redisNode ← entryAt (.master node)
      match redisNode.context with
      | none => listNodesLoop nodes
      | some context =>
          let (nodesInfo, context) ← listClusterNodes env (some (.master node)) node context
          modifyClient (CRedisClient.modifyAt ({ · with context := some context }) (.master node))
          match nodesInfo with
          | none => listNodesLoop nodes
          | some nodesInfo => return some nodesInfo

/-- `list_nodes`; `none` when it throws. -/
def listNodes : Action (Option (List NodeInfo)) := do
  setErrinfo {}
  let world ← get
  listNodesLoop env (env.order world.log world.client.masters.keys)

/-- The states between the calls of a run. -/
inductive Reached : World → Prop where
  | constructed (rawNodesString : CppString) (readPolicy : ReadPolicy) (world : World) :
      init env { client := newClient rawNodesString readPolicy } = (.ok true, world) → Reached world
  | commanded (source target : World) (rounds : ℕ) (readonly : Bool) (numRetries : ℤ) (key : CppString)
      (outcome : Outcome) :
      Reached source → redisCommand env rounds readonly numRetries key source = (.ok (some outcome), target) →
      Reached target
  | listed (source target : World) (nodesInfo : Option (List NodeInfo)) :
      Reached source → listNodes env source = (.ok nodesInfo, target) → Reached target

end CppRedis.Model.R3c
