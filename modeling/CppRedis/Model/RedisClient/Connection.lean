import CppRedis.Model.RedisClient.World

/-! # Connections and servers

`CRedisCommand`, `CRedisConnection` and `CRedisServer` of `RedisClient.cpp`, over hiredis. A context
answers its commands in the order in which they were appended, and after a failed call every later call
on it fails. `Network` decides, from all that happened before, which calls succeed, what the clock
shows and what the servers answer.
-/

namespace CppRedis.Model.RedisClient

open Machine RedisCpp

/-- `redisContext`. -/
structure RedisContext where
  host : CppString
  port : ℤ
  err : Bool := false
  /-- The commands appended and not answered yet, with their addresses. -/
  pending : List (ℕ × List CppString) := []

/-- `CRedisConnection`. Its server is passed to its functions. -/
structure CRedisConnection where
  pContext : Option RedisContext := none
  nUseTime : ℤ := 0

/-- `CRedisServer`. -/
structure CRedisServer where
  strHost : CppString := []
  nPort : ℤ := 0
  nCliTimeout : ℤ := 0
  nSerTimeout : ℤ := 0
  nConnNum : ℤ := 0
  queIdleConn : List CRedisConnection := []
  vecHosts : List (CppString × ℤ) := []

/-- `CRedisServer::IsValid`. -/
def CRedisServer.isValid (server : CRedisServer) : Bool := !server.queIdleConn.isEmpty

/-- The `CRedisServer` objects, and what the Redis servers hold. -/
structure Pool (ρ : Type) where
  server : ℕ → CRedisServer := fun _ => {}
  /-- The number of servers allocated so far. -/
  servers : ℕ := 0
  redis : ρ

/-- What surrounds the program. -/
structure Network (ρ : Type) where
  clock : List Event → ℤ
  connect : List Event → CppString × ℤ → Bool
  /-- Whether hiredis takes an appended command. -/
  append : List Event → Bool
  /-- `none` when a reply arrives, else how many of the pending commands were carried out. -/
  receive : List Event → Option ℕ
  /-- How often the refresh thread gets through its loop before a waiting caller goes on. -/
  rounds : List Event → ℕ
  /-- What the server at an address does with a command. -/
  serve : ρ → CppString × ℤ → List CppString → RedisReply × ρ

variable {ρ : Type} (net : Network ρ)

/-- A server carries out commands whose replies are lost. -/
def Network.serveAll (redis : ρ) (address : CppString × ℤ) : List (ℕ × List CppString) → ρ
  | [] => redis
  | (_, args) :: rest => Network.serveAll (net.serve redis address args).2 address rest

def modifyServer (serv : ℕ) (change : CRedisServer → CRedisServer) : Action (Pool ρ) Unit :=
  modify fun world => { world with
    servers := { world.servers with
      server := Function.update world.servers.server serv (change (world.servers.server serv)) } }

/-- `time(nullptr)`. -/
def time : Action (Pool ρ) ℤ := do
  let now := net.clock (← get).log
  modify (World.note (.time now))
  return now

/-- `redisConnectWithTimeout`, with the test of the context's `err`. -/
def redisConnect (strHost : CppString) (nPort : ℤ) : Action (Pool ρ) (Option RedisContext) := do
  let connected := net.connect (← get).log (strHost, nPort)
  modify (World.note (.connect strHost nPort connected))
  return if connected then some { host := strHost, port := nPort } else none

def redisAppendCommandArgv (context : RedisContext) (command : ℕ) :
    Action (Pool ρ) (Bool × RedisContext) := do
  let world ← get
  if context.err then return (false, context)
  else
    let taken := net.append world.log
    set (world.note (.append command taken))
    if taken then
      return (true, { context with pending := context.pending ++ [(command, (world.command command).args)] })
    else return (false, { context with err := true })

def redisGetReply (context : RedisContext) : Action (Pool ρ) (Option RedisReply × RedisContext) := do
  let world ← get
  if context.err then return (none, context)
  else
    match context.pending, net.receive world.log with
    | (command, args) :: rest, none =>
        let (reply, redis) := net.serve world.servers.redis (context.host, context.port) args
        set { world.note (.reply command reply) with servers := { world.servers with redis := redis } }
        return (some reply, { context with pending := rest })
    | pending, executed =>
        let done := pending.take (executed.getD 0)
        let redis := net.serveAll world.servers.redis (context.host, context.port) done
        set { world.note (.lost done.length) with servers := { world.servers with redis := redis } }
        return (none, { context with err := true })

/-- `redisCommandArgv`. -/
def redisCommandArgv (context : RedisContext) (command : ℕ) :
    Action (Pool ρ) (Option RedisReply × RedisContext) := do
  let (taken, context) ← redisAppendCommandArgv net context command
  if taken then redisGetReply net context
  else return (none, context)

namespace CRedisCommand

def cmdRequest (command : ℕ) (pContext : Option RedisContext) :
    Action (Pool ρ) (ReturnCode × Option RedisContext) := do
  if ((← get).command command).args.length ≤ 0 then return (.paramErr, pContext)
  else
    match pContext with
    | none => return (.rqstErr, none)
    | some context =>
        modify (World.setReply command none)
        let (pReply, context) ← redisCommandArgv net context command
        modify (World.setReply command pReply)
        return (if pReply.isSome then .success else .rqstErr, some context)

def cmdAppend (command : ℕ) (pContext : Option RedisContext) :
    Action (Pool ρ) (ReturnCode × Option RedisContext) := do
  if ((← get).command command).args.length ≤ 0 then return (.paramErr, pContext)
  else
    match pContext with
    | none => return (.rqstErr, none)
    | some context =>
        let (taken, context) ← redisAppendCommandArgv net context command
        return (if taken then .success else .rqstErr, some context)

/-- `CmdReply`; the context is not null here. -/
def cmdReply (command : ℕ) (context : RedisContext) : Action (Pool ρ) (ReturnCode × RedisContext) := do
  modify (World.setReply command none)
  let (pReply, context) ← redisGetReply net context
  modify (World.setReply command pReply)
  return (if pReply.isSome then .success else .rqstErr, context)

end CRedisCommand

namespace CRedisConnection

def connectToRedis (strHost : CppString) (nPort : ℤ) (conn : CRedisConnection) :
    Action (Pool ρ) (Bool × CRedisConnection) := do
  match ← redisConnect net strHost nPort with
  | none => return (false, { conn with pContext := none })
  | some context =>
      let now ← time net
      return (true, { pContext := some context, nUseTime := now })

/-- The loop of `Reconnect` over the known hosts. -/
def connectToAny (serv : ℕ) (conn : CRedisConnection) :
    List (CppString × ℤ) → Action (Pool ρ) (Bool × CRedisConnection)
  | [] => do
      modifyServer serv fun server => { server with strHost := [] }
      return (false, conn)
  | hostPair :: vecHosts => do
      let (connected, conn) ← connectToRedis net hostPair.1 hostPair.2 conn
      if connected then
        modifyServer serv fun server => { server with strHost := hostPair.1, nPort := hostPair.2 }
        return (true, conn)
      else connectToAny serv conn vecHosts

def reconnect (serv : ℕ) (conn : CRedisConnection) : Action (Pool ρ) (Bool × CRedisConnection) := do
  let server := (← get).servers.server serv
  if server.strHost = [] then connectToAny net serv conn server.vecHosts
  else
    let (connected, conn) ← connectToRedis net server.strHost server.nPort conn
    if connected then return (true, conn)
    else connectToAny net serv conn server.vecHosts

/-- The first lines of both `ConnRequest`: a connection that is down or was idle too long is renewed. -/
def refreshIdle (serv : ℕ) (tmNow : ℤ) (conn : CRedisConnection) :
    Action (Pool ρ) (Bool × CRedisConnection) := do
  if conn.pContext.isNone ∨ tmNow - conn.nUseTime ≥ ((← get).servers.server serv).nSerTimeout then
    reconnect net serv conn
  else return (true, conn)

/-- `ConnRequest(CRedisCommand *)`. -/
def connRequest (serv command : ℕ) (conn : CRedisConnection) :
    Action (Pool ρ) (ReturnCode × CRedisConnection) := do
  let tmNow ← time net
  let (ready, conn) ← refreshIdle net serv tmNow conn
  if !ready then return (.rqstErr, conn)
  else
    let (nRet, pContext) ← CRedisCommand.cmdRequest net command conn.pContext
    let conn := { conn with pContext := pContext }
    if nRet = .rqstErr then
      if tmNow - conn.nUseTime < ((← get).servers.server serv).nSerTimeout then return (nRet, conn)
      else
        let (connected, conn) ← reconnect net serv conn
        if !connected then return (.rqstErr, conn)
        else
          let (nRet, pContext) ← CRedisCommand.cmdRequest net command conn.pContext
          return (nRet, { pContext := pContext, nUseTime := if nRet = .rqstErr then conn.nUseTime else tmNow })
    else return (nRet, { conn with nUseTime := tmNow })

/-- The first loop of the pipelined `ConnRequest`. -/
def appendAll (pContext : Option RedisContext) : List ℕ → Action (Pool ρ) (ReturnCode × Option RedisContext)
  | [] => return (.success, pContext)
  | command :: vecRedisCmd => do
      let (nRet, pContext) ← CRedisCommand.cmdAppend net command pContext
      if nRet = .success then appendAll pContext vecRedisCmd
      else return (nRet, pContext)

/-- The second loop of the pipelined `ConnRequest`. -/
def replyAll (context : RedisContext) : List ℕ → Action (Pool ρ) (ReturnCode × RedisContext)
  | [] => return (.success, context)
  | command :: vecRedisCmd => do
      let (nRet, context) ← CRedisCommand.cmdReply net command context
      if nRet = .success then replyAll context vecRedisCmd
      else return (nRet, context)

/-- `ConnRequest(std::vector<CRedisCommand *> &)`. -/
def connRequests (serv : ℕ) (vecRedisCmd : List ℕ) (conn : CRedisConnection) :
    Action (Pool ρ) (ReturnCode × CRedisConnection) := do
  let tmNow ← time net
  let (ready, conn) ← refreshIdle net serv tmNow conn
  if !ready then return (.rqstErr, conn)
  else
    let (nRet, pContext) ← appendAll net conn.pContext vecRedisCmd
    match nRet, pContext with
    | .success, some context =>
        let (nRet, context) ← replyAll net context vecRedisCmd
        return (nRet, { conn with pContext := some context })
    | _, _ => return (nRet, { conn with pContext := pContext })

end CRedisConnection

namespace CRedisServer

def cleanConn (serv : ℕ) : Action (Pool ρ) Unit :=
  modifyServer serv fun server => { server with queIdleConn := [] }

def fetchConnection (serv : ℕ) : Action (Pool ρ) (Option CRedisConnection) := do
  match ((← get).servers.server serv).queIdleConn with
  | [] => return none
  | conn :: rest =>
      modifyServer serv fun server => { server with queIdleConn := rest }
      return some conn

def returnConnection (serv : ℕ) (conn : CRedisConnection) : Action (Pool ρ) Unit :=
  modifyServer serv fun server => { server with queIdleConn := server.queIdleConn ++ [conn] }

/-- The loop at the start of `ServRequest`. -/
def awaitConnection (serv : ℕ) : ℕ → Action (Pool ρ) (Option CRedisConnection)
  | 0 => return none
  | nTry + 1 => do
      match ← fetchConnection serv with
      | some conn => return some conn
      | none => awaitConnection serv nTry

/-- `RQST_RETRY_TIMES`. -/
def rqstRetryTimes : ℕ := 3

/-- Both `ServRequest`, around their `ConnRequest`. -/
def servRequestWith (serv : ℕ) (request : CRedisConnection → Action (Pool ρ) (ReturnCode × CRedisConnection)) :
    Action (Pool ρ) ReturnCode := do
  match ← awaitConnection serv rqstRetryTimes with
  | none => return .noResource
  | some conn =>
      let (nRet, conn) ← request conn
      returnConnection serv conn
      return nRet

/-- `ServRequest(CRedisCommand *)`. -/
def servRequest (serv command : ℕ) : Action (Pool ρ) ReturnCode :=
  servRequestWith serv (CRedisConnection.connRequest net serv command)

/-- `ServRequest(std::vector<CRedisCommand *> &)`. -/
def servRequests (serv : ℕ) (vecRedisCmd : List ℕ) : Action (Pool ρ) ReturnCode :=
  servRequestWith serv (CRedisConnection.connRequests net serv vecRedisCmd)

/-- The loop of `Initialize` that opens the connections. -/
def openConnections (serv : ℕ) : ℕ → Action (Pool ρ) Unit
  | 0 => return ()
  | count + 1 => do
      let (_, conn) ← CRedisConnection.reconnect net serv {}
      if conn.pContext.isSome then returnConnection serv conn
      openConnections serv count

/-- The request of `Initialize` for the timeout of the server. -/
def askTimeout (serv : ℕ) : Action (Pool ρ) Unit := do
  let command ← newCommand { args := [text "config", text "get", text "timeout"] }
  let nRet ← servRequest net serv command
  match nRet, ((← get).command command).pReply.map fetchStringArray with
  | .success, some (.success, some [_, value]) =>
      modifyServer serv fun server => { server with nSerTimeout := atoi value }
  | _, _ => return ()

/-- `CRedisServer::Initialize`. -/
def initializeServer (serv : ℕ) : Action (Pool ρ) Bool := do
  cleanConn serv
  openConnections net serv ((← get).servers.server serv).nConnNum.toNat
  if ((← get).servers.server serv).isValid then askTimeout net serv
  return ((← get).servers.server serv).isValid

/-- `new CRedisServer`. -/
def new (strHost : CppString) (nPort nTimeout nConnNum : ℤ) : Action (Pool ρ) ℕ := do
  let serv := (← get).servers.servers
  modify fun world => { world with servers := { world.servers with servers := serv + 1 } }
  modifyServer serv fun _ => {
    strHost := strHost, nPort := nPort, nCliTimeout := nTimeout, nConnNum := nConnNum
    vecHosts := [(strHost, nPort)] }
  let _ ← initializeServer net serv
  return serv

end CRedisServer

end CppRedis.Model.RedisClient
