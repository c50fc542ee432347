import CppRedis.Machine.StringStream
import CppRedis.Model.RedisClient.Connection

/-! # Replicas of a server

`ConvertToMapInfo`, `LoadSlaveInfo` and `CRedisServer::SetSlave` of `RedisClient.cpp`, which take the addresses of the
replicas out of what a server says of itself.
-/

namespace CppRedis.Model.RedisClient

open Machine RedisCpp

/-- `isspace`. -/
def isSpace (byte : UInt8) : Bool := byte = 32 || (9 ≤ byte && byte ≤ 13)

/-- `std::map`, with what is found under a key. -/
abbrev InfoMap := CppString → Option CppString

/-- `insert`, which leaves a value that is there. -/
def InfoMap.insert (mapVal : InfoMap) (key value : CppString) : InfoMap :=
  match mapVal key with
  | none => Function.update mapVal key (some value)
  | some _ => mapVal

/-- The loop of `ConvertToMapInfo`, and whether it gets to its end. -/
def insertLines (mapVal : InfoMap) : List CppString → Bool × InfoMap
  | [] => (true, mapVal)
  | strLine :: rest =>
      if strLine.head? = none ∨ strLine.head? = some 0x0D ∨ strLine.head? = some 0x23 then insertLines mapVal rest
      else
        match strLine.dropWhile (· ≠ 0x3A) with
        | [] => (false, mapVal)
        | _ :: value => insertLines (mapVal.insert (strLine.takeWhile (· ≠ 0x3A)) value) rest

def convertToMapInfo (strVal : CppString) (mapVal : InfoMap) : Bool × InfoMap :=
  insertLines mapVal (StringStream.lines 0x0A strVal)

def CRedisServer.setSlave (server : CRedisServer) (strHost : CppString) (nPort : ℤ) : CRedisServer :=
  { server with vecHosts := server.vecHosts ++ [(strHost, nPort)] }

/-- What the inner loop of `LoadSlaveInfo` makes of a word. -/
def readItem (found : CppString × ℤ) (strItem : CppString) : CppString × ℤ :=
  if strItem.take 3 = text "ip=" then (strItem.drop 3, found.2)
  else if strItem.take 5 = text "port=" then (found.1, atoi (strItem.drop 5))
  else found

/-- The loop of `LoadSlaveInfo`, for so many rounds from a number on. `ss.str()` leaves the stream as it is. -/
def loadSlaves (mapInfo : InfoMap) : ℕ → ℕ → StringStream UInt8 → CRedisServer → CRedisServer
  | 0, _, _, server => server
  | rounds + 1, i, ss, server =>
      let ss := (ss.write (text "slave")).write (convertToString i)
      match mapInfo ss.text with
      | none => loadSlaves mapInfo rounds (i + 1) ss server
      | some value =>
          let (items, ss) := (ss.setText value).readAll isSpace
          let (strHost, nPort) := items.foldl readItem ([], -1)
          if strHost ≠ [] ∧ nPort ≠ -1 then loadSlaves mapInfo rounds (i + 1) ss (server.setSlave strHost nPort)
          else loadSlaves mapInfo rounds (i + 1) ss server

/-- `LoadSlaveInfo`, for the first server. -/
def loadSlaveInfo (mapInfo : InfoMap) (server : CRedisServer) : CRedisServer :=
  match mapInfo (text "connected_slaves") with
  | none => server
  | some value => loadSlaves mapInfo (atoi value).toNat 0 {} server

end CppRedis.Model.RedisClient
