import Mathlib.Data.List.Basic
import Mathlib.Logic.Function.Basic

/-! # `stClientInfo`

A slot of the network layer, from `ServerNetwork/ClientInfo.h`. What Winsock answers to a call is an
argument of the function that makes it; a socket is a number, and `none` is `INVALID_SOCKET`, on which
every call fails. The operations of one slot are then put together with what Winsock still has to
complete and with a history of its sends.
-/

namespace CppRedis.Model.GameServer

/-- `RE_USE_SESSION_WAIT_TIMESEC`. -/
def reUseSessionWaitTimeSec : ℕ := 3

/-- `UINT32_MAX`, written into `mLatestClosedTimeSec` as a mark. -/
def uint32Max : ℕ := 4294967295

/-- What `CreateIoCompletionPort` returns; a failure is documented to be `NULL`. -/
inductive Handle where
  | null
  | invalidHandleValue
  | port
deriving DecidableEq, Repr

/-- An `stOverlappedEx` that `SendMsg` has allocated, and its `m_wsaBuf`. -/
structure OverlappedEx where
  address : ℕ
  wsaBuf : List UInt8
deriving DecidableEq, Repr

/-- `stClientInfo`. -/
structure ClientInfo where
  mIsConnect : Bool := false
  mLatestClosedTimeSec : ℕ := 0
  mSocket : Option ℕ := none
  mSendDataqueue : List OverlappedEx := []
deriving DecidableEq, Repr

namespace ClientInfo

variable (client : ClientInfo)

/-- `stClientInfo::IsConnectd`. -/
def isConnectd : Bool := client.mIsConnect

/-- `stClientInfo::Clear`, which does nothing. -/
def clear : ClientInfo := client

/-- `stClientInfo::BindIOCompletionPort`. The result is compared with a value that no failure returns. -/
def bindIOCompletionPort (hIOCP : Handle) : Bool := hIOCP ≠ .invalidHandleValue

/-- `stClientInfo::BindRecv`; `wsaRecv` says whether Winsock takes the receive. -/
def bindRecv (wsaRecv : Bool) : Bool := client.mSocket.isSome && wsaRecv

/-- `stClientInfo::OnConnect`. -/
def onConnect (socket : Option ℕ) (hIOCP : Handle) (wsaRecv : Bool) : Bool × ClientInfo :=
  let client := clear { client with mSocket := socket, mIsConnect := true }
  if bindIOCompletionPort hIOCP = false then (false, client) else (client.bindRecv wsaRecv, client)

/-- `stClientInfo::AcceptCompletion`. -/
def acceptCompletion (hIOCP : Handle) (wsaRecv : Bool) : Bool × ClientInfo :=
  client.onConnect client.mSocket hIOCP wsaRecv

/-- `stClientInfo::Close`. The socket's linger option is all that `bIsForce` changes. -/
def close (now : ℕ) : ClientInfo :=
  { client with mIsConnect := false, mLatestClosedTimeSec := now, mSocket := none }

/-- `stClientInfo::PostAccept`: the mark is written before the two calls that may fail. -/
def postAccept (wsaSocket : Option ℕ) (acceptEx : Bool) : Bool × ClientInfo :=
  (wsaSocket.isSome && acceptEx, { client with mLatestClosedTimeSec := uint32Max, mSocket := wsaSocket })

/-- `stClientInfo::SendIO`: the buffer it hands to `WSASend`, and whether Winsock takes it. -/
def sendIO (wsaSend : Bool) : Option (OverlappedEx × Bool) :=
  client.mSendDataqueue.head?.map fun front => (front, client.mSocket.isSome && wsaSend)

/-- `stClientInfo::SendMsg`, and its call of `SendIO`. -/
def sendMsg (sendOverlappedEx : OverlappedEx) (wsaSend : Bool) :
    ClientInfo × Option (OverlappedEx × Bool) :=
  let client := { client with mSendDataqueue := client.mSendDataqueue ++ [sendOverlappedEx] }
  (client, if client.mSendDataqueue.length = 1 then client.sendIO wsaSend else none)

/-- `stClientInfo::SendCompleted`, and its call of `SendIO`. -/
def sendCompleted (wsaSend : Bool) : ClientInfo × Option (OverlappedEx × Bool) :=
  let client := { client with mSendDataqueue := client.mSendDataqueue.tail }
  (client, if client.mSendDataqueue.isEmpty = false then client.sendIO wsaSend else none)

/-- What `AcceptCompletion` does to a slot, whether it succeeds or not. -/
theorem acceptCompletion_client (hIOCP : Handle) (wsaRecv : Bool) :
    (client.acceptCompletion hIOCP wsaRecv).2 = { client with mIsConnect := true } := by
  simp only [acceptCompletion, onConnect, clear]
  split_ifs <;> rfl

theorem acceptCompletion_eq_true_iff (hIOCP : Handle) (wsaRecv : Bool) :
    (client.acceptCompletion hIOCP wsaRecv).1 = true ↔
      hIOCP ≠ .invalidHandleValue ∧ client.mSocket.isSome = true ∧ wsaRecv = true := by
  simp only [acceptCompletion, onConnect, clear, bindIOCompletionPort, bindRecv, decide_eq_false_iff_not,
    Decidable.not_not]
  split_ifs with invalid
  · exact iff_of_false nofun fun bound => bound.1 invalid
  · rw [Bool.and_eq_true, iff_and_self]
    exact fun _ => invalid

end ClientInfo

/-- A slot, the sends that Winsock has not completed, and the history of its sends. -/
structure Traffic where
  client : ClientInfo := {}
  outstanding : List OverlappedEx := []
  /-- The number of `stOverlappedEx` allocated so far. -/
  allocated : ℕ := 0
  /-- The connections accepted so far; the last one is number `accepted`. -/
  accepted : ℕ := 0
  /-- What was passed to `SendMsg` after each accept and before the next. -/
  passed : ℕ → List OverlappedEx := fun _ => []
  /-- What was handed to `WSASend` while the slot was serving each connection. -/
  handed : ℕ → List OverlappedEx := fun _ => []

/-- A step of the packet thread, of the accepter or of an IO worker on the slot. -/
inductive TrafficEvent where
  | sendMsg (bytes : List UInt8) (wsaSend : Bool)
  /-- A send has completed. -/
  | sendCompleted (overlapped : OverlappedEx) (wsaSend : Bool)
  /-- A send has failed, or has completed with no bytes. -/
  | sendFailed (overlapped : OverlappedEx) (now : ℕ)
  /-- A receive has failed, or has completed with no bytes. -/
  | closeSocket (now : ℕ)
  | postAccept (wsaSocket : Option ℕ) (acceptEx : Bool)
  | acceptCompletion (hIOCP : Handle) (wsaRecv : Bool) (now : ℕ)

namespace Traffic

variable (traffic : Traffic)

/-- The current connection. -/
def passedNow : List OverlappedEx := traffic.passed traffic.accepted

def handedNow : List OverlappedEx := traffic.handed traffic.accepted

/-- What a call of `SendIO` leaves with Winsock and in the history. -/
def wsaSend : Option (OverlappedEx × Bool) → Traffic
  | none => traffic
  | some (overlapped, taken) =>
      { traffic with
        outstanding := if taken then traffic.outstanding ++ [overlapped] else traffic.outstanding
        handed :=
          if traffic.client.isConnectd then
            Function.update traffic.handed traffic.accepted (traffic.handedNow ++ [overlapped])
          else traffic.handed }

/-- `SendMsg` with a new `stOverlappedEx`. -/
def sendMsg (bytes : List UInt8) (wsaSend : Bool) : Traffic :=
  let sendOverlappedEx : OverlappedEx := ⟨traffic.allocated, bytes⟩
  let (client, handed) := traffic.client.sendMsg sendOverlappedEx wsaSend
  Traffic.wsaSend
    { traffic with
      client := client
      allocated := traffic.allocated + 1
      passed := Function.update traffic.passed traffic.accepted (traffic.passedNow ++ [sendOverlappedEx]) }
    handed

/-- A worker dequeues a send that has completed and calls `SendCompleted`. -/
def sendCompleted (overlapped : OverlappedEx) (wsaSend : Bool) : Traffic :=
  let (client, handed) := traffic.client.sendCompleted wsaSend
  Traffic.wsaSend { traffic with client := client, outstanding := traffic.outstanding.erase overlapped } handed

/-- `IOCPServer::CloseSocket`. -/
def closeSocket (now : ℕ) : Traffic :=
  if traffic.client.isConnectd = false then traffic else { traffic with client := traffic.client.close now }

/-- A worker dequeues an accept that has completed. -/
def acceptCompletion (hIOCP : Handle) (wsaRecv : Bool) (now : ℕ) : Traffic :=
  let (result, client) := traffic.client.acceptCompletion hIOCP wsaRecv
  let traffic := { traffic with client := client, accepted := traffic.accepted + 1 }
  if result then traffic else traffic.closeSocket now

/-- One step. Winsock completes what it has taken, and a slot is accepted while it is not connected. -/
def step : TrafficEvent → Traffic
  | .sendMsg bytes wsaSend => traffic.sendMsg bytes wsaSend
  | .sendCompleted overlapped wsaSend =>
      if overlapped ∈ traffic.outstanding then traffic.sendCompleted overlapped wsaSend else traffic
  | .sendFailed overlapped now =>
      if overlapped ∈ traffic.outstanding then
        closeSocket { traffic with outstanding := traffic.outstanding.erase overlapped } now
      else traffic
  | .closeSocket now => traffic.closeSocket now
  | .postAccept wsaSocket acceptEx =>
      if traffic.client.isConnectd then traffic
      else { traffic with client := (traffic.client.postAccept wsaSocket acceptEx).2 }
  | .acceptCompletion hIOCP wsaRecv now =>
      if traffic.client.isConnectd then traffic else traffic.acceptCompletion hIOCP wsaRecv now

end Traffic

end CppRedis.Model.GameServer
