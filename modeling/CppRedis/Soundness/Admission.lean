import CppRedis.Soundness.Chat
import CppRedis.Soundness.Membership

/-! # Login before anything else

A ghost flag for each client says whether its current connection has been sent a login response
without an error. No handler looks at anything of the kind: entering a room is open to everybody, and
a slot is cleared for its next connection without being taken out of the rooms. Only clients with the
flag are in a room, or in a state other than the initial one, exactly as long as every step respects
it.
-/

namespace CppRedis.Soundness.Admission

open Machine Model.GameServer

/-- Whether a login was granted to a client in what was sent. -/
def grants (client : ℕ) (sent : List Sent) : Bool :=
  sent.any fun send => send.clientIndex = client ∧ send.packet = .loginResponse ErrorCode.none.code

/-- A packet manager and the clients whose current connection has been granted a login. -/
structure Session where
  manager : PacketManager
  granted : ℕ → Bool := fun _ => false

/-- A handler call; a connection begins with its connect notice and ends with its disconnect notice. -/
def Session.call (session : Session) (call : Call) : Session where
  manager := session.manager.call call
  granted client :=
    match call.handler with
    | .processUserConnect | .processUserDisConnect =>
        if client = call.clientIndex then false else session.granted client
    | _ => session.granted client || grants client (session.manager.newlySent (session.manager.call call))

/-- Who is in a room, or has a state other than `NONE`, was granted a login on its current connection;
and nobody else's chat request is broadcast. -/
def LoginRequired (session : Session) : Prop :=
  (∀ client, (session.manager.user client).mCurDomainState ≠ .none ∨
      (∃ index, client ∈ (session.manager.room index).mUserList) → session.granted client = true) ∧
    ∀ client pPacket behind, session.granted client = false →
      Chat.notified session.manager (session.manager.processRoomChatMessage client pPacket behind) = []

/-- The calls that respect the flag: an enter is let in only for a client that has it, a slot is
cleared by a connect notice only when it is in no room, and by a disconnect notice only when that
takes it out of every room it is in. -/
def RespectsLogin (session : Session) (call : Call) : Prop :=
  match call.handler with
  | .processUserConnect => ∀ index, call.clientIndex ∉ (session.manager.room index).mUserList
  | .processUserDisConnect =>
      ∀ index, call.clientIndex ∈ (session.manager.room index).mUserList →
        (session.manager.user call.clientIndex).mCurDomainState = .room ∧
          session.manager.currentRoom call.clientIndex = some index
  | .processEnterRoom =>
      Membership.Admitted session.manager (int32At call.pPacket packetHeaderLength) →
        session.granted call.clientIndex = true
  | _ => True

/-- `LoginRequired` for a lobby. -/
def LobbyLogin (lobby : Lobby) (granted : ℕ → Bool) : Prop :=
  ∀ client, lobby.place client ≠ .outside ∨ (∃ room, client ∈ lobby.members room) → granted client = true

variable {manager : PacketManager} {lobby : Lobby}

theorem loginRequired_iff (session : Session) (represents : Represents session.manager lobby) :
    LoginRequired session ↔ LobbyLogin lobby session.granted := by
  have state (client : ℕ) : (session.manager.user client).mCurDomainState ≠ .none ↔
      lobby.place client ≠ .outside := by
    rw [represents.state]
    cases lobby.place client <;> simp only [Place.state, ne_eq, reduceCtorEq, not_true_eq_false,
      not_false_eq_true]
  simp only [LoginRequired, LobbyLogin]
  simp only [state, represents.members]
  -- A client without the flag remembers no room, so the second part follows from the first.
  refine and_iff_left_of_imp fun required client pPacket behind denied => ?_
  have outside : lobby.place client = .outside := by
    by_contra placed
    rw [required client (Or.inl placed)] at denied
    cases denied
  refine (Chat.chat_of_none client pPacket behind ?_).1
  rw [represents.currentRoom, outside]
  rfl

/-- Clearing the flag and the place of a client, and taking users out of rooms. -/
theorem cleared_login_iff {next : Lobby} {granted cleared : ℕ → Bool} {client : ℕ}
    (required : LobbyLogin lobby granted)
    (flags : ∀ user, cleared user = if user = client then false else granted user)
    (places : ∀ user, next.place user = if user = client then .outside else lobby.place user)
    (fewer : ∀ room, ∀ user ∈ next.members room, user ∈ lobby.members room) :
    LobbyLogin next cleared ↔ ∀ room, client ∉ next.members room := by
  constructor
  · intro after room member
    have kept := after client (Or.inr ⟨room, member⟩)
    rw [flags, if_pos rfl] at kept
    cases kept
  · intro gone user present
    have other : user ≠ client := by
      rintro rfl
      rcases present with placed | ⟨room, member⟩
      · rw [places, if_pos rfl] at placed
        exact placed rfl
      · exact gone room member
    rw [flags, if_neg other]
    apply required user
    rw [places, if_neg other] at present
    exact present.imp_right fun ⟨room, member⟩ => ⟨room, fewer room user member⟩

/-- Nobody comes in and no flag is lost. -/
theorem login_mono {next : Lobby} {granted more : ℕ → Bool} (required : LobbyLogin lobby granted)
    (flags : ∀ user, granted user = true → more user = true)
    (places : ∀ user, next.place user ≠ .outside → lobby.place user ≠ .outside)
    (fewer : ∀ room, ∀ user ∈ next.members room, user ∈ lobby.members room) : LobbyLogin next more := by
  intro user present
  exact flags user (required user (present.imp (places user) fun ⟨room, member⟩ =>
    ⟨room, fewer room user member⟩))

theorem enter_login_iff {granted : ℕ → Bool} (required : LobbyLogin lobby granted) (client : ℕ)
    (number : ℤ) :
    LobbyLogin (lobby.enter client number) granted ↔ (lobby.Admits number → granted client = true) := by
  by_cases admitted : lobby.Admits number
  swap
  · rw [lobby.enter_of_refused admitted]
    exact iff_of_true required fun granted => absurd granted admitted
  constructor
  · intro after _
    apply after client
    rw [admitted.enter_place, if_pos rfl]
    exact Or.inl nofun
  · intro allowed user present
    by_cases same : user = client
    · rw [same]
      exact allowed admitted
    · apply required user
      rw [admitted.enter_place, if_neg same] at present
      refine present.imp_right fun ⟨room, member⟩ => ⟨room, ?_⟩
      rw [admitted.enter_members] at member
      split_ifs at member
      · exact (List.mem_append.mp member).resolve_right fun last => same (List.mem_singleton.mp last)
      · exact member

/-- Answering an enter request grants no login. -/
theorem grants_enter (manager : PacketManager) (user client : ℕ) (pPacket : Bytes) :
    grants user (manager.newlySent (manager.processEnterRoom client pPacket)) = false := by
  simp only [PacketManager.newlySent, PacketManager.processEnterRoom, PacketManager.sendPacketFunc,
    List.drop_left, grants, List.any_cons, List.any_nil, reduceCtorEq, and_false, decide_false,
    Bool.or_false]

/-- One handler call keeps the rule exactly when it respects the flag. -/
theorem call_loginRequired_iff {session : Session} (represents : Represents session.manager lobby)
    (required : LoginRequired session) (call : Call) :
    LoginRequired (session.call call) ↔ RespectsLogin session call := by
  have flagged := (loginRequired_iff session represents).mp required
  rw [loginRequired_iff (session.call call) (represents.call call)]
  rcases call with ⟨handler, client, size, pPacket, behind⟩
  have kept (user : ℕ) (had : session.granted user = true) (sent : List Sent) :
      (session.granted user || grants user sent) = true := by rw [had, Bool.true_or]
  cases handler with
  | processUserConnect =>
    simp only [RespectsLogin, represents.members]
    exact cleared_login_iff flagged (fun _ => rfl) (lobby.connect_place client) fun _ _ member => member
  | processUserDisConnect =>
    simp only [RespectsLogin, represents.members, represents.state, represents.currentRoom]
    refine (cleared_login_iff flagged (fun _ => rfl) (lobby.disconnect_place client)
      fun _ _ => lobby.mem_of_mem_disconnect).trans (forall_congr' fun room => ?_)
    rw [Lobby.disconnect_members, ← Place.inside?_iff_state]
    split_ifs with emptied
    · exact iff_of_true List.not_mem_nil fun _ => emptied
    · exact ⟨fun absent member => absurd member absent, fun covered member => emptied (covered member)⟩
  | processEnterRoom =>
    simp only [RespectsLogin, Membership.admitted_iff represents]
    have same : (session.call ⟨.processEnterRoom, client, size, pPacket, behind⟩).granted =
        session.granted := by
      funext user
      exact (congrArg (session.granted user || ·) (grants_enter session.manager user client pPacket)).trans
        (Bool.or_false _)
    rw [same]
    exact enter_login_iff flagged client _
  | processLeaveRoom =>
    refine iff_of_true (login_mono flagged (fun user had => kept user had _) (fun user placed => ?_)
      fun _ _ => lobby.mem_of_mem_leave) trivial
    rw [Lobby.call, Lobby.leave_place] at placed
    split_ifs at placed with same
    · rintro outside
      rw [← same, outside] at placed
      exact placed rfl
    · exact placed
  | processLogin =>
    exact iff_of_true (login_mono flagged (fun user had => kept user had _) (fun _ => id)
      fun _ _ => id) trivial
  | processLoginDBResult =>
    exact iff_of_true (login_mono flagged (fun user had => kept user had _) (fun _ => id)
      fun _ _ => id) trivial
  | processRoomChatMessage =>
    exact iff_of_true (login_mono flagged (fun user had => kept user had _) (fun _ => id)
      fun _ _ => id) trivial

/-- Over every run of handler calls, only clients that were granted a login on their current
connection are in a room or have a state other than `NONE`, and only their chat is broadcast, if and
only if every call respects the login. -/
theorem run_loginRequired_iff_respectsLogin (maxClient : ℕ) (allocated : ℕ → Bytes) (calls : List Call) :
    Always Session.call LoginRequired { manager := PacketManager.init maxClient allocated } calls ↔
      Along Session.call RespectsLogin { manager := PacketManager.init maxClient allocated } calls := by
  have initial := Represents.init maxClient allocated
  apply always_iff_along fun session : Session => ∃ lobby, Represents session.manager lobby
  · rintro session call ⟨lobby, represents⟩
    exact ⟨_, represents.call call⟩
  · rintro session call ⟨lobby, represents⟩ required
    exact call_loginRequired_iff represents required call
  · exact ⟨_, initial⟩
  · rw [loginRequired_iff _ initial]
    rintro client (placed | ⟨room, member⟩)
    · exact absurd rfl placed
    · cases member

/-- A client that has sent nothing but an enter request is in the room. -/
theorem run_enters_without_login :
    ¬ Always Session.call LoginRequired { manager := PacketManager.init 3 fun _ _ => 0 }
      [Membership.enterCall 0 0] := by
  intro always
  have granted := always.last.1 0 (Or.inl (by decide +kernel))
  revert granted
  decide +kernel

end CppRedis.Soundness.Admission
