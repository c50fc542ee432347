import CppRedis.Model.RedisCpp.Methods

/-! # Replies that a link takes apart

What each command method of `CRedisConn` makes of a reply. A null reply is never handled: its error test
reports it as no error. Other replies are handled where they have the fields that the method follows.
-/

namespace CppRedis.Soundness.Unpacking

open Machine Model.RedisCpp

/-- A call of a command method with its arguments. -/
inductive Call where
  | auth (password : CppString)
  | ping
  | lpush (key value : CppString) (retval : ℤ)
  | lpop (key value : CppString)
  | lrange (key : CppString) (start stop : ℤ) (valueList : List CppString)
  | rpush (key value : CppString) (retval : ℤ)
  | rpop (key value : CppString)
  | linsert (key : CppString) (position : InsertPos) (pivot value : CppString) (retval : ℤ)
  | lindex (key : CppString) (index : ℤ) (value : CppString)
  | llen (key : CppString) (retval : ℤ)
  | get (key value : CppString)
  | set (key value : CppString) (retval : ℤ)
  | del (key : CppString) (retval : ℤ)
  | hget (key filed value : CppString)
  | hset (key filed value : CppString) (retval : ℤ)
  | hdel (key filed : CppString) (retval : ℤ)
  | hgetall (key : CppString) (valueMap : ValueMap)

/-- What a method returns, and the link. -/
def outcome {α : Type} (returned : Returned α) : Option (Bool × CRedisConn) :=
  returned.map fun (ret, _, conn) => (ret, conn)

/-- A call whose hiredis call has this outcome. -/
def Call.run (conn : CRedisConn) (reply : Option HiReply) : Call → Option (Bool × CRedisConn)
  | .auth password => outcome (conn.auth (fun _ => reply) password)
  | .ping => outcome (conn.ping fun _ => reply)
  | .lpush key value retval => outcome (conn.lpush (fun _ => reply) key value retval)
  | .lpop key value => outcome (conn.lpop (fun _ => reply) key value)
  | .lrange key start stop valueList => outcome (conn.lrange (fun _ => reply) key start stop valueList)
  | .rpush key value retval => outcome (conn.rpush (fun _ => reply) key value retval)
  | .rpop key value => outcome (conn.rpop (fun _ => reply) key value)
  | .linsert key position pivot value retval => outcome (conn.linsert (fun _ => reply) key position pivot value retval)
  | .lindex key index value => outcome (conn.lindex (fun _ => reply) key index value)
  | .llen key retval => outcome (conn.llen (fun _ => reply) key retval)
  | .get key value => outcome (conn.getKey (fun _ => reply) key value)
  | .set key value retval => outcome (conn.setKey (fun _ => reply) key value retval)
  | .del key retval => outcome (conn.del (fun _ => reply) key retval)
  | .hget key filed value => outcome (conn.hget (fun _ => reply) key filed value)
  | .hset key filed value retval => outcome (conn.hset (fun _ => reply) key filed value retval)
  | .hdel key filed retval => outcome (conn.hdel (fun _ => reply) key filed retval)
  | .hgetall key valueMap => outcome (conn.hgetall (fun _ => reply) key valueMap)

/-- No reply, or an error. -/
def Failed (reply : Option HiReply) : Prop := reply = none ∨ ∃ error, reply = some error ∧ error.type = .error

/-- A call returns, and reports a failure as one. -/
def Handled (reply : Option HiReply) (returned : Option (Bool × CRedisConn)) : Prop :=
  ∃ ret conn, returned = some (ret, conn) ∧
    (Failed reply → ret = false ∧ conn.errStr ≠ ErrorNo.noError.description)

/-- The fields that the method follows are there. -/
def Call.Unpacks (reply : HiReply) : Call → Prop
  | .lindex _ _ _ | .get _ _ | .hget _ _ _ => reply.type = .nil ∨ reply.str.isSome = true
  | .lrange _ _ _ _ => ∀ item ∈ reply.element, item.str.isSome = true
  | .hgetall _ _ => reply.element.length % 2 = 0 ∧ ∀ item ∈ reply.element, item.str.isSome = true
  | _ => True

/-- There is a reply: an error with a text that does not read as no error, or one that the method can take apart. -/
def Call.Fits (call : Call) (reply : Option HiReply) : Prop :=
  ∃ received, reply = some received ∧
    if received.type = .error then
      ∃ str, received.str = some str ∧ cStr str ≠ ErrorNo.noError.description
    else call.Unpacks received

/-- The method sends nothing, as there is no connection. -/
def Call.Refused (conn : CRedisConn) : Call → Prop
  | .auth _ => conn.connected = false
  | _ => conn.connected = false ∨ conn.redCtx = false

section

variable {α : Type} {conn : CRedisConn} {reply : Option HiReply} {value : α} {unpack : CRedisConn → Returned α}

theorem handled_noConnect (conn : CRedisConn) (reply : Option HiReply) (value : α) :
    Handled reply (outcome (some (false, value, { conn with errStr := ErrorNo.noConnect.description }))) := by
  have other : ErrorNo.noConnect.description ≠ ErrorNo.noError.description := by decide
  exact ⟨false, _, rfl, fun _ => ⟨rfl, other⟩⟩

/-- Where the rest of a method takes nothing from a null reply for a failure. -/
theorem received_handled_iff {fits : HiReply → Prop}
    (null : reply = none → ∀ conn value target, unpack conn ≠ some (false, value, target))
    (unpacks : ∀ received, reply = some received → ∀ conn, (unpack conn).isSome = true ↔ fits received) :
    Handled reply (outcome (conn.received reply value unpack)) ↔
      ∃ received, reply = some received ∧
        if received.type = .error then ∃ str, received.str = some str ∧ cStr str ≠ ErrorNo.noError.description
        else fits received := by
  cases reply with
  | none =>
    refine iff_of_false ?_ (fun ⟨_, absent, _⟩ => nomatch absent)
    rintro ⟨ret, target, same, reported⟩
    obtain ⟨rfl, -⟩ := reported (.inl rfl)
    obtain ⟨⟨_, value, _⟩, ran, same⟩ := Option.map_eq_some_iff.mp same
    cases same
    exact null rfl _ _ _ ran
  | some received =>
    simp only [Option.some.injEq, exists_eq_left']
    rw [CRedisConn.received, CRedisConn.replyError]
    split_ifs with error
    · cases text : received.str with
      | none =>
        rw [HiReply.assigned, text]
        exact iff_of_false (fun ⟨_, _, absent, _⟩ => nomatch absent) (fun ⟨_, absent, _⟩ => nomatch absent)
      | some str =>
        rw [HiReply.assigned, text]
        constructor
        · rintro ⟨ret, target, same, reported⟩
          cases same
          exact ⟨str, rfl, (reported (.inr ⟨received, rfl, error⟩)).2⟩
        · rintro ⟨_, same, other⟩
          cases same
          exact ⟨false, _, rfl, fun _ => ⟨rfl, other⟩⟩
    · rw [Option.bind_some]
      dsimp only
      rw [if_neg Bool.false_ne_true, ← unpacks received rfl]
      constructor
      · rintro ⟨ret, target, same, -⟩
        obtain ⟨result, ran, -⟩ := Option.map_eq_some_iff.mp same
        rw [ran, Option.isSome_some]
      · intro returns
        obtain ⟨⟨ret, value, target⟩, ran⟩ := Option.isSome_iff_exists.mp returns
        refine ⟨ret, target, congrArg outcome ran, ?_⟩
        rintro (absent | ⟨other, same, isError⟩)
        · cases absent
        · cases same
          exact absurd isError error

theorem command_handled_iff {hiredis : Hiredis} {words : Command} {before : α}
    {unpack : Option HiReply → CRedisConn → Returned α} {fits : HiReply → Prop}
    (null : ∀ conn value target, unpack none conn ≠ some (false, value, target))
    (unpacks : ∀ received conn, (unpack (some received) conn).isSome = true ↔ fits received) :
    Handled (hiredis words) (outcome (conn.command hiredis words before value unpack)) ↔
      (conn.connected = false ∨ conn.redCtx = false) ∨ ∃ received, hiredis words = some received ∧
        if received.type = .error then ∃ str, received.str = some str ∧ cStr str ≠ ErrorNo.noError.description
        else fits received := by
  have refused : (!conn.connected || !conn.redCtx) = true ↔ conn.connected = false ∨ conn.redCtx = false := by
    rw [Bool.or_eq_true, Bool.not_eq_true', Bool.not_eq_true']
  rw [CRedisConn.command, ← refused]
  split_ifs with off
  · exact iff_of_true (handled_noConnect conn _ before) (.inl off)
  · rw [or_iff_right off]
    apply received_handled_iff
    · intro absent
      rw [absent]
      exact null
    · intro received same
      rw [same]
      exact unpacks received

end

theorem getArryToList_isSome (valueList : List CppString) (element : List HiReply) :
    (CRedisConn.getArryToList valueList element).isSome = true ↔ ∀ item ∈ element, item.str.isSome = true := by
  induction element generalizing valueList with
  | nil => exact iff_of_true rfl nofun
  | cons reply element ih =>
    rw [CRedisConn.getArryToList, HiReply.assigned, List.forall_mem_cons]
    cases reply.str with
    | none => exact iff_of_false nofun (fun both => nomatch both.1)
    | some str =>
      rw [Option.map_some, Option.bind_some, ih]
      exact (and_iff_right rfl).symm

theorem getArryToMap_isSome (valueMap : ValueMap) (element : List HiReply) :
    (CRedisConn.getArryToMap valueMap element).isSome = true ↔
      element.length % 2 = 0 ∧ ∀ item ∈ element, item.str.isSome = true := by
  induction valueMap, element using CRedisConn.getArryToMap.induct with
  | case1 valueMap => exact iff_of_true rfl ⟨rfl, nofun⟩
  | case2 valueMap field => exact iff_of_false nofun (fun both => nomatch both.1)
  | case3 valueMap field reply element ih =>
    have even : (field :: reply :: element).length % 2 = 0 ↔ element.length % 2 = 0 := by
      rw [List.length_cons, List.length_cons]
      omega
    rw [CRedisConn.getArryToMap, even, List.forall_mem_cons, List.forall_mem_cons, HiReply.assigned, HiReply.assigned]
    cases field.str with
    | none => exact iff_of_false nofun (fun both => nomatch both.2.1)
    | some key =>
      cases reply.str with
      | none => exact iff_of_false nofun (fun both => nomatch both.2.2.1)
      | some value =>
        rw [Option.map_some, Option.bind_some, Option.map_some, Option.bind_some, ih]
        exact and_congr_right fun _ => ((and_iff_right rfl).trans (and_iff_right rfl)).symm

theorem unpackString_isSome (missing absent : CppString) (received : HiReply) (conn : CRedisConn) :
    (CRedisConn.unpackString missing absent (some received) conn).isSome = true ↔
      received.type = .nil ∨ received.str.isSome = true := by
  rw [CRedisConn.unpackString, Option.bind_some]
  split_ifs with isNil
  · exact iff_of_true rfl (.inl isNil)
  · rw [or_iff_right isNil, Option.isSome_map, HiReply.assigned, Option.isSome_map]

/-- An array is taken apart unless it is empty. -/
theorem unpackArray_isSome {α : Type} {received : HiReply} {refused : Returned α} (returns : refused.isSome = true)
    {unpacked : Option α} {conn : CRedisConn} {fits : Prop} (unpacks : unpacked.isSome = true ↔ fits)
    (empty : received.element = [] → fits) :
    ((if received.type = .array ∧ received.element = [] then refused
        else unpacked.map fun value => (true, value, conn)) : Returned α).isSome = true ↔ fits := by
  split_ifs with nothing
  · exact iff_of_true returns (empty nothing.2)
  · rw [Option.isSome_map, unpacks]

/-- A method returns and reports failures in these cases and no others; never without a reply. -/
theorem call_handled_iff (call : Call) (conn : CRedisConn) (reply : Option HiReply) :
    Handled reply (call.run conn reply) ↔ call.Refused conn ∨ conn.redCtx = true ∧ call.Fits reply := by
  have settle : ∀ fits : Prop, (conn.connected = false ∨ conn.redCtx = false) ∨ fits ↔
      (conn.connected = false ∨ conn.redCtx = false) ∨ conn.redCtx = true ∧ fits := by
    intro fits
    cases conn.redCtx
    · exact iff_of_true (.inl (.inr rfl)) (.inl (.inr rfl))
    · exact or_congr_right (and_iff_right rfl).symm
  have always : ∀ {α : Type} (result : HiReply → Bool × α × CRedisConn) (received : HiReply),
      ((some received).map result).isSome = true ↔ True := fun _ _ => iff_of_true rfl trivial
  cases call with
  | auth password =>
    rw [Call.run, CRedisConn.auth, Call.Refused]
    by_cases off : conn.connected = false
    · rw [if_pos ((Bool.not_eq_true' _).mpr off)]
      exact iff_of_true (handled_noConnect conn reply ()) (.inl off)
    · rw [if_neg (mt (Bool.not_eq_true' _).mp off), or_iff_right off]
      cases context : conn.redCtx with
      | false => exact iff_of_false (fun ⟨_, _, absent, _⟩ => nomatch absent) (fun both => nomatch both.1)
      | true =>
        rw [Bool.not_true, if_neg Bool.false_ne_true, and_iff_right rfl]
        exact received_handled_iff (fun _ => nofun) fun _ _ _ => iff_of_true rfl trivial
  | ping => exact (command_handled_iff (fun _ => nofun) fun _ _ => iff_of_true rfl trivial).trans (settle _)
  | lpush key value retval =>
    exact (command_handled_iff (fun _ => nofun) fun received _ => always _ received).trans (settle _)
  | lpop key value => exact (command_handled_iff (fun _ => nofun) fun received _ => always _ received).trans (settle _)
  | lrange key start stop valueList =>
    refine (command_handled_iff (fun _ => nofun) fun received conn => ?_).trans (settle _)
    apply unpackArray_isSome rfl (getArryToList_isSome valueList received.element)
    intro empty
    rw [empty]
    exact nofun
  | rpush key value retval =>
    exact (command_handled_iff (fun _ => nofun) fun received _ => always _ received).trans (settle _)
  | rpop key value => exact (command_handled_iff (fun _ => nofun) fun received _ => always _ received).trans (settle _)
  | linsert key position pivot value retval =>
    exact (command_handled_iff (fun _ => nofun) fun received _ => always _ received).trans (settle _)
  | lindex key index value =>
    exact (command_handled_iff (fun _ => nofun) (unpackString_isSome _ _)).trans (settle _)
  | llen key retval =>
    exact (command_handled_iff (fun _ => nofun) fun received _ => always _ received).trans (settle _)
  | get key value => exact (command_handled_iff (fun _ => nofun) (unpackString_isSome _ _)).trans (settle _)
  | set key value retval =>
    exact (command_handled_iff (fun _ => nofun) fun received _ => always _ received).trans (settle _)
  | del key retval =>
    exact (command_handled_iff (fun _ => nofun) fun received _ => always _ received).trans (settle _)
  | hget key filed value => exact (command_handled_iff (fun _ => nofun) (unpackString_isSome _ _)).trans (settle _)
  | hset key filed value retval =>
    exact (command_handled_iff (fun _ => nofun) fun received _ => always _ received).trans (settle _)
  | hdel key filed retval =>
    exact (command_handled_iff (fun _ => nofun) fun received _ => always _ received).trans (settle _)
  | hgetall key valueMap =>
    refine (command_handled_iff (fun _ => nofun) fun received conn => ?_).trans (settle _)
    apply unpackArray_isSome rfl (getArryToMap_isSome valueMap received.element)
    intro empty
    rw [empty]
    exact ⟨rfl, nofun⟩

/-- A lost connection: `GET` follows the null reply, and `PING` reports success. -/
theorem lost_connection_unhandled :
    ¬ Handled none ((Call.get (text "k") []).run { redCtx := true, connected := true } none) ∧
      ¬ Handled none (Call.ping.run { redCtx := true, connected := true } none) := by
  constructor
  · rintro ⟨ret, conn, absent, -⟩
    cases absent
  · rintro ⟨ret, conn, same, reported⟩
    obtain ⟨rfl, -⟩ := reported (.inl rfl)
    cases same

end CppRedis.Soundness.Unpacking
