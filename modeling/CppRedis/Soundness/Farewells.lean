import CppRedis.Soundness.Subscriptions

/-! # What a connection with subscriptions keeps

A connection that only subscribes and ends subscriptions took some of the replies that a server sent, and handed each to
the callback that the last command for its topic had given. The other replies are on their way, and the server's
confirmations go on with them. When such a connection is freed, every callback that is left is called
once without a reply.
-/

namespace CppRedis.Soundness.Farewells

open Machine Model.Hiredis ReplyStream ReplyRoundTrip Pipelining Dictionaries AsyncCommands Handlers Callbacks
  Subscriptions Attendance
variable {δ Fn Priv υ : Type}

def isDelivery : Invocation δ Fn Priv → Bool
  | .reply _ (some _) _ => true
  | _ => false

def isFarewell : Invocation δ Fn Priv → Bool
  | .reply _ none _ => true
  | _ => false

/-- The calls with a reply, and how many commands had been given before each. -/
def deliveries (ac : RedisAsyncContext δ Fn Priv υ) : List (Invocation δ Fn Priv × ℕ) :=
  (ac.history.invoked.zip ac.history.moments).filter fun call => isDelivery call.1

/-- The calls of callbacks without a reply. -/
def farewells (ac : RedisAsyncContext δ Fn Priv υ) : List (Invocation δ Fn Priv) := ac.history.invoked.filter isFarewell

/-- Each reply went to the callback of the last command for its topic. A topic without a function is nobody's. -/
inductive Delivered (doubles : Doubles δ) (accepted : List (Given Fn Priv)) :
    List (Push Fn Priv) → List (Invocation δ Fn Priv × ℕ) → Prop
  | start : Delivered doubles accepted [] []
  | called {pushes : List (Push Fn Priv)} {calls : List (Invocation δ Fn Priv × ℕ)} (push : Push Fn Priv)
    {moment : ℕ} {fn : Fn}
      {privdata : Priv} (delivered : Delivered doubles accepted pushes calls) (before : moment ≤ accepted.length)
      (known : subscriber ((accepted.take moment).flatMap requestsOf) push.topic = some (some fn, privdata)) :
      Delivered doubles accepted (pushes ++ [push])
        (calls ++ [(.reply fn (some (push.value.object doubles)) privdata, moment)])
  | ignored {pushes : List (Push Fn Priv)} {calls : List (Invocation δ Fn Priv × ℕ)} (push : Push Fn Priv) {moment : ℕ}
      {privdata : Priv} (delivered : Delivered doubles accepted pushes calls) (before : moment ≤ accepted.length)
      (known : subscriber ((accepted.take moment).flatMap requestsOf) push.topic = some (none, privdata)) :
      Delivered doubles accepted (pushes ++ [push]) calls

theorem Delivered.mono {doubles : Doubles δ} {accepted all : List (Given Fn Priv)} {pushes : List (Push Fn Priv)}
    {calls : List (Invocation δ Fn Priv × ℕ)} (delivered : Delivered doubles accepted pushes calls)
    (front : accepted <+: all) :
    Delivered doubles all pushes calls := by
  obtain ⟨more, rfl⟩ := front
  induction delivered with
  | start => exact .start
  | called push delivered before known ih =>
    rw [← List.take_append_of_le_length before] at known
    exact .called push ih (before.trans (by simp)) known
  | ignored push delivered before known ih =>
    rw [← List.take_append_of_le_length before] at known
    exact .ignored push ih (before.trans (by simp)) known

/-- The call of a callback at the end. -/
def farewellOf (listener : Listener Fn Priv) : Option (Invocation δ Fn Priv) :=
    listener.1.map fun fn => .reply fn none listener.2

/-- Every topic that has a callback left said farewell to it once, and a topic that is entered or waits for a
confirmation has one. -/
def Parted (ac : RedisAsyncContext δ Fn Priv υ) (done : List (Attendance Topic (Listener Fn Priv))) : Prop :=
  ∃ topics : List Topic, topics.Nodup ∧
    (∀ topic, Entered done topic = true ∨ entries done topic < entries (requestsOn ac) topic → topic ∈ topics) ∧
    farewells ac = topics.filterMap fun topic => (subscriber (requestsOn ac) topic).bind farewellOf

variable {ac last : RedisAsyncContext δ Fn Priv υ}

theorem farewells_invoke (invocation : Invocation δ Fn Priv) :
    farewells (ac.invoke invocation) = farewells ac ++ [invocation].filter isFarewell :=
  List.filter_append ..

theorem deliveries_invoke (timed : ac.history.invoked.length = ac.history.moments.length)
    (invocation : Invocation δ Fn Priv) :
    deliveries (ac.invoke invocation) =
      deliveries ac ++ [(invocation, ac.history.accepted.length)].filter fun call => isDelivery call.1 := by
  rw [deliveries, RedisAsyncContext.invoke]
  dsimp only
  rw [List.zip_append timed, List.filter_append]
  rfl

theorem take_next {emitted : List (Push Fn Priv)} {taken : ℕ} {push : Push Fn Priv}
    (here : emitted[taken]? = some push) :
    emitted.take (taken + 1) = emitted.take taken ++ [push] := by
  rw [List.take_add_one, here]
  rfl

/-- What was received from a server, of which some replies were taken. -/
structure Hearing (doubles : Doubles δ) (calloc : ℕ → Bool) (reader : RedisReader δ) (received : CppString)
    (emitted : List (Push Fn Priv)) (taken : ℕ) : Prop where
  fits : reader.buf.length < 2147483648
  tracks : Tracks doubles calloc ⟨reader, received, (emitted.take taken).map fun push => push.value.object doubles⟩
  received : received <+: Value.encodeAll (emitted.map Push.value)
  writable : ∀ push ∈ emitted, push.value.Writable doubles calloc 8
  front : taken ≤ emitted.length

section

variable {doubles : Doubles δ} {calloc : ℕ → Bool} {reader : RedisReader δ} {received : CppString}
  {emitted : List (Push Fn Priv)} {taken : ℕ}

namespace Hearing

variable (hearing : Hearing doubles calloc reader received emitted taken)

include hearing

theorem forall_writable : ∀ v ∈ emitted.map Push.value, v.Writable doubles calloc 8 := by
  intro v member
  obtain ⟨push, inside, rfl⟩ := List.mem_map.mp member
  exact hearing.writable push inside

theorem sound : replies doubles calloc received =
    ((arrived (emitted.map Push.value) received.length).map (Value.object doubles), none) :=
  repliesUpTo_front hearing.forall_writable hearing.received (Nat.lt_succ_self _)

theorem fine : reader.err = none := hearing.tracks.fine (congrArg Prod.snd hearing.sound)

/-- More bytes. -/
theorem feed {buf : CppString} (room : reader.buf.length + buf.length < 2147483648)
    (onward : received ++ buf <+: Value.encodeAll (emitted.map Push.value)) :
    Hearing doubles calloc { reader with buf := reader.buf ++ buf } (received ++ buf) emitted taken := by
  have tracks := feed_tracks hearing.tracks buf
  rw [redisReaderFeed_fine hearing.fine] at tracks
  refine ⟨?_, tracks, onward, hearing.writable, hearing.front⟩
  dsimp only
  rwa [List.length_append]

/-- The server sends something. -/
theorem push {push : Push Fn Priv} (writable : push.value.Writable doubles calloc 8) :
    Hearing doubles calloc reader received (emitted ++ [push]) taken := by
  refine ⟨hearing.fits, ?_, ?_, ?_, ?_⟩
  · rw [List.take_append_of_le_length hearing.front]
    exact hearing.tracks
  · rw [List.map_append]
    exact hearing.received.trans (encodeAll_mono (List.prefix_append _ _))
  · intro other member
    rcases List.mem_append.mp member with before | last
    · exact hearing.writable other before
    · rwa [List.mem_singleton.mp last]
  · rw [List.length_append]
    exact hearing.front.trans (Nat.le_add_right _ _)

/-- A call for a reply gives the next one that is whole, or nothing where all of them were taken. -/
theorem getReply (modest : Modest calloc) :
    (∃ next, redisReaderGetReply doubles calloc reader = some (.ok, none, next) ∧
      Hearing doubles calloc next received emitted taken ∧ (replies doubles calloc received).1.length = taken) ∨
    ∃ next push, redisReaderGetReply doubles calloc reader = some (.ok, some (push.value.object doubles), next) ∧
      Hearing doubles calloc next received emitted (taken + 1) ∧ emitted[taken]? = some push ∧
      next.unread.length < reader.unread.length := by
  have within := hearing.tracks.within.length_le
  obtain ⟨next, answered, shorter, tracks⟩ :=
    getReply_values modest hearing.fits hearing.tracks hearing.forall_writable hearing.received
  have count : ((emitted.take taken).map fun push => push.value.object doubles).length = taken := by
    rw [List.length_map, List.length_take, Nat.min_eq_left hearing.front]
  dsimp only at answered tracks shorter within
  rw [count, List.getElem?_map] at answered tracks
  rw [count, hearing.sound, List.length_map] at within
  cases here : (arrived (emitted.map Push.value) received.length)[taken]? with
  | none =>
    rw [here, Option.map_none] at answered tracks
    rw [Option.toList_none, List.append_nil] at tracks
    refine .inl ⟨next, answered, ⟨shorter.trans_lt hearing.fits, tracks, hearing.received, hearing.writable,
      hearing.front⟩, ?_⟩
    rw [hearing.sound, List.length_map]
    exact le_antisymm (List.getElem?_eq_none_iff.mp here) within
  | some v =>
    rw [here, Option.map_some] at answered tracks
    have bound : taken < (arrived (emitted.map Push.value) received.length).length :=
      (List.getElem?_eq_some_iff.mp here).1
    obtain ⟨rest, whole⟩ := arrived_front (emitted.map Push.value) received.length
    have inside : (arrived (emitted.map Push.value) received.length ++ rest)[taken]? = _ :=
      List.getElem?_append_left bound
    rw [← inside, whole, List.getElem?_map] at here
    obtain ⟨push, found, rfl⟩ := Option.map_eq_some_iff.mp here
    have more := take_next found
    have tracks' : Tracks doubles calloc
        ⟨next, received, (emitted.take (taken + 1)).map fun push => push.value.object doubles⟩ := by
      rw [more, List.map_append]
      exact tracks
    refine .inr ⟨next, push, answered, ⟨shorter.trans_lt hearing.fits, tracks', hearing.received, hearing.writable, ?_⟩,
      found, hearing.tracks.shrinks hearing.fine tracks⟩
    exact (List.getElem?_eq_some_iff.mp found).1

end Hearing

end

variable (doubles : Doubles δ) (calloc : ℕ → Bool)

/-- What every event keeps, also behind the end. -/
structure Heard (ac : RedisAsyncContext δ Fn Priv υ) (emitted : List (Push Fn Priv)) (taken : ℕ) : Prop where
  hearing : Hearing doubles calloc ac.c.reader ac.history.received emitted taken
  replies : ac.replies = []
  invalid : ac.invalid = []
  quiet : ac.monitoring = false
  block : ac.c.block = false
  timed : ac.history.invoked.length = ac.history.moments.length
  delivered : Delivered doubles ac.history.accepted (emitted.take taken) (deliveries ac)
  announced : Announced (requestsOn ac) (confirmed ((emitted.take taken).map Push.notice))
    ((emitted.drop taken).map Push.notice)

/-- A connection that goes on. -/
structure Live (names : Finset CppString) (ac : RedisAsyncContext δ Fn Priv υ)
    (emitted : List (Push Fn Priv)) (taken : ℕ) :
    Prop extends Heard doubles calloc ac emitted taken where
  rostered : Rostered names ac (requestsOn ac) (confirmed ((emitted.take taken).map Push.notice))
  silent : farewells ac = []
  alive : ac.freed = false

variable {doubles calloc} {names : Finset CppString} {emitted : List (Push Fn Priv)} {taken : ℕ}

theorem requestsOn_grows (accepted : ac.history.accepted <+: last.history.accepted) :
    ∃ more, requestsOn last = requestsOn ac ++ more := by
  obtain ⟨given, same⟩ := accepted
  exact ⟨given.flatMap requestsOf, by rw [requestsOn, ← same, List.flatMap_append]; rfl⟩

theorem Heard.leaves (heard : Heard doubles calloc ac emitted taken) (leaves : Leaves ac last) :
    Heard doubles calloc last emitted taken := by
  have calls : deliveries last = deliveries ac := by rw [deliveries, deliveries, leaves.invoked, leaves.moments]
  obtain ⟨more, grown⟩ := requestsOn_grows leaves.accepted
  refine ⟨?_, leaves.replies.trans heard.replies, leaves.invalid.trans heard.invalid,
    leaves.monitoring.trans heard.quiet,
    leaves.block.trans heard.block, ?_, ?_, ?_⟩
  · rw [leaves.reader, leaves.received]
    exact heard.hearing
  · rw [leaves.invoked, leaves.moments]
    exact heard.timed
  · rw [calls]
    exact heard.delivered.mono leaves.accepted
  · rw [grown]
    exact heard.announced.mono

/-- What the server sent next. -/
theorem Heard.next (heard : Heard doubles calloc ac emitted taken) {push : Push Fn Priv}
    (here : emitted[taken]? = some push) :
    Follows (requestsOn ac) (confirmed ((emitted.take taken).map Push.notice)) push.notice ∧
      Announced (requestsOn ac) (confirmed ((emitted.take taken).map Push.notice) ++ confirmed [push.notice])
        ((emitted.drop (taken + 1)).map Push.notice) := by
  obtain ⟨bound, found⟩ := List.getElem?_eq_some_iff.mp here
  have announced := heard.announced
  rw [List.drop_eq_getElem_cons bound, found, List.map_cons] at announced
  exact announced

/-- A call that hands over no reply. -/
theorem Heard.invoke (heard : Heard doubles calloc ac emitted taken) {invocation : Invocation δ Fn Priv}
    (other : isDelivery invocation = false) : Heard doubles calloc (ac.invoke invocation) emitted taken where
  hearing := heard.hearing
  replies := heard.replies
  invalid := heard.invalid
  quiet := heard.quiet
  block := heard.block
  timed := by
    rw [RedisAsyncContext.invoke, List.length_append, List.length_append, heard.timed]
    rfl
  delivered := by
    rw [deliveries_invoke heard.timed, List.filter_cons_of_neg
      (by rw [other]; exact Bool.false_ne_true), List.filter_nil,
      List.append_nil]
    exact heard.delivered
  announced := heard.announced

theorem Live.leaves (live : Live doubles calloc names ac emitted taken) (leaves : Leaves ac last)
    (rostered : Rostered names last (requestsOn last) (confirmed ((emitted.take taken).map Push.notice))) :
    Live doubles calloc names last emitted taken where
  toHeard := live.toHeard.leaves leaves
  rostered := rostered
  silent := by
    rw [farewells, leaves.invoked]
    exact live.silent
  alive := leaves.freed.trans live.alive

/-- The server sends something. -/
theorem Heard.push (heard : Heard doubles calloc ac emitted taken) {push : Push Fn Priv}
    (follows : Follows (requestsOn ac) (confirmed (emitted.map Push.notice)) push.notice)
    (writable : push.value.Writable doubles calloc 8) : Heard doubles calloc ac (emitted ++ [push]) taken := by
  have front : (emitted ++ [push]).take taken = emitted.take taken := List.take_append_of_le_length heard.hearing.front
  have all : confirmed (emitted.map Push.notice) =
      confirmed ((emitted.take taken).map Push.notice) ++ confirmed ((emitted.drop taken).map Push.notice) := by
    rw [← confirmed_append, ← List.map_append, List.take_append_drop]
  rw [all] at follows
  refine ⟨heard.hearing.push writable, heard.replies, heard.invalid, heard.quiet, heard.block, heard.timed, ?_, ?_⟩
  · rw [front]
    exact heard.delivered
  · rw [front, List.drop_append_of_le_length heard.hearing.front, List.map_append]
    exact heard.announced.append follows

theorem Live.push (live : Live doubles calloc names ac emitted taken) {push : Push Fn Priv}
    (follows : Follows (requestsOn ac) (confirmed (emitted.map Push.notice)) push.notice)
    (writable : push.value.Writable doubles calloc 8) : Live doubles calloc names ac (emitted ++ [push]) taken where
  toHeard := live.toHeard.push follows writable
  rostered := by
    rw [List.take_append_of_le_length live.hearing.front]
    exact live.rostered
  silent := live.silent
  alive := live.alive

/-- The callbacks of some topics are called without a reply. -/
def parted (ac : RedisAsyncContext δ Fn Priv υ) (cbs : List (RedisCallback Fn Priv)) : RedisAsyncContext δ Fn Priv υ :=
  cbs.foldl (fun ac cb => called ac cb none) ac

theorem parted_same (ac : RedisAsyncContext δ Fn Priv υ) (cbs : List (RedisCallback Fn Priv)) :
    parted ac cbs = { ac with
      history := { ac.history with
        invoked := (parted ac cbs).history.invoked
        moments := (parted ac cbs).history.moments } } := by
  induction cbs generalizing ac with
  | nil => rfl
  | cons cb cbs ih =>
    have rest : parted ac (cb :: cbs) = parted (called ac cb none) cbs := rfl
    rw [rest, ih, called_same]

theorem farewells_parted (ac : RedisAsyncContext δ Fn Priv υ) (cbs : List (RedisCallback Fn Priv)) :
    farewells (parted ac cbs) = farewells ac ++ cbs.filterMap fun cb => farewellOf (cb.fn, cb.privdata) := by
  induction cbs generalizing ac with
  | nil => exact (List.append_nil _).symm
  | cons cb cbs ih =>
    have rest : parted ac (cb :: cbs) = parted (called ac cb none) cbs := rfl
    rw [rest, ih, called, List.filterMap_cons, farewellOf]
    cases cb.fn with
    | none => rfl
    | some fn =>
      dsimp only [Option.map_some]
      rw [farewells_invoke, List.append_assoc]
      rfl

theorem Heard.parted (heard : Heard doubles calloc ac emitted taken) (cbs : List (RedisCallback Fn Priv)) :
    Heard doubles calloc (parted ac cbs) emitted taken := by
  induction cbs generalizing ac with
  | nil => exact heard
  | cons cb cbs ih =>
    have next : Heard doubles calloc (called ac cb none) emitted taken := by
      rw [called]
      cases cb.fn with
      | none => exact heard
      | some fn => exact heard.invoke rfl
    exact ih next

theorem leaves_called (leaves : Leaves ac last) (same : last.history.accepted = ac.history.accepted)
    (cb : RedisCallback Fn Priv) (reply : Option (RedisReply δ)) :
    Leaves (called ac cb reply) (called last cb reply) := by
  rw [called, called]
  cases cb.fn with
  | none => exact leaves
  | some fn =>
    dsimp only
    exact { leaves with
      invoked := by
        dsimp only [RedisAsyncContext.invoke]
        rw [leaves.invoked]
      moments := by
        dsimp only [RedisAsyncContext.invoke]
        rw [leaves.moments, same] }

theorem leaves_parted (leaves : Leaves ac last) (same : last.history.accepted = ac.history.accepted)
    (cbs : List (RedisCallback Fn Priv)) : Leaves (parted ac cbs) (parted last cbs) := by
  induction cbs generalizing ac last with
  | nil => exact leaves
  | cons cb cbs ih =>
    refine ih (leaves_called leaves same cb none) ?_
    dsimp only
    rw [called_same, called_same ac]
    exact same

theorem leaves_setSubs (pvariant : Bool) (dict : Option (Dict CppString (RedisCallback Fn Priv))) :
    Leaves ac (ac.setSubs pvariant dict) := by
  rw [setSubs_same]
  exact ⟨rfl, rfl, rfl, rfl, rfl, rfl, rfl, rfl, rfl, rfl, List.prefix_rfl⟩

section

variable {env : Surroundings δ Fn Priv υ}
    (attentive : ∀ fn reply privdata user, Attentive names (env.call fn reply privdata user))

include attentive

/-- The callbacks that a walk is still to come to are called without a reply. -/
theorem drainSubs_parts {pvariant : Bool} {dict : Dict CppString (RedisCallback Fn Priv)} (closing : Closing ac)
    (here : ac.subs pvariant = some dict) (proper : Proper callbackDict names dict) {iter : DictIterator CppString}
    {upcoming : List (CppString × RedisCallback Fn Priv)} (stands : Upcoming dict iter upcoming) {turns : ℕ}
    (enough : upcoming.length < turns) :
    ∃ last, Async.drainSubs env pvariant turns iter ac = .ok ((), last) ∧
      Leaves (parted ac (upcoming.map Prod.snd)) last ∧ Closing last ∧ last.channels = ac.channels ∧
      last.patterns = ac.patterns ∧ last.history.accepted = ac.history.accepted := by
  induction turns generalizing ac iter upcoming with
  | zero => omega
  | succ turns ih =>
    obtain ⟨entry, next, came, outcome⟩ := dictNext_spec callbackDict_compares proper stands
    rw [Async.drainSubs, Program.bind_apply, Program.get_apply]
    dsimp only
    rw [here, Option.bind_some, came]
    cases upcoming with
    | nil =>
      obtain rfl : entry = none := outcome
      exact ⟨ac, rfl, (AfterCommands.refl ac).toLeaves, closing, rfl, rfl, rfl⟩
    | cons first later =>
      obtain ⟨rfl, reached⟩ := outcome
      obtain ⟨name, cb⟩ := first
      obtain ⟨middle, ran, after⟩ := redisRunCallback_closed attentive closing cb none
      have entered : Closing (called ac cb none) := by
        rw [called_same]
        exact closing
      obtain ⟨closing', channels, patterns, accepted⟩ := after.closing entered
      rw [called_same] at channels patterns accepted
      have here' : middle.subs pvariant = some dict := by
        rw [RedisAsyncContext.subs, channels, patterns]
        exact here
      obtain ⟨last, ran', leaves, closing'', channels', patterns', accepted'⟩ :=
        ih closing' here' reached.goes_on (Nat.lt_of_succ_lt_succ enough)
      have same : middle.history.accepted = (called ac cb none).history.accepted := by
        rw [called_same]
        exact accepted
      refine ⟨last, ?_, (leaves_parted after.toLeaves same _).trans leaves, closing'', channels'.trans channels,
        patterns'.trans patterns, accepted'.trans accepted⟩
      dsimp only
      rw [Program.bind_of_ok ran]
      exact ran'

/-- All callbacks of channels or of patterns are called without a reply. -/
theorem releaseSubs_parts {pvariant : Bool} {dict : Dict CppString (RedisCallback Fn Priv)} (closing : Closing ac)
    (here : ac.subs pvariant = some dict) (proper : Proper callbackDict names dict) :
    ∃ last, Async.releaseSubs env pvariant ac = .ok ((), last.setSubs pvariant none) ∧
      Leaves (parted ac (dict.table.flatten.map Prod.snd)) last ∧ Closing last ∧ last.channels = ac.channels ∧
      last.patterns = ac.patterns ∧ last.history.accepted = ac.history.accepted := by
  have stands : Upcoming dict {} dict.table.flatten := .slot 0 (Nat.zero_le _) rfl rfl
  have enough : dict.table.flatten.length < (ac.subs pvariant).elim 0 Dict.used + env.patience + 1 := by
    rw [here, Option.elim_some, proper.used]
    omega
  obtain ⟨last, ran, rest⟩ := drainSubs_parts attentive closing here proper stands enough
  refine ⟨last, ?_, rest⟩
  rw [Async.releaseSubs, Program.bind_apply, Program.get_apply]
  dsimp only
  rw [Program.bind_of_ok ran]
  rfl

omit attentive in
/-- The callbacks of a dictionary are those of the last commands for its topics. -/
theorem farewells_rostered {requests done : List (Attendance Topic (Listener Fn Priv))}
    (rostered : Rostered names ac requests done)
    {pvariant : Bool} {dict : Dict CppString (RedisCallback Fn Priv)} (here : ac.subs pvariant = some dict)
    (proper : Proper callbackDict names dict) :
    (dict.table.flatten.map Prod.snd).filterMap (fun cb => farewellOf (cb.fn, cb.privdata)) =
      ((dict.table.flatten.map fun entry => (pvariant, entry.1)).filterMap fun topic =>
        (subscriber requests topic).bind farewellOf : List (Invocation δ Fn Priv)) := by
  rw [List.filterMap_map, List.filterMap_map]
  refine List.filterMap_congr fun entry member => ?_
  have found : contents callbackDict dict entry.1 = some entry.2 := (held_eq_some_iff proper.settled).mpr member
  have there : roster ac (pvariant, entry.1) = some ((entry.2.fn, entry.2.privdata), entry.2.pendingSubs) := by
    rw [roster_eq here, found]
    rfl
  dsimp only [Function.comp_apply]
  rw [(rostered.kept.known _ _ _ there).1, Option.bind_some]

omit attentive in
/-- A topic that is there is in a dictionary. -/
theorem mem_of_roster {requests done : List (Attendance Topic (Listener Fn Priv))}
    (rostered : Rostered names ac requests done)
    {topic : Topic} (there : (roster ac topic).isSome) {dict : Dict CppString (RedisCallback Fn Priv)}
    (here : ac.subs topic.1 = some dict) : topic ∈ dict.table.flatten.map fun entry => (topic.1, entry.1) := by
  obtain ⟨found, cb, same, proper, entry, -⟩ := rostered.found there
  obtain rfl : found = dict := Option.some.inj (same.symm.trans here)
  exact List.mem_map.mpr ⟨(topic.2, cb), (held_eq_some_iff proper.settled).mp entry, rfl⟩

omit attentive in
theorem nodup_topics {dict : Dict CppString (RedisCallback Fn Priv)} (proper : Proper callbackDict names dict)
    (pvariant : Bool) :
    (dict.table.flatten.map fun entry => (pvariant, entry.1)).Nodup := by
  have distinct := (proper.settled.distinct_flatten).map (f := fun name => (pvariant, name)) fun _ _ =>
    (Prod.mk.inj · |>.2)
  rwa [List.map_map] at distinct

omit attentive in
/-- The end, when no callbacks are left. -/
theorem finish_spec (heard : Heard doubles calloc ac emitted taken) :
    Heard doubles calloc (Async.finish env ac) emitted taken ∧ (Async.finish env ac).freed = true ∧
      farewells (Async.finish env ac) = farewells ac ∧ requestsOn (Async.finish env ac) = requestsOn ac := by
  rw [Async.finish]
  dsimp only
  generalize (if ac.cleanup.freeing = true then Status.ok else if ac.cleanup.err.isNone = true then .ok
    else .err) = status
  split_ifs
  · have freed : Heard doubles calloc
        { ac.cleanup with user := env.disconnectCallback status ac.cleanup.user, freed := true } emitted taken :=
          { heard with }
    exact ⟨freed.invoke rfl, rfl, (farewells_invoke _).trans (List.append_nil _), rfl⟩
  · exact ⟨{ heard with }, rfl, rfl, rfl⟩

/-- A connection that is freed while commands are refused has called all its callbacks. -/
theorem redisAsyncFreeContext_parts (live : Live doubles calloc names ac emitted taken) (closing : Closing ac) :
    ∃ last, Async.redisAsyncFreeContext env ac = .ok ((), last) ∧ Heard doubles calloc last emitted taken ∧
      last.freed = true ∧
      Parted last (confirmed ((emitted.take taken).map Push.notice)) := by
  obtain ⟨channels, here, proper⟩ := live.rostered.dicts false
  obtain ⟨patterns, here', proper'⟩ := live.rostered.dicts true
  obtain ⟨first, ran, leaves, closing', -, kept, accepted⟩ := releaseSubs_parts attentive closing here proper
  have there : (first.setSubs false none).subs true = some patterns := kept.trans here'
  have refused : Closing (first.setSubs false none) := closing'
  obtain ⟨second, ran', leaves', -, -, -, accepted'⟩ := releaseSubs_parts attentive refused there proper'
  have same : (first.setSubs false none).history.accepted =
      (parted ac (channels.table.flatten.map Prod.snd)).history.accepted := by
    rw [parted_same]
    exact accepted
  have left : Leaves (parted (parted ac (channels.table.flatten.map Prod.snd)) (patterns.table.flatten.map Prod.snd))
      (second.setSubs true none) :=
    ((leaves_parted (leaves.trans (leaves_setSubs false none)) same _).trans leaves').trans (leaves_setSubs true none)
  have heard := ((live.toHeard.parted _).parted _).leaves left
  obtain ⟨ended, freed, farewell, requests⟩ :
      Heard doubles calloc (Async.finish env (second.setSubs true none)) emitted taken ∧ _ := finish_spec heard
  refine ⟨Async.finish env (second.setSubs true none), ?_, ended, freed, ?_⟩
  · rw [Async.redisAsyncFreeContext, Program.bind_of_ok (drainReplies_empty live.replies),
      Program.bind_of_ok (drainInvalid_empty live.invalid), Program.bind_of_ok ran, Program.bind_of_ok ran']
    rfl
  have asked : requestsOn (second.setSubs true none) = requestsOn ac :=
    congrArg (List.flatMap requestsOf) (accepted'.trans accepted)
  have said : farewells (second.setSubs true none) =
      farewells (parted (parted ac (channels.table.flatten.map Prod.snd)) (patterns.table.flatten.map Prod.snd)) :=
    congrArg (List.filter isFarewell) left.invoked
  rw [farewells_parted, farewells_parted, live.silent, List.nil_append, farewells_rostered live.rostered here proper,
    farewells_rostered live.rostered here' proper', ← List.filterMap_append] at said
  refine ⟨(channels.table.flatten.map fun entry => (false, entry.1)) ++ patterns.table.flatten.map
    fun entry => (true, entry.1),
    ?_, fun topic cause => ?_, ?_⟩
  · refine (nodup_topics proper false).append (nodup_topics proper' true) fun topic channel pattern => ?_
    obtain ⟨_, -, rfl⟩ := List.mem_map.mp channel
    obtain ⟨_, -, other⟩ := List.mem_map.mp pattern
    cases other
  · rw [requests, asked] at cause
    have found := live.rostered.kept.there topic cause
    obtain ⟨variant, name⟩ := topic
    cases variant with
    | false => exact List.mem_append_left _ (mem_of_roster live.rostered found here)
    | true => exact List.mem_append_right _ (mem_of_roster live.rostered found here')
  · rw [farewell, requests, asked]
    exact said

end

end CppRedis.Soundness.Farewells
