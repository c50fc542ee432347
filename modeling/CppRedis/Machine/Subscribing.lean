import CppRedis.Machine.Keyspace
import Mathlib.Data.Int.Notation

/-! # Subscriptions that are confirmed later

Requests to enter a topic and to leave it are made in order and confirmed in order. Messages come in between the
confirmations, for topics that are entered then. A roster keeps for a topic its last subscriber and a count of entries
that are not confirmed yet, which may be too high. A topic goes when a leave is confirmed and the count is zero. So
nothing that comes is about a topic that the roster does not have, and what it finds there is the last subscriber.
-/

namespace CppRedis.Machine

/-- What is asked for. -/
inductive Attendance (κ γ : Type*) where
  | enter (topic : κ) (who : γ)
  | leave (topic : κ)
deriving DecidableEq

/-- What comes: a request is confirmed, or there is a message. -/
inductive Notice (κ γ : Type*) where
  | confirm (request : Attendance κ γ)
  | message (topic : κ)

namespace Attendance

variable {κ γ : Type*}

def topic : Attendance κ γ → κ
  | .enter topic _ | .leave topic => topic

variable [DecidableEq κ]

/-- The last one who asked to enter. -/
def subscriber (requests : List (Attendance κ γ)) (topic : κ) : Option γ :=
  requests.foldl (fun who request =>
    match request with
    | .enter other new => if other = topic then some new else who
    | .leave _ => who) none

/-- Whether the last request for the topic was one to enter. -/
def Entered (requests : List (Attendance κ γ)) (topic : κ) : Bool :=
  requests.foldl (fun inside request =>
    match request with
    | .enter other _ => if other = topic then true else inside
    | .leave other => if other = topic then false else inside) false

/-- How many requests to enter the topic there are. -/
def entries (requests : List (Attendance κ γ)) (topic : κ) : ℕ :=
  requests.countP fun request =>
    match request with
    | .enter other _ => other = topic
    | .leave _ => false

section

variable (requests : List (Attendance κ γ)) (topic other : κ) (who : γ)

@[simp]
theorem subscriber_enter : subscriber (requests ++ [.enter other who]) topic =
    if other = topic then some who else subscriber requests topic := by
  rw [subscriber, List.foldl_append]
  rfl

@[simp]
theorem subscriber_leave : subscriber (requests ++ [.leave other]) topic = subscriber requests topic := by
  rw [subscriber, List.foldl_append]
  rfl

@[simp]
theorem entered_enter : Entered (requests ++ [.enter other who]) topic = if other = topic then true
    else Entered requests topic := by
  rw [Entered, List.foldl_append]
  rfl

@[simp]
theorem entered_leave : Entered (requests ++ [.leave other]) topic = if other = topic then false
    else Entered requests topic := by
  rw [Entered, List.foldl_append]
  rfl

@[simp]
theorem entries_append (more : List (Attendance κ γ)) :
    entries (requests ++ more) topic = entries requests topic + entries more topic :=
  List.countP_append

@[simp]
theorem entries_enter : entries [.enter other who] topic = if other = topic then 1 else 0 := by
  rw [entries, List.countP_singleton]
  simp only [decide_eq_true_eq]

@[simp]
theorem entries_leave : entries [(.leave other : Attendance κ γ)] topic = 0 := rfl

end

/-- What is confirmed by some notices. -/
def confirmed (notices : List (Notice κ γ)) : List (Attendance κ γ) :=
  notices.filterMap fun
    | .confirm request => some request
    | .message _ => none

/-- What a broker may send next: it confirms requests in their order, leaves only of topics that are entered, and sends
messages for these. -/
def Follows (requests done : List (Attendance κ γ)) : Notice κ γ → Prop
  | .confirm (.enter topic who) => done ++ [.enter topic who] <+: requests
  | .confirm (.leave topic) => done ++ [.leave topic] <+: requests ∧ Entered done topic = true
  | .message topic => Entered done topic = true

instance [DecidableEq γ] (requests done : List (Attendance κ γ)) (notice : Notice κ γ) :
    Decidable (Follows requests done notice) :=
  match notice with
  | .confirm (.enter topic who) => inferInstanceAs (Decidable (done ++ [.enter topic who] <+: requests))
  | .confirm (.leave topic) =>
      inferInstanceAs (Decidable (done ++ [.leave topic] <+: requests ∧ Entered done topic = true))
  | .message topic => inferInstanceAs (Decidable (Entered done topic = true))

/-- What a broker sends behind some confirmations. -/
def Announced (requests : List (Attendance κ γ)) : List (Attendance κ γ) → List (Notice κ γ) → Prop
  | done, [] => done <+: requests
  | done, notice :: notices => Follows requests done notice ∧ Announced requests (done ++ confirmed [notice]) notices

/-- A roster between requests and their confirmations. -/
structure Kept (requests done : List (Attendance κ γ)) (roster : Keyspace κ (γ × ℤ)) : Prop where
  front : done <+: requests
  known : ∀ topic who count, roster topic = some (who, count) →
    subscriber requests topic = some who ∧ (entries requests topic : ℤ) ≤ entries done topic + count
  there : ∀ topic, Entered done topic = true ∨ entries done topic < entries requests topic → (roster topic).isSome

section

variable {requests more done : List (Attendance κ γ)} {notices : List (Notice κ γ)} {notice : Notice κ γ}

omit [DecidableEq κ] in
theorem confirmed_append (first second : List (Notice κ γ)) :
    confirmed (first ++ second) = confirmed first ++ confirmed second :=
  List.filterMap_append

theorem Follows.mono (follows : Follows requests done notice) : Follows (requests ++ more) done notice := by
  match notice with
  | .confirm (.enter topic who) => exact List.IsPrefix.trans follows (List.prefix_append requests more)
  | .confirm (.leave topic) => exact ⟨follows.1.trans (List.prefix_append requests more), follows.2⟩
  | .message topic => exact follows

/-- More requests leave what was sent as it is. -/
theorem Announced.mono (announced : Announced requests done notices) : Announced (requests ++ more) done notices := by
  induction notices generalizing done with
  | nil => exact List.IsPrefix.trans announced (List.prefix_append requests more)
  | cons notice notices ih => exact ⟨announced.1.mono, ih announced.2⟩

theorem Announced.append (announced : Announced requests done notices)
    (follows : Follows requests (done ++ confirmed notices) notice) :
    Announced requests done (notices ++ [notice]) := by
  induction notices generalizing done with
  | nil =>
    rw [confirmed, List.filterMap_nil, List.append_nil] at follows
    refine ⟨follows, ?_⟩
    match notice with
    | .confirm (.enter topic who) => exact follows
    | .confirm (.leave topic) => exact follows.1
    | .message topic =>
      have front : done <+: requests := announced
      rwa [← List.append_nil done] at front
  | cons first notices ih =>
    refine ⟨announced.1, ih announced.2 ?_⟩
    rw [List.append_assoc, ← confirmed_append]
    exact follows

namespace Kept

variable {roster : Keyspace κ (γ × ℤ)} (kept : Kept requests done roster)

include kept

/-- No count is negative. -/
theorem nonneg {topic : κ} {who : γ} {count : ℤ} (here : roster topic = some (who, count)) : 0 ≤ count := by
  obtain ⟨rest, all⟩ := kept.front
  obtain ⟨-, bound⟩ := kept.known topic who count here
  rw [← all, entries_append] at bound
  omega

/-- A request to enter, with a count that is high enough. -/
theorem enter {topic : κ} (who : γ) {count : ℤ} (positive : 1 ≤ count)
    (above : ∀ old before, roster topic = some (old, before) → before + 1 ≤ count) :
    Kept (requests ++ [.enter topic who]) done (roster.put topic (who, count)) := by
  refine ⟨kept.front.trans (List.prefix_append _ _), fun other person number found => ?_, fun other cause => ?_⟩
  · by_cases same : topic = other
    · subst same
      rw [Keyspace.put_self] at found
      obtain ⟨rfl, rfl⟩ := Prod.mk.inj (Option.some.inj found)
      refine ⟨by simp, ?_⟩
      rw [entries_append, entries_enter, if_pos rfl]
      cases here : roster topic with
      | none =>
        have all : ¬entries done topic < entries requests topic := by
          intro fewer
          have there := kept.there topic (.inr fewer)
          rw [here] at there
          cases there
        omega
      | some old =>
        obtain ⟨-, bound⟩ := kept.known topic old.1 old.2 here
        have above := above old.1 old.2 here
        omega
    · rw [Keyspace.put_of_ne _ (Ne.symm same)] at found
      rw [subscriber_enter, if_neg same, entries_append, entries_enter, if_neg same]
      exact kept.known other person number found
  · by_cases same : topic = other
    · subst same
      rw [Keyspace.put_self]
      rfl
    · rw [entries_append, entries_enter, if_neg same] at cause
      rw [Keyspace.put_of_ne _ (Ne.symm same)]
      exact kept.there other cause

/-- A request to leave, which changes nothing. -/
theorem leave (topic : κ) : Kept (requests ++ [.leave topic]) done roster := by
  refine ⟨kept.front.trans (List.prefix_append _ _), fun other person number found => ?_, fun other cause => ?_⟩
  · rw [subscriber_leave, entries_append, entries_leave]
    exact kept.known other person number found
  · rw [entries_append, entries_leave] at cause
    exact kept.there other cause

theorem leaveAll (topics : List κ) : Kept (requests ++ topics.map .leave) done roster := by
  induction topics generalizing requests with
  | nil => rwa [List.map_nil, List.append_nil]
  | cons topic topics ih =>
    have rest := ih (kept.leave topic)
    rwa [List.append_assoc] at rest

/-- A topic is there before an entry is confirmed. -/
theorem there_enter {topic : κ} {who : γ} (front : done ++ [.enter topic who] <+: requests) :
    (roster topic).isSome := by
  refine kept.there topic (.inr ?_)
  obtain ⟨rest, all⟩ := front
  rw [← all, entries_append, entries_append, entries_enter, if_pos rfl]
  omega

/-- An entry is confirmed. -/
theorem confirm_enter {topic : κ} {who person : γ} {count : ℤ} (front : done ++ [.enter topic who] <+: requests)
    (here : roster topic = some (person, count)) :
    Kept requests (done ++ [.enter topic who]) (roster.put topic (person, count - 1)) := by
  refine ⟨front, fun other someone number found => ?_, fun other cause => ?_⟩
  · by_cases same : topic = other
    · subst same
      rw [Keyspace.put_self] at found
      obtain ⟨rfl, rfl⟩ := Prod.mk.inj (Option.some.inj found)
      obtain ⟨known, bound⟩ := kept.known topic person count here
      refine ⟨known, ?_⟩
      rw [entries_append, entries_enter, if_pos rfl]
      omega
    · rw [Keyspace.put_of_ne _ (Ne.symm same)] at found
      rw [entries_append, entries_enter, if_neg same]
      exact kept.known other someone number found
  · by_cases same : topic = other
    · subst same
      rw [Keyspace.put_self]
      rfl
    · rw [entered_enter, if_neg same, entries_append, entries_enter, if_neg same] at cause
      rw [Keyspace.put_of_ne _ (Ne.symm same)]
      exact kept.there other cause

/-- A leave is confirmed, and the topic stays. -/
theorem confirm_leave {topic : κ} (front : done ++ [.leave topic] <+: requests) :
    Kept requests (done ++ [.leave topic]) roster := by
  refine ⟨front, fun other someone number found => ?_, fun other cause => ?_⟩
  · rw [entries_append, entries_leave]
    exact kept.known other someone number found
  · rw [entered_leave, entries_append, entries_leave] at cause
    refine kept.there other (cause.imp_left fun inside => ?_)
    split_ifs at inside
    exact inside

/-- A leave is confirmed, and the topic goes. -/
theorem confirm_last {topic : κ} {who : γ} (front : done ++ [.leave topic] <+: requests)
    (here : roster topic = some (who, 0)) :
    Kept requests (done ++ [.leave topic]) (roster.erase topic) := by
  have stays := kept.confirm_leave front
  refine ⟨front, fun other someone number found => ?_, fun other cause => ?_⟩
  · by_cases same : topic = other
    · subst same
      rw [Keyspace.erase_self] at found
      cases found
    · rw [Keyspace.erase_of_ne (Ne.symm same)] at found
      exact stays.known other someone number found
  · by_cases same : topic = other
    · subst same
      obtain ⟨-, bound⟩ := kept.known topic who 0 here
      rw [entered_leave, if_pos rfl, entries_append, entries_leave] at cause
      have fewer := cause.resolve_left Bool.false_ne_true
      omega
    · rw [Keyspace.erase_of_ne (Ne.symm same)]
      exact stays.there other cause

end Kept

end

end Attendance

end CppRedis.Machine
