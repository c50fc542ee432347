import CppRedis.Soundness.Sections

/-! # Waiting for a refresh

`WaitForRefresh` returns what `m_bValid` says, and `m_bValid` stays true from a failed request until the
refresh thread has tried again. A caller that is faster than the refresh thread takes the old value for
the result of a refresh.
-/

namespace CppRedis.Soundness.Handshake

open Machine Machine.Program Model.RedisClient Model.RedisCpp Sections

variable {ρ : Type}

/-- The call of `WaitForRefresh` that a caller is in, or is back from. -/
def call? : Caller → Option RefreshCall
  | .polling _ call | .leaving call | .refreshed _ call => some call
  | _ => none

/-- What can have happened since a call began: the client is as valid as then if no refresh was completed,
and is not valid after refreshes that all failed. -/
structure Since (threads : Threads ρ) (call : RefreshCall) : Prop where
  attempts : call.attempts ≤ threads.attempts
  refreshes : call.refreshes ≤ threads.refreshes
  unchanged : threads.attempts = call.attempts →
    threads.world.client.bValid = call.bValid ∧ threads.refreshes = call.refreshes
  failed : threads.refreshes = call.refreshes → threads.world.client.bValid = true → threads.attempts = call.attempts

def Recorded (threads : Threads ρ) : Prop :=
  ∀ thread call, call? (threads.caller thread) = some call → Since threads call

/-- Callers that got true from `WaitForRefresh` were waiting while a refresh succeeded. -/
def Refreshed (threads : Threads ρ) : Prop :=
  ∀ thread call, threads.caller thread = .refreshed true call → call.refreshes < threads.refreshes

/-- A call that found the client valid goes on to its last read only after a refresh was completed. -/
def Outlasts (threads : Threads ρ) (event : ThreadEvent) : Prop :=
  ∀ thread call, event = .leave thread → threads.crashed = false → threads.caller thread = .leaving call →
    call.bValid = true → call.attempts < threads.attempts

section

variable {net : Network ρ} {address : ℕ → ℕ} {threads : Threads ρ}

theorem Since.of_quiet {target : Threads ρ} (quiet : Quiet threads target) {call : RefreshCall}
    (since : Since threads call) : Since target call := by
  obtain ⟨attempts, refreshes, unchanged, failed⟩ := since
  refine ⟨?_, ?_, ?_, ?_⟩
  · rwa [quiet.attempts]
  · rwa [quiet.refreshes]
  · rwa [quiet.attempts, quiet.refreshes, quiet.client]
  · rwa [quiet.attempts, quiet.refreshes, quiet.client]

theorem Since.start (threads : Threads ρ) :
    Since threads {
      bValid := threads.world.client.bValid
      attempts := threads.attempts
      refreshes := threads.refreshes } :=
  ⟨le_refl _, le_refl _, fun _ => ⟨rfl, rfl⟩, fun _ _ => rfl⟩

/-- A caller stays in its call, or begins one. -/
theorem Since.of_advances {thread : ℕ} {event : ThreadEvent} {caller next : Caller}
    (advances : Advances net address threads thread event caller next)
    (since : ∀ call, call? caller = some call → Since threads call) (call : RefreshCall)
    (inCall : call? next = some call) : Since threads call := by
  cases advances with
  | call free granted nRetry =>
    cases inCall
    exact Since.start threads
  | poll nRetry call => exact since _ inCall
  | stop nRetry call => exact since _ inCall
  | leave call => exact since _ inCall
  | _ => cases inCall

theorem Since.refreshed {call : RefreshCall} (since : Since threads call) (world : World (Pool ρ)) :
    Since (refreshedBy threads world) call := by
  obtain ⟨attempts, refreshes, unchanged, failed⟩ := since
  simp only [refreshedBy]
  refine ⟨by dsimp only; omega, ?_, fun same => ?_, fun same valid => ?_⟩
  · dsimp only
    split_ifs
    · omega
    · exact refreshes
  · dsimp only at same
    omega
  · dsimp only at same valid
    rw [if_pos valid] at same
    omega

/-- Every section keeps the record of the calls. -/
theorem step_recorded (net : Network ρ) (address : ℕ → ℕ) (recorded : Recorded threads) (event : ThreadEvent) :
    Recorded (threads.step net address event) := by
  by_cases refresh : event = .refresh
  · subst event
    rcases refresh_cases net address threads with same | crash | ⟨-, -, world, -, does⟩
    · rwa [same]
    · rw [crash]
      intro thread call inCall
      exact (recorded thread call inCall).of_quiet (Quiet.crashed threads)
    · rw [does]
      exact fun thread call inCall => (recorded thread call inCall).refreshed world
  · obtain ⟨quiet, same | ⟨thread, caller, advances, moved⟩, -⟩ := step_movesTo net address threads event refresh
    · intro thread call inCall
      rw [same] at inCall
      exact (recorded thread call inCall).of_quiet quiet
    · intro other call inCall
      rw [moved] at inCall
      by_cases own : other = thread
      · subst other
        rw [Function.update_self] at inCall
        exact (Since.of_advances advances (recorded thread) call inCall).of_quiet quiet
      · rw [Function.update_of_ne own] at inCall
        exact (recorded other call inCall).of_quiet quiet

/-- The last read finds true after a refresh that succeeded, or where nothing happened. -/
theorem Since.lt_iff {call : RefreshCall} (since : Since threads call) :
    (threads.world.client.bValid = true → call.refreshes < threads.refreshes) ↔
      (call.bValid = true → call.attempts < threads.attempts) := by
  obtain ⟨attempts, refreshes, unchanged, failed⟩ := since
  constructor
  · intro refreshed wasValid
    by_contra none
    obtain ⟨valid, same⟩ := unchanged (by omega)
    have := refreshed (valid.trans wasValid)
    omega
  · intro outlasts valid
    by_contra none
    have same := failed (by omega) valid
    have := outlasts (by rw [← (unchanged same).1, valid])
    omega

/-- Only the last read returns. -/
theorem advances_refreshed {thread : ℕ} {event : ThreadEvent} {caller : Caller} {result : Bool} {call : RefreshCall}
    (advances : Advances net address threads thread event caller (.refreshed result call)) :
    event = .leave thread ∧ caller = .leaving call := by
  cases advances
  exact ⟨rfl, rfl⟩

end

/-- Only a last read can break the property, and it does so exactly when it comes too early. -/
theorem step_refreshed_iff (net : Network ρ) (address : ℕ → ℕ) (threads : Threads ρ) (event : ThreadEvent)
    (recorded : Recorded threads) (holds : Refreshed threads) :
    Refreshed (threads.step net address event) ↔ Outlasts threads event := by
  cases runs : threads.crashed with
  | true =>
    have same : threads.step net address event = threads := by rw [Threads.step.eq_def, if_pos runs]
    rw [same]
    refine iff_of_true holds fun thread call _ alive => ?_
    rw [runs] at alive
    cases alive
  | false =>
  by_cases leave : ∃ thread call, event = .leave thread ∧ threads.caller thread = .leaving call
  · obtain ⟨thread, call, rfl, here⟩ := leave
    have does : threads.step net address (.leave thread) =
        threads.place thread (.refreshed threads.world.client.bValid call) := by
      simp only [Threads.step, runs, Bool.false_eq_true, ↓reduceIte, Threads.leave, here]
    have exactly := (recorded thread call (by rw [here]; rfl)).lt_iff
    rw [does]
    constructor
    · rintro refreshed _ _ ⟨⟩ - inCall wasValid
      cases here.symm.trans inCall
      refine exactly.mp (fun valid => refreshed thread call ?_) wasValid
      simp only [Threads.place, Function.update_self, valid]
    · intro outlasts other call' back
      by_cases own : other = thread
      · subst other
        simp only [Threads.place, Function.update_self, Caller.refreshed.injEq] at back
        obtain ⟨valid, rfl⟩ := back
        exact exactly.mpr (outlasts thread call rfl runs here) valid
      · simp only [Threads.place, Function.update_of_ne own] at back
        exact holds other call' back
  · refine iff_of_true (fun thread call back => ?_) fun thread call isLeave _ here =>
      absurd ⟨thread, call, isLeave, here⟩ leave
    by_cases refresh : event = .refresh
    · subst event
      rcases refresh_cases net address threads with same | crash | ⟨-, -, world, -, does⟩
      · rw [same] at back ⊢
        exact holds thread call back
      · rw [crash] at back ⊢
        exact holds thread call back
      · rw [does] at back ⊢
        refine lt_of_lt_of_le (holds thread call back) ?_
        simp only [refreshedBy]
        split_ifs
        · exact Nat.le_succ _
        · exact le_refl _
    · obtain ⟨quiet, same | ⟨other, caller, advances, moved⟩, -⟩ := step_movesTo net address threads event refresh
      · rw [same] at back
        rw [quiet.refreshes]
        exact holds thread call back
      · rw [moved] at back
        rw [quiet.refreshes]
        by_cases own : thread = other
        · subst other
          rw [Function.update_self] at back
          subst caller
          exact absurd ⟨thread, call, advances_refreshed advances⟩ leave
        · rw [Function.update_of_ne own] at back
          exact holds thread call back

/-- In every run, `WaitForRefresh` returns true only after a refresh that succeeded since the call began,
exactly as long as no call that finds the client valid ends before a refresh was completed. -/
theorem run_refreshed_iff (net : Network ρ) (address : ℕ → ℕ) (threads : Threads ρ)
    (atRest : ∀ thread, threads.caller thread = .idle) (events : List ThreadEvent) :
    Always (Threads.step net address) Refreshed threads events ↔
      Along (Threads.step net address) Outlasts threads events := by
  refine always_iff_along Recorded (fun _ event recorded => step_recorded net address recorded event)
    (fun source event recorded holds => step_refreshed_iff net address source event recorded holds) ?_ ?_ events
  · intro thread call inCall
    rw [atRest thread] at inCall
    cases inCall
  · intro thread call back
    rw [atRest thread] at back
    cases back

/-- A server that is always there. -/
def answering : Network Unit where
  clock _ := 0
  connect _ _ := true
  append _ := true
  receive _ := none
  rounds _ := 0
  serve _ _ _ := (.nil, ())

/-- A client with that server, whose refresh thread has not started. -/
def renewable : Threads Unit where
  world := {
    client := { vecRedisServ := [0] }
    servers := {
      server := fun _ => { strHost := text "redis", nPort := 6379, nConnNum := 1, vecHosts := [(text "redis", 6379)] }
      servers := 1
      redis := () } }

/-- The refresh thread waits, is woken by the call and gets done before the call reads the flag. -/
theorem run_refreshed_iff_handshake :
    Always (Threads.step answering id) Refreshed renewable
      [.lock, .waitForRefresh 0 true, .relock, .refresh, .poll 0, .leave 0] := by
  refine (run_refreshed_iff answering id renewable (fun _ => rfl) _).mpr
    ⟨nofun, nofun, nofun, nofun, nofun, ?_, trivial⟩
  rintro thread call ⟨⟩ - here -
  cases here
  decide

/-- A call of one that reads the flag at once gets the value from before. -/
theorem run_stale_flag :
    ¬ Always (Threads.step answering id) Refreshed renewable [.lock, .waitForRefresh 0 true, .poll 0, .leave 0] := by
  intro always
  have last := always.last 0 { bValid := true, attempts := 0, refreshes := 0 } rfl
  exact absurd last (by decide)

end CppRedis.Soundness.Handshake
