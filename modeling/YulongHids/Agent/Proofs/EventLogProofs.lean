import Mathlib.Data.Nat.Size
import YulongHids.Agent.EventLog

/-!
# Proofs: reading the event log

Each call of `eventHandles` by itself has half the bound, so a bound of so many binary digits allows
as many calls and one more, which is refused.
-/

namespace YulongHids.Agent.EventLog

open Golang

/-! ## One call -/

section Next

variable {l l' : WinEventLog} {a : Attempt} {maxRead maxRead' : ℤ}

/-- The ways a call goes on: with the handles, with a panic, without handles after an error, and anew
with half the bound. -/
theorem next_cases (l : WinEventLog) (a : Attempt) (maxRead : ℤ) :
    (∃ hs, a.eventHandles l.subscription maxRead = .handles hs ∧
      l.next a maxRead = .returns l ⟨some hs, maxRead, none⟩) ∨
    (a.eventHandles l.subscription maxRead = .panic ∧ l.next a maxRead = .panics l) ∨
    (∃ err l' r, a.eventHandles l.subscription maxRead = .error err ∧
      l.next a maxRead = .returns l' r ∧ r.handles = none) ∨
    ∃ l', a.eventHandles l.subscription maxRead = .error rpcSInvalidBound ∧
      l.next a maxRead = .again l' (maxRead.tdiv 2) := by
  unfold WinEventLog.next
  rcases houtcome : a.eventHandles l.subscription maxRead with hs | err | -
  · exact .inl ⟨hs, rfl, rfl⟩
  · refine .inr (.inr ?_)
    simp only
    by_cases hitems : err = errorNoMoreItems
    · rw [if_pos hitems]
      exact .inl ⟨err, _, _, rfl, rfl, rfl⟩
    by_cases hbound : err = rpcSInvalidBound
    · rw [if_neg hitems, if_pos hbound]
      subst hbound
      split
      · exact .inl ⟨_, _, _, rfl, rfl, rfl⟩
      · split
        · exact .inl ⟨_, _, _, rfl, rfl, rfl⟩
        · exact .inr ⟨_, rfl, rfl⟩
    · rw [if_neg hitems, if_neg hbound]
      exact .inl ⟨err, _, _, rfl, rfl, rfl⟩
  · exact .inr (.inl ⟨rfl, rfl⟩)

theorem next_again (h : l.next a maxRead = .again l' maxRead') :
    a.eventHandles l.subscription maxRead = .error rpcSInvalidBound ∧
      maxRead' = maxRead.tdiv 2 := by
  rcases next_cases l a maxRead with ⟨hs, -, hnext⟩ | ⟨-, hnext⟩ | ⟨err, l₁, r, -, hnext, -⟩ |
    ⟨l₁, herr, hnext⟩
  all_goals rw [hnext] at h; cases h
  exact ⟨herr, rfl⟩

theorem next_returns_handles {r : Returned} {hs : List EvtHandle}
    (h : l.next a maxRead = .returns l' r) (hr : r.handles = some hs) :
    a.eventHandles l.subscription maxRead = .handles hs := by
  rcases next_cases l a maxRead with ⟨hs', hhandles, hnext⟩ | ⟨-, hnext⟩ |
    ⟨err, l₁, r', -, hnext, hnone⟩ | ⟨l₁, -, hnext⟩
  all_goals rw [hnext] at h; cases h
  · cases hr
    exact hhandles
  · rw [hnone] at hr
    cases hr

/-- Only a bound of at least 1 is halved. -/
theorem halved_of_next_again (ha : a.Refuses) (h : l.next a maxRead = .again l' maxRead') :
    1 ≤ maxRead ∧ maxRead' = maxRead / 2 := by
  obtain ⟨hinvalid, hhalf⟩ := next_again h
  have hone : 1 ≤ maxRead := by
    by_contra hlt
    obtain ⟨err, herr, hne⟩ := ha l.subscription maxRead (by omega)
    rw [hinvalid] at herr
    cases herr
    exact hne rfl
  exact ⟨hone, by rw [hhalf, Int.tdiv_eq_ediv_of_nonneg (by omega)]⟩

end Next

/-! ## The run -/

section Run

variable {env : ℕ → Attempt}

/-- How a run with some fuel comes about: the first call ends it, or a shorter run follows. -/
theorem eventHandles_succ {fuel i : ℕ} {l : WinEventLog} {maxRead : ℤ} {run : Run}
    (h : eventHandles env (fuel + 1) i l maxRead = some run) :
    (∃ l' r, l.next (env i) maxRead = .returns l' r ∧ run.returned = some r ∧
      run.calls = [⟨l.subscription, maxRead, (env i).eventHandles l.subscription maxRead⟩]) ∨
    (l.next (env i) maxRead = .panics run.log ∧ run.returned = none ∧
      run.calls = [⟨l.subscription, maxRead, (env i).eventHandles l.subscription maxRead⟩]) ∨
    ∃ l' maxRead' run', l.next (env i) maxRead = .again l' maxRead' ∧
      eventHandles env fuel (i + 1) l' maxRead' = some run' ∧ run.returned = run'.returned ∧
      run.calls = ⟨l.subscription, maxRead, (env i).eventHandles l.subscription maxRead⟩ :: run'.calls := by
  unfold eventHandles at h
  split at h
  · next l' r hnext =>
    cases h
    exact .inl ⟨l', r, hnext, rfl, rfl⟩
  · next l' hnext =>
    cases h
    exact .inr (.inl ⟨hnext, rfl, rfl⟩)
  · next l' maxRead' hnext =>
    obtain ⟨run', hrun', rfl⟩ := Option.map_eq_some_iff.mp h
    exact .inr (.inr ⟨l', maxRead', run', hnext, hrun', rfl, rfl⟩)

theorem calls_length_le (fuel : ℕ) : ∀ {i : ℕ} {l : WinEventLog} {maxRead : ℤ} {run : Run},
    eventHandles env fuel i l maxRead = some run → run.calls.length ≤ fuel := by
  induction fuel with
  | zero => intro i l maxRead run h; cases h
  | succ fuel ih =>
    intro i l maxRead run h
    rcases eventHandles_succ h with ⟨l', r, -, -, hcalls⟩ | ⟨-, -, hcalls⟩ |
      ⟨l', maxRead', run', -, hrun', -, hcalls⟩
    · simp [hcalls]
    · simp [hcalls]
    · have hlen := ih hrun'
      simp only [hcalls, List.length_cons]
      omega

/-- More fuel does not change a run. -/
theorem eventHandles_mono (fuel : ℕ) : ∀ {fuel' i : ℕ} {l : WinEventLog} {maxRead : ℤ} {run : Run},
    eventHandles env fuel i l maxRead = some run → fuel ≤ fuel' →
      eventHandles env fuel' i l maxRead = some run := by
  induction fuel with
  | zero => intro fuel' i l maxRead run h; cases h
  | succ fuel ih =>
    intro fuel' i l maxRead run h hle
    obtain ⟨fuel', rfl⟩ : ∃ n, fuel' = n + 1 := ⟨fuel' - 1, by omega⟩
    rw [← h]
    unfold eventHandles
    split
    · rfl
    · rfl
    · next l' maxRead' hnext =>
      unfold eventHandles at h
      simp only [hnext] at h
      obtain ⟨run', hrun', -⟩ := Option.map_eq_some_iff.mp h
      rw [hrun', ih hrun' (by omega)]

/-- A call ends where the call of itself does, if there is one. -/
theorem exists_run_succ {fuel i : ℕ} {l : WinEventLog} {maxRead : ℤ}
    (h : ∀ l' maxRead', l.next (env i) maxRead = .again l' maxRead' →
      ∃ run, eventHandles env fuel (i + 1) l' maxRead' = some run) :
    ∃ run, eventHandles env (fuel + 1) i l maxRead = some run := by
  unfold eventHandles
  split
  · exact ⟨_, rfl⟩
  · exact ⟨_, rfl⟩
  · next l' maxRead' hnext =>
    obtain ⟨run, hrun⟩ := h l' maxRead' hnext
    rw [hrun]
    exact ⟨_, rfl⟩

theorem exists_run (henv : ∀ i, (env i).Refuses) (fuel : ℕ) :
    ∀ (i : ℕ) (l : WinEventLog) (maxRead : ℤ), maxRead < 2 ^ fuel →
      ∃ run, eventHandles env (fuel + 1) i l maxRead = some run := by
  induction fuel with
  | zero =>
    intro i l maxRead hlt
    apply exists_run_succ
    intro l' maxRead' hnext
    obtain ⟨hone, -⟩ := halved_of_next_again (henv i) hnext
    omega
  | succ fuel ih =>
    intro i l maxRead hlt
    apply exists_run_succ
    intro l' maxRead' hnext
    apply ih
    rw [pow_succ] at hlt
    obtain ⟨-, rfl⟩ := halved_of_next_again (henv i) hnext
    omega

/-- The handles are those of the last call, whose bound was halved some number of times. -/
theorem handles_of_last_call (henv : ∀ i, (env i).Refuses) (fuel : ℕ) :
    ∀ {i : ℕ} {l : WinEventLog} {maxRead : ℤ} {run : Run} {r : Returned} {hs : List EvtHandle},
      eventHandles env fuel i l maxRead = some run → run.returned = some r → r.handles = some hs →
        ∃ calls call, run.calls = calls ++ [call] ∧
          (env (i + calls.length)).eventHandles call.subscription call.maxHandles = .handles hs ∧
          call.maxHandles ≤ maxRead := by
  induction fuel with
  | zero => intro i l maxRead run r hs h; cases h
  | succ fuel ih =>
    intro i l maxRead run r hs h hreturned hr
    rcases eventHandles_succ h with ⟨l', r', hnext, hr', hcalls⟩ | ⟨-, hnone, -⟩ |
      ⟨l', maxRead', run', hnext, hrun', hreturned', hcalls⟩
    · rw [hreturned] at hr'
      cases hr'
      exact ⟨[], _, hcalls, next_returns_handles hnext hr, le_refl _⟩
    · rw [hnone] at hreturned
      cases hreturned
    · rw [hreturned'] at hreturned
      obtain ⟨calls, call, hcalls', hread, hle⟩ := ih hrun' hreturned hr
      refine ⟨_ :: calls, call, by rw [hcalls, hcalls']; rfl, ?_, ?_⟩
      · rw [List.length_cons, Nat.add_comm calls.length, ← Nat.add_assoc]
        exact hread
      · obtain ⟨hone, hhalf⟩ := halved_of_next_again (henv i) hnext
        omega

/-- A bound of `k` binary digits needs no more than `k + 1` calls. -/
theorem exists_run_of_size (henv : ∀ i, (env i).Refuses) (i : ℕ) (l : WinEventLog) (maxRead : ℤ) :
    ∃ run, ∀ fuel, maxRead.toNat.size < fuel → eventHandles env fuel i l maxRead = some run := by
  have hpow : ((maxRead.toNat : ℕ) : ℤ) < 2 ^ maxRead.toNat.size := by
    exact_mod_cast Nat.lt_size_self maxRead.toNat
  obtain ⟨run, hrun⟩ := exists_run henv maxRead.toNat.size i l maxRead (by omega)
  exact ⟨run, fun fuel hfuel => eventHandles_mono _ hrun hfuel⟩

/-- The retries end, after one call for each binary digit of the bound and one more at most, and the
handles were read with a bound of at most `maxRead`. -/
theorem eventHandles_terminates (env : ℕ → Attempt) (l : WinEventLog) (maxRead : ℤ)
    (henv : ∀ i, (env i).Refuses) :
    ∃ run, (∀ fuel, maxRead.toNat.size < fuel → eventHandles env fuel 0 l maxRead = some run) ∧
      run.calls.length ≤ maxRead.toNat.size + 1 ∧
      ∀ r hs, run.returned = some r → r.handles = some hs →
        ∃ calls call, run.calls = calls ++ [call] ∧
          (env calls.length).eventHandles call.subscription call.maxHandles = .handles hs ∧
          call.maxHandles ≤ maxRead := by
  obtain ⟨run, hrun⟩ := exists_run_of_size henv 0 l maxRead
  have hfirst := hrun _ (Nat.lt_succ_self _)
  refine ⟨run, hrun, calls_length_le _ hfirst, fun r hs hreturned hr => ?_⟩
  obtain ⟨calls, call, hcalls, hread, hle⟩ := handles_of_last_call henv _ hfirst hreturned hr
  rw [Nat.zero_add] at hread
  exact ⟨calls, call, hcalls, hread, hle⟩

end Run

/-! ## The vendored package -/

theorem Attempt.Vendored.refuses {a : Attempt} (ha : a.Vendored) : a.Refuses := by
  obtain ⟨evtNext, heq⟩ := ha
  intro subscription maxHandles hlt
  refine ⟨.errorf (str "maxHandles must be greater than 0"), ?_, by simp [rpcSInvalidBound]⟩
  rw [heq, Win.eventHandles, if_pos hlt]

theorem Attempt.Vendored.length_le {a : Attempt} (ha : a.Vendored) {subscription : EvtHandle}
    {maxHandles : ℤ} {hs : List EvtHandle}
    (h : a.eventHandles subscription maxHandles = .handles hs) : hs.length ≤ maxHandles.toNat := by
  obtain ⟨evtNext, heq⟩ := ha
  rw [heq] at h
  unfold Win.eventHandles at h
  simp only at h
  split at h
  · cases h
  split at h
  · cases h
  split at h
  · split at h <;> cases h
  · split at h
    · cases h
      rw [List.length_take, List.length_take]
      omega
    · cases h

/-- A service that takes no more than 500 at a time, and has two events. -/
def atMost500Next (_ : EvtHandle) (size : ℕ) : EvtNext :=
  if size ≤ 500 then ⟨true, none, [11, 12], 2⟩ else ⟨true, some rpcSInvalidBound, [], 0⟩

def atMost500 : Attempt where
  eventHandles := Win.eventHandles atMost500Next
  close := fun _ => none
  createBookmark := fun _ => .ok 5
  createEvent := .ok 6
  subscribe := fun _ _ => .ok 7

theorem atMost500_vendored : atMost500.Vendored := ⟨atMost500Next, rfl⟩

theorem eventHandles_terminates_atMost500 :
    ∃ run, (∀ fuel, (1000 : ℤ).toNat.size < fuel →
        eventHandles (fun _ => atMost500) fuel 0 ⟨4, 1000, 0, 16384⟩ 1000 = some run) ∧
      run.calls.length ≤ (1000 : ℤ).toNat.size + 1 ∧
      ∀ r hs, run.returned = some r → r.handles = some hs →
        ∃ calls call, run.calls = calls ++ [call] ∧
          atMost500.eventHandles call.subscription call.maxHandles = .handles hs ∧
          call.maxHandles ≤ 1000 :=
  eventHandles_terminates (fun _ => atMost500) ⟨4, 1000, 0, 16384⟩ 1000
    fun _ => atMost500_vendored.refuses

/-- The refusal is needed: against a service that rejects every bound the calls go on for ever. -/
theorem eventHandles_diverges {env : ℕ → Attempt} (hclose : ∀ i h, (env i).close h = none)
    (hopen : ∀ (i : ℕ) (l : WinEventLog), (l.openAt (env i) l.lastRead).2 = none)
    (hinvalid : ∀ i h n, (env i).eventHandles h n = .error rpcSInvalidBound) (fuel : ℕ) :
    ∀ (i : ℕ) (l : WinEventLog) (maxRead : ℤ), eventHandles env fuel i l maxRead = none := by
  induction fuel with
  | zero => intro i l maxRead; rfl
  | succ fuel ih =>
    intro i l maxRead
    have hnext : l.next (env i) maxRead =
        .again (l.openAt (env i) l.lastRead).1 (maxRead.tdiv 2) := by
      have hpair : l.openAt (env i) l.lastRead = ((l.openAt (env i) l.lastRead).1, none) :=
        Prod.ext rfl (hopen i l)
      unfold WinEventLog.next WinEventLog.close
      rw [hinvalid, hclose, hpair]
      rfl
    unfold eventHandles
    simp only [hnext, ih, Option.map_none]

/-! ## Reading -/

section Reading

variable {env : ℕ → Attempt} {s : Rendering}

end Reading

end YulongHids.Agent.EventLog
