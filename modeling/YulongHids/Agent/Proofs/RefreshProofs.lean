import YulongHids.Agent.Refresh

/-!
# Proofs: the goroutines of `configRefresh`

A turn that has begun waits, has given up, or has received, and only one of the three. So the events
of a run say where every goroutine is.
-/

namespace YulongHids.Agent

open Golang Transition

namespace Refresher

variable {s s' : Refresher} {a : AgentState} {es : List RefresherEvent} {e : RefresherEvent} {i : ℕ}

/-- What the events say about the turns and their goroutines. -/
structure Tracks (es : List RefresherEvent) (s : Refresher) : Prop where
  begun : ∀ i, i < s.callers.length ↔
    s.stage = .waiting i ∨ RefresherEvent.timeout i ∈ es ∨ RefresherEvent.receive i ∈ es
  calling : ∀ i, s.callers[i]? = some .calling ↔
    i < s.callers.length ∧ ∀ ok, RefresherEvent.answer i ok ∉ es
  sending : ∀ i, s.callers[i]? = some .sending ↔
    RefresherEvent.answer i true ∈ es ∧ RefresherEvent.receive i ∉ es
  answered : ∀ i ok, RefresherEvent.answer i ok ∈ es → i < s.callers.length
  received : ∀ i, RefresherEvent.receive i ∈ es → RefresherEvent.answer i true ∈ es
  waiting : ∀ i, s.stage = .waiting i →
    RefresherEvent.timeout i ∉ es ∧ RefresherEvent.receive i ∉ es
  once : ∀ i, RefresherEvent.timeout i ∈ es → RefresherEvent.receive i ∉ es

theorem Tracks.tick (h : Tracks es s) (hidle : s.stage = .idle) : Tracks (es ++ [.tick])
    { s with
      stage := .waiting s.callers.length
      since := s.now
      callers := s.callers ++ [.calling] } := by
  have hnew : RefresherEvent.timeout s.callers.length ∉ es ∧
      RefresherEvent.receive s.callers.length ∉ es := by
    have hnot := mt (h.begun s.callers.length).mpr (lt_irrefl _)
    exact ⟨fun ht => hnot (Or.inr (Or.inl ht)), fun hr => hnot (Or.inr (Or.inr hr))⟩
  have hunanswered : ∀ ok, RefresherEvent.answer s.callers.length ok ∉ es :=
    fun ok hmem => lt_irrefl _ (h.answered _ ok hmem)
  have hat : ∀ i, (s.callers ++ [Caller.calling])[i]? =
      if i = s.callers.length then some .calling else s.callers[i]? := by
    intro i
    rcases Nat.lt_trichotomy i s.callers.length with hlt | rfl | hgt
    · rw [List.getElem?_append_left hlt, if_neg hlt.ne]
    · rw [List.getElem?_concat_length, if_pos rfl]
    · rw [if_neg hgt.ne', List.getElem?_eq_none (by simp; omega), List.getElem?_eq_none hgt.le]
  refine ⟨fun i => ?_, fun i => ?_, fun i => ?_, fun i ok => ?_, fun i => ?_, fun i => ?_, fun i => ?_⟩
  · have hbegun := h.begun i
    rw [hidle] at hbegun
    simp only [List.length_append, List.length_singleton, List.mem_append, List.mem_singleton,
      reduceCtorEq, or_false, TurnStage.waiting.injEq, false_or] at hbegun ⊢
    rw [← hbegun]
    omega
  · rw [hat]
    split_ifs with hi
    · subst hi
      simpa using hunanswered
    · have hcalling := h.calling i
      simp only [List.length_append, List.length_singleton, List.mem_append, List.mem_singleton,
        reduceCtorEq, or_false]
      rw [hcalling]
      exact and_congr_left fun _ => by omega
  · rw [hat]
    split_ifs with hi
    · subst hi
      simpa using fun hmem => absurd hmem (hunanswered true)
    · simpa using h.sending i
  · intro hmem
    have hlt := h.answered i ok (by simpa using hmem)
    simp only [List.length_append, List.length_singleton]
    omega
  · simpa using h.received i
  · rintro hi
    obtain rfl := TurnStage.waiting.inj hi
    simpa using hnew
  · simpa using h.once i

theorem Tracks.answer (h : Tracks es s) (hcalling : s.callers[i]? = some .calling) (ok : Bool) :
    Tracks (es ++ [.answer i ok])
      { s with callers := s.callers.set i (if ok then .sending else .returned) } := by
  obtain ⟨hlt, hunanswered⟩ := (h.calling i).mp hcalling
  have hreceive : RefresherEvent.receive i ∉ es := fun hr => hunanswered true (h.received i hr)
  have hset : ∀ (c : Caller) (j : ℕ), (s.callers.set i c)[j]? =
      if j = i then some c else s.callers[j]? := by
    intro c j
    by_cases hj : j = i
    · rw [if_pos hj, hj, List.getElem?_set_self hlt]
    · rw [if_neg hj, List.getElem?_set_ne (Ne.symm hj)]
  refine ⟨fun j => ?_, fun j => ?_, fun j => ?_, fun j ok' => ?_, fun j => ?_, fun j => ?_, fun j => ?_⟩
  · simpa using h.begun j
  · rw [hset]
    rcases eq_or_ne j i with rfl | hj
    · have hlast : RefresherEvent.answer j ok ∈ es ++ [.answer j ok] :=
        List.mem_append_right _ (List.mem_singleton_self _)
      rw [if_pos rfl]
      exact iff_of_false (by cases ok <;> simp) fun hnot => hnot.2 ok hlast
    · simpa [hj] using h.calling j
  · rw [hset]
    split_ifs with hj hok
    · simp [hj, hok, hreceive]
    · simp [hj, hok, hunanswered]
    · simpa [hj] using h.sending j
  · intro hmem
    rw [List.length_set]
    rcases List.mem_append.mp hmem with hmem | hlast
    · exact h.answered j ok' hmem
    · obtain ⟨rfl, -⟩ := RefresherEvent.answer.inj (List.mem_singleton.mp hlast)
      exact hlt
  · intro hmem
    exact List.mem_append_left _ (h.received j (by simpa using hmem))
  · simpa using h.waiting j
  · simpa using h.once j

theorem Tracks.receive (h : Tracks es s) (hwaiting : s.stage = .waiting i)
    (hsending : s.callers[i]? = some .sending) : Tracks (es ++ [.receive i])
      { s with stage := .listing, callers := s.callers.set i .returned } := by
  have hlt := (List.getElem?_eq_some_iff.mp hsending).1
  obtain ⟨hanswer, -⟩ := (h.sending i).mp hsending
  have hset : ∀ j, (s.callers.set i Caller.returned)[j]? =
      if j = i then some .returned else s.callers[j]? := by
    intro j
    by_cases hj : j = i
    · rw [if_pos hj, hj, List.getElem?_set_self hlt]
    · rw [if_neg hj, List.getElem?_set_ne (Ne.symm hj)]
  refine ⟨fun j => ?_, fun j => ?_, fun j => ?_, fun j ok => ?_, fun j => ?_, fun j hj => ?_, fun j => ?_⟩
  · have hbegun := h.begun j
    rw [hwaiting] at hbegun
    simp only [List.length_set, List.mem_append, List.mem_singleton, reduceCtorEq, or_false,
      TurnStage.waiting.injEq, RefresherEvent.receive.injEq, false_or] at hbegun ⊢
    rw [hbegun, eq_comm (a := i)]
    tauto
  · rw [hset]
    split_ifs with hj
    · subst hj
      exact iff_of_false (by simp) fun hnot => hnot.2 true (List.mem_append_left _ hanswer)
    · simpa using h.calling j
  · rw [hset]
    split_ifs with hj
    · simp [hj]
    · simpa [hj] using h.sending j
  · simpa using h.answered j ok
  · intro hmem
    rcases List.mem_append.mp hmem with hmem | hlast
    · exact List.mem_append_left _ (h.received j hmem)
    · obtain rfl := RefresherEvent.receive.inj (List.mem_singleton.mp hlast)
      exact List.mem_append_left _ hanswer
  · cases hj
  · intro hmem
    have htimeout : RefresherEvent.timeout j ∈ es := by simpa using hmem
    have hne : j ≠ i := by
      rintro rfl
      exact (h.waiting j hwaiting).1 htimeout
    simpa [hne] using h.once j htimeout

theorem Tracks.timeout (h : Tracks es s) (hwaiting : s.stage = .waiting i) :
    Tracks (es ++ [.timeout i]) { s with stage := .idle } := by
  refine ⟨fun j => ?_, fun j => ?_, fun j => ?_, fun j ok => ?_, fun j => ?_, fun j hj => ?_, fun j => ?_⟩
  · have hbegun := h.begun j
    rw [hwaiting] at hbegun
    simp only [List.mem_append, List.mem_singleton, reduceCtorEq, or_false,
      TurnStage.waiting.injEq, RefresherEvent.timeout.injEq, false_or] at hbegun ⊢
    rw [hbegun, eq_comm (a := i)]
    tauto
  · simpa using h.calling j
  · simpa using h.sending j
  · simpa using h.answered j ok
  · simpa using h.received j
  · cases hj
  · intro hmem
    rcases List.mem_append.mp hmem with hmem | hlast
    · simpa using h.once j hmem
    · obtain rfl := RefresherEvent.timeout.inj (List.mem_singleton.mp hlast)
      simpa using (h.waiting j hwaiting).2

/-- An event that is no event of a turn. -/
theorem Tracks.other (h : Tracks es s) (hstage : ∀ i, s'.stage = .waiting i ↔ s.stage = .waiting i)
    (hcallers : s'.callers = s.callers) (hanswer : ∀ i ok, e ≠ .answer i ok)
    (hreceive : ∀ i, e ≠ .receive i) (htimeout : ∀ i, e ≠ .timeout i) : Tracks (es ++ [e]) s' := by
  have hmem : ∀ x : RefresherEvent, x ≠ e → (x ∈ es ++ [e] ↔ x ∈ es) := by
    intro x hx
    rw [List.mem_append, List.mem_singleton, or_iff_left hx]
  have hanswer' := fun i ok => hmem (.answer i ok) (hanswer i ok).symm
  have hreceive' := fun i => hmem (.receive i) (hreceive i).symm
  have htimeout' := fun i => hmem (.timeout i) (htimeout i).symm
  constructor <;> simp only [hstage, hcallers, hanswer', hreceive', htimeout']
  · exact h.begun
  · exact h.calling
  · exact h.sending
  · exact h.answered
  · exact h.received
  · exact h.waiting
  · exact h.once

theorem Tracks.step (h : Tracks es s) (hstep : s.step e = some s') : Tracks (es ++ [e]) s' := by
  cases e with
  | pass seconds =>
    obtain rfl := Option.some.inj hstep
    exact h.other (fun _ => Iff.rfl) rfl nofun nofun nofun
  | tick =>
    obtain ⟨hidle, rfl⟩ := guard_iff.mp hstep
    exact h.tick hidle
  | answer turn ok =>
    obtain ⟨hcalling, rfl⟩ := guard_iff.mp hstep
    exact h.answer hcalling ok
  | receive turn =>
    obtain ⟨⟨hwaiting, hsending⟩, rfl⟩ := guard_iff.mp hstep
    exact h.receive hwaiting hsending
  | timeout turn =>
    obtain ⟨⟨hwaiting, -⟩, rfl⟩ := guard_iff.mp hstep
    exact h.timeout hwaiting
  | list serverList dial =>
    rw [Refresher.step] at hstep
    split_ifs at hstep with hlisting
    obtain ⟨a', -, rfl⟩ := Option.map_eq_some_iff.mp hstep
    refine h.other (fun i => ?_) rfl nofun nofun nofun
    rw [hlisting]
    simp

/-- A turn that gives up, whose call succeeds later. -/
def lateTurn (i : ℕ) : List RefresherEvent := [.tick, .pass 3, .timeout i, .answer i true]

/-- Their number has no bound. -/
theorem exists_blocked (a : AgentState) (n : ℕ) :
    ∃ es s, run step (start a) es = some s ∧ s.stage = .idle ∧
      s.callers = List.replicate n .sending := by
  induction n with
  | zero => exact ⟨[], start a, rfl, rfl, rfl⟩
  | succ n ih =>
    obtain ⟨es, s, hrun, hidle, hcallers⟩ := ih
    let s' : Refresher := { s with
      now := s.now + 3
      since := s.now
      callers := List.replicate (n + 1) .sending }
    refine ⟨es ++ lateTurn n, s', run_append_iff.mpr ⟨s, hrun, ?_⟩, hidle, rfl⟩
    have hset : (List.replicate n Caller.sending ++ [Caller.calling]).set n .sending =
        List.replicate (n + 1) .sending := by
      rw [List.set_append_right _ _ (by simp), List.replicate_succ']
      simp
    simp [lateTurn, run, step, hidle, hcallers, hset, s']

end Refresher

end YulongHids.Agent
