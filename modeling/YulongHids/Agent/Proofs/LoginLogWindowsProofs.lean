import YulongHids.Agent.LoginLogWindows

/-!
# Proofs: login records on Windows

The flag `first` is set only up to the first poll that finds the log, and the query for logins takes
it away from the one for failed logins. Every other query looks back over one minute. What is read of a
failed login as its address is the name of a process.
-/

namespace YulongHids.Agent

open Golang

variable {log : SecurityLog} {polls : ℕ → WinPoll} {i : ℕ} {e : WinEvent}

section Take

variable {α : Type*} {key : α → ℕ} {l : List α} {a : α} {n : ℕ}

/-- Which elements of a list that is ordered by numbers are among the first `n`. -/
theorem mem_take_iff (h : l.Pairwise fun a b => key a < key b) :
    a ∈ l.take n ↔ a ∈ l ∧ l.countP (fun b => decide (key b < key a)) < n := by
  induction l generalizing n with
  | nil => simp
  | cons b l ih =>
    obtain ⟨hb, hl⟩ := List.pairwise_cons.mp h
    cases n with
    | zero => simp
    | succ n =>
      rw [List.take_succ_cons, List.mem_cons, List.mem_cons, ih hl, List.countP_cons]
      constructor
      · rintro (rfl | ⟨hmem, hcount⟩)
        · -- nothing comes before the head
          have hnone : l.countP (fun c => decide (key c < key a)) = 0 := by
            refine List.countP_eq_zero.mpr fun c hc => ?_
            simpa using Nat.le_of_lt (hb c hc)
          simp [hnone]
        · simp only [hb a hmem, decide_true, if_true]
          exact ⟨Or.inr hmem, by omega⟩
      · rintro ⟨rfl | hmem, hcount⟩
        · exact Or.inl rfl
        · simp only [hb a hmem, decide_true, if_true] at hcount
          exact Or.inr ⟨hmem, by omega⟩

theorem mem_take_filter_iff {p : α → Bool} (h : l.Pairwise fun a b => key a < key b) :
    a ∈ (l.filter p).take n ↔
      a ∈ l ∧ p a = true ∧ l.countP (fun b => p b && decide (key b < key a)) < n := by
  rw [mem_take_iff (h.filter p), List.mem_filter, List.countP_filter, and_assoc]
  simp only [Bool.and_comm]

end Take

/-! ## The flag -/

theorem getLoginLogWindows_first (p : WinPoll) (first : Bool) :
    (getLoginLogWindows log p first).2 = if p.evtx then false else first := by
  rw [getLoginLogWindows]
  split
  · rfl
  · rfl

theorem firstBefore_iff : firstBefore log polls i = true ↔ ∀ j < i, (polls j).evtx = false := by
  induction i with
  | zero => simp [firstBefore]
  | succ i ih =>
    rw [firstBefore, getLoginLogWindows_first]
    cases hevtx : (polls i).evtx with
    | true =>
      simp only [if_true, Bool.false_eq_true, false_iff]
      intro h
      have hlast := h i (Nat.lt_succ_self i)
      rw [hevtx] at hlast
      simp at hlast
    | false =>
      simp only [Bool.false_eq_true, if_false, ih]
      constructor
      · intro h j hj
        rcases Nat.lt_succ_iff_lt_or_eq.mp hj with hj | rfl
        · exact h j hj
        · exact hevtx
      · exact fun h j hj => h j (Nat.lt_succ_of_lt hj)

/-! ## One query and one poll -/

theorem mem_queryLogins {eventID now : ℕ} {timestamp : ℤ} {first : Bool} :
    e ∈ (queryLogins log eventID now timestamp first).1 ↔
      (e ∈ log.upTo now ∧ (newWinEventLog first eventID).1.selects now e = true ∧
        (log.upTo now).countP (fun e' => (newWinEventLog first eventID).1.selects now e' &&
          decide (e'.recordID < e.recordID)) < maxRead) ∧
      timestamp < e.unix ∧ e.remote ∉ localAddress := by
  rw [← mem_take_filter_iff (log.numbered now)]
  simp [queryLogins, remoteLogins, SecurityLog.read]

theorem queryLogins_eventID {eventID now : ℕ} {timestamp : ℤ} {first : Bool}
    (h : e ∈ (queryLogins log eventID now timestamp first).1) : e.eventID = eventID := by
  have hselects := (mem_queryLogins.mp h).1.2.1
  simp only [WinQuery.selects, Bool.and_eq_true, beq_iff_eq] at hselects
  exact hselects.1

/-- The records of a poll are those of the events that it reports. -/
theorem getLoginLogWindows_records :
    (getLoginLogWindows log (polls i) (firstBefore log polls i)).1 =
      (pollEvents log polls i).map fun e => winRecord (e.eventID == 4624) e := by
  rw [getLoginLogWindows, pollEvents]
  split
  · simp only [getSuccessLog, getFailedLog, List.map_append]
    congr 1
    · refine List.map_congr_left fun e he => ?_
      rw [queryLogins_eventID he]
      rfl
    · refine List.map_congr_left fun e he => ?_
      rw [queryLogins_eventID he]
      rfl
  · rfl

/-- The address of a login is where the agent looks for it; that of a failed login is not. -/
theorem remote_notMem_iff (hid : e.eventID = 4624 ∨ e.eventID = 4625)
    (haddress : e.address ∉ localAddress) :
    e.remote ∉ localAddress ↔ (e.eventID = 4625 → e.remote ∉ localAddress) := by
  rcases hid with hid | hid
  · have hsame : e.address = e.remote := by
      rw [WinEvent.address, if_pos hid]
      rfl
    rw [hsame] at haddress
    exact iff_of_true haddress fun _ => haddress
  · exact ⟨fun h _ => h, fun h => h hid⟩

/-- One query of a poll reports an event of its kind if and only if the poll covers it. -/
theorem mem_queryLogins_iff_covers (log : SecurityLog) {first : Bool} (hevtx : (polls i).evtx = true)
    (hid : e.eventID = 4624 ∨ e.eventID = 4625) (haddress : e.address ∉ localAddress)
    (hlook : (newWinEventLog first e.eventID).1.ignoreOlder = lookBack polls i e) :
    e ∈ (queryLogins log e.eventID ((polls i).queryTime e) (timestamp (polls i).lasttime)
      first).1 ↔ Covers log polls i e := by
  rw [mem_queryLogins, remote_notMem_iff hid haddress]
  have hselects : ∀ e', (newWinEventLog first e.eventID).1.selects ((polls i).queryTime e) e' =
      (e'.eventID == e.eventID &&
        decide ((polls i).queryTime e - e'.systemTime ≤ lookBack polls i e)) := by
    intro e'
    rw [WinQuery.selects, hlook]
    rfl
  have hcount : ∀ e' : WinEvent,
      ((newWinEventLog first e.eventID).1.selects ((polls i).queryTime e) e' &&
        decide (e'.recordID < e.recordID)) =
      (e'.eventID == e.eventID && decide (e'.recordID < e.recordID) &&
        decide ((polls i).queryTime e - e'.systemTime ≤ lookBack polls i e)) := by
    intro e'
    rw [hselects, Bool.and_right_comm]
  simp only [hcount]
  rw [hselects]
  constructor
  · rintro ⟨⟨hoccurred, hselected, hread⟩, hlater, hremote⟩
    exact ⟨hevtx, hoccurred, by simpa using hselected, hlater, hread, hremote⟩
  · intro h
    exact ⟨⟨h.occurred, by simpa using h.recent, h.read⟩, h.later, h.remote⟩

theorem mem_pollEvents_iff (hid : e.eventID = 4624 ∨ e.eventID = 4625)
    (haddress : e.address ∉ localAddress) :
    e ∈ pollEvents log polls i ↔ Covers log polls i e := by
  by_cases hevtx : (polls i).evtx = true
  swap
  · rw [pollEvents, if_neg hevtx]
    simp only [List.not_mem_nil, false_iff]
    exact fun h => hevtx h.evtx
  rw [pollEvents, if_pos hevtx, List.mem_append]
  have hids := hid
  rcases hid with hid | hid
  · -- the flag decides how far the query looks back
    have hlook : (newWinEventLog (firstBefore log polls i) e.eventID).1.ignoreOlder =
        lookBack polls i e := by
      simp only [newWinEventLog, lookBack, hid, true_and, firstBefore_iff]
    have htime : (polls i).queryTime e = (polls i).successTime := if_pos hid
    have hquery := mem_queryLogins_iff_covers log hevtx hids haddress hlook
    rw [hid, htime] at hquery
    rw [hquery]
    refine or_iff_left fun h => ?_
    rw [queryLogins_eventID h] at hid
    simp at hid
  · -- the flag is taken
    have hne : e.eventID ≠ 4624 := by
      rw [hid]
      decide
    have hlook : (newWinEventLog false e.eventID).1.ignoreOlder = lookBack polls i e := by
      simp [newWinEventLog, lookBack, hne]
    have htime : (polls i).queryTime e = (polls i).failedTime := if_neg hne
    have hquery := mem_queryLogins_iff_covers log hevtx hids haddress hlook
    rw [hid, htime] at hquery
    refine Iff.trans ?_ hquery
    refine or_iff_right fun h => ?_
    exact hne (queryLogins_eventID h)

/-- A login from a remote address is reported by some poll of a run if and only if some poll covers
it. -/
theorem login_reported_iff (log : SecurityLog) (polls : ℕ → WinPoll) (e : WinEvent)
    (hid : e.eventID = 4624 ∨ e.eventID = 4625) (haddress : e.address ∉ localAddress) :
    (∃ i, e ∈ pollEvents log polls i) ↔ ∃ i, Covers log polls i e :=
  exists_congr fun _ => mem_pollEvents_iff hid haddress

/-- A log with one event. -/
def oneEventLog (e : WinEvent) : SecurityLog where
  upTo t := if e.systemTime ≤ t then [e] else []
  numbered t := by
    split
    · exact List.pairwise_singleton _ _
    · exact List.Pairwise.nil
  grows t t' h := by
    by_cases ht : e.systemTime ≤ t
    · rw [if_pos ht, if_pos (le_trans ht h)]
      simp [ht]
    · rw [if_neg ht]
      split <;> simp [ht]

/-- A login of the administrator from another host. -/
def adminLogin (systemTime : ℕ) : WinEvent where
  recordID := 1
  eventID := 4624
  systemTime := systemTime
  pairs := List.replicate 5 (str "-") ++ [str "Administrator"] ++ List.replicate 12 (str "-") ++
    [str "10.0.0.9", str "50123"]

/-- A failed login of the administrator from another host, through no process of this one. -/
def failedLogin (systemTime : ℕ) : WinEvent where
  recordID := 1
  eventID := 4625
  systemTime := systemTime
  pairs := List.replicate 5 (str "-") ++ [str "Administrator"] ++ List.replicate 13 (str "-") ++
    [str "10.0.0.9", str "50123"]

/-- Polls with a cycle of five minutes. -/
def fiveMinutes (i : ℕ) : WinPoll :=
  ⟨true, none, 1519899000000 + i * 301000, 1519899001000 + i * 301000⟩

theorem fiveMinutes_spaced : Spaced 5 fiveMinutes := by
  refine ⟨fun i => ?_, fun i => ?_⟩
  · simp only [fiveMinutes]
    omega
  · simp only [fiveMinutes]
    omega

/-- A login ten seconds before the first poll. -/
theorem login_reported_first :
    ∃ i, adminLogin 1519898990000 ∈
      pollEvents (oneEventLog (adminLogin 1519898990000)) fiveMinutes i :=
  (login_reported_iff (oneEventLog (adminLogin 1519898990000)) fiveMinutes
    (adminLogin 1519898990000) (Or.inl rfl) (by decide)).mpr
    ⟨0, by decide, by decide, by decide, by decide, by decide, by decide⟩

/-- A login a hundred seconds after the first poll is seen by none, and neither is a failed login ten
seconds before the first poll, whose process has no name. -/
theorem login_missed :
    Spaced 5 fiveMinutes ∧
      ((adminLogin 1519899100000).address ∉ localAddress ∧
        ¬ ∃ i, adminLogin 1519899100000 ∈
          pollEvents (oneEventLog (adminLogin 1519899100000)) fiveMinutes i) ∧
      (failedLogin 1519898990000).address ∉ localAddress ∧
        ¬ ∃ i, failedLogin 1519898990000 ∈
          pollEvents (oneEventLog (failedLogin 1519898990000)) fiveMinutes i := by
  refine ⟨fiveMinutes_spaced, ⟨by decide, ?_⟩, by decide, ?_⟩
  · rintro ⟨i, hi⟩
    have hcovers := (mem_pollEvents_iff (Or.inl rfl) (by decide)).mp hi
    have htime : (fiveMinutes i).queryTime (adminLogin 1519899100000) =
        1519899000000 + i * 301000 := rfl
    cases i with
    | zero => exact absurd hcovers.occurred (by decide)
    | succ i =>
      have hlook : lookBack fiveMinutes (i + 1) (adminLogin 1519899100000) = 60 * 1000 := by
        refine if_neg fun h => ?_
        exact absurd (h.2 0 (Nat.succ_pos i)) (by decide)
      have hsystem : (adminLogin 1519899100000).systemTime = 1519899100000 := rfl
      have hrecent := hcovers.recent
      rw [htime, hlook, hsystem] at hrecent
      omega
  · rintro ⟨i, hi⟩
    have hcovers := (mem_pollEvents_iff (Or.inr rfl) (by decide)).mp hi
    exact hcovers.remote rfl (by decide)

end YulongHids.Agent
