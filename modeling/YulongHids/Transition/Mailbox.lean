import YulongHids.Transition.Run

/-!
# A mailbox of one slot and one event

Writers fill a slot and then signal an event, without waiting for anybody. A reader clears the event,
waits for it (which clears it as well) and reads the slot. The runs in which every message is received
exactly once are those in which each message is taken before the next one is written.
-/

namespace YulongHids.Transition

/-- What the reader does next. -/
inductive Reader where
  | reset
  | wait
  | read
deriving DecidableEq

/-- The slot, the event, the number of writers between their two steps, and what was received: `none`
if the slot was read before it was ever written. -/
structure Mailbox (α : Type*) where
  slot : Option α
  signalled : Bool
  owed : ℕ
  reader : Reader
  received : List (Option α)

inductive Move (α : Type*) where
  | write (a : α)
  | signal
  | reset
  | wait
  | read

/-- The messages that are written in a run. -/
def writes {α : Type*} (ms : List (Move α)) : List α :=
  ms.filterMap fun m =>
    match m with
    | .write a => some a
    | _ => none

namespace Mailbox

variable {α : Type*}

def empty : Mailbox α := ⟨none, false, 0, .reset, []⟩

def step (b : Mailbox α) : Move α → Option (Mailbox α)
  | .write a => some { b with slot := some a, owed := b.owed + 1 }
  | .signal => if b.owed = 0 then none else some { b with signalled := true, owed := b.owed - 1 }
  | .reset => if b.reader = .reset then some { b with signalled := false, reader := .wait } else none
  | .wait =>
    if b.reader = .wait ∧ b.signalled = true then some { b with signalled := false, reader := .read }
    else none
  | .read =>
    if b.reader = .read then some { b with received := b.received ++ [b.slot], reader := .reset }
    else none

/-- Nothing can happen any more unless a message is written. -/
structure Quiet (b : Mailbox α) : Prop where
  signalled : b.signalled = false
  owed : b.owed = 0
  reader : b.reader = .wait

/-- The message in the slot was not received yet. -/
def Unread (b : Mailbox α) : Prop := ∃ a, b.slot = some a ∧ some a ∉ b.received

/-- A write meets no message that was not received, a read meets one, and the event is not cleared
while it is the only one to announce a message. -/
def Taken (b : Mailbox α) : Move α → Prop
  | .write _ => ¬ b.Unread
  | .reset => b.Unread → b.signalled = true → b.owed ≠ 0
  | .read => b.Unread
  | _ => True

section Step

variable {b b' : Mailbox α} {m : Move α} {a : α}

theorem step_signal_iff :
    step b .signal = some b' ↔
      b.owed ≠ 0 ∧ b' = { b with signalled := true, owed := b.owed - 1 } := by
  rw [step, Option.ite_none_left_eq_some, Option.some_inj, eq_comm (a := b')]

theorem step_reset_iff :
    step b .reset = some b' ↔
      b.reader = .reset ∧ b' = { b with signalled := false, reader := .wait } :=
  guard_iff

theorem step_wait_iff :
    step b .wait = some b' ↔ (b.reader = .wait ∧ b.signalled = true) ∧
      b' = { b with signalled := false, reader := .read } :=
  guard_iff

theorem step_read_iff :
    step b .read = some b' ↔
      b.reader = .read ∧ b' = { b with received := b.received ++ [b.slot], reader := .reset } :=
  guard_iff

theorem step_write_iff :
    step b (.write a) = some b' ↔ b' = { b with slot := some a, owed := b.owed + 1 } := by
  rw [step, Option.some_inj, eq_comm]

end Step

/-! ## What every step keeps -/

section Contents

variable {b b' : Mailbox α} {m : Move α} {ms : List (Move α)} {a : α}

/-- Who announces something announces a message that was written. -/
def Filled (b : Mailbox α) : Prop :=
  b.signalled = true ∨ b.owed ≠ 0 ∨ b.reader = .read → b.slot ≠ none

theorem Filled.step (h : b.Filled) (hstep : b.step m = some b') : b'.Filled := by
  cases m with
  | write a =>
    obtain rfl := step_write_iff.mp hstep
    exact fun _ => Option.some_ne_none a
  | signal =>
    obtain ⟨howed, rfl⟩ := step_signal_iff.mp hstep
    exact fun _ => h (Or.inr (Or.inl howed))
  | reset =>
    obtain ⟨hreader, rfl⟩ := step_reset_iff.mp hstep
    rintro (hs | howed | hr)
    · cases hs
    · exact h (Or.inr (Or.inl howed))
    · cases hr
  | wait =>
    obtain ⟨⟨-, hsignalled⟩, rfl⟩ := step_wait_iff.mp hstep
    exact fun _ => h (Or.inl hsignalled)
  | read =>
    obtain ⟨hreader, rfl⟩ := step_read_iff.mp hstep
    exact fun _ => h (Or.inr (Or.inr hreader))

theorem filled_empty : (empty : Mailbox α).Filled := by
  rintro (h | h | h)
  · cases h
  · exact absurd rfl h
  · cases h

/-- A message that was not received is announced, or about to be. -/
def Announced (b : Mailbox α) : Prop :=
  b.Unread → b.signalled = true ∨ b.owed ≠ 0 ∨ b.reader = .read

theorem Announced.step (h : b.Announced) (ht : b.Taken m) (hstep : b.step m = some b') :
    b'.Announced := by
  cases m with
  | write x =>
    obtain rfl := step_write_iff.mp hstep
    exact fun _ => Or.inr (Or.inl (Nat.succ_ne_zero b.owed))
  | signal =>
    obtain ⟨-, rfl⟩ := step_signal_iff.mp hstep
    exact fun _ => Or.inl rfl
  | reset =>
    obtain ⟨hreader, rfl⟩ := step_reset_iff.mp hstep
    intro hunread
    right; left
    rcases h hunread with hs | howed | hr
    · exact ht hunread hs
    · exact howed
    · rw [hreader] at hr
      cases hr
  | wait =>
    obtain ⟨-, rfl⟩ := step_wait_iff.mp hstep
    exact fun _ => Or.inr (Or.inr rfl)
  | read =>
    obtain ⟨-, rfl⟩ := step_read_iff.mp hstep
    rintro ⟨x, hslot, hx⟩
    exact absurd (List.mem_append_right _ (List.mem_singleton.mpr hslot.symm)) hx

theorem slot_step (hstep : b.step m = some b') (ha : b'.slot = some a) :
    b.slot = some a ∨ a ∈ writes [m] := by
  cases m with
  | write x =>
    obtain rfl := step_write_iff.mp hstep
    obtain rfl : x = a := Option.some.inj ha
    exact Or.inr (by simp [writes])
  | signal =>
    obtain ⟨-, rfl⟩ := step_signal_iff.mp hstep
    exact Or.inl ha
  | reset =>
    obtain ⟨-, rfl⟩ := step_reset_iff.mp hstep
    exact Or.inl ha
  | wait =>
    obtain ⟨-, rfl⟩ := step_wait_iff.mp hstep
    exact Or.inl ha
  | read =>
    obtain ⟨-, rfl⟩ := step_read_iff.mp hstep
    exact Or.inl ha

theorem received_step (hstep : b.step m = some b') (ha : some a ∈ b'.received) :
    some a ∈ b.received ∨ b.slot = some a := by
  cases m with
  | write x =>
    obtain rfl := step_write_iff.mp hstep
    exact Or.inl ha
  | signal =>
    obtain ⟨-, rfl⟩ := step_signal_iff.mp hstep
    exact Or.inl ha
  | reset =>
    obtain ⟨-, rfl⟩ := step_reset_iff.mp hstep
    exact Or.inl ha
  | wait =>
    obtain ⟨-, rfl⟩ := step_wait_iff.mp hstep
    exact Or.inl ha
  | read =>
    obtain ⟨-, rfl⟩ := step_read_iff.mp hstep
    rcases List.mem_append.mp ha with ha | ha
    · exact Or.inl ha
    · exact Or.inr (List.mem_singleton.mp ha).symm

theorem writes_append (ms ms' : List (Move α)) : writes (ms ++ ms') = writes ms ++ writes ms' :=
  List.filterMap_append

/-- A message that is in the slot or was received was there at the start or was written. -/
def Has (b : Mailbox α) (a : α) : Prop := b.slot = some a ∨ some a ∈ b.received

theorem has_run (hrun : run step b ms = some b') (ha : b'.Has a) : b.Has a ∨ a ∈ writes ms := by
  induction ms generalizing b with
  | nil =>
    obtain rfl : b = b' := Option.some.inj hrun
    exact Or.inl ha
  | cons m ms ih =>
    obtain ⟨b1, h1, h2⟩ := run_cons_iff.mp hrun
    have hsplit : writes (m :: ms) = writes [m] ++ writes ms := writes_append [m] ms
    rw [hsplit, List.mem_append]
    rcases ih h2 with (hslot | hreceived) | hwrite
    · rcases slot_step h1 hslot with hslot | hm
      · exact Or.inl (Or.inl hslot)
      · exact Or.inr (Or.inl hm)
    · rcases received_step h1 hreceived with hreceived | hslot
      · exact Or.inl (Or.inr hreceived)
      · exact Or.inl (Or.inl hslot)
    · exact Or.inr (Or.inr hwrite)

theorem written_of_has (hrun : run step empty ms = some b) (ha : b.Has a) : a ∈ writes ms := by
  rcases has_run hrun ha with (hslot | hreceived) | hwrite
  · cases hslot
  · cases hreceived
  · exact hwrite

end Contents

section Count

variable [DecidableEq α] {b b' : Mailbox α} {m : Move α} {ms : List (Move α)} {a : α}

/-- How often a message was received. -/
def receipts (b : Mailbox α) (a : α) : ℕ := b.received.count (some a)

theorem receipts_eq_zero_iff : b.receipts a = 0 ↔ some a ∉ b.received := List.count_eq_zero

theorem receipts_read (b : Mailbox α) (r : Reader) :
    ({ b with received := b.received ++ [b.slot], reader := r } : Mailbox α).receipts a =
      b.receipts a + if b.slot = some a then 1 else 0 := by
  rw [receipts, receipts, List.count_append, List.count_singleton]
  by_cases h : b.slot = some a
  · rw [if_pos h, if_pos (by rw [h]; exact beq_self_eq_true _)]
  · rw [if_neg h, if_neg (by rw [beq_iff_eq]; exact h)]

/-! ## Runs in which every message is taken -/

/-- A message was received once, or waits in the slot to be received. -/
def Handed (b : Mailbox α) (a : α) : Prop :=
  b.receipts a = 1 ∨ b.slot = some a ∧ b.receipts a = 0

theorem Handed.step (h : b.Handed a) (ht : b.Taken m) (hstep : b.step m = some b') :
    b'.Handed a := by
  cases m with
  | write x =>
    obtain rfl := step_write_iff.mp hstep
    rcases h with h | ⟨hslot, h⟩
    · exact Or.inl h
    · exact absurd ⟨a, hslot, receipts_eq_zero_iff.mp h⟩ ht
  | signal =>
    obtain ⟨-, rfl⟩ := step_signal_iff.mp hstep
    exact h
  | reset =>
    obtain ⟨-, rfl⟩ := step_reset_iff.mp hstep
    exact h
  | wait =>
    obtain ⟨-, rfl⟩ := step_wait_iff.mp hstep
    exact h
  | read =>
    obtain ⟨-, rfl⟩ := step_read_iff.mp hstep
    obtain ⟨x, hslot, hx⟩ := ht
    left
    rw [receipts_read]
    rcases h with h | ⟨ha, h⟩
    · have hne : ¬ b.slot = some a := by
        intro ha
        rw [← hslot, ha, ← receipts_eq_zero_iff, h] at hx
        exact absurd hx one_ne_zero
      rw [if_neg hne, h]
    · rw [if_pos ha, h]

/-- What is written along such a run is handed over, if no message is written twice. -/
theorem handed_run (ht : Along step Taken b ms) (hrun : run step b ms = some b')
    (hnodup : (writes ms).Nodup) (hfresh : ∀ a ∈ writes ms, b.receipts a = 0 ∧ b.slot ≠ some a)
    (ha : b.Handed a ∨ a ∈ writes ms) : b'.Handed a := by
  induction ms generalizing b with
  | nil =>
    obtain rfl : b = b' := Option.some.inj hrun
    rcases ha with ha | ha
    · exact ha
    · cases ha
  | cons m ms ih =>
    obtain ⟨b1, h1, h2⟩ := run_cons_iff.mp hrun
    have hsplit : writes (m :: ms) = writes [m] ++ writes ms := writes_append [m] ms
    rw [hsplit, List.nodup_append] at hnodup
    rw [hsplit] at ha hfresh
    refine ih (ht.2 b1 h1) h2 hnodup.2.1 (fun x hx => ?_) ?_
    · obtain ⟨hzero, hslot⟩ := hfresh x (List.mem_append_right _ hx)
      have hx1 : ¬ x ∈ writes [m] := fun hm => hnodup.2.2 x hm x hx rfl
      refine ⟨receipts_eq_zero_iff.mpr fun hreceived => ?_, fun hslot1 => ?_⟩
      · rcases received_step h1 hreceived with h | h
        · exact receipts_eq_zero_iff.mp hzero h
        · exact hslot h
      · rcases slot_step h1 hslot1 with h | h
        · exact hslot h
        · exact hx1 h
    · rcases ha with ha | ha
      · exact Or.inl (ha.step ht.1 h1)
      rcases List.mem_append.mp ha with ha | ha
      · left
        cases m with
        | write x =>
          obtain rfl : a = x := by simpa [writes] using ha
          obtain rfl := step_write_iff.mp h1
          exact Or.inr ⟨rfl, (hfresh a (List.mem_append_left _ ha)).1⟩
        | _ => cases ha
      · exact Or.inr ha

/-! ## Runs in which a message is not taken -/

/-- A message that will never have been received exactly once: it was overwritten, received twice, or
is in the slot and nobody announces it any more. -/
inductive Spoilt (b : Mailbox α) (a : α) : Prop where
  | lost (h : b.receipts a = 0) (hslot : b.slot ≠ some a)
  | doubled (h : 2 ≤ b.receipts a)
  | stuck (h : b.receipts a = 0) (hquiet : b.Quiet)

theorem Spoilt.step (h : b.Spoilt a) (ha : a ∉ writes [m]) (hstep : b.step m = some b') :
    b'.Spoilt a := by
  cases m with
  | write x =>
    obtain rfl := step_write_iff.mp hstep
    have hne : (some x : Option α) ≠ some a := by
      rintro hx
      obtain rfl := Option.some.inj hx
      exact ha (by simp [writes])
    cases h with
    | lost h _ => exact .lost h hne
    | doubled h => exact .doubled h
    | stuck h _ => exact .lost h hne
  | signal =>
    obtain ⟨howed, rfl⟩ := step_signal_iff.mp hstep
    cases h with
    | lost h hslot => exact .lost h hslot
    | doubled h => exact .doubled h
    | stuck _ hquiet => exact absurd hquiet.owed howed
  | reset =>
    obtain ⟨hreader, rfl⟩ := step_reset_iff.mp hstep
    cases h with
    | lost h hslot => exact .lost h hslot
    | doubled h => exact .doubled h
    | stuck _ hquiet =>
      rw [hquiet.reader] at hreader
      cases hreader
  | wait =>
    obtain ⟨⟨-, hsignalled⟩, rfl⟩ := step_wait_iff.mp hstep
    cases h with
    | lost h hslot => exact .lost h hslot
    | doubled h => exact .doubled h
    | stuck _ hquiet =>
      rw [hquiet.signalled] at hsignalled
      cases hsignalled
  | read =>
    obtain ⟨hreader, rfl⟩ := step_read_iff.mp hstep
    cases h with
    | lost h hslot => exact .lost (by rw [receipts_read, if_neg hslot, h]) hslot
    | doubled h => exact .doubled (by rw [receipts_read]; omega)
    | stuck _ hquiet =>
      rw [hquiet.reader] at hreader
      cases hreader

theorem Spoilt.after (h : b.Spoilt a) (ha : a ∉ writes ms)
    (hrun : run Mailbox.step b ms = some b') : b'.Spoilt a := by
  induction ms generalizing b with
  | nil =>
    obtain rfl : b = b' := Option.some.inj hrun
    exact h
  | cons m ms ih =>
    obtain ⟨b1, h1, h2⟩ := run_cons_iff.mp hrun
    have hsplit : writes (m :: ms) = writes [m] ++ writes ms := writes_append [m] ms
    rw [hsplit, List.mem_append, not_or] at ha
    exact ih (h.step ha.1 h1) ha.2 h2

/-- A step that does not take a message spoils one. -/
theorem exists_spoilt (hfilled : b.Filled) (ht : ¬ b.Taken m) (hstep : b.step m = some b')
    (hwrite : ∀ a ∈ writes [m], ¬ b.Has a) :
    ∃ a, b.Has a ∧ b'.Spoilt a := by
  cases m with
  | write x =>
    obtain rfl := step_write_iff.mp hstep
    obtain ⟨a, hslot, ha⟩ := not_not.mp ht
    refine ⟨a, Or.inl hslot, .lost (receipts_eq_zero_iff.mpr ha) fun hx => ?_⟩
    obtain rfl := Option.some.inj hx
    exact hwrite x (by simp [writes]) (Or.inl hslot)
  | signal => exact absurd trivial ht
  | reset =>
    obtain ⟨-, rfl⟩ := step_reset_iff.mp hstep
    simp only [Taken, Classical.not_imp, not_not] at ht
    obtain ⟨⟨a, hslot, ha⟩, -, howed⟩ := ht
    exact ⟨a, Or.inl hslot, .stuck (receipts_eq_zero_iff.mpr ha) ⟨rfl, howed, rfl⟩⟩
  | wait => exact absurd trivial ht
  | read =>
    obtain ⟨hreader, rfl⟩ := step_read_iff.mp hstep
    obtain ⟨a, hslot⟩ := Option.ne_none_iff_exists'.mp (hfilled (Or.inr (Or.inr hreader)))
    have ha : some a ∈ b.received := by
      by_contra hnot
      exact ht ⟨a, hslot, hnot⟩
    have hpos : b.receipts a ≠ 0 := fun hzero => receipts_eq_zero_iff.mp hzero ha
    refine ⟨a, Or.inl hslot, .doubled ?_⟩
    rw [receipts_read, if_pos hslot]
    omega

theorem Spoilt.receipts_ne_one (h : b.Spoilt a) : b.receipts a ≠ 1 := by
  cases h with
  | lost h _ => omega
  | doubled h => omega
  | stuck h _ => omega

/-- If no message is written twice and the reader has nothing left to do, then every message has been
received exactly once exactly if each one was taken. -/
theorem receipts_eq_one_iff (hnodup : (writes ms).Nodup) (hrun : run step empty ms = some b)
    (hquiet : b.Quiet) :
    (∀ a ∈ writes ms, b.receipts a = 1) ↔ Along step Taken empty ms := by
  constructor
  · intro hall
    by_contra hnot
    obtain ⟨ms1, m, ms2, b1, b2, rfl, h1, -, hm, hstep, h2⟩ := exists_first_of_not_along hrun hnot
    have hfilled : b1.Filled := run_invariant (fun _ _ _ h hs => h.step hs) filled_empty h1
    have hsplit : writes (ms1 ++ m :: ms2) = writes ms1 ++ (writes [m] ++ writes ms2) := by
      rw [writes_append, ← writes_append [m] ms2, List.singleton_append]
    rw [hsplit, List.nodup_append] at hnodup
    obtain ⟨a, hhas, hspoilt⟩ := exists_spoilt hfilled hm hstep fun a ha hhas =>
      hnodup.2.2 a (written_of_has h1 hhas) a (List.mem_append_left _ ha) rfl
    have hwritten : a ∈ writes ms1 := written_of_has h1 hhas
    have hlater : a ∉ writes ms2 := fun ha =>
      hnodup.2.2 a hwritten a (List.mem_append_right _ ha) rfl
    rw [hsplit] at hall
    exact (hspoilt.after hlater h2).receipts_ne_one (hall a (List.mem_append_left _ hwritten))
  · intro ht a ha
    have hannounced : b.Announced :=
      Along.invariant (fun _ _ _ h htaken hs => h.step htaken hs) (by rintro ⟨x, hx, -⟩; cases hx)
        ht hrun
    rcases handed_run ht hrun hnodup (fun _ _ => ⟨rfl, nofun⟩) (Or.inr ha) with h | ⟨hslot, h⟩
    · exact h
    · rcases hannounced ⟨a, hslot, receipts_eq_zero_iff.mp h⟩ with hs | howed | hr
      · rw [hquiet.signalled] at hs
        cases hs
      · exact absurd hquiet.owed howed
      · rw [hquiet.reader] at hr
        cases hr

end Count

end Mailbox

end YulongHids.Transition
