import YulongHids.Driver.Pro

/-!
# Proofs: the driver and the agent's reader

A run of the driver and the agent is a run of the mailbox whose messages are the reports, numbered by
their callbacks.
-/

namespace YulongHids.Driver

open Golang Transition

variable {s s' : State} {e : Event} {es : List Event}

/-! ## The steps as moves of the mailbox -/

/-- What the agent asked for before its loop. -/
structure Attached (s : State) : Prop where
  event : s.gpEventObject.isSome = true
  terminations : s.showTerminateProcess = false

theorem attached_attached : Attached attached := ⟨rfl, rfl⟩

def Event.callbacks : Event → List ProcessCallback
  | .processCreateMon c => [c]
  | _ => []

/-- The messages of callbacks that are numbered from `n` on. -/
def messages (n : ℕ) (cs : List ProcessCallback) : List Message :=
  (cs.zipIdx n).filterMap fun ci => (ci.1.report false).map fun text => ⟨ci.2, text⟩

def Event.moves (n : ℕ) : Event → List (Move Message)
  | .processCreateMon c => (messages n [c]).map .write
  | .keSetEvent => [.signal]
  | .resetEvent => [.reset]
  | .waitForSingleObject => [.wait]
  | .passBuf => [.read]

/-- The moves of a run, if `n` callbacks were called before. -/
def moves : ℕ → List Event → List (Move Message)
  | _, [] => []
  | n, e :: es => e.moves n ++ moves (n + e.callbacks.length) es

theorem messages_of_none {n : ℕ} {c : ProcessCallback} (h : c.report false = none) :
    messages n [c] = [] := by
  simp [messages, h]

theorem messages_of_some {n : ℕ} {c : ProcessCallback} {text : GoString}
    (h : c.report false = some text) : messages n [c] = [⟨n, text⟩] := by
  simp [messages, h]

theorem step_keSetEvent_iff :
    step s .keSetEvent = some s' ↔ s.filled ≠ 0 ∧
      s' = { s with gpEventObject := s.gpEventObject.map fun _ => true, filled := s.filled - 1 } := by
  rw [step, Option.ite_none_left_eq_some, Option.some_inj, eq_comm (a := s')]

theorem step_resetEvent_iff :
    step s .resetEvent = some s' ↔ s.loop = .reset ∧
      s' = { s with gpEventObject := s.gpEventObject.map fun _ => false, loop := .wait } :=
  guard_iff

theorem step_waitForSingleObject_iff :
    step s .waitForSingleObject = some s' ↔ (s.loop = .wait ∧ s.gpEventObject = some true) ∧
      s' = { s with gpEventObject := some false, loop := .read } :=
  guard_iff

theorem step_passBuf_iff :
    step s .passBuf = some s' ↔
      s.loop = .read ∧ s' = { s with sent := s.sent ++ [s.outBuf], loop := .reset } :=
  guard_iff

theorem fill_of_none {c : ProcessCallback} (h : c.report s.showTerminateProcess = none) :
    s.fill c = { s with callbacks := s.callbacks ++ [c] } := by
  rw [State.fill, h]

theorem fill_of_some {c : ProcessCallback} {text : GoString}
    (h : c.report s.showTerminateProcess = some text) :
    s.fill c =
      { s with
        outBuf := some ⟨s.callbacks.length, text⟩
        filled := s.filled + 1
        callbacks := s.callbacks ++ [c] } := by
  rw [State.fill, h]

theorem callbacks_step (hstep : step s e = some s') :
    s'.callbacks = s.callbacks ++ e.callbacks := by
  cases e with
  | processCreateMon c =>
    obtain rfl := Option.some.inj hstep
    rw [State.fill]
    split <;> rfl
  | keSetEvent =>
    obtain ⟨-, rfl⟩ := step_keSetEvent_iff.mp hstep
    exact (List.append_nil _).symm
  | resetEvent =>
    obtain ⟨-, rfl⟩ := step_resetEvent_iff.mp hstep
    exact (List.append_nil _).symm
  | waitForSingleObject =>
    obtain ⟨-, rfl⟩ := step_waitForSingleObject_iff.mp hstep
    exact (List.append_nil _).symm
  | passBuf =>
    obtain ⟨-, rfl⟩ := step_passBuf_iff.mp hstep
    exact (List.append_nil _).symm

theorem Attached.step (h : Attached s) (hstep : step s e = some s') : Attached s' := by
  cases e with
  | processCreateMon c =>
    obtain rfl := Option.some.inj hstep
    rw [State.fill]
    split
    · exact ⟨h.event, h.terminations⟩
    · exact ⟨h.event, h.terminations⟩
  | keSetEvent =>
    obtain ⟨-, rfl⟩ := step_keSetEvent_iff.mp hstep
    exact ⟨Option.isSome_map.trans h.event, h.terminations⟩
  | resetEvent =>
    obtain ⟨-, rfl⟩ := step_resetEvent_iff.mp hstep
    exact ⟨Option.isSome_map.trans h.event, h.terminations⟩
  | waitForSingleObject =>
    obtain ⟨-, rfl⟩ := step_waitForSingleObject_iff.mp hstep
    exact ⟨rfl, h.terminations⟩
  | passBuf =>
    obtain ⟨-, rfl⟩ := step_passBuf_iff.mp hstep
    exact ⟨h.event, h.terminations⟩

/-- A step makes its moves. -/
theorem run_moves (h : Attached s) (hstep : step s e = some s') :
    run Mailbox.step s.box (e.moves s.callbacks.length) = some s'.box := by
  obtain ⟨b, hb⟩ := Option.isSome_iff_exists.mp h.event
  cases e with
  | processCreateMon c =>
    obtain rfl := Option.some.inj hstep
    rw [Event.moves]
    cases hreport : c.report false with
    | none =>
      rw [messages_of_none hreport, fill_of_none (h.terminations ▸ hreport)]
      rfl
    | some text =>
      rw [messages_of_some hreport, fill_of_some (h.terminations ▸ hreport)]
      rfl
  | keSetEvent =>
    obtain ⟨hfilled, rfl⟩ := step_keSetEvent_iff.mp hstep
    refine run_cons_iff.mpr ⟨_, Mailbox.step_signal_iff.mpr ⟨hfilled, rfl⟩, ?_⟩
    rw [hb]
    rfl
  | resetEvent =>
    obtain ⟨hloop, rfl⟩ := step_resetEvent_iff.mp hstep
    refine run_cons_iff.mpr ⟨_, Mailbox.step_reset_iff.mpr ⟨hloop, rfl⟩, ?_⟩
    rw [hb]
    rfl
  | waitForSingleObject =>
    obtain ⟨⟨hloop, hevent⟩, rfl⟩ := step_waitForSingleObject_iff.mp hstep
    have hsignalled : s.box.signalled = true := by rw [State.box, hevent]; rfl
    exact run_cons_iff.mpr ⟨_, Mailbox.step_wait_iff.mpr ⟨⟨hloop, hsignalled⟩, rfl⟩, rfl⟩
  | passBuf =>
    obtain ⟨hloop, rfl⟩ := step_passBuf_iff.mp hstep
    exact run_cons_iff.mpr ⟨_, Mailbox.step_read_iff.mpr ⟨hloop, rfl⟩, rfl⟩

/-- The driver and the agent run as a mailbox does. -/
theorem run_box (h : Attached s) (hrun : run step s es = some s') :
    run Mailbox.step s.box (moves s.callbacks.length es) = some s'.box := by
  induction es generalizing s with
  | nil =>
    obtain rfl : s = s' := Option.some.inj hrun
    rfl
  | cons e es ih =>
    obtain ⟨s1, h1, h2⟩ := run_cons_iff.mp hrun
    have hrest := ih (h.step h1) h2
    rw [callbacks_step h1, List.length_append] at hrest
    exact run_append_iff.mpr ⟨s1.box, run_moves h h1, hrest⟩

/-! ## The messages of a run -/

theorem writes_write (ms : List Message) : writes (ms.map .write) = ms := by
  rw [writes, List.filterMap_map]
  exact List.filterMap_some

theorem writes_moves (n : ℕ) (es : List Event) :
    writes (moves n es) = messages n (es.flatMap Event.callbacks) := by
  induction es generalizing n with
  | nil => rfl
  | cons e es ih =>
    have hmoves : writes (e.moves n) = messages n e.callbacks := by
      cases e with
      | processCreateMon c => exact writes_write _
      | _ => rfl
    rw [moves, Mailbox.writes_append, hmoves, ih, List.flatMap_cons, messages, messages, messages,
      List.zipIdx_append, List.filterMap_append]

theorem mem_messages_iff {n i : ℕ} {cs : List ProcessCallback} {text : GoString} :
    ⟨n + i, text⟩ ∈ messages n cs ↔ ∃ c, cs[i]? = some c ∧ c.report false = some text := by
  simp only [messages, List.mem_filterMap, Prod.exists, List.mk_mem_zipIdx_iff_le_and_getElem?_sub,
    Option.map_eq_some_iff, Message.mk.injEq]
  constructor
  · rintro ⟨c, j, ⟨hle, hc⟩, t, ht, rfl, rfl⟩
    rw [Nat.add_sub_cancel_left] at hc
    exact ⟨c, hc, ht⟩
  · rintro ⟨c, hc, ht⟩
    exact ⟨c, n + i, ⟨Nat.le_add_right n i, by rwa [Nat.add_sub_cancel_left]⟩, text, ht, rfl, rfl⟩

theorem nodup_messages (n : ℕ) (cs : List ProcessCallback) : (messages n cs).Nodup := by
  have hnumbers : ((cs.zipIdx n).map Prod.snd).Nodup := by
    rw [List.zipIdx_map_snd]
    exact List.nodup_range'
  refine List.Pairwise.filterMap _ (fun x y hxy m hm m' hm' heq => ?_) (List.pairwise_map.mp hnumbers)
  obtain ⟨t, -, rfl⟩ := Option.map_eq_some_iff.mp hm
  obtain ⟨t', -, rfl⟩ := Option.map_eq_some_iff.mp hm'
  exact hxy (congrArg Message.number heq)

theorem callbacks_run (hrun : run step s es = some s') :
    s'.callbacks = s.callbacks ++ es.flatMap Event.callbacks := by
  induction es generalizing s with
  | nil =>
    obtain rfl : s = s' := Option.some.inj hrun
    exact (List.append_nil _).symm
  | cons e es ih =>
    obtain ⟨s1, h1, h2⟩ := run_cons_iff.mp hrun
    rw [ih h2, callbacks_step h1, List.append_assoc, List.flatMap_cons]

/-! ## Reports that are taken -/

/-- Every created process of a run was found, and so was its parent. -/
def Found (es : List Event) : Prop :=
  ∀ c ∈ es.flatMap Event.callbacks, c.bCreate = true →
    c.name.isSome = true ∧ c.parentName.isSome = true

theorem report_isSome_iff {c : ProcessCallback} :
    (c.report false).isSome = true ↔
      c.bCreate = true ∧ c.name.isSome = true ∧ c.parentName.isSome = true := by
  unfold ProcessCallback.report
  cases c.name with
  | none => simp
  | some name =>
    cases c.parentName with
    | none => simp
    | some parentName => cases c.bCreate <;> simp

theorem found_of_report {c : ProcessCallback} {text : GoString} (h : c.report false = some text) :
    c.bCreate = true ∧ c.name.isSome = true ∧ c.parentName.isSome = true :=
  report_isSome_iff.mp (Option.isSome_of_eq_some h)

theorem taken_iff :
    s.Taken e ↔ Found [e] ∧ Along Mailbox.step Mailbox.Taken s.box (e.moves s.callbacks.length) := by
  have hone : ∀ m, Along Mailbox.step Mailbox.Taken s.box [m] ↔ s.box.Taken m := fun m =>
    ⟨fun h => h.1, fun h => ⟨h, fun _ _ => trivial⟩⟩
  have hother : e.callbacks = [] → Found [e] := by
    intro hnil c hc
    rw [List.flatMap_singleton, hnil] at hc
    cases hc
  cases e with
  | processCreateMon c =>
    have hfound : Found [.processCreateMon c] ↔
        (c.bCreate = true → c.name.isSome = true ∧ c.parentName.isSome = true) := by
      simp [Found, Event.callbacks]
    rw [hfound, Event.moves]
    cases hreport : c.report false with
    | none =>
      have hnot : ¬ (c.bCreate = true ∧ c.name.isSome = true ∧ c.parentName.isSome = true) := by
        rw [← report_isSome_iff, hreport]
        exact Bool.false_ne_true
      rw [messages_of_none hreport]
      constructor
      · intro ht
        exact ⟨fun hcreate => ⟨(ht hcreate).1, (ht hcreate).2.1⟩, trivial⟩
      · rintro ⟨hf, -⟩ hcreate
        exact absurd ⟨hcreate, hf hcreate⟩ hnot
    | some text =>
      obtain ⟨hcreate, hf⟩ := found_of_report hreport
      rw [messages_of_some hreport, List.map_singleton, hone]
      exact ⟨fun ht => ⟨fun _ => hf, (ht hcreate).2.2⟩, fun ht _ => ⟨hf.1, hf.2, ht.2⟩⟩
  | keSetEvent => exact ⟨fun _ => ⟨hother rfl, (hone _).mpr trivial⟩, fun _ => trivial⟩
  | resetEvent =>
    rw [Event.moves, hone, and_iff_right (hother rfl), State.Taken, Mailbox.Taken, State.box,
      beq_iff_eq]
    rfl
  | waitForSingleObject => exact ⟨fun _ => ⟨hother rfl, (hone _).mpr trivial⟩, fun _ => trivial⟩
  | passBuf =>
    rw [Event.moves, hone, and_iff_right (hother rfl)]
    rfl

theorem along_taken_iff (h : Attached s) (hrun : run step s es = some s') :
    Along step State.Taken s es ↔
      Found es ∧ Along Mailbox.step Mailbox.Taken s.box (moves s.callbacks.length es) := by
  induction es generalizing s with
  | nil => exact ⟨fun _ => ⟨nofun, trivial⟩, fun _ => trivial⟩
  | cons e es ih =>
    obtain ⟨s1, h1, h2⟩ := run_cons_iff.mp hrun
    have hfound : Found (e :: es) ↔ Found [e] ∧ Found es := by
      rw [Found, List.flatMap_cons, List.forall_mem_append, Found, List.flatMap_singleton, Found]
    have hlen : s1.callbacks.length = s.callbacks.length + e.callbacks.length := by
      rw [callbacks_step h1, List.length_append]
    rw [along_cons_iff h1, taken_iff, ih (h.step h1) h2, hfound, moves,
      along_append_iff (run_moves h h1), hlen]
    tauto

/-! ## Processes that are delivered once -/

theorem deliveredOnce_messages_iff (h : Attached s) :
    s.DeliveredOnce ↔
      (∀ c ∈ s.callbacks, c.bCreate = true → c.name.isSome = true ∧ c.parentName.isSome = true) ∧
      ∀ m ∈ messages 0 s.callbacks, s.box.receipts m = 1 := by
  rw [State.DeliveredOnce, h.terminations]
  constructor
  · intro hall
    constructor
    · intro c hc hcreate
      obtain ⟨i, hi⟩ := List.mem_iff_getElem?.mp hc
      obtain ⟨text, htext, -⟩ := hall i c hi hcreate
      exact (found_of_report htext).2
    · rintro ⟨i, text⟩ hm
      rw [← Nat.zero_add i, mem_messages_iff] at hm
      obtain ⟨c, hc, htext⟩ := hm
      obtain ⟨hcreate, -⟩ := found_of_report htext
      obtain ⟨text', htext', hcount⟩ := hall i c hc hcreate
      obtain rfl : text = text' := Option.some.inj (htext.symm.trans htext')
      exact hcount
  · rintro ⟨hfound, hreceipts⟩ i c hc hcreate
    obtain ⟨text, htext⟩ := Option.isSome_iff_exists.mp
      (report_isSome_iff.mpr ⟨hcreate, hfound c (List.mem_of_getElem? hc) hcreate⟩)
    refine ⟨text, htext, hreceipts ⟨i, text⟩ ?_⟩
    rw [← Nat.zero_add i]
    exact mem_messages_iff.mpr ⟨c, hc, htext⟩

/-- Once the loop has caught up, every created process has been delivered exactly once exactly if every
report was taken. -/
theorem deliveredOnce_iff (es : List Event) (s : State) (hrun : run step attached es = some s)
    (hcaught : s.CaughtUp) : s.DeliveredOnce ↔ Along step State.Taken attached es := by
  have hcallbacks : s.callbacks = es.flatMap Event.callbacks := callbacks_run hrun
  have hs : Attached s := run_invariant (fun _ _ _ h hstep => h.step hstep) attached_attached hrun
  have hbox : run Mailbox.step Mailbox.empty (moves 0 es) = some s.box :=
    run_box attached_attached hrun
  have hwrites : writes (moves 0 es) = messages 0 s.callbacks := by
    rw [writes_moves, hcallbacks]
  rw [along_taken_iff attached_attached hrun, deliveredOnce_messages_iff hs, hcallbacks, Found,
    ← hcallbacks, ← hwrites,
    Mailbox.receipts_eq_one_iff (hwrites ▸ nodup_messages 0 s.callbacks) hbox hcaught]
  rfl

def cmdStarted : ProcessCallback where
  hParentId := 1204
  pId := 3388
  bCreate := true
  name := some (str "cmd.exe")
  parentName := some (str "explorer.exe")

/-- A process is created while the loop waits. -/
def takenRun : List Event :=
  [.resetEvent, .processCreateMon cmdStarted, .keSetEvent, .waitForSingleObject, .passBuf, .resetEvent]

theorem taken_takenRun : Along step State.Taken attached takenRun := by
  have hempty : ¬ attached.Unread := by
    rintro ⟨m, hm, -⟩
    cases hm
  refine Along.cons rfl (fun h => absurd h hempty) (Along.cons rfl (fun _ => ⟨rfl, rfl, hempty⟩) ?_)
  refine Along.cons rfl trivial (Along.cons rfl trivial (Along.cons rfl ?_ (Along.cons rfl ?_ trivial)))
  · exact ⟨_, rfl, List.not_mem_nil⟩
  · intro _ hsignalled
    cases hsignalled

theorem takenRun_delivered : ∃ s, run step attached takenRun = some s ∧ s.DeliveredOnce :=
  ⟨_, rfl, (deliveredOnce_iff takenRun _ rfl ⟨rfl, rfl, rfl⟩).mpr taken_takenRun⟩

/-- A process is created between two turns of the loop; `ResetEvent` clears its signal. -/
theorem cmdStarted_lost :
    ¬ ∀ es s, run step attached es = some s → s.CaughtUp → s.DeliveredOnce := by
  intro hall
  have h := hall [.processCreateMon cmdStarted, .keSetEvent, .resetEvent] _ rfl ⟨rfl, rfl, rfl⟩
  obtain ⟨text, -, hcount⟩ := h 0 cmdStarted rfl rfl
  exact absurd hcount zero_ne_one

end YulongHids.Driver
