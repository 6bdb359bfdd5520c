import YulongHids.Daemon.Supervision

/-!
# Proofs: the supervision of the agent

What the status and the command are at each place of the loop. It is kept as long as no agent is reaped
that exited with 0: the loop then leaves the status as it is.
-/

namespace YulongHids.Daemon

open Transition

variable {s s' : Supervision} {e : SupervisionEvent}

theorem live_kill (cmd : Cmd) : cmd.kill.live = cmd.live := by
  cases cmd <;> rfl

theorem kill_eq_null_iff {cmd : Cmd} : cmd.kill = .null ↔ cmd = .null := by
  cases cmd <;> simp [Cmd.kill]

theorem hasProcess_eq_false_iff {cmd : Cmd} :
    cmd.hasProcess = false ↔ cmd = .null ∨ cmd = .made ∨ cmd = .failed := by
  cases cmd <;> simp [Cmd.hasProcess]

/-- What the loop knows at its places. -/
def AtLoop (s : Supervision) : Prop :=
  match s.loop with
  | .sleep | .locked => s.agentStatus = false ∧ s.cmd.live = false
  | .command => s.agentStatus = false ∧ s.cmd = .made
  | .failed => s.agentStatus = false ∧ s.cmd = .failed
  | .started | .unlocked => s.agentStatus = false ∧ s.cmd.live = true
  | .waiting => s.agentStatus = true ∧ s.cmd.live = true
  | .waitError => s.agentStatus = true ∧ s.cmd = .reaped

structure SupervisionInv (s : Supervision) : Prop where
  atLoop : AtLoop s
  made : ∀ t, s.task = .kill t → s.cmd ≠ .null

theorem supervisionInv_start : SupervisionInv supervision := ⟨⟨rfl, rfl⟩, nofun⟩

/-- With the status true there is a process. -/
theorem AtLoop.hasProcess (h : AtLoop s) (hstatus : s.agentStatus = true) :
    s.cmd.hasProcess = true := by
  unfold AtLoop at h
  cases hloop : s.loop <;> rw [hloop] at h
  case waiting =>
    cases hcmd : s.cmd <;> rw [hcmd] at h <;> first | rfl | cases h.2
  case waitError => rw [h.2]; rfl
  all_goals
    rw [h.1] at hstatus
    cases hstatus

theorem AtLoop.status (h : AtLoop s) (hsettled : s.loop.settled = true) :
    s.agentStatus = true ↔ s.cmd.live = true := by
  unfold AtLoop at h
  cases hloop : s.loop <;> rw [hloop] at h hsettled
  case sleep => rw [h.1, h.2]
  case locked => rw [h.1, h.2]
  case waiting => rw [h.1, h.2]
  all_goals cases hsettled

theorem atLoop_of_eq (h : AtLoop s) (hloop : s'.loop = s.loop)
    (hstatus : s'.agentStatus = s.agentStatus) (hcmd : s'.cmd = s.cmd) : AtLoop s' := by
  unfold AtLoop at h ⊢
  rw [hloop, hstatus, hcmd]
  exact h

/-! ## The steps -/

section Killed

variable (s : Supervision) (t : TaskType)

@[simp] theorem cmd_killed : (s.killed t).cmd = s.cmd := by cases t <;> rfl

@[simp] theorem loop_killed : (s.killed t).loop = s.loop := by cases t <;> rfl

@[simp] theorem agentStatus_killed : (s.killed t).agentStatus = s.agentStatus := by cases t <;> rfl

theorem daemon_killed (hrunning : s.daemon = .running) : (s.killed t).daemon ≠ .nilProcess := by
  cases t <;> simp [Supervision.killed, hrunning]

end Killed

/-- What a step does, and when. -/
inductive Moves (s : Supervision) : SupervisionEvent → Supervision → Prop where
  | lock (hloop : s.loop = .sleep) : Moves s .lock { s with loop := .locked }
  | command (hloop : s.loop = .locked) : Moves s .command { s with cmd := .made, loop := .command }
  | startOk (hloop : s.loop = .command) :
    Moves s (.start true) { s with cmd := .running, loop := .started }
  | startFailed (hloop : s.loop = .command) :
    Moves s (.start false) { s with cmd := .failed, loop := .failed }
  | unlockStarted (hloop : s.loop = .started) : Moves s .unlock { s with loop := .unlocked }
  | unlockFailed (hloop : s.loop = .failed) : Moves s .unlock { s with loop := .sleep }
  | setStatus (hloop : s.loop = .unlocked) :
    Moves s .setStatus { s with agentStatus := true, loop := .waiting }
  | wait (st : ExitStatus) (hloop : s.loop = .waiting) (hcmd : s.cmd = .exited st) :
    Moves s .wait { s with cmd := .reaped, loop := if st.success then .sleep else .waitError }
  | clearStatus (hloop : s.loop = .waitError) :
    Moves s .clearStatus { s with agentStatus := false, loop := .sleep }
  | exit (st : ExitStatus) (hcmd : s.cmd = .running) :
    Moves s (.exit st) { s with cmd := .exited st }
  | task (t : TaskType) : Moves s (.task t) { s with task := .readStatus t }
  | readTrue (t : TaskType) (htask : s.task = .readStatus t) (hstatus : s.agentStatus = true) :
    Moves s .readStatus { s with task := .kill t }
  | readFalse (t : TaskType) (htask : s.task = .readStatus t) : Moves s .readStatus (s.killed t)
  | kill (t : TaskType) (htask : s.task = .kill t) (hprocess : s.cmd.hasProcess = true) :
    Moves s .kill ({ s with cmd := s.cmd.kill }.killed t)
  | killNil (t : TaskType) (htask : s.task = .kill t) (hprocess : s.cmd.hasProcess = false) :
    Moves s .kill { s with daemon := .nilProcess }
  | downloaded : Moves s .downloaded { s with task := .accept }

theorem moves_of_step (hstep : s.step e = some s') : s.daemon = .running ∧ Moves s e s' := by
  obtain ⟨hrunning, hstep⟩ := Option.ite_none_right_eq_some.mp hstep
  refine ⟨hrunning, ?_⟩
  cases e with
  | lock =>
    obtain ⟨⟨hloop, -⟩, rfl⟩ := guard_iff.mp hstep
    exact .lock hloop
  | command =>
    obtain ⟨hloop, rfl⟩ := guard_iff.mp hstep
    exact .command hloop
  | start ok =>
    obtain ⟨hloop, hs⟩ := Option.ite_none_right_eq_some.mp hstep
    cases ok with
    | true =>
      obtain rfl := Option.some.inj hs
      exact .startOk hloop
    | false =>
      obtain rfl := Option.some.inj hs
      exact .startFailed hloop
  | unlock =>
    rw [Supervision.stepRunning] at hstep
    split at hstep
    next hloop =>
      obtain rfl := Option.some.inj hstep
      exact .unlockStarted hloop
    next hloop =>
      obtain rfl := Option.some.inj hstep
      exact .unlockFailed hloop
    · cases hstep
  | setStatus =>
    obtain ⟨hloop, rfl⟩ := guard_iff.mp hstep
    exact .setStatus hloop
  | wait =>
    rw [Supervision.stepRunning] at hstep
    split at hstep
    next st hloop hcmd =>
      obtain rfl := Option.some.inj hstep
      exact .wait st hloop hcmd
    · cases hstep
  | clearStatus =>
    obtain ⟨hloop, rfl⟩ := guard_iff.mp hstep
    exact .clearStatus hloop
  | exit st =>
    obtain ⟨hcmd, rfl⟩ := guard_iff.mp hstep
    exact .exit st hcmd
  | task t =>
    obtain ⟨-, rfl⟩ := guard_iff.mp hstep
    exact .task t
  | readStatus =>
    rw [Supervision.stepRunning] at hstep
    split at hstep
    next t htask =>
      obtain rfl := Option.some.inj hstep
      split
      next hstatus => exact .readTrue t htask hstatus
      · exact .readFalse t htask
    · cases hstep
  | kill =>
    rw [Supervision.stepRunning] at hstep
    split at hstep
    next t htask =>
      obtain rfl := Option.some.inj hstep
      split
      next hprocess => exact .kill t htask hprocess
      next hprocess => exact .killNil t htask (Bool.eq_false_iff.mpr hprocess)
    · cases hstep
  | downloaded =>
    obtain ⟨-, rfl⟩ := guard_iff.mp hstep
    exact .downloaded

/-! ## Careful steps -/

theorem atLoop_kill (h : AtLoop s) : AtLoop { s with cmd := s.cmd.kill } := by
  unfold AtLoop at h ⊢
  dsimp only
  cases hloop : s.loop <;> rw [hloop] at h <;> dsimp only at h ⊢
  case command => rw [h.2]; exact ⟨h.1, rfl⟩
  case failed => rw [h.2]; exact ⟨h.1, rfl⟩
  case waitError => rw [h.2]; exact ⟨h.1, rfl⟩
  all_goals rwa [live_kill]

theorem atLoop_exit (h : AtLoop s) (hcmd : s.cmd = .running) (st : ExitStatus) :
    AtLoop { s with cmd := .exited st } := by
  unfold AtLoop at h ⊢
  dsimp only
  cases hloop : s.loop <;> rw [hloop, hcmd] at h <;> dsimp only at h ⊢
  case started => exact ⟨h.1, rfl⟩
  case unlocked => exact ⟨h.1, rfl⟩
  case waiting => exact ⟨h.1, rfl⟩
  all_goals cases h.2

/-- What is known at the places of the loop is kept, unless a clean exit is reaped. -/
theorem AtLoop.move (h : AtLoop s) (hwait : e = .wait → s.cmd ≠ .exited (.code 0))
    (hmove : Moves s e s') : AtLoop s' := by
  have hat := h
  unfold AtLoop at hat
  cases hmove with
  | lock hloop =>
    rw [hloop] at hat
    exact hat
  | command hloop =>
    rw [hloop] at hat
    exact ⟨hat.1, rfl⟩
  | startOk hloop =>
    rw [hloop] at hat
    exact ⟨hat.1, rfl⟩
  | startFailed hloop =>
    rw [hloop] at hat
    exact ⟨hat.1, rfl⟩
  | unlockStarted hloop =>
    rw [hloop] at hat
    exact hat
  | unlockFailed hloop =>
    rw [hloop] at hat
    refine ⟨hat.1, ?_⟩
    show s.cmd.live = false
    rw [hat.2]
    rfl
  | setStatus hloop =>
    rw [hloop] at hat
    exact ⟨rfl, hat.2⟩
  | wait st hloop hcmd =>
    rw [hloop] at hat
    have herror : st.success = false := by
      rw [ExitStatus.success, beq_eq_false_iff_ne]
      rintro rfl
      exact hwait rfl hcmd
    rw [herror]
    exact ⟨hat.1, rfl⟩
  | clearStatus hloop =>
    rw [hloop] at hat
    refine ⟨rfl, ?_⟩
    show s.cmd.live = false
    rw [hat.2]
    rfl
  | exit st hcmd => exact atLoop_exit h hcmd st
  | task t => exact h
  | readTrue t _ _ => exact h
  | readFalse t _ =>
    exact atLoop_of_eq h (loop_killed s t) (agentStatus_killed s t) (cmd_killed s t)
  | kill t _ _ =>
    exact atLoop_of_eq (atLoop_kill h) (loop_killed _ t) (agentStatus_killed _ t) (cmd_killed _ t)
  | killNil t _ _ => exact h
  | downloaded => exact h

/-- A task that is about to kill has a `Cmd`. -/
theorem SupervisionInv.made_move (h : SupervisionInv s) (hmove : Moves s e s') :
    ∀ t, s'.task = .kill t → s'.cmd ≠ .null := by
  cases hmove with
  | lock _ | unlockStarted _ | unlockFailed _ | setStatus _ | clearStatus _ | killNil _ _ _ =>
    exact h.made
  | command _ | startOk _ | startFailed _ | wait _ _ _ | exit _ _ => exact nofun
  | task _ | downloaded => exact nofun
  | readTrue t htask hstatus =>
    intro _ _ hnull
    have hprocess := h.atLoop.hasProcess hstatus
    rw [show s.cmd = .null from hnull] at hprocess
    cases hprocess
  | readFalse t htask =>
    intro t' ht'
    cases t <;> simp [Supervision.killed, htask] at ht'
  | kill t htask _ =>
    intro t' _
    rw [cmd_killed, Ne, kill_eq_null_iff]
    exact h.made t htask

/-- A step that is careful keeps what is known, and ends the daemon only as `quit` does. -/
theorem SupervisionInv.step (h : SupervisionInv s) (hcareful : s.Careful e)
    (hstep : s.step e = some s') : SupervisionInv s' ∧ s'.daemon ≠ .nilProcess := by
  obtain ⟨hrunning, hmove⟩ := moves_of_step hstep
  have hwait : e = .wait → s.cmd ≠ .exited (.code 0) := by
    rintro rfl
    exact hcareful
  refine ⟨⟨h.atLoop.move hwait hmove, h.made_move hmove⟩, ?_⟩
  have hdaemon : s.daemon ≠ .nilProcess := by
    rw [hrunning]
    nofun
  cases hmove with
  | readFalse t _ => exact daemon_killed s t hrunning
  | kill t _ _ => exact daemon_killed _ t hrunning
  | killNil t htask hprocess =>
    rcases hasProcess_eq_false_iff.mp hprocess with hnull | hmade | hfailed
    · exact absurd hnull (h.made t htask)
    · exact absurd hmade hcareful.1
    · exact absurd hfailed hcareful.2
  | _ => exact hdaemon

theorem SupervisionInv.viewRight (h : SupervisionInv s) (hdaemon : s.daemon ≠ .nilProcess) :
    ViewRight s :=
  ⟨h.atLoop.status, hdaemon⟩

/-- After a step that is not careful the view is wrong. -/
theorem not_viewRight (h : SupervisionInv s) (hcareful : ¬ s.Careful e)
    (hstep : s.step e = some s') : ¬ ViewRight s' := by
  obtain ⟨-, hmove⟩ := moves_of_step hstep
  intro hview
  cases hmove with
  | wait st hloop hcmd =>
    rw [Supervision.Careful, not_ne_iff] at hcareful
    obtain rfl : st = .code 0 := Cmd.exited.inj (hcmd.symm.trans hcareful)
    have hat := h.atLoop
    rw [AtLoop, hloop] at hat
    exact absurd ((hview.status rfl).mp hat.1) Bool.false_ne_true
  | kill t htask hprocess =>
    rw [Supervision.Careful, not_and_or, not_ne_iff, not_ne_iff] at hcareful
    rw [hasProcess_eq_false_iff.mpr (Or.inr hcareful)] at hprocess
    cases hprocess
  | killNil t htask hprocess => exact hview.signal rfl
  | _ => exact hcareful trivial

/-- One step keeps the view right exactly if it is careful. -/
theorem viewRight_step_iff (h : SupervisionInv s) (hstep : s.step e = some s') :
    (∀ s1, s.step e = some s1 → ViewRight s1) ↔ s.Careful e := by
  constructor
  · intro hview
    by_contra hcareful
    exact not_viewRight h hcareful hstep (hview s' hstep)
  · intro hcareful s1 h1
    obtain ⟨hinv, hdaemon⟩ := h.step hcareful h1
    exact hinv.viewRight hdaemon

/-- In every state of a run the daemon's view of the agent is right, exactly if every step is
careful. -/
theorem viewRight_iff (es : List SupervisionEvent) (s : Supervision)
    (hrun : run Supervision.step supervision es = some s) :
    (∀ es1 s1, es1 <+: es → run Supervision.step supervision es1 = some s1 → ViewRight s1) ↔
      Along Supervision.step Supervision.Careful supervision es := by
  rw [forall_reached_iff (supervisionInv_start.viewRight nofun)]
  refine along_iff_of_invariant (I := SupervisionInv) (R := fun _ _ => True) (along_true _ _) ?_ ?_
    supervisionInv_start hrun
  · rintro s e s' h - hview hstep
    exact (h.step ((viewRight_step_iff h hstep).mp hview) hstep).1
  · rintro s e s' h - hstep
    exact viewRight_step_iff h hstep

/-! ## Runs without a race -/

theorem hasProcess_kill (cmd : Cmd) : cmd.kill.hasProcess = cmd.hasProcess := by
  cases cmd <;> rfl

/-- Every task that is to kill has a process to kill. -/
def Killable (s : Supervision) : Prop := ∀ t, s.task = .kill t → s.cmd.hasProcess = true

theorem killable_step (h : SupervisionInv s) (hkill : Killable s) (hunraced : s.Unraced e)
    (hstep : s.step e = some s') : Killable s' := by
  obtain ⟨-, hmove⟩ := moves_of_step hstep
  -- a new command has no process, so no task is about to kill when it is started
  have hnew : s.loop = .command → ∀ t, s.task ≠ .kill t := by
    intro hloop t ht
    have hat := h.atLoop
    rw [AtLoop, hloop] at hat
    have hprocess := hkill t ht
    rw [hat.2] at hprocess
    cases hprocess
  cases hmove with
  | lock _ | unlockStarted _ | unlockFailed _ | setStatus _ | clearStatus _ => exact hkill
  | command _ => exact fun t ht => absurd ht (hunraced t)
  | startOk hloop => exact fun t ht => absurd ht (hnew hloop t)
  | startFailed hloop => exact fun t ht => absurd ht (hnew hloop t)
  | wait _ _ _ => exact fun _ _ => rfl
  | exit _ _ => exact fun _ _ => rfl
  | task _ | downloaded => exact nofun
  | readTrue _ _ hstatus => exact fun _ _ => h.atLoop.hasProcess hstatus
  | readFalse t htask =>
    intro t' ht'
    cases t <;> simp [Supervision.killed, htask] at ht'
  | kill t htask hprocess =>
    intro t' _
    rw [cmd_killed, hasProcess_kill]
    exact hprocess
  | killNil _ _ _ => exact hkill

theorem careful_of_killable (hkill : Killable s) (hunraced : s.Unraced e)
    (hstep : s.step e = some s') : s.Careful e := by
  obtain ⟨-, hmove⟩ := moves_of_step hstep
  have hprocess : ∀ t, s.task = .kill t → s.cmd ≠ .made ∧ s.cmd ≠ .failed := by
    intro t htask
    have hhas := hkill t htask
    refine ⟨fun hmade => ?_, fun hfailed => ?_⟩
    · rw [hmade] at hhas
      cases hhas
    · rw [hfailed] at hhas
      cases hhas
  cases hmove with
  | wait _ _ _ => exact hunraced
  | kill t htask _ => exact hprocess t htask
  | killNil t htask _ => exact hprocess t htask
  | _ => trivial

/-- It is enough that no clean exit is reaped and that no task is overtaken by a new start. -/
theorem careful_of_unraced {es : List SupervisionEvent}
    (h : Along Supervision.step Supervision.Unraced supervision es)
    (hrun : run Supervision.step supervision es = some s) :
    Along Supervision.step Supervision.Careful supervision es := by
  refine (along_iff_of_invariant (I := fun s => SupervisionInv s ∧ Killable s)
    (P := fun _ _ => True) h ?_ ?_ ⟨supervisionInv_start, nofun⟩ hrun).mp (along_true _ _)
  · rintro s e s' ⟨hinv, hkill⟩ hunraced - hstep
    exact ⟨(hinv.step (careful_of_killable hkill hunraced hstep) hstep).1,
      killable_step hinv hkill hunraced hstep⟩
  · rintro s e s' ⟨-, hkill⟩ hunraced hstep
    exact iff_of_true trivial (careful_of_killable hkill hunraced hstep)

/-- An agent that fails and is started again. -/
def restartRun : List SupervisionEvent :=
  [.lock, .command, .start true, .unlock, .setStatus, .exit (.code 2), .wait, .clearStatus, .lock]

theorem restartRun_right : ∃ s, run Supervision.step supervision restartRun = some s ∧
    ViewRight s := by
  have hcareful : Along Supervision.step Supervision.Careful supervision restartRun := by
    refine Along.cons rfl trivial (Along.cons rfl trivial (Along.cons rfl trivial
      (Along.cons rfl trivial (Along.cons rfl trivial (Along.cons rfl trivial
        (Along.cons rfl ?_ (Along.cons rfl trivial (Along.cons rfl trivial trivial))))))))
    show Cmd.exited (.code 2) ≠ .exited (.code 0)
    decide
  exact ⟨_, rfl, (viewRight_iff restartRun _ rfl).mpr hcareful restartRun _ List.prefix_rfl rfl⟩

/-- An agent that exits with 0 is reaped and its status stays true; when the loop makes the next
command, a task signals a nil process. -/
theorem exit_zero_wrong : ¬ ∀ es s, run Supervision.step supervision es = some s →
    ∀ es1 s1, es1 <+: es → run Supervision.step supervision es1 = some s1 → ViewRight s1 := by
  intro hall
  have h := hall [.lock, .command, .start true, .unlock, .setStatus, .exit (.code 0), .wait, .lock,
    .command, .task .reload, .readStatus, .kill] _ rfl _ _ List.prefix_rfl rfl
  exact h.signal rfl

end YulongHids.Daemon
