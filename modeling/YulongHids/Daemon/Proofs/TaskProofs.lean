import YulongHids.Daemon.Proofs.InstallProofs
import YulongHids.Daemon.Task

/-!
# Proofs: the tasks of the daemon

The status of a result is compared with what the task did, one kind of task after the other.
-/

namespace YulongHids.Daemon

open Golang

variable {env : TaskEnv} {command : GoString}

/-! ## Results and their status -/

theorem get_status_data (r : Record) (data : GoString) :
    Record.get (r.insert (str "data") data) (str "status") = r.get (str "status") :=
  Record.get_insert_ne r (by decide) data

theorem get_status_reported (r : Record) (status data : GoString) :
    Record.get (r |>.insert (str "status") status |>.insert (str "data") data) (str "status") =
      status := by
  rw [get_status_data, Record.get_insert]

theorem get_status_newTask (type command : GoString) :
    (newTask type command).result.get (str "status") = str "false" := by
  rw [newTask, get_status_reported]

/-- The handler that `Run` calls. -/
def ReportedTask.handler (env : TaskEnv) (t : Task) : ReportedTask → Option Record
  | .reload => t.reload env
  | .kill => some (t.kill env)
  | .update => t.update env
  | .delete => some (t.delete env)

theorem run_newTask (task : ReportedTask) :
    (newTask task.type command).run env = task.handler env (newTask task.type command) := by
  cases task <;> simp [Task.run, newTask, ReportedTask.type, ReportedTask.handler]

/-- A report is true if its status is that of the effect. -/
theorem reportsTruly_iff_of_handler (task : ReportedTask) {result : Record} (b : Bool)
    (hrun : task.handler env (newTask task.type command) = some result)
    (hstatus : result.get (str "status") = if b then str "true" else str "false") :
    ReportsTruly env command task ↔ (b = true ↔ TookEffect env command task) := by
  have hne : str "true" ≠ str "false" := by decide
  have hall : ReportsTruly env command task ↔
      (result.get (str "status") = str "true" ∧ TookEffect env command task ∨
        result.get (str "status") = str "false" ∧ ¬ TookEffect env command task) := by
    rw [ReportsTruly, run_newTask, hrun]
    constructor
    · rintro ⟨r, hr, h⟩
      obtain rfl := Option.some.inj hr
      exact h
    · intro h
      exact ⟨result, rfl, h⟩
  rw [hall, hstatus]
  cases b with
  | true => simp only [if_true, hne, true_and, false_and, or_false, true_iff]
  | false => simp only [Bool.false_eq_true, if_false, hne.symm, false_and, true_and, false_or,
      false_iff]

theorem not_reportsTruly_of_panic (task : ReportedTask)
    (hrun : task.handler env (newTask task.type command) = none) :
    ¬ ReportsTruly env command task := by
  rintro ⟨r, hr, -⟩
  rw [run_newTask, hrun] at hr
  cases hr

/-! ## reload -/

theorem killAgent_eq_none_iff :
    killAgent env = none ↔ env.agentStatus = true ∧ env.cmd.hasProcess = false := by
  unfold killAgent
  cases env.agentStatus <;> cases env.cmd.hasProcess <;> simp

/-- `reload` reports success if `KillAgent` returns no error. -/
theorem reload_reports_iff {err : Option GoString} (h : killAgent env = some err) :
    ReportsTruly env command .reload ↔ (err = none ↔ TookEffect env command .reload) := by
  cases err with
  | none =>
    have hrun : ReportedTask.reload.handler env (newTask ReportedTask.reload.type command) =
        some ((newTask ReportedTask.reload.type command).result.insert (str "status")
          (str "true")) := by
      rw [ReportedTask.handler, Task.reload, h]
    rw [reportsTruly_iff_of_handler .reload true hrun (Record.get_insert _ _ _)]
    simp
  | some e =>
    have hrun : ReportedTask.reload.handler env (newTask ReportedTask.reload.type command) =
        some ((newTask ReportedTask.reload.type command).result
          |>.insert (str "status") (str "true") |>.insert (str "status") (str "false")
          |>.insert (str "data") e) := by
      rw [ReportedTask.handler, Task.reload, h]
    rw [reportsTruly_iff_of_handler .reload false hrun (get_status_reported _ _ _)]
    simp

theorem reload_iff : ReportsTruly env command .reload ↔ Reportable env command .reload := by
  rw [Reportable]
  cases hstatus : env.agentStatus with
  | false =>
    have hkill : killAgent env = some none := by
      rw [killAgent, hstatus]
      rfl
    rw [reload_reports_iff hkill, TookEffect, hstatus]
    simp
  | true =>
    cases hprocess : env.cmd.hasProcess with
    | false =>
      refine iff_of_false (not_reportsTruly_of_panic _ ?_) (fun h => Bool.false_ne_true h.2.1)
      rw [ReportedTask.handler, Task.reload, killAgent_eq_none_iff.mpr ⟨hstatus, hprocess⟩]
    | true =>
      have hkill : killAgent env =
          some (if env.cmd = .reaped then some (str "os: process already finished")
            else env.killError) := by
        rw [killAgent, hstatus, hprocess]
        rfl
      rw [reload_reports_iff hkill, TookEffect, hstatus]
      cases hcmd : env.cmd with
      | running => simp
      | exited st => simp
      | reaped => simp
      | null | made | failed =>
        rw [hcmd] at hprocess
        cases hprocess

/-! ## kill and delete -/

/-- `kill` reports success if the command prints something. -/
theorem kill_reports_iff :
    ReportsTruly env command .kill ↔
      (killProcess env command ≠ [] ↔ TookEffect env command .kill) := by
  by_cases hdata : killProcess env command = []
  · have hrun : ReportedTask.kill.handler env (newTask ReportedTask.kill.type command) =
        some (newTask ReportedTask.kill.type command).result := by
      rw [ReportedTask.handler, Task.kill]
      exact congrArg some (if_neg (not_not.mpr hdata))
    rw [reportsTruly_iff_of_handler .kill false hrun (get_status_newTask _ _)]
    simp [hdata]
  · have hrun : ReportedTask.kill.handler env (newTask ReportedTask.kill.type command) =
        some ((newTask ReportedTask.kill.type command).result
          |>.insert (str "status") (str "true")
          |>.insert (str "data") (killProcess env command)) := by
      rw [ReportedTask.handler, Task.kill]
      exact congrArg some (if_pos hdata)
    rw [reportsTruly_iff_of_handler .kill true hrun (get_status_reported _ _ _)]
    simp [hdata]

/-- Only `taskkill.exe` prints something when it has ended the processes. -/
theorem killProcess_ne_nil_iff (henv : Conventional env) :
    killProcess env command ≠ [] ↔
      env.windows = true ∧ nameMatches command = true ∧ env.ended command = true := by
  unfold killProcess
  cases hname : nameMatches command with
  | false => simp
  | true =>
    rw [if_pos rfl, cmdExec, ← henv.status command hname]
    cases herr : (env.command (killCommand env command)).err with
    | some err => simp
    | none =>
      cases hwin : env.windows with
      | false => simp [henv.quiet hwin command hname herr]
      | true => simp [henv.decode, henv.message hwin command hname herr]

theorem kill_iff (henv : Conventional env) :
    ReportsTruly env command .kill ↔ Reportable env command .kill := by
  rw [kill_reports_iff, killProcess_ne_nil_iff henv, TookEffect, Reportable]
  cases env.windows <;> cases nameMatches command <;> simp

theorem delete_reports : ReportsTruly env command .delete := by
  cases hremove : env.remove command with
  | none =>
    have hrun : ReportedTask.delete.handler env (newTask ReportedTask.delete.type command) =
        some ((newTask ReportedTask.delete.type command).result
          |>.insert (str "status") (str "true")
          |>.insert (str "data") (command ++ str " 删除成功")) := by
      rw [ReportedTask.handler, Task.delete]
      simp only [newTask, hremove]
    rw [reportsTruly_iff_of_handler .delete true hrun (get_status_reported _ _ _), TookEffect, hremove]
    simp
  | some err =>
    have hrun : ReportedTask.delete.handler env (newTask ReportedTask.delete.type command) =
        some ((newTask ReportedTask.delete.type command).result.insert (str "data") err) := by
      rw [ReportedTask.handler, Task.delete]
      simp only [newTask, hremove]
    rw [reportsTruly_iff_of_handler .delete false hrun
      ((get_status_data _ _).trans (get_status_newTask _ _)), TookEffect, hremove]
    simp

/-! ## update -/

/-- `update` reports success if `agentUpdate` returns no error. -/
theorem update_reports_iff {ok : Bool} {err : Option GoString}
    (h : (updateAgent env).1 = some (ok, err)) :
    ReportsTruly env command .update ↔ (err = none ↔ TookEffect env command .update) := by
  cases err with
  | some e =>
    have hrun : ReportedTask.update.handler env (newTask ReportedTask.update.type command) =
        some ((newTask ReportedTask.update.type command).result.insert (str "data") e) := by
      rw [ReportedTask.handler, Task.update, h]
    rw [reportsTruly_iff_of_handler .update false hrun
      ((get_status_data _ _).trans (get_status_newTask _ _))]
    simp
  | none =>
    obtain ⟨text, hrun⟩ : ∃ text,
        ReportedTask.update.handler env (newTask ReportedTask.update.type command) =
        some ((newTask ReportedTask.update.type command).result
          |>.insert (str "status") (str "true") |>.insert (str "data") text) := by
      rw [ReportedTask.handler, Task.update, h]
      cases ok with
      | true => exact ⟨_, rfl⟩
      | false => exact ⟨_, rfl⟩
    rw [reportsTruly_iff_of_handler .update true hrun (get_status_reported _ _ _)]
    simp

/-- The console says that the installed agent is the newest. -/
def SaysNewest (env : TaskEnv) : Prop :=
  ∃ content, env.installed = some content ∧ env.update.openError = none ∧
    env.update.answer content = .body (str "0")

/-- An update that leaves the installed file took effect only if there is nothing newer. -/
theorem tookEffect_kept_iff (hdisk : (updateAgent env).2 = env.installed.map installedFile) :
    TookEffect env command .update ↔ SaysNewest env := by
  rw [TookEffect, hdisk]
  refine or_iff_left ?_
  rintro ⟨i, -, hfile⟩
  obtain ⟨content, -, hcontent⟩ := Option.map_eq_some_iff.mp hfile
  cases congrArg AgentFile.origin hcontent

theorem update_error_reports (err : GoString)
    (h : updateAgent env = (some (false, some err), env.installed.map installedFile))
    (hnot : ¬ SaysNewest env) : ReportsTruly env command .update := by
  have hdisk : (updateAgent env).2 = env.installed.map installedFile := congrArg Prod.snd h
  rw [update_reports_iff (congrArg Prod.fst h), tookEffect_kept_iff hdisk]
  exact iff_of_false (Option.some_ne_none err) hnot

theorem updateAgent_of_not_kills (h : updateKills env = false) :
    updateAgent env = agentUpdate env.update (env.installed.map installedFile) := by
  rw [updateAgent, h]
  rfl

section Answered

variable {content result : GoString}

theorem saysNewest_iff (hinstalled : env.installed = some content)
    (hopen : env.update.openError = none) (hanswer : env.update.answer content = .body result) :
    SaysNewest env ↔ result = str "0" := by
  rw [SaysNewest, hinstalled, hopen]
  constructor
  · rintro ⟨c, hc, -, hzero⟩
    obtain rfl := Option.some.inj hc
    rw [hanswer] at hzero
    exact Answer.body.inj hzero
  · rintro rfl
    exact ⟨content, rfl, rfl, hanswer⟩

/-- The installed agent is removed; everything depends on the download. -/
theorem update_removed_iff (hopen : env.update.openError = none)
    (hanswer : env.update.answer content = .body (str "1")) (hremove : env.update.remove = none)
    (hnot : ¬ SaysNewest env)
    (hagent : updateAgent env = agentUpdate env.update (some (installedFile content))) :
    ReportsTruly env command .update ↔ ∃ i, FirstAttempt env.update.attempt Replaces i := by
  have hiff := @downAgent_nil_iff env.update.attempt none
  have hrun := hagent
  unfold agentUpdate at hrun
  simp only [hopen, hremove, installedFile, hanswer, if_true] at hrun
  rcases hdown : downAgent env.update.attempt none with ⟨ret, disk⟩
  have hfail : ret ≠ .nil → ¬ ∃ i, FirstAttempt env.update.attempt Replaces i := by
    have hpasses := @not_firstAttempt_of_downAgent env.update.attempt none
    rwa [hdown] at hpasses
  rw [hdown] at hiff hrun
  cases ret with
  | nil =>
    obtain ⟨i, hi, rfl⟩ := hiff.mp rfl
    refine iff_of_true ?_ ⟨i, hi⟩
    rw [update_reports_iff (congrArg Prod.fst hrun)]
    exact iff_of_true rfl (Or.inr ⟨i, hi, congrArg Prod.snd hrun⟩)
  | error e =>
    refine iff_of_false ?_ (hfail nofun)
    rw [update_reports_iff (congrArg Prod.fst hrun)]
    intro h
    rcases h.mp rfl with hnewest | ⟨i, hi, -⟩
    · exact hnot hnewest
    · exact hfail nofun ⟨i, hi⟩
  | panic =>
    refine iff_of_false (not_reportsTruly_of_panic _ ?_) (hfail nofun)
    rw [ReportedTask.handler, Task.update, hrun]

/-- The console says that the installed agent is not the newest. -/
theorem update_replacing_iff (hinstalled : env.installed = some content)
    (hopen : env.update.openError = none) (hanswer : env.update.answer content = .body (str "1")) :
    ReportsTruly env command .update ↔
      (env.agentStatus = true → env.cmd.hasProcess = true) ∧
        (env.update.remove ≠ none ∨ ∃ i, FirstAttempt env.update.attempt Replaces i) := by
  have hnot : ¬ SaysNewest env := by
    rw [saysNewest_iff hinstalled hopen hanswer]
    decide
  have hkills : updateKills env = true := by
    rw [updateKills, hinstalled]
    simp only [hopen, hanswer, Option.isNone_none, beq_self_eq_true, Bool.and_self]
  cases hkill : killAgent env with
  | none =>
    obtain ⟨hstatus, hprocess⟩ := killAgent_eq_none_iff.mp hkill
    have hrun : updateAgent env = (none, env.installed.map installedFile) := by
      rw [updateAgent, hkills, hkill]
      rfl
    refine iff_of_false (not_reportsTruly_of_panic _ ?_) fun h => ?_
    · rw [ReportedTask.handler, Task.update, hrun]
    · rw [h.1 hstatus] at hprocess
      cases hprocess
  | some err =>
    have hprocess : env.agentStatus = true → env.cmd.hasProcess = true := by
      intro hstatus
      by_contra hno
      rw [killAgent_eq_none_iff.mpr ⟨hstatus, Bool.not_eq_true _ ▸ hno⟩] at hkill
      cases hkill
    have hagent : updateAgent env = agentUpdate env.update (some (installedFile content)) := by
      rw [updateAgent, hkills, hkill, hinstalled]
      rfl
    rw [and_iff_right hprocess]
    cases hremove : env.update.remove with
    | some e =>
      refine iff_of_true (update_error_reports e ?_ hnot) (Or.inl (Option.some_ne_none e))
      rw [hagent, hinstalled]
      unfold agentUpdate
      simp only [hopen, hremove, installedFile, hanswer, if_true, Option.map_some]
    | none =>
      rw [or_iff_right (not_not.mpr rfl)]
      exact update_removed_iff hopen hanswer hremove hnot hagent

theorem update_answered_iff (hinstalled : env.installed = some content)
    (hopen : env.update.openError = none) (hanswer : env.update.answer content = .body result) :
    ReportsTruly env command .update ↔ result = str "0" ∨
      result = str "1" ∧ (env.agentStatus = true → env.cmd.hasProcess = true) ∧
        (env.update.remove ≠ none ∨ ∃ i, FirstAttempt env.update.attempt Replaces i) := by
  by_cases hone : result = str "1"
  · subst hone
    rw [update_replacing_iff hinstalled hopen hanswer]
    have hzero : str "1" ≠ str "0" := by decide
    simp only [hzero, false_or, true_and]
  · have hkills : updateKills env = false := by
      rw [updateKills, hinstalled]
      simp [hopen, hanswer, hone]
    have hrun : updateAgent env = (some (false, none), env.installed.map installedFile) := by
      rw [updateAgent_of_not_kills hkills, hinstalled]
      unfold agentUpdate
      simp only [hopen, installedFile, hanswer, hone, if_false, Option.map_some]
    have hdisk : (updateAgent env).2 = env.installed.map installedFile := congrArg Prod.snd hrun
    rw [update_reports_iff (congrArg Prod.fst hrun), tookEffect_kept_iff hdisk,
      saysNewest_iff hinstalled hopen hanswer]
    simp only [hone, false_and, or_false, true_iff]

end Answered

theorem update_iff : ReportsTruly env command .update ↔ Reportable env command .update := by
  rw [Reportable]
  cases hinstalled : env.installed with
  | none =>
    refine iff_of_true (update_error_reports (str "no such file or directory") ?_ ?_) nofun
    · rw [updateAgent_of_not_kills (by rw [updateKills, hinstalled]), hinstalled]
      rfl
    · rintro ⟨content, hcontent, -⟩
      rw [hinstalled] at hcontent
      cases hcontent
  | some content =>
    -- an error before the answer is returned
    have herror : ∀ err, updateKills env = false →
        agentUpdate env.update (some (installedFile content)) =
          (some (false, some err), some (installedFile content)) →
        ¬ SaysNewest env → ReportsTruly env command .update := by
      intro err hkills hrun hnot
      refine update_error_reports err ?_ hnot
      rw [updateAgent_of_not_kills hkills, hinstalled]
      exact hrun
    simp only [Option.some.injEq, forall_eq']
    cases hopen : env.update.openError with
    | some err =>
      refine iff_of_true (herror err ?_ ?_ ?_) nofun
      · rw [updateKills, hinstalled, hopen]
        rfl
      · unfold agentUpdate
        simp only [hopen]
      · rintro ⟨-, -, hnone, -⟩
        rw [hopen] at hnone
        cases hnone
    | none =>
      cases hanswer : env.update.answer content with
      | body result =>
        rw [update_answered_iff hinstalled hopen hanswer]
        simp only [Answer.body.injEq, forall_eq', forall_const]
      | requestError err | bodyError err =>
        refine iff_of_true (herror err ?_ ?_ ?_) (fun _ _ h => by cases h)
        · rw [updateKills, hinstalled]
          simp [hanswer]
        · unfold agentUpdate
          simp only [hopen, installedFile, hanswer]
        · rintro ⟨c, hc, -, hzero⟩
          obtain rfl : content = c := Option.some.inj (hinstalled.symm.trans hc)
          rw [hanswer] at hzero
          cases hzero

/-! ## All reported tasks -/

/-- If the commands behave as usual, then a result is true exactly if the task is reportable. -/
theorem reportsTruly_iff (env : TaskEnv) (henv : Conventional env) (command : GoString)
    (task : ReportedTask) : ReportsTruly env command task ↔ Reportable env command task := by
  cases task with
  | reload => exact reload_iff
  | kill => exact kill_iff henv
  | update => exact update_iff
  | delete => exact iff_of_true delete_reports trivial

/-- A host with Linux whose kill commands succeed. -/
def linuxHost : TaskEnv where
  windows := false
  agentStatus := true
  cmd := .running
  killError := none
  command _ := ⟨none, []⟩
  convertString s := s
  ended _ := true
  update :=
    { openError := none
      readable := 0
      check := fun _ => .body (str "0")
      remove := none
      attempt := fun _ => ⟨some (str "connection refused"), none, [], 0, none, none, fun _ => .body []⟩ }
  installed := none
  remove _ := none

theorem linuxHost_conventional : Conventional linuxHost :=
  ⟨fun _ _ => iff_of_true rfl rfl, fun _ _ _ _ => rfl, nofun, fun _ => Iff.rfl⟩

def windowsHost : TaskEnv :=
  { linuxHost with
    windows := true
    command := fun _ => ⟨none, str "SUCCESS"⟩ }

theorem windowsHost_conventional : Conventional windowsHost where
  status _ _ := iff_of_true rfl rfl
  quiet := nofun
  message _ _ _ _ := by
    show str "SUCCESS" ≠ []
    decide
  decode _ := Iff.rfl

/-- A process of Windows is ended, and the result says so. -/
theorem reportsTruly_windows : ReportsTruly windowsHost (str "nc.exe") .kill :=
  (reportsTruly_iff windowsHost windowsHost_conventional (str "nc.exe") .kill).mpr (Or.inl rfl)

/-- A process of Linux is ended, and the result says that it is not. -/
theorem kill_denied : ¬ ∀ env, Conventional env → ∀ command task, ReportsTruly env command task := by
  intro hall
  rcases kill_iff linuxHost_conventional |>.mp (hall linuxHost linuxHost_conventional (str "nc") .kill)
    with hwindows | hname | hended
  · cases hwindows
  · exact absurd hname (by decide)
  · cases hended

end YulongHids.Daemon
