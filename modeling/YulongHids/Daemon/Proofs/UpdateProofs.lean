import YulongHids.Daemon.Proofs.TaskProofs

/-!
# Proofs: updating the agent

Once the installed file is removed, everything depends on `DownAgent`: its failure is not returned
and leaves no agent. An update that panics in `KillAgent` does not get there.
-/

namespace YulongHids.Daemon

open Golang

section Runs

variable {env : UpdateEnv} {content : List UInt8}

theorem truthful_error (installed : Option (List UInt8)) (err : GoString) :
    Truthful env installed (some (false, some err), installed.map installedFile) :=
  ⟨by simp, by simp, fun _ => rfl⟩

/-- A run that reports a current agent is truthful if the console reported that. -/
theorem truthful_current_iff :
    Truthful env (some content) (some (false, none), some (installedFile content)) ↔
      env.answer content = .body (str "0") := by
  constructor
  · intro h
    obtain ⟨⟨c, hc, hanswer⟩, -⟩ := h.current rfl
    rw [Option.some.inj hc]
    exact hanswer
  · intro h
    exact ⟨by simp, fun _ => ⟨⟨content, rfl, h⟩, rfl⟩, fun _ => rfl⟩

/-- After the removal a run that does not end with a new agent is not truthful. -/
theorem not_truthful_removed {ret : Option (Bool × Option GoString)} {disk : Disk}
    (hret : ret ≠ some (true, none)) (hdisk : disk ≠ some (installedFile content)) :
    ¬ Truthful env (some content) (ret, disk) := fun h => hdisk (h.kept hret)

theorem truthful_updated {i : ℕ} (h : FirstAttempt env.attempt Attempt.Passes i) :
    Truthful env (some content)
      (some (true, none), some ⟨.downloaded, (env.attempt i).copied⟩) :=
  ⟨fun _ => ⟨i, h.lt, h.holds.1, rfl⟩, by simp, by simp⟩

end Runs

/-- What `downFile` leaves is not the installed file, unless it was there before. -/
theorem downFile_disk_ne {a : Attempt} {disk : Disk} {content : List UInt8}
    (hdisk : disk ≠ some (installedFile content)) :
    (downFile a disk).2 ≠ some (installedFile content) := by
  unfold downFile
  cases a.request with
  | some err => exact hdisk
  | none =>
    cases a.create with
    | some err => exact hdisk
    | none =>
      cases a.stat with
      | some err => simp [installedFile]
      | none =>
        by_cases hlen : (a.copied.length : ℤ) = a.contentLength <;> simp [hlen, installedFile]

theorem downLoop_disk_ne {attempt : ℕ → Attempt} {content : List UInt8} (times i : ℕ)
    {disk : Disk} (hdisk : disk ≠ some (installedFile content)) :
    (downLoop attempt times i disk).2 ≠ some (installedFile content) := by
  induction times generalizing i disk with
  | zero => exact hdisk
  | succ times ih =>
    have hfile := @downFile_disk_ne (attempt i) disk content hdisk
    rw [downLoop]
    rcases hrun : downFile (attempt i) disk with ⟨ret, disk'⟩
    rw [hrun] at hfile
    cases ret with
    | panic => exact hfile
    | error err => exact ih (i + 1) hfile
    | nil =>
      by_cases hcheck : checkAgentHash (attempt i) (fileMD5String (attempt i) disk') = true
      · simpa [hcheck] using hfile
      · simpa [hcheck] using ih (i + 1) hfile

section Update

variable {env : UpdateEnv} {content : List UInt8}

/-- With a newer version announced and the installed agent removed, the rest of the update. -/
theorem truthful_replaced_iff (hopen : env.openError = none)
    (hanswer : env.answer content = .body (str "1")) (hremove : env.remove = none) :
    Truthful env (some content) (agentUpdate env (some (installedFile content))) ↔
      ∃ i, FirstAttempt env.attempt Attempt.Passes i := by
  have hne : (downAgent env.attempt none).2 ≠ some (installedFile content) :=
    downLoop_disk_ne 3 0 (by simp)
  have hiff := @downAgent_nil_iff env.attempt none
  unfold agentUpdate
  simp only [hopen, hremove, installedFile, hanswer, if_true]
  rcases hrun : downAgent env.attempt none with ⟨ret, disk⟩
  have hfail := @not_firstAttempt_of_downAgent env.attempt none
  rw [hrun] at hne hiff hfail
  cases ret with
  | nil =>
    obtain ⟨i, hi, rfl⟩ := hiff.mp rfl
    exact iff_of_true (truthful_updated hi) ⟨i, hi⟩
  | error err => exact iff_of_false (not_truthful_removed (by simp) hne) (hfail (by simp))
  | panic => exact iff_of_false (not_truthful_removed (by simp) hne) (hfail (by simp))

theorem truthful_answered_iff (hopen : env.openError = none) {result : GoString}
    (hanswer : env.answer content = .body result) :
    Truthful env (some content) (agentUpdate env (some (installedFile content))) ↔
      result = str "0" ∨
        result = str "1" ∧
          (env.remove ≠ none ∨ ∃ i, FirstAttempt env.attempt Attempt.Passes i) := by
  by_cases hone : result = str "1"
  · have hzero : str "1" ≠ str "0" := by decide
    subst hone
    simp only [hzero, false_or, true_and]
    cases hremove : env.remove with
    | some err =>
      refine iff_of_true ?_ (by simp)
      unfold agentUpdate
      simp only [hopen, hremove, installedFile, hanswer, if_true]
      exact truthful_error (some content) err
    | none =>
      simp only [ne_eq, not_true_eq_false, false_or]
      exact truthful_replaced_iff hopen hanswer hremove
  · have hrun : agentUpdate env (some (installedFile content)) =
        (some (false, none), some (installedFile content)) := by
      unfold agentUpdate
      simp only [hopen, installedFile, hanswer, hone, if_false]
    rw [hrun, truthful_current_iff, hanswer, Answer.body.injEq]
    simp only [hone, false_and, or_false]

end Update

/-- Where `KillAgent` returns, everything depends on the answer, the removal and the download. -/
theorem truthful_agentUpdate_iff (env : UpdateEnv) (installed : Option (List UInt8)) :
    Truthful env installed (agentUpdate env (installed.map installedFile)) ↔
      ∀ content, installed = some content → env.openError = none →
        ∀ result, env.answer content = .body result →
          result = str "0" ∨
            result = str "1" ∧
              (env.remove ≠ none ∨ ∃ i, FirstAttempt env.attempt Attempt.Passes i) := by
  cases installed with
  | none =>
    refine iff_of_true ?_ (by simp)
    exact truthful_error none _
  | some content =>
    simp only [Option.map_some, Option.some.injEq, forall_eq']
    cases hopen : env.openError with
    | some err =>
      refine iff_of_true ?_ (by simp)
      unfold agentUpdate
      simp only [hopen]
      exact truthful_error (some content) err
    | none =>
      -- an error of the request or of its body is returned
      have herror : ∀ err, env.answer content = .requestError err ∨
          env.answer content = .bodyError err →
          Truthful env (some content) (agentUpdate env (some (installedFile content))) := by
        intro err herr
        have hrun : agentUpdate env (some (installedFile content)) =
            (some (false, some err), some (installedFile content)) := by
          unfold agentUpdate
          rcases herr with h | h <;> simp only [hopen, installedFile, h]
        rw [hrun]
        exact truthful_error (some content) err
      cases hanswer : env.answer content with
      | requestError err => exact iff_of_true (herror err (Or.inl hanswer)) (by simp)
      | bodyError err => exact iff_of_true (herror err (Or.inr hanswer)) (by simp)
      | body result =>
        rw [truthful_answered_iff hopen hanswer]
        simp only [Answer.body.injEq, forall_eq', forall_const]

/-- An update that panics in `KillAgent` has left the installed file alone. -/
theorem truthful_panic {env : UpdateEnv} (installed : Option (List UInt8)) :
    Truthful env installed (none, installed.map installedFile) :=
  ⟨nofun, nofun, fun _ => rfl⟩

/-- `agentUpdate` calls `KillAgent` only once the console has answered 1. -/
theorem updateKills_iff {env : TaskEnv} :
    updateKills env = true ↔ ∃ content, env.installed = some content ∧
      env.update.openError = none ∧ env.update.answer content = .body (str "1") := by
  unfold updateKills
  cases env.installed with
  | none => simp
  | some content => simp

/-- An update is truthful and atomic if and only if, whenever the console answers the check of the
installed agent, it answers 0, or it answers 1 and then `KillAgent` panics on a nil process, the
removal fails or some attempt passes before one crashes. -/
theorem agentUpdate_truthful_iff (env : TaskEnv) :
    Truthful env.update env.installed (updateAgent env) ↔
      ∀ content, env.installed = some content → env.update.openError = none →
        ∀ result, env.update.answer content = .body result →
          result = str "0" ∨
            result = str "1" ∧
              ((env.agentStatus = true ∧ env.cmd.hasProcess = false) ∨ env.update.remove ≠ none ∨
                ∃ i, FirstAttempt env.update.attempt Attempt.Passes i) := by
  rw [← killAgent_eq_none_iff]
  by_cases hpanic : updateKills env = true ∧ killAgent env = none
  · obtain ⟨hkills, hkill⟩ := hpanic
    have hrun : updateAgent env = (none, env.installed.map installedFile) := by
      rw [updateAgent, hkills, hkill]
      rfl
    obtain ⟨file, hfile, -, hone⟩ := updateKills_iff.mp hkills
    rw [hrun]
    refine iff_of_true (truthful_panic env.installed) ?_
    intro content hcontent _ result hresult
    obtain rfl : file = content := Option.some.inj (hfile.symm.trans hcontent)
    exact Or.inr ⟨(Answer.body.inj (hone.symm.trans hresult)).symm, Or.inl hkill⟩
  · have hrun : updateAgent env = agentUpdate env.update (env.installed.map installedFile) := by
      rw [updateAgent, if_neg]
      simpa using hpanic
    rw [hrun, truthful_agentUpdate_iff]
    refine forall_congr' fun content => forall_congr' fun hcontent => forall_congr' fun hopen =>
      forall_congr' fun result => forall_congr' fun hresult => or_congr_right ?_
    refine and_congr_right fun hone => (or_iff_right ?_).symm
    subst hone
    exact fun hkill => hpanic ⟨updateKills_iff.mpr ⟨content, hcontent, hopen, hresult⟩, hkill⟩

/-- A host whose console has a newer agent and cannot be reached for its download. -/
def unreachableHost : TaskEnv :=
  { linuxHost with
    update := { linuxHost.update with check := fun _ => .body (str "1") }
    installed := some (str "old") }

/-- The update reports a current agent, and there is no agent any more. -/
theorem agentUpdate_loses_agent :
    updateAgent unreachableHost = (some (false, none), none) ∧
      ¬ Truthful unreachableHost.update unreachableHost.installed (updateAgent unreachableHost) := by
  have hrun : updateAgent unreachableHost = (some (false, none), none) := by rfl
  refine ⟨hrun, ?_⟩
  rw [hrun]
  exact not_truthful_removed (by simp) (by simp)

end YulongHids.Daemon
