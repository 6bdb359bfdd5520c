import YulongHids.Server.Task

/-!
# Proofs: the task dispatcher

Every path of `sendTask` stores one result. The path through a decoded answer stores it under the
task's id, the paths through `saveError` store it under the id of the queue item.
-/

namespace YulongHids.Server

open Golang Mongo

section Send

variable {env : SendEnv} {task : Queue} {results : Collection TaskResult}

theorem insert_eq (hins : ∀ r, env.insertError r = none) (r : TaskResult) :
    env.insert results r = (results ++ [r], none) := by
  simp [SendEnv.insert, hins, Mongo.insert]

theorem saveError_eq (hins : ∀ r, env.insertError r = none) (errMsg : GoString) :
    saveError env task errMsg results =
      results ++ [⟨task.id, task.ip, str "false", errMsg, env.now⟩] := by
  rw [saveError, insert_eq hins]

/-- An answer that decodes is stored for the task. -/
theorem sendTask_answered (hins : ∀ r, env.insertError r = none) (h : env.Answers task) :
    ∃ r, sendTask env task results = results ++ [r] ∧ r.taskID = task.taskID ∧ r.ip = task.ip := by
  obtain ⟨hdial, data, msg, res, hrsa, hread, hjson⟩ := h
  refine ⟨{ res with taskID := task.taskID, time := env.now, ip := task.ip }, ?_, rfl, rfl⟩
  simp only [sendTask, hdial, hrsa, hread, hjson, insert_eq hins]

/-- Whatever else happens is stored by `saveError`. -/
theorem sendTask_failed (hins : ∀ r, env.insertError r = none) (h : ¬ env.Answers task) :
    ∃ r, sendTask env task results = results ++ [r] ∧ r.taskID = task.id ∧ r.ip = task.ip := by
  have hfail : ∀ err, ∃ r, saveError env task err results = results ++ [r] ∧
      r.taskID = task.id ∧ r.ip = task.ip := fun err => ⟨_, saveError_eq hins err, rfl, rfl⟩
  unfold sendTask
  cases hdial : env.dial (task.ip ++ str ":65512") with
  | some err => exact hfail err
  | none =>
    cases hrsa : env.rsaEncrypt (env.marshal (sendData task)) with
    | error err => exact hfail err
    | ok data =>
      cases hread : readString (env.exchange data) with
      | error err => simpa only [hread] using hfail err
      | ok msg =>
        cases hjson : env.unmarshal msg with
        | error err => simpa only [hread, hjson] using hfail err
        | ok res => exact absurd ⟨hdial, data, msg, res, hrsa, hread, hjson⟩ h

theorem attributed_append_iff (r : TaskResult) :
    Attributed task results (results ++ [r]) ↔ r.taskID = task.taskID ∧ r.ip = task.ip := by
  constructor
  · rintro ⟨r', h, hid, hip, -⟩
    have hr : r = r' := by simpa using h
    subst hr
    exact ⟨hid, hip⟩
  · rintro ⟨hid, hip⟩
    refine ⟨r, rfl, hid, hip, ?_⟩
    rw [taskResults, mem_find_all]
    simp [hid]

theorem not_attributed_self : ¬ Attributed task results results := by
  rintro ⟨r, h, -⟩
  simp at h

theorem taskThread_cons (queue : Collection Queue) :
    taskThread env (task :: queue) results =
      (queue, if task.ip = [] then results else sendTask env task results) := by
  unfold taskThread
  rw [findAndRemove_cons_true]
  by_cases hip : task.ip = [] <;> simp [hip]

end Send

/-- An item taken from the queue leaves exactly one result, under its task and its host, if and only
if it names a host and either the daemon's answer decodes or the item's key is that of its task. -/
theorem taskThread_attributed_iff (env : SendEnv) (hins : ∀ r, env.insertError r = none)
    (task : Queue) (queue : Collection Queue) (results : Collection TaskResult) :
    Attributed task results (taskThread env (task :: queue) results).2 ↔
      task.ip ≠ [] ∧ (env.Answers task ∨ task.id = task.taskID) := by
  rw [taskThread_cons]
  by_cases hip : task.ip = []
  · simp only [hip, if_true, ne_eq, not_true_eq_false, false_and, iff_false]
    exact not_attributed_self
  simp only [hip, if_false, ne_eq, not_false_eq_true, true_and]
  by_cases h : env.Answers task
  · obtain ⟨r, hr, hid, hrip⟩ := @sendTask_answered env task results hins h
    rw [hr, attributed_append_iff]
    exact iff_of_true ⟨hid, hrip⟩ (Or.inl h)
  · obtain ⟨r, hr, hid, hrip⟩ := @sendTask_failed env task results hins h
    rw [hr, attributed_append_iff, hid]
    exact ⟨fun h' => Or.inr h'.1, fun h' => ⟨h'.resolve_left h, hrip⟩⟩

/-- The command to reload, for one host. -/
def reloadItem : Queue := ⟨str "item-0000001", str "task-0000001", str "10.0.0.7", str "reload", [], 0⟩

/-- A server that cannot reach the host. -/
def unreachableEnv : SendEnv where
  marshal _ := str "\x7b\"command\":\"\",\"type\":\"reload\"\x7d"
  dial _ := some (str "i/o timeout")
  rsaEncrypt data := .ok data
  exchange _ := ([], str "EOF")
  unmarshal _ := .error (str "unexpected end of JSON input")
  now := 0
  insertError _ := none

def reloadedEnv : SendEnv :=
  { unreachableEnv with
    dial := fun _ => none
    exchange := fun _ => (str "\x7b\"data\":\"\",\"status\":\"true\"\x7d\n", str "EOF")
    unmarshal := fun _ => .ok ⟨[], [], str "true", [], 0⟩ }

/-- The result of an item whose host is not reachable is stored under the item's key; the console
shows no result for the task. -/
theorem taskThread_misattributed :
    (∀ r, unreachableEnv.insertError r = none) ∧
      (taskThread unreachableEnv [reloadItem] []).2.map TaskResult.taskID = [str "item-0000001"] ∧
      taskResults (taskThread unreachableEnv [reloadItem] []).2 reloadItem.taskID 0 0 = [] ∧
      ¬ Attributed reloadItem [] (taskThread unreachableEnv [reloadItem] []).2 := by
  refine ⟨fun _ => rfl, by decide, by decide, ?_⟩
  rintro ⟨r, hr, hid, -⟩
  have hids := congrArg (List.map TaskResult.taskID) hr
  rw [List.nil_append, List.map_singleton, hid] at hids
  revert hids
  decide

theorem taskThread_attributed_reload :
    Attributed reloadItem [] (taskThread reloadedEnv [reloadItem] []).2 :=
  (taskThread_attributed_iff reloadedEnv (fun _ => rfl) reloadItem [] []).mpr
    ⟨by decide, Or.inl ⟨rfl, _, _, _, rfl, rfl, rfl⟩⟩

end YulongHids.Server
