import YulongHids.Server.Dispatch
import YulongHids.Server.Proofs.TaskProofs

/-!
# Proofs: task dispatchers on one queue

A server never has more calls than values in its channel, so the channel bounds the calls, and the
deferred receive of a call that has returned does not wait. An item is removed from the queue before a
loop holds it, and leaves the loop when it is handed over.
-/

namespace YulongHids.Server

open Golang Mongo Transition

/-! ## A call of `sendTask` -/

section Call

/-- Every step of a call brings it closer to its end. -/
theorem remaining_next (call : SendCall) (results : Collection TaskResult) :
    (call.next results).1.remaining ≤ call.stage.remaining - 1 := by
  unfold SendCall.next
  cases call.stage with
  | marshal =>
    dsimp only
    split_ifs
    · exact le_refl 6
    · exact Nat.zero_le 6
  | dial data =>
    cases hdial : call.env.dial (call.task.ip ++ str ":65512") with
    | none => simp [SendStage.remaining]
    | some err => simp [SendStage.remaining]
  | encrypt data =>
    cases hrsa : call.env.rsaEncrypt data with
    | error err => simp [hrsa, SendStage.remaining]
    | ok encryptData => simp [hrsa, SendStage.remaining]
  | exchange encryptData =>
    cases hread : readString (call.env.exchange encryptData) with
    | error err => simp [hread, SendStage.remaining]
    | ok msg => simp [hread, SendStage.remaining]
  | unmarshal msg =>
    cases hjson : call.env.unmarshal msg with
    | error err => simp [hjson, SendStage.remaining]
    | ok res => simp [hjson, SendStage.remaining]
  | insert res =>
    rcases hins : call.env.insert results res with ⟨results', _ | err⟩
    · simp [hins, SendStage.remaining]
    · simp [hins, SendStage.remaining]
  | saveError errMsg => exact Nat.zero_le 0
  | returned => exact Nat.zero_le 0

theorem returned_of_remaining {stage : SendStage} (h : stage.remaining = 0) :
    stage = .returned := by
  cases stage with
  | returned => rfl
  | _ => simp [SendStage.remaining] at h

theorem remaining_steps (n : ℕ) (p : SendCall × Collection TaskResult) :
    (SendCall.step^[n] p).1.stage.remaining ≤ p.1.stage.remaining - n := by
  induction n with
  | zero => exact le_refl _
  | succ n ih =>
    rw [Function.iterate_succ_apply']
    have hnext := remaining_next (SendCall.step^[n] p).1 (SendCall.step^[n] p).2
    exact hnext.trans (by omega)

/-- A call has returned after seven of its steps, however they end. -/
theorem returned_after_seven (p : SendCall × Collection TaskResult) :
    (SendCall.step^[7] p).1.stage = .returned := by
  have hsteps := remaining_steps 7 p
  have hstage : p.1.stage.remaining ≤ 7 := by
    cases p.1.stage with
    | marshal => exact le_refl 7
    | _ => simp [SendStage.remaining]
  exact returned_of_remaining (by omega)

/-- The steps of a call, one after the other, are `sendTask`. -/
theorem steps_eq_sendTask (env : SendEnv) (task : Queue) (results : Collection TaskResult) :
    ∃ n, SendCall.step^[n] (⟨task, env, true, .marshal⟩, results) =
      (⟨task, env, true, .returned⟩, sendTask env task results) := by
  have hsaved : ∀ n err results',
      SendCall.step^[n] (⟨task, env, true, .marshal⟩, results) =
        (⟨task, env, true, .saveError err⟩, results') →
      ∃ n, SendCall.step^[n] (⟨task, env, true, .marshal⟩, results) =
        (⟨task, env, true, .returned⟩, saveError env task err results') := by
    intro n err results' hn
    refine ⟨n + 1, ?_⟩
    rw [Function.iterate_succ_apply', hn]
    rfl
  unfold sendTask
  cases hdial : env.dial (task.ip ++ str ":65512") with
  | some err => exact hsaved 2 err results (by simp [SendCall.step, SendCall.next, hdial])
  | none =>
    cases hrsa : env.rsaEncrypt (env.marshal (sendData task)) with
    | error err => exact hsaved 3 err results (by simp [SendCall.step, SendCall.next, hdial, hrsa])
    | ok data =>
      cases hread : readString (env.exchange data) with
      | error err =>
        simp only [hread]
        exact hsaved 4 err results (by simp [SendCall.step, SendCall.next, hdial, hrsa, hread])
      | ok msg =>
        cases hjson : env.unmarshal msg with
        | error err =>
          simp only [hread, hjson]
          exact hsaved 5 err results
            (by simp [SendCall.step, SendCall.next, hdial, hrsa, hread, hjson])
        | ok res =>
          simp only [hread, hjson]
          rcases hins : env.insert results
            { res with taskID := task.taskID, time := env.now, ip := task.ip } with ⟨results', _ | err⟩
          · refine ⟨6, ?_⟩
            simp [SendCall.step, SendCall.next, hdial, hrsa, hread, hjson, hins]
          · exact hsaved 6 err results'
              (by simp [SendCall.step, SendCall.next, hdial, hrsa, hread, hjson, hins])

end Call

/-! ## What a step does -/

section Step

variable {ι : Type*} [DecidableEq ι] {s s' : TaskSystem ι} {sv : ι}

/-- A step of one server, which is `server` afterwards: its channel stays accounted for, an item is
handed over only out of the queue and the hands of the loop, and a new call is one that was handed its
item. -/
structure ServerStep (s s' : TaskSystem ι) (sv : ι) (server : TaskServer) : Prop where
  servers : s'.servers = Function.update s.servers sv server
  put : s'.put = s.put
  accounted : (s.servers sv).Accounted → server.Accounted
  moved : ∀ item, s'.handed.count item + server.loop.held.count item + s'.queue.count item ≤
    s.handed.count item + (s.servers sv).loop.held.count item + s.queue.count item
  started : ∀ item, server.tasks.count item + s.handed.count item ≤
    (s.servers sv).tasks.count item + s'.handed.count item

theorem accounted_new : TaskServer.new.Accounted := TokenChan.len_empty

theorem count_erase_add {queue : Collection Queue} {item : Queue} (hmem : item ∈ queue) (x : Queue) :
    (queue.erase item).count x + [item].count x = queue.count x := by
  rw [List.count_singleton, (List.perm_cons_erase hmem).count_eq x, List.count_cons]

/-- `Apply` takes the item out of the queue; without an address it is dropped. -/
theorem find_serverStep {item : Queue} (h : s.step (.find sv item) = some s') :
    ∃ server, ServerStep s s' sv server := by
  rw [TaskSystem.step] at h
  split at h
  case h_2 => exact absurd h (by simp)
  case h_1 hloop =>
    obtain ⟨hmem, rfl⟩ := guard_iff.mp h
    refine ⟨_, rfl, rfl, fun hacc => ?_, fun x => ?_, fun _ => le_refl _⟩
    · unfold TaskServer.Accounted at hacc ⊢
      rw [hloop] at hacc
      by_cases hip : item.ip = []
      · simp only [hip, if_true]
        exact hacc
      · simp only [hip, if_false]
        exact hacc
    · have hqueue := count_erase_add hmem x
      rw [hloop]
      by_cases hip : item.ip = []
      · simp only [TaskSystem.setServer, hip, if_true, TaskLoop.held, List.count_nil]
        omega
      · simp only [TaskSystem.setServer, hip, if_false, TaskLoop.held, List.count_nil]
        omega

/-- An item whose answer is lost is in nobody's hands. -/
theorem findLost_serverStep {item : Queue} (h : s.step (.findLost sv item) = some s') :
    ∃ server, ServerStep s s' sv server := by
  rw [TaskSystem.step] at h
  split at h
  case h_2 => exact absurd h (by simp)
  case h_1 hloop =>
    obtain ⟨hmem, rfl⟩ := guard_iff.mp h
    refine ⟨s.servers sv, (Function.update_eq_self _ _).symm, rfl, id, fun x => ?_,
      fun _ => le_refl _⟩
    have hqueue := count_erase_add hmem x
    dsimp only
    omega

/-- The loop takes a slot for the item that it holds. -/
theorem send_serverStep (h : s.step (.send sv) = some s') : ∃ server, ServerStep s s' sv server := by
  rw [TaskSystem.step] at h
  split at h
  case h_2 => exact absurd h (by simp)
  case h_1 res hloop =>
    obtain ⟨threadpool, hsend, rfl⟩ := Option.map_eq_some_iff.mp h
    have hlen := TokenChan.send_eq_some_iff.mp hsend
    refine ⟨_, rfl, rfl, fun hacc => ?_, fun x => ?_, fun _ => le_refl _⟩
    · unfold TaskServer.Accounted at hacc ⊢
      rw [hloop] at hacc
      rw [hlen, hacc]
      rfl
    · rw [hloop]
      exact le_refl _

/-- The loop hands the item over, and the slot to the new call. -/
theorem spawn_serverStep {env : SendEnv} {marshals : Bool}
    (h : s.step (.spawn sv env marshals) = some s') : ∃ server, ServerStep s s' sv server := by
  rw [TaskSystem.step] at h
  split at h
  case h_2 => exact absurd h (by simp)
  case h_1 res hloop =>
    obtain rfl := Option.some.inj h
    refine ⟨_, rfl, rfl, fun hacc => ?_, fun x => ?_, fun x => ?_⟩
    · unfold TaskServer.Accounted at hacc ⊢
      rw [hloop] at hacc
      simpa [TaskLoop.taken] using hacc
    · rw [hloop]
      simp only [TaskLoop.held, List.count_append, List.count_nil, TaskSystem.setServer]
      omega
    · simp only [TaskServer.tasks, List.map_append, List.map_cons, List.map_nil, List.count_append]
      omega

theorem call_serverStep {n : ℕ} (h : s.step (.call sv n) = some s') :
    ∃ server, ServerStep s s' sv server := by
  obtain ⟨call, hcall, rfl⟩ := Option.map_eq_some_iff.mp h
  refine ⟨_, rfl, rfl, fun hacc => ?_, fun _ => le_refl _, fun x => ?_⟩
  · unfold TaskServer.Accounted at hacc ⊢
    simpa using hacc
  · -- a call keeps its item
    have htasks : ((s.servers sv).calls.set n (SendCall.step (call, s.results)).1).map
        SendCall.task = (s.servers sv).calls.map SendCall.task := by
      rw [List.map_set]
      obtain ⟨hn, hget⟩ := List.getElem?_eq_some_iff.mp hcall
      refine List.ext_getElem (by simp) fun i h1 h2 => ?_
      rw [List.getElem_set]
      split_ifs with hi
      · subst hi
        rw [List.getElem_map, hget]
        rfl
      · rfl
    unfold TaskServer.tasks
    rw [htasks]
    exact le_refl _

/-- A call that has returned gives its slot back. -/
theorem free_serverStep {n : ℕ} (h : s.step (.free sv n) = some s') :
    ∃ server, ServerStep s s' sv server := by
  rw [TaskSystem.step] at h
  split at h
  case h_2 => exact absurd h (by simp)
  case h_1 hstage =>
    obtain ⟨call, hcall, -⟩ := Option.map_eq_some_iff.mp hstage
    obtain ⟨threadpool, hrecv, rfl⟩ := Option.map_eq_some_iff.mp h
    have hlen := TokenChan.recv_eq_some_iff.mp hrecv
    have hn : n < (s.servers sv).calls.length := (List.getElem?_eq_some_iff.mp hcall).1
    refine ⟨_, rfl, rfl, fun hacc => ?_, fun _ => le_refl _, fun x => ?_⟩
    · unfold TaskServer.Accounted at hacc ⊢
      rw [List.length_eraseIdx_of_lt hn]
      dsimp only
      omega
    · exact Nat.add_le_add_right
        (((List.eraseIdx_sublist (s.servers sv).calls n).map SendCall.task).count_le x) _

/-- A step puts an item, or it is one of a server. -/
theorem step_cases {e : TaskEvent ι} (h : s.step e = some s') :
    (∃ item, s' = { s with queue := s.queue ++ [item], put := s.put ++ [item] }) ∨
      ∃ sv server, ServerStep s s' sv server := by
  cases e with
  | put item => exact Or.inl ⟨item, (Option.some.inj h).symm⟩
  | findNone sv =>
    rw [TaskSystem.step] at h
    split at h
    case h_2 => exact absurd h (by simp)
    case h_1 =>
      obtain rfl := Option.some.inj h
      exact Or.inr ⟨sv, s.servers sv, (Function.update_eq_self _ _).symm, rfl, id,
        fun _ => le_refl _, fun _ => le_refl _⟩
  | find sv item => exact Or.inr ⟨sv, find_serverStep h⟩
  | findLost sv item => exact Or.inr ⟨sv, findLost_serverStep h⟩
  | send sv => exact Or.inr ⟨sv, send_serverStep h⟩
  | spawn sv env marshals => exact Or.inr ⟨sv, spawn_serverStep h⟩
  | call sv n => exact Or.inr ⟨sv, call_serverStep h⟩
  | free sv n => exact Or.inr ⟨sv, free_serverStep h⟩
  | restart sv =>
    obtain rfl := Option.some.inj h
    refine Or.inr ⟨sv, .new, rfl, rfl, fun _ => accounted_new, fun x => ?_, fun x => ?_⟩
    · simp only [TaskSystem.setServer, TaskServer.new, TaskLoop.held, List.count_nil]
      omega
    · exact Nat.add_le_add_right (Nat.zero_le _) _

theorem accounted_step {e : TaskEvent ι} (hacc : ∀ sv, (s.servers sv).Accounted)
    (h : s.step e = some s') : ∀ sv, (s'.servers sv).Accounted := by
  rcases step_cases h with ⟨item, rfl⟩ | ⟨sv, server, hserver⟩
  · exact hacc
  · intro sv'
    rw [hserver.servers]
    by_cases hsv : sv' = sv
    · subst hsv
      rw [Function.update_self]
      exact hserver.accounted (hacc sv')
    · rw [Function.update_of_ne hsv]
      exact hacc sv'

/-- A sum over servers of which one has changed. -/
theorem sum_update [Fintype ι] (servers : ι → TaskServer) (sv : ι) (server : TaskServer)
    (f : TaskServer → ℕ) :
    ∑ i, f (Function.update servers sv server i) + f (servers sv) =
      ∑ i, f (servers i) + f server := by
  have hrest : ∑ i ∈ Finset.univ.erase sv, f (Function.update servers sv server i) =
      ∑ i ∈ Finset.univ.erase sv, f (servers i) := by
    refine Finset.sum_congr rfl fun i hi => ?_
    rw [Function.update_of_ne (Finset.ne_of_mem_erase hi)]
  rw [← Finset.add_sum_erase _ _ (Finset.mem_univ sv), hrest, Function.update_self,
    ← Finset.add_sum_erase Finset.univ (fun i => f (servers i)) (Finset.mem_univ sv)]
  omega

theorem handedOnce_step [Fintype ι] {e : TaskEvent ι} (honce : s.HandedOnce)
    (h : s.step e = some s') : s'.HandedOnce := by
  intro item
  have hitem := honce item
  rcases step_cases h with ⟨item', rfl⟩ | ⟨sv, server, hserver⟩
  · simp only [List.count_append]
    omega
  · have hsum := sum_update s.servers sv server fun server => server.loop.held.count item
    have hmoved := hserver.moved item
    rw [hserver.servers, hserver.put]
    omega

theorem started_step [Fintype ι] {e : TaskEvent ι} (hstarted : s.Started)
    (h : s.step e = some s') : s'.Started := by
  intro item
  have hitem := hstarted item
  rcases step_cases h with ⟨item', rfl⟩ | ⟨sv, server, hserver⟩
  · exact hitem
  · have hsum := sum_update s.servers sv server fun server => server.tasks.count item
    have hcalls := hserver.started item
    rw [hserver.servers]
    omega

end Step

/-- No item is handed to `sendTask` more often than it was put into the queue, and every call works
on an item that was handed to it. On every server of a run the channel accounts for the calls, so there
are at most a hundred of them, and one that has returned can free its slot. -/
theorem dispatched_once {ι : Type*} [DecidableEq ι] [Fintype ι] (queue : Collection Queue)
    (results : Collection TaskResult) (es : List (TaskEvent ι)) (s : TaskSystem ι)
    (hrun : run TaskSystem.step (.start ι queue results) es = some s) :
    (∀ item, ∑ sv, (s.servers sv).tasks.count item ≤ s.handed.count item ∧
      s.handed.count item ≤ s.put.count item) ∧
      ∀ sv, (s.servers sv).calls.length ≤ 100 ∧ (s.servers sv).Accounted ∧
        ∀ n call, (s.servers sv).calls[n]? = some call → call.stage = .returned →
          ∃ s', s.step (.free sv n) = some s' ∧
            (s'.servers sv).threadpool.len + 1 = (s.servers sv).threadpool.len ∧
            (s'.servers sv).calls = (s.servers sv).calls.eraseIdx n := by
  have honce : s.HandedOnce := by
    refine run_invariant (fun _ _ _ h hstep => handedOnce_step h hstep) (fun item => ?_) hrun
    simp [TaskSystem.start, TaskServer.new, TaskLoop.held]
  have hstarted : s.Started := by
    refine run_invariant (fun _ _ _ h hstep => started_step h hstep) (fun item => ?_) hrun
    simp [TaskSystem.start, TaskServer.new, TaskServer.tasks]
  have hacc : ∀ sv, (s.servers sv).Accounted := by
    refine run_invariant (I := fun s : TaskSystem ι => ∀ sv, (s.servers sv).Accounted)
      (fun _ _ _ h hstep => accounted_step h hstep) (fun sv => ?_) hrun
    exact accounted_new
  refine ⟨fun item => ⟨hstarted item, ?_⟩, fun sv => ⟨?_, hacc sv, ?_⟩⟩
  · have hitem := honce item
    omega
  · have hlen := (s.servers sv).threadpool.len_le
    have hcalls : _ = _ := hacc sv
    omega
  · intro n call hcall hstage
    have hn : n < (s.servers sv).calls.length := (List.getElem?_eq_some_iff.mp hcall).1
    have hcalls : _ = _ := hacc sv
    obtain ⟨threadpool, hrecv, hlen⟩ := TokenChan.exists_recv
      (show (s.servers sv).threadpool.len ≠ 0 by omega)
    refine ⟨s.setServer sv { s.servers sv with
      threadpool := threadpool, calls := (s.servers sv).calls.eraseIdx n }, ?_, ?_, ?_⟩
    · simp only [TaskSystem.step, hcall, hstage, hrecv, Option.map_some]
    · simp only [TaskSystem.setServer, Function.update_self]
      omega
    · simp only [TaskSystem.setServer, Function.update_self]

/-- The same command for another host. -/
def otherItem : Queue := { reloadItem with id := str "item-0000002", ip := str "10.0.0.8" }

/-- Two servers take an item each. The host of the first one is not reachable, and its call has
returned at the end. -/
def twoServersRun : List (TaskEvent Bool) :=
  [.find false reloadItem, .put otherItem, .send false, .find true otherItem,
    .spawn false unreachableEnv true, .call false 0, .call false 0, .send true, .call false 0,
    .spawn true reloadedEnv true]

theorem dispatched_once_two_servers :
    ∃ s, run TaskSystem.step (.start Bool [reloadItem] []) twoServersRun = some s ∧
      s.handed = [reloadItem, otherItem] ∧
      (∀ item, ∑ sv, (s.servers sv).tasks.count item ≤ s.handed.count item ∧
        s.handed.count item ≤ s.put.count item) ∧
        ∀ sv, (s.servers sv).calls.length ≤ 100 ∧ (s.servers sv).Accounted ∧
          ∀ n call, (s.servers sv).calls[n]? = some call → call.stage = .returned →
            ∃ s', s.step (.free sv n) = some s' ∧
              (s'.servers sv).threadpool.len + 1 = (s.servers sv).threadpool.len ∧
              (s'.servers sv).calls = (s.servers sv).calls.eraseIdx n :=
  ⟨_, rfl, rfl, dispatched_once [reloadItem] [] twoServersRun _ rfl⟩

end YulongHids.Server
