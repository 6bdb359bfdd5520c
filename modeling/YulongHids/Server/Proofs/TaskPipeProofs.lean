import YulongHids.Golang.Proofs.Base64Proofs
import YulongHids.Golang.Proofs.JsonProofs
import YulongHids.Daemon.TaskPipe
import YulongHids.Daemon.Proofs.RsaProofs
import YulongHids.Daemon.Proofs.TaskProofs
import YulongHids.Server.TaskPipe
import YulongHids.Server.Proofs.TaskProofs

/-!
# A task from the queue to the daemon and its result back

The server's line carries the task through JSON, RSA and base 64, and the daemon's line carries the
result back through JSON. What arrives is what was sent, with bytes that are no UTF-8 coerced.
-/

namespace YulongHids.Server

open Golang Mongo Rsa

/-! ## The way to the daemon -/

section Line

variable {priv : PrivateKey} {random : Option (List (Except GoString ℕ))}

theorem rsaEncrypt_long {msg : GoString} (h : keyLen priv.n < msg.length + 11) :
    rsaEncrypt random (.ok priv) msg = some (.error (str "data length error")) := by
  rw [rsaEncrypt]
  exact priKeyEncrypt_long h

/-- What is encrypted is decrypted by the public key. -/
theorem pubKeyDecrypt_rsaEncrypt (hk : 11 ≤ keyLen priv.n) (hpair : ExponentPair priv.n priv.e priv.d)
    (hpre : ∀ pre, priv.precomputed = some pre → pre.Consistent priv) {msg : GoString}
    {c : List UInt8} (hc : rsaEncrypt random (.ok priv) msg = some (.ok c)) :
    Daemon.pubKeyDecrypt ⟨priv.n, priv.e⟩ c = some (.ok msg) := by
  have hn := keyLen_pos_modulus hk
  have hfit : msg.length + 11 ≤ keyLen priv.n := by
    by_contra hlong
    rw [rsaEncrypt_long (not_le.mp hlong)] at hc
    cases hc
  rw [rsaEncrypt] at hc
  have hfactor := priKeyEncrypt_ok_factor hc
  rw [priKeyEncrypt_eq hn hpair hpre hfactor hfit, Option.some.injEq, Except.ok.injEq] at hc
  exact (Daemon.pubKeyDecrypt_encrypted hn hpair hfit hc.symm).2

theorem takeWhile_line {s : GoString} (h : 10 ∉ s) (t : GoString) :
    (s ++ 10 :: t).takeWhile (· ≠ 10) = s := by
  induction s with
  | nil => rfl
  | cons b s ih =>
    rw [List.mem_cons, not_or] at h
    rw [List.cons_append, List.takeWhile_cons_of_pos (by simpa using Ne.symm h.1), ih h.2]

/-- The line of the server is decoded to what was encrypted. -/
theorem receiveTask_taskLine {key : Daemon.ParsedKey} {c : List UInt8} {msg : GoString}
    (h : Daemon.rsaDecrypt key c = some (.ok msg)) :
    Daemon.receiveTask key (taskLine c) = Daemon.readTask msg := by
  have hno : 10 ∉ Base64.encodeToString c := by
    intro hmem
    exact absurd (Base64.encodeToString_no_newline c 10 hmem) (by decide)
  have hmem : 10 ∈ taskLine c := List.mem_append_right _ (List.mem_singleton_self 10)
  have hline : (taskLine c).takeWhile (· ≠ 10) ++ [10] = taskLine c := by
    rw [taskLine, takeWhile_line hno]
  rw [Daemon.receiveTask, if_pos hmem]
  simp only
  rw [hline, taskLine, Base64.decodeString_line, h]

theorem coerceUTF8_names : ∀ k ∈ [str "type", str "command", str "status", str "data"],
    coerceUTF8 k = k := by decide

/-- The map of a task as the daemon reads it. -/
theorem unmarshalMap_sendData (task : Queue) :
    ∃ taskData : Record, Json.unmarshalMap (Json.marshalMap (sendData task)) = some taskData ∧
      taskData.get (str "type") = coerceUTF8 task.type ∧
      taskData.get (str "command") = coerceUTF8 task.command := by
  have hne : str "type" ≠ str "command" := by decide
  have hvalid : ∀ k ∈ sendData task, coerceUTF8 k = k := by
    intro k hk
    rw [sendData, AList.mem_insert, AList.mem_insert] at hk
    refine coerceUTF8_names k ?_
    rcases hk with rfl | rfl | hk
    · simp
    · simp
    · cases hk
  obtain ⟨taskData, hread, hlookup⟩ := Json.unmarshalMap_marshalMap _ hvalid
  refine ⟨taskData, hread, ?_, ?_⟩
  · rw [Record.get, hlookup, sendData, AList.lookup_insert_ne hne, AList.lookup_insert]
    rfl
  · rw [Record.get, hlookup, sendData, AList.lookup_insert]
    rfl

/-- The daemon gets the task of the item, its texts coerced. -/
theorem receiveTask_encrypted (hk : 11 ≤ keyLen priv.n) (hpair : ExponentPair priv.n priv.e priv.d)
    (hpre : ∀ pre, priv.precomputed = some pre → pre.Consistent priv) (task : Queue)
    {c : List UInt8}
    (hc : rsaEncrypt random (.ok priv) (Json.marshalMap (sendData task)) = some (.ok c)) :
    Daemon.receiveTask (.rsa ⟨priv.n, priv.e⟩) (taskLine c) =
      .task (Daemon.newTask (coerceUTF8 task.type) (coerceUTF8 task.command)) := by
  obtain ⟨taskData, hread, htype, hcommand⟩ := unmarshalMap_sendData task
  have hdecrypt : Daemon.rsaDecrypt (.rsa ⟨priv.n, priv.e⟩) c =
      some (.ok (Json.marshalMap (sendData task))) := pubKeyDecrypt_rsaEncrypt hk hpair hpre hc
  rw [receiveTask_taskLine hdecrypt, Daemon.readTask, hread]
  simp only
  rw [htype, hcommand]

end Line

/-! ## The way back -/

/-- The keys of a result. -/
def IsResult (result : Record) : Prop := ∀ k ∈ result, k = str "status" ∨ k = str "data"

theorem IsResult.insert {result : Record} (h : IsResult result) {k : GoString}
    (hk : k = str "status" ∨ k = str "data") (v : GoString) : IsResult (result.insert k v) := by
  intro k' hk'
  rw [AList.mem_insert] at hk'
  rcases hk' with rfl | hk'
  · exact hk
  · exact h k' hk'

theorem isResult_newTask (type command : GoString) :
    IsResult (Daemon.newTask type command).result := by
  refine IsResult.insert (IsResult.insert ?_ (Or.inl rfl) _) (Or.inr rfl) _
  intro k hk
  cases hk

/-- Every task leaves a result with a status and data and nothing else. -/
theorem isResult_run (env : Daemon.TaskEnv) (t : Daemon.Task) (h : IsResult t.result)
    {result : Record} (hrun : t.run env = some result) : IsResult result := by
  have hset : ∀ {r : Record} {status data : GoString}, IsResult r →
      IsResult ((r.insert (str "status") status).insert (str "data") data) :=
    fun hr => (hr.insert (Or.inl rfl) _).insert (Or.inr rfl) _
  have hdata : ∀ {r : Record} {data : GoString}, IsResult r → IsResult (r.insert (str "data") data) :=
    fun hr => hr.insert (Or.inr rfl) _
  unfold Daemon.Task.run at hrun
  split_ifs at hrun
  · unfold Daemon.Task.reload at hrun
    split at hrun
    · cases hrun
    · rw [← Option.some.inj hrun]
      exact h.insert (Or.inl rfl) _
    · rw [← Option.some.inj hrun]
      exact hset (h.insert (Or.inl rfl) _)
  · rw [← Option.some.inj hrun, Daemon.Task.kill]
    split_ifs
    · exact hset h
    · exact h
  · unfold Daemon.Task.update at hrun
    split at hrun
    · cases hrun
    · rw [← Option.some.inj hrun]
      exact hdata h
    · rw [← Option.some.inj hrun]
      exact hset h
    · rw [← Option.some.inj hrun]
      exact hset h
  · rw [← Option.some.inj hrun]
    unfold Daemon.Task.delete
    split
    · exact hset h
    · exact hdata h
  · rw [← Option.some.inj hrun]
    exact h

theorem foldName_fields : foldName (str "status") = str "status" ∧
    foldName (str "data") = str "data" := by decide

/-- Members for the status and the data go into these fields and leave the others. -/
theorem foldlM_unmarshalField (decoders : FieldDecoders) (g : GoString → GoString)
    (ks : List GoString) (hks : ∀ k ∈ ks, k = str "status" ∨ k = str "data") (res : TaskResult) :
    (ks.map fun k => Json.coercedMember (k, g k)).foldlM (unmarshalField decoders) res =
      some { res with
        status := if str "status" ∈ ks then coerceUTF8 (g (str "status")) else res.status
        data := if str "data" ∈ ks then coerceUTF8 (g (str "data")) else res.data } := by
  have hne : str "status" ≠ str "data" := by decide
  induction ks generalizing res with
  | nil => rfl
  | cons k ks ih =>
    rw [List.forall_mem_cons] at hks
    rw [List.map_cons, List.foldlM_cons]
    rcases hks.1 with rfl | rfl
    · have hstep : unmarshalField decoders res (Json.coercedMember (str "status", g (str "status"))) =
          some { res with status := coerceUTF8 (g (str "status")) } := by
        rw [Json.coercedMember, coerceUTF8_names _ (by simp), unmarshalField, foldName_fields.1]
        rfl
      rw [hstep, Option.bind_eq_bind, Option.bind_some, ih hks.2]
      simp [hne.symm]
    · have hstep : unmarshalField decoders res (Json.coercedMember (str "data", g (str "data"))) =
          some { res with data := coerceUTF8 (g (str "data")) } := by
        rw [Json.coercedMember, coerceUTF8_names _ (by simp), unmarshalField, foldName_fields.2]
        rfl
      rw [hstep, Option.bind_eq_bind, Option.bind_some, ih hks.2]
      simp [hne]

theorem get_eq_nil {m : Record} {k : GoString} (h : k ∉ m) : m.get k = [] := by
  rw [Record.get, AList.lookup_eq_none.mpr h]
  rfl

/-- The server reads the status and the data of a result, coerced. -/
theorem unmarshalResult_marshalMap (decoders : FieldDecoders) {result : Record}
    (h : IsResult result) :
    unmarshalResult decoders (Json.marshalMap result ++ [10]) =
      some ⟨[], [], coerceUTF8 (result.get (str "status")),
        coerceUTF8 (result.get (str "data")), 0⟩ := by
  have hkeys : ∀ k ∈ sortStrings result.keys, k = str "status" ∨ k = str "data" :=
    fun k hk => h k (AList.mem_keys.mpr (Json.mem_sortStrings.mp hk))
  have hget : ∀ k, (if k ∈ sortStrings result.keys then coerceUTF8 (result.get k) else []) =
      coerceUTF8 (result.get k) := by
    intro k
    by_cases hk : k ∈ result
    · rw [if_pos (Json.mem_sortStrings.mpr (AList.mem_keys.mp hk))]
    · rw [if_neg fun h => hk (AList.mem_keys.mpr (Json.mem_sortStrings.mp h)), get_eq_nil hk]
      rfl
  rw [unmarshalResult, Json.decode_marshalMap result rfl]
  simp only [Json.sortedEntries, List.map_map]
  have hfold := foldlM_unmarshalField decoders result.get _ hkeys ⟨[], [], [], [], 0⟩
  rw [hget, hget] at hfold
  exact hfold

theorem readString_reply (result : Record) (err : GoString) :
    readString (Json.marshalMap result ++ [10], err) = .ok (Json.marshalMap result ++ [10]) := by
  have hmem : 10 ∈ Json.marshalMap result ++ [10] :=
    List.mem_append_right _ (List.mem_singleton_self 10)
  rw [readString, if_pos hmem, takeWhile_line (Json.marshalMap_no_newline result)]

/-! ## The whole exchange -/

section Exchange

variable {env : SendEnv} {denv : Daemon.TaskEnv} {priv : PrivateKey}
  {random : Option (List (Except GoString ℕ))} {decoders : FieldDecoders} {err : GoString}
  {task : Queue} {results : Collection TaskResult}

/-- A task that the daemon answers is recorded with the status and the data of its result. -/
theorem sendTask_reply (hk : 11 ≤ keyLen priv.n) (hpair : ExponentPair priv.n priv.e priv.d)
    (hpre : ∀ pre, priv.precomputed = some pre → pre.Consistent priv)
    (hins : ∀ r, env.insertError r = none)
    (henv : env.Connected random (.ok priv) decoders
      (daemonEnd denv (.rsa ⟨priv.n, priv.e⟩) err))
    (hdial : env.dial (task.ip ++ str ":65512") = none) {c : List UInt8}
    (hc : rsaEncrypt random (.ok priv) (Json.marshalMap (sendData task)) = some (.ok c))
    {result : Record}
    (hrun : (Daemon.newTask (coerceUTF8 task.type) (coerceUTF8 task.command)).run denv = some result) :
    sendTask env task results =
      results ++ [⟨task.taskID, task.ip, coerceUTF8 (result.get (str "status")),
        coerceUTF8 (result.get (str "data")), env.now⟩] := by
  have hencrypt : env.rsaEncrypt (env.marshal (sendData task)) = .ok c := by
    rw [henv.marshal]
    exact henv.encrypt _ _ hc
  have hpipe : Daemon.tcpPipe denv (.rsa ⟨priv.n, priv.e⟩) (taskLine c) =
      some (Json.marshalMap result ++ [10]) := by
    rw [Daemon.tcpPipe, receiveTask_encrypted hk hpair hpre task hc]
    simp only
    rw [hrun, Option.map_some]
  have hread : readString (env.exchange c) = .ok (Json.marshalMap result ++ [10]) := by
    rw [henv.exchange, daemonEnd, hpipe]
    exact readString_reply result err
  have hres := henv.unmarshal _ _
    (unmarshalResult_marshalMap decoders (isResult_run denv _ (isResult_newTask _ _) hrun))
  simp only [sendTask, hdial, hencrypt, hread, hres, insert_eq hins]

/-- A task that ends the daemon leaves an error in the name of the item. -/
theorem sendTask_ended (hk : 11 ≤ keyLen priv.n) (hpair : ExponentPair priv.n priv.e priv.d)
    (hpre : ∀ pre, priv.precomputed = some pre → pre.Consistent priv)
    (henv : env.Connected random (.ok priv) decoders
      (daemonEnd denv (.rsa ⟨priv.n, priv.e⟩) err))
    (hdial : env.dial (task.ip ++ str ":65512") = none) {c : List UInt8}
    (hc : rsaEncrypt random (.ok priv) (Json.marshalMap (sendData task)) = some (.ok c))
    (hrun : (Daemon.newTask (coerceUTF8 task.type) (coerceUTF8 task.command)).run denv = none) :
    sendTask env task results = saveError env task err results := by
  have hencrypt : env.rsaEncrypt (env.marshal (sendData task)) = .ok c := by
    rw [henv.marshal]
    exact henv.encrypt _ _ hc
  have hpipe : Daemon.tcpPipe denv (.rsa ⟨priv.n, priv.e⟩) (taskLine c) = none := by
    rw [Daemon.tcpPipe, receiveTask_encrypted hk hpair hpre task hc]
    simp only
    rw [hrun, Option.map_none]
  have hread : readString (env.exchange c) = .error err := by
    rw [henv.exchange, daemonEnd, hpipe]
    rfl
  simp only [sendTask, hdial, hencrypt, hread]

end Exchange

/-- For every item of the queue: a task that is too long for the key is not sent, and the daemon makes
of every line that is sent the task of the item with its texts coerced, so the very task exactly if
both texts are valid UTF-8. -/
theorem task_delivered (priv : PrivateKey) (hk : 11 ≤ keyLen priv.n)
    (hpair : ExponentPair priv.n priv.e priv.d)
    (hpre : ∀ pre, priv.precomputed = some pre → pre.Consistent priv)
    (random : Option (List (Except GoString ℕ))) (task : Queue) :
    (keyLen priv.n - 11 < (Json.marshalMap (sendData task)).length →
        ∃ err, rsaEncrypt random (.ok priv) (Json.marshalMap (sendData task)) = some (.error err)) ∧
      ∀ c, rsaEncrypt random (.ok priv) (Json.marshalMap (sendData task)) = some (.ok c) →
        Daemon.receiveTask (.rsa ⟨priv.n, priv.e⟩) (taskLine c) =
            .task (Daemon.newTask (coerceUTF8 task.type) (coerceUTF8 task.command)) ∧
          (Daemon.receiveTask (.rsa ⟨priv.n, priv.e⟩) (taskLine c) =
              .task (Daemon.newTask task.type task.command) ↔
            validString task.type = true ∧ validString task.command = true) := by
  constructor
  · intro hlong
    exact ⟨_, rsaEncrypt_long (by omega)⟩
  · intro c hc
    have hreceived := receiveTask_encrypted hk hpair hpre task hc
    refine ⟨hreceived, ?_⟩
    rw [hreceived, Daemon.Received.task.injEq, Daemon.newTask, Daemon.newTask,
      Daemon.Task.mk.injEq, coerceUTF8_eq_iff, coerceUTF8_eq_iff]
    simp only [and_true]

/-- A task that is sent to a daemon with the public key leaves one record in `task_result`, the one of
its `Run`, with the texts coerced. -/
theorem sendTask_daemon (env : SendEnv) (denv : Daemon.TaskEnv) (priv : PrivateKey)
    (random : Option (List (Except GoString ℕ))) (decoders : FieldDecoders) (err : GoString)
    (hk : 11 ≤ keyLen priv.n) (hpair : ExponentPair priv.n priv.e priv.d)
    (hpre : ∀ pre, priv.precomputed = some pre → pre.Consistent priv)
    (hrandom : ∀ draws, random = some draws → DeliversFactor priv.n draws)
    (henv : env.Connected random (.ok priv) decoders
      (daemonEnd denv (.rsa ⟨priv.n, priv.e⟩) err))
    (hins : ∀ r, env.insertError r = none) (task : Queue)
    (hdial : env.dial (task.ip ++ str ":65512") = none) (results : Collection TaskResult) :
    sendTask env task results = results ++ [taskRecord env denv (keyLen priv.n) err task] := by
  rw [taskRecord]
  split_ifs with hfit
  · have hn := keyLen_pos_modulus hk
    have hfactor := fun draws h => blindingFactor_delivers (hrandom draws h)
    obtain ⟨c, hc⟩ : ∃ c, rsaEncrypt random (.ok priv) (Json.marshalMap (sendData task)) =
        some (.ok c) := by
      rw [rsaEncrypt]
      exact ⟨_, priKeyEncrypt_eq hn hpair hpre hfactor (by omega)⟩
    cases hrun : (Daemon.newTask (coerceUTF8 task.type) (coerceUTF8 task.command)).run denv with
    | some result => exact sendTask_reply hk hpair hpre hins henv hdial hc hrun
    | none =>
      rw [sendTask_ended hk hpair hpre henv hdial hc hrun]
      exact saveError_eq hins err
  · have hlong : rsaEncrypt random (.ok priv) (Json.marshalMap (sendData task)) =
        some (.error (str "data length error")) := rsaEncrypt_long (by omega)
    have hencrypt : env.rsaEncrypt (env.marshal (sendData task)) =
        .error (str "data length error") := by
      rw [henv.marshal]
      exact henv.encrypt _ _ hlong
    have hsend : sendTask env task results = saveError env task (str "data length error") results := by
      simp only [sendTask, hdial, hencrypt]
    rw [hsend]
    exact saveError_eq hins _

/-! ## A key and a task -/

/-- The Mersenne primes of 127, 107, 89 and 61 bits. -/
def longPrimes : List ℕ :=
  [170141183460469231731687303715884105727, 162259276829213363391578010288127,
    618970019642690137449562111, 2305843009213693951]

theorem longPrimes_prime : ∀ p ∈ longPrimes, p.Prime := by
  have h127 : (mersenne 127).Prime := lucas_lehmer_sufficiency 127 (by norm_num) (by norm_num)
  have h107 : (mersenne 107).Prime := lucas_lehmer_sufficiency 107 (by norm_num) (by norm_num)
  have h89 : (mersenne 89).Prime := lucas_lehmer_sufficiency 89 (by norm_num) (by norm_num)
  have h61 : (mersenne 61).Prime := lucas_lehmer_sufficiency 61 (by norm_num) (by norm_num)
  have hprimes : longPrimes = [mersenne 127, mersenne 107, mersenne 89, mersenne 61] := by
    norm_num [longPrimes, mersenne]
  rw [hprimes]
  simp only [List.forall_mem_cons, List.not_mem_nil, false_implies, implies_true, and_true]
  exact ⟨h127, h107, h89, h61⟩

/-- Their key, which has 48 bytes. -/
def longKey : PrivateKey where
  n := longPrimes.prod
  e := 65537
  d := 828874598691805242305020167023599490285581211207433 * 10 ^ 60 +
    620689347707135308071832941118533431678562206216706431794073
  primes := longPrimes
  precomputed := none

theorem longKey_pair : ExponentPair longKey.n longKey.e longKey.d := by
  refine exponentPair_of_primes longPrimes_prime (by decide) (by decide) ?_
  simp only [longPrimes, List.forall_mem_cons, List.not_mem_nil, false_implies, implies_true,
    and_true]
  exact ⟨by decide, by decide, by decide, by decide⟩

theorem longKey_precomputed : ∀ pre, longKey.precomputed = some pre → pre.Consistent longKey :=
  nofun

/-- A task to remove a file, whose name has a byte that is no UTF-8. -/
def deleteTask : Queue := ⟨[1], [2], str "10.0.0.5", str "delete", [47, 255], 0⟩

/-- It is sent, and the daemon gets it with the bad byte coerced. -/
theorem task_delivered_longKey :
    ∃ c, rsaEncrypt none (.ok longKey) (Json.marshalMap (sendData deleteTask)) = some (.ok c) ∧
      Daemon.receiveTask (.rsa ⟨longKey.n, longKey.e⟩) (taskLine c) =
        .task (Daemon.newTask (str "delete") [47, 0xEF, 0xBF, 0xBD]) := by
  obtain ⟨c, hc⟩ : ∃ c, rsaEncrypt none (.ok longKey) (Json.marshalMap (sendData deleteTask)) =
      some (.ok c) := by
    rw [rsaEncrypt]
    exact ⟨_, priKeyEncrypt_eq (by decide) longKey_pair longKey_precomputed (fun _ h => by cases h) (by decide)⟩
  exact ⟨c, hc, ((task_delivered longKey (by decide) longKey_pair longKey_precomputed none deleteTask).2 c hc).1⟩

/-- An answer with the text of its error. -/
def namedError (res : Option TaskResult) : Except GoString TaskResult :=
  res.elim (.error (str "invalid character")) .ok

/-- The server of the task, whose connections end with `EOF`. -/
def deleteEnv : SendEnv where
  marshal := Json.marshalMap
  dial _ := none
  rsaEncrypt origData := (rsaEncrypt none (.ok longKey) origData).getD (.error [])
  exchange c := daemonEnd Daemon.linuxHost (.rsa ⟨longKey.n, longKey.e⟩) (str "EOF") (taskLine c)
  unmarshal msg := namedError (unmarshalResult ⟨fun _ => none, fun _ => none⟩ msg)
  now := 5
  insertError _ := none

theorem deleteEnv_connected :
    deleteEnv.Connected none (.ok longKey) ⟨fun _ => none, fun _ => none⟩
      (daemonEnd Daemon.linuxHost (.rsa ⟨longKey.n, longKey.e⟩) (str "EOF")) where
  marshal := rfl
  encrypt origData r h := by
    show (rsaEncrypt none (.ok longKey) origData).getD (.error []) = r
    rw [h]
    rfl
  exchange _ := rfl
  unmarshal msg res h := by
    show namedError (unmarshalResult _ msg) = .ok res
    rw [h]
    rfl
  unmarshalError msg h := by
    refine ⟨str "invalid character", ?_⟩
    show namedError (unmarshalResult _ msg) = _
    rw [h]
    rfl

/-- The removal is recorded as done. -/
theorem sendTask_daemon_longKey :
    sendTask deleteEnv deleteTask [] =
      [⟨[2], str "10.0.0.5", str "true", [47, 0xEF, 0xBF, 0xBD] ++ str " 删除成功", 5⟩] := by
  rw [sendTask_daemon deleteEnv Daemon.linuxHost longKey none ⟨fun _ => none, fun _ => none⟩
    (str "EOF") (by decide) longKey_pair longKey_precomputed nofun deleteEnv_connected (fun _ => rfl) deleteTask
    rfl []]
  decide

end YulongHids.Server
