import YulongHids.Agent.ExecEvents
import YulongHids.Agent.Proofs.ProcessMonitorProofs
import YulongHids.Golang.Proofs.StringsProofs

/-!
# Proofs: exec events from the kernel to the agent

The agent keeps at most 254 bytes of a message and always drops its last byte. The fields it reads
are those of that part of the message.
-/

namespace YulongHids.Agent

open Golang SyscallHook

variable {e : ExecEvent}

theorem atoi_parentTgid (e : ExecEvent) : (atoi (itoa e.parentTgid)).1 = (e.parentTgid : ℤ) := by
  rw [atoi_itoa (lt_trans e.parentTgid_lt (by norm_num))]

/-! ## The message and the datagram -/

theorem length_message (e : ExecEvent) :
    e.message.length = e.head.length + 1 + e.env.length := by
  simp only [ExecEvent.message, List.length_append, List.length_cons]
  omega

theorem length_copyText (p : Option GoString) : (copyText p).length ≤ (p.getD []).length + 3 := by
  cases p with
  | none => decide
  | some s => simp [copyText]

/-- The buffer of the hook is large enough for the first 255 bytes of the message, or for the whole
message. -/
theorem le_nlSendLen (e : ExecEvent) : min e.message.length 255 ≤ e.nlSendLen - 1 := by
  have htgid : (itoa e.tgid).length ≤ 10 :=
    length_itoa_le (by norm_num) (lt_trans e.tgid_lt (by norm_num))
  have hppid : (itoa e.parentTgid).length ≤ 10 :=
    length_itoa_le (by norm_num) (lt_trans e.parentTgid_lt (by norm_num))
  have hargs := length_copyText e.total_argc
  have henv := length_copyText e.total_envpc
  have hlen := length_message e
  simp only [ExecEvent.head, ExecEvent.args, ExecEvent.env, List.length_append,
    List.length_cons] at hlen
  simp only [ExecEvent.nlSendLen, PATH_MAX]
  omega

theorem message_terminated (e : ExecEvent) : 0 ∉ e.message := by
  have hcopy : ∀ p : Option GoString, (∀ s, p = some s → 0 ∉ s) → (0 : UInt8) ∉ copyText p := by
    intro p hp
    cases p with
    | none => decide
    | some s => exact hp s rfl
  have hnum : ∀ n, (0 : UInt8) ∉ itoa n := fun n => not_mem_itoa (by decide)
  simp only [ExecEvent.message, ExecEvent.head, ExecEvent.args, ExecEvent.env, List.mem_append,
    List.mem_cons, not_or]
  exact ⟨⟨⟨⟨⟨e.path_terminated, by decide, hcopy _ e.argc_terminated⟩, by decide, hnum _⟩, by decide,
    e.comm_terminated⟩, by decide, hnum _⟩, by decide, hcopy _ e.envpc_terminated⟩

/-- What the agent reads into its buffer. -/
theorem readFromUDP_datagram (e : ExecEvent) : readFromUDP e.datagram = e.message.take 255 := by
  have hall : e.datagram = e.payload := by
    rw [ExecEvent.datagram, List.takeWhile_eq_self_iff]
    intro b hb
    have hne : b ≠ 0 := by
      rintro rfl
      exact message_terminated e (List.mem_of_mem_take hb)
    simpa using hne
  rw [readFromUDP, hall, ExecEvent.payload, List.take_take]
  have hle := le_nlSendLen e
  rcases Nat.le_total e.message.length 255 with h | h
  · rw [List.take_of_length_le h, List.take_of_length_le (by omega)]
  · congr 1
    omega

/-- How much of the message the agent keeps. -/
def keptLen (e : ExecEvent) : ℕ := min e.message.length 255 - 1

theorem messageFields_datagram (e : ExecEvent) :
    messageFields e.datagram = split (e.message.take (keptLen e)) 1 := by
  rw [messageFields, proList, readFromUDP_datagram, List.dropLast_eq_take, List.take_take,
    List.length_take, keptLen]
  congr 2
  omega

/-- One iteration of the loop on the datagram of an event. -/
theorem monitorTurn_datagram {txt : TextLib} {filter : List GoString} {getpid : ℤ}
    {resultdata : Record} (e : ExecEvent) :
    monitorTurn txt filter getpid resultdata (readFromUDP e.datagram) =
      if (messageFields e.datagram).length ≤ 5 then .skip
      else if (atoi ((messageFields e.datagram).getD 4 [])).1 = getpid then .skip
      else if filtered txt filter resultdata then .skip
      else .send (messageRecord e.datagram) := by
  have hne : readFromUDP e.datagram ≠ [] := by
    rw [readFromUDP_datagram, Ne, List.take_eq_nil_iff, not_or]
    refine ⟨by decide, ?_⟩
    rw [ExecEvent.message]
    simp
  rw [monitorTurn, if_neg hne]
  rfl

/-- Without a filter a datagram is a record or nothing. -/
theorem startProcessMonitor_datagram {txt : TextLib} {getpid : ℤ} (e : ExecEvent) :
    startProcessMonitor txt [] getpid [e.datagram] =
      if (messageFields e.datagram).length ≤ 5 ∨
          (atoi ((messageFields e.datagram).getD 4 [])).1 = getpid then ⟨[], false⟩
      else ⟨[messageRecord e.datagram], false⟩ := by
  have hfilter : filtered txt [] ∅ = false := rfl
  rw [startProcessMonitor, monitorLoop, monitorTurn_datagram, hfilter]
  by_cases hlen : (messageFields e.datagram).length ≤ 5
  · rw [if_pos hlen, if_pos (Or.inl hlen)]
    rfl
  by_cases hpid : (atoi ((messageFields e.datagram).getD 4 [])).1 = getpid
  · rw [if_neg hlen, if_pos hpid, if_pos (Or.inr hpid)]
    rfl
  · rw [if_neg hlen, if_neg hpid, if_neg (not_or.mpr ⟨hlen, hpid⟩), if_neg (by simp)]
    rfl

/-- An event is recorded if its message passes the two tests and the record shows it. -/
theorem recorded_iff {txt : TextLib} {getpid : ℤ} :
    Recorded txt getpid e ↔
      ¬ ((messageFields e.datagram).length ≤ 5 ∨
        (atoi ((messageFields e.datagram).getD 4 [])).1 = getpid) ∧
      Shows e (messageRecord e.datagram) := by
  rw [Recorded, startProcessMonitor_datagram]
  constructor
  · rintro ⟨r, hr, hshows⟩
    split at hr
    · simp at hr
    · next hsend =>
      simp only [MonitorRun.mk.injEq, List.cons.injEq, and_true] at hr
      exact ⟨hsend, hr ▸ hshows⟩
  · rintro ⟨hsend, hshows⟩
    exact ⟨_, if_neg hsend, hshows⟩

section Fields

variable {p : List GoString}

theorem processRecord_name : (processRecord p).get (str "name") = p.getD 0 [] := by
  simp [processRecord, Record.get_insert_ne]

theorem processRecord_command :
    (processRecord p).get (str "command") = p.getD 0 [] ++ str " " ++ p.getD 1 [] := by
  simp [processRecord, Record.get_insert_ne]

theorem processRecord_pid : (processRecord p).get (str "pid") = p.getD 2 [] := by
  simp [processRecord, Record.get_insert_ne]

theorem processRecord_parentname : (processRecord p).get (str "parentname") = p.getD 3 [] := by
  simp [processRecord, Record.get_insert_ne]

theorem processRecord_ppid : (processRecord p).get (str "ppid") = p.getD 4 [] := by
  simp [processRecord, Record.get_insert_ne]

theorem processRecord_info :
    (processRecord p).get (str "info") = if p.length = 6 then p.getD 5 [] else [] := by
  simp [processRecord]

end Fields

theorem kernelFields_messageRecord_iff :
    KernelFields e (messageRecord e.datagram) ↔
      (messageFields e.datagram).getD 2 [] = itoa e.tgid ∧
        (messageFields e.datagram).getD 3 [] = e.parentComm ∧
        (messageFields e.datagram).getD 4 [] = itoa e.parentTgid := by
  constructor
  · intro h
    exact ⟨processRecord_pid.symm.trans h.pid, processRecord_parentname.symm.trans h.parentname,
      processRecord_ppid.symm.trans h.ppid⟩
  · rintro ⟨hpid, hparentname, hppid⟩
    exact ⟨processRecord_pid.trans hpid, processRecord_parentname.trans hparentname,
      processRecord_ppid.trans hppid⟩

/-! ## The captured environment -/

theorem catUser_blank {keep : GoString → Bool} {size : ℕ} {total : GoString}
    {strings : List GoString} (h : total = [] ∨ total.getLast? = some 32) :
    catUser keep size total strings = [] ∨
      (catUser keep size total strings).getLast? = some 32 := by
  induction strings generalizing total with
  | nil => exact h
  | cons userString rest ih =>
    rw [catUser]
    split
    · exact h
    split
    · exact ih (Or.inr List.getLast?_concat)
    · exact ih h

/-- A captured environment ends with a blank, unless no variable was captured or there are none. -/
theorem totalEnvpc_blank (envp : List GoString) :
    copyText (totalEnvpc envp) = str "N/A" ∨ copyText (totalEnvpc envp) = [] ∨
      (copyText (totalEnvpc envp)).getLast? = some 32 := by
  unfold totalEnvpc
  split
  · exact Or.inl rfl
  · exact Or.inr (catUser_blank (Or.inl rfl))

/-! ## Events without separators -/

theorem split_head (h : SeparatorFree e) :
    split e.head 1 = [e.path, e.args, itoa e.tgid, e.parentComm, itoa e.parentTgid] := by
  have hnum : ∀ n, (1 : UInt8) ∉ itoa n := fun n => not_mem_itoa (by decide)
  simp only [ExecEvent.head, split_append_cons, split_eq_singleton h.path,
    split_eq_singleton h.args, split_eq_singleton h.comm, split_eq_singleton (hnum _)]
  rfl

/-- A part of the message that ends before the environment has too few fields. -/
theorem split_take_head (h : SeparatorFree e) {j : ℕ} (hj : j ≤ e.head.length) :
    (split (e.message.take j) 1).length ≤ 5 := by
  have hhead := congrArg List.length (split_head h)
  rw [length_split] at hhead
  rw [ExecEvent.message, List.take_append_of_le_length hj, length_split]
  have hcount := (List.take_sublist j e.head).count_le 1
  simp only [List.length_cons, List.length_nil] at hhead
  omega

theorem split_take_env (h : SeparatorFree e) (i : ℕ) :
    split (e.message.take (e.head.length + 1 + i)) 1 =
      [e.path, e.args, itoa e.tgid, e.parentComm, itoa e.parentTgid, e.env.take i] := by
  have htake : e.message.take (e.head.length + 1 + i) = e.head ++ 1 :: e.env.take i := by
    rw [ExecEvent.message, Nat.add_assoc, List.take_length_add_append, Nat.add_comm 1 i,
      List.take_succ_cons]
  have henv : 1 ∉ e.env.take i := fun hmem => h.env (List.mem_of_mem_take hmem)
  rw [htake, split_append_cons, split_head h, split_eq_singleton henv]
  rfl

/-- With six fields the record shows the event, if the part of the environment in it is the whole up
to a blank. -/
theorem shows_messageRecord_iff {i : ℕ} (hfields : messageFields e.datagram =
      [e.path, e.args, itoa e.tgid, e.parentComm, itoa e.parentTgid, e.env.take i]) :
    Shows e (messageRecord e.datagram) ↔
      e.env.take i = e.env ∨ e.env.take i ++ str " " = e.env := by
  have hinfo : (messageRecord e.datagram).get (str "info") = e.env.take i := by
    rw [messageRecord, processRecord_info, hfields]
    rfl
  constructor
  · intro h
    have hshown := h.info
    rwa [hinfo] at hshown
  · intro h
    refine ⟨kernelFields_messageRecord_iff.mpr ?_, ?_, ?_, ?_⟩
    · rw [hfields]
      exact ⟨rfl, rfl, rfl⟩
    · rw [messageRecord, processRecord_name, hfields]
      rfl
    · rw [messageRecord, processRecord_command, hfields]
      rfl
    · rwa [hinfo]

/-- A text that lost its last bytes is the whole up to a blank if it lost one, and that was a
blank. -/
theorem take_blank_iff {env : GoString} {i : ℕ} (hi : i < env.length) :
    env.take i = env ∨ env.take i ++ str " " = env ↔
      i + 1 = env.length ∧ env.getLast? = some 32 := by
  have hone : (str " ").length = 1 := rfl
  constructor
  · rintro (h | h)
    · have hlen := congrArg List.length h
      rw [List.length_take] at hlen
      omega
    · have hlen := congrArg List.length h
      rw [List.length_append, List.length_take] at hlen
      refine ⟨by omega, ?_⟩
      rw [← h]
      exact List.getLast?_concat
  · rintro ⟨hlast, hblank⟩
    obtain ⟨init, rfl⟩ := List.getLast?_eq_some_iff.mp hblank
    rw [List.length_append, List.length_singleton] at hlast
    rw [List.take_append_of_le_length (by omega), List.take_of_length_le (by omega)]
    exact Or.inr rfl

/-- The event is recorded if and only if the whole message fits the buffer of the agent and the last
byte of it, which the agent drops, is the blank at the end of the environment. -/
theorem execEvent_recorded_iff (txt : TextLib) (getpid : ℤ) (e : ExecEvent)
    (h : SeparatorFree e) (hparent : (e.parentTgid : ℤ) ≠ getpid) :
    Recorded txt getpid e ↔ e.message.length ≤ 255 ∧ e.env.getLast? = some 32 := by
  have hlen := length_message e
  rw [recorded_iff]
  rcases Nat.lt_or_ge e.head.length (keptLen e) with hkept | hkept
  · -- the agent reads a part of the environment
    obtain ⟨i, hi⟩ := Nat.exists_eq_add_of_le (Nat.succ_le_of_lt hkept)
    have hi' : keptLen e = e.head.length + 1 + i := hi
    have hfields := (messageFields_datagram e).trans (hi' ▸ split_take_env h i)
    have hsend : ¬ ((messageFields e.datagram).length ≤ 5 ∨
        (atoi ((messageFields e.datagram).getD 4 [])).1 = getpid) := by
      rw [hfields, not_or]
      exact ⟨by simp, by simpa [atoi_parentTgid] using hparent⟩
    rw [keptLen] at hi'
    have hiLt : i < e.env.length := by omega
    rw [and_iff_right hsend, shows_messageRecord_iff hfields, take_blank_iff hiLt]
    refine and_congr_left fun _ => ?_
    omega
  · -- it does not, and sees five fields at most
    have hshort : (messageFields e.datagram).length ≤ 5 := by
      rw [messageFields_datagram]
      exact split_take_head h hkept
    constructor
    · rintro ⟨hsend, -⟩
      exact absurd (Or.inl hshort) hsend
    · rintro ⟨hle, hblank⟩
      have henv : e.env ≠ [] := by
        rintro hnil
        simp [hnil] at hblank
      have hpos := List.length_pos_of_ne_nil henv
      rw [keptLen] at hkept
      omega

/-- `ls -l` in an environment with a directory. -/
def lsEvent : ExecEvent where
  path := str "/bin/ls"
  total_argc := totalArgc [str "ls", str "-l"]
  tgid := 43
  parentComm := str "bash"
  parentTgid := 7
  total_envpc := totalEnvpc [str "PWD=/"]
  path_terminated := by decide
  argc_terminated := by decide
  comm_terminated := by decide
  envpc_terminated := by decide
  tgid_lt := by decide
  parentTgid_lt := by decide

/-- The same with a variable that is not captured. -/
def bareEvent : ExecEvent :=
  { lsEvent with
    total_envpc := totalEnvpc [str "TERM=xterm"]
    envpc_terminated := by decide }

theorem execEvent_recorded_ls : Recorded plainText 99 lsEvent :=
  (execEvent_recorded_iff plainText 99 lsEvent ⟨by decide, by decide, by decide, by decide⟩
    (by decide)).mpr ⟨by decide, by decide⟩

/-- The captured environment is empty, and the agent finds five fields only. -/
theorem execEvent_lost :
    SeparatorFree bareEvent ∧ bareEvent.message.length < PATH_MAX + 2048 ∧
      (bareEvent.parentTgid : ℤ) ≠ 99 ∧
      (startProcessMonitor plainText [] 99 [bareEvent.datagram]).sent.length = 0 ∧
      ¬ Recorded plainText 99 bareEvent := by
  refine ⟨⟨by decide, by decide, by decide, by decide⟩, by decide, by decide, by decide, ?_⟩
  rintro ⟨r, hrun, -⟩
  have hsent : (startProcessMonitor plainText [] 99 [bareEvent.datagram]).sent.length = 1 :=
    congrArg (fun run => run.sent.length) hrun
  exact absurd hsent (by decide)

/-! ## Events with separators -/

/-- Only messages that get to the test matter, and what they show is enough: the kernel's own parent
pid passes the test. -/
theorem unforged_iff_of_reached {txt : TextLib} {getpid : ℤ}
    (hparent : (e.parentTgid : ℤ) ≠ getpid) :
    Unforged txt getpid e ↔
      (6 ≤ (messageFields e.datagram).length → KernelFields e (messageRecord e.datagram)) := by
  have hppid : (messageRecord e.datagram).get (str "ppid") =
      (messageFields e.datagram).getD 4 [] := processRecord_ppid
  constructor
  · intro h hlen
    refine h.fields [] ∅ _ ?_
    have hfilter : filtered txt [] ∅ = false := rfl
    rw [monitorTurn_datagram, if_neg (by omega), if_neg (h.kept hlen), hfilter,
      if_neg (by simp)]
  · intro h
    constructor
    · intro hlen
      rw [← hppid, (h hlen).ppid, atoi_parentTgid]
      exact hparent
    · intro filter resultdata r hsend
      rw [monitorTurn_datagram] at hsend
      split at hsend
      · simp at hsend
      split at hsend
      · simp at hsend
      split at hsend
      · simp at hsend
      · next hlen _ _ =>
        injection hsend with hr
        exact hr ▸ h (by omega)

/-- The fields of a message that fits the buffer: those of the user, the kernel's with the parent's
name split, and those of the environment without its last byte. -/
theorem messageFields_whole (hfits : e.message.length ≤ 255) :
    ∃ tail, messageFields e.datagram =
      userFields e ++ itoa e.tgid :: (split e.parentComm 1 ++ itoa e.parentTgid :: tail) := by
  have hnum : ∀ n, (1 : UInt8) ∉ itoa n := fun n => not_mem_itoa (by decide)
  have hhead : split e.head 1 =
      userFields e ++ itoa e.tgid :: (split e.parentComm 1 ++ [itoa e.parentTgid]) := by
    simp only [ExecEvent.head, userFields, split_append_cons, split_eq_singleton (hnum _)]
    simp
  have hkept : e.message.take (keptLen e) = e.message.dropLast := by
    rw [keptLen, List.dropLast_eq_take, Nat.min_eq_left hfits]
  rw [messageFields_datagram, hkept]
  by_cases henv : e.env = []
  · refine ⟨[], ?_⟩
    rw [ExecEvent.message, henv, List.dropLast_concat, hhead]
  · refine ⟨split e.env.dropLast 1, ?_⟩
    have hdrop : e.message.dropLast = e.head ++ 1 :: e.env.dropLast := by
      rw [ExecEvent.message, List.dropLast_append_of_ne_nil (by simp),
        List.dropLast_cons_of_ne_nil henv]
    rw [hdrop, split_append_cons, hhead]
    simp

/-- The first three elements of a list, read by position. -/
theorem take_three_eq_iff {α : Type*} {l tail : List α} {d x y z : α} (h : 3 ≤ l.length) :
    l.take 3 = [x, y, z] ↔
      (l ++ tail).getD 0 d = x ∧ (l ++ tail).getD 1 d = y ∧ (l ++ tail).getD 2 d = z := by
  obtain _ | ⟨a, _ | ⟨b, _ | ⟨c, l⟩⟩⟩ := l
  · simp at h
  · simp at h
  · simp at h
  · simp

/-- Path and arguments make up two fields at least. -/
theorem userFields_cases (e : ExecEvent) : ∃ a b extra, userFields e = a :: b :: extra := by
  have hlen : 2 ≤ (userFields e).length := by
    rw [userFields, length_split, List.count_append, List.count_cons_self]
    omega
  rcases h : userFields e with _ | ⟨a, _ | ⟨b, extra⟩⟩
  · simp [h] at hlen
  · simp [h] at hlen
  · exact ⟨a, b, extra, rfl⟩

/-- A parent's name with the separator is never read as one field. -/
theorem not_kernelFields_of_mem (hcomm : 1 ∈ e.parentComm)
    (hlen : 6 ≤ (messageFields e.datagram).length) :
    ¬ KernelFields e (messageRecord e.datagram) := by
  intro h
  obtain ⟨-, hname, -⟩ := kernelFields_messageRecord_iff.mp h
  have hmem : e.parentComm ∈ messageFields e.datagram := by
    rw [← hname, List.getD_eq_getElem?_getD, List.getElem?_eq_getElem (by omega)]
    exact List.getElem_mem _
  exact not_mem_of_mem_split hmem hcomm

/-- The record of an event that fits the buffer is safe from its path and its arguments if and only
if the fields they make up after the second begin with the kernel's. -/
theorem execEvent_unforged_iff (txt : TextLib) (getpid : ℤ) (e : ExecEvent)
    (hparent : (e.parentTgid : ℤ) ≠ getpid) (hfits : e.message.length ≤ 255) :
    Unforged txt getpid e ↔ 1 ∉ e.parentComm ∧
      ((userFields e).drop 2 ++ kernelTexts e).take 3 = kernelTexts e := by
  rw [unforged_iff_of_reached hparent]
  obtain ⟨tail, hfields⟩ := messageFields_whole hfits
  obtain ⟨a, b, extra, huf⟩ := userFields_cases e
  by_cases hcomm : 1 ∈ e.parentComm
  · have hlen : 6 ≤ (messageFields e.datagram).length := by
      have hcount : 0 < e.parentComm.count 1 := List.count_pos_iff.mpr hcomm
      rw [hfields, huf]
      simp only [List.length_append, List.length_cons, length_split]
      omega
    constructor
    · intro h
      exact absurd (h hlen) (not_kernelFields_of_mem hcomm hlen)
    · rintro ⟨hno, -⟩
      exact absurd hcomm hno
  · have hall : messageFields e.datagram = a :: b :: (extra ++ kernelTexts e ++ tail) := by
      rw [hfields, huf, split_eq_singleton hcomm, kernelTexts]
      simp
    have hdrop : (userFields e).drop 2 = extra := by
      rw [huf]
      rfl
    have hthree : (extra ++ kernelTexts e).take 3 = kernelTexts e ↔
        KernelFields e (messageRecord e.datagram) := by
      rw [kernelFields_messageRecord_iff, hall]
      exact take_three_eq_iff (by simp [kernelTexts])
    rw [hdrop, hthree]
    constructor
    · intro h
      refine ⟨hcomm, ?_⟩
      by_cases hextra : extra = []
      · rw [← hthree, hextra]
        rfl
      · have hpos := List.length_pos_of_ne_nil hextra
        refine h ?_
        rw [hall]
        simp [kernelTexts]
        omega
    · rintro ⟨-, h⟩ -
      exact h

/-- `ls` with an argument that makes up four fields, the agent's pid among them. -/
def forgedEvent : ExecEvent :=
  { lsEvent with
    total_argc := totalArgc [str "ls", str "x\x011\x01init\x0199\x01"]
    argc_terminated := by decide }

theorem execEvent_unforged_ls : Unforged plainText 99 lsEvent :=
  (execEvent_unforged_iff plainText 99 lsEvent (by decide) (by decide)).mpr
    ⟨by decide, by decide⟩

/-- The message gets to the test with the agent's pid and is discarded. -/
theorem execEvent_hidden :
    (forgedEvent.parentTgid : ℤ) ≠ 99 ∧ forgedEvent.message.length ≤ 255 ∧
      6 ≤ (messageFields forgedEvent.datagram).length ∧
      (atoi ((messageFields forgedEvent.datagram).getD 4 [])).1 = 99 ∧
      ¬ Unforged plainText 99 forgedEvent := by
  refine ⟨by decide, by decide, by decide, by decide, fun h => ?_⟩
  exact h.kept (by decide) (by decide)

end YulongHids.Agent
