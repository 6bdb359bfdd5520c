import YulongHids.Agent.ProcessMonitor

/-!
# Proofs: the process monitor

The filter is evaluated on the record of the message *before* the current one, so the first record
that matches is sent and silences the loop for good.
-/

namespace YulongHids.Agent

open Golang

/-- A list up to and including its first element with `p`. -/
def upTo {α : Type*} (p : α → Bool) : List α → List α
  | [] => []
  | a :: l => a :: if p a then [] else upTo p l

/-- Cutting a list at its first hit is removing all hits only when there is none: the hit that ends
the cut list is not among the elements that pass. -/
theorem upTo_eq_filter_iff {α : Type*} (p : α → Bool) (l : List α) :
    upTo p l = l.filter (fun a => !p a) ↔ ∀ a ∈ l, p a = false := by
  induction l with
  | nil => simp [upTo]
  | cons a l ih =>
    cases ha : p a with
    | false => simp [upTo, ha, ih]
    | true =>
      simp only [upTo, ha, List.mem_cons, forall_eq_or_imp, Bool.true_eq_false, false_and, iff_false]
      intro h
      have hmem : a ∈ (a :: l).filter (fun b => !p b) := by rw [← h]; simp
      simp [ha] at hmem

section Loop

variable {txt : TextLib} {filter : List GoString} {getpid : ℤ}

/-- On the message of another process only the filter decides, and it looks at `resultdata`. -/
theorem monitorTurn_exec {resultdata : Record} {d : List UInt8} (h : ExecMessage getpid d) :
    monitorTurn txt filter getpid resultdata (readFromUDP d) =
      if filtered txt filter resultdata then .skip else .send (messageRecord d) := by
  have hne : readFromUDP d ≠ [] := by simp [readFromUDP, h.nonempty]
  have hlen : ¬ (proList (readFromUDP d)).length ≤ 5 := by
    have := h.fields
    simp only [messageFields] at this
    omega
  simp only [monitorTurn, if_neg hne, if_neg hlen]
  rw [if_neg (show ¬ (atoi ((proList (readFromUDP d)).getD 4 [])).1 = getpid from h.parent)]
  rfl

/-- Once `resultdata` is a filtered record nothing is sent any more. -/
theorem monitorLoop_filtered {resultdata : Record} (hr : filtered txt filter resultdata = true)
    {ds : List (List UInt8)} (h : ∀ d ∈ ds, ExecMessage getpid d) :
    monitorLoop txt filter getpid resultdata ds = ⟨[], false⟩ := by
  induction ds with
  | nil => rfl
  | cons d ds ih =>
    rw [monitorLoop, monitorTurn_exec (h d (List.mem_cons_self ..)), if_pos hr]
    exact ih fun d' hd' => h d' (List.mem_cons_of_mem _ hd')

/-- Until then every message is sent, the first filtered one included. -/
theorem monitorLoop_passed {resultdata : Record} (hr : filtered txt filter resultdata = false)
    {ds : List (List UInt8)} (h : ∀ d ∈ ds, ExecMessage getpid d) :
    monitorLoop txt filter getpid resultdata ds =
      ⟨upTo (filtered txt filter) (ds.map messageRecord), false⟩ := by
  induction ds generalizing resultdata with
  | nil => rfl
  | cons d ds ih =>
    have hds : ∀ d' ∈ ds, ExecMessage getpid d' := fun d' hd' => h d' (List.mem_cons_of_mem _ hd')
    rw [monitorLoop, monitorTurn_exec (h d (List.mem_cons_self ..)), hr]
    simp only [Bool.false_eq_true, if_false, List.map_cons, upTo]
    cases hd : filtered txt filter (messageRecord d) with
    | true => simp [monitorLoop_filtered hd hds]
    | false => simp [ih hd hds]

end Loop

/-- The monitor reports exactly the messages whose own name and command pass the filter if and only
if the filter judges every message as it judges the empty string, which is what stands in the nil
map for name and command. -/
theorem startProcessMonitor_exact_iff (txt : TextLib) (filter : List GoString) (getpid : ℤ)
    (datagrams : List (List UInt8)) (h : ∀ d ∈ datagrams, ExecMessage getpid d) :
    startProcessMonitor txt filter getpid datagrams = ⟨reportable txt filter datagrams, false⟩ ↔
      ∀ d ∈ datagrams, filtered txt filter (messageRecord d) =
        inArray txt filter (txt.toLower []) true := by
  have hnil : filtered txt filter ∅ = inArray txt filter (txt.toLower []) true := by
    simp [filtered]
  rw [← hnil]
  cases h0 : filtered txt filter ∅ with
  | true =>
    rw [startProcessMonitor, monitorLoop_filtered h0 h, MonitorRun.mk.injEq, @eq_comm _ []]
    simp [reportable]
  | false =>
    rw [startProcessMonitor, monitorLoop_passed h0 h]
    simp [reportable, upTo_eq_filter_iff]

/-- The message of a shell started by process 7, and that of an `ls`. -/
def shMessage : List UInt8 := str "/bin/sh\x01-c id\x0142\x01init\x017\x01\n"

def lsMessage : List UInt8 := str "/bin/ls\x01/\x0143\x01init\x017\x01\n"

theorem execMessage_shell : ∀ d ∈ [shMessage, lsMessage], ExecMessage 99 d := by
  intro d hd
  simp only [List.mem_cons, List.not_mem_nil, or_false] at hd
  rcases hd with rfl | rfl <;> exact ⟨by decide, by decide, by decide⟩

/-- With the filter `sh` the shell is reported and the `ls` after it is not. -/
theorem startProcessMonitor_silenced :
    (∀ d ∈ [shMessage, lsMessage], ExecMessage 99 d) ∧
      (startProcessMonitor plainText [str "sh"] 99 [shMessage, lsMessage]).sent.map
        (·.get (str "name")) = [str "/bin/sh"] ∧
      (reportable plainText [str "sh"] [shMessage, lsMessage]).map
        (·.get (str "name")) = [str "/bin/ls"] ∧
      startProcessMonitor plainText [str "sh"] 99 [shMessage, lsMessage] ≠
        ⟨reportable plainText [str "sh"] [shMessage, lsMessage], false⟩ := by
  refine ⟨execMessage_shell, by decide, by decide, fun h => ?_⟩
  have hnames := congrArg (fun run => run.sent.map (·.get (str "name"))) h
  revert hnames
  decide

/-- A filter that matches neither message leaves both in the report. -/
theorem startProcessMonitor_exact_cron :
    startProcessMonitor plainText [str "cron"] 99 [shMessage, lsMessage] =
      ⟨reportable plainText [str "cron"] [shMessage, lsMessage], false⟩ :=
  (startProcessMonitor_exact_iff plainText [str "cron"] 99 [shMessage, lsMessage]
    execMessage_shell).mpr (by decide)

end YulongHids.Agent
