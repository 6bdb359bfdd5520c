import YulongHids.Agent.Proofs.ProcessMonitorProofs
import YulongHids.Agent.ProcessMonitorWindows

/-!
# Proofs: the process monitors on any datagram

One iteration panics on a certain kind of message only, and the loop goes on after every other one.
The answer of WMI does not matter: a process that is found has a command line, if only an empty one.
-/

namespace YulongHids.Agent

open Golang

section Monitors

variable {txt : TextLib} {filter : List GoString} {getpid : ℤ}

theorem readFromUDP_eq_nil_iff {datagram : List UInt8} : readFromUDP datagram = [] ↔ datagram = [] := by
  simp [readFromUDP]

/-! ## Linux -/

theorem monitorTurn_eq_panic_iff {resultdata : Record} {buf : List UInt8} :
    monitorTurn txt filter getpid resultdata buf = .panic ↔ buf = [] := by
  rw [monitorTurn]
  by_cases hbuf : buf = []
  · exact iff_of_true (if_pos hbuf) hbuf
  rw [if_neg hbuf]
  refine iff_of_false ?_ hbuf
  split
  · exact Turn.noConfusion
  split
  · exact Turn.noConfusion
  split
  · exact Turn.noConfusion
  · exact Turn.noConfusion

/-- An iteration that does not panic, and the loop behind it. -/
theorem survives_cons_iff {δ : Type} {t : Turn} {turns : List Turn} {d : δ} {ds : List δ}
    (ht : t ≠ .panic) : Survives (t :: turns) (d :: ds) ↔ Survives turns ds := by
  rw [Survives, List.forall_mem_cons, List.length_cons, List.length_cons, Nat.add_right_cancel_iff,
    Survives]
  exact ⟨fun h => ⟨h.1.2, h.2⟩, fun h => ⟨⟨ht, h.1⟩, h.2⟩⟩

theorem survives_cons {δ : Type} {t : Turn} {turns : List Turn} {d : δ} {ds : List δ} {Q : Prop}
    (ht : t ≠ .panic) (h : Survives turns ds ↔ Q) :
    Survives (t :: turns) (d :: ds) ↔ t ≠ .panic ∧ Q :=
  (survives_cons_iff ht).trans (h.trans (and_iff_right ht).symm)

theorem not_survives_panic {δ : Type} (datagrams : List δ) :
    ¬ Survives [Turn.panic] datagrams := fun h => h.1 .panic (List.mem_singleton_self _) rfl

/-- A loop without variables survives if no message makes it panic. -/
theorem turnsOf_survives_iff {δ : Type} {turn : δ → Turn} {messages : List δ} :
    Survives (turnsOf turn messages) messages ↔ ∀ d ∈ messages, turn d ≠ .panic := by
  induction messages with
  | nil => simp [Survives, turnsOf]
  | cons d ds ih =>
    rw [turnsOf, List.forall_mem_cons]
    cases turn d with
    | panic => exact iff_of_false (not_survives_panic _) fun h => h.1 rfl
    | skip => exact survives_cons Turn.noConfusion ih
    | send r => exact survives_cons Turn.noConfusion ih

theorem monitorTurns_survives_iff (resultdata : Record) (datagrams : List (List UInt8)) :
    Survives (monitorTurns txt filter getpid resultdata datagrams) datagrams ↔
      [] ∉ datagrams := by
  induction datagrams generalizing resultdata with
  | nil => simp [Survives, monitorTurns]
  | cons d ds ih =>
    rw [monitorTurns, List.mem_cons, not_or, @eq_comm _ [] d, ← readFromUDP_eq_nil_iff,
      ← @monitorTurn_eq_panic_iff txt filter getpid resultdata]
    cases hturn : monitorTurn txt filter getpid resultdata (readFromUDP d) with
    | panic => exact iff_of_false (not_survives_panic _) fun h => h.1 rfl
    | skip => exact survives_cons Turn.noConfusion (ih _)
    | send r => exact survives_cons Turn.noConfusion (ih _)

/-- The loop has crashed if its last iteration panicked. -/
theorem monitorLoop_crashed_iff (resultdata : Record) (datagrams : List (List UInt8)) :
    (monitorLoop txt filter getpid resultdata datagrams).crashed = true ↔
      .panic ∈ monitorTurns txt filter getpid resultdata datagrams := by
  induction datagrams generalizing resultdata with
  | nil => simp [monitorLoop, monitorTurns]
  | cons d ds ih =>
    rw [monitorLoop, monitorTurns]
    cases monitorTurn txt filter getpid resultdata (readFromUDP d) with
    | panic => simp
    | skip => simp [ih]
    | send r => simp [ih]

theorem length_monitorTurns (resultdata : Record) (datagrams : List (List UInt8))
    (h : .panic ∉ monitorTurns txt filter getpid resultdata datagrams) :
    (monitorTurns txt filter getpid resultdata datagrams).length = datagrams.length := by
  induction datagrams generalizing resultdata with
  | nil => rfl
  | cons d ds ih =>
    rw [monitorTurns] at h ⊢
    cases hturn : monitorTurn txt filter getpid resultdata (readFromUDP d) with
    | panic =>
      rw [hturn] at h
      exact absurd (List.mem_singleton_self _) h
    | skip =>
      rw [hturn] at h
      exact congrArg (· + 1) (ih _ fun hmem => h (List.mem_cons_of_mem _ hmem))
    | send r =>
      rw [hturn] at h
      exact congrArg (· + 1) (ih _ fun hmem => h (List.mem_cons_of_mem _ hmem))

/-! ## Windows -/

theorem winReport_ne_panic (r : Record) : winReport txt filter r ≠ .panic := by
  rw [winReport]
  split
  · exact Turn.noConfusion
  · exact Turn.noConfusion

/-- An entity without a mismatch has its pointer. -/
theorem loadEntity_commandLine {row : WmiRow} (h : (loadEntity row).2 = false) :
    (loadEntity row).1.commandLine ≠ none := by
  unfold loadEntity at h ⊢
  cases hname : loadField false row.name with
  | none =>
    rw [hname] at h
    cases h
  | some name =>
    cases hcommand : loadField true row.commandLine with
    | none => exact Option.some_ne_none _
    | some command => exact Option.some_ne_none _

theorem getProcessInfo_commandLine {rows : Option (List WmiRow)} {info : WinProcess}
    (h : getProcessInfo rows = some info) : info.commandLine ≠ none := by
  cases rows with
  | none => cases h
  | some rows =>
    cases rows with
    | nil => cases h
    | cons row rows =>
      cases hany : (row :: rows).any fun row => (loadEntity row).2 with
      | true =>
        rw [getProcessInfo, wmiQuery, hany] at h
        cases h
      | false =>
        rw [getProcessInfo, wmiQuery, hany] at h
        obtain rfl := Option.some.inj h
        rw [List.any_cons, Bool.or_eq_false_iff] at hany
        exact loadEntity_commandLine hany.1

theorem winTurn_ne_panic_iff {m : WinMessage} :
    winTurn txt filter getpid m ≠ .panic ↔ m.Sound := by
  rw [winTurn]
  by_cases hempty : m.datagram = []
  · refine iff_of_false (fun h => h ?_) fun h => h.nonempty hempty
    exact if_pos (readFromUDP_eq_nil_iff.mpr hempty)
  rw [if_neg (mt readFromUDP_eq_nil_iff.mp hempty)]
  by_cases hshort : (winFields m.datagram).length ≤ 4
  · refine iff_of_false (fun h => h (if_pos hshort)) fun h => ?_
    have := h.fields
    omega
  refine iff_of_true ?_ ⟨hempty, by omega⟩
  rw [← winFields, if_neg hshort]
  split_ifs
  · exact Turn.noConfusion
  · cases hinfo : getProcessInfo (m.rows ((winFields m.datagram).getD 2 [])) with
    | none => exact winReport_ne_panic _
    | some info =>
      obtain ⟨command, hcommand⟩ := Option.ne_none_iff_exists'.mp (getProcessInfo_commandLine hinfo)
      simp only [hcommand]
      exact winReport_ne_panic _

theorem winTurns_survives_iff (ms : List WinMessage) :
    Survives (winTurns txt filter getpid ms) ms ↔ ∀ m ∈ ms, m.Sound := by
  rw [winTurns, turnsOf_survives_iff]
  exact forall₂_congr fun _ _ => winTurn_ne_panic_iff

end Monitors

theorem startProcessMonitor_crashed_iff (txt : TextLib) (filter : List GoString) (getpid : ℤ)
    (datagrams : List (List UInt8)) :
    (startProcessMonitor txt filter getpid datagrams).crashed = false ↔ [] ∉ datagrams := by
  rw [← Bool.not_eq_true, startProcessMonitor, monitorLoop_crashed_iff]
  constructor
  · intro hno
    -- an iteration is missing only behind one that panics
    have hall : Survives (monitorTurns txt filter getpid ∅ datagrams) datagrams :=
      ⟨fun t ht hp => hno (hp ▸ ht), length_monitorTurns ∅ datagrams hno⟩
    exact (monitorTurns_survives_iff ∅ datagrams).mp hall
  · exact fun h hmem => ((monitorTurns_survives_iff ∅ datagrams).mpr h).1 _ hmem rfl

/-- The Linux monitor survives a sequence of datagrams and handles all of them if and only if none is
empty, the Windows monitor if and only if all of them are sound messages. -/
theorem process_monitors_survive_iff (txt : TextLib) (filter : List GoString) (getpid : ℤ) :
    (∀ datagrams, ((startProcessMonitor txt filter getpid datagrams).crashed = false ↔
        [] ∉ datagrams) ∧
      (Survives (monitorTurns txt filter getpid ∅ datagrams) datagrams ↔ [] ∉ datagrams)) ∧
    ∀ messages, Survives (winTurns txt filter getpid messages) messages ↔
      ∀ m ∈ messages, m.Sound :=
  ⟨fun datagrams => ⟨startProcessMonitor_crashed_iff txt filter getpid datagrams,
    monitorTurns_survives_iff ∅ datagrams⟩, winTurns_survives_iff⟩

/-- The message of process 42 and its parent 7. -/
def winMessage : List UInt8 := str "1|cmd.exe|42|explorer|7\n"

/-- The process has no command line that the agent may see, and the record is sent without one. -/
example : winTurns plainText [] 99
    [⟨winMessage, fun _ => some [⟨.text (str "cmd.exe"), .null⟩]⟩] =
      [.send (winProcessRecord (winFields winMessage) (str "cmd.exe") [])] := rfl

/-- An empty datagram, and one with too few fields, end the loop before the next message. -/
theorem process_monitors_crash :
    (startProcessMonitor plainText [] 99 [[], shMessage]).crashed = true ∧
      monitorTurns plainText [] 99 ∅ [[], shMessage] = [.panic] ∧
      winTurns plainText [] 99 [⟨[], fun _ => none⟩, ⟨winMessage, fun _ => none⟩] = [.panic] ∧
      winTurns plainText [] 99 [⟨str "hello\n", fun _ => none⟩, ⟨winMessage, fun _ => none⟩] =
        [.panic] := by
  refine ⟨rfl, rfl, rfl, ?_⟩
  rfl

end YulongHids.Agent
