import YulongHids.SyscallHook.Loading

/-!
# Proofs: loading and unloading the hook

Only the thread that loads and unloads writes what the hook reads, so at each of its statements the
variables are those of a sequential execution up to there. The hook is in the table when everything is
set up, and in `monitor_execve_exit` it is still there when the socket is gone.
-/

namespace YulongHids.SyscallHook

open Transition

variable {n : SyscallNumbers} {s s' : Machine} {e : MachineEvent} {es : List MachineEvent}

/-! ## The sequential execution -/

/-- After the first `pc` statements. -/
def coreAt (n : SyscallNumbers) (body : List Statement) (c : Core) (pc : ℕ) : Core :=
  (body.take pc).foldl (Core.exec n) c

theorem coreAt_succ {body : List Statement} {c : Core} {pc : ℕ} {st : Statement}
    (h : body[pc]? = some st) : coreAt n body c (pc + 1) = (coreAt n body c pc).exec n st := by
  rw [coreAt, List.take_add_one, h, List.foldl_append]
  rfl

/-- Before the module is loaded. -/
def freshCore : Core := Machine.start.core

/-- After `monitor_execve_init`. -/
def loadedCore (n : SyscallNumbers) : Core := coreAt n monitorExecveInit freshCore 10

theorem length_init : monitorExecveInit.length = 10 := rfl

theorem length_exit : monitorExecveExit.length = 6 := rfl

def hookedTable (n : SyscallNumbers) : ℕ → Entry := Function.update Entry.original n.NR_execve .hook

def copiedTable (n : SyscallNumbers) (i : ℕ) : Option Entry :=
  if i < n.NR_syscalls - 1 then some (.original i) else none

theorem coreAt_init {pc : ℕ} (hpc : pc ≤ 10) :
    coreAt n monitorExecveInit freshCore pc =
      ⟨if 8 < pc then hookedTable n else Entry.original, decide (pc ≤ 5 ∨ 10 ≤ pc),
        ⟨decide (0 < pc), if 1 < pc then .live else .null, decide (2 < pc), decide (3 < pc),
          decide (4 < pc), if 6 < pc then copiedTable n else fun _ => none,
          if 7 < pc then some (.original n.NR_execve) else none⟩, false⟩ := by
  interval_cases pc <;> rfl

theorem update_hookedTable :
    Function.update (hookedTable n) n.NR_execve (.original n.NR_execve) = Entry.original := by
  rw [hookedTable, Function.update_idem, Function.update_eq_self]

theorem loadedCore_eq : loadedCore n =
    ⟨hookedTable n, true, ⟨true, .live, true, true, true, copiedTable n,
      some (.original n.NR_execve)⟩, false⟩ :=
  coreAt_init le_rfl

theorem coreAt_exit {pc : ℕ} (hpc : pc ≤ 6) :
    coreAt n monitorExecveExit (loadedCore n) pc =
      ⟨if 3 < pc then Entry.original else hookedTable n, decide (pc ≤ 2 ∨ 5 ≤ pc),
        ⟨decide (pc ≤ 5), if 0 < pc then .released else .live, true, true, true, copiedTable n,
          some (.original n.NR_execve)⟩, false⟩ := by
  rw [loadedCore_eq]
  have htable := update_hookedTable (n := n)
  interval_cases pc <;>
    simp [coreAt, monitorExecveExit, Core.exec, Core.setExecve, htable]

/-! ## The core along a run -/

/-- The core is the one of the sequential execution. -/
def CoreAt (n : SyscallNumbers) (s : Machine) : Control → Prop
  | .absent => { s.core with globals := {} } = freshCore
  | .loading pc => pc ≤ 10 ∧ s.core = coreAt n monitorExecveInit freshCore pc
  | .failed => ∃ pc ≤ 3, s.core = coreAt n monitorExecveInit freshCore pc
  | .loaded => s.core = loadedCore n
  | .unloading pc => pc ≤ 6 ∧ s.core = coreAt n monitorExecveExit (loadedCore n) pc
  | .finished => s.core = coreAt n monitorExecveExit (loadedCore n) 6

theorem getElem?_init_eq_none {pc : ℕ} (hpc : pc ≤ 10) (h : monitorExecveInit[pc]? = none) :
    pc = 10 := by
  have hlen := List.getElem?_eq_none_iff.mp h
  rw [length_init] at hlen
  omega

theorem getElem?_exit_eq_none {pc : ℕ} (hpc : pc ≤ 6) (h : monitorExecveExit[pc]? = none) :
    pc = 6 := by
  have hlen := List.getElem?_eq_none_iff.mp h
  rw [length_exit] at hlen
  omega

/-- Only the first four statements of `monitor_execve_init` can fail. -/
theorem succeeds_init {pc : ℕ} {st : Statement} (hst : monitorExecveInit[pc]? = some st) (ok : Bool)
    (c : Core) : st.succeeds ok c = (ok || decide (3 < pc)) := by
  have hlt : pc < 10 := (List.getElem?_eq_some_iff.mp hst).1
  interval_cases pc <;> cases hst <;> cases ok <;> rfl

/-- `monitor_execve_exit` finds its table. -/
theorem exit_succeeds {pc : ℕ} {st : Statement} {ok : Bool} (hpc : pc ≤ 6)
    (hst : monitorExecveExit[pc]? = some st) :
    st.succeeds ok (coreAt n monitorExecveExit (loadedCore n) pc) = true := by
  rw [coreAt_exit hpc]
  have hlt : pc < 6 := (List.getElem?_eq_some_iff.mp hst).1
  interval_cases pc <;> cases hst <;> rfl

/-- One statement of `monitor_execve_init`. -/
theorem perform_init_cases {pc : ℕ} (ok : Bool) (hpc : pc ≤ 10)
    (hcore : s.core = coreAt n monitorExecveInit freshCore pc) :
    (pc = 10 ∧ s.perform n monitorExecveInit pc ok (.loading (pc + 1)) .failed .loaded =
        { s with control := .loaded }) ∨
    (∃ st, monitorExecveInit[pc]? = some st ∧ pc < 10 ∧ (ok = true ∨ 3 < pc) ∧
      s.perform n monitorExecveInit pc ok (.loading (pc + 1)) .failed .loaded =
        { s with
          control := .loading (pc + 1)
          core := coreAt n monitorExecveInit freshCore (pc + 1)
          sockets := Machine.socketsAfter s.sockets st }) ∨
    (pc ≤ 3 ∧ ok = false ∧
      s.perform n monitorExecveInit pc ok (.loading (pc + 1)) .failed .loaded =
        { s with control := .failed }) := by
  cases hst : monitorExecveInit[pc]? with
  | none => exact Or.inl ⟨getElem?_init_eq_none hpc hst, by simp [Machine.perform, hst]⟩
  | some st =>
    cases hok : st.succeeds ok s.core with
    | true =>
      have hgoes := succeeds_init hst ok s.core
      rw [hok, eq_comm, Bool.or_eq_true, decide_eq_true_eq] at hgoes
      refine Or.inr (Or.inl ⟨st, rfl, (List.getElem?_eq_some_iff.mp hst).1, hgoes, ?_⟩)
      rw [coreAt_succ hst, ← hcore]
      simp [Machine.perform, hst, hok]
    | false =>
      have hfails := succeeds_init hst ok s.core
      rw [hok, eq_comm, Bool.or_eq_false_iff, decide_eq_false_iff_not, not_lt] at hfails
      exact Or.inr (Or.inr ⟨hfails.2, hfails.1, by simp [Machine.perform, hst, hok]⟩)

/-- One statement of `monitor_execve_exit`. -/
theorem perform_exit_cases {pc : ℕ} (ok : Bool) (hpc : pc ≤ 6)
    (hcore : s.core = coreAt n monitorExecveExit (loadedCore n) pc) :
    (pc = 6 ∧ s.perform n monitorExecveExit pc ok (.unloading (pc + 1)) .finished .finished =
        { s with control := .finished }) ∨
    (∃ st, monitorExecveExit[pc]? = some st ∧ pc < 6 ∧
      s.perform n monitorExecveExit pc ok (.unloading (pc + 1)) .finished .finished =
        { s with
          control := .unloading (pc + 1)
          core := coreAt n monitorExecveExit (loadedCore n) (pc + 1)
          sockets := Machine.socketsAfter s.sockets st }) := by
  cases hst : monitorExecveExit[pc]? with
  | none => exact Or.inl ⟨getElem?_exit_eq_none hpc hst, by simp [Machine.perform, hst]⟩
  | some st =>
    have hok : st.succeeds ok s.core = true := hcore ▸ exit_succeeds hpc hst
    refine Or.inr ⟨st, rfl, (List.getElem?_eq_some_iff.mp hst).1, ?_⟩
    rw [coreAt_succ hst, ← hcore]
    simp [Machine.perform, hst, hok]

theorem coreAt_step (h : CoreAt n s s.control) (hstep : s.step n e = some s') :
    CoreAt n s' s'.control := by
  cases e with
  | insmod =>
    obtain ⟨habsent, rfl⟩ := guard_iff.mp hstep
    rw [habsent] at h
    exact ⟨Nat.zero_le _, h⟩
  | rmmod =>
    obtain ⟨hloaded, rfl⟩ := guard_iff.mp hstep
    rw [hloaded] at h
    exact ⟨Nat.zero_le _, h⟩
  | statement ok =>
    rw [Machine.step] at hstep
    split at hstep
    · rename_i pc hcontrol
      rw [hcontrol] at h
      obtain ⟨hpc, hcore⟩ := h
      obtain rfl := Option.some.inj hstep
      rcases perform_init_cases ok hpc hcore with
        ⟨rfl, hp⟩ | ⟨st, -, hlt, -, hp⟩ | ⟨hle, -, hp⟩
      · rw [hp]
        exact hcore
      · rw [hp]
        exact ⟨hlt, rfl⟩
      · rw [hp]
        exact ⟨pc, hle, hcore⟩
    · rename_i pc hcontrol
      rw [hcontrol] at h
      obtain ⟨hpc, hcore⟩ := h
      obtain rfl := Option.some.inj hstep
      rcases perform_exit_cases ok hpc hcore with ⟨rfl, hp⟩ | ⟨st, -, hlt, hp⟩
      · rw [hp]
        exact hcore
      · rw [hp]
        exact ⟨hlt, rfl⟩
    · cases hstep
  | free =>
    obtain ⟨hcontrol, rfl⟩ := guard_iff.mp hstep
    rcases hcontrol with hcontrol | hcontrol
    · rw [hcontrol] at h
      obtain ⟨pc, hpc, hcore⟩ := h
      show { s.core with globals := {} } = freshCore
      rw [hcore, coreAt_init (by omega)]
      have h8 : ¬ 8 < pc := by omega
      have h5 : pc ≤ 5 := by omega
      simp [h8, h5, freshCore, Machine.start]
    · rw [hcontrol] at h
      show { s.core with globals := {} } = freshCore
      rw [show s.core = _ from h, coreAt_exit le_rfl]
      rfl
  | execve t =>
    rw [Machine.step] at hstep
    split_ifs at hstep
    · obtain rfl := Option.some.inj hstep
      cases hcontrol : s.control <;> rw [hcontrol] at h <;> exact h
    · obtain rfl := Option.some.inj hstep
      exact h
  | go t ok =>
    rw [Machine.step] at hstep
    split at hstep
    · cases hstep
    · obtain rfl := Option.some.inj hstep
      cases hcontrol : s.control <;> rw [hcontrol] at h <;> exact h

theorem coreAt_run (hrun : run (Machine.step n) Machine.start es = some s) :
    CoreAt n s s.control := by
  have hstart : CoreAt n Machine.start .absent := rfl
  exact run_invariant (I := fun s => CoreAt n s s.control)
    (fun _ _ _ h hstep => coreAt_step h hstep) hstart hrun

/-! ## What holds at every statement -/

/-- The table has the hook at the statements behind which it was put there, and no write to the table
met a protected page. -/
theorem core_eq (h : CoreAt n s s.control) : s.core.fault = false ∧
    s.core.table = if s.control.hooked then hookedTable n else Entry.original := by
  cases hcontrol : s.control with
  | absent =>
    rw [hcontrol] at h
    have hcore : { s.core with globals := {} } = freshCore := h
    exact ⟨congrArg Core.fault hcore, congrArg Core.table hcore⟩
  | loading pc =>
    rw [hcontrol] at h
    rw [h.2, coreAt_init h.1]
    simp [Control.hooked]
  | failed =>
    rw [hcontrol] at h
    obtain ⟨pc, hpc, hcore⟩ := h
    rw [hcore, coreAt_init (by omega)]
    have hlt : ¬ 8 < pc := by omega
    simp [hlt, Control.hooked]
  | loaded =>
    rw [hcontrol] at h
    rw [show s.core = _ from h, loadedCore_eq]
    exact ⟨rfl, rfl⟩
  | unloading pc =>
    rw [hcontrol] at h
    rw [h.2, coreAt_exit h.1]
    by_cases hlt : 3 < pc
    · simp [hlt, Control.hooked]
    · simp [hlt, Control.hooked, not_lt.mp hlt]
  | finished =>
    rw [hcontrol] at h
    rw [show s.core = _ from h, coreAt_exit le_rfl]
    exact ⟨rfl, rfl⟩

theorem hooked_of_hook (h : CoreAt n s s.control) (hhook : s.core.table n.NR_execve = .hook) :
    s.control.hooked = true := by
  rw [(core_eq h).2] at hhook
  cases hooked : s.control.hooked with
  | true => rfl
  | false =>
    rw [hooked] at hhook
    cases hhook

/-- While `execve` is intercepted, the copy of the table has the handler of the kernel. -/
theorem target_of_hook (h : CoreAt n s s.control) (hhook : s.core.table n.NR_execve = .hook) :
    s.core.globals.orig_sys_call_table n.NR_execve = some (.original n.NR_execve) := by
  have hcopied : copiedTable n n.NR_execve = some (.original n.NR_execve) := if_pos n.execve_lt
  have hhooked := hooked_of_hook h hhook
  cases hcontrol : s.control with
  | loading pc =>
    rw [hcontrol] at h hhooked
    have hlt : 8 < pc := of_decide_eq_true hhooked
    have h6 : 6 < pc := by omega
    rw [h.2, coreAt_init h.1]
    simp [h6, hcopied]
  | loaded =>
    rw [hcontrol] at h
    rw [show s.core = _ from h, loadedCore_eq]
    exact hcopied
  | unloading pc =>
    rw [hcontrol] at h
    rw [h.2, coreAt_exit h.1]
    exact hcopied
  | absent => rw [hcontrol] at hhooked; cases hhooked
  | failed => rw [hcontrol] at hhooked; cases hhooked
  | finished => rw [hcontrol] at hhooked; cases hhooked

/-- The statements at which `execve` is intercepted and the socket is there. -/
def Control.Open : Control → Prop
  | .loading pc => 8 < pc
  | .loaded => True
  | .unloading pc => pc = 0
  | _ => False

/-- What a thread in the hook uses is there. -/
theorem allowed_of_open (h : CoreAt n s s.control) (hopen : s.control.Open) {place : Place}
    (hplace : place ≠ .lost) (ok : Bool) : place.allowed n s.core.globals ok = true := by
  have hcopied : copiedTable n n.NR_execve = some (.original n.NR_execve) := if_pos n.execve_lt
  have hglobals : s.core.globals.tmp_getname = true ∧ s.core.globals.tmp_putname = true ∧
      s.core.globals.syshook_nl_sk = .live ∧
      s.core.globals.orig_sys_call_table n.NR_execve = some (.original n.NR_execve) := by
    cases hcontrol : s.control with
    | loading pc =>
      rw [hcontrol] at h hopen
      have hlt : 8 < pc := hopen
      rw [h.2, coreAt_init h.1]
      have h1 : 1 < pc := by omega
      have h2 : 2 < pc := by omega
      have h3 : 3 < pc := by omega
      have h6 : 6 < pc := by omega
      simp [h1, h2, h3, h6, hcopied]
    | loaded =>
      rw [hcontrol] at h
      rw [show s.core = _ from h, loadedCore_eq]
      exact ⟨rfl, rfl, rfl, hcopied⟩
    | unloading pc =>
      rw [hcontrol] at h hopen
      obtain rfl : pc = 0 := hopen
      rw [h.2, coreAt_exit h.1]
      exact ⟨rfl, rfl, rfl, hcopied⟩
    | absent => rw [hcontrol] at hopen; exact hopen.elim
    | failed => rw [hcontrol] at hopen; exact hopen.elim
    | finished => rw [hcontrol] at hopen; exact hopen.elim
  obtain ⟨hgetname, hputname, hsocket, htarget⟩ := hglobals
  cases place with
  | getname => exact hgetname
  | send => simp [Place.allowed, hsocket]
  | putname => exact hputname
  | jump => simp [Place.allowed, htarget]
  | lost => exact absurd rfl hplace

/-! ## Runs in which the module is unloaded quietly -/

/-- Threads are in the hook only where it can be left, and nothing was used that was not there. -/
structure Sound (n : SyscallNumbers) (s : Machine) : Prop where
  core : CoreAt n s s.control
  inside : ∀ t place, s.inside t = some place → place ≠ .lost ∧ s.control.Open
  fault : s.fault = false

theorem Sound.statement (h : Sound n s) {ok : Bool} (hquiet : Undisturbed s (.statement ok))
    (hstep : s.step n (.statement ok) = some s') : Sound n s' := by
  have hcore' := coreAt_step h.core hstep
  have hcore := h.core
  rw [Machine.step] at hstep
  split at hstep
  · rename_i pc hcontrol
    rw [hcontrol] at hcore
    obtain rfl := Option.some.inj hstep
    rcases perform_init_cases ok hcore.1 hcore.2 with
      ⟨rfl, hp⟩ | ⟨st, -, -, -, hp⟩ | ⟨hle, -, hp⟩
    · rw [hp] at hcore' ⊢
      exact ⟨hcore', fun t place ht => ⟨(h.inside t place ht).1, trivial⟩, h.fault⟩
    · rw [hp] at hcore' ⊢
      refine ⟨hcore', fun t place ht => ⟨(h.inside t place ht).1, ?_⟩, h.fault⟩
      have hopen : s.control.Open := (h.inside t place ht).2
      rw [hcontrol] at hopen
      exact lt_trans (show 8 < pc from hopen) (Nat.lt_succ_self pc)
    · rw [hp] at hcore' ⊢
      refine ⟨hcore', fun t place ht => ?_, h.fault⟩
      have hopen : s.control.Open := (h.inside t place ht).2
      rw [hcontrol] at hopen
      exact absurd (show 8 < pc from hopen) (by omega)
  · rename_i pc hcontrol
    have hnone : ∀ t, s.inside t = none := by
      intro t
      cases ht : s.inside t with
      | none => rfl
      | some place =>
        have hopen : s.control.Open := (h.inside t place ht).2
        rw [hcontrol] at hopen
        obtain rfl : pc = 0 := hopen
        exact ht.symm.trans (hquiet hcontrol t)
    rw [hcontrol] at hcore
    obtain rfl := Option.some.inj hstep
    have hinside : ∀ t place, s.inside t = some place → False := fun t place ht => by
      rw [hnone t] at ht
      cases ht
    rcases perform_exit_cases ok hcore.1 hcore.2 with ⟨rfl, hp⟩ | ⟨st, -, -, hp⟩
    · rw [hp] at hcore' ⊢
      exact ⟨hcore', fun t place ht => (hinside t place ht).elim, h.fault⟩
    · rw [hp] at hcore' ⊢
      exact ⟨hcore', fun t place ht => (hinside t place ht).elim, h.fault⟩
  · cases hstep

theorem Sound.step (h : Sound n s) (hquiet : Undisturbed s e) (hstep : s.step n e = some s') :
    Sound n s' := by
  have hcore' := coreAt_step h.core hstep
  cases e with
  | insmod =>
    obtain ⟨habsent, rfl⟩ := guard_iff.mp hstep
    refine ⟨hcore', fun t place ht => ?_, h.fault⟩
    have hopen := (h.inside t place ht).2
    rw [habsent] at hopen
    exact hopen.elim
  | rmmod =>
    obtain ⟨-, rfl⟩ := guard_iff.mp hstep
    exact ⟨hcore', fun t place ht => ⟨(h.inside t place ht).1, rfl⟩, h.fault⟩
  | statement ok => exact h.statement hquiet hstep
  | free =>
    obtain ⟨hcontrol, rfl⟩ := guard_iff.mp hstep
    refine ⟨hcore', fun t place ht => ?_, h.fault⟩
    obtain ⟨place', ht', -⟩ := Option.map_eq_some_iff.mp ht
    have hopen := (h.inside t place' ht').2
    rcases hcontrol with hcontrol | hcontrol
    · rw [hcontrol] at hopen
      exact hopen.elim
    · rw [hcontrol] at hopen
      exact hopen.elim
  | execve t =>
    rw [Machine.step] at hstep
    split_ifs at hstep with hnone hhook
    · obtain rfl := Option.some.inj hstep
      have hopen : s.control.Open := by
        have hhooked := hooked_of_hook h.core hhook
        cases hcontrol : s.control with
        | unloading pc =>
          rw [hcontrol] at hhooked
          have hle : pc ≤ 3 := of_decide_eq_true hhooked
          exact (hquiet pc hcontrol).resolve_right (by omega)
        | loading pc =>
          rw [hcontrol] at hhooked
          have hlt : 8 < pc := of_decide_eq_true hhooked
          exact hlt
        | loaded => trivial
        | absent => rw [hcontrol] at hhooked; cases hhooked
        | failed => rw [hcontrol] at hhooked; cases hhooked
        | finished => rw [hcontrol] at hhooked; cases hhooked
      refine ⟨hcore', fun t' place ht' => ?_, h.fault⟩
      by_cases heq : t' = t
      · subst heq
        obtain rfl := Option.some.inj ((Function.update_self t' _ _).symm.trans ht')
        exact ⟨nofun, hopen⟩
      · have hold : s.inside t' = some place := (Function.update_of_ne heq _ _).symm.trans ht'
        exact h.inside t' place hold
    · obtain rfl := Option.some.inj hstep
      exact h
  | go t ok =>
    rw [Machine.step] at hstep
    split at hstep
    · cases hstep
    · rename_i place hplace
      obtain rfl := Option.some.inj hstep
      obtain ⟨hlost, hopen⟩ := h.inside t place hplace
      refine ⟨hcore', fun t' place' ht' => ?_, ?_⟩
      · by_cases heq : t' = t
        · subst heq
          have hnext : place.next ok = some place' := (Function.update_self t' _ _).symm.trans ht'
          refine ⟨?_, hopen⟩
          rintro rfl
          cases place <;> cases ok <;> cases hnext
        · have hold : s.inside t' = some place' := (Function.update_of_ne heq _ _).symm.trans ht'
          exact h.inside t' place' hold
      · simp [h.fault, allowed_of_open h.core hopen hlost ok]

/-- The socket of the module that is there. -/
def Control.socket : Control → ℕ
  | .loading pc => if 1 < pc then 1 else 0
  | .loaded => 1
  | .unloading pc => if pc = 0 then 1 else 0
  | _ => 0

theorem sockets_step {leaked : ℕ} (hcore : CoreAt n s s.control)
    (h : s.sockets = leaked + s.control.socket) (hstep : s.step n e = some s') :
    s'.sockets = leaked + (failedLookup s e).length + s'.control.socket := by
  cases e with
  | insmod =>
    obtain ⟨habsent, rfl⟩ := guard_iff.mp hstep
    rw [habsent] at h
    exact h
  | rmmod =>
    obtain ⟨hloaded, rfl⟩ := guard_iff.mp hstep
    rw [hloaded] at h
    exact h
  | statement ok =>
    rw [Machine.step] at hstep
    split at hstep
    · rename_i pc hcontrol
      rw [hcontrol] at hcore h
      obtain rfl := Option.some.inj hstep
      rcases perform_init_cases ok hcore.1 hcore.2 with
        ⟨rfl, hp⟩ | ⟨st, hst, hlt, hok, hp⟩ | ⟨hle, rfl, hp⟩
      · rw [hp]
        cases ok <;> simpa [failedLookup, hcontrol, Control.socket] using h
      · have hnone : failedLookup s (.statement ok) = [] := by
          rcases hok with rfl | hok
          · rfl
          · have h2 : ¬ pc = 2 := by omega
            have h3 : ¬ pc = 3 := by omega
            cases ok <;> simp [failedLookup, hcontrol, h2, h3]
        rw [hp, hnone]
        interval_cases pc <;> cases hst <;> simp_all [Machine.socketsAfter, Control.socket]
      · rw [hp]
        interval_cases pc <;> simpa [failedLookup, hcontrol, Control.socket] using h
    · rename_i pc hcontrol
      rw [hcontrol] at hcore h
      obtain rfl := Option.some.inj hstep
      have hnone : failedLookup s (.statement ok) = [] := by
        cases ok <;> simp [failedLookup, hcontrol]
      rw [hnone]
      rcases perform_exit_cases ok hcore.1 hcore.2 with ⟨rfl, hp⟩ | ⟨st, hst, hlt, hp⟩
      · rw [hp]
        exact h
      · rw [hp]
        interval_cases pc <;> cases hst <;> simp_all [Machine.socketsAfter, Control.socket]
    · cases hstep
  | free =>
    obtain ⟨hcontrol, rfl⟩ := guard_iff.mp hstep
    rcases hcontrol with hcontrol | hcontrol <;> rw [hcontrol] at h <;> exact h
  | execve t =>
    rw [Machine.step] at hstep
    split_ifs at hstep
    · obtain rfl := Option.some.inj hstep
      exact h
    · obtain rfl := Option.some.inj hstep
      exact h
  | go t ok =>
    rw [Machine.step] at hstep
    split at hstep
    · cases hstep
    · obtain rfl := Option.some.inj hstep
      exact h

/-- In every run, the sockets that are left are the one of the loaded module and one for each failed
lookup of `monitor_execve_init`. -/
theorem sockets_eq_failedLookups (n : SyscallNumbers) (es : List MachineEvent) (s : Machine)
    (hrun : run (Machine.step n) Machine.start es = some s) :
    s.sockets = failedLookups n Machine.start es + s.control.socket := by
  refine run_induction (motive := fun es s =>
    s.sockets = failedLookups n Machine.start es + s.control.socket) rfl ?_ hrun
  intro es s e t hrun ih hstep
  have hconcat : failedLookups n Machine.start (es ++ [e]) =
      failedLookups n Machine.start es + (failedLookup s e).length := by
    rw [failedLookups, collected_concat hrun, List.length_append, failedLookups]
  rw [sockets_step (coreAt_run hrun) ih hstep, hconcat]

/-- The numbers of an x86-64 kernel. -/
def x86Numbers : SyscallNumbers := ⟨59, 314, by omega⟩

/-- After a load that does not find `getname`, its socket is left. -/
theorem sockets_after_failed_lookup :
    1 = failedLookups x86Numbers Machine.start
      [.insmod, .statement true, .statement true, .statement false, .free] + 0 :=
  sockets_eq_failedLookups x86Numbers
    [.insmod, .statement true, .statement true, .statement false, .free] _ rfl

/-! ## Safety -/

end YulongHids.SyscallHook
