import YulongHids.Transition.History

/-!
# Loading and unloading the hook

`monitor_execve_init` and `monitor_execve_exit` (`syscall_hook/syscall_hook.c`, kernels from 3.10 on)
statement by statement, with other threads that call `execve` at any time. A thread that finds the
hook in the table goes through `monitor_stub_execve_hook` and `monitor_execve_hook`, of which the
places stand here that use something the module has set up. The kernel frees the memory of the module
after `monitor_execve_exit`, and after a `monitor_execve_init` that failed.
-/

namespace YulongHids.SyscallHook

/-- `__NR_execve` and `NR_syscalls` of the kernel. -/
structure SyscallNumbers where
  NR_execve : ℕ
  NR_syscalls : ℕ
  execve_lt : NR_execve < NR_syscalls - 1

/-- What a place in the table points to. -/
inductive Entry where
  | original (nr : ℕ)
  | hook
  deriving DecidableEq

inductive SocketPtr where
  | null
  | live
  | released
  deriving DecidableEq

/-- The variables of the module. Of `original_cr0` it is the write protection. -/
structure Globals where
  sys_call_table_ptr : Bool := false
  syshook_nl_sk : SocketPtr := .null
  tmp_getname : Bool := false
  tmp_putname : Bool := false
  original_cr0 : Bool := false
  orig_sys_call_table : ℕ → Option Entry := fun _ => none
  orig_stub_execve : Option Entry := none

/-- What only the two functions write. -/
structure Core where
  table : ℕ → Entry
  write_protect : Bool
  globals : Globals
  fault : Bool

inductive Statement where
  | find_sys_call_table
  | netlink_kernel_create
  | lookup_getname
  | lookup_putname
  | read_cr0
  | clear_wp
  | copy_table
  | save_execve
  | hook_execve
  | restore_wp
  | netlink_kernel_release
  | check_table
  | restore_execve
  | clear_table

def monitorExecveInit : List Statement :=
  [.find_sys_call_table, .netlink_kernel_create, .lookup_getname, .lookup_putname, .read_cr0,
    .clear_wp, .copy_table, .save_execve, .hook_execve, .restore_wp]

def monitorExecveExit : List Statement :=
  [.netlink_kernel_release, .check_table, .clear_wp, .restore_execve, .restore_wp, .clear_table]

/-- Whether the function goes on behind the statement. `ok` is the answer of the kernel. -/
def Statement.succeeds (ok : Bool) (c : Core) : Statement → Bool
  | .find_sys_call_table | .netlink_kernel_create | .lookup_getname | .lookup_putname => ok
  | .check_table => c.globals.sys_call_table_ptr
  | _ => true

namespace Core

variable (n : SyscallNumbers)

def setExecve (c : Core) (entry : Entry) : Core :=
  { c with table := Function.update c.table n.NR_execve entry, fault := c.fault || c.write_protect }

/-- The effect of a statement behind which the function goes on. -/
def exec (c : Core) : Statement → Core
  | .find_sys_call_table => { c with globals.sys_call_table_ptr := true }
  | .netlink_kernel_create => { c with globals.syshook_nl_sk := .live }
  | .lookup_getname => { c with globals.tmp_getname := true }
  | .lookup_putname => { c with globals.tmp_putname := true }
  | .read_cr0 => { c with globals.original_cr0 := c.write_protect }
  | .clear_wp => { c with write_protect := false }
  | .copy_table =>
    { c with globals.orig_sys_call_table := fun i =>
      if i < n.NR_syscalls - 1 then some (c.table i) else none }
  | .save_execve => { c with globals.orig_stub_execve := some (c.table n.NR_execve) }
  | .hook_execve => c.setExecve n .hook
  | .restore_wp => { c with write_protect := c.globals.original_cr0 }
  | .netlink_kernel_release => { c with globals.syshook_nl_sk := .released }
  | .check_table => c
  | .restore_execve =>
    match c.globals.orig_stub_execve with
    | some entry => c.setExecve n entry
    | none => { c with fault := true }
  | .clear_table => { c with globals.sys_call_table_ptr := false }

end Core

/-- The thread that loads and unloads the module: at which statement it is. -/
inductive Control where
  | absent
  | loading (pc : ℕ)
  | failed
  | loaded
  | unloading (pc : ℕ)
  | finished
  deriving DecidableEq

/-- Where a thread is that the hook has intercepted: before its call of `tmp_getname`, before its
message, before its call of `tmp_putname`, before the jump through `orig_sys_call_table`, or in memory
that was freed. -/
inductive Place where
  | getname
  | send
  | putname
  | jump
  | lost
  deriving DecidableEq

/-- Whether a thread can go on from its place. `ok` says that it gets a name, or that it comes to
`netlink_broadcast`. -/
def Place.allowed (n : SyscallNumbers) (g : Globals) (ok : Bool) : Place → Bool
  | .getname => g.tmp_getname
  | .send => !ok || g.syshook_nl_sk == .live
  | .putname => g.tmp_putname
  | .jump => g.orig_sys_call_table n.NR_execve == some (.original n.NR_execve)
  | .lost => false

def Place.next (ok : Bool) : Place → Option Place
  | .getname => if ok then some .send else some .putname
  | .send => some .putname
  | .putname => some .jump
  | .jump => none
  | .lost => none

/-- The kernel, with the number of sockets that the module has and those it had. -/
structure Machine where
  control : Control
  core : Core
  sockets : ℕ
  inside : ℕ → Option Place
  fault : Bool

inductive MachineEvent where
  | insmod
  | rmmod
  /-- The next statement of the thread that loads or unloads. -/
  | statement (ok : Bool)
  /-- The memory of the module is freed. -/
  | free
  /-- A thread calls `execve`. -/
  | execve (thread : ℕ)
  /-- An intercepted thread goes on. -/
  | go (thread : ℕ) (ok : Bool)

namespace Machine

variable (n : SyscallNumbers)

def start : Machine :=
  ⟨.absent, ⟨Entry.original, true, {}, false⟩, 0, fun _ => none, false⟩

/-- The sockets after a statement. -/
def socketsAfter (sockets : ℕ) : Statement → ℕ
  | .netlink_kernel_create => sockets + 1
  | .netlink_kernel_release => sockets - 1
  | _ => sockets

/-- The statement `pc` of `body`, behind which the thread is at `next`, at `early` after an early
return, and at `last` if there is none. -/
def perform (s : Machine) (body : List Statement) (pc : ℕ) (ok : Bool) (next early last : Control) :
    Machine :=
  match body[pc]? with
  | none => { s with control := last }
  | some st =>
    if st.succeeds ok s.core then
      { s with control := next, core := s.core.exec n st, sockets := socketsAfter s.sockets st }
    else { s with control := early }

def step (s : Machine) : MachineEvent → Option Machine
  | .insmod =>
    if s.control = .absent then
      some { s with control := .loading 0, core.globals := {} }
    else none
  | .rmmod => if s.control = .loaded then some { s with control := .unloading 0 } else none
  | .statement ok =>
    match s.control with
    | .loading pc => some (s.perform n monitorExecveInit pc ok (.loading (pc + 1)) .failed .loaded)
    | .unloading pc =>
      some (s.perform n monitorExecveExit pc ok (.unloading (pc + 1)) .finished .finished)
    | _ => none
  | .free =>
    if s.control = .failed ∨ s.control = .finished then
      some { s with control := .absent, inside := fun t => (s.inside t).map fun _ => .lost }
    else none
  | .execve t =>
    if s.inside t = none then
      if s.core.table n.NR_execve = .hook then
        some { s with inside := Function.update s.inside t (some .getname) }
      else some s
    else none
  | .go t ok =>
    match s.inside t with
    | none => none
    | some place =>
      some { s with
        inside := Function.update s.inside t (place.next ok)
        fault := s.fault || !place.allowed n s.core.globals ok }

end Machine

/-! ## Which runs are safe -/

/-- The statements at which `execve` is intercepted: from the one behind `hook_execve` to
`restore_execve`. -/
def Control.hooked : Control → Bool
  | .loading pc => decide (8 < pc)
  | .loaded => true
  | .unloading pc => decide (pc ≤ 3)
  | _ => false

/-- No thread is in the hook when the socket is released, and none calls `execve` between that and the
statement that takes the hook out of the table. -/
def Undisturbed (s : Machine) : MachineEvent → Prop
  | .statement _ => s.control = .unloading 0 → ∀ t, s.inside t = none
  | .execve _ => ∀ pc, s.control = .unloading pc → pc = 0 ∨ 3 < pc
  | _ => True

/-- A lookup that fails, behind the creation of the socket. -/
def failedLookup (s : Machine) : MachineEvent → List Unit
  | .statement false => if s.control = .loading 2 ∨ s.control = .loading 3 then [()] else []
  | _ => []

/-- The number of them in a run. -/
def failedLookups (n : SyscallNumbers) (s0 : Machine) (es : List MachineEvent) : ℕ :=
  (Transition.collected (Machine.step n) failedLookup s0 es).length

end YulongHids.SyscallHook
