import YulongHids.Transition.Blocks
import YulongHids.SyscallHook.UserArrays

/-!
# The exec hook and what it holds

`monitor_execve_hook` (`syscall_hook/syscall_hook.c`, kernels from 3.10 on) from its first allocation
to its return, as the blocks between its jumps to `err`. The outcomes of the calls it makes are data;
`trace` records the calls that acquire and release something, `accesses` the writes to its buffers.
The text of the message is in `Execve`.
-/

namespace YulongHids.SyscallHook

open Golang Transition

/-- The answers of the kernel. `kmalloc` is asked at each call for a number of bytes; no kernel has a
limit (`KMALLOC_MAX_SIZE`) above 2 ^ 30. `fresh` is what the memory holds. -/
structure Kernel where
  kmalloc : Buffer → ℕ → Bool
  kmalloc_le : ∀ b n, kmalloc b n = true → n ≤ 2 ^ 30
  fresh : Buffer → Mem
  tmp_getname : Bool
  open_exec : Bool
  alloc_skb : Bool
  nlmsg_put : Bool
  netlink_broadcast : ℤ

/-- The argument of `kmalloc` is a `size_t`: a negative `int` becomes a huge number. -/
def sizeT (n : ℤ) : ℕ := (n % 2 ^ 64).toNat

/-- The calls that acquire something, where they succeed, and those that release something.
`tmp_putname` is called with a name or with an error pointer. `netlink_broadcast` takes the socket
buffer whatever it returns. -/
inductive Call
  | kmalloc (b : Buffer)
  | kfree (b : Buffer)
  | tmp_getname
  | tmp_putname (IS_ERR : Bool)
  | open_exec
  | fput
  | alloc_skb
  | kfree_skb
  | netlink_broadcast
  deriving DecidableEq

/-- The variables of the hook. `tmp` is true if it is not null, `path` if it is a name, `file` as long
as it is open. -/
structure Locals where
  tmp : Bool := false
  path : Bool := false
  file : Bool := false
  tmp_argc : ℕ := 0
  total_argc_len : ℤ := 0
  total_argc_ptr : Option Region := none
  tmp_envpc : ℕ := 0
  total_envpc_len : ℤ := 0
  max_len : ℕ := 0
  per_envp : Option ℕ := none
  total_envpc_ptr : Option Region := none
  trace : List Call := []
  accesses : List Access := []

def Locals.call (l : Locals) (c : Call) : Locals := { l with trace := l.trace ++ [c] }

def Locals.access (l : Locals) (as : List Access) : Locals := { l with accesses := l.accesses ++ as }

/-! ## What is held -/

inductive Resource
  | buffer (b : Buffer)
  | name
  | file
  | skb
  deriving DecidableEq

def Call.acquires : Call → Option Resource
  | .kmalloc b => some (.buffer b)
  | .tmp_getname => some .name
  | .open_exec => some .file
  | .alloc_skb => some .skb
  | _ => none

def Call.releases : Call → Option Resource
  | .kfree b => some (.buffer b)
  | .tmp_putname false => some .name
  | .fput => some .file
  | .kfree_skb => some .skb
  | .netlink_broadcast => some .skb
  | _ => none

def acquired (r : Resource) (trace : List Call) : ℕ := trace.countP (·.acquires = some r)

def released (r : Resource) (trace : List Call) : ℕ := trace.countP (·.releases = some r)

/-- What was acquired, once at most, was released as often, and no error pointer was released. -/
structure ReleasesAll (trace : List Call) : Prop where
  once : ∀ r, acquired r trace ≤ 1
  exactly : ∀ r, released r trace = acquired r trace
  no_error_ptr : Call.tmp_putname true ∉ trace

/-! ## Acquisition -/

def kmallocTmp (k : Kernel) : Block Locals := fun l =>
  .ok (if k.kmalloc .tmp PATH_MAX then { l.call (.kmalloc .tmp) with tmp := true } else l)

def getPath (k : Kernel) : Block Locals := fun l =>
  if k.tmp_getname then .ok { l.call .tmp_getname with path := true } else .error l

/-- The file is put in the branch that needs `tmp` for its path. -/
def openExec (k : Kernel) : Block Locals := fun l =>
  if k.open_exec then
    if l.tmp then
      .ok (((l.call .open_exec).access [⟨.tmp, PATH_MAX, 0, PATH_MAX⟩]).call .fput)
    else .ok { l.call .open_exec with file := true }
  else .ok l

/-! ## The arguments -/

def countArgv (argv : UserArray) : Block Locals := fun l =>
  match argv.count with
  | none => .error l
  | some n => .ok { l with tmp_argc := n }

def measureArgv (argv : UserArray) : Block Locals := fun l =>
  match measure l.total_argc_len 0 (argv.glances l.tmp_argc) with
  | none => .error l
  | some (total, _) => .ok { l with total_argc_len := total }

/-- `total_argc_len + 16 * tmp_argc` -/
def Locals.argcSize (l : Locals) : ℤ := int32 (l.total_argc_len + int32 (16 * l.tmp_argc))

/-- Fresh memory after `memset` of all of it. -/
def zeroed (k : Kernel) (b : Buffer) (size : ℕ) : Region :=
  ⟨size, (k.fresh b).write 0 (List.replicate size 0)⟩

def allocArgc (k : Kernel) : Block Locals := fun l =>
  if k.kmalloc .total_argc_ptr (sizeT l.argcSize) then
    let region := zeroed k .total_argc_ptr (sizeT l.argcSize)
    .ok { (l.call (.kmalloc .total_argc_ptr)).access
      [⟨.total_argc_ptr, region.size, 0, region.size⟩] with total_argc_ptr := some region }
  else .error l

def fillArgc (argv : UserArray) : Block Locals := fun l =>
  match l.total_argc_ptr with
  | none => .error l
  | some region =>
    let r := copyArgv region.size l.argcSize region.mem (argv.turns l.tmp_argc)
    match r.2 with
    | none => .error (l.access r.1)
    | some mem => .ok { l.access r.1 with total_argc_ptr := some { region with mem := mem } }

/-! ## The environment -/

def countEnvp (envp : UserArray) : Block Locals := fun l =>
  match envp.count with
  | none => .error l
  | some n => .ok { l with tmp_envpc := n }

def measureEnvp (envp : UserArray) : Block Locals := fun l =>
  match measure l.total_envpc_len l.max_len (envp.glances l.tmp_envpc) with
  | none => .error l
  | some (total, max_len) => .ok { l with total_envpc_len := total, max_len := max_len }

def allocPerEnvp (k : Kernel) : Block Locals := fun l =>
  if k.kmalloc .per_envp (l.max_len + 16) then
    .ok { l.call (.kmalloc .per_envp) with per_envp := some (l.max_len + 16) }
  else .error l

/-- `total_envpc_len + 16 * tmp_envpc` -/
def Locals.envpcSize (l : Locals) : ℤ := int32 (l.total_envpc_len + int32 (16 * l.tmp_envpc))

def allocEnvpc (k : Kernel) : Block Locals := fun l =>
  if k.kmalloc .total_envpc_ptr (sizeT l.envpcSize) then
    let region := zeroed k .total_envpc_ptr (sizeT l.envpcSize)
    .ok { (l.call (.kmalloc .total_envpc_ptr)).access
      [⟨.total_envpc_ptr, region.size, 0, region.size⟩] with total_envpc_ptr := some region }
  else .error l

def fillEnvpc (envp : UserArray) : Block Locals := fun l =>
  match l.total_envpc_ptr with
  | none => .error l
  | some region =>
    let r := copyEnvp region.size l.envpcSize (l.per_envp.getD 0) l.max_len region.mem
      (envp.turns l.tmp_envpc)
    match r.2 with
    | none => .error (l.access r.1)
    | some mem => .ok { l.access r.1 with total_envpc_ptr := some { region with mem := mem } }

/-! ## The message and the way out -/

def send (k : Kernel) : Block Locals := fun l =>
  if !k.alloc_skb then .error l
  else if !k.nlmsg_put then .error ((l.call .alloc_skb).call .kfree_skb)
  else if k.netlink_broadcast ≠ 0 ∧ k.netlink_broadcast ≠ -3 then
    .error ((l.call .alloc_skb).call .netlink_broadcast)
  else .ok ((l.call .alloc_skb).call .netlink_broadcast)

def openBlocks (k : Kernel) : List (Block Locals) := [kmallocTmp k, getPath k, openExec k]

def argvBlocks (k : Kernel) (argv : UserArray) : List (Block Locals) :=
  [countArgv argv, measureArgv argv, allocArgc k]

def envpBlocks (k : Kernel) (envp : UserArray) : List (Block Locals) :=
  [countEnvp envp, measureEnvp envp, allocPerEnvp k, allocEnvpc k]

/-- Up to the second pass over `envp`. -/
def beforeEnvpc (k : Kernel) (argv envp : UserArray) : List (Block Locals) :=
  (openBlocks k ++ argvBlocks k argv) ++ fillArgc argv :: envpBlocks k envp

def hookBlocks (k : Kernel) (argv envp : UserArray) : List (Block Locals) :=
  beforeEnvpc k argv envp ++ [fillEnvpc envp, send k]

/-- The pointer to an allocation is not null. -/
def Locals.holds (l : Locals) : Buffer → Bool
  | .tmp => l.tmp
  | .total_argc_ptr => l.total_argc_ptr.isSome
  | .per_envp => l.per_envp.isSome
  | .total_envpc_ptr => l.total_envpc_ptr.isSome

def Locals.setNull (l : Locals) : Buffer → Locals
  | .tmp => { l with tmp := false }
  | .total_argc_ptr => { l with total_argc_ptr := none }
  | .per_envp => { l with per_envp := none }
  | .total_envpc_ptr => { l with total_envpc_ptr := none }

/-- `if(ptr) { kfree(ptr); ptr = NULL; }` -/
def Locals.kfree (l : Locals) (b : Buffer) : Locals :=
  if l.holds b then (l.call (.kfree b)).setNull b else l

/-- The order of the label. -/
def kfreeOrder : List Buffer := [.tmp, .per_envp, .total_argc_ptr, .total_envpc_ptr]

/-- The code at the label `err`. -/
def cleanUp (l : Locals) : Locals :=
  (kfreeOrder.foldl Locals.kfree l).call (.tmp_putname !l.path)

/-- The hook up to its return. -/
def monitorExecveHook (k : Kernel) (argv envp : UserArray) : Locals :=
  cleanUp (leaves (runBlocks (hookBlocks k argv envp) {}))

end YulongHids.SyscallHook
