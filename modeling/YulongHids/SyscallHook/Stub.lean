import YulongHids.SyscallHook.Loading

/-!
# The stub in front of `execve`

`monitor_stub_execve_hook` (`syscall_hook/syscall_stub_hook.S`) saves registers on the stack, calls
`monitor_execve_hook`, restores them and jumps through `orig_sys_call_table`. Memory is seen in words
of eight bytes. What a compiled function keeps is a hypothesis: the registers that the System V ABI
reserves for its caller, and the stack from the stack pointer on.
-/

namespace YulongHids.SyscallHook

abbrev Word := BitVec 64

inductive Reg where
  | rax | rbx | rcx | rdx | rsi | rdi | rbp | rsp | r8 | r9 | r10 | r11 | r12 | r13 | r14 | r15
  deriving DecidableEq

structure Cpu where
  regs : Reg → Word
  mem : Word → Word

namespace Cpu

variable (c : Cpu)

def set (r : Reg) (v : Word) : Cpu := { c with regs := Function.update c.regs r v }

def store (a v : Word) : Cpu := { c with mem := Function.update c.mem a v }

/-- `pushq r` -/
def push (r : Reg) : Cpu := (c.store (c.regs .rsp - 8) (c.regs r)).set .rsp (c.regs .rsp - 8)

/-- `pop r`, for another register than the stack pointer -/
def pop (r : Reg) : Cpu := (c.set r (c.mem (c.regs .rsp))).set .rsp (c.regs .rsp + 8)

def pushAll (rs : List Reg) : Cpu := rs.foldl push c

def popAll (rs : List Reg) : Cpu := rs.foldl pop c

end Cpu

/-- The bytes of the stack of a thread that are in use, if it begins at `base`. -/
def Cpu.depth (base : Word) (c : Cpu) : ℕ := (base - c.regs .rsp).toNat

/-- The size of the stack of a thread in the kernel. -/
def threadSize : ℕ := 2 ^ 14

/-- `d` has the stack pointer of `c`, and what `c` has on the stack. -/
def Cpu.KeepsStack (base : Word) (c d : Cpu) : Prop :=
  d.regs .rsp = c.regs .rsp ∧ ∀ i : ℕ, 8 * i < c.depth base →
    d.mem (c.regs .rsp + BitVec.ofNat 64 (8 * i)) = c.mem (c.regs .rsp + BitVec.ofNat 64 (8 * i))

/-- A compiled function, from its call to behind its return, on a stack that begins at `base`. -/
structure CFunction (base : Word) where
  run : Cpu → Cpu
  calleeSaved : ∀ c, ∀ r ∈ [Reg.rbx, .rbp, .r12, .r13, .r14, .r15], (run c).regs r = c.regs r
  stack : ∀ c : Cpu, c.depth base ≤ threadSize → c.KeepsStack base (run c)

/-- The registers that the stub pushes, in their order. -/
def savedRegs : List Reg := [.rbx, .rdi, .rsi, .rdx, .rcx, .rax, .r8, .r9, .r10, .r11]

/-- The registers that it pops. -/
def restoredRegs : List Reg := [.r11, .r10, .r9, .r8, .rax, .rcx, .rdx, .rsi, .rdi, .rbx]

variable {base : Word}

/-- The registers and the memory at the jump. -/
def stub (monitor_execve_hook : CFunction base) (c : Cpu) : Cpu :=
  (monitor_execve_hook.run (c.pushAll savedRegs)).popAll restoredRegs

/-- `monitor_stub_execve_hook`: where the jump goes, and with what. -/
def monitorStubExecveHook (g : Globals) (monitor_execve_hook : CFunction base) (c : Cpu) :
    Option Entry × Cpu :=
  let c' := stub monitor_execve_hook c
  (g.orig_sys_call_table (c'.regs .rax).toNat, c')

end YulongHids.SyscallHook
