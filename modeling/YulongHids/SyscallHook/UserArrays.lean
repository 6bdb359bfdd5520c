import YulongHids.SyscallHook.Execve

/-!
# The loops of the exec hook over user memory

The loops of `monitor_execve_hook` (`syscall_hook/syscall_hook.c`, kernels from 3.10 on) over `argv`
and `envp`. Each array is read three times: `tmp_count` counts its pointers, a first pass measures
the strings, and after the allocations a second pass measures them again and copies them. Nothing
ties the readings together, since user space may write in between: what each of them finds is data.
Sums are those of a C `int`.
-/

namespace YulongHids.SyscallHook

open Golang

def MAX_ARG_STRINGS : ℕ := 0x7FFFFFFF

/-- 32 pages. -/
def MAX_ARG_STRLEN : ℕ := 131072

/-- The value of a sum in an `int`: it wraps. -/
@[irreducible] def int32 (n : ℤ) : ℤ := n.bmod (2 ^ 32)

/-! ## Readings of user memory -/

/-- What `get_user_arg_ptr` returns. -/
inductive UserPtr
  | null
  | IS_ERR
  | native
  deriving DecidableEq

/-- What a turn of a first pass reads: whether `get_user_arg_ptr` returns an error pointer, and what
`strnlen_user` returns (0 for a fault, the terminator included, one above the limit at most). -/
structure Glance where
  IS_ERR : Bool
  len : ℕ
  len_le : len ≤ MAX_ARG_STRLEN + 1

/-- What a turn of a second pass reads. `captured` is the copy to `per_envp`, which the loop over
`argv` does not make: `none` if it faults, else whether one of the three calls of `strstr` finds its
name. `copy` is the copy to the total, `none` if it faults. -/
structure Turn extends Glance where
  captured : Option Bool
  copy : Option GoString
  copy_length : ∀ bytes, copy = some bytes → bytes.length = len

/-- `argv` or `envp`: the pointers that `tmp_count` finds, the turns of the loop of `tmp_count` after
which a fatal signal is pending, and the readings of the two passes. -/
structure UserArray where
  isNull : Bool
  ptr : ℕ → UserPtr
  fatal : ℕ → Bool
  first : ℕ → Glance
  second : ℕ → Turn

/-- The loop of `tmp_count` from `i` on, with `room` more pointers allowed. -/
def tmpCount (ptr : ℕ → UserPtr) (fatal : ℕ → Bool) : ℕ → ℕ → Option ℕ
  | room, i =>
    match ptr i with
    | .null => some i
    | .IS_ERR => none
    | .native =>
      match room with
      | 0 => none
      | room + 1 => if fatal i then none else tmpCount ptr fatal room (i + 1)

/-- `tmp_count(array, MAX_ARG_STRINGS)`; `none` stands for the negative results. -/
def UserArray.count (a : UserArray) : Option ℕ :=
  if a.isNull then some 0 else tmpCount a.ptr a.fatal MAX_ARG_STRINGS 0

/-- The readings of the first pass over `n` strings. -/
def UserArray.glances (a : UserArray) (n : ℕ) : List Glance := (List.range n).map a.first

/-- The readings of the second pass over `n` strings. -/
def UserArray.turns (a : UserArray) (n : ℕ) : List Turn := (List.range n).map a.second

/-! ## The first pass -/

/-- Both checks of a turn: the pointer is no error pointer, and the string can be read. -/
def Glance.readable (g : Glance) : Bool := !g.IS_ERR && g.len ≠ 0

/-- The first pass: the sum of the lengths and the greatest of them. The loop over `argv` keeps the
sum only. -/
def measure : ℤ → ℕ → List Glance → Option (ℤ × ℕ)
  | total, max_len, [] => some (total, max_len)
  | total, max_len, g :: rest =>
    if g.readable then measure (int32 (total + g.len)) (max max_len g.len) rest else none

/-! ## Memory -/

/-- The allocations of the hook. -/
inductive Buffer
  | tmp
  | total_argc_ptr
  | per_envp
  | total_envpc_ptr
  deriving DecidableEq

/-- The bytes from a pointer on. -/
abbrev Mem := ℤ → UInt8

def Mem.write (m : Mem) (start : ℤ) (bytes : GoString) : Mem := fun i =>
  if start ≤ i ∧ i < start + bytes.length then bytes.getD (i - start).toNat 0 else m i

/-- A write of `count` bytes from `start` on, through a pointer to an allocation of `size` bytes. -/
structure Access where
  buffer : Buffer
  size : ℕ
  start : ℤ
  count : ℕ

/-- The write stays in the allocation. -/
def Access.Inside (a : Access) : Prop := 0 ≤ a.start ∧ a.start + a.count ≤ a.size

instance (a : Access) : Decidable a.Inside := inferInstanceAs (Decidable (_ ∧ _))

/-- The pointer to a total: the bytes allocated, and what they hold. -/
structure Region where
  size : ℕ
  mem : Mem

/-! ## The second pass -/

/-- The second pass from an offset on, into an allocation of `allocated` bytes: its writes, and what
the memory holds after it; `none` stands for a jump to `err`. `inspect` is what happens between the
guard and the copy: its writes, `none` if it jumps, and whether the string is copied. The string is
copied with its terminator, over which a blank is written. -/
def copyLoop (b : Buffer) (allocated : ℕ) (size : ℤ)
    (inspect : Turn → List Access × Option Bool) :
    ℤ → Mem → List Turn → List Access × Option Mem
  | _, mem, [] => ([], some mem)
  | offset, mem, t :: rest =>
    if !t.readable then ([], none)
    else if int32 (offset + t.len) > size then ([], some mem)
    else
      match (inspect t).2 with
      | none => ((inspect t).1, none)
      | some false =>
        let r := copyLoop b allocated size inspect offset mem rest
        ((inspect t).1 ++ r.1, r.2)
      | some true =>
        match t.copy with
        | none => ((inspect t).1 ++ [⟨b, allocated, offset, t.len⟩], none)
        | some bytes =>
          let blank := int32 (offset + (t.len - 1))
          let r := copyLoop b allocated size inspect (int32 (blank + 1))
            ((mem.write offset bytes).write blank [32]) rest
          ((inspect t).1 ++ ⟨b, allocated, offset, t.len⟩ :: ⟨b, allocated, blank, 1⟩ :: r.1, r.2)

/-- Nothing stands between the guard and the copy in the pass over `argv`. -/
def inspectArgv (_ : Turn) : List Access × Option Bool := ([], some true)

/-- The second pass over `argv`, which passes over the first string. -/
def copyArgv (allocated : ℕ) (size : ℤ) (mem : Mem) (turns : List Turn) :
    List Access × Option Mem :=
  copyLoop .total_argc_ptr allocated size inspectArgv 0 mem turns.tail

/-- The copy to `per_envp`, of `per_size` bytes: `memset` of `max_len` bytes, then the string. -/
def inspectEnvp (per_size max_len : ℕ) (t : Turn) : List Access × Option Bool :=
  ([⟨.per_envp, per_size, 0, max_len⟩, ⟨.per_envp, per_size, 0, t.len⟩], t.captured)

/-- The second pass over `envp`. -/
def copyEnvp (allocated : ℕ) (size : ℤ) (per_size max_len : ℕ) (mem : Mem) (turns : List Turn) :
    List Access × Option Mem :=
  copyLoop .total_envpc_ptr allocated size (inspectEnvp per_size max_len) 0 mem turns

end YulongHids.SyscallHook
