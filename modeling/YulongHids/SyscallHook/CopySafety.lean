import YulongHids.SyscallHook.Hook

/-!
# The copies of the exec hook

What the second passes of `monitor_execve_hook` do, said of the readings alone: which strings a pass
comes to, whether it ends without a jump, and what it leaves in memory.
-/

namespace YulongHids.SyscallHook

open Golang Transition

/-! ## Sizes -/

def lenSum (gs : List Glance) : ℕ := (gs.map Glance.len).sum

/-- The size of the total, an `int`. -/
def UserArray.totalSize (a : UserArray) (n : ℕ) : ℤ := int32 (lenSum (a.glances n) + 16 * n)

/-- The greatest length of the first pass. -/
def UserArray.maxLen (a : UserArray) (n : ℕ) : ℕ :=
  (a.glances n).foldl (fun max_len g => max max_len g.len) 0

/-- The first pass over `n` strings goes on to its end. -/
def UserArray.Measured (a : UserArray) (n : ℕ) : Prop :=
  a.count = some n ∧ ∀ g ∈ a.glances n, g.readable = true

/-! ## The course of a second pass -/

/-- Every string is copied. -/
def takeAll (_ : Turn) : Option Bool := some true

section

variable (verdict : Turn → Option Bool)

/-- What a turn adds to the total. -/
def Turn.taken (t : Turn) : ℕ := if verdict t = some true then t.len else 0

/-- A turn does not jump, if its string fits. -/
def Turn.served (t : Turn) : Bool :=
  t.readable &&
    match verdict t with
    | none => false
    | some false => true
    | some true => t.copy.isSome

/-- A pass from an offset on comes to its end, or to a string that does not fit. -/
def Through (size : ℤ) : ℤ → List Turn → Prop
  | _, [] => True
  | offset, t :: rest =>
    t.readable = true ∧
      (offset + t.len ≤ size → t.served verdict = true ∧
        Through size (offset + t.taken verdict) rest)

/-- A pass from an offset on comes to a string that fits, after the strings before it. -/
def ComesTo (size : ℤ) : ℤ → List Turn → Turn → Prop
  | offset, [], t => t.readable = true ∧ offset + t.len ≤ size
  | offset, u :: before, t =>
    u.served verdict = true ∧ offset + u.len ≤ size ∧
      ComesTo size (offset + u.taken verdict) before t

/-- Each of the strings fits when the pass comes to it. -/
def Fits (size : ℤ) : ℤ → List Turn → Prop
  | _, [] => True
  | offset, t :: rest => offset + t.len ≤ size ∧ Fits size (offset + t.taken verdict) rest

/-- The first strings fit and fill the total to its last byte. -/
def Fills (size : ℤ) (turns : List Turn) : Prop :=
  ∃ first, first <+: turns ∧ Fits verdict size 0 first ∧ (first.map (Turn.taken verdict)).sum = size

/-- The strings taken from the first ones, up to one that does not fit. -/
def takenStrings (size : ℤ) : ℤ → List Turn → List GoString
  | _, [] => []
  | offset, t :: rest =>
    if offset + t.len ≤ size then
      if verdict t = some true then
        (t.copy.getD []).dropLast :: takenStrings size (offset + t.len) rest
      else takenStrings size offset rest
    else []

end

/-- The strings as they stand in a total: a blank behind each. -/
def blanked (strings : List GoString) : GoString := strings.flatMap fun s => s ++ [32]

/-- All the writes so far are inside the allocations. -/
def Locals.AllInside (l : Locals) : Prop := ∀ a ∈ l.accesses, a.Inside

/-- The run of the hook comes to the second pass over `envp`. -/
structure EnvpReached (k : Kernel) (argv envp : UserArray) (argc envpc : ℕ) : Prop where
  name : k.tmp_getname = true
  argv_measured : argv.Measured argc
  argc_given : k.kmalloc .total_argc_ptr (sizeT (argv.totalSize argc)) = true
  argv_through : Through takeAll (argv.totalSize argc) 0 (argv.turns argc).tail
  envp_measured : envp.Measured envpc
  per_given : k.kmalloc .per_envp (envp.maxLen envpc + 16) = true
  envpc_given : k.kmalloc .total_envpc_ptr (sizeT (envp.totalSize envpc)) = true

/-! ## Terminators -/

/-- The hook up to the calls of `strlen`. -/
def copyBlocks (k : Kernel) (argv envp : UserArray) : List (Block Locals) :=
  beforeEnvpc k argv envp ++ [fillEnvpc envp]

/-- There is a NUL in the allocation, unless the allocation has no bytes. -/
def Terminated : Option Region → Prop
  | none => False
  | some region => region.size ≠ 0 → ∃ i : ℕ, i < region.size ∧ region.mem i = 0

/-- User space leaves `n` strings alone: the second pass can read them all, finds the lengths of the
first pass, and copies strings of these lengths. -/
structure UserArray.Steady (a : UserArray) (n : ℕ) : Prop where
  measured : a.Measured n
  len_eq : ∀ i < n, (a.second i).len = (a.first i).len
  readable : ∀ i < n, (a.second i).readable = true
  inspected : ∀ i < n, (a.second i).captured ≠ none
  copied : ∀ i < n, ∃ bytes, (a.second i).copy = some bytes ∧ 0 ∉ bytes.dropLast

end YulongHids.SyscallHook
