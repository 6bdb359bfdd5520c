import Mathlib.Data.List.GetD
import YulongHids.Transition.Run
import YulongHids.SyscallHook.CopySafety
import YulongHids.SyscallHook.Proofs.HookProofs

/-!
# Proofs: the copies of the exec hook

The offset of a second pass never leaves the allocation, because the guard compares the end of each
copy with the size, and the sum cannot wrap: an allocation has at most 2 ^ 30 bytes, and a string at
most 32 pages and a byte. The copies to the totals are therefore inside them. The copy to `per_envp`
is guarded by the size of the total only.
-/

namespace YulongHids.SyscallHook

open Golang Transition

/-! ## Sums of an int -/

theorem int32_of_bounds {n : ℤ} (hlo : -2 ^ 31 ≤ n) (hhi : n < 2 ^ 31) : int32 n = n := by
  rw [int32, Int.bmod_eq_of_le] <;> omega

@[simp] theorem int32_zero : int32 0 = 0 := int32_of_bounds (by norm_num) (by norm_num)

theorem int32_add_int32 (m n : ℤ) : int32 (m + int32 n) = int32 (m + n) := by
  simp only [int32, Int.add_bmod_bmod]

theorem int32_int32_add (m n : ℤ) : int32 (int32 m + n) = int32 (m + n) := by
  simp only [int32, Int.bmod_add_bmod]

theorem int32_lt (n : ℤ) : int32 n < 2 ^ 31 := by
  have := @Int.bmod_lt n (2 ^ 32) (by norm_num)
  rw [int32]
  omega

theorem le_int32 (n : ℤ) : -2 ^ 31 ≤ int32 n := by
  have := @Int.le_bmod n (2 ^ 32) (by norm_num)
  rw [int32]
  omega

/-- An allocation that succeeds has the number of bytes that the `int` says. -/
theorem sizeT_of_kmalloc {k : Kernel} {b : Buffer} {n : ℤ}
    (h : k.kmalloc b (sizeT (int32 n)) = true) :
    0 ≤ int32 n ∧ int32 n ≤ 2 ^ 30 ∧ (sizeT (int32 n) : ℤ) = int32 n := by
  have hle := k.kmalloc_le b _ h
  have hlt := int32_lt n
  have hge := le_int32 n
  unfold sizeT at hle ⊢
  omega

/-! ## The first pass -/

theorem measure_eq (n : ℤ) (max_len : ℕ) (gs : List Glance) :
    measure (int32 n) max_len gs =
      if ∀ g ∈ gs, g.readable = true then
        some (int32 (n + lenSum gs), gs.foldl (fun m g => max m g.len) max_len)
      else none := by
  induction gs generalizing n max_len with
  | nil => simp [measure, lenSum]
  | cons g gs ih =>
    rw [measure]
    by_cases hg : g.readable = true
    · rw [if_pos hg, int32_int32_add, ih]
      simp only [List.forall_mem_cons, hg, true_and, List.foldl_cons]
      have hsum : (lenSum (g :: gs) : ℤ) = g.len + lenSum gs := by
        simp [lenSum]
      rw [hsum, add_assoc]
    · rw [if_neg hg, if_neg]
      intro h
      exact hg (h g List.mem_cons_self)

theorem readable_len {g : Glance} (h : g.readable = true) : 1 ≤ g.len := by
  simp only [Glance.readable, Bool.and_eq_true, decide_eq_true_eq] at h
  omega

/-! ## Writes -/

section

variable {m : Mem} {start : ℤ} {xs ys bytes : GoString}

theorem write_apply (i : ℤ) :
    m.write start bytes i =
      if start ≤ i ∧ i < start + bytes.length then bytes.getD (i - start).toNat 0 else m i := rfl

/-- Two writes side by side are one. -/
theorem write_write (m : Mem) (start : ℤ) (xs ys : GoString) :
    (m.write start xs).write (start + xs.length) ys = m.write start (xs ++ ys) := by
  funext i
  simp only [write_apply, List.length_append, Nat.cast_add]
  split_ifs with h1 h2 h3 h4
  · rw [List.getD_append_right _ _ _ _ (by omega)]
    congr 1
    omega
  · omega
  · rw [List.getD_append _ _ _ _ (by omega)]
  · omega
  · omega
  · rfl

theorem write_nil (m : Mem) (start : ℤ) : m.write start [] = m := by
  funext i
  rw [write_apply, if_neg]
  simp

theorem write_overwrite (m : Mem) (start : ℤ) {xs ys : GoString} (h : xs.length = ys.length) :
    (m.write start xs).write start ys = m.write start ys := by
  funext i
  simp only [write_apply, h]
  split_ifs <;> rfl

/-- The blank over the terminator. -/
theorem write_blank (m : Mem) (start : ℤ) {bytes : GoString} (h : bytes ≠ []) :
    (m.write start bytes).write (start + (bytes.length - 1)) [32] =
      m.write start (bytes.dropLast ++ [32]) := by
  obtain ⟨xs, c, rfl⟩ : ∃ xs c, bytes = xs ++ [c] :=
    ⟨bytes.dropLast, bytes.getLast h, (List.dropLast_append_getLast h).symm⟩
  have hlen : (((xs ++ [c]).length : ℤ) - 1) = xs.length := by simp
  have hover : ∀ m : Mem, (m.write (start + xs.length) [c]).write (start + xs.length) [32] =
      m.write (start + xs.length) [32] := fun m => write_overwrite m _ rfl
  rw [hlen, List.dropLast_concat, ← write_write, ← write_write, hover]

end

/-! ## The second pass -/

section

variable {b : Buffer} {allocated : ℕ} {size offset : ℤ} {mem : Mem} {t : Turn} {rest : List Turn}
  {inspect : Turn → List Access × Option Bool}

theorem copyLoop_of_not_readable (h : t.readable = false) :
    copyLoop b allocated size inspect offset mem (t :: rest) = ([], none) := by
  rw [copyLoop, h]
  rfl

section

variable (h0 : 0 ≤ offset) (hoffset : offset ≤ size) (hsize : size ≤ 2 ^ 30)

include h0 hoffset hsize in
/-- The sum of the guard does not wrap. -/
theorem int32_guard (t : Turn) : int32 (offset + t.len) = offset + t.len := by
  have hlen := t.len_le
  rw [MAX_ARG_STRLEN] at hlen
  exact int32_of_bounds (by omega) (by omega)

include h0 hoffset hsize

theorem copyLoop_of_not_fits (hread : t.readable = true) (hfit : ¬ offset + t.len ≤ size) :
    copyLoop b allocated size inspect offset mem (t :: rest) = ([], some mem) := by
  rw [copyLoop, hread, int32_guard h0 hoffset hsize, if_neg (by simp), if_pos (by omega)]

/-- A string that fits, where it does not come to the copy. -/
theorem copyLoop_of_not_taken (hread : t.readable = true) (hfit : offset + t.len ≤ size)
    (htake : (inspect t).2 ≠ some true) :
    copyLoop b allocated size inspect offset mem (t :: rest) =
      if (inspect t).2 = none then ((inspect t).1, none)
      else ((inspect t).1 ++ (copyLoop b allocated size inspect offset mem rest).1,
        (copyLoop b allocated size inspect offset mem rest).2) := by
  rw [copyLoop, hread, int32_guard h0 hoffset hsize, if_neg (by simp), if_neg (by omega)]
  cases hverdict : (inspect t).2 with
  | none => rfl
  | some taken =>
    cases taken with
    | false => rfl
    | true => exact absurd hverdict htake

/-- A string that is copied. -/
theorem copyLoop_of_taken (hread : t.readable = true) (hfit : offset + t.len ≤ size)
    (htake : (inspect t).2 = some true) :
    copyLoop b allocated size inspect offset mem (t :: rest) =
      match t.copy with
      | none => ((inspect t).1 ++ [⟨b, allocated, offset, t.len⟩], none)
      | some bytes =>
        ((inspect t).1 ++ ⟨b, allocated, offset, t.len⟩ ::
            ⟨b, allocated, offset + (t.len - 1), 1⟩ ::
            (copyLoop b allocated size inspect (offset + t.len)
              (mem.write offset (bytes.dropLast ++ [32])) rest).1,
          (copyLoop b allocated size inspect (offset + t.len)
            (mem.write offset (bytes.dropLast ++ [32])) rest).2) := by
  have hlen := readable_len hread
  have hle := t.len_le
  rw [MAX_ARG_STRLEN] at hle
  have hblank : int32 (offset + (t.len - 1)) = offset + (t.len - 1) :=
    int32_of_bounds (by omega) (by omega)
  have hnext : int32 (offset + (t.len - 1) + 1) = offset + t.len := by
    rw [int32_of_bounds (by omega) (by omega)]
    omega
  rw [copyLoop, hread, int32_guard h0 hoffset hsize, if_neg (by simp), if_neg (by omega), htake]
  cases hcopy : t.copy with
  | none => rfl
  | some bytes =>
    have hbytes : bytes.length = t.len := t.copy_length bytes hcopy
    have hne : bytes ≠ [] := by
      rintro rfl
      simp only [List.length_nil] at hbytes
      omega
    have hmem := write_blank mem offset hne
    rw [hbytes] at hmem
    simp only [hblank, hnext, hmem]

end

end

theorem inspectArgv_verdict (t : Turn) : (inspectArgv t).2 = takeAll t := rfl

theorem inspectEnvp_verdict (per_size max_len : ℕ) (t : Turn) :
    (inspectEnvp per_size max_len t).2 = t.captured := rfl

/-- How a pass ends: a jump, or what it leaves behind the offset. -/
theorem copyLoop_result {inspect : Turn → List Access × Option Bool}
    {verdict : Turn → Option Bool} (hverdict : ∀ t, (inspect t).2 = verdict t) (b : Buffer)
    (allocated : ℕ) {size offset : ℤ} (mem : Mem) (turns : List Turn) (h0 : 0 ≤ offset)
    (hoffset : offset ≤ size) (hsize : size ≤ 2 ^ 30) :
    (Through verdict size offset turns →
      (copyLoop b allocated size inspect offset mem turns).2 =
        some (mem.write offset (blanked (takenStrings verdict size offset turns)))) ∧
    (¬ Through verdict size offset turns →
      (copyLoop b allocated size inspect offset mem turns).2 = none) := by
  induction turns generalizing offset mem with
  | nil => exact ⟨fun _ => by simp [copyLoop, takenStrings, blanked, write_nil], by simp [Through]⟩
  | cons t rest ih =>
    rw [Through, takenStrings]
    by_cases hread : t.readable = true
    swap
    · rw [copyLoop_of_not_readable (by simpa using hread)]
      simp [hread]
    by_cases hfit : offset + t.len ≤ size
    swap
    · rw [copyLoop_of_not_fits h0 hoffset hsize hread hfit]
      simp [hread, hfit, blanked, write_nil]
    rw [if_pos hfit, Turn.served, hread]
    by_cases htake : verdict t = some true
    · rw [copyLoop_of_taken h0 hoffset hsize hread hfit (by rw [hverdict, htake]), if_pos htake,
        Turn.taken, if_pos htake, htake]
      cases hcopy : t.copy with
      | none => simp [hfit]
      | some bytes =>
        have hlen : ((bytes.dropLast ++ [32]).length : ℤ) = t.len := by
          have h1 := t.copy_length bytes hcopy
          have h2 := readable_len hread
          simp only [List.length_append, List.length_dropLast, List.length_singleton]
          omega
        obtain ⟨ih1, ih2⟩ := ih (mem.write offset (bytes.dropLast ++ [32]))
          (by omega : 0 ≤ offset + t.len) hfit
        simp only [hfit, true_and, Option.isSome_some, Bool.true_and, forall_const,
          Option.getD_some]
        refine ⟨fun h => ?_, fun h => ih2 h⟩
        rw [ih1 h, ← hlen, write_write]
        rfl
    · rw [copyLoop_of_not_taken h0 hoffset hsize hread hfit (by rw [hverdict]; exact htake),
        if_neg htake, Turn.taken, if_neg htake, hverdict, Nat.cast_zero, add_zero]
      obtain ⟨ih1, ih2⟩ := ih mem h0 hoffset
      cases hv : verdict t with
      | none => simp [hfit]
      | some taken =>
        cases taken with
        | true => exact absurd hv htake
        | false => simpa [hfit] using ⟨ih1, ih2⟩

/-- The copies to the total are inside it: all the writes of a pass are inside if and only if those
before the copies are, wherever the pass comes to. -/
theorem copyLoop_inside_iff {inspect : Turn → List Access × Option Bool}
    {verdict : Turn → Option Bool} (hverdict : ∀ t, (inspect t).2 = verdict t) {b : Buffer}
    {allocated : ℕ} {size offset : ℤ} {mem : Mem} {turns : List Turn}
    (hallocated : (allocated : ℤ) = size) (h0 : 0 ≤ offset) (hoffset : offset ≤ size)
    (hsize : size ≤ 2 ^ 30) :
    (∀ a ∈ (copyLoop b allocated size inspect offset mem turns).1, a.Inside) ↔
      ∀ before t after, turns = before ++ t :: after →
        ComesTo verdict size offset before t → ∀ a ∈ (inspect t).1, a.Inside := by
  subst hallocated
  induction turns generalizing offset mem with
  | nil => simp [copyLoop]
  | cons t rest ih =>
    rw [forall_split_cons (Q := fun before t =>
      ComesTo verdict allocated offset before t → ∀ a ∈ (inspect t).1, a.Inside)]
    simp only [ComesTo]
    by_cases hread : t.readable = true
    swap
    · rw [copyLoop_of_not_readable (by simpa using hread)]
      simp [hread, Turn.served]
    by_cases hfit : offset + t.len ≤ (allocated : ℤ)
    swap
    · rw [copyLoop_of_not_fits h0 hoffset hsize hread hfit]
      simp [hfit]
    have hcopy : ∀ start : ℤ, ∀ count : ℕ, offset ≤ start → start + count ≤ offset + t.len →
        Access.Inside ⟨b, allocated, start, count⟩ := fun start count h1 h2 =>
      ⟨le_trans h0 h1, le_trans h2 hfit⟩
    have hlen := readable_len hread
    have hwhole := hcopy offset t.len le_rfl le_rfl
    have hblank := hcopy (offset + (t.len - 1)) 1 (by omega) (by push_cast; omega)
    simp only [hread, hfit, true_and, and_self, forall_const]
    by_cases htake : verdict t = some true
    · rw [copyLoop_of_taken h0 hoffset hsize hread hfit (by rw [hverdict, htake]), Turn.served,
        Turn.taken, if_pos htake, htake, hread]
      cases t.copy with
      | none => simp [or_imp, forall_and, hwhole]
      | some bytes =>
        simp only [List.forall_mem_append, List.forall_mem_cons, hwhole, hblank, true_and,
          Option.isSome_some, Bool.and_self]
        rw [ih (by omega) hfit]
    · rw [copyLoop_of_not_taken h0 hoffset hsize hread hfit (by rw [hverdict]; exact htake),
        Turn.served, Turn.taken, if_neg htake, hverdict, hread]
      cases hv : verdict t with
      | none => simp
      | some taken =>
        cases taken with
        | true => exact absurd hv htake
        | false =>
          simp only [reduceCtorEq, if_false, List.forall_mem_append, ih h0 hoffset, Bool.and_self,
            true_and, Nat.cast_zero, add_zero]

/-! ## The blocks up to the second pass over `envp` -/

/-- The `int` that is passed to `kmalloc` for a total. -/
theorem int32_totalSize (a : UserArray) (n : ℕ) :
    int32 (int32 (lenSum (a.glances n)) + int32 (16 * n)) = a.totalSize n := by
  rw [int32_add_int32, int32_int32_add]
  rfl

theorem argcSize_eq (argv : UserArray) (n : ℕ) {l : Locals}
    (hlen : l.total_argc_len = int32 (lenSum (argv.glances n))) (hargc : l.tmp_argc = n) :
    l.argcSize = argv.totalSize n := by
  rw [Locals.argcSize, hlen, hargc, int32_totalSize]

theorem envpcSize_eq (envp : UserArray) (n : ℕ) {l : Locals}
    (hlen : l.total_envpc_len = int32 (lenSum (envp.glances n))) (henvpc : l.tmp_envpc = n) :
    l.envpcSize = envp.totalSize n := by
  rw [Locals.envpcSize, hlen, henvpc, int32_totalSize]

theorem totalSize_of_kmalloc {k : Kernel} {b : Buffer} {a : UserArray} {n : ℕ}
    (h : k.kmalloc b (sizeT (a.totalSize n)) = true) :
    0 ≤ a.totalSize n ∧ a.totalSize n ≤ 2 ^ 30 ∧
      (sizeT (a.totalSize n) : ℤ) = a.totalSize n := sizeT_of_kmalloc h

/-- The variables before the second pass over `argv`. -/
def beforeArgv (k : Kernel) (argv : UserArray) (n : ℕ) (l : Locals) : Locals :=
  let size := sizeT (argv.totalSize n)
  { (l.call (.kmalloc .total_argc_ptr)).access [⟨.total_argc_ptr, size, 0, size⟩] with
    tmp_argc := n
    total_argc_len := int32 (lenSum (argv.glances n))
    total_argc_ptr := some (zeroed k .total_argc_ptr size) }

/-- An allocation of zeros with `bytes` at its start. -/
def filledRegion (k : Kernel) (b : Buffer) (size : ℕ) (bytes : GoString) : Region :=
  { zeroed k b size with mem := (zeroed k b size).mem.write 0 bytes }

/-- What the pass over `argv` leaves in its allocation. -/
def argcRegion (k : Kernel) (argv : UserArray) (n : ℕ) : Region :=
  filledRegion k .total_argc_ptr (sizeT (argv.totalSize n))
    (blanked (takenStrings takeAll (argv.totalSize n) 0 (argv.turns n).tail))

/-- What the pass over `envp` leaves in its allocation. -/
def envpcRegion (k : Kernel) (envp : UserArray) (n : ℕ) : Region :=
  filledRegion k .total_envpc_ptr (sizeT (envp.totalSize n))
    (blanked (takenStrings Turn.captured (envp.totalSize n) 0 (envp.turns n)))

/-- The variables after the second pass over `argv`. -/
def afterArgv (k : Kernel) (argv : UserArray) (n : ℕ) (l : Locals) : Locals :=
  let size := sizeT (argv.totalSize n)
  { (beforeArgv k argv n l).access
      (copyArgv size (argv.totalSize n) (zeroed k .total_argc_ptr size).mem (argv.turns n)).1 with
    total_argc_ptr := some (argcRegion k argv n) }

/-- The variables before the second pass over `envp`. -/
def beforeEnvp (k : Kernel) (envp : UserArray) (n : ℕ) (l : Locals) : Locals :=
  let size := sizeT (envp.totalSize n)
  { ((l.call (.kmalloc .per_envp)).call (.kmalloc .total_envpc_ptr)).access
      [⟨.total_envpc_ptr, size, 0, size⟩] with
    tmp_envpc := n
    total_envpc_len := int32 (lenSum (envp.glances n))
    max_len := envp.maxLen n
    per_envp := some (envp.maxLen n + 16)
    total_envpc_ptr := some (zeroed k .total_envpc_ptr size) }

section

variable {k : Kernel} {argv envp : UserArray} {l l' : Locals}

theorem countArgv_ok_iff :
    countArgv argv l = .ok l' ↔ ∃ n, argv.count = some n ∧ { l with tmp_argc := n } = l' := by
  unfold countArgv
  cases argv.count <;> simp

theorem countEnvp_ok_iff :
    countEnvp envp l = .ok l' ↔ ∃ n, envp.count = some n ∧ { l with tmp_envpc := n } = l' := by
  unfold countEnvp
  cases envp.count <;> simp

theorem measureArgv_ok_iff (hlen : l.total_argc_len = 0) :
    measureArgv argv l = .ok l' ↔
      (∀ g ∈ argv.glances l.tmp_argc, g.readable = true) ∧
        { l with total_argc_len := int32 (lenSum (argv.glances l.tmp_argc)) } = l' := by
  have hmeasure := measure_eq 0 0 (argv.glances l.tmp_argc)
  rw [int32_zero, zero_add] at hmeasure
  unfold measureArgv
  rw [hlen, hmeasure]
  split_ifs with hread
  · rw [Except.ok.injEq, and_iff_right hread]
  · simp [hread]

theorem measureEnvp_ok_iff (hlen : l.total_envpc_len = 0) (hmax : l.max_len = 0) :
    measureEnvp envp l = .ok l' ↔
      (∀ g ∈ envp.glances l.tmp_envpc, g.readable = true) ∧
        { l with
          total_envpc_len := int32 (lenSum (envp.glances l.tmp_envpc))
          max_len := envp.maxLen l.tmp_envpc } = l' := by
  have hmeasure := measure_eq 0 0 (envp.glances l.tmp_envpc)
  rw [int32_zero, zero_add] at hmeasure
  unfold measureEnvp
  rw [hlen, hmax, hmeasure]
  split_ifs with hread
  · rw [Except.ok.injEq, and_iff_right hread]
    rfl
  · simp [hread]

theorem allocArgc_ok_iff {size : ℤ} (hsize : l.argcSize = size) :
    allocArgc k l = .ok l' ↔ k.kmalloc .total_argc_ptr (sizeT size) = true ∧
      { (l.call (.kmalloc .total_argc_ptr)).access
          [⟨.total_argc_ptr, sizeT size, 0, sizeT size⟩] with
        total_argc_ptr := some (zeroed k .total_argc_ptr (sizeT size)) } = l' := by
  unfold allocArgc
  rw [hsize]
  split_ifs with h <;> simp [h, zeroed]

theorem allocPerEnvp_ok_iff :
    allocPerEnvp k l = .ok l' ↔ k.kmalloc .per_envp (l.max_len + 16) = true ∧
      { l.call (.kmalloc .per_envp) with per_envp := some (l.max_len + 16) } = l' := by
  unfold allocPerEnvp
  split_ifs with h <;> simp [h]

theorem allocEnvpc_ok_iff {size : ℤ} (hsize : l.envpcSize = size) :
    allocEnvpc k l = .ok l' ↔ k.kmalloc .total_envpc_ptr (sizeT size) = true ∧
      { (l.call (.kmalloc .total_envpc_ptr)).access
          [⟨.total_envpc_ptr, sizeT size, 0, sizeT size⟩] with
        total_envpc_ptr := some (zeroed k .total_envpc_ptr (sizeT size)) } = l' := by
  unfold allocEnvpc
  rw [hsize]
  split_ifs with h <;> simp [h, zeroed]

theorem argvBlocks_ok_iff (hlen : l.total_argc_len = 0) :
    runBlocks (argvBlocks k argv) l = .ok l' ↔
      ∃ n, argv.Measured n ∧ k.kmalloc .total_argc_ptr (sizeT (argv.totalSize n)) = true ∧
        beforeArgv k argv n l = l' := by
  simp only [argvBlocks, runBlocks_cons_ok_iff, runBlocks_nil_ok_iff]
  constructor
  · rintro ⟨_, hcount, _, hmeasure, _, halloc, rfl⟩
    obtain ⟨n, hn, rfl⟩ := countArgv_ok_iff.mp hcount
    obtain ⟨hread, rfl⟩ := (measureArgv_ok_iff (by exact hlen)).mp hmeasure
    obtain ⟨hgiven, rfl⟩ := (allocArgc_ok_iff (argcSize_eq argv n rfl rfl)).mp halloc
    exact ⟨n, ⟨hn, hread⟩, hgiven, rfl⟩
  · rintro ⟨n, ⟨hn, hread⟩, hgiven, rfl⟩
    exact ⟨_, countArgv_ok_iff.mpr ⟨n, hn, rfl⟩,
      _, (measureArgv_ok_iff (by exact hlen)).mpr ⟨hread, rfl⟩,
      _, (allocArgc_ok_iff (argcSize_eq argv n rfl rfl)).mpr ⟨hgiven, rfl⟩, rfl⟩

theorem fillArgc_beforeArgv_ok_iff {n : ℕ}
    (hgiven : k.kmalloc .total_argc_ptr (sizeT (argv.totalSize n)) = true) :
    fillArgc argv (beforeArgv k argv n l) = .ok l' ↔
      Through takeAll (argv.totalSize n) 0 (argv.turns n).tail ∧ afterArgv k argv n l = l' := by
  obtain ⟨h0, hle, -⟩ := totalSize_of_kmalloc hgiven
  obtain ⟨hthrough, hjump⟩ := copyLoop_result inspectArgv_verdict .total_argc_ptr
    (sizeT (argv.totalSize n)) (zeroed k .total_argc_ptr (sizeT (argv.totalSize n))).mem
    (argv.turns n).tail le_rfl h0 hle
  have hsize : (beforeArgv k argv n l).argcSize = argv.totalSize n := argcSize_eq argv n rfl rfl
  unfold fillArgc
  rw [hsize]
  by_cases h : Through takeAll (argv.totalSize n) 0 (argv.turns n).tail
  · have hcopy := hthrough h
    simp only [beforeArgv, copyArgv, zeroed] at hcopy ⊢
    simp only [hcopy, h, true_and, Except.ok.injEq]
    rfl
  · have hcopy := hjump h
    simp only [beforeArgv, copyArgv, zeroed] at hcopy ⊢
    simp only [hcopy, h, false_and, reduceCtorEq]

theorem envpBlocks_ok_iff (hlen : l.total_envpc_len = 0) (hmax : l.max_len = 0) :
    runBlocks (envpBlocks k envp) l = .ok l' ↔
      ∃ n, envp.Measured n ∧ k.kmalloc .per_envp (envp.maxLen n + 16) = true ∧
        k.kmalloc .total_envpc_ptr (sizeT (envp.totalSize n)) = true ∧
        beforeEnvp k envp n l = l' := by
  simp only [envpBlocks, runBlocks_cons_ok_iff, runBlocks_nil_ok_iff]
  constructor
  · rintro ⟨_, hcount, _, hmeasure, _, hper, _, halloc, rfl⟩
    obtain ⟨n, hn, rfl⟩ := countEnvp_ok_iff.mp hcount
    obtain ⟨hread, rfl⟩ := (measureEnvp_ok_iff (by exact hlen) (by exact hmax)).mp hmeasure
    obtain ⟨hpergiven, rfl⟩ := allocPerEnvp_ok_iff.mp hper
    obtain ⟨hgiven, rfl⟩ := (allocEnvpc_ok_iff (envpcSize_eq envp n rfl rfl)).mp halloc
    exact ⟨n, ⟨hn, hread⟩, hpergiven, hgiven, rfl⟩
  · rintro ⟨n, ⟨hn, hread⟩, hpergiven, hgiven, rfl⟩
    exact ⟨_, countEnvp_ok_iff.mpr ⟨n, hn, rfl⟩,
      _, (measureEnvp_ok_iff (by exact hlen) (by exact hmax)).mpr ⟨hread, rfl⟩,
      _, allocPerEnvp_ok_iff.mpr ⟨hpergiven, rfl⟩,
      _, (allocEnvpc_ok_iff (envpcSize_eq envp n rfl rfl)).mpr ⟨hgiven, rfl⟩, rfl⟩

end

/-! ## Writes inside the allocations -/

/-- The writes that a block adds are inside the allocations. -/
def AddsInside (block : Block Locals) : Prop :=
  ∀ l, ∃ as, (leaves (block l)).accesses = l.accesses ++ as ∧ ∀ a ∈ as, a.Inside

section

variable {block : Block Locals} {l : Locals}

theorem AddsInside.iff (h : AddsInside block) (l : Locals) :
    (leaves (block l)).AllInside ↔ l.AllInside := by
  obtain ⟨as, has, hinside⟩ := h l
  rw [Locals.AllInside, has, List.forall_mem_append, and_iff_left hinside]
  rfl

theorem AddsInside.keeps (h : AddsInside block) : Keeps Locals.AllInside block :=
  fun l => (h.iff l).mpr

theorem addsInside_of_eq (h : ∀ l, (leaves (block l)).accesses = l.accesses) : AddsInside block :=
  fun l => ⟨[], by rw [h l, List.append_nil], by simp⟩

end

section

variable (k : Kernel) (argv envp : UserArray)

theorem openBlocks_addInside : ∀ block ∈ openBlocks k, AddsInside block := by
  have htmp : Access.Inside ⟨.tmp, PATH_MAX, 0, PATH_MAX⟩ := ⟨le_rfl, by simp⟩
  intro block hblock
  simp only [openBlocks, List.mem_cons, List.not_mem_nil, or_false] at hblock
  rcases hblock with rfl | rfl | rfl
  · refine addsInside_of_eq fun l => ?_
    unfold kmallocTmp
    split <;> rfl
  · refine addsInside_of_eq fun l => ?_
    unfold getPath
    split <;> rfl
  · intro l
    unfold openExec
    split_ifs
    · exact ⟨[_], rfl, by simpa using htmp⟩
    · exact ⟨[], (List.append_nil _).symm, by simp⟩
    · exact ⟨[], (List.append_nil _).symm, by simp⟩

theorem argvBlocks_addInside :
    ∀ block ∈ argvBlocks k argv, AddsInside block := by
  intro block hblock
  simp only [argvBlocks, List.mem_cons, List.not_mem_nil, or_false] at hblock
  rcases hblock with rfl | rfl | rfl
  · refine addsInside_of_eq fun l => ?_
    unfold countArgv
    split <;> rfl
  · refine addsInside_of_eq fun l => ?_
    unfold measureArgv
    split <;> rfl
  · intro l
    unfold allocArgc
    split_ifs
    · exact ⟨[_], rfl, by simp [Access.Inside]⟩
    · exact ⟨[], (List.append_nil _).symm, by simp⟩

theorem envpBlocks_addInside :
    ∀ block ∈ envpBlocks k envp, AddsInside block := by
  intro block hblock
  simp only [envpBlocks, List.mem_cons, List.not_mem_nil, or_false] at hblock
  rcases hblock with rfl | rfl | rfl | rfl
  · refine addsInside_of_eq fun l => ?_
    unfold countEnvp
    split <;> rfl
  · refine addsInside_of_eq fun l => ?_
    unfold measureEnvp
    split <;> rfl
  · refine addsInside_of_eq fun l => ?_
    unfold allocPerEnvp
    split <;> rfl
  · intro l
    unfold allocEnvpc
    split_ifs
    · exact ⟨[_], rfl, by simp [Access.Inside]⟩
    · exact ⟨[], (List.append_nil _).symm, by simp⟩

theorem send_addsInside : AddsInside (send k) := by
  refine addsInside_of_eq fun l => ?_
  rcases send_cases k l with h | ⟨last, -, h⟩
  · rw [h]
  · rw [h]
    rfl

end

/-! ## The run up to the second pass over `envp` -/

section

variable {k : Kernel} {argv envp : UserArray} {l t : Locals}

/-- The variables when the file has been opened. -/
def opened (k : Kernel) : Locals := leaves (runBlocks (openBlocks k) {})

theorem openBlocks_ok_iff : runBlocks (openBlocks k) {} = .ok l ↔
    k.tmp_getname = true ∧ opened k = l := by
  rw [opened]
  cases hname : k.tmp_getname with
  | false =>
    have herror : ∃ t, runBlocks (openBlocks k) {} = .error t := by
      simp only [openBlocks, runBlocks, kmallocTmp, getPath, hname]
      exact ⟨_, rfl⟩
    obtain ⟨t, ht⟩ := herror
    simp [ht]
  | true =>
    obtain ⟨t, ht, -⟩ := ledger_opened k hname
    simp [ht]

/-- Nothing is measured yet. -/
theorem opened_sums (k : Kernel) : (opened k).total_argc_len = 0 ∧
    (opened k).total_envpc_len = 0 ∧ (opened k).max_len = 0 := by
  have hkeeps : ∀ block ∈ openBlocks k, Keeps (fun l => l.total_argc_len = 0 ∧
      l.total_envpc_len = 0 ∧ l.max_len = 0) block := by
    intro block hblock l hl
    simp only [openBlocks, List.mem_cons, List.not_mem_nil, or_false] at hblock
    rcases hblock with rfl | rfl | rfl
    · unfold kmallocTmp
      split <;> exact hl
    · unfold getPath
      split <;> exact hl
    · unfold openExec
      split_ifs <;> exact hl
  exact runBlocks_keeps hkeeps {} ⟨rfl, rfl, rfl⟩

theorem argvBlocks_run_ok_iff :
    runBlocks (openBlocks k ++ argvBlocks k argv) {} = .ok t ↔
      k.tmp_getname = true ∧ ∃ n, argv.Measured n ∧
        k.kmalloc .total_argc_ptr (sizeT (argv.totalSize n)) = true ∧
        beforeArgv k argv n (opened k) = t := by
  rw [runBlocks_append_ok_iff]
  simp only [openBlocks_ok_iff, and_assoc, exists_and_left, exists_eq_left']
  rw [argvBlocks_ok_iff (opened_sums k).1]

/-- The run comes to the second pass over `envp` exactly as `EnvpReached` says. -/
theorem beforeEnvpc_ok_iff :
    runBlocks (beforeEnvpc k argv envp) {} = .ok t ↔
      ∃ argc envpc, EnvpReached k argv envp argc envpc ∧
        beforeEnvp k envp envpc (afterArgv k argv argc (opened k)) = t := by
  have hsums := opened_sums k
  rw [beforeEnvpc, runBlocks_append_ok_iff]
  simp only [argvBlocks_run_ok_iff, runBlocks_cons_ok_iff]
  generalize opened k = l at hsums ⊢
  constructor
  · rintro ⟨_, ⟨hname, argc, hargv, hargc, rfl⟩, _, hfill, henvp⟩
    obtain ⟨hthrough, rfl⟩ := (fillArgc_beforeArgv_ok_iff hargc).mp hfill
    obtain ⟨envpc, hmeasured, hper, henvpc, rfl⟩ :=
      (envpBlocks_ok_iff (by exact hsums.2.1) (by exact hsums.2.2)).mp henvp
    exact ⟨argc, envpc, ⟨hname, hargv, hargc, hthrough, hmeasured, hper, henvpc⟩, rfl⟩
  · rintro ⟨argc, envpc, ⟨hname, hargv, hargc, hthrough, hmeasured, hper, henvpc⟩, rfl⟩
    exact ⟨_, ⟨hname, argc, hargv, hargc, rfl⟩, _,
      (fillArgc_beforeArgv_ok_iff hargc).mpr ⟨hthrough, rfl⟩,
      (envpBlocks_ok_iff (by exact hsums.2.1) (by exact hsums.2.2)).mpr
        ⟨envpc, hmeasured, hper, henvpc, rfl⟩⟩

end

/-! ## Each write of the hook -/

section

variable {k : Kernel} {argv envp : UserArray} {l : Locals} {n : ℕ}

theorem fillArgc_accesses {region : Region} (hptr : l.total_argc_ptr = some region) :
    (leaves (fillArgc argv l)).accesses =
      l.accesses ++ (copyArgv region.size l.argcSize region.mem (argv.turns l.tmp_argc)).1 := by
  unfold fillArgc
  rw [hptr]
  cases h : (copyArgv region.size l.argcSize region.mem (argv.turns l.tmp_argc)).2 with
  | none => simp only [h]; rfl
  | some mem => simp only [h]; rfl

theorem fillEnvpc_accesses {region : Region} (hptr : l.total_envpc_ptr = some region) :
    (leaves (fillEnvpc envp l)).accesses =
      l.accesses ++ (copyEnvp region.size l.envpcSize (l.per_envp.getD 0) l.max_len region.mem
        (envp.turns l.tmp_envpc)).1 := by
  unfold fillEnvpc
  rw [hptr]
  cases h : (copyEnvp region.size l.envpcSize (l.per_envp.getD 0) l.max_len region.mem
    (envp.turns l.tmp_envpc)).2 with
  | none => simp only [h]; rfl
  | some mem => simp only [h]; rfl

theorem fillArgc_allInside (hgiven : k.kmalloc .total_argc_ptr (sizeT (argv.totalSize n)) = true)
    (h : (beforeArgv k argv n l).AllInside) :
    (leaves (fillArgc argv (beforeArgv k argv n l))).AllInside := by
  obtain ⟨h0, hle, hsize⟩ := totalSize_of_kmalloc hgiven
  have hargc : (beforeArgv k argv n l).argcSize = argv.totalSize n := argcSize_eq argv n rfl rfl
  have hptr : (beforeArgv k argv n l).total_argc_ptr =
      some (zeroed k .total_argc_ptr (sizeT (argv.totalSize n))) := rfl
  rw [Locals.AllInside, fillArgc_accesses hptr, hargc, List.forall_mem_append]
  refine ⟨h, (copyLoop_inside_iff inspectArgv_verdict hsize le_rfl h0 hle).mpr ?_⟩
  intro _ t _ _ _ a ha
  exact absurd ha List.not_mem_nil

/-- The copy to `per_envp` is inside if the string is not longer than the allocation. -/
theorem inspectEnvp_inside_iff (max_len : ℕ) (t : Turn) :
    (∀ a ∈ (inspectEnvp (max_len + 16) max_len t).1, a.Inside) ↔ t.len ≤ max_len + 16 := by
  simp only [inspectEnvp, List.forall_mem_cons, List.not_mem_nil, Access.Inside]
  constructor
  · rintro ⟨-, ⟨-, h⟩, -⟩
    omega
  · intro h
    refine ⟨⟨le_rfl, by omega⟩, ⟨le_rfl, by omega⟩, ?_⟩
    exact fun _ h => absurd h (by simp)

theorem fillEnvpc_allInside_iff
    (hgiven : k.kmalloc .total_envpc_ptr (sizeT (envp.totalSize n)) = true)
    (h : (beforeEnvp k envp n l).AllInside) :
    (leaves (fillEnvpc envp (beforeEnvp k envp n l))).AllInside ↔
      ∀ before t after, envp.turns n = before ++ t :: after →
        ComesTo Turn.captured (envp.totalSize n) 0 before t → t.len ≤ envp.maxLen n + 16 := by
  obtain ⟨h0, hle, hsize⟩ := totalSize_of_kmalloc hgiven
  have henvpc : (beforeEnvp k envp n l).envpcSize = envp.totalSize n :=
    envpcSize_eq envp n rfl rfl
  have hptr : (beforeEnvp k envp n l).total_envpc_ptr =
      some (zeroed k .total_envpc_ptr (sizeT (envp.totalSize n))) := rfl
  rw [Locals.AllInside, fillEnvpc_accesses hptr, henvpc, List.forall_mem_append,
    and_iff_right (by exact h)]
  simp only [← inspectEnvp_inside_iff]
  exact copyLoop_inside_iff (inspectEnvp_verdict (envp.maxLen n + 16) (envp.maxLen n)) hsize le_rfl
    h0 hle

theorem cleanUp_accesses (l : Locals) : (cleanUp l).accesses = l.accesses := by
  have hkfree : ∀ (l : Locals) b, (l.kfree b).accesses = l.accesses := by
    intro l b
    unfold Locals.kfree
    split_ifs
    · cases b <;> rfl
    · rfl
  show (kfreeOrder.foldl Locals.kfree l).accesses = l.accesses
  simp only [kfreeOrder, List.foldl_cons, List.foldl_nil, hkfree]

/-- Every write up to the second pass over `envp` is inside, wherever the run jumps. -/
theorem beforeEnvpc_allInside (k : Kernel) (argv envp : UserArray) :
    (leaves (runBlocks (beforeEnvpc k argv envp) {})).AllInside := by
  have hfirst : (leaves (runBlocks (openBlocks k ++ argvBlocks k argv) {})).AllInside := by
    have hstart : Locals.AllInside {} := fun a ha => absurd ha List.not_mem_nil
    refine runBlocks_keeps (I := Locals.AllInside) (fun block hblock => ?_) _ hstart
    rcases List.mem_append.mp hblock with hopen | hargv
    · exact (openBlocks_addInside k block hopen).keeps
    · exact (argvBlocks_addInside k argv block hargv).keeps
  rw [beforeEnvpc, leaves_runBlocks_iff hfirst
    fun block hblock => (envpBlocks_addInside k envp block hblock).iff]
  intro t ht
  rw [ht] at hfirst
  obtain ⟨-, n, -, hgiven, rfl⟩ := argvBlocks_run_ok_iff.mp ht
  exact fillArgc_allInside hgiven hfirst

/-- The hook writes inside its buffers exactly if no string that the second pass over `envp` comes to
is longer than the longest of the first pass and 16 bytes. -/
theorem hook_writes_inside_iff (k : Kernel) (argv envp : UserArray) :
    (monitorExecveHook k argv envp).AllInside ↔
      ∀ argc envpc, EnvpReached k argv envp argc envpc →
        ∀ before t after, envp.turns envpc = before ++ t :: after →
          ComesTo Turn.captured (envp.totalSize envpc) 0 before t →
            t.len ≤ envp.maxLen envpc + 16 := by
  have hbefore := beforeEnvpc_allInside k argv envp
  have hlabel : (monitorExecveHook k argv envp).AllInside ↔
      (leaves (runBlocks (hookBlocks k argv envp) {})).AllInside := by
    rw [Locals.AllInside, monitorExecveHook, cleanUp_accesses]
    rfl
  have hafter : ∀ block ∈ [send k], ∀ t : Locals, (leaves (block t)).AllInside ↔ t.AllInside := by
    intro block hblock
    rw [List.mem_singleton.mp hblock]
    exact (send_addsInside k).iff
  rw [hlabel, hookBlocks, leaves_runBlocks_iff hbefore hafter]
  constructor
  · intro h argc envpc hreached
    have hrun := beforeEnvpc_ok_iff.mpr ⟨argc, envpc, hreached, rfl⟩
    rw [hrun] at hbefore
    exact (fillEnvpc_allInside_iff hreached.envpc_given hbefore).mp (h _ hrun)
  · intro h t ht
    obtain ⟨argc, envpc, hreached, rfl⟩ := beforeEnvpc_ok_iff.mp ht
    rw [ht] at hbefore
    exact (fillEnvpc_allInside_iff hreached.envpc_given hbefore).mpr (h argc envpc hreached)

end

/-- Two empty strings, each of which is one of 17 bytes when the second pass reads it. -/
def UserArray.rewritten : UserArray where
  isNull := false
  ptr i := if i < 2 then .native else .null
  fatal _ := false
  first _ := ⟨false, 1, by simp⟩
  second _ := ⟨⟨false, 18, by simp [MAX_ARG_STRLEN]⟩, some false, none, by simp⟩

/-- The copy to `per_envp` ends one byte behind the 17 that are allocated. -/
theorem hook_writes_outside : ¬ (monitorExecveHook .obliging .null .rewritten).AllInside := by
  unfold Locals.AllInside
  decide +kernel

end YulongHids.SyscallHook
