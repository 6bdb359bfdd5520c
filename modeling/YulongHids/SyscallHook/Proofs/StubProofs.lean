import YulongHids.SyscallHook.Proofs.LoadingProofs
import YulongHids.SyscallHook.Stub

/-!
# Proofs: the stub in front of `execve`

What is pushed around something that keeps the stack is popped as it was. So the handler of the kernel
starts with the registers and the stack of the intercepted call.
-/

namespace YulongHids.SyscallHook

open Transition

namespace Cpu

variable {base : Word} {c d : Cpu} {r r' : Reg} {rs : List Reg}

/-! ## One register -/

theorem push_rsp (c : Cpu) (r : Reg) : (c.push r).regs .rsp = c.regs .rsp - 8 := by
  simp [push, set]

theorem push_regs (h : r' ≠ .rsp) : (c.push r).regs r' = c.regs r' := by
  simp [push, set, store, h]

theorem push_mem (a : Word) :
    (c.push r).mem a = if a = c.regs .rsp - 8 then c.regs r else c.mem a := by
  simp [push, set, store, Function.update_apply]

theorem pop_rsp (c : Cpu) (r : Reg) : (c.pop r).regs .rsp = c.regs .rsp + 8 := by
  simp [pop, set]

theorem pop_regs (h : r' ≠ .rsp) :
    (c.pop r).regs r' = if r' = r then c.mem (c.regs .rsp) else c.regs r' := by
  simp [pop, set, Function.update_apply, h]

theorem depth_push (h : c.depth base + 8 ≤ threadSize) :
    (c.push r).depth base = c.depth base + 8 := by
  simp only [depth, threadSize] at h ⊢
  rw [push_rsp]
  bv_omega

/-! ## Pairs of pushes and pops -/

/-- Around something that keeps the stack, the registers that are pushed are popped as they were, the
others stay as it leaves them, and the stack is kept. -/
theorem popAll_pushAll {g : Cpu → Cpu}
    (hg : ∀ c : Cpu, c.depth base ≤ threadSize → c.KeepsStack base (g c)) (hrsp : .rsp ∉ rs)
    (hdepth : c.depth base + 8 * rs.length ≤ threadSize) :
    c.KeepsStack base ((g (c.pushAll rs)).popAll rs.reverse) ∧
      (∀ r ∈ rs, ((g (c.pushAll rs)).popAll rs.reverse).regs r = c.regs r) ∧
      ∀ r, r ∉ rs → r ≠ .rsp →
        ((g (c.pushAll rs)).popAll rs.reverse).regs r = (g (c.pushAll rs)).regs r := by
  induction rs generalizing c with
  | nil => exact ⟨hg c (by simpa using hdepth), nofun, fun r _ _ => rfl⟩
  | cons r rs ih =>
    rw [List.length_cons] at hdepth
    have hr : r ≠ .rsp := fun h => hrsp (h ▸ List.mem_cons_self)
    have hpush : (c.push r).depth base = c.depth base + 8 := depth_push (by omega)
    obtain ⟨⟨hsp, hmem⟩, hin, hout⟩ := ih (c := c.push r)
      (fun h => hrsp (List.mem_cons_of_mem r h)) (by rw [hpush]; omega)
    have hpop : (g (c.pushAll (r :: rs))).popAll (r :: rs).reverse =
        ((g ((c.push r).pushAll rs)).popAll rs.reverse).pop r := by
      rw [List.reverse_cons, popAll, List.foldl_append]
      rfl
    have hpushAll : c.pushAll (r :: rs) = (c.push r).pushAll rs := rfl
    generalize (g ((c.push r).pushAll rs)).popAll rs.reverse = d at hsp hmem hin hout hpop
    rw [push_rsp] at hsp hmem
    have htop : d.mem (d.regs .rsp) = c.regs r := by
      have h := hmem 0 (by omega)
      rw [push_mem] at h
      simpa [hsp] using h
    rw [hpop]
    refine ⟨⟨by rw [pop_rsp, hsp]; bv_omega, fun i hi => ?_⟩, fun r' hr' => ?_, fun r' hr' hne => ?_⟩
    · have h := hmem (i + 1) (by omega)
      have haddr : c.regs .rsp - 8 + BitVec.ofNat 64 (8 * (i + 1)) =
          c.regs .rsp + BitVec.ofNat 64 (8 * i) := by bv_omega
      have hlt : 8 * i < 2 ^ 14 := lt_of_lt_of_le hi (le_trans (Nat.le_add_right _ _) hdepth)
      have hother : c.regs .rsp + BitVec.ofNat 64 (8 * i) ≠ c.regs .rsp - 8 := by bv_omega
      rw [haddr, push_mem, if_neg hother] at h
      exact h
    · have hne : r' ≠ .rsp := fun h => hrsp (h ▸ hr')
      rw [pop_regs hne]
      split_ifs with heq
      · rw [htop, heq]
      · rw [hin r' ((List.mem_cons.mp hr').resolve_left heq), push_regs hne]
    · rw [pop_regs hne, if_neg (List.ne_of_not_mem_cons hr'),
        hout r' (List.not_mem_of_not_mem_cons hr') hne, hpushAll]

theorem pushAll_regs (h : r ≠ .rsp) (c : Cpu) (rs : List Reg) : (c.pushAll rs).regs r = c.regs r := by
  induction rs generalizing c with
  | nil => rfl
  | cons r' rs ih => exact (ih (c.push r')).trans (push_regs h)

end Cpu

/-! ## The stub -/

theorem restoredRegs_eq : restoredRegs = savedRegs.reverse := rfl

/-- The registers and the stack at the jump are those of the call. -/
theorem stub_regs {base : Word} (f : CFunction base) {c : Cpu} (hroom : c.depth base + 80 ≤ threadSize) :
    (∀ r, (stub f c).regs r = c.regs r) ∧ c.KeepsStack base (stub f c) := by
  have hdepth : c.depth base + 8 * savedRegs.length ≤ threadSize :=
    show c.depth base + 8 * 10 ≤ threadSize by omega
  obtain ⟨hstack, hin, hout⟩ :=
    Cpu.popAll_pushAll f.stack (show Reg.rsp ∉ savedRegs by decide) hdepth
  rw [← restoredRegs_eq] at hstack hin hout
  refine ⟨fun r => ?_, hstack⟩
  by_cases hsaved : r ∈ savedRegs
  · exact hin r hsaved
  · by_cases hrsp : r = .rsp
    · rw [hrsp]
      exact hstack.1
    · have hcallee : r ∈ [Reg.rbx, .rbp, .r12, .r13, .r14, .r15] := by
        cases r <;> first | decide | exact absurd rfl hrsp | exact absurd (by decide) hsaved
      exact (hout r hsaved hrsp).trans
        ((f.calleeSaved _ r hcallee).trans (Cpu.pushAll_regs hrsp c savedRegs))

/-- In every run, while `execve` is intercepted, the stub goes on to the handler of the kernel, with the
registers and the stack of the intercepted call. -/
theorem stub_transparent (n : SyscallNumbers) (es : List MachineEvent) (s : Machine)
    (hrun : run (Machine.step n) Machine.start es = some s)
    (hhook : s.core.table n.NR_execve = .hook) (base : Word) (monitor_execve_hook : CFunction base)
    (c : Cpu) (hrax : (c.regs .rax).toNat = n.NR_execve) (hroom : c.depth base + 80 ≤ threadSize) :
    (monitorStubExecveHook s.core.globals monitor_execve_hook c).1 = some (.original n.NR_execve) ∧
      (∀ r, (monitorStubExecveHook s.core.globals monitor_execve_hook c).2.regs r = c.regs r) ∧
      c.KeepsStack base (monitorStubExecveHook s.core.globals monitor_execve_hook c).2 := by
  obtain ⟨hregs, hstack⟩ := stub_regs monitor_execve_hook hroom
  refine ⟨?_, hregs, hstack⟩
  rw [monitorStubExecveHook, hregs, hrax]
  exact target_of_hook (coreAt_run hrun) hhook

/-- A function that does nothing. -/
def emptyFunction : CFunction 0 := ⟨id, fun _ _ _ => rfl, fun _ _ => ⟨rfl, fun _ _ => rfl⟩⟩

/-- A call of `execve` near the beginning of the stack. -/
def execveCall : Cpu := ⟨fun r => if r = .rax then 59 else if r = .rsp then -160 else 7, fun _ => 0⟩

/-- A load up to the statement that puts the hook into the table. -/
def loadToHook : List MachineEvent := .insmod :: List.replicate 9 (.statement true)

/-- A call right behind that statement. -/
theorem stub_transparent_early : ∃ s, run (Machine.step x86Numbers) Machine.start loadToHook = some s ∧
    (monitorStubExecveHook s.core.globals emptyFunction execveCall).1 = some (.original 59) :=
  ⟨_, rfl, (stub_transparent x86Numbers loadToHook _ rfl rfl 0 emptyFunction execveCall rfl
    (by decide)).1⟩

end YulongHids.SyscallHook
