import YulongHids.SyscallHook.Hook

/-!
# Proofs: what the exec hook holds

A buffer is held from its `kmalloc` to the label, the socket buffer is passed on where it is
allocated, and the label releases the name and whatever buffer is not null. Two outcomes are missed:
the label releases the name where there is none but an error pointer, and the file is put only if
`tmp` is there to take its path.
-/

namespace YulongHids.SyscallHook

open Transition

/-! ## Traces -/

section

variable {r : Resource} {l : Locals} {c : Call} {trace more : List Call}

@[simp] theorem acquired_append :
    acquired r (trace ++ more) = acquired r trace + acquired r more := List.countP_append

@[simp] theorem released_append :
    released r (trace ++ more) = released r trace + released r more := List.countP_append

@[simp] theorem call_trace : (l.call c).trace = l.trace ++ [c] := rfl

@[simp] theorem access_trace {as : List Access} : (l.access as).trace = l.trace := rfl

end

/-! ## The label -/

theorem holds_kfree (l : Locals) (b b' : Buffer) :
    (l.kfree b).holds b' = (l.holds b' && b' ≠ b) := by
  unfold Locals.kfree
  split
  · rename_i h
    cases b <;> cases b' <;> simp [Locals.setNull, Locals.holds, Locals.call]
  · rename_i h
    by_cases hb : b' = b
    · subst hb
      simpa using h
    · simp [hb]

theorem kfree_trace (l : Locals) (b : Buffer) :
    (l.kfree b).trace = l.trace ++ if l.holds b then [.kfree b] else [] := by
  unfold Locals.kfree
  split
  · cases b <;> rfl
  · simp

/-- Each pointer is looked at once, so the others do not matter. -/
theorem foldl_kfree_trace (l : Locals) {bs : List Buffer} (hbs : bs.Nodup) :
    (bs.foldl Locals.kfree l).trace = l.trace ++ (bs.filter l.holds).map .kfree := by
  induction bs generalizing l with
  | nil => simp
  | cons b bs ih =>
    obtain ⟨hb, hrest⟩ := List.nodup_cons.mp hbs
    have hholds : bs.filter (l.kfree b).holds = bs.filter l.holds := by
      refine List.filter_congr fun b' hb' => ?_
      have hne : b' ≠ b := fun h => hb (h ▸ hb')
      simp [holds_kfree, hne]
    rw [List.foldl_cons, ih _ hrest, hholds, kfree_trace, List.filter_cons]
    split <;> simp

theorem cleanUp_trace (l : Locals) :
    (cleanUp l).trace =
      l.trace ++ (kfreeOrder.filter l.holds).map .kfree ++ [.tmp_putname !l.path] := by
  rw [cleanUp, call_trace, foldl_kfree_trace l (by decide)]

theorem released_kfree (b : Buffer) (bs : List Buffer) :
    released (.buffer b) (bs.map .kfree) = bs.count b := by
  rw [released, List.countP_map, List.count]
  congr 1
  funext b'
  simp [Call.releases, beq_eq_decide]

/-- The label frees every pointer that is not null, and nothing else. -/
theorem count_kfreeOrder (l : Locals) (b : Buffer) :
    (kfreeOrder.filter l.holds).count b = (l.holds b).toNat := by
  have hb : kfreeOrder.count b = 1 := by cases b <;> rfl
  cases h : l.holds b with
  | true => rw [List.count_filter h, hb]; rfl
  | false =>
    rw [List.count_eq_zero_of_not_mem]
    · rfl
    · simp [h]

section

variable (l : Locals)

theorem acquired_cleanUp (r : Resource) : acquired r (cleanUp l).trace = acquired r l.trace := by
  have hfree : acquired r ((kfreeOrder.filter l.holds).map .kfree) = 0 := by
    simp [acquired, Call.acquires]
  rw [cleanUp_trace, acquired_append, acquired_append, hfree]
  rfl

theorem released_cleanUp_buffer (b : Buffer) : released (.buffer b) (cleanUp l).trace =
    released (.buffer b) l.trace + (l.holds b).toNat := by
  have hput : released (.buffer b) [.tmp_putname !l.path] = 0 := by
    cases l.path <;> rfl
  rw [cleanUp_trace, released_append, released_append, released_kfree, count_kfreeOrder, hput,
    add_zero]

theorem released_cleanUp_name :
    released .name (cleanUp l).trace = released .name l.trace + l.path.toNat := by
  have hfree : released .name ((kfreeOrder.filter l.holds).map .kfree) = 0 := by
    simp [released, Call.releases]
  rw [cleanUp_trace, released_append, released_append, hfree, add_zero]
  cases l.path <;> rfl

/-- The label puts no file and frees no socket buffer. -/
theorem released_cleanUp_other {r : Resource} (hr : r = .file ∨ r = .skb) :
    released r (cleanUp l).trace = released r l.trace := by
  have hfree : released r ((kfreeOrder.filter l.holds).map .kfree) = 0 := by
    rcases hr with rfl | rfl <;> simp [released, Call.releases]
  have hput : released r [.tmp_putname !l.path] = 0 := by
    rcases hr with rfl | rfl <;> cases l.path <;> rfl
  rw [cleanUp_trace, released_append, released_append, hfree, hput, add_zero, add_zero]

end

/-! ## What the blocks do -/

/-- Nothing is acquired or released. -/
structure Same (l l' : Locals) : Prop where
  trace : l'.trace = l.trace
  path : l'.path = l.path
  holds : ∀ b, l'.holds b = l.holds b

/-- One allocation is made. -/
structure Allocated (b : Buffer) (l l' : Locals) : Prop where
  trace : l'.trace = l.trace ++ [.kmalloc b]
  path : l'.path = l.path
  holds_self : l'.holds b = true
  holds_other : ∀ b', b' ≠ b → l'.holds b' = l.holds b'

def Quiet (block : Block Locals) : Prop := ∀ l, Same l (leaves (block l))

def Allocates (b : Buffer) (block : Block Locals) : Prop :=
  ∀ l, Same l (leaves (block l)) ∨ Allocated b l (leaves (block l))

@[refl] theorem Same.refl (l : Locals) : Same l l := ⟨rfl, rfl, fun _ => rfl⟩

section

variable (k : Kernel) (argv envp : UserArray)

theorem kmallocTmp_allocates : Allocates .tmp (kmallocTmp k) := by
  intro l
  unfold kmallocTmp
  split
  · exact .inr ⟨rfl, rfl, rfl, fun b hb => by cases b <;> first | rfl | exact absurd rfl hb⟩
  · exact .inl (Same.refl l)

theorem countArgv_quiet : Quiet (countArgv argv) := by
  intro l
  unfold countArgv
  cases argv.count with
  | none => exact Same.refl l
  | some n => exact ⟨rfl, rfl, fun b => by cases b <;> rfl⟩

theorem measureArgv_quiet : Quiet (measureArgv argv) := by
  intro l
  unfold measureArgv
  cases measure l.total_argc_len 0 (argv.glances l.tmp_argc) with
  | none => exact Same.refl l
  | some total => exact ⟨rfl, rfl, fun b => by cases b <;> rfl⟩

theorem allocArgc_allocates : Allocates .total_argc_ptr (allocArgc k) := by
  intro l
  unfold allocArgc
  split
  · exact .inr ⟨rfl, rfl, rfl, fun b hb => by cases b <;> first | rfl | exact absurd rfl hb⟩
  · exact .inl (Same.refl l)

theorem fillArgc_quiet : Quiet (fillArgc argv) := by
  intro l
  unfold fillArgc
  cases hptr : l.total_argc_ptr with
  | none => exact Same.refl l
  | some region =>
    simp only
    cases (copyArgv region.size l.argcSize region.mem (argv.turns l.tmp_argc)).2 with
    | none => exact ⟨rfl, rfl, fun b => by cases b <;> rfl⟩
    | some mem => exact ⟨rfl, rfl, fun b => by cases b <;> simp [Locals.holds, Locals.access, hptr]⟩

theorem countEnvp_quiet : Quiet (countEnvp envp) := by
  intro l
  unfold countEnvp
  cases envp.count with
  | none => exact Same.refl l
  | some n => exact ⟨rfl, rfl, fun b => by cases b <;> rfl⟩

theorem measureEnvp_quiet : Quiet (measureEnvp envp) := by
  intro l
  unfold measureEnvp
  cases measure l.total_envpc_len l.max_len (envp.glances l.tmp_envpc) with
  | none => exact Same.refl l
  | some total => exact ⟨rfl, rfl, fun b => by cases b <;> rfl⟩

theorem allocPerEnvp_allocates : Allocates .per_envp (allocPerEnvp k) := by
  intro l
  unfold allocPerEnvp
  split
  · exact .inr ⟨rfl, rfl, rfl, fun b hb => by cases b <;> first | rfl | exact absurd rfl hb⟩
  · exact .inl (Same.refl l)

theorem allocEnvpc_allocates : Allocates .total_envpc_ptr (allocEnvpc k) := by
  intro l
  unfold allocEnvpc
  split
  · exact .inr ⟨rfl, rfl, rfl, fun b hb => by cases b <;> first | rfl | exact absurd rfl hb⟩
  · exact .inl (Same.refl l)

theorem fillEnvpc_quiet : Quiet (fillEnvpc envp) := by
  intro l
  unfold fillEnvpc
  cases hptr : l.total_envpc_ptr with
  | none => exact Same.refl l
  | some region =>
    simp only
    cases (copyEnvp region.size l.envpcSize (l.per_envp.getD 0) l.max_len region.mem
      (envp.turns l.tmp_envpc)).2 with
    | none => exact ⟨rfl, rfl, fun b => by cases b <;> rfl⟩
    | some mem => exact ⟨rfl, rfl, fun b => by cases b <;> simp [Locals.holds, Locals.access, hptr]⟩

/-- The socket buffer is freed or handed over by the block that allocates it. -/
theorem send_cases (l : Locals) :
    leaves (send k l) = l ∨
      ∃ last ∈ [Call.kfree_skb, Call.netlink_broadcast],
        leaves (send k l) = (l.call .alloc_skb).call last := by
  unfold send
  split
  · exact .inl rfl
  · right
    split
    · exact ⟨.kfree_skb, by simp, rfl⟩
    · refine ⟨.netlink_broadcast, by simp, ?_⟩
      split <;> rfl

end

/-! ## The ledger -/

/-- What is held from the opening of the file on, where `opened` files were opened and `put` were
put. -/
structure Ledger (opened put : ℕ) (l : Locals) : Prop where
  path : l.path = true
  name : acquired .name l.trace = 1
  name_kept : released .name l.trace = 0
  buffer : ∀ b, 0 < acquired (.buffer b) l.trace ↔ l.holds b = true
  buffer_kept : ∀ b, released (.buffer b) l.trace = 0
  opened : acquired .file l.trace = opened
  put : released .file l.trace = put
  skb : released .skb l.trace = acquired .skb l.trace
  no_error_ptr : Call.tmp_putname true ∉ l.trace

section

variable {opened put : ℕ} {l l' : Locals} {b : Buffer} {block : Block Locals}

/-- Calls that leave name and file alone, hand over the socket buffers they allocate, and free
nothing. -/
theorem Ledger.extend {calls : List Call} (h : Ledger opened put l)
    (htrace : l'.trace = l.trace ++ calls) (hpath : l'.path = l.path)
    (hname : acquired .name calls = 0) (hfile : acquired .file calls = 0)
    (hrel : ∀ r, r ≠ .skb → released r calls = 0)
    (hskb : released .skb calls = acquired .skb calls) (herr : Call.tmp_putname true ∉ calls)
    (hholds : ∀ b, l'.holds b = true ↔ l.holds b = true ∨ 0 < acquired (.buffer b) calls) :
    Ledger opened put l' where
  path := by rw [hpath, h.path]
  name := by rw [htrace, acquired_append, h.name, hname]
  name_kept := by rw [htrace, released_append, h.name_kept, hrel _ (by simp)]
  buffer b := by
    rw [htrace, acquired_append, hholds, ← h.buffer]
    omega
  buffer_kept b := by rw [htrace, released_append, h.buffer_kept, hrel _ (by simp)]
  opened := by rw [htrace, acquired_append, h.opened, hfile, add_zero]
  put := by rw [htrace, released_append, h.put, hrel _ (by simp), add_zero]
  skb := by rw [htrace, released_append, acquired_append, h.skb, hskb]
  no_error_ptr := by
    rw [htrace, List.mem_append, not_or]
    exact ⟨h.no_error_ptr, herr⟩

theorem Ledger.same (h : Ledger opened put l) (hl : Same l l') : Ledger opened put l' := by
  have htrace : l'.trace = l.trace ++ [] := by rw [hl.trace, List.append_nil]
  refine h.extend htrace hl.path rfl rfl (fun _ _ => rfl) rfl List.not_mem_nil fun b => ?_
  rw [hl.holds b]
  simp [acquired]

theorem Ledger.allocated (h : Ledger opened put l) (hl : Allocated b l l') :
    Ledger opened put l' := by
  refine h.extend hl.trace hl.path rfl rfl (fun r _ => rfl) rfl (by simp) fun b' => ?_
  by_cases hb' : b' = b
  · subst hb'
    simp [hl.holds_self, acquired, Call.acquires]
  · have hother : acquired (.buffer b') [.kmalloc b] = 0 := by
      simpa [acquired, Call.acquires] using Ne.symm hb'
    rw [hl.holds_other b' hb', hother]
    simp

theorem Quiet.keeps (h : Quiet block) : Keeps (Ledger opened put) block :=
  fun l hl => hl.same (h l)

theorem Allocates.keeps (h : Allocates b block) : Keeps (Ledger opened put) block := by
  intro l hl
  rcases h l with hsame | halloc
  · exact hl.same hsame
  · exact hl.allocated halloc

theorem send_keeps (k : Kernel) : Keeps (Ledger opened put) (send k) := by
  intro l h
  rcases send_cases k l with heq | ⟨last, hlast, heq⟩
  · rw [heq]
    exact h
  · have htrace : ((l.call .alloc_skb).call last).trace = l.trace ++ [.alloc_skb, last] := by simp
    have hholds : ∀ b, ((l.call .alloc_skb).call last).holds b = l.holds b := by
      intro b
      cases b <;> rfl
    rw [heq]
    refine h.extend htrace rfl ?_ ?_ ?_ ?_ ?_ fun b => ?_
    · rcases List.mem_pair.mp hlast with rfl | rfl <;> rfl
    · rcases List.mem_pair.mp hlast with rfl | rfl <;> rfl
    · intro r hr
      rcases List.mem_pair.mp hlast with rfl | rfl <;>
        simp [released, Call.releases, Ne.symm hr]
    · rcases List.mem_pair.mp hlast with rfl | rfl <;> rfl
    · rcases List.mem_pair.mp hlast with rfl | rfl <;> simp
    · have hnone : acquired (.buffer b) [.alloc_skb, last] = 0 := by
        rcases List.mem_pair.mp hlast with rfl | rfl <;> simp [acquired, Call.acquires]
      rw [hholds, hnone]
      simp

end

/-- The blocks after the opening of the file. -/
def laterBlocks (k : Kernel) (argv envp : UserArray) : List (Block Locals) :=
  [countArgv argv, measureArgv argv, allocArgc k, fillArgc argv, countEnvp envp, measureEnvp envp,
    allocPerEnvp k, allocEnvpc k, fillEnvpc envp, send k]

theorem laterBlocks_keep (k : Kernel) (argv envp : UserArray) (opened put : ℕ) :
    Keeps (Ledger opened put) (runBlocks (laterBlocks k argv envp)) := by
  refine runBlocks_keeps fun block hblock => ?_
  simp only [laterBlocks, List.mem_cons, List.not_mem_nil, or_false] at hblock
  rcases hblock with rfl | rfl | rfl | rfl | rfl | rfl | rfl | rfl | rfl | rfl
  · exact (countArgv_quiet argv).keeps
  · exact (measureArgv_quiet argv).keeps
  · exact (allocArgc_allocates k).keeps
  · exact (fillArgc_quiet argv).keeps
  · exact (countEnvp_quiet envp).keeps
  · exact (measureEnvp_quiet envp).keeps
  · exact (allocPerEnvp_allocates k).keeps
  · exact (allocEnvpc_allocates k).keeps
  · exact (fillEnvpc_quiet envp).keeps
  · exact send_keeps k

/-! ## Each acquisition is made once -/

def acquisitions (l : Locals) : List Call := l.trace.filter (·.acquires.isSome)

theorem acquired_acquisitions (r : Resource) (l : Locals) :
    acquired r (acquisitions l) = acquired r l.trace := by
  rw [acquired, acquisitions, List.countP_filter, acquired]
  refine List.countP_congr fun c _ => ?_
  cases h : c.acquires <;> simp

/-- The blocks of the hook, with what each of them can acquire. -/
def hookAdds (k : Kernel) (argv envp : UserArray) : List (Block Locals × List Call) :=
  [(kmallocTmp k, [.kmalloc .tmp]), (getPath k, [.tmp_getname]), (openExec k, [.open_exec]),
    (countArgv argv, []), (measureArgv argv, []), (allocArgc k, [.kmalloc .total_argc_ptr]),
    (fillArgc argv, []), (countEnvp envp, []), (measureEnvp envp, []),
    (allocPerEnvp k, [.kmalloc .per_envp]), (allocEnvpc k, [.kmalloc .total_envpc_ptr]),
    (fillEnvpc envp, []), (send k, [.alloc_skb])]

section

variable {b : Buffer} {block : Block Locals} {l : Locals}

/-- What a block can add to the acquisitions. -/
def Adds (block : Block Locals) (calls : List Call) : Prop :=
  ∀ l, ∃ added, added.Sublist calls ∧ acquisitions (leaves (block l)) = acquisitions l ++ added

theorem Quiet.adds (h : Quiet block) : Adds block [] := by
  intro l
  exact ⟨[], List.Sublist.refl _, by rw [acquisitions, (h l).trace, List.append_nil, acquisitions]⟩

theorem Allocates.adds (h : Allocates b block) : Adds block [.kmalloc b] := by
  intro l
  rcases h l with hsame | halloc
  · exact ⟨[], List.nil_sublist _, by rw [acquisitions, hsame.trace, List.append_nil, acquisitions]⟩
  · exact ⟨[.kmalloc b], List.Sublist.refl _, by
      rw [acquisitions, halloc.trace, List.filter_append]; rfl⟩

end

section

variable (k : Kernel)

theorem getPath_adds : Adds (getPath k) [.tmp_getname] := by
  intro l
  unfold getPath
  split
  · exact ⟨[.tmp_getname], List.Sublist.refl _, by simp [acquisitions, Call.acquires]⟩
  · exact ⟨[], List.nil_sublist _, by simp⟩

theorem openExec_adds : Adds (openExec k) [.open_exec] := by
  intro l
  unfold openExec
  split
  · refine ⟨[.open_exec], List.Sublist.refl _, ?_⟩
    split <;> simp [acquisitions, Call.acquires]
  · exact ⟨[], List.nil_sublist _, by simp⟩

theorem send_adds : Adds (send k) [.alloc_skb] := by
  intro l
  rcases send_cases k l with heq | ⟨last, hlast, heq⟩
  · exact ⟨[], List.nil_sublist _, by rw [heq, List.append_nil]⟩
  · refine ⟨[.alloc_skb], List.Sublist.refl _, ?_⟩
    rw [heq]
    rcases List.mem_pair.mp hlast with rfl | rfl <;> simp [acquisitions, Call.acquires]

end

theorem hookAdds_adds (k : Kernel) (argv envp : UserArray) :
    ∀ p ∈ hookAdds k argv envp, Adds p.1 p.2 := by
  intro p hp
  simp only [hookAdds, List.mem_cons, List.not_mem_nil, or_false] at hp
  rcases hp with rfl | rfl | rfl | rfl | rfl | rfl | rfl | rfl | rfl | rfl | rfl | rfl | rfl
  · exact (kmallocTmp_allocates k).adds
  · exact getPath_adds k
  · exact openExec_adds k
  · exact (countArgv_quiet argv).adds
  · exact (measureArgv_quiet argv).adds
  · exact (allocArgc_allocates k).adds
  · exact (fillArgc_quiet argv).adds
  · exact (countEnvp_quiet envp).adds
  · exact (measureEnvp_quiet envp).adds
  · exact (allocPerEnvp_allocates k).adds
  · exact (allocEnvpc_allocates k).adds
  · exact (fillEnvpc_quiet envp).adds
  · exact send_adds k

/-- All that the hook can acquire, in its order. -/
def hookAcquires : List Call :=
  [.kmalloc .tmp, .tmp_getname, .open_exec, .kmalloc .total_argc_ptr, .kmalloc .per_envp,
    .kmalloc .total_envpc_ptr, .alloc_skb]

theorem acquired_hookAcquires (r : Resource) : acquired r hookAcquires ≤ 1 := by
  rcases r with (_ | _ | _ | _) | _ | _ | _ <;> decide

/-- No block is run twice, so nothing is acquired twice. -/
theorem acquired_le_one (k : Kernel) (argv envp : UserArray) (r : Resource) :
    acquired r (leaves (runBlocks (hookBlocks k argv envp) {})).trace ≤ 1 := by
  obtain ⟨added, hadded, hrun⟩ := runBlocks_sublist (hookAdds_adds k argv envp) {}
  have hfirst : (hookAdds k argv envp).map Prod.fst = hookBlocks k argv envp := rfl
  have hall : (hookAdds k argv envp).flatMap Prod.snd = hookAcquires := rfl
  rw [hfirst] at hrun
  rw [hall] at hadded
  rw [← acquired_acquisitions, hrun]
  show acquired r added ≤ 1
  exact hadded.countP_le.trans (acquired_hookAcquires r)

/-! ## The hook -/

/-- The first three blocks, where there is a name. -/
theorem ledger_opened (k : Kernel) (hname : k.tmp_getname = true) :
    ∃ l, runBlocks (openBlocks k) {} = .ok l ∧
      Ledger k.open_exec.toNat (k.open_exec && k.kmalloc .tmp PATH_MAX).toNat l := by
  cases htmp : k.kmalloc .tmp PATH_MAX <;> cases hopen : k.open_exec <;>
    simp only [openBlocks, runBlocks, kmallocTmp, getPath, openExec, hname, htmp, hopen, if_true,
      Bool.false_eq_true, if_false, Locals.call, Locals.access, List.nil_append] <;>
    exact ⟨_, rfl, rfl, rfl, rfl, fun b => by cases b <;> simp [acquired, Call.acquires, Locals.holds],
      fun b => by cases b <;> rfl, rfl, rfl, rfl, by simp⟩

/-- Without a name the label is reached by the second block. -/
theorem hook_trace_of_not_name (k : Kernel) (argv envp : UserArray)
    (hname : k.tmp_getname = false) :
    Call.tmp_putname true ∈ (monitorExecveHook k argv envp).trace := by
  obtain ⟨l, hl, hpath⟩ : ∃ l, runBlocks (hookBlocks k argv envp) {} = .error l ∧ l.path = false := by
    cases htmp : k.kmalloc .tmp PATH_MAX <;>
      simp only [hookBlocks, beforeEnvpc, openBlocks, List.cons_append, runBlocks, kmallocTmp,
        getPath, hname, htmp, if_true, Bool.false_eq_true, if_false] <;>
      exact ⟨_, rfl, rfl⟩
  rw [monitorExecveHook, hl, leaves_error, cleanUp_trace, hpath]
  simp

/-- After the label nothing but the file can be held. -/
theorem Ledger.releasesAll_iff {opened put : ℕ} {l : Locals} (h : Ledger opened put l)
    (honce : ∀ r, acquired r l.trace ≤ 1) :
    ReleasesAll (cleanUp l).trace ↔ put = opened := by
  have hfile : released .file (cleanUp l).trace = put := by
    rw [released_cleanUp_other l (Or.inl rfl), h.put]
  constructor
  · intro hall
    rw [← hfile, hall.exactly, acquired_cleanUp, h.opened]
  · intro hput
    refine ⟨fun r => by rw [acquired_cleanUp]; exact honce r, fun r => ?_, ?_⟩
    · rw [acquired_cleanUp]
      cases r with
      | buffer b =>
        have hheld := h.buffer b
        have hone := honce (.buffer b)
        rw [released_cleanUp_buffer, h.buffer_kept]
        cases hb : l.holds b with
        | true =>
          have hpos := hheld.mpr hb
          show 0 + 1 = _
          omega
        | false =>
          rw [hb] at hheld
          show 0 + 0 = _
          simp only [Bool.false_eq_true, iff_false] at hheld
          omega
      | name => rw [released_cleanUp_name, h.name_kept, h.path, h.name]; rfl
      | file => rw [hfile, h.opened, hput]
      | skb => rw [released_cleanUp_other l (Or.inr rfl), h.skb]
    · rw [cleanUp_trace, h.path]
      simpa using h.no_error_ptr

/-- The hook releases what it acquired, once, and no error pointer, exactly if there is a name, and
`tmp` is there to put the file again or no file is opened. -/
theorem hook_releases_iff (k : Kernel) (argv envp : UserArray) :
    ReleasesAll (monitorExecveHook k argv envp).trace ↔
      k.tmp_getname = true ∧ (k.kmalloc .tmp PATH_MAX = true ∨ k.open_exec = false) := by
  cases hname : k.tmp_getname with
  | false =>
    refine iff_of_false (fun h => ?_) (by simp)
    exact h.no_error_ptr (hook_trace_of_not_name k argv envp hname)
  | true =>
    obtain ⟨l, hl, hledger⟩ := ledger_opened k hname
    have hblocks : hookBlocks k argv envp =
        openBlocks k ++ laterBlocks k argv envp := rfl
    have hlater := laterBlocks_keep k argv envp _ _ l hledger
    have honce := acquired_le_one k argv envp
    rw [hblocks, runBlocks_append_of_ok hl] at honce
    rw [monitorExecveHook, hblocks, runBlocks_append_of_ok hl, hlater.releasesAll_iff honce]
    cases k.kmalloc .tmp PATH_MAX <;> cases k.open_exec <;> simp

/-- A kernel that refuses nothing but allocations above 4 MiB. -/
def Kernel.obliging : Kernel where
  kmalloc _ n := n ≤ 2 ^ 22
  kmalloc_le b n h := (of_decide_eq_true h).trans (by norm_num)
  fresh _ _ := 0
  tmp_getname := true
  open_exec := true
  alloc_skb := true
  nlmsg_put := true
  netlink_broadcast := 0

/-- A null pointer for `argv` or `envp`. -/
def UserArray.null : UserArray where
  isNull := true
  ptr _ := .null
  fatal _ := false
  first _ := ⟨true, 0, by simp⟩
  second _ := ⟨⟨true, 0, by simp⟩, none, none, by simp⟩

/-- Where the file name cannot be read, the label is given the error pointer. -/
theorem hook_releases_error_pointer :
    ¬ ReleasesAll
      (monitorExecveHook { Kernel.obliging with tmp_getname := false } .null .null).trace :=
  fun h => h.no_error_ptr (hook_trace_of_not_name _ _ _ rfl)

end YulongHids.SyscallHook
