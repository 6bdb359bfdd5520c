import YulongHids.SyscallHook.Proofs.CopySafetyProofs

/-!
# Proofs: the terminators of the totals

The strings of a total have no NUL, so the terminator is what `memset` has left behind them: it is
there if and only if the strings end before the allocation does. If the sum of the sizes does not
wrap, the 16 bytes for each string leave room for it. If it wraps, the guard still stops the pass in
time, but strings that fill the allocation to its last byte leave no terminator.
-/

namespace YulongHids.SyscallHook

open Golang Transition

/-! ## What the pass takes -/

/-- The strings that a pass finds: each can be read and copied, with one NUL at its end. -/
def Turn.Sound (verdict : Turn → Option Bool) (t : Turn) : Prop :=
  t.readable = true ∧ verdict t ≠ none ∧ ∃ bytes, t.copy = some bytes ∧ 0 ∉ bytes.dropLast

section

variable {verdict : Turn → Option Bool} {size offset : ℤ} {t : Turn} {turns : List Turn}

theorem Turn.Sound.served (h : t.Sound verdict) : t.served verdict = true := by
  obtain ⟨hread, hverdict, bytes, hcopy, -⟩ := h
  rw [Turn.served, hread, hcopy]
  cases hv : verdict t with
  | none => exact absurd hv hverdict
  | some taken => cases taken <;> rfl

theorem through_of_sound (h : ∀ t ∈ turns, t.Sound verdict) : Through verdict size offset turns := by
  induction turns generalizing offset with
  | nil => trivial
  | cons t rest ih =>
    have ht := h t List.mem_cons_self
    exact ⟨ht.1, fun _ => ⟨ht.served, ih fun u hu => h u (List.mem_cons_of_mem t hu)⟩⟩

theorem blanked_cons (s : GoString) (strings : List GoString) :
    blanked (s :: strings) = s ++ [32] ++ blanked strings := rfl

/-- A string and its blank are as long as the string and its terminator. -/
theorem Turn.Sound.length_copy (h : t.Sound verdict) :
    ((t.copy.getD []).dropLast ++ [32]).length = t.len := by
  obtain ⟨hread, -, bytes, hcopy, -⟩ := h
  have hlen := readable_len hread
  have hbytes := t.copy_length bytes hcopy
  rw [hcopy, Option.getD_some, List.length_append, List.length_dropLast, List.length_singleton]
  omega

theorem zero_not_mem_blanked (h : ∀ t ∈ turns, t.Sound verdict) :
    0 ∉ blanked (takenStrings verdict size offset turns) := by
  induction turns generalizing offset with
  | nil => simp [takenStrings, blanked]
  | cons t rest ih =>
    have hrest : ∀ o, 0 ∉ blanked (takenStrings verdict size o rest) := fun o =>
      ih fun u hu => h u (List.mem_cons_of_mem t hu)
    rw [takenStrings]
    split_ifs
    · obtain ⟨-, -, bytes, hcopy, hzero⟩ := h t List.mem_cons_self
      rw [blanked_cons, hcopy, Option.getD_some]
      simp only [List.mem_append, List.mem_singleton, not_or]
      exact ⟨⟨hzero, by decide⟩, hrest _⟩
    · exact hrest _
    · simp [blanked]

/-- First strings that fill the rest: none where nothing is left, else the next one and first strings
of the others. -/
theorem exists_filling_cons {t : Turn} {rest : List Turn} :
    (∃ first, first <+: t :: rest ∧ Fits verdict size offset first ∧
        offset + (first.map (Turn.taken verdict)).sum = size) ↔
      offset = size ∨ (offset + t.len ≤ size ∧ ∃ first, first <+: rest ∧
        Fits verdict size (offset + t.taken verdict) first ∧
        offset + t.taken verdict + (first.map (Turn.taken verdict)).sum = size) := by
  constructor
  · rintro ⟨first, hfirst, hfits, hsum⟩
    rcases List.prefix_cons_iff.mp hfirst with rfl | ⟨first', rfl, hfirst'⟩
    · left
      simpa using hsum
    · right
      refine ⟨hfits.1, first', hfirst', hfits.2, ?_⟩
      rw [← hsum, List.map_cons, List.sum_cons]
      push_cast
      ring
  · rintro (heq | ⟨hfit, first, hfirst, hfits, hsum⟩)
    · exact ⟨[], List.nil_prefix, trivial, by simpa using heq⟩
    · refine ⟨t :: first, List.prefix_cons_iff.mpr (Or.inr ⟨first, rfl, hfirst⟩), ⟨hfit, hfits⟩, ?_⟩
      rw [← hsum, List.map_cons, List.sum_cons]
      push_cast
      ring

/-- The strings end inside the allocation, and at its end exactly if the first ones fill it. -/
theorem length_blanked (h : ∀ t ∈ turns, t.Sound verdict) (hoffset : offset ≤ size) :
    offset + (blanked (takenStrings verdict size offset turns)).length ≤ size ∧
      (offset + (blanked (takenStrings verdict size offset turns)).length = size ↔
        ∃ first, first <+: turns ∧ Fits verdict size offset first ∧
          offset + (first.map (Turn.taken verdict)).sum = size) := by
  induction turns generalizing offset with
  | nil => simp [takenStrings, blanked, hoffset, Fits]
  | cons t rest ih =>
    have ht := h t List.mem_cons_self
    have hlen := readable_len ht.1
    have hrest : ∀ u ∈ rest, u.Sound verdict := fun u hu => h u (List.mem_cons_of_mem t hu)
    rw [exists_filling_cons, takenStrings]
    by_cases hfit : offset + t.len ≤ size
    · have hne : offset ≠ size := by omega
      rw [if_pos hfit]
      by_cases htake : verdict t = some true
      · obtain ⟨hle, hiff⟩ := ih hrest hfit
        have hone : ((t.copy.getD []).dropLast ++ [32]).length = t.len := ht.length_copy
        rw [if_pos htake, blanked_cons, List.length_append, hone, Turn.taken, if_pos htake]
        push_cast
        rw [← add_assoc]
        exact ⟨hle, by rw [hiff]; simp [hne, hfit]⟩
      · obtain ⟨hle, hiff⟩ := ih hrest hoffset
        rw [if_neg htake, Turn.taken, if_neg htake]
        exact ⟨hle, by rw [hiff]; simp [hne, hfit]⟩
    · rw [if_neg hfit]
      simp [blanked, hoffset, hfit]

end

/-! ## The totals -/

theorem filledRegion_mem (k : Kernel) (b : Buffer) {size : ℕ} {bytes : GoString} {i : ℕ}
    (hi : i < size) : (filledRegion k b size bytes).mem i = bytes.getD i 0 := by
  show Mem.write (Mem.write (k.fresh b) 0 (List.replicate size 0)) 0 bytes i = _
  have hnat : ((i : ℤ) - 0).toNat = i := by omega
  rw [write_apply, hnat]
  split_ifs with hbytes
  · rfl
  · have hzeros : (List.replicate size (0 : UInt8)).length = size := List.length_replicate
    have hpast : bytes.length ≤ i := by omega
    rw [write_apply, if_pos (by rw [hzeros]; omega), hnat, List.getD_eq_default bytes 0 hpast,
      List.getD_eq_getElem _ _ (by omega), List.getElem_replicate]

/-- A total is terminated exactly if its strings do not reach its end. -/
theorem terminated_filledRegion_iff (k : Kernel) (b : Buffer) {size : ℕ} {bytes : GoString}
    (hlen : bytes.length ≤ size) (hzero : 0 ∉ bytes) :
    Terminated (some (filledRegion k b size bytes)) ↔ (size ≠ 0 → bytes.length ≠ size) := by
  have hsize : (filledRegion k b size bytes).size = size := rfl
  rw [Terminated, hsize]
  refine imp_congr_right fun _ => ?_
  constructor
  · rintro ⟨i, hi, hnul⟩ heq
    rw [filledRegion_mem k b hi, List.getD_eq_getElem _ _ (by omega)] at hnul
    exact hzero (hnul ▸ List.getElem_mem _)
  · intro hne
    refine ⟨bytes.length, by omega, ?_⟩
    rw [filledRegion_mem k b (by omega), List.getD_eq_default _ _ le_rfl]

theorem terminated_total_iff {k : Kernel} {b : Buffer} {a : UserArray} {n : ℕ}
    {verdict : Turn → Option Bool} {turns : List Turn}
    (hgiven : k.kmalloc b (sizeT (a.totalSize n)) = true) (h : ∀ t ∈ turns, t.Sound verdict) :
    Terminated (some (filledRegion k b (sizeT (a.totalSize n))
        (blanked (takenStrings verdict (a.totalSize n) 0 turns)))) ↔
      (a.totalSize n ≠ 0 → ¬ Fills verdict (a.totalSize n) turns) := by
  obtain ⟨h0, -, hsize⟩ := totalSize_of_kmalloc hgiven
  obtain ⟨hle, hiff⟩ := length_blanked h h0
  rw [zero_add] at hle hiff
  rw [terminated_filledRegion_iff k b (by omega) (zero_not_mem_blanked h)]
  have hzero : sizeT (a.totalSize n) ≠ 0 ↔ a.totalSize n ≠ 0 := by omega
  rw [hzero]
  refine imp_congr_right fun _ => not_congr ?_
  simp only [zero_add] at hiff
  rw [Fills, ← hiff]
  omega

/-! ## The hook up to `strlen` -/

section

variable {k : Kernel} {argv envp : UserArray} {l : Locals} {argc envpc n : ℕ}

theorem UserArray.Steady.sound {a : UserArray} (h : a.Steady n) {t : Turn} (ht : t ∈ a.turns n) :
    t.Sound Turn.captured := by
  obtain ⟨i, hi, rfl⟩ := List.mem_map.mp ht
  have hlt := List.mem_range.mp hi
  exact ⟨h.readable i hlt, h.inspected i hlt, h.copied i hlt⟩

theorem UserArray.Steady.sound_tail {a : UserArray} (h : a.Steady n) {t : Turn}
    (ht : t ∈ (a.turns n).tail) : t.Sound takeAll := by
  obtain ⟨hread, -, hcopy⟩ := h.sound (List.mem_of_mem_tail ht)
  exact ⟨hread, Option.some_ne_none true, hcopy⟩

/-- The second pass over `envp` goes on, if it is through. -/
theorem fillEnvpc_beforeEnvp_ok (hgiven : k.kmalloc .total_envpc_ptr (sizeT (envp.totalSize n)) = true)
    (hthrough : Through Turn.captured (envp.totalSize n) 0 (envp.turns n)) :
    ∃ l', fillEnvpc envp (beforeEnvp k envp n l) = .ok l' ∧ l'.total_argc_ptr = l.total_argc_ptr ∧
      l'.total_envpc_ptr = some (envpcRegion k envp n) := by
  obtain ⟨h0, hle, -⟩ := totalSize_of_kmalloc hgiven
  have hcopy := (copyLoop_result (inspectEnvp_verdict (envp.maxLen n + 16) (envp.maxLen n))
    .total_envpc_ptr (sizeT (envp.totalSize n))
    (zeroed k .total_envpc_ptr (sizeT (envp.totalSize n))).mem (envp.turns n) le_rfl h0 hle).1 hthrough
  have hsize : (beforeEnvp k envp n l).envpcSize = envp.totalSize n := envpcSize_eq envp n rfl rfl
  unfold fillEnvpc
  rw [hsize]
  simp only [beforeEnvp, copyEnvp, zeroed, Option.getD_some] at hcopy ⊢
  simp only [hcopy]
  exact ⟨_, rfl, rfl, rfl⟩

/-- Where user space leaves the strings alone and all the allocations succeed, both totals are
filled. -/
theorem copyBlocks_ok (hargv : argv.Steady argc) (henvp : envp.Steady envpc)
    (hname : k.tmp_getname = true)
    (hargc : k.kmalloc .total_argc_ptr (sizeT (argv.totalSize argc)) = true)
    (hper : k.kmalloc .per_envp (envp.maxLen envpc + 16) = true)
    (henvpc : k.kmalloc .total_envpc_ptr (sizeT (envp.totalSize envpc)) = true) :
    ∃ l, runBlocks (copyBlocks k argv envp) {} = .ok l ∧
      l.total_argc_ptr = some (argcRegion k argv argc) ∧
      l.total_envpc_ptr = some (envpcRegion k envp envpc) := by
  have hrun := beforeEnvpc_ok_iff.mpr ⟨argc, envpc, ⟨hname, hargv.measured, hargc,
    through_of_sound fun t ht => hargv.sound_tail ht, henvp.measured, hper, henvpc⟩, rfl⟩
  obtain ⟨l, hl, hargcPtr, henvpcPtr⟩ := fillEnvpc_beforeEnvp_ok
    (l := afterArgv k argv argc (opened k)) henvpc (through_of_sound fun t ht => henvp.sound ht)
  refine ⟨l, ?_, hargcPtr, henvpcPtr⟩
  rw [copyBlocks, runBlocks_append_of_ok hrun, runBlocks_ok_cons hl]
  rfl

theorem terminated_argc_iff (hargv : argv.Steady argc)
    (hargc : k.kmalloc .total_argc_ptr (sizeT (argv.totalSize argc)) = true) :
    Terminated (some (argcRegion k argv argc)) ↔
      (argv.totalSize argc ≠ 0 →
        ¬ Fills takeAll (argv.totalSize argc) (argv.turns argc).tail) :=
  terminated_total_iff hargc fun _ ht => hargv.sound_tail ht

theorem terminated_envpc_iff (henvp : envp.Steady envpc)
    (henvpc : k.kmalloc .total_envpc_ptr (sizeT (envp.totalSize envpc)) = true) :
    Terminated (some (envpcRegion k envp envpc)) ↔
      (envp.totalSize envpc ≠ 0 →
        ¬ Fills Turn.captured (envp.totalSize envpc) (envp.turns envpc)) :=
  terminated_total_iff henvpc fun _ ht => henvp.sound ht

/-- Both totals are terminated exactly if the strings do not fill them to the last byte. -/
theorem totals_terminated_iff (hargv : argv.Steady argc) (henvp : envp.Steady envpc)
    (hname : k.tmp_getname = true)
    (hargc : k.kmalloc .total_argc_ptr (sizeT (argv.totalSize argc)) = true)
    (hper : k.kmalloc .per_envp (envp.maxLen envpc + 16) = true)
    (henvpc : k.kmalloc .total_envpc_ptr (sizeT (envp.totalSize envpc)) = true) :
    ∃ l, runBlocks (copyBlocks k argv envp) {} = .ok l ∧
      ((Terminated l.total_argc_ptr ∧ Terminated l.total_envpc_ptr) ↔
        (argv.totalSize argc ≠ 0 →
          ¬ Fills takeAll (argv.totalSize argc) (argv.turns argc).tail) ∧
        (envp.totalSize envpc ≠ 0 →
          ¬ Fills Turn.captured (envp.totalSize envpc) (envp.turns envpc))) := by
  obtain ⟨l, hl, hargcPtr, henvpcPtr⟩ := copyBlocks_ok hargv henvp hname hargc hper henvpc
  refine ⟨l, hl, ?_⟩
  rw [hargcPtr, henvpcPtr, terminated_argc_iff hargv hargc, terminated_envpc_iff henvp henvpc]

theorem UserArray.Steady.turns_len {a : UserArray} (h : a.Steady n) :
    (a.turns n).map (fun t => t.len) = (a.glances n).map Glance.len := by
  rw [UserArray.turns, UserArray.glances, List.map_map, List.map_map]
  exact List.map_congr_left fun i hi => h.len_eq i (List.mem_range.mp hi)

/-- If the size does not wrap, the strings never fill it: 16 bytes for each of them are left. -/
theorem UserArray.Steady.not_fills {a : UserArray} (h : a.Steady n) (hn : 0 < n)
    (hsum : lenSum (a.glances n) + 16 * n < 2 ^ 31) (verdict : Turn → Option Bool)
    {turns : List Turn} (hturns : turns.Sublist (a.turns n)) :
    ¬ Fills verdict (a.totalSize n) turns := by
  rintro ⟨first, hfirst, -, hfills⟩
  have htaken : (first.map (Turn.taken verdict)).sum ≤ (first.map fun t => t.len).sum := by
    refine List.sum_le_sum fun t _ => ?_
    rw [Turn.taken]
    split <;> omega
  have hall : (first.map fun t => t.len).sum ≤ ((a.turns n).map fun t => t.len).sum :=
    ((hfirst.sublist.trans hturns).map _).sum_le_sum fun _ _ => Nat.zero_le _
  rw [h.turns_len] at hall
  rw [UserArray.totalSize, int32_of_bounds (by omega) (by omega)] at hfills
  rw [lenSum] at hsum hfills
  omega

end

/-! ## The totals of the message -/

/-- A reading of the string `s`, which is copied if `keep` says so. -/
structure Turn.Shows (verdict : Turn → Option Bool) (keep : GoString → Bool) (s : GoString)
    (t : Turn) : Prop where
  len : t.len = s.length + 1
  verdict : verdict t = some (keep s)
  copy : t.copy = some (s ++ [0])

/-- The C string in an allocation. -/
def Region.text (region : Region) : GoString :=
  ((List.range region.size).map fun i : ℕ => region.mem i).takeWhile (· ≠ 0)

section

variable {verdict : Turn → Option Bool} {keep : GoString → Bool} {strings : List GoString}
  {turns : List Turn} {a : UserArray} {n : ℕ}

/-- The pass of the message is that of the hook. -/
theorem catUser_eq (h : List.Forall₂ (Turn.Shows verdict keep) strings turns) (size : ℕ)
    (total : GoString) :
    catUser keep size total strings =
      total ++ blanked (takenStrings verdict size total.length turns) := by
  induction h generalizing total with
  | nil => simp [catUser, takenStrings, blanked]
  | cons hshows hrest ih =>
    rename_i s t strings turns
    rw [catUser, takenStrings, hshows.len, hshows.verdict, hshows.copy, Option.getD_some,
      List.dropLast_concat]
    by_cases hfit : total.length + (s.length + 1) ≤ size
    · have hfits : (total.length : ℤ) + (s.length + 1 : ℕ) ≤ size := by exact_mod_cast hfit
      rw [if_neg (by omega), if_pos hfits]
      cases keep s with
      | true =>
        have hlen : ((total ++ s ++ [32]).length : ℤ) = (total.length : ℤ) + (s.length + 1 : ℕ) := by
          simp
        rw [if_pos rfl, if_pos rfl, ih, hlen, blanked_cons]
        simp only [List.append_assoc]
      | false => simp only [ih, Option.some.injEq, Bool.false_eq_true, if_false]
    · have hfits : ¬ (total.length : ℤ) + (s.length + 1 : ℕ) ≤ size := by exact_mod_cast hfit
      rw [if_pos (by omega), if_neg hfits]
      simp [blanked]

theorem filledRegion_text (k : Kernel) (b : Buffer) {size : ℕ} {bytes : GoString}
    (hlen : bytes.length ≤ size) (hzero : 0 ∉ bytes) : (filledRegion k b size bytes).text = bytes := by
  have hbytes : (List.range size).map (fun i : ℕ => (filledRegion k b size bytes).mem i) =
      bytes ++ List.replicate (size - bytes.length) 0 := by
    refine List.ext_getElem (by simp [hlen]) fun i hi _ => ?_
    have hsize : i < size := by simpa using hi
    rw [List.getElem_map, List.getElem_range, filledRegion_mem k b hsize, List.getElem_append]
    split_ifs with hin
    · exact List.getD_eq_getElem _ _ hin
    · rw [List.getD_eq_default _ _ (by omega), List.getElem_replicate]
  have hall : ∀ c ∈ bytes, (decide (c ≠ 0)) = true := fun c hc =>
    decide_eq_true fun h0 => hzero (h0 ▸ hc)
  have hsize : (filledRegion k b size bytes).size = size := rfl
  rw [Region.text, hsize, hbytes, List.takeWhile_append_of_pos hall]
  cases size - bytes.length with
  | zero => simp
  | succ m => simp [List.replicate_succ]

theorem shows_lens (h : List.Forall₂ (Turn.Shows verdict keep) strings turns) :
    (strings.map fun s => s.length + 1) = turns.map fun t => t.len := by
  induction h with
  | nil => rfl
  | cons hst _ ih => rw [List.map_cons, List.map_cons, ih, hst.len]

theorem shows_tail (h : List.Forall₂ (Turn.Shows verdict keep) strings turns) :
    List.Forall₂ (Turn.Shows verdict keep) strings.tail turns.tail := by
  simpa only [List.drop_one] using List.forall₂_drop 1 h

theorem sizeT_eq {m : ℕ} (hsize : (m : ℤ) = a.totalSize n) : sizeT (a.totalSize n) = m := by
  have hlt := int32_lt (lenSum (a.glances n) + 16 * n)
  rw [← UserArray.totalSize] at hlt
  unfold sizeT
  omega

/-- The sizes of the message are those of the hook, if they do not wrap. -/
theorem userSize_eq (h : a.Steady n)
    (hshows : List.Forall₂ (Turn.Shows verdict keep) strings (a.turns n))
    (hsum : lenSum (a.glances n) + 16 * n < 2 ^ 31) : (userSize strings : ℤ) = a.totalSize n := by
  have hlength : strings.length = n := by
    rw [hshows.length_eq]
    simp [UserArray.turns]
  rw [userSize, shows_lens hshows, hlength, h.turns_len, UserArray.totalSize, lenSum,
    int32_of_bounds (by rw [← lenSum]; omega) (by rw [← lenSum]; omega)]
  push_cast
  rfl

/-- What a pass of the message makes is the text that the pass of the hook leaves. -/
theorem catUser_eq_text {k : Kernel} {b : Buffer} {size : ℕ} (hsize : (size : ℤ) = a.totalSize n)
    (hshows : List.Forall₂ (Turn.Shows verdict keep) strings turns)
    (hsound : ∀ t ∈ turns, t.Sound verdict) :
    catUser keep size [] strings = (filledRegion k b (sizeT (a.totalSize n))
      (blanked (takenStrings verdict (a.totalSize n) 0 turns))).text := by
  have h0 : 0 ≤ a.totalSize n := hsize ▸ Int.natCast_nonneg size
  obtain ⟨hle, -⟩ := length_blanked hsound h0
  have hnat := sizeT_eq hsize
  rw [catUser_eq hshows, List.nil_append, List.length_nil, hsize,
    filledRegion_text k _ (by omega) (zero_not_mem_blanked hsound)]
  rfl

/-- The total of the message is the text that the pass over `argv` leaves. -/
theorem totalArgc_eq_text {k : Kernel} (h : a.Steady n) (hne : strings ≠ [])
    (hshows : List.Forall₂ (Turn.Shows takeAll fun _ => true) strings (a.turns n))
    (hsum : lenSum (a.glances n) + 16 * n < 2 ^ 31) :
    totalArgc strings = some (argcRegion k a n).text := by
  have hsize := userSize_eq h hshows hsum
  rw [totalArgc, if_neg hne, catUser_eq_text hsize (shows_tail hshows) fun _ ht => h.sound_tail ht]
  rfl

/-- The total of the message is the text that the pass over `envp` leaves. -/
theorem totalEnvpc_eq_text {k : Kernel} (h : a.Steady n) (hne : strings ≠ [])
    (hshows : List.Forall₂ (Turn.Shows Turn.captured capturedVariable) strings (a.turns n))
    (hsum : lenSum (a.glances n) + 16 * n < 2 ^ 31) :
    totalEnvpc strings = some (envpcRegion k a n).text := by
  have hsize := userSize_eq h hshows hsum
  rw [totalEnvpc, if_neg hne, catUser_eq_text hsize hshows fun _ ht => h.sound ht]
  rfl

end

/-! ## Strings of letters -/

/-- The count of `n` pointers. -/
theorem tmpCount_eq {ptr : ℕ → UserPtr} {fatal : ℕ → Bool} {n : ℕ}
    (hptr : ∀ i < n, ptr i = .native) (hnull : ptr n = .null) (hfatal : ∀ i, fatal i = false)
    {room i : ℕ} (hi : i ≤ n) (hroom : n ≤ i + room) : tmpCount ptr fatal room i = some n := by
  induction room generalizing i with
  | zero =>
    obtain rfl : i = n := by omega
    rw [tmpCount, hnull]
  | succ room ih =>
    rw [tmpCount]
    rcases hi.eq_or_lt with rfl | hlt
    · rw [hnull]
    · simp only [hptr i hlt, hfatal i, Bool.false_eq_true, if_false]
      exact ih hlt (by omega)

theorem tmpCount_le {ptr : ℕ → UserPtr} {fatal : ℕ → Bool} {room i n : ℕ}
    (h : tmpCount ptr fatal room i = some n) : n ≤ i + room := by
  induction room generalizing i with
  | zero =>
    rw [tmpCount] at h
    cases hptr : ptr i <;> rw [hptr] at h <;> cases h
    exact le_rfl
  | succ room ih =>
    rw [tmpCount] at h
    cases hptr : ptr i with
    | null =>
      rw [hptr] at h
      cases h
      omega
    | IS_ERR =>
      rw [hptr] at h
      cases h
    | native =>
      rw [hptr] at h
      cases hfatal : fatal i <;> simp only [hfatal, Bool.false_eq_true, if_false, if_true] at h
      · have := ih h
        omega
      · cases h

theorem UserArray.count_le {a : UserArray} {n : ℕ} (h : a.count = some n) : n ≤ MAX_ARG_STRINGS := by
  rw [UserArray.count] at h
  split at h
  · cases h
    exact Nat.zero_le _
  · have hle := tmpCount_le h
    rwa [Nat.zero_add] at hle

/-- `n` strings of letters, which stay as they are. -/
def UserArray.letters (n : ℕ) (letters : ℕ → ℕ) (h : ∀ i, letters i ≤ MAX_ARG_STRLEN) :
    UserArray where
  isNull := false
  ptr i := if i < n then .native else .null
  fatal _ := false
  first i := ⟨false, letters i + 1, Nat.succ_le_succ (h i)⟩
  second i :=
    { IS_ERR := false
      len := letters i + 1
      len_le := Nat.succ_le_succ (h i)
      captured := some true
      copy := some (List.replicate (letters i) 97 ++ [0])
      copy_length := by
        rintro bytes ⟨⟩
        simp }

theorem letters_steady {n : ℕ} {letters : ℕ → ℕ} (h : ∀ i, letters i ≤ MAX_ARG_STRLEN)
    (hn : n ≤ MAX_ARG_STRINGS) : (UserArray.letters n letters h).Steady n where
  measured := by
    refine ⟨?_, fun g hg => ?_⟩
    · have hnull : (UserArray.letters n letters h).isNull ≠ true := by simp [UserArray.letters]
      rw [UserArray.count, if_neg hnull]
      exact tmpCount_eq (fun i hi => if_pos hi) (if_neg (lt_irrefl n)) (fun _ => rfl)
        (Nat.zero_le n) (by omega)
    · obtain ⟨i, -, rfl⟩ := List.mem_map.mp hg
      simp [UserArray.letters, Glance.readable]
  len_eq _ _ := rfl
  readable i _ := by simp [UserArray.letters, Glance.readable]
  inspected i _ := by simp [UserArray.letters]
  copied i _ := by
    refine ⟨_, rfl, ?_⟩
    rw [List.dropLast_concat]
    exact fun h0 => absurd (List.eq_of_mem_replicate h0) (by decide)

/-- Three arguments. -/
def UserArray.fewArguments : UserArray :=
  .letters 3 (fun _ => 4) fun _ => by simp [MAX_ARG_STRLEN]

/-- Two variables. -/
def UserArray.fewVariables : UserArray :=
  .letters 2 (fun _ => 7) fun _ => by simp [MAX_ARG_STRLEN]

theorem totals_terminated_few :
    ∃ l, runBlocks (copyBlocks .obliging .fewArguments .fewVariables) {} = .ok l ∧
      ((Terminated l.total_argc_ptr ∧ Terminated l.total_envpc_ptr) ↔
        (UserArray.fewArguments.totalSize 3 ≠ 0 →
          ¬ Fills takeAll (UserArray.fewArguments.totalSize 3)
            (UserArray.fewArguments.turns 3).tail) ∧
        (UserArray.fewVariables.totalSize 2 ≠ 0 →
          ¬ Fills Turn.captured (UserArray.fewVariables.totalSize 2)
            (UserArray.fewVariables.turns 2))) :=
  totals_terminated_iff (letters_steady _ (by simp [MAX_ARG_STRINGS]))
    (letters_steady _ (by simp [MAX_ARG_STRINGS])) rfl (by decide +kernel) (by decide +kernel)
    (by decide +kernel)

/-- A program name and 32768 arguments, whose sizes add up to 2 ^ 32 and the length of an argument. -/
def UserArray.crowded : UserArray :=
  .letters 32769 (fun i => if i = 0 then 131039 else 131055) fun i => by
    rw [MAX_ARG_STRLEN]
    split <;> norm_num

theorem crowded_glances : lenSum (UserArray.crowded.glances 32769) = 131040 + 32768 * 131056 := by
  have hconst : ∀ n, (((List.range n).map Nat.succ).map
      (Glance.len ∘ UserArray.crowded.first)).sum = n * 131056 := by
    intro n
    rw [List.map_map, List.map_congr_left (g := fun _ => 131056) (fun i _ => by
      simp [UserArray.crowded, UserArray.letters])]
    simp
  rw [lenSum, UserArray.glances, List.map_map, List.range_succ_eq_map, List.map_cons,
    List.sum_cons, hconst]
  simp [UserArray.crowded, UserArray.letters]

theorem crowded_totalSize : UserArray.crowded.totalSize 32769 = 131056 := by
  rw [UserArray.totalSize, crowded_glances, int32]
  decide +kernel

/-- The first argument fills the allocation to its last byte. -/
theorem totals_not_terminated :
    UserArray.crowded.Steady 32769 ∧ (UserArray.letters 0 (fun _ => 0) (by simp)).Steady 0 ∧
      ∃ l, runBlocks (copyBlocks .obliging .crowded (.letters 0 (fun _ => 0) (by simp))) {} = .ok l ∧
        ¬ Terminated l.total_argc_ptr := by
  have hargv : UserArray.crowded.Steady 32769 := letters_steady _ (by simp [MAX_ARG_STRINGS])
  have henvp : (UserArray.letters 0 (fun _ => 0) (by simp)).Steady 0 :=
    letters_steady _ (Nat.zero_le _)
  have hargc : Kernel.obliging.kmalloc .total_argc_ptr
      (sizeT (UserArray.crowded.totalSize 32769)) = true := by
    rw [crowded_totalSize]
    decide +kernel
  obtain ⟨l, hl, hptr, -⟩ := copyBlocks_ok hargv henvp rfl hargc (by decide +kernel)
    (by decide +kernel)
  have hlen : (UserArray.crowded.second 1).len = 131056 := rfl
  refine ⟨hargv, henvp, l, hl, ?_⟩
  rw [hptr, terminated_argc_iff hargv hargc, crowded_totalSize]
  intro h
  refine h (by norm_num) ⟨[UserArray.crowded.second 1], ?_, ?_, ?_⟩
  · rw [UserArray.turns, List.range_succ_eq_map, List.map_cons, List.tail_cons,
      List.range_succ_eq_map]
    exact List.prefix_cons_iff.mpr (Or.inr ⟨[], rfl, List.nil_prefix⟩)
  · exact ⟨by rw [hlen]; norm_num, trivial⟩
  · rw [List.map_singleton, List.sum_singleton, Turn.taken, takeAll, if_pos rfl, hlen]
    norm_num

end YulongHids.SyscallHook
