import YulongHids.Server.Proofs.StatisticsProofs
import YulongHids.Server.SharedRecords

/-!
# Proofs: the records of a batch, shared

A map differs from what was sent in two fields at most: the time, once it was deleted, and the remote
address of a connection, once it was cut.
-/

namespace YulongHids.Server

open Golang Mongo Transition

/-- An address is left as it is if it has no port. -/
theorem cutPort_eq_self_iff {s : GoString} : cutPort s = s ↔ 58 ∉ s := by
  rw [cutPort_eq, List.takeWhile_eq_self_iff]
  constructor
  · intro h hmem
    have hne := h 58 hmem
    simp at hne
  · intro h b hb
    have hne : b ≠ 58 := by
      rintro rfl
      exact h hb
    simpa using hne

/-! ## The steps together -/

theorem getElem?_foldl_modify {α : Type*} (f : α → α) (xs : List α) (n i : ℕ) :
    ((List.range n).foldl (fun ys j => ys.modify j f) xs)[i]? =
      if i < n then xs[i]?.map f else xs[i]? := by
  induction n with
  | zero => simp
  | succ n ih =>
    rw [List.range_succ, List.foldl_concat, List.getElem?_modify, ih]
    rcases lt_trichotomy i n with hlt | rfl | hgt
    · simp [hlt, Nat.lt_succ_of_lt hlt, hlt.ne']
    · simp
    · simp [hgt.ne, Nat.not_lt.mpr hgt.le, Nat.not_lt.mpr (Nat.succ_le_of_lt hgt)]

/-- The steps of `ResultStat` together leave the batch as `resultStat` does. -/
theorem rewriteAll_statSteps (c : Statistics) (datainfo : DataInfo) :
    rewriteAll datainfo.type (statSteps datainfo) datainfo.data = (resultStat c datainfo).2.data := by
  cases hk : mainMapping.lookup datainfo.type with
  | none => simp [rewriteAll, statSteps, resultStat, hk]
  | some k =>
    simp only [rewriteAll, statSteps, resultStat, hk, Option.isSome_some, if_true, List.foldl_map,
      RecordStep.rewrite]
    ext1 i
    rw [getElem?_foldl_modify, List.getElem?_map]
    split
    · rfl
    · rename_i hi
      rw [List.getElem?_eq_none (Nat.not_lt.mp hi)]
      rfl

theorem rewriteAll_append (type : GoString) (steps steps' : List RecordStep) (heap : List Record) :
    rewriteAll type (steps ++ steps') heap = rewriteAll type steps' (rewriteAll type steps heap) :=
  List.foldl_append

theorem rewriteAll_checks (type : GoString) {steps : List RecordStep}
    (h : ∀ step ∈ steps, ∃ i, step = .check i) (heap : List Record) :
    rewriteAll type steps heap = heap := by
  induction steps with
  | nil => rfl
  | cons step steps ih =>
    obtain ⟨⟨i, rfl⟩, hrest⟩ := List.forall_mem_cons.mp h
    exact ih hrest

/-! ## What has become of a record -/

/-- The record number `i`, sent as `v`, after the steps `done`. -/
structure Evolved (type : GoString) (done : List RecordStep) (i : ℕ) (v r : Record) : Prop where
  other : ∀ k, k ≠ str "time" → k ≠ str "remote" → r.get k = v.get k
  remote : r.get (str "remote") =
    if type = str "connection" ∧ .stat i ∈ done then cutPort (v.get (str "remote"))
    else v.get (str "remote")
  time : r.get (str "time") = if .deleteTime i ∈ done then [] else v.get (str "time")

variable {type : GoString} {done : List RecordStep} {i : ℕ} {v r : Record}

/-- A step on another record, or one that changes nothing. -/
theorem Evolved.frame (h : Evolved type done i v r) {step : RecordStep}
    (hstat : step ≠ .stat i) (hdelete : step ≠ .deleteTime i) :
    Evolved type (done ++ [step]) i v r where
  other := h.other
  remote := by
    rw [h.remote]
    simp [Ne.symm hstat]
  time := by
    rw [h.time]
    simp [Ne.symm hdelete]

theorem Evolved.deleteTime (h : Evolved type done i v r) :
    Evolved type (done ++ [.deleteTime i]) i v (r.erase (str "time")) where
  other k htime hremote := by rw [Record.get_erase, if_neg htime, h.other k htime hremote]
  remote := by
    rw [Record.get_erase, if_neg (by rw [str_inj]; decide), h.remote]
    simp
  time := by
    rw [Record.get_erase, if_pos rfl]
    simp

theorem Evolved.stat (h : Evolved type done i v r) {k : GoString}
    (hk : mainMapping.lookup type = some k) :
    Evolved type (done ++ [.stat i]) i v (statRecord type k r) := by
  rw [statRecord]
  by_cases htype : type = str "connection"
  · subst htype
    obtain rfl : str "remote" = k := Option.some.inj hk
    rw [if_pos rfl]
    refine ⟨fun k htime hremote => ?_, ?_, ?_⟩
    · rw [Record.get_insert_ne _ hremote, h.other k htime hremote]
    · have hdone : RecordStep.stat i ∈ done ++ [.stat i] := by simp
      refine Eq.trans ?_ (if_pos ⟨rfl, hdone⟩).symm
      rw [Record.get_insert, h.remote]
      split
      · exact cutPort_cutPort _
      · rfl
    · rw [Record.get_insert_ne _ (by rw [Ne, str_inj]; decide), h.time]
      simp
  · rw [if_neg htype]
    refine ⟨h.other, ?_, ?_⟩
    · rw [h.remote, if_neg (fun hc => htype hc.1), if_neg (fun hc => htype hc.1)]
    · rw [h.time]
      simp

/-! ## The invariant -/

structure SharedInv (datainfo : DataInfo) (s : SharedState) : Prop where
  steps : s.done ++ s.todo = putInfoSteps datainfo
  length : s.heap.length = datainfo.data.length
  evolved : ∀ i r v, s.heap[i]? = some r → datainfo.data[i]? = some v →
    Evolved datainfo.type s.done i v r

theorem sharedStart_inv (datainfo : DataInfo) : SharedInv datainfo (sharedStart datainfo) where
  steps := rfl
  length := rfl
  evolved i r v hr hv := by
    obtain rfl : r = v := Option.some.inj (hr.symm.trans hv)
    exact ⟨fun _ _ _ => rfl, by simp [sharedStart], by simp [sharedStart]⟩

theorem length_rewrite (step : RecordStep) (heap : List Record) :
    (step.rewrite type heap).length = heap.length := by
  cases step with
  | deleteTime i => exact List.length_modify _ _ _
  | insertEs i => rfl
  | stat i =>
    simp only [RecordStep.rewrite]
    split
    · rfl
    · exact List.length_modify _ _ _
  | check i => rfl

theorem length_rewriteAll (type : GoString) (steps : List RecordStep) (heap : List Record) :
    (rewriteAll type steps heap).length = heap.length := by
  induction steps generalizing heap with
  | nil => rfl
  | cons step steps ih => exact (ih _).trans (length_rewrite step heap)

theorem getElem?_modify_cases {α : Type*} {xs : List α} {f : α → α} {i j : ℕ} {y : α}
    (h : (xs.modify j f)[i]? = some y) :
    ∃ x, xs[i]? = some x ∧ (j = i ∧ y = f x ∨ j ≠ i ∧ y = x) := by
  rw [List.getElem?_modify, Option.map_eq_map, Option.map_eq_some_iff] at h
  obtain ⟨x, hx, rfl⟩ := h
  refine ⟨x, hx, ?_⟩
  by_cases hj : j = i
  · exact Or.inl ⟨hj, by rw [if_pos hj]⟩
  · exact Or.inr ⟨hj, by rw [if_neg hj]⟩

/-- What a step makes of a record is what it does to its own. -/
theorem evolved_rewrite {heap : List Record} (step : RecordStep)
    (h : ∀ r, heap[i]? = some r → Evolved type done i v r)
    (hr : (step.rewrite type heap)[i]? = some r)
    (hstat : ∀ j, step = .stat j → (mainMapping.lookup type).isSome) :
    Evolved type (done ++ [step]) i v r := by
  cases step with
  | insertEs j => exact (h r hr).frame (by simp) (by simp)
  | check j => exact (h r hr).frame (by simp) (by simp)
  | deleteTime j =>
    obtain ⟨r', hr', ⟨rfl, rfl⟩ | ⟨hj, rfl⟩⟩ := getElem?_modify_cases hr
    · exact (h r' hr').deleteTime
    · exact (h r hr').frame (by simp) (by simp [hj])
  | stat j =>
    obtain ⟨k, hk⟩ := Option.isSome_iff_exists.mp (hstat j rfl)
    simp only [RecordStep.rewrite, hk] at hr
    obtain ⟨r', hr', ⟨rfl, rfl⟩ | ⟨hj, rfl⟩⟩ := getElem?_modify_cases hr
    · exact (h r' hr').stat hk
    · exact (h r hr').frame (by simp [hj]) (by simp)

section Steps

variable {datainfo : DataInfo} {step : RecordStep}

theorem not_check_of_mem_before (h : step ∈ saveSteps datainfo ++ statSteps datainfo) :
    step ≠ .check i := by
  rintro rfl
  simp only [saveSteps, statSteps, List.mem_append] at h
  grind

theorem lookup_of_stat_mem (h : .stat i ∈ putInfoSteps datainfo) :
    (mainMapping.lookup datainfo.type).isSome := by
  simp only [putInfoSteps, saveSteps, statSteps] at h
  grind

theorem lt_length_of_check_mem (h : .check i ∈ putInfoSteps datainfo) :
    i < datainfo.data.length := by
  rw [putInfoSteps] at h
  split at h
  · simp at h
  · rw [← List.append_assoc, List.mem_append] at h
    rcases h with h | h
    · exact absurd rfl (not_check_of_mem_before h)
    · simpa using h

end Steps

theorem sharedStep_inv {datainfo : DataInfo} {s s' : SharedState} {e : SharedEvent}
    (h : SharedInv datainfo s) (hstep : sharedStep datainfo.type s e = some s') :
    SharedInv datainfo s' := by
  cases e with
  | put =>
    cases htodo : s.todo with
    | nil => simp [sharedStep, htodo] at hstep
    | cons step rest =>
      simp only [sharedStep, htodo, Option.some.injEq] at hstep
      subst hstep
      have hmem : step ∈ putInfoSteps datainfo := by
        rw [← h.steps, htodo]
        simp
      refine ⟨?_, ?_, fun i r v hr hv => ?_⟩
      · rw [← h.steps, htodo]
        simp
      · exact (length_rewrite step s.heap).trans h.length
      · refine evolved_rewrite step (fun r hr => h.evolved i r v hr hv) hr ?_
        rintro j rfl
        exact lookup_of_stat_mem hmem
  | insert j =>
    simp only [sharedStep, Option.map_eq_some_iff] at hstep
    obtain ⟨i, hi, rfl⟩ := hstep
    exact ⟨h.steps, h.length, h.evolved⟩

/-! ## What a check and an insert find -/

section Finds

variable {datainfo : DataInfo} {s : SharedState} {rest : List RecordStep} {step : RecordStep}

theorem SharedInv.exists_record (h : SharedInv datainfo s) (hv : datainfo.data[i]? = some v) :
    ∃ r, s.heap[i]? = some r := by
  have hi : i < s.heap.length := by
    rw [h.length]
    exact (List.getElem?_eq_some_iff.mp hv).1
  exact ⟨s.heap[i], List.getElem?_eq_getElem hi⟩

theorem lt_length_of_todo_check (h : SharedInv datainfo s) (htodo : s.todo = .check i :: rest) :
    i < datainfo.data.length := by
  refine lt_length_of_check_mem ?_
  rw [← h.steps, htodo]
  simp

/-- All steps that are no checks come before the first check. -/
theorem prefix_done_of_todo_check (h : SharedInv datainfo s) (htodo : s.todo = .check i :: rest) :
    saveSteps datainfo ++ statSteps datainfo <+: s.done := by
  have hsteps := h.steps
  have hpre : saveSteps datainfo ++ statSteps datainfo <+: putInfoSteps datainfo := by
    have hne : datainfo.data ≠ [] :=
      List.ne_nil_of_length_pos (Nat.zero_lt_of_lt (lt_length_of_todo_check h htodo))
    rw [putInfoSteps, if_neg hne, ← List.append_assoc]
    exact List.prefix_append _ _
  rcases List.prefix_or_prefix_of_prefix hpre ⟨s.todo, hsteps⟩ with hdone | ⟨more, hmore⟩
  · exact hdone
  · cases more with
    | nil => rw [← hmore, List.append_nil]
    | cons first more =>
      -- the check would be among the steps before all checks
      exfalso
      obtain ⟨checks, hchecks⟩ := hpre
      rw [← hmore, List.append_assoc, ← hsteps, htodo] at hchecks
      have hfirst : first = .check i := (List.cons.inj (List.append_cancel_left hchecks)).1
      have hmem : first ∈ saveSteps datainfo ++ statSteps datainfo := by
        rw [← hmore]
        simp
      exact not_check_of_mem_before hmem hfirst

theorem done_of_todo_check (h : SharedInv datainfo s) (htodo : s.todo = .check i :: rest)
    (hmem : step ∈ saveSteps datainfo ++ statSteps datainfo) : step ∈ s.done :=
  (prefix_done_of_todo_check h htodo).subset hmem

theorem stat_done_of_todo_check (h : SharedInv datainfo s) (htodo : s.todo = .check i :: rest)
    (htype : datainfo.type = str "connection") : .stat i ∈ s.done := by
  refine done_of_todo_check h htodo (List.mem_append_right _ ?_)
  have hk : (mainMapping.lookup datainfo.type).isSome := by
    rw [htype]
    rfl
  rw [statSteps, if_pos hk]
  exact List.mem_map_of_mem (List.mem_range.mpr (lt_length_of_todo_check h htodo))

theorem deleteTime_done_of_todo_check (h : SharedInv datainfo s)
    (htodo : s.todo = .check i :: rest) (htype : datainfo.type = str "loginlog") :
    .deleteTime i ∈ s.done := by
  refine done_of_todo_check h htodo (List.mem_append_left _ ?_)
  have hes : datainfo.type ∈ esTypes := by
    rw [htype]
    exact List.mem_cons_self
  rw [saveSteps, if_pos hes, if_pos htype, List.mem_flatMap]
  exact ⟨i, List.mem_range.mpr (lt_length_of_todo_check h htodo), by simp⟩

/-- Only logins have a time that the rules may ask for. -/
theorem time_mem_fieldsOf_iff : str "time" ∈ fieldsOf type ↔ type = str "loginlog" := by
  constructor
  · intro h
    have honly : ∀ p ∈ ruleFields, str "time" ∈ p.2 → p.1 = str "loginlog" := by decide
    rw [fieldsOf] at h
    cases hfields : ruleFields.lookup type with
    | none => simp [hfields] at h
    | some fields =>
      rw [hfields, Option.getD_some] at h
      obtain ⟨pre, post, hsplit, -⟩ := List.lookup_eq_some_iff.mp hfields
      exact honly (type, fields) (by simp [hsplit]) h
  · rintro rfl
    decide

theorem insert_unaltered_iff (h : SharedInv datainfo s) (j : ℕ) :
    Unaltered datainfo s (.insert j) ↔ Untouched datainfo s (.insert j) := by
  constructor
  · intro hun i v hi hv htype hdone
    obtain ⟨r, hr⟩ := h.exists_record hv
    have heq := hun i r v hi hr hv (str "remote") (by rw [Ne, str_inj]; decide)
    rw [(h.evolved i r v hr hv).remote, if_pos ⟨htype, hdone⟩] at heq
    exact cutPort_eq_self_iff.mp heq
  · intro hun i r v hi hr hv k hk
    have hrecord := h.evolved i r v hr hv
    by_cases hremote : k = str "remote"
    · subst hremote
      rw [hrecord.remote]
      split
      · rename_i hcut
        exact cutPort_eq_self_iff.mpr (hun i v hi hv hcut.1 hcut.2)
      · rfl
    · exact hrecord.other k hk hremote

theorem put_unaltered_iff (h : SharedInv datainfo s) :
    Unaltered datainfo s .put ↔ Untouched datainfo s .put := by
  constructor
  · intro hun i rest v htodo hv
    obtain ⟨r, hr⟩ := h.exists_record hv
    have hrecord := h.evolved i r v hr hv
    have heq := hun i rest r v htodo hr hv
    refine ⟨fun htype => ?_, fun htype => ?_⟩
    · have hfield := heq (str "remote") (by rw [htype]; decide)
      rw [hrecord.remote, if_pos ⟨htype, stat_done_of_todo_check h htodo htype⟩] at hfield
      exact cutPort_eq_self_iff.mp hfield
    · have hfield := heq (str "time") (time_mem_fieldsOf_iff.mpr htype)
      rw [hrecord.time, if_pos (deleteTime_done_of_todo_check h htodo htype)] at hfield
      exact hfield.symm
  · intro hun i rest r v htodo hr hv k hk
    have hrecord := h.evolved i r v hr hv
    obtain ⟨hport, htime⟩ := hun i rest v htodo hv
    by_cases hktime : k = str "time"
    · subst hktime
      rw [hrecord.time, htime (time_mem_fieldsOf_iff.mp hk), ite_self]
    · by_cases hkremote : k = str "remote"
      · subst hkremote
        rw [hrecord.remote]
        split
        · rename_i hcut
          exact cutPort_eq_self_iff.mpr (hport hcut.1)
        · rfl
      · exact hrecord.other k hktime hkremote

end Finds

/-! ## What the scan gets -/

/-- What `ResultSave` leaves of a batch. -/
def DataInfo.saved (datainfo : DataInfo) : DataInfo :=
  { datainfo with data := rewriteAll datainfo.type (saveSteps datainfo) datainfo.data }

theorem heap_eq_rewriteAll {datainfo : DataInfo} {es : List SharedEvent} {s : SharedState}
    (hrun : run (sharedStep datainfo.type) (sharedStart datainfo) es = some s) :
    s.heap = rewriteAll datainfo.type s.done datainfo.data := by
  refine run_invariant (I := fun s => s.heap = rewriteAll datainfo.type s.done datainfo.data)
    ?_ rfl hrun
  intro s e s' h hstep
  cases e with
  | put =>
    cases htodo : s.todo with
    | nil => simp [sharedStep, htodo] at hstep
    | cons step rest =>
      simp only [sharedStep, htodo, Option.some.injEq] at hstep
      subst hstep
      rw [rewriteAll_append, ← h]
      rfl
  | insert j =>
    simp only [sharedStep, Option.map_eq_some_iff] at hstep
    obtain ⟨i, -, rfl⟩ := hstep
    exact h

/-- The scan gets the batch as `resultStat` returns it for what `ResultSave` left, in every order of
the steps. -/
theorem heap_eq_resultStat {datainfo : DataInfo} {es : List SharedEvent} {s : SharedState}
    {i : ℕ} {rest : List RecordStep} (c : Statistics)
    (hrun : run (sharedStep datainfo.type) (sharedStart datainfo) es = some s)
    (htodo : s.todo = .check i :: rest) : s.heap = (resultStat c datainfo.saved).2.data := by
  have h : SharedInv datainfo s :=
    run_invariant (fun _ _ _ h hstep => sharedStep_inv h hstep) (sharedStart_inv datainfo) hrun
  obtain ⟨checks, hdone⟩ := prefix_done_of_todo_check h htodo
  have hchecks : ∀ step ∈ checks, ∃ i, step = .check i := by
    have hne : datainfo.data ≠ [] :=
      List.ne_nil_of_length_pos (Nat.zero_lt_of_lt (lt_length_of_todo_check h htodo))
    have hsteps := h.steps
    rw [← hdone, putInfoSteps, if_neg hne, ← List.append_assoc (saveSteps datainfo),
      List.append_assoc, List.append_cancel_left_eq] at hsteps
    intro step hmem
    have hmem' : step ∈ (List.range datainfo.data.length).map RecordStep.check := by
      rw [← hsteps]
      exact List.mem_append_left _ hmem
    obtain ⟨j, -, rfl⟩ := List.mem_map.mp hmem'
    exact ⟨j, rfl⟩
  have hstat : statSteps datainfo.saved = statSteps datainfo := by
    simp only [statSteps, DataInfo.saved, length_rewriteAll]
  rw [heap_eq_rewriteAll hrun, ← hdone, rewriteAll_append, rewriteAll_checks _ hchecks,
    rewriteAll_append, ← rewriteAll_statSteps, hstat]
  rfl

/-! ## Batches -/

/-- What is archived and checked of a batch is what was sent, in every order of the steps, if and
only if each connection with a port is written out before it is counted, and none is checked, nor a
login with a time. -/
theorem batch_unaltered_iff (datainfo : DataInfo) (es : List SharedEvent) :
    Along (sharedStep datainfo.type) (Unaltered datainfo) (sharedStart datainfo) es ↔
      Along (sharedStep datainfo.type) (Untouched datainfo) (sharedStart datainfo) es := by
  have hiff : ∀ s e, SharedInv datainfo s → (Unaltered datainfo s e ↔ Untouched datainfo s e) := by
    intro s e h
    cases e with
    | put => exact put_unaltered_iff h
    | insert j => exact insert_unaltered_iff h j
  constructor
  · exact Along.of_invariant (fun _ _ _ h _ hstep => sharedStep_inv h hstep)
      (fun s e h hun => (hiff s e h).mp hun) (sharedStart_inv datainfo)
  · exact Along.of_invariant (fun _ _ _ h _ hstep => sharedStep_inv h hstep)
      (fun s e h hun => (hiff s e h).mpr hun) (sharedStart_inv datainfo)

/-- An outgoing connection to a web server. -/
def webConnection : DataInfo where
  ip := str "10.0.0.1"
  type := str "connection"
  system := str "linux"
  data := [(∅ : Record).insert (str "remote") (str "10.0.0.9:443") |>.insert (str "time")
    (str "1519899700")]
  uptime := 0

def countedFirst : List SharedEvent := [.put, .put, .put, .insert 0, .put]

/-- It is counted before it is written out, and the port is gone from the document and in the
scan. -/
theorem connection_altered :
    ((run (sharedStep (str "connection")) (sharedStart webConnection) countedFirst).map fun s =>
        (s.archived ++ s.checked).map fun p => p.2.get (str "remote")) =
      some [str "10.0.0.9", str "10.0.0.9"] ∧
    ¬ Along (sharedStep (str "connection")) (Unaltered webConnection) (sharedStart webConnection)
      countedFirst := by
  refine ⟨by decide, fun h => ?_⟩
  have hinsert := Along.after (countedFirst.take 3) (.insert 0) [.put] h rfl
  have hremote := hinsert 0 _ _ rfl rfl rfl (str "remote") (by decide)
  exact absurd hremote (by decide)

end YulongHids.Server
