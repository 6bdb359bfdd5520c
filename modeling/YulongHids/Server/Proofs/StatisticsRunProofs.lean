import YulongHids.Server.Proofs.StatisticsProofs
import YulongHids.Server.StatisticsRun

/-!
# Proofs: concurrent counting

The collection reflects the records counted so far as long as every insert meets no document of its
value. An insert that does meet one leaves two documents, and nothing ever removes one of them.
-/

namespace YulongHids.Server

open Golang Mongo Transition

/-! ## What one step can do -/

theorem exists_set_eq {α : Type*} {l : List α} {i : ℕ} {a : α} (h : l[i]? = some a) :
    ∃ l1 l2, l = l1 ++ a :: l2 ∧ ∀ b, l.set i b = l1 ++ b :: l2 := by
  obtain ⟨hi, rfl⟩ := List.getElem?_eq_some_iff.mp h
  refine ⟨l.take i, l.drop (i + 1), ?_, fun b => List.set_eq_take_cons_drop b hi⟩
  rw [List.cons_getElem_drop_succ, List.take_append_drop]

/-- The write of a call: what its `Count` decided on. -/
def StatCall.write (c : Statistics) (call : StatCall) (v : Record) (found : Bool) : Statistics :=
  if found then
    update c (statSelector call.datainfo.type (call.info v))
      (statUpdate call.datainfo.ip call.datainfo.uptime)
  else
    Mongo.insert c ⟨call.datainfo.type, call.info v, 1, [call.datainfo.ip], call.datainfo.uptime⟩

theorem statStep_cases {s s' : StatState} {i : ℕ} (h : statStep s i = some s') :
    ∃ l1 call l2 v rest, s.calls[i]? = some call ∧ s.calls = l1 ++ call :: l2 ∧
      call.datainfo.data = v :: rest ∧
      ((call.found = none ∧ s' = ⟨s.statistics, l1 ++ { call with found := some (decide (1 ≤
          count s.statistics (statSelector call.datainfo.type (call.info v)))) } :: l2⟩) ∨
        ∃ found, call.found = some found ∧
          s' = ⟨call.write s.statistics v found, l1 ++ call.next rest :: l2⟩) := by
  rw [statStep] at h
  cases hcall : s.calls[i]? with
  | none => simp [hcall] at h
  | some call =>
    obtain ⟨l1, l2, hl, hset⟩ := exists_set_eq hcall
    simp only [hcall, StatCall.step] at h
    cases hdata : call.datainfo.data with
    | nil => simp [hdata] at h
    | cons v rest =>
      refine ⟨l1, call, l2, v, rest, rfl, hl, hdata, ?_⟩
      rcases hfound : call.found with _ | _ | _
      · left
        simp only [hdata, hfound, hset, Option.some.injEq] at h
        exact ⟨rfl, h.symm⟩
      · right
        simp only [hdata, hfound, hset, Option.some.injEq] at h
        exact ⟨false, rfl, h.symm⟩
      · right
        simp only [hdata, hfound, hset, Option.some.injEq] at h
        exact ⟨true, rfl, h.symm⟩

/-! ## One call alone -/

theorem record_alone (c : Statistics) (datainfo : DataInfo) (k : GoString) (v : Record)
    (rest : List Record) :
    run statStep ⟨c, [⟨{ datainfo with data := v :: rest }, k, none⟩]⟩ [0, 0] =
      some ⟨statValue c datainfo.type ((statRecord datainfo.type k v).get k) datainfo.ip
        datainfo.uptime, [⟨{ datainfo with data := rest }, k, none⟩]⟩ := by
  rw [statValue, statRecord_get]
  by_cases hc : 1 ≤ count c (statSelector datainfo.type (mainValue datainfo.type k v))
  · simp [run, statStep, StatCall.step, StatCall.info, StatCall.next, hc]
  · simp [run, statStep, StatCall.step, StatCall.info, StatCall.next, hc]

/-- A call that runs alone counts as the loop of `ResultStat` does. -/
theorem run_alone (c : Statistics) (datainfo : DataInfo) (k : GoString) (data : List Record) :
    run statStep ⟨c, [⟨{ datainfo with data := data }, k, none⟩]⟩
        (List.replicate (2 * data.length) 0) =
      some ⟨statLoop datainfo.type k datainfo.ip datainfo.uptime c data,
        [⟨{ datainfo with data := [] }, k, none⟩]⟩ := by
  induction data generalizing c with
  | nil => rfl
  | cons v rest ih =>
    have hlen : List.replicate (2 * (v :: rest).length) 0 =
        [0, 0] ++ List.replicate (2 * rest.length) 0 := by
      rw [List.length_cons, Nat.mul_succ, Nat.add_comm, List.replicate_add]
      rfl
    rw [hlen, run_append_iff]
    exact ⟨_, record_alone c datainfo k v rest, ih _⟩

/-! ## Documents and reports of one value -/

theorem hostsOf_append (l l' : List Received) (type info : GoString) :
    hostsOf (l ++ l') type info = hostsOf l type info ++ hostsOf l' type info := by
  simp [hostsOf]

theorem hostsOf_singleton (r : Received) (type info : GoString) :
    hostsOf [r] type info = if r.type = type ∧ r.info = info then [r.ip] else [] := by
  by_cases h : r.type = type ∧ r.info = info
  · simp [hostsOf, h.1, h.2]
  · rw [if_neg h]
    simpa [hostsOf] using h

theorem Reflects.perm {ips ips' : List GoString} {docs : List StatDoc} (hp : ips.Perm ips')
    (h : Reflects ips docs) : Reflects ips' docs := by
  unfold Reflects at h ⊢
  by_cases hnil : ips = []
  · subst hnil
    rw [if_pos rfl] at h
    rwa [if_pos hp.nil_eq.symm]
  · have hnil' : ips' ≠ [] := fun h' => hnil (h' ▸ hp).eq_nil
    rw [if_neg hnil] at h
    rw [if_neg hnil']
    obtain ⟨d, hd, hcount, hmem⟩ := h
    exact ⟨d, hd, by rw [hcount, hp.length_eq], fun ip => (hmem ip).trans hp.mem_iff⟩

theorem Reflects.length_le {ips : List GoString} {docs : List StatDoc} (h : Reflects ips docs) :
    docs.length ≤ 1 := by
  unfold Reflects at h
  split at h
  · simp [h]
  · obtain ⟨d, rfl, -⟩ := h
    exact le_refl 1

/-- A report for which there is a document updates it. -/
theorem Reflects.update {ips : List GoString} {docs : List StatDoc} (h : Reflects ips docs)
    (hne : docs ≠ []) (ip : GoString) (uptime : ℕ) :
    Reflects (ips ++ [ip]) (docs.modifyHead (statUpdate ip uptime)) := by
  have hips : ips ≠ [] := by
    intro hnil
    rw [Reflects, if_pos hnil] at h
    exact hne h
  rw [Reflects, if_neg hips] at h
  obtain ⟨d, rfl, hcount, hmem⟩ := h
  rw [Reflects, if_neg (by simp)]
  refine ⟨statUpdate ip uptime d, rfl, ?_, fun ip' => ?_⟩
  · simp [statUpdate, hcount]
  · rw [List.mem_append, List.mem_singleton, ← hmem ip']
    by_cases hip : ip ∈ d.serverList
    · simp only [statUpdate, if_pos hip]
      constructor
      · exact Or.inl
      · rintro (h | rfl)
        · exact h
        · exact hip
    · simp [statUpdate, hip]

theorem Reflects.insert {ips : List GoString} (h : Reflects ips []) (type info ip : GoString)
    (uptime : ℕ) : Reflects (ips ++ [ip]) [⟨type, info, 1, [ip], uptime⟩] := by
  have hips : ips = [] := by
    by_contra hne
    rw [Reflects, if_neg hne] at h
    obtain ⟨d, hd, -⟩ := h
    simp at hd
  subst hips
  rw [List.nil_append, Reflects, if_neg (by simp)]
  exact ⟨_, rfl, rfl, fun ip' => Iff.rfl⟩

/-! ## A write -/

section Write

variable {c : Statistics} {call : StatCall} {v : Record}

theorem statSelector_iff {type info : GoString} {d : StatDoc} :
    statSelector type info d = true ↔ d.type = type ∧ d.info = info := by
  simp [statSelector]

/-- The documents of another value stay what they are. -/
theorem filter_update_other {type type' info info' : GoString}
    (hkey : ¬ (type' = type ∧ info' = info)) (ip : GoString) (uptime : ℕ) :
    (update c (statSelector type' info') (statUpdate ip uptime)).filter (statSelector type info) =
      c.filter (statSelector type info) := by
  refine filter_update_disjoint fun d hd => ?_
  obtain ⟨htype, hinfo⟩ := statSelector_iff.mp hd
  have hd' : statSelector type info d = false := by
    rw [Bool.eq_false_iff, Ne, statSelector_iff, htype, hinfo]
    exact hkey
  exact ⟨hd', hd'⟩

/-- A write with the right decision counts one more report. -/
theorem write_exact {done : List Received} (h : StatExact done c) (found : Bool)
    (hfound : found = true ↔ c.filter (statSelector call.datainfo.type (call.info v)) ≠ []) :
    StatExact (done ++ [⟨call.datainfo.type, call.info v, call.datainfo.ip⟩])
      (call.write c v found) := by
  intro type info
  have hold := h type info
  rw [hostsOf_append, hostsOf_singleton]
  by_cases hkey : call.datainfo.type = type ∧ call.info v = info
  · obtain ⟨rfl, rfl⟩ := hkey
    rw [if_pos ⟨rfl, rfl⟩]
    cases found with
    | true =>
      rw [StatCall.write, if_pos rfl, filter_update_self (by simp [statSelector, statUpdate])]
      exact hold.update (hfound.mp rfl) _ _
    | false =>
      have hnil : c.filter (statSelector call.datainfo.type (call.info v)) = [] := by
        simpa using hfound
      rw [StatCall.write, if_neg (by simp), filter_insert, hnil, List.nil_append,
        if_pos (by simp [statSelector])]
      rw [hnil] at hold
      exact hold.insert _ _ _ _
  · rw [if_neg hkey, List.append_nil]
    cases found with
    | true =>
      rw [StatCall.write, if_pos rfl, filter_update_other hkey]
      exact hold
    | false =>
      rw [StatCall.write, if_neg (by simp), filter_insert, if_neg, List.append_nil]
      · exact hold
      · rw [statSelector_iff]
        exact hkey

/-- No write removes a document of a value. -/
theorem length_filter_write (found : Bool) (type info : GoString) :
    (c.filter (statSelector type info)).length ≤
      ((call.write c v found).filter (statSelector type info)).length := by
  cases found with
  | true =>
    by_cases hkey : call.datainfo.type = type ∧ call.info v = info
    · obtain ⟨rfl, rfl⟩ := hkey
      rw [StatCall.write, if_pos rfl, filter_update_self (by simp [statSelector, statUpdate]),
        List.length_modifyHead]
    · rw [StatCall.write, if_pos rfl, filter_update_other hkey]
  | false =>
    rw [StatCall.write, if_neg (by simp), filter_insert, List.length_append]
    exact Nat.le_add_right _ _

end Write

/-! ## Runs -/

/-- The reports a call has still to count. -/
def StatCall.pending (call : StatCall) : List Received :=
  call.datainfo.data.map fun v => ⟨call.datainfo.type, call.info v, call.datainfo.ip⟩

/-- The collection counts the reports that are no longer pending, and a document that a `Count` saw
is still there. -/
structure Counted (received : List Received) (s : StatState) : Prop where
  exact : ∃ done, (done ++ s.calls.flatMap StatCall.pending).Perm received ∧
    StatExact done s.statistics
  found : ∀ call ∈ s.calls, ∀ v rest, call.found = some true → call.datainfo.data = v :: rest →
    s.statistics.filter (statSelector call.datainfo.type (call.info v)) ≠ []

theorem startCall_pending (datainfo : DataInfo) :
    (startCall datainfo).pending = receivedOf datainfo := by
  rw [startCall, receivedOf]
  cases mainMapping.lookup datainfo.type with
  | none => rfl
  | some k => simp [StatCall.pending, StatCall.info]

theorem startCall_found (datainfo : DataInfo) : (startCall datainfo).found = none := by
  rw [startCall]
  cases mainMapping.lookup datainfo.type <;> rfl

theorem counted_statStart (batches : List DataInfo) :
    Counted (batches.flatMap receivedOf) (statStart batches) where
  exact := by
    refine ⟨[], ?_, fun type info => rfl⟩
    rw [statStart, List.nil_append, List.flatMap_map]
    simp only [startCall_pending]
    exact List.Perm.refl _
  found := by
    intro call hcall v rest hfound
    obtain ⟨d, -, rfl⟩ := List.mem_map.mp hcall
    rw [startCall_found] at hfound
    exact absurd hfound (by simp)

section Step

variable {received : List Received} {s s' : StatState} {call : StatCall} {l1 l2 : List StatCall}
  {v : Record} {rest : List Record}

/-- A `Count` writes nothing, and what it saw is there. -/
theorem Counted.count (h : Counted received s) (hcalls : s.calls = l1 ++ call :: l2)
    (hdata : call.datainfo.data = v :: rest) :
    Counted received ⟨s.statistics, l1 ++ { call with found := some (decide (1 ≤
      count s.statistics (statSelector call.datainfo.type (call.info v)))) } :: l2⟩ where
  exact := by
    obtain ⟨done, hperm, hexact⟩ := h.exact
    rw [hcalls] at hperm
    exact ⟨done, by simpa [StatCall.pending, StatCall.info] using hperm, hexact⟩
  found := by
    intro call' hcall' v' rest' hfound hdata'
    simp only [List.mem_append, List.mem_cons] at hcall'
    rcases hcall' with hl | rfl | hl
    · exact h.found call' (by simp [hcalls, hl]) v' rest' hfound hdata'
    · obtain ⟨rfl, rfl⟩ := List.cons.inj (hdata.symm.trans hdata')
      simp only [Option.some.injEq, decide_eq_true_eq] at hfound
      intro hnil
      have hzero := count_eq_zero_iff.mpr hnil
      simp only [StatCall.info] at hfound hzero
      omega
    · exact h.found call' (by simp [hcalls, hl]) v' rest' hfound hdata'

theorem pending_cons (hdata : call.datainfo.data = v :: rest) :
    call.pending =
      ⟨call.datainfo.type, call.info v, call.datainfo.ip⟩ :: (call.next rest).pending := by
  rw [StatCall.pending, hdata]
  rfl

/-- A write with the right decision moves its report from the pending ones to the counted ones. -/
theorem Counted.write {found : Bool} (h : Counted received s)
    (hcalls : s.calls = l1 ++ call :: l2) (hdata : call.datainfo.data = v :: rest)
    (hfound : found = true ↔
      s.statistics.filter (statSelector call.datainfo.type (call.info v)) ≠ []) :
    Counted received ⟨call.write s.statistics v found, l1 ++ call.next rest :: l2⟩ where
  exact := by
    obtain ⟨done, hperm, hexact⟩ := h.exact
    refine ⟨_, ?_, write_exact hexact found hfound⟩
    rw [hcalls] at hperm
    refine List.Perm.trans ?_ hperm
    simp only [List.flatMap_append, List.flatMap_cons, pending_cons hdata, List.append_assoc,
      List.cons_append, List.nil_append]
    exact List.Perm.append_left done List.perm_middle.symm
  found := by
    intro call' hcall' v' rest' hfound' hdata'
    simp only [List.mem_append, List.mem_cons] at hcall'
    have hkeep : call' ∈ s.calls → (call.write s.statistics v found).filter
        (statSelector call'.datainfo.type (call'.info v')) ≠ [] := by
      intro hc hnil
      have hlen := @length_filter_write s.statistics call v found call'.datainfo.type
        (call'.info v')
      rw [hnil, List.length_nil, Nat.le_zero, List.length_eq_zero_iff] at hlen
      exact h.found call' hc v' rest' hfound' hdata' hlen
    rcases hcall' with hl | rfl | hl
    · exact hkeep (by simp [hcalls, hl])
    · simp [StatCall.next] at hfound'
    · exact hkeep (by simp [hcalls, hl])

/-- A step whose insert is fresh keeps the invariant. -/
theorem counted_step {i : ℕ} (h : Counted received s) (hfresh : InsertsFresh s i)
    (hstep : statStep s i = some s') : Counted received s' := by
  obtain ⟨l1, call, l2, v, rest, hget, hcalls, hdata, hcase⟩ := statStep_cases hstep
  rcases hcase with ⟨-, rfl⟩ | ⟨found, hsome, rfl⟩
  · exact h.count hcalls hdata
  · refine h.write hcalls hdata ?_
    cases found with
    | true =>
      have hmem : call ∈ s.calls := List.mem_of_getElem? hget
      exact ⟨fun _ => h.found call hmem v rest hsome hdata, fun _ => rfl⟩
    | false => simp [hfresh call v rest hget hsome hdata]

end Step

/-- Two documents of one value stay two. -/
theorem duplicate_step {type info : GoString} {s s' : StatState} {i : ℕ}
    (h : 2 ≤ (s.statistics.filter (statSelector type info)).length)
    (hstep : statStep s i = some s') :
    2 ≤ (s'.statistics.filter (statSelector type info)).length := by
  obtain ⟨l1, call, l2, v, rest, -, -, -, hcase⟩ := statStep_cases hstep
  rcases hcase with ⟨-, rfl⟩ | ⟨found, -, rfl⟩
  · exact h
  · exact le_trans h (length_filter_write found type info)

/-- An insert that is not fresh leaves two documents of its value. -/
theorem duplicate_of_not_fresh {s s' : StatState} {i : ℕ} (hfresh : ¬ InsertsFresh s i)
    (hstep : statStep s i = some s') :
    ∃ type info, 2 ≤ (s'.statistics.filter (statSelector type info)).length := by
  obtain ⟨l1, call, l2, v, rest, hget, -, hdata, hcase⟩ := statStep_cases hstep
  simp only [InsertsFresh, not_forall] at hfresh
  obtain ⟨call', v', rest', hget', hfound, hdata', hne⟩ := hfresh
  obtain rfl : call = call' := Option.some.inj (hget.symm.trans hget')
  obtain ⟨rfl, rfl⟩ := List.cons.inj (hdata.symm.trans hdata')
  rcases hcase with ⟨hnone, -⟩ | ⟨found, hsome, rfl⟩
  · rw [hnone] at hfound
    exact absurd hfound (by simp)
  · obtain rfl : found = false := Option.some.inj (hsome.symm.trans hfound)
    refine ⟨call.datainfo.type, call.info v, ?_⟩
    have hpos := List.length_pos_of_ne_nil hne
    rw [StatCall.write, if_neg (by simp), filter_insert, if_pos (by simp [statSelector]),
      List.length_append, List.length_singleton]
    omega

/-- When concurrent calls have finished, the collection counts exactly what was received if and only
if no insert of the run met a document of its value. -/
theorem statistics_exact_iff (batches : List DataInfo) (schedule : List ℕ) (s : StatState)
    (hrun : run statStep (statStart batches) schedule = some s)
    (hdone : ∀ call ∈ s.calls, call.finished) :
    StatExact (batches.flatMap receivedOf) s.statistics ↔
      Along statStep InsertsFresh (statStart batches) schedule := by
  constructor
  · intro hexact
    by_contra hnot
    obtain ⟨es1, e, es2, s1, s2, -, -, -, hfresh, hstep, hrest⟩ :=
      exists_first_of_not_along hrun hnot
    obtain ⟨type, info, hdup⟩ := duplicate_of_not_fresh hfresh hstep
    have hend := run_invariant (fun _ _ _ h hs => duplicate_step h hs) hdup hrest
    have hle := (hexact type info).length_le
    omega
  · intro hfresh
    have hcounted := Along.invariant (fun _ _ _ h hP hs => counted_step h hP hs)
      (counted_statStart batches) hfresh hrun
    obtain ⟨done, hperm, hexact⟩ := hcounted.exact
    have hpending : s.calls.flatMap StatCall.pending = [] := by
      rw [List.flatMap_eq_nil_iff]
      intro call hcall
      rw [StatCall.pending, hdone call hcall]
      rfl
    rw [hpending, List.append_nil] at hperm
    intro type info
    exact (hexact type info).perm ((hperm.filter _).map _)

/-- One process event of the program `nc`, reported by a host. -/
def ncBatch (ip : String) : DataInfo :=
  ⟨str ip, str "process", str "linux", [(∅ : Record).insert (str "name") (str "nc")], 0⟩

/-- Both hosts count before either of them inserts: two documents with the count 1. -/
theorem statistics_duplicate :
    ∃ s, run statStep (statStart [ncBatch "10.0.0.1", ncBatch "10.0.0.2"]) [0, 1, 0, 1] = some s ∧
      (∀ call ∈ s.calls, call.finished) ∧
      s.statistics.map StatDoc.count = [1, 1] ∧
      ¬ StatExact ([ncBatch "10.0.0.1", ncBatch "10.0.0.2"].flatMap receivedOf) s.statistics := by
  refine ⟨_, rfl, ?_, by decide, fun h => ?_⟩
  · intro call hcall
    rcases hcall with _ | ⟨_, _ | ⟨_, h⟩⟩
    · rfl
    · rfl
    · cases h
  · have hle := (h (str "process") (str "nc")).length_le
    revert hle
    decide

/-- One after the other they count right. -/
theorem statistics_exact_sequential :
    ∃ s, run statStep (statStart [ncBatch "10.0.0.1", ncBatch "10.0.0.2"]) [0, 0, 1, 1] = some s ∧
      StatExact ([ncBatch "10.0.0.1", ncBatch "10.0.0.2"].flatMap receivedOf) s.statistics := by
  refine ⟨_, rfl, (statistics_exact_iff [ncBatch "10.0.0.1", ncBatch "10.0.0.2"] [0, 0, 1, 1] _ rfl
    ?_).mpr ?_⟩
  · intro call hcall
    rcases hcall with _ | ⟨_, _ | ⟨_, h⟩⟩
    · rfl
    · rfl
    · cases h
  · refine Along.cons rfl ?_ (Along.cons rfl ?_ (Along.cons rfl ?_ (Along.cons rfl ?_ trivial)))
    · intro call v rest hget hfound
      obtain rfl := Option.some.inj hget
      exact absurd hfound (by decide)
    · intro call v rest hget hfound hdata
      rfl
    · intro call v rest hget hfound
      obtain rfl := Option.some.inj hget
      exact absurd hfound (by decide)
    · intro call v rest hget hfound
      obtain rfl := Option.some.inj hget
      exact absurd hfound (by decide)

end YulongHids.Server
