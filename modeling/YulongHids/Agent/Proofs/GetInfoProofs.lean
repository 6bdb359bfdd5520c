import YulongHids.Agent.GetInfo

/-!
# Proofs: collected information

The history has the list that was sent last, the collection the one that arrived last. They are the
same list only if the transmissions arrive, and the comparison sees a change only in the entries of
the new list.
-/

namespace YulongHids.Agent

open Golang Mongo Server Transition

/-! ## The comparison -/

theorem mapComparison_iff {new old : List Record} :
    mapComparison new old = true ↔
      List.Forall₂ (fun v o => ∀ e ∈ v.entries, e.2 = Record.get o e.1) new old := by
  rw [mapComparison, Bool.and_eq_true, beq_iff_eq, List.forall₂_iff_zip]
  refine and_congr_right fun _ => ?_
  simp only [List.all_eq_true, beq_iff_eq, Prod.forall]

theorem SameRecord.mem_iff {a b : Record} (h : SameRecord a b) (key : GoString) :
    key ∈ a ↔ key ∈ b := by
  rw [← AList.lookup_isSome, ← AList.lookup_isSome, h key]

/-- What the comparison of two records leaves open is whether the old one has more keys, and whether
a key with the empty string is new. -/
theorem sameRecord_iff {v o : Record} (h : ∀ e ∈ v.entries, e.2 = Record.get o e.1) :
    SameRecord o v ↔ ∀ key, key ∈ o ↔ key ∈ v := by
  constructor
  · exact fun hs => hs.mem_iff
  · intro hkeys key
    cases hv : v.lookup key with
    | none =>
      rw [AList.lookup_eq_none] at hv ⊢
      exact fun ho => hv ((hkeys key).mp ho)
    | some x =>
      have hx := h ⟨key, x⟩ (AList.mem_lookup_iff.mp hv)
      have hmem : key ∈ v := AList.lookup_isSome.mp (by rw [hv]; rfl)
      obtain ⟨y, hy⟩ := Option.isSome_iff_exists.mp (AList.lookup_isSome.mpr ((hkeys key).mpr hmem))
      rw [Record.get, hy, Option.getD_some] at hx
      rw [hy, ← hx]

theorem sameData_iff {new old : List Record} (h : mapComparison new old = true) :
    SameData old new ↔ SameKeys old new := by
  rw [mapComparison_iff] at h
  rw [SameData, SameKeys]
  induction h with
  | nil => simp
  | cons hhead _ ih => rw [List.forall₂_cons, List.forall₂_cons, sameRecord_iff hhead, ih]

theorem sameData_nil_right {l : List Record} : SameData l [] ↔ l = [] :=
  List.forall₂_nil_right_iff

/-! ## The histories -/

theorem lastOf_append_singleton (k : GoString) (l : List DataInfo) (d : DataInfo) :
    lastOf k (l ++ [d]) = if d.type = k then some d.data else lastOf k l := by
  rw [lastOf, List.filter_append]
  by_cases h : d.type = k
  · simp [h]
  · simp [h, lastOf]

theorem lastOf_mem {k : GoString} {l : List DataInfo} {v : List Record} (h : lastOf k l = some v) :
    ∃ d ∈ l, d.data = v := by
  rw [lastOf, Option.map_eq_some_iff] at h
  obtain ⟨d, hd, hv⟩ := h
  exact ⟨d, (List.mem_filter.mp (List.mem_of_getLast? hd)).1, hv⟩

/-! ## The collection -/

variable {ip goos : GoString}

theorem infoSelector_self (d : DataInfo) : infoSelector d.ip d.type d = true := by
  simp [infoSelector]

section Stored

variable {c : InfoCollection} {d : DataInfo} {now : ℕ} {k : GoString}

theorem stored_infoPut_self (hdata : d.data ≠ []) (htype : d.type ∉ esTypes) :
    stored (infoPut c d now) d.ip d.type = d.data := by
  rw [infoPut, if_neg hdata, infoSave, if_neg htype]
  simp only [stored]
  split
  · next hcount =>
    obtain ⟨old, hold⟩ := Option.isSome_iff_exists.mp (one_le_count_iff.mp hcount)
    rw [one_update_self (by exact fun _ h => h), hold]
    rfl
  · next hcount =>
    have hnone : one c (infoSelector d.ip d.type) = none := by
      rw [← Option.not_isSome_iff_eq_none, ← one_le_count_iff]
      exact hcount
    have hself : infoSelector d.ip d.type { d with uptime := now } = true :=
      infoSelector_self { d with uptime := now }
    rw [one_insert, hnone, hself]
    rfl

/-- The lists of other types stay. -/
theorem stored_infoPut_other (hk : d.type ≠ k) :
    stored (infoPut c d now) d.ip k = stored c d.ip k := by
  have hother : ∀ d' : DataInfo, d'.type = d.type → infoSelector d.ip k d' = false := by
    intro d' hd'
    simp [infoSelector, hd', hk]
  rw [infoPut]
  split
  · rfl
  simp only [infoSave, stored]
  split
  · rfl
  split
  · rw [one_update_disjoint]
    intro d' hsel
    have htype : d'.type = d.type := by
      simp only [infoSelector, Bool.and_eq_true, beq_iff_eq] at hsel
      exact hsel.2
    exact ⟨hother d' htype, hother _ htype⟩
  · have hself : infoSelector d.ip k { d with uptime := now } = false :=
      hother { d with uptime := now } rfl
    rw [one_insert, hself]
    simp

/-- What is stored after a batch with records was received. -/
theorem stored_infoPut (hdata : d.data ≠ []) (hk : k ∉ esTypes) :
    stored (infoPut c d now) d.ip k = if d.type = k then d.data else stored c d.ip k := by
  split
  · next htype =>
    subst htype
    exact stored_infoPut_self hdata hk
  · next htype => exact stored_infoPut_other htype

end Stored

/-! ## The invariant -/

/-- What the agent and the server remember of a run that started with the collection `info`. -/
structure InfoInv (ip : GoString) (info : InfoCollection) (s : InfoState) : Prop where
  history : ∀ k, s.historyCache.lookup k = lastOf k s.sent
  store : ∀ k, k ∉ esTypes → stored s.info ip k = (lastOf k s.arrived).getD (stored info ip k)
  inFlight : ∀ d ∈ s.inFlight, d.ip = ip ∧ d.data ≠ []
  arrived : ∀ d ∈ s.arrived, d.data ≠ []

theorem infoStart_inv (info : InfoCollection) : InfoInv ip info (infoStart info) where
  history _ := rfl
  store _ _ := rfl
  inFlight d h := by cases h
  arrived d h := by cases h

variable {info : InfoCollection} {s s' : InfoState}

theorem InfoInv.put (h : InfoInv ip info s) {k : GoString} {v : List Record} (hv : v ≠ []) :
    InfoInv ip info (s.put ip goos k v) where
  history k' := by
    simp only [InfoState.put, lastOf_append_singleton]
    by_cases hk : k = k'
    · simp [hk]
    · rw [if_neg hk, AList.lookup_insert_ne (Ne.symm hk), h.history]
  store := h.store
  inFlight d hd := by
    simp only [InfoState.put, List.mem_append, List.mem_singleton] at hd
    rcases hd with hd | rfl
    · exact h.inFlight d hd
    · exact ⟨rfl, hv⟩
  arrived := h.arrived

theorem InfoInv.receive (h : InfoInv ip info s) {i now : ℕ} {d : DataInfo}
    (hd : s.inFlight[i]? = some d) : InfoInv ip info (s.receive i d now) := by
  obtain ⟨hip, hdata⟩ := h.inFlight d (List.mem_of_getElem? hd)
  refine ⟨h.history, fun k hk => ?_, fun d' hd' => ?_, fun d' hd' => ?_⟩
  · simp only [InfoState.receive, lastOf_append_singleton]
    rw [← hip, stored_infoPut hdata hk]
    split
    · rfl
    · rw [hip]
      exact h.store k hk
  · exact h.inFlight d' (List.mem_of_mem_eraseIdx hd')
  · simp only [InfoState.receive, List.mem_append, List.mem_singleton] at hd'
    rcases hd' with hd' | rfl
    · exact h.arrived d' hd'
    · exact hdata

theorem infoStep_inv {e : InfoEvent} (h : InfoInv ip info s)
    (hstep : infoStep ip goos s e = some s') : InfoInv ip info s' := by
  cases e with
  | collect k v =>
    simp only [infoStep, Option.some.injEq] at hstep
    subst hstep
    split
    · exact h
    · next hchange =>
      refine h.put fun hv => hchange ?_
      rw [hv]
      rfl
  | arrive i now =>
    simp only [infoStep, Option.map_eq_some_iff] at hstep
    obtain ⟨d, hd, rfl⟩ := hstep
    exact h.receive hd
  | fail i =>
    simp only [infoStep, Option.map_eq_some_iff] at hstep
    obtain ⟨d, hd, rfl⟩ := hstep
    exact ⟨h.history, h.store, fun d' hd' => h.inFlight d' (List.mem_of_mem_eraseIdx hd'),
      h.arrived⟩

/-- A list with records in which the agent sees no change was compared with a list it sent. -/
theorem InfoInv.sent_of_noChange (h : InfoInv ip info s) {k : GoString} {v : List Record}
    (hv : v ≠ []) (hno : s.noChange k v = true) :
    ∃ old, s.historyCache.lookup k = some old ∧ lastOf k s.sent = some old ∧
      mapComparison v old = true := by
  have hcmp : mapComparison v ((s.historyCache.lookup k).getD []) = true := by
    simpa [InfoState.noChange, hv] using hno
  cases hk : s.historyCache.lookup k with
  | none =>
    rw [hk, Option.getD_none, mapComparison_iff, List.forall₂_nil_right_iff] at hcmp
    exact absurd hcmp hv
  | some old =>
    rw [hk, Option.getD_some] at hcmp
    exact ⟨old, rfl, by rw [← h.history, hk], hcmp⟩

/-- One decision of the agent, if the list it sent last has arrived last. -/
theorem agrees_iff_comparable {e : InfoEvent} (h : InfoInv ip info s) (hdel : Delivered s e) :
    Agrees ip s e ↔ Comparable ip info s e := by
  cases e with
  | arrive i now => exact Iff.rfl
  | fail i => exact Iff.rfl
  | collect k v =>
    refine forall_congr' fun hk => forall_congr' fun hno => ?_
    rw [h.store k hk]
    by_cases hv : v = []
    · subst hv
      rw [if_pos rfl, sameData_nil_right]
      cases harr : lastOf k s.arrived with
      | none => simp
      | some l =>
        obtain ⟨d, hd, rfl⟩ := lastOf_mem harr
        simpa using h.arrived d hd
    · obtain ⟨old, hcache, hsent, hcmp⟩ := h.sent_of_noChange hv hno
      rw [if_neg hv, hdel hk hno hv, hsent, hcache, Option.getD_some, Option.getD_some]
      exact sameData_iff hcmp

/-- If what was sent last has arrived last whenever the agent sees no change, then agent and server
agree in a run if and only if the comparison is right in all of it: no record lost or gained a key,
and no list became empty. -/
theorem getInfo_agrees_iff (ip goos : GoString) (info : InfoCollection) (es : List InfoEvent)
    (s : InfoState) (hrun : run (infoStep ip goos) (infoStart info) es = some s)
    (hdel : Along (infoStep ip goos) Delivered (infoStart info) es) :
    Along (infoStep ip goos) (Agrees ip) (infoStart info) es ↔
      Along (infoStep ip goos) (Comparable ip info) (infoStart info) es :=
  along_iff_of_invariant hdel (fun _ _ _ h _ _ hstep => infoStep_inv h hstep)
    (fun _ _ _ h hd _ => agrees_iff_comparable h hd) (infoStart_inv info) hrun

/-- Crontab entries before and after the user of the second was set. -/
def cronData (user : String) : List Record :=
  [(∅ : Record).insert (str "command") (str "id") |>.insert (str "user") (str user)]

def cronCycle (user : String) : List InfoEvent :=
  getInfoCycle [⟨str "crontab", cronData user⟩]

/-- Two cycles with a delivery between them. -/
theorem getInfo_agrees_cron :
    Along (infoStep (str "10.0.0.1") (str "linux")) (Agrees (str "10.0.0.1")) (infoStart [])
      (cronCycle "root" ++ [.arrive 0 1] ++ cronCycle "root") := by
  refine (getInfo_agrees_iff (str "10.0.0.1") (str "linux") [] _ _ rfl ?_).mpr ?_
  · refine Along.cons rfl ?_ (Along.cons rfl trivial (Along.cons rfl ?_ trivial))
    · intro _ hno
      exact absurd hno (by decide)
    · intro _ _ _
      rfl
  · refine Along.cons rfl ?_ (Along.cons rfl trivial (Along.cons rfl ?_ trivial))
    · intro _ hno
      exact absurd hno (by decide)
    · intro _ _
      exact List.Forall₂.cons (fun _ => Iff.rfl) List.Forall₂.nil

/-- The second list is lost, and the third is not sent because it is like the second. -/
theorem getInfo_disagrees :
    (run (infoStep (str "10.0.0.1") (str "linux")) (infoStart []) (cronCycle "root" ++
      [.arrive 0 1] ++ cronCycle "daemon" ++ [.fail 0] ++ cronCycle "daemon")).isSome = true ∧
    ¬ Along (infoStep (str "10.0.0.1") (str "linux")) (Agrees (str "10.0.0.1")) (infoStart [])
      (cronCycle "root" ++ [.arrive 0 1] ++ cronCycle "daemon" ++ [.fail 0] ++
        cronCycle "daemon") := by
  refine ⟨by decide, fun h => ?_⟩
  have hlast := h.after (cronCycle "root" ++ [.arrive 0 1] ++ cronCycle "daemon" ++ [.fail 0])
    (.collect (str "crontab") (cronData "daemon")) [] rfl
  have hsame := hlast (by decide) (by decide)
  have huser : (some (str "root")) = some (str "daemon") :=
    (List.forall₂_cons.mp hsame).1 (str "user")
  exact absurd huser (by decide)

end YulongHids.Agent
