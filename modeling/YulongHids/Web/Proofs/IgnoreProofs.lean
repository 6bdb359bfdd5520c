import YulongHids.Web.Ignore

/-!
# Proofs: ignoring an item of the watch mode

The notice that is ignored is the one that was handled last, if one of the item was handled before.
-/

namespace YulongHids.Web

open Golang Mongo Server

variable {s : NoticeStore} {n : Notice} {type info : GoString} {now : ℕ}

theorem objectIdHex_of_length {id : ObjectId} (h : id.length = 12) :
    objectIdHex (hexEncode id) = some id := by
  rw [objectIdHex, hexDecode_hexEncode, Option.bind_some, if_pos h]

/-- A notice stands between notices of other ids. -/
theorem exists_split (hn : n ∈ s.notices.docs) :
    ∃ pre post, s.notices.docs = pre ++ n :: post ∧ ∀ m ∈ pre ++ post, m.id ≠ n.id := by
  obtain ⟨pre, post, hdocs⟩ := List.append_of_mem hn
  refine ⟨pre, post, hdocs, fun m hm heq => ?_⟩
  have hnodup := s.ids_nodup
  rw [hdocs, List.map_append, List.map_cons, List.nodup_middle, List.nodup_cons,
    ← List.map_append, ← heq] at hnodup
  exact hnodup.1 (List.mem_map_of_mem hm)

theorem mem_middle {pre post : List Notice} {m x : Notice} :
    m ∈ pre ++ x :: post ↔ m = x ∨ m ∈ pre ++ post :=
  List.perm_middle.mem_iff.trans List.mem_cons

/-- The key of an ignored notice is another one than that of a notice of the watch mode. -/
theorem taken_iff_key {pre post : List Notice} (hdocs : s.notices.docs = pre ++ n :: post)
    (hlearn : 2 < n.status) :
    (withStatus 2 now n).key ∈ (pre ++ post).map Notice.key ↔ Taken s.notices.docs n now := by
  have hkey : ∀ m : Notice, m.key = (withStatus 2 now n).key ↔
      SameAlert m n ∧ m.status = 2 ∧ m.uptime = some now := by
    intro m
    simp only [Notice.key, withStatus, SameAlert, Prod.mk.injEq]
    tauto
  rw [Taken, hdocs]
  constructor
  · intro h
    obtain ⟨m, hm, hmk⟩ := List.mem_map.mp h
    exact ⟨m, mem_middle.mpr (.inr hm), (hkey m).mp hmk⟩
  · rintro ⟨m, hm, hsame⟩
    rcases mem_middle.mp hm with rfl | hm
    · have := hsame.2.1
      omega
    · exact List.mem_map.mpr ⟨m, hm, (hkey m).mpr hsame⟩

/-- What the branch makes of the notice that was found: its status changes, or nothing does. -/
theorem changeStatusLearn_cases (hn : n ∈ s.notices.docs) (now : ℕ) :
    ∃ c' ok pre post, changeStatusLearn s.notices (some n) now = some (c', ok) ∧
      s.notices.docs = pre ++ n :: post ∧ (∀ m ∈ pre ++ post, m.id ≠ n.id) ∧
      (((withStatus 2 now n).key ∉ (pre ++ post).map Notice.key ∧
          c'.docs = pre ++ withStatus 2 now n :: post) ∨
        (withStatus 2 now n).key ∈ (pre ++ post).map Notice.key ∧ c'.docs = s.notices.docs) := by
  obtain ⟨pre, post, hdocs, hids⟩ := exists_split hn
  have hany : s.notices.docs.any (·.id == n.id) = true := by
    rw [List.any_eq_true]
    exact ⟨n, hn, beq_self_eq_true _⟩
  have hrun : changeStatusLearn s.notices (some n) now =
      some (s.notices.updateAll (·.id == n.id) (withStatus 2 now)) := by
    simp only [changeStatusLearn, Option.bind_some, changeStatusbyId,
      objectIdHex_of_length (s.ids_length n hn), Option.map_some, hany, if_true]
  have hother : ∀ m ∈ pre ++ post, (m.id == n.id) = false := fun m hm => by
    simpa using hids m hm
  refine ⟨_, _, pre, post, hrun, hdocs, hids, ?_⟩
  exact Indexed.updateAll_single hdocs (beq_self_eq_true _)
    (fun m hm => hother m (List.mem_append_left _ hm))
    (fun m hm => hother m (List.mem_append_right _ hm))

/-- A notice of the watch mode that is stored with the status 2 under its id is no longer stored as
it was. -/
theorem not_stored_ignored {m m' : Notice} (hm : m ∈ s.notices.docs) (hlearn : learnNoticeQ m = true)
    (hm' : m' ∈ s.notices.docs) (hid : m'.id = m.id) : m'.status ≠ 2 := by
  rw [List.inj_on_of_nodup_map s.ids_nodup hm' hm hid]
  have hstatus : 2 < m.status := of_decide_eq_true hlearn
  omega

/-- The branch does what it is for exactly when it found a notice of the watch mode whose new key is
free. -/
theorem ignoresItem_iff (hn : n ∈ s.notices.docs) (hitem : itemQ type info n = true) :
    (∃ c' ok, changeStatusLearn s.notices (some n) now = some (c', ok) ∧
      IgnoresItem s.notices.docs c'.docs type info) ↔
    2 < n.status ∧ ¬ Taken s.notices.docs n now := by
  obtain ⟨c', ok, pre, post, hrun, hdocs, -, hcases⟩ := changeStatusLearn_cases hn now
  have hmem : ∀ m, m ∈ s.notices.docs ↔ m = n ∨ m ∈ pre ++ post := by
    intro m
    rw [hdocs, mem_middle]
  constructor
  · rintro ⟨c'', ok', hrun', ⟨m, hm, hlearn, -, m', hm', hid, hstatus⟩, -⟩
    obtain ⟨rfl, -⟩ := Prod.mk.inj (Option.some.inj (hrun.symm.trans hrun'))
    rcases hcases with ⟨hfree, hafter⟩ | ⟨-, hafter⟩
    · rw [hafter] at hm'
      rcases mem_middle.mp hm' with rfl | hm'
      · -- the notice that was found is the one of the watch mode
        have heq : n = m := List.inj_on_of_nodup_map s.ids_nodup hn hm hid
        subst heq
        have hpos : 2 < n.status := of_decide_eq_true hlearn
        exact ⟨hpos, fun htaken => hfree ((taken_iff_key hdocs hpos).mpr htaken)⟩
      · have hstored := (hmem m').mpr (.inr hm')
        exact absurd hstatus (not_stored_ignored hm hlearn hstored hid)
    · rw [hafter] at hm'
      exact absurd hstatus (not_stored_ignored hm hlearn hm' hid)
  · rintro ⟨hpos, hfree⟩
    rcases hcases with ⟨-, hafter⟩ | ⟨htaken, -⟩
    · refine ⟨c', ok, hrun, ?_, fun m hm hstatus => ?_⟩
      · refine ⟨n, hn, decide_eq_true hpos, hitem, withStatus 2 now n, ?_, rfl, rfl⟩
        rw [hafter]
        exact mem_middle.mpr (.inl rfl)
      · rw [hafter]
        rcases (hmem m).mp hm with rfl | hm
        · omega
        · exact mem_middle.mpr (.inr hm)
    · exact absurd ((taken_iff_key hdocs hpos).mp htaken) hfree

/-- The ids of the collection stay as they are. -/
theorem changeStatusLearn_ids (hn : n ∈ s.notices.docs) (now : ℕ) :
    ∃ c' ok, changeStatusLearn s.notices (some n) now = some (c', ok) ∧
      c'.docs.map Notice.id = s.notices.docs.map Notice.id := by
  obtain ⟨c', ok, pre, post, hrun, hdocs, -, ⟨-, hafter⟩ | ⟨-, hafter⟩⟩ :=
    changeStatusLearn_cases hn now
  · refine ⟨c', ok, hrun, ?_⟩
    rw [hafter, hdocs, List.map_append, List.map_append]
    rfl
  · exact ⟨c', ok, hrun, by rw [hafter]⟩

/-- For an item with a notice of the watch mode, the branch ignores such a notice and touches none
of another mode, whichever notice `FindOne` returns, exactly when all the newest notices of the item
are of the watch mode and their new keys are free. -/
theorem changeStatus_learn_iff (s : NoticeStore) (type info : GoString) (now : ℕ)
    (hlearn : ∃ n ∈ s.notices.docs, learnNoticeQ n = true ∧ itemQ type info n = true) :
    (∀ notice, FindOne s.notices (itemQ type info) notice →
      ∃ c' ok, changeStatusLearn s.notices notice now = some (c', ok) ∧
        IgnoresItem s.notices.docs c'.docs type info) ↔
    ∀ n, MayBeFirst uptimeRank (s.notices.docs.filter (itemQ type info)) n →
      2 < n.status ∧ ¬ Taken s.notices.docs n now := by
  constructor
  · intro h n hn
    obtain ⟨hmem, hitem⟩ := List.mem_filter.mp hn.1
    exact (ignoresItem_iff hmem hitem).mp (h (some n) (.found n hn))
  · intro h notice hnotice
    cases hnotice with
    | missing hnone =>
      obtain ⟨n, hn, -, hitem⟩ := hlearn
      exact absurd (List.mem_filter.mpr ⟨hn, hitem⟩) (hnone ▸ List.not_mem_nil)
    | found n hn =>
      obtain ⟨hmem, hitem⟩ := List.mem_filter.mp hn.1
      exact (ignoresItem_iff hmem hitem).mpr (h n hn)

def shellNotice (id : UInt8) (status : ℤ) (uptime : Option ℕ) : Notice where
  id := List.replicate 12 id
  type := str "process"
  ip := str "10.0.0.1"
  source := str "shell"
  level := 0
  info := str "sh"
  status := status
  uptime := uptime

/-- A notice that was dealt with at time 5, and one of the watch mode. -/
def handledBefore : NoticeStore where
  notices := ⟨[shellNotice 1 1 (some 5), shellNotice 2 4 none], by decide⟩
  ids_nodup := by decide
  ids_length := by decide

theorem changeStatus_learn_iff_shell :
    (∀ notice, FindOne handledBefore.notices (itemQ (str "process") (str "sh")) notice →
      ∃ c' ok, changeStatusLearn handledBefore.notices notice 9 = some (c', ok) ∧
        IgnoresItem handledBefore.notices.docs c'.docs (str "process") (str "sh")) ↔
    ∀ n, MayBeFirst uptimeRank
      (handledBefore.notices.docs.filter (itemQ (str "process") (str "sh"))) n →
        2 < n.status ∧ ¬ Taken handledBefore.notices.docs n 9 :=
  changeStatus_learn_iff handledBefore (str "process") (str "sh") 9
    ⟨shellNotice 2 4 none, by decide, by decide, by decide⟩

/-- The notice that was dealt with is ignored, and the one of the watch mode stays. -/
theorem changeStatus_learn_handled :
    FindOne handledBefore.notices (itemQ (str "process") (str "sh"))
        (some (shellNotice 1 1 (some 5))) ∧
      (changeStatusLearn handledBefore.notices (some (shellNotice 1 1 (some 5))) 9).map
          (fun r => r.1.docs) = some [shellNotice 1 2 (some 9), shellNotice 2 4 none] ∧
      ¬ IgnoresItem handledBefore.notices.docs [shellNotice 1 2 (some 9), shellNotice 2 4 none]
        (str "process") (str "sh") := by
  refine ⟨.found _ ⟨by decide, by decide⟩, by decide, ?_⟩
  rintro ⟨-, hkept⟩
  exact absurd (hkept (shellNotice 1 1 (some 5)) (by decide) (by decide)) (by decide)

end YulongHids.Web
