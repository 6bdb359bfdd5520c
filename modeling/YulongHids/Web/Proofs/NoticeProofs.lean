import YulongHids.Web.Notice

/-!
# Proofs: the end of the watch mode

An update that is put under `$set` twice is rejected, so `doneDuplicateErr` opens nothing and removes
every notice of the watch mode that is left.
-/

namespace YulongHids.Web

open Golang Mongo Server

variable {c : Notices} {docs pre post : List Notice} {d n : Notice}

/-! ## `doneDuplicateErr` -/

theorem docs_duplicateLoop (update : NoticeUpdate) (c : Notices) (l : List Notice) :
    (duplicateLoop (.set update) c l).docs =
      if l = [] then c.docs else c.docs.filter fun n => !learnNoticeQ n := by
  induction l generalizing c with
  | nil => rfl
  | cons coll rest ih =>
    have hstep : duplicateLoop (.set update) c (coll :: rest) =
        duplicateLoop (.set update) (c.removeAll learnNoticeQ) rest := rfl
    rw [hstep, ih, if_neg (List.cons_ne_nil _ _)]
    split
    · rfl
    · simp [Indexed.removeAll]

theorem docs_doneDuplicateErr (c : Notices) :
    (doneDuplicateErr c).docs = c.docs.filter fun n => !learnNoticeQ n := by
  rw [doneDuplicateErr, docs_duplicateLoop]
  split
  · next hnone =>
    refine (List.filter_eq_self.mpr fun n hn => ?_).symm
    simpa using List.filter_eq_nil_iff.mp hnone n hn
  · rfl

/-! ## Where the bulk update stops -/

theorem key_eq_opened_iff {m : Notice} :
    m.key = (opened n).key ↔ m.status = 0 ∧ SameAlert m n ∧ m.uptime = n.uptime := by
  simp only [Notice.key, opened, SameAlert, Prod.mk.injEq]
  tauto

theorem key_opened_eq_iff {m : Notice} :
    (opened m).key = (opened n).key ↔ SameAlert m n ∧ m.uptime = n.uptime := by
  simp only [Notice.key, opened, SameAlert, Prod.mk.injEq]
  tauto

theorem not_learn_of_open (h : n.status = 0) : learnNoticeQ n = false := by
  simp [learnNoticeQ, h]

theorem collides_iff (hdocs : docs = pre ++ d :: post) :
    Indexed.Collides Notice.key learnNoticeQ opened pre d post ↔
      learnNoticeQ d = true ∧ Clashes docs pre d := by
  constructor
  · rintro ⟨hlearn, htaken⟩
    refine ⟨hlearn, ?_⟩
    obtain ⟨m, hm, hkey⟩ := List.mem_map.mp htaken
    rcases List.mem_append.mp hm with hm | hm
    · obtain ⟨m', hm', rfl⟩ := List.mem_map.mp hm
      have hmem : m' ∈ docs := by
        rw [hdocs]
        exact List.mem_append_left _ hm'
      by_cases hl : learnNoticeQ m' = true
      · rw [updated, if_pos hl, key_opened_eq_iff] at hkey
        exact ⟨m', hmem, Or.inr ⟨hm', hl⟩, hkey⟩
      · rw [updated, if_neg hl, key_eq_opened_iff] at hkey
        exact ⟨m', hmem, Or.inl hkey.1, hkey.2⟩
    · rw [key_eq_opened_iff] at hkey
      refine ⟨m, ?_, Or.inl hkey.1, hkey.2⟩
      rw [hdocs]
      exact List.mem_append_right _ (List.mem_cons_of_mem _ hm)
  · rintro ⟨hlearn, m, hm, hopen, hsame⟩
    refine ⟨hlearn, List.mem_map.mpr ?_⟩
    rcases hopen with hzero | ⟨hpre, hl⟩
    · have hkey : m.key = (opened d).key := key_eq_opened_iff.mpr ⟨hzero, hsame⟩
      rw [hdocs, List.mem_append, List.mem_cons] at hm
      rcases hm with hm | rfl | hm
      · refine ⟨m, List.mem_append_left _ (List.mem_map.mpr ⟨m, hm, ?_⟩), hkey⟩
        rw [updated, not_learn_of_open hzero, if_neg (by decide)]
      · rw [not_learn_of_open hzero] at hlearn
        simp at hlearn
      · exact ⟨m, List.mem_append_right _ hm, hkey⟩
    · refine ⟨opened m, List.mem_append_left _ (List.mem_map.mpr ⟨m, hpre, ?_⟩),
        key_opened_eq_iff.mpr hsame⟩
      rw [updated, if_pos hl]

theorem firstCollision_iff :
    Indexed.FirstCollision Notice.key learnNoticeQ opened docs pre d post ↔
      StopsAt docs pre d post := by
  have hinner : ∀ {pre' d' post'}, docs = pre ++ d :: post → pre = pre' ++ d' :: post' →
      docs = pre' ++ d' :: (post' ++ d :: post) := by
    rintro pre' d' post' rfl rfl
    simp
  constructor
  · rintro ⟨hdocs, hcollides, hfirst⟩
    obtain ⟨hlearn, hclash⟩ := (collides_iff hdocs).mp hcollides
    refine ⟨hdocs, hlearn, hclash, fun pre' d' post' hpre hl hc => ?_⟩
    exact hfirst pre' d' post' hpre ((collides_iff (hinner hdocs hpre)).mpr ⟨hl, hc⟩)
  · rintro ⟨hdocs, hlearn, hclash, hfirst⟩
    refine ⟨hdocs, (collides_iff hdocs).mpr ⟨hlearn, hclash⟩, fun pre' d' post' hpre hc => ?_⟩
    obtain ⟨hl, hc⟩ := (collides_iff (hinner hdocs hpre)).mp hc
    exact hfirst pre' d' post' hpre hl hc

/-- What `LearnEnding` leaves: all notices, opened, or those that are open at the first notice that
cannot be opened. -/
theorem docs_learnEnding (c : Notices) :
    ((learnEnding c).docs = c.docs.map (updated learnNoticeQ opened) ∧
      ∀ pre d post, ¬ StopsAt c.docs pre d post) ∨
    ∃ pre d post, StopsAt c.docs pre d post ∧ (learnEnding c).docs =
      (pre.map (updated learnNoticeQ opened) ++ d :: post).filter fun n => !learnNoticeQ n := by
  have hlearn : learnEnding c = if (c.updateAll learnNoticeQ opened).2 then
      (c.updateAll learnNoticeQ opened).1
      else doneDuplicateErr (c.updateAll learnNoticeQ opened).1 := rfl
  rw [hlearn]
  rcases Indexed.updateAll_cases c learnNoticeQ opened with
    ⟨hok, hdocs, hnone⟩ | ⟨hok, pre, d, post, hfirst, hdocs⟩
  · left
    rw [hok, if_pos rfl]
    refine ⟨hdocs, fun pre d post hstops => ?_⟩
    have hfirst := firstCollision_iff.mpr hstops
    exact hnone pre d post hfirst.docs_eq hfirst.collides
  · right
    refine ⟨pre, d, post, firstCollision_iff.mp hfirst, ?_⟩
    rw [hok, if_neg (by decide), docs_doneDuplicateErr, hdocs]

/-! ## Which alerts are kept -/

theorem alertsKept_iff {before after : Collection Notice} :
    AlertsKept before after ↔
      ∀ n ∈ before, learnNoticeQ n = true → ∃ m ∈ after, m.status = 0 ∧ SameAlert m n := by
  refine forall₂_congr fun n hn => forall_congr' fun hl => ?_
  constructor
  · rintro (⟨m, hm, -, h⟩ | h)
    · exact ⟨m, hm, h⟩
    · exact h
  · exact Or.inr

/-- The open notices when the bulk update has stopped at `d`. -/
theorem exists_open_iff (h : StopsAt docs pre d post) :
    (∃ m ∈ (pre.map (updated learnNoticeQ opened) ++ d :: post).filter (fun n => !learnNoticeQ n),
      m.status = 0 ∧ SameAlert m n) ↔ OpenFor docs pre n := by
  constructor
  · rintro ⟨m, hm, hzero, hsame⟩
    obtain ⟨hm, -⟩ := List.mem_filter.mp hm
    rcases List.mem_append.mp hm with hm | hm
    · obtain ⟨m', hm', rfl⟩ := List.mem_map.mp hm
      have hmem : m' ∈ docs := by
        rw [h.docs_eq]
        exact List.mem_append_left _ hm'
      by_cases hl : learnNoticeQ m' = true
      · rw [updated, if_pos hl] at hsame
        exact ⟨m', hmem, Or.inr ⟨hm', hl⟩, hsame⟩
      · rw [updated, if_neg hl] at hzero hsame
        exact ⟨m', hmem, Or.inl hzero, hsame⟩
    · refine ⟨m, ?_, Or.inl hzero, hsame⟩
      rw [h.docs_eq]
      exact List.mem_append_right _ hm
  · rintro ⟨m, hm, hzero | ⟨hpre, hl⟩, hsame⟩
    · have hl := not_learn_of_open hzero
      refine ⟨m, List.mem_filter.mpr ⟨?_, by rw [hl]; rfl⟩, hzero, hsame⟩
      rw [h.docs_eq, List.mem_append] at hm
      rcases hm with hm | hm
      · refine List.mem_append_left _ (List.mem_map.mpr ⟨m, hm, ?_⟩)
        rw [updated, hl, if_neg (by decide)]
      · exact List.mem_append_right _ hm
    · refine ⟨opened m, List.mem_filter.mpr ⟨?_, rfl⟩, rfl, hsame⟩
      refine List.mem_append_left _ (List.mem_map.mpr ⟨m, hpre, ?_⟩)
      rw [updated, if_pos hl]

/-- Leaving the watch mode loses no alert if and only if behind the first notice that cannot be
opened every notice of the watch mode has an open one of its alert. -/
theorem learnEnding_kept_iff (c : Notices) :
    AlertsKept c.docs (learnEnding c).docs ↔
      ∀ pre d post, StopsAt c.docs pre d post →
        ∀ n ∈ post, learnNoticeQ n = true → OpenFor c.docs pre n := by
  rw [alertsKept_iff]
  rcases docs_learnEnding c with ⟨hdocs, hnone⟩ | ⟨pre, d, post, hstops, hdocs⟩
  · rw [hdocs]
    constructor
    · intro _ pre d post hstops
      exact absurd hstops (hnone pre d post)
    · intro _ n hn hl
      refine ⟨opened n, List.mem_map.mpr ⟨n, hn, ?_⟩, rfl, rfl, rfl, rfl⟩
      rw [updated, if_pos hl]
  · rw [hdocs]
    simp only [exists_open_iff hstops]
    constructor
    · intro h pre' d' post' hstops' n hn
      obtain ⟨rfl, rfl, rfl⟩ :=
        (firstCollision_iff.mpr hstops).unique (firstCollision_iff.mpr hstops')
      refine h n ?_
      rw [hstops.docs_eq]
      exact List.mem_append_right _ (List.mem_cons_of_mem _ hn)
    · intro h n hn hl
      have hn' := hn
      rw [hstops.docs_eq, List.mem_append, List.mem_cons] at hn'
      rcases hn' with hpre | rfl | hpost
      · exact ⟨n, hn, Or.inr ⟨hpre, hl⟩, rfl, rfl, rfl⟩
      · obtain ⟨m, hm, hopen, hsame, -⟩ := hstops.clashes
        exact ⟨m, hm, hopen, hsame⟩
      · exact h pre d post hstops n hpost hl

def processNotice (id : UInt8) (info : String) (status : ℤ) : Notice where
  id := [id]
  type := str "process"
  ip := str "10.0.0.1"
  source := str "shell"
  level := 0
  info := str info
  status := status
  uptime := none

/-- An open notice of `nc`, and notices of the watch mode for `nc` and for `sh`. -/
def watchedNotices : Notices where
  docs := [processNotice 1 "nc" 0, processNotice 2 "nc" 4, processNotice 3 "sh" 4]
  unique := by decide

/-- The notice of `sh` is gone. -/
theorem learnEnding_loses :
    (learnEnding watchedNotices).docs = [processNotice 1 "nc" 0] ∧
      ¬ AlertsKept watchedNotices.docs (learnEnding watchedNotices).docs := by
  have hdocs : (learnEnding watchedNotices).docs = [processNotice 1 "nc" 0] := by decide
  refine ⟨hdocs, fun h => ?_⟩
  rw [hdocs, alertsKept_iff] at h
  obtain ⟨m, hm, -, hsame⟩ := h (processNotice 3 "sh" 4) (by decide) (by decide)
  obtain rfl := List.mem_singleton.mp hm
  exact absurd hsame.2.1 (by decide)

end YulongHids.Web
