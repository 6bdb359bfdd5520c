import YulongHids.Daemon.Install
import YulongHids.Web.Download

/-!
# Proofs: downloading the agent

`DownAgent` succeeds with the first attempt that stores a body and whose check is answered with 1.
The console answers 1 to every hash `CheckAgentHash` sends: it is the hexadecimal form of a text that
is hexadecimal already, and longer than any registered hash.
-/

namespace YulongHids.Daemon

open Golang Mongo Web

section Attempt

variable {a : Attempt} {disk : Disk}

/-- The three ways `downFile` ends. -/
theorem downFile_stored (h : a.Stored) :
    downFile a disk = (.nil, some ⟨.downloaded, a.copied⟩) := by
  simp [downFile, h.request, h.create, h.stat, h.complete]

theorem downFile_crashes (h : a.Crashes) :
    downFile a disk = (.panic, some ⟨.downloaded, a.copied⟩) := by
  simp [downFile, h.request, h.create, h.stat, h.incomplete]

theorem downFile_error (hs : ¬ a.Stored) (hc : ¬ a.Crashes) :
    ∃ err disk', downFile a disk = (.error err, disk') := by
  unfold downFile
  cases hreq : a.request with
  | some err => exact ⟨err, disk, rfl⟩
  | none =>
    cases hcr : a.create with
    | some err => exact ⟨err, disk, rfl⟩
    | none =>
      cases hst : a.stat with
      | some err => exact ⟨_, _, rfl⟩
      | none =>
        by_cases hlen : (a.copied.length : ℤ) = a.contentLength
        · exact absurd ⟨hreq, hcr, hst, hlen⟩ hs
        · exact absurd ⟨hreq, hcr, hst, hlen⟩ hc

theorem Attempt.Stored.not_crashes (h : a.Stored) : ¬ a.Crashes :=
  fun hc => hc.incomplete h.complete

theorem checkAgentHash_iff :
    checkAgentHash a (fileMD5String a (some ⟨.downloaded, a.copied⟩)) = true ↔
      a.answer = .body (str "1") := by
  unfold checkAgentHash Attempt.answer
  split
  · next result h => rw [h, beq_iff_eq, Answer.body.injEq, eq_comm]
  · next h =>
    simp only [Bool.false_eq_true, false_iff]
    intro hb
    exact h _ hb

end Attempt

section Loop

variable {attempt : ℕ → Attempt} {disk disk' : Disk}

/-- Among the `times` attempts from `i` on, `k` steps behind `i` is the first to pass, no earlier one
crashes, and its file is on the disk. -/
structure PassesAfter (attempt : ℕ → Attempt) (times i k : ℕ) (disk' : Disk) : Prop where
  lt : k < times
  passes : (attempt (i + k)).Passes
  earlier : ∀ j < k, ¬ (attempt (i + j)).Passes ∧ ¬ (attempt (i + j)).Crashes
  file : disk' = some ⟨.downloaded, (attempt (i + k)).copied⟩

theorem passesAfter_of_passes {times i : ℕ} (h : (attempt i).Passes) :
    (∃ k, PassesAfter attempt (times + 1) i k disk') ↔
      some ⟨.downloaded, (attempt i).copied⟩ = disk' := by
  constructor
  · rintro ⟨k, hk⟩
    rcases k with _ | k
    · exact hk.file.symm
    · exact absurd h (hk.earlier 0 (by omega)).1
  · rintro rfl
    exact ⟨0, by omega, h, fun j hj => absurd hj (by omega), rfl⟩

theorem not_passesAfter_of_crashes {times i k : ℕ} (h : (attempt i).Crashes) :
    ¬ PassesAfter attempt times i k disk' := by
  intro hk
  rcases k with _ | k
  · exact hk.passes.1.not_crashes h
  · exact (hk.earlier 0 (by omega)).2 h

/-- An attempt that does neither leaves the rest of the loop. -/
theorem passesAfter_succ {times i : ℕ} (hp : ¬ (attempt i).Passes) (hc : ¬ (attempt i).Crashes) :
    (∃ k, PassesAfter attempt times (i + 1) k disk') ↔
      ∃ k, PassesAfter attempt (times + 1) i k disk' := by
  have hadd : ∀ j, i + (j + 1) = i + 1 + j := fun j => by omega
  constructor
  · rintro ⟨k, hlt, hpass, hearlier, hfile⟩
    refine ⟨k + 1, by omega, by rwa [hadd], fun j hj => ?_, by rwa [hadd]⟩
    rcases j with _ | j
    · exact ⟨hp, hc⟩
    · rw [hadd]
      exact hearlier j (by omega)
  · rintro ⟨k, hlt, hpass, hearlier, hfile⟩
    rcases k with _ | k
    · exact absurd hpass hp
    rw [hadd] at hpass hfile
    refine ⟨k, by omega, hpass, fun j hj => ?_, hfile⟩
    rw [← hadd]
    exact hearlier (j + 1) (by omega)

/-- The loop returns nil with the first attempt that passes. -/
theorem downLoop_nil_iff (times i : ℕ) (disk : Disk) :
    downLoop attempt times i disk = (.nil, disk') ↔
      ∃ k, PassesAfter attempt times i k disk' := by
  induction times generalizing i disk with
  | zero =>
    refine iff_of_false (by simp [downLoop]) ?_
    rintro ⟨k, hk⟩
    exact absurd hk.lt (Nat.not_lt_zero k)
  | succ times ih =>
    rw [downLoop]
    by_cases hc : (attempt i).Crashes
    · simp only [downFile_crashes hc, Prod.mk.injEq, reduceCtorEq, false_and, false_iff, not_exists]
      exact fun k => not_passesAfter_of_crashes hc
    by_cases hs : (attempt i).Stored
    · simp only [downFile_stored hs]
      by_cases hb : (attempt i).answer = .body (str "1")
      · rw [if_pos (checkAgentHash_iff.mpr hb), passesAfter_of_passes ⟨hs, hb⟩]
        simp
      · rw [if_neg (mt checkAgentHash_iff.mp hb), ih]
        exact passesAfter_succ (fun h => hb h.2) hc
    · obtain ⟨err, d, hd⟩ := @downFile_error (attempt i) disk hs hc
      simp only [hd]
      rw [ih]
      exact passesAfter_succ (fun h => hs h.1) hc

theorem downAgent_nil_iff :
    downAgent attempt disk = (.nil, disk') ↔
      ∃ i, FirstAttempt attempt Attempt.Passes i ∧
        disk' = some ⟨.downloaded, (attempt i).copied⟩ := by
  rw [downAgent, downLoop_nil_iff]
  constructor
  · rintro ⟨k, hlt, hpass, hearlier, hfile⟩
    simp only [Nat.zero_add] at hpass hearlier hfile
    exact ⟨k, ⟨hlt, hpass, hearlier⟩, hfile⟩
  · rintro ⟨k, ⟨hlt, hpass, hearlier⟩, hfile⟩
    exact ⟨k, hlt, by rwa [Nat.zero_add], by simpa using hearlier, by rwa [Nat.zero_add]⟩

/-- `DownAgent` ends with an error or a panic only if no attempt passes. -/
theorem not_firstAttempt_of_downAgent (h : (downAgent attempt disk).1 ≠ .nil) :
    ¬ ∃ i, FirstAttempt attempt Attempt.Passes i := by
  rintro ⟨i, hi⟩
  exact h (congrArg Prod.fst (downAgent_nil_iff.mpr ⟨i, hi, rfl⟩))

end Loop

/-! ## The check of the console -/

theorem fileMD5String_length (a : Attempt) (disk : Disk) :
    (fileMD5String a disk).length = 32 ∨ (fileMD5String a disk).length = 0 := by
  unfold fileMD5String
  split
  · exact Or.inl (by simp)
  · exact Or.inr rfl

/-- The console answers 1 to whatever hash `CheckAgentHash` sends. -/
theorem dloadCheck_hexEncode {files : Collection File} {goos arch : GoString}
    (hsys : goos ∈ systemArray) (harch : arch ∈ platformArray) {f : File}
    (hf : one files (fileSelector goos arch (str "agent")) = some f)
    (hlen : f.hash.length = 32) (a : Attempt) (disk : Disk) :
    dloadCheck files (str "agent") goos arch (hexEncode (fileMD5String a disk)) = str "1" := by
  have htype : str "agent" ∈ typeArray := by decide
  have hne : hexEncode (fileMD5String a disk) ≠ f.hash := by
    intro h
    have hl := congrArg List.length h
    rw [hexEncode_length, hlen] at hl
    rcases fileMD5String_length a disk with h32 | h0 <;> omega
  simp [dloadCheck, hsys, harch, htype, hf, hne]

/-- `DownAgent` returns nil for verified bytes only if and only if the first attempt that stores a
body and whose check is answered at all stores bytes with the registered hash. -/
theorem downAgent_verified_iff (files : Collection File) (goos arch : GoString)
    (hsys : goos ∈ systemArray) (harch : arch ∈ platformArray) (f : File)
    (hf : one files (fileSelector goos arch (str "agent")) = some f) (published : List UInt8)
    (hhash : f.hash = hexEncode (md5 published)) (attempt : ℕ → Attempt)
    (hserver : ∀ i hash body, (attempt i).check hash = .body body →
      body = dloadCheck files (str "agent") goos arch hash) (disk : Disk) :
    ((downAgent attempt disk).1 = .nil →
        ∃ stored, (downAgent attempt disk).2 = some stored ∧
          hexEncode (md5 stored.content) = f.hash) ↔
      ∀ i, FirstAttempt attempt (fun a => a.Stored ∧ ∃ body, a.answer = .body body) i →
        hexEncode (md5 (attempt i).copied) = f.hash := by
  have hlen : f.hash.length = 32 := by simp [hhash]
  have hpass : ∀ i, (attempt i).Passes ↔
      (attempt i).Stored ∧ ∃ body, (attempt i).answer = .body body := by
    intro i
    refine and_congr_right fun _ => ⟨fun h => ⟨_, h⟩, ?_⟩
    rintro ⟨body, hbody⟩
    rw [hbody, hserver i _ body hbody, dloadCheck_hexEncode hsys harch hf hlen]
  have hfirst : ∀ i, FirstAttempt attempt Attempt.Passes i ↔
      FirstAttempt attempt (fun a => a.Stored ∧ ∃ body, a.answer = .body body) i := by
    intro i
    constructor
    · rintro ⟨hlt, hp, hearlier⟩
      exact ⟨hlt, (hpass i).mp hp, fun j hj => by rw [← hpass]; exact hearlier j hj⟩
    · rintro ⟨hlt, hp, hearlier⟩
      exact ⟨hlt, (hpass i).mpr hp, fun j hj => by rw [hpass]; exact hearlier j hj⟩
  constructor
  · intro h i hi
    have hrun : downAgent attempt disk = (.nil, some ⟨.downloaded, (attempt i).copied⟩) :=
      downAgent_nil_iff.mpr ⟨i, (hfirst i).mpr hi, rfl⟩
    obtain ⟨stored, hstored, hmd5⟩ := h (by rw [hrun])
    rw [hrun, Option.some.injEq] at hstored
    rw [← hmd5, ← hstored]
  · intro h hnil
    obtain ⟨i, hi, hd⟩ := downAgent_nil_iff.mp (Prod.ext hnil rfl)
    exact ⟨_, hd, h i ((hfirst i).mp hi)⟩

/-- The record of an agent for Linux whose file has the content `agent`. -/
def agentRecord : File := ⟨str "64", str "linux", str "agent", hexEncode (md5 (str "agent"))⟩

/-- A complete download of some bytes, checked by the console. -/
def delivers (content : List UInt8) : Attempt where
  request := none
  create := none
  copied := content
  contentLength := content.length
  stat := none
  readable := some content.length
  check hash := .body (dloadCheck [agentRecord] (str "agent") (str "linux") (str "64") hash)

/-- Bytes that are not those of the published agent are accepted. -/
theorem downAgent_unverified :
    (∀ hash body, (delivers (str "evil")).check hash = .body body →
        body = dloadCheck [agentRecord] (str "agent") (str "linux") (str "64") hash) ∧
      downAgent (fun _ => delivers (str "evil")) none = (.nil, some ⟨.downloaded, str "evil"⟩) ∧
      hexEncode (md5 (str "evil")) ≠ agentRecord.hash := by
  refine ⟨fun _ _ h => (Answer.body.inj h).symm, ?_, by decide +kernel⟩
  refine downAgent_nil_iff.mpr ⟨0, ⟨by norm_num, ⟨⟨rfl, rfl, rfl, rfl⟩, ?_⟩, ?_⟩, rfl⟩
  · decide +kernel
  · intro j hj
    omega

/-- A download of the published agent. -/
theorem downAgent_verified_published :
    ((downAgent (fun _ => delivers (str "agent")) none).1 = .nil →
        ∃ stored, (downAgent (fun _ => delivers (str "agent")) none).2 = some stored ∧
          hexEncode (md5 stored.content) = agentRecord.hash) ↔
      ∀ i, FirstAttempt (fun _ => delivers (str "agent"))
          (fun a => a.Stored ∧ ∃ body, a.answer = .body body) i →
        hexEncode (md5 (str "agent")) = agentRecord.hash :=
  downAgent_verified_iff [agentRecord] (str "linux") (str "64") (by decide) (by decide) agentRecord
    rfl (str "agent") rfl (fun _ => delivers (str "agent"))
    (fun _ _ _ h => (Answer.body.inj h).symm) none

/-! ## Broken downloads -/

section Broken

variable {a : Attempt} {attempt : ℕ → Attempt} {disk : Disk}

/-- A turn panics, passes or fails, as its attempt does. -/
theorem turn_crashes (h : a.Crashes) :
    turn a disk = (⟨.panic, false⟩, some ⟨.downloaded, a.copied⟩) := by
  simp only [turn, downFile_crashes h]

theorem turn_passes (h : a.Passes) :
    turn a disk = (⟨.nil, true⟩, some ⟨.downloaded, a.copied⟩) := by
  simp only [turn, downFile_stored h.1, checkAgentHash_iff.mpr h.2]

theorem turn_fails (hp : ¬ a.Passes) (hc : ¬ a.Crashes) :
    (turn a disk).1.passed = false ∧ (turn a disk).1.download ≠ .panic := by
  by_cases hs : a.Stored
  · have hcheck : checkAgentHash a (fileMD5String a (some ⟨.downloaded, a.copied⟩)) = false := by
      rw [← Bool.not_eq_true, checkAgentHash_iff]
      exact fun h => hp ⟨hs, h⟩
    simp [turn, downFile_stored hs, hcheck]
  · obtain ⟨err, d, hd⟩ := @downFile_error a disk hs hc
    simp [turn, hd]

theorem downTurns_stops {times i : ℕ}
    (h : (turn (attempt i) disk).1.passed ∨ (turn (attempt i) disk).1.download = .panic) :
    downTurns attempt (times + 1) i disk = [(turn (attempt i) disk).1] :=
  if_pos h

theorem downTurns_goes {times i : ℕ} (hp : (turn (attempt i) disk).1.passed = false)
    (hd : (turn (attempt i) disk).1.download ≠ .panic) :
    downTurns attempt (times + 1) i disk =
      (turn (attempt i) disk).1 :: downTurns attempt times (i + 1) (turn (attempt i) disk).2 := by
  refine if_neg ?_
  rintro (h | h)
  · rw [hp] at h
    exact Bool.false_ne_true h
  · exact hd h

theorem downTurns_length (times i : ℕ) (disk : Disk) :
    (downTurns attempt times i disk).length ≤ times := by
  induction times generalizing i disk with
  | zero => exact Nat.le_refl 0
  | succ times ih =>
    rw [downTurns]
    split
    · rw [List.length_singleton]
      omega
    · rw [List.length_cons]
      exact Nat.succ_le_succ (ih _ _)

/-- What the loop returns can be read off its turns. -/
theorem downLoop_eq_retOf (times i : ℕ) (disk : Disk) :
    (downLoop attempt times i disk).1 = retOf (downTurns attempt times i disk) := by
  induction times generalizing i disk with
  | zero => rfl
  | succ times ih =>
    have hloop : (downLoop attempt (times + 1) i disk).1 =
        if (turn (attempt i) disk).1.passed then .nil
        else if (turn (attempt i) disk).1.download = .panic then .panic
        else (downLoop attempt times (i + 1) (turn (attempt i) disk).2).1 := by
      rw [downLoop, turn]
      rcases downFile (attempt i) disk with ⟨ret, d⟩
      cases ret with
      | nil =>
        by_cases hcheck : checkAgentHash (attempt i) (fileMD5String (attempt i) d) = true
        · simp [hcheck]
        · simp [hcheck]
      | error err => simp
      | panic => simp
    rw [hloop]
    by_cases hp : (turn (attempt i) disk).1.passed = true
    · rw [if_pos hp, downTurns_stops (Or.inl hp), retOf, if_pos (by simpa using hp)]
    rw [if_neg hp]
    by_cases hd : (turn (attempt i) disk).1.download = .panic
    · rw [if_pos hd, downTurns_stops (Or.inr hd), retOf, if_neg (by simpa using hp),
        if_pos (by simpa using hd)]
    · have hp' : (turn (attempt i) disk).1.passed = false := by simpa using hp
      rw [if_neg hd, ih, downTurns_goes hp' hd]
      simp [retOf, hp', hd]

theorem downLoop_crashes {times i : ℕ} (h : (attempt i).Crashes) :
    downLoop attempt (times + 1) i disk = (.panic, some ⟨.downloaded, (attempt i).copied⟩) := by
  simp only [downLoop, downFile_crashes h]

/-- No turn panics if and only if every attempt that crashes stands behind one that passes. -/
theorem downTurns_noPanic_iff (times i : ℕ) (disk : Disk) :
    (∀ t ∈ downTurns attempt times i disk, t.download ≠ .panic) ↔
      ∀ k < times, (attempt (i + k)).Crashes → ∃ j < k, (attempt (i + j)).Passes := by
  induction times generalizing i disk with
  | zero => exact iff_of_true (by simp [downTurns]) fun k hk => absurd hk (Nat.not_lt_zero k)
  | succ times ih =>
    have hadd : ∀ j, i + (j + 1) = i + 1 + j := fun j => by omega
    by_cases hc : (attempt i).Crashes
    · have ht := @turn_crashes (attempt i) disk hc
      rw [downTurns_stops (Or.inr (by rw [ht]))]
      refine iff_of_false ?_ ?_
      · intro h
        exact h _ (List.mem_singleton_self _) (by rw [ht])
      · intro h
        obtain ⟨j, hj, -⟩ := h 0 (Nat.succ_pos times) hc
        exact Nat.not_lt_zero j hj
    by_cases hp : (attempt i).Passes
    · have ht := @turn_passes (attempt i) disk hp
      rw [downTurns_stops (Or.inl (by rw [ht]))]
      refine iff_of_true ?_ ?_
      · intro t hmem
        rw [List.mem_singleton.mp hmem, ht]
        simp
      · intro k _ hk
        rcases k with _ | k
        · exact absurd hk hc
        · exact ⟨0, Nat.succ_pos k, hp⟩
    · obtain ⟨hpassed, hdown⟩ := @turn_fails (attempt i) disk hp hc
      rw [downTurns_goes hpassed hdown, List.forall_mem_cons, and_iff_right hdown, ih]
      constructor
      · intro h k hk hcrash
        rcases k with _ | k
        · exact absurd hcrash hc
        rw [hadd] at hcrash
        obtain ⟨j, hj, hpass⟩ := h k (by omega) hcrash
        exact ⟨j + 1, by omega, by rwa [hadd]⟩
      · intro h k hk hcrash
        rw [← hadd] at hcrash
        obtain ⟨j, hj, hpass⟩ := h (k + 1) (by omega) hcrash
        rcases j with _ | j
        · exact absurd hpass hp
        · exact ⟨j, by omega, by rwa [← hadd]⟩

/-- A turn that fails without a panic is followed by another one while there are turns left. -/
theorem downTurns_next (times i : ℕ) (disk : Disk)
    (h : ∀ t ∈ downTurns attempt times i disk, t.download ≠ .panic) {k : ℕ} {t : Turn}
    (hk : (downTurns attempt times i disk)[k]? = some t) (hp : t.passed = false)
    (hlt : k + 1 < times) : k + 1 < (downTurns attempt times i disk).length := by
  induction times generalizing i disk k with
  | zero => omega
  | succ times ih =>
    by_cases hpass : (turn (attempt i) disk).1.passed = true
    · rw [downTurns_stops (Or.inl hpass)] at hk
      rcases k with _ | k
      · rw [List.getElem?_cons_zero, Option.some.injEq] at hk
        rw [← hk, hpass] at hp
        exact absurd hp (by decide)
      · simp at hk
    have hpass' : (turn (attempt i) disk).1.passed = false := by simpa using hpass
    by_cases hdown : (turn (attempt i) disk).1.download = .panic
    · rw [downTurns_stops (Or.inr hdown)] at h
      exact absurd hdown (h _ (List.mem_singleton_self _))
    rw [downTurns_goes hpass' hdown] at h hk ⊢
    rw [List.length_cons]
    rcases k with _ | k
    · have hpos : 0 < (downTurns attempt times (i + 1) (turn (attempt i) disk).2).length := by
        rcases times with _ | times
        · omega
        rw [downTurns]
        split <;> simp
      omega
    · rw [List.getElem?_cons_succ] at hk
      have := ih (i + 1) _ (List.forall_mem_cons.mp h).2 hk (by omega)
      omega

/-- `downFile` returns nil for a complete body only. -/
theorem downFile_nil_complete {before after : Disk} (h : downFile a before = (.nil, after)) :
    ∃ file, after = some file ∧ (file.content.length : ℤ) = a.contentLength ∧
      ∀ body : List UInt8, (body.length : ℤ) = a.contentLength →
        file.content <+: body → file.content = body := by
  by_cases hs : a.Stored
  · rw [downFile_stored hs, Prod.mk.injEq] at h
    refine ⟨_, h.2.symm, hs.complete, fun body hbody hpre => ?_⟩
    refine hpre.eq_of_length ?_
    have hlen : (a.copied.length : ℤ) = body.length := by rw [hs.complete, hbody]
    exact_mod_cast hlen
  · by_cases hc : a.Crashes
    · rw [downFile_crashes hc] at h
      simp at h
    · obtain ⟨err, d, hd⟩ := @downFile_error a before hs hc
      rw [hd] at h
      simp at h

end Broken

/-- Broken downloads are retried if and only if every one of the three attempts that delivers a body
of another length than announced comes behind one that passes. -/
theorem broken_download_retried_iff (attempt : ℕ → Attempt) (disk : Disk) :
    RetriesBroken attempt disk ↔
      ∀ i < 3, (attempt i).Crashes → ∃ j < i, (attempt j).Passes := by
  have hiff : (∀ t ∈ downTurns attempt 3 0 disk, t.download ≠ .panic) ↔
      ∀ k < 3, (attempt (0 + k)).Crashes → ∃ j < k, (attempt (0 + j)).Passes :=
    downTurns_noPanic_iff 3 0 disk
  simp only [Nat.zero_add] at hiff
  constructor
  · intro h
    exact hiff.mp h.noPanic
  · intro h
    have hpanic := hiff.mpr h
    refine ⟨hpanic, fun i before after => downFile_nil_complete, downTurns_length 3 0 disk, ?_, ?_⟩
    · intro k t hk hp hlt
      exact downTurns_next 3 0 disk hpanic hk hp hlt
    · intro hfail
      refine ⟨str "Agent Download Error", ?_⟩
      rw [downAgent, downLoop_eq_retOf, retOf, if_neg, if_neg]
      · simpa using hpanic
      · simpa using hfail

/-- A chunked answer: the body arrives, its length is not announced. -/
def chunked (content : List UInt8) : Attempt := { delivers content with contentLength := -1 }

/-- The first chunked answer ends the daemon. -/
theorem broken_download_crashes :
    downTurns (fun _ => chunked (str "agent")) 3 0 none = [⟨.panic, false⟩] ∧
      downAgent (fun _ => chunked (str "agent")) none =
        (.panic, some ⟨.downloaded, str "agent"⟩) ∧
      ¬ RetriesBroken (fun _ => chunked (str "agent")) none := by
  have hcrash : (chunked (str "agent")).Crashes := ⟨rfl, rfl, rfl, by decide⟩
  have hturn := @turn_crashes _ none hcrash
  have hturns : downTurns (fun _ => chunked (str "agent")) 3 0 none = [⟨.panic, false⟩] := by
    rw [downTurns_stops (Or.inr (by rw [hturn])), hturn]
  refine ⟨hturns, ?_, ?_⟩
  · exact downLoop_crashes hcrash
  · intro h
    refine h.noPanic ⟨.panic, false⟩ ?_ rfl
    rw [hturns]
    exact List.mem_singleton_self _

end YulongHids.Daemon
