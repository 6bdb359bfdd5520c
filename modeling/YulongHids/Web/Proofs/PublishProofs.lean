import YulongHids.Web.Publish

/-!
# Proofs: publishing files

A file is overwritten before its record is updated. As long as the steps behind the writing go well,
every record has the hash of the stored file, and what is reported as a success is there.
-/

namespace YulongHids.Web

open Golang Mongo Transition

variable {p p' : Published} {n n' : FileName} {content : List UInt8} {o : RecordSteps}
  {system platform : GoString}

/-! ## Writing and recording -/

@[simp] theorem write_records : (p.write n content).records = p.records := rfl

theorem write_stored_self : (p.write n content).stored n = some content := Function.update_self ..

theorem write_stored_ne (h : n' ≠ n) : (p.write n content).stored n' = p.stored n' :=
  Function.update_of_ne h ..

theorem write_stored_isSome (h : (p.stored n').isSome) :
    ((p.write n content).stored n').isSome := by
  by_cases hn : n' = n
  · rw [hn, write_stored_self]
    rfl
  · rwa [write_stored_ne hn]

theorem md5_ne_nil (content : List UInt8) (k : ℕ) : getFileMD5Hash content (some k) ≠ [] := by
  intro h
  have hlen := congrArg List.length h
  rw [getFileMD5Hash, hexEncode_length, md5_length] at hlen
  exact absurd hlen (by decide)

/-- The record of a file, as a document. -/
def FileName.record (n : FileName) (hash : GoString) : File :=
  ⟨n.platform, n.system, n.type, hash⟩

theorem selector_record_iff {hash : GoString} : n'.selector (n.record hash) = true ↔ n' = n := by
  simp only [FileName.selector, fileSelector, FileName.record, Bool.and_eq_true, beq_iff_eq]
  constructor
  · rintro ⟨⟨h1, h2⟩, h3⟩
    cases n
    cases n'
    simp_all
  · rintro rfl
    exact ⟨⟨rfl, rfl⟩, rfl⟩

/-- Two selectors of different names match no file together. -/
theorem selector_disjoint (h : n' ≠ n) {f : File} (hf : n.selector f = true) :
    n'.selector f = false := by
  have hrecord : f = n.record f.hash := by
    simp only [FileName.selector, fileSelector, Bool.and_eq_true, beq_iff_eq] at hf
    obtain ⟨⟨h1, h2⟩, h3⟩ := hf
    rw [FileName.record, ← h1, ← h2, ← h3]
  rw [hrecord, ← Bool.not_eq_true, selector_record_iff]
  exact h

theorem fileUpdate_of_none {files : Collection File} {f : File}
    (h : one files (fileSelector f.system f.platform f.type) = none) :
    fileUpdate files f = insert files f := by
  unfold fileUpdate
  simp only [h]

theorem fileUpdate_of_some {files : Collection File} {f f' : File}
    (h : one files (fileSelector f.system f.platform f.type) = some f') :
    fileUpdate files f = update files (fileSelector f.system f.platform f.type) fun _ => f := by
  unfold fileUpdate
  simp only [h]

/-- The record of a name after its update, and the records of the others. -/
theorem one_fileUpdate (files : Collection File) (n n' : FileName) (hash : GoString) :
    one (fileUpdate files (n.record hash)) n'.selector =
      if n' = n then some (n.record hash) else one files n'.selector := by
  have hself : n.selector (n.record hash) = true := selector_record_iff.mpr rfl
  cases hone : one files n.selector with
  | none =>
    have hinsert : fileUpdate files (n.record hash) = insert files (n.record hash) :=
      fileUpdate_of_none hone
    rw [hinsert, one_insert]
    by_cases hn : n' = n
    · subst hn
      rw [hone, hself, if_pos rfl, if_pos rfl]
      rfl
    · rw [if_neg (by rw [selector_record_iff]; exact hn), if_neg hn, Option.or_none]
  | some f =>
    have hupdate : fileUpdate files (n.record hash) =
        update files n.selector fun _ => n.record hash := fileUpdate_of_some hone
    rw [hupdate]
    by_cases hn : n' = n
    · subst hn
      rw [one_update_self fun _ _ => hself, hone, if_pos rfl]
      rfl
    · rw [if_neg hn]
      refine one_update_disjoint fun d hd => ⟨selector_disjoint hn hd, ?_⟩
      exact selector_disjoint hn hself

/-- The state with the record of a file set. -/
def Published.withRecord (p : Published) (n : FileName) (hash : GoString) : Published :=
  { p with records := fileUpdate p.records (n.record hash) }

/-- What recording a hash does: nothing, with an error; nothing, with a success, when a missing
record could not be inserted; or the record is set. -/
theorem toDB_cases (p : Published) (n : FileName) (content : List UInt8) (o : RecordSteps) :
    ((∃ err, toDB p n content o = (p, .error err)) ∧ (o.read = none ∨ o.updateFails = true)) ∨
    (toDB p n content o = (p, .nil) ∧ ¬ (o.read = none ∨ o.updateFails = true) ∧
      (one p.records n.selector).isNone ∧ o.insertFails = true) ∨
    (toDB p n content o = (p.withRecord n (getFileMD5Hash content o.read), .nil) ∧
      ¬ (o.read = none ∨ o.updateFails = true) ∧
      (o.insertFails = true → (one p.records n.selector).isSome)) := by
  cases hread : o.read with
  | none =>
    refine Or.inl ⟨⟨.md5Null, ?_⟩, Or.inl rfl⟩
    simp only [toDB, hread, getFileMD5Hash, if_true]
  | some k =>
    have hmd5 := md5_ne_nil content k
    by_cases hupdate : o.updateFails = true
    · refine Or.inl ⟨⟨.modelInsert, ?_⟩, Or.inr hupdate⟩
      simp only [toDB, hread, if_neg hmd5, File.update, hupdate, if_true]
      rfl
    · have hno : ¬ (some k = none ∨ o.updateFails = true) := by simp [hupdate]
      by_cases hinsert : ((one p.records n.selector).isNone && o.insertFails) = true
      · refine Or.inr (Or.inl ⟨?_, hno, (Bool.and_eq_true_iff.mp hinsert).1,
          (Bool.and_eq_true_iff.mp hinsert).2⟩)
        have hinsert' := hinsert
        rw [FileName.selector] at hinsert'
        simp only [toDB, hread, if_neg hmd5, File.update, if_neg hupdate, if_pos hinsert', if_true]
      · refine Or.inr (Or.inr ⟨?_, hno, fun hfails => ?_⟩)
        · have hinsert' := hinsert
          rw [FileName.selector] at hinsert'
          simp only [toDB, hread, if_neg hmd5, File.update, if_neg hupdate, if_neg hinsert', if_true]
          rfl
        · rw [hfails, Bool.and_true, Option.isNone_iff_eq_none] at hinsert
          exact Option.isSome_iff_ne_none.mpr hinsert

theorem recordHash_cases (p : Published) (n : FileName) (content : List UInt8) (o : RecordSteps) :
    (recordHash p n content o = (p, false) ∧ (o.read = none ∨ o.updateFails = true)) ∨
    (recordHash p n content o = (p, true) ∧ ¬ (o.read = none ∨ o.updateFails = true) ∧
      (one p.records n.selector).isNone ∧ o.insertFails = true) ∨
    (recordHash p n content o = (p.withRecord n (getFileMD5Hash content o.read), true) ∧
      ¬ (o.read = none ∨ o.updateFails = true) ∧
      (o.insertFails = true → (one p.records n.selector).isSome)) := by
  rcases toDB_cases p n content o with ⟨⟨err, hrun⟩, hfail⟩ | ⟨hrun, hok⟩ | ⟨hrun, hok⟩
  · exact Or.inl ⟨by rw [recordHash, hrun]; rfl, hfail⟩
  · exact Or.inr (Or.inl ⟨by rw [recordHash, hrun]; rfl, hok⟩)
  · exact Or.inr (Or.inr ⟨by rw [recordHash, hrun]; rfl, hok⟩)

/-! ## What one file keeps -/

/-- Writing a file whose content is the recorded one keeps the files and the records in step. -/
theorem matches_write (hp : p.Matches) (h : p.Recorded n content) : (p.write n content).Matches := by
  intro n' content' f hstored hf
  by_cases hn : n' = n
  · subst hn
    rw [write_stored_self, Option.some.injEq] at hstored
    exact hstored ▸ h f hf
  · rw [write_stored_ne hn] at hstored
    exact hp n' content' f hstored hf

/-- So does writing a file and setting its record. -/
theorem matches_withRecord (hp : p.Matches) {hash : GoString} (h : hash = hexEncode (md5 content)) :
    ((p.write n content).withRecord n hash).Matches := by
  intro n' content' f hstored hf
  change one (fileUpdate p.records (n.record hash)) n'.selector = some f at hf
  rw [one_fileUpdate] at hf
  by_cases hn : n' = n
  · subst hn
    change (p.write n' content).stored n' = some content' at hstored
    rw [write_stored_self, Option.some.injEq] at hstored
    rw [if_pos rfl, Option.some.injEq] at hf
    rw [← hf, ← hstored]
    exact h
  · change (p.write n content).stored n' = some content' at hstored
    rw [write_stored_ne hn] at hstored
    rw [if_neg hn] at hf
    exact hp n' content' f hstored hf

theorem present_write (h : p.Present n') : (p.write n content).Present n' :=
  ⟨write_stored_isSome h.1, h.2⟩

theorem present_withRecord {hash : GoString} (h : p.Present n') : (p.withRecord n hash).Present n' := by
  refine ⟨h.1, ?_⟩
  change (one (fileUpdate p.records (n.record hash)) n'.selector).isSome
  rw [one_fileUpdate]
  split
  · rfl
  · exact h.2

/-- What a request keeps when one of its files goes well: the files and the records stay in step, and
what was there stays there. -/
structure Keeps (p p' : Published) : Prop where
  matched : p.Matches → p'.Matches
  present : ∀ n, p.Present n → p'.Present n

theorem Keeps.refl (p : Published) : Keeps p p := ⟨id, fun _ => id⟩

theorem Keeps.trans {p1 p2 p3 : Published} (h : Keeps p1 p2) (h' : Keeps p2 p3) : Keeps p1 p3 :=
  ⟨fun hp => h'.matched (h.matched hp), fun n hn => h'.present n (h.present n hn)⟩

theorem keeps_write (h : p.Recorded n content) : Keeps p (p.write n content) :=
  ⟨fun hp => matches_write hp h, fun _ => present_write⟩

/-- A file that goes well: everything is kept, and a success leaves the file and its record. -/
theorem recordHash_right (h : o.Right p n content) :
    Keeps p (recordHash (p.write n content) n content o).1 ∧
      ((recordHash (p.write n content) n content o).2 = true →
        (recordHash (p.write n content) n content o).1.Present n) := by
  rw [RecordSteps.Right] at h
  rcases recordHash_cases (p.write n content) n content o with
    ⟨hrun, hfail⟩ | ⟨hrun, hok, hnone, hinsert⟩ | ⟨hrun, hok, -⟩
  · rw [if_pos hfail] at h
    rw [hrun]
    exact ⟨keeps_write h, fun hfalse => absurd hfalse Bool.false_ne_true⟩
  · rw [if_neg hok] at h
    have hsome := h.2 hinsert
    rw [write_records, Option.isNone_iff_eq_none] at hnone
    rw [hnone] at hsome
    exact absurd hsome (by decide)
  · rw [if_neg hok] at h
    rw [hrun]
    refine ⟨⟨fun hp => matches_withRecord hp h.1, fun n' hn' => ?_⟩, fun _ => ⟨?_, ?_⟩⟩
    · exact present_withRecord (present_write hn')
    · change ((p.write n content).stored n).isSome
      rw [write_stored_self]
      rfl
    · change (one (fileUpdate p.records _) n.selector).isSome
      rw [one_fileUpdate, if_pos rfl]
      rfl

/-- The condition on the steps of one file is exact. -/
theorem right_of_recordHash
    (hmatch : (recordHash (p.write n content) n content o).1.Matches)
    (hpresent : (recordHash (p.write n content) n content o).2 = true →
      (recordHash (p.write n content) n content o).1.Present n) : o.Right p n content := by
  rw [RecordSteps.Right]
  rcases recordHash_cases (p.write n content) n content o with
    ⟨hrun, hfail⟩ | ⟨hrun, -, hnone, -⟩ | ⟨hrun, hok, hinsert⟩
  · rw [if_pos hfail]
    rw [hrun] at hmatch
    exact fun f hf => hmatch n content f write_stored_self hf
  · rw [hrun] at hpresent
    have hsome := (hpresent rfl).2
    rw [Option.isNone_iff_eq_none.mp hnone] at hsome
    exact absurd hsome (by decide)
  · rw [if_neg hok]
    rw [hrun] at hmatch
    refine ⟨?_, hinsert⟩
    refine hmatch n content (n.record (getFileMD5Hash content o.read)) write_stored_self ?_
    change one (fileUpdate p.records (n.record (getFileMD5Hash content o.read))) n.selector = _
    rw [one_fileUpdate, if_pos rfl]

/-! ## Archives -/

theorem fileName2Type_mem_typeArray {name rtype : GoString}
    (h : fileName2Type.lookup name = some rtype) : name ∈ typeArray := by
  have hall : (fileName2Type.all fun e => decide (e.1 ∈ typeArray)) = true := by decide
  obtain ⟨pre, post, hsplit, -⟩ := List.lookup_eq_some_iff.mp h
  have hmem : (name, rtype) ∈ fileName2Type := by
    rw [hsplit]
    exact List.mem_append_right _ List.mem_cons_self
  exact of_decide_eq_true (List.all_eq_true.mp hall _ hmem)

/-- An entry that goes well: everything is kept, and unless it ends the request its file and record
are there. -/
theorem deCompress2dest_right {f : ZipEntry}
    (h : ∀ rtype, fileName2Type.lookup f.name = some rtype →
      f.file.Right p ⟨system, platform, rtype⟩) :
    Keeps p (deCompress2dest p system platform f).1 ∧
      ((deCompress2dest p system platform f).2 = true → ∀ rtype,
        fileName2Type.lookup f.name = some rtype →
          (deCompress2dest p system platform f).1.Present ⟨system, platform, rtype⟩) := by
  obtain ⟨name, file⟩ := f
  cases htype : fileName2Type.lookup name with
  | none =>
    have hrun : (deCompress2dest p system platform ⟨name, file⟩).1 = p := by
      cases file <;> simp only [deCompress2dest, succeeds, deCompressEntry, htype]
    rw [hrun]
    exact ⟨Keeps.refl p, fun _ rtype hrtype => nomatch hrtype⟩
  | some rtype =>
    have hright : file.Right p ⟨system, platform, rtype⟩ := h rtype htype
    have hallowed : ¬ name ∉ typeArray := fun hno => hno (fileName2Type_mem_typeArray htype)
    have hone : ∀ {q : Published}, q.Present ⟨system, platform, rtype⟩ → ∀ rtype',
        some rtype = some rtype' → q.Present ⟨system, platform, rtype'⟩ := by
      intro q hq rtype' heq
      exact Option.some.inj heq ▸ hq
    cases file with
    | notOpened =>
      simp only [deCompress2dest, succeeds, deCompressEntry]
      exact ⟨Keeps.refl p, fun _ => hone hright⟩
    | notCreated =>
      simp only [deCompress2dest, succeeds, deCompressEntry, htype, if_neg hallowed]
      exact ⟨Keeps.refl p, fun hfalse => absurd hfalse (by decide)⟩
    | broken content =>
      simp only [deCompress2dest, succeeds, deCompressEntry, htype, if_neg hallowed]
      exact ⟨keeps_write hright, fun hfalse => absurd hfalse (by decide)⟩
    | copied content o =>
      have hrun : deCompress2dest p system platform ⟨name, .copied content o⟩ =
          recordHash (p.write ⟨system, platform, rtype⟩ content) ⟨system, platform, rtype⟩ content
            o := by
        simp only [deCompress2dest, deCompressEntry, recordHash, htype, if_neg hallowed]
      rw [hrun]
      obtain ⟨hkeeps, hpresent⟩ := recordHash_right hright
      exact ⟨hkeeps, fun hok => hone (hpresent hok)⟩

theorem deCompressAll_nil_cons {f : ZipEntry} {fs : List ZipEntry}
    (h : (deCompressEntry p system platform f).2 = .nil) :
    deCompressAll p system platform (f :: fs) =
      deCompressAll (deCompressEntry p system platform f).1 system platform fs := by
  rw [deCompressAll]
  rcases hrun : deCompressEntry p system platform f with ⟨q, ret⟩
  rw [hrun] at h
  obtain rfl : ret = .nil := h
  rfl

theorem deCompressAll_stop_cons {f : ZipEntry} {fs : List ZipEntry}
    (h : (deCompressEntry p system platform f).2 ≠ .nil) :
    deCompressAll p system platform (f :: fs) = deCompressEntry p system platform f := by
  rw [deCompressAll]
  rcases hrun : deCompressEntry p system platform f with ⟨q, ret⟩
  rw [hrun] at h
  cases ret with
  | nil => exact absurd rfl h
  | error err => rfl
  | panic => rfl

theorem deCompressZip_right {fs : List ZipEntry} (h : ArchiveRight p system platform fs) :
    Keeps p (deCompressZip p system platform fs).1 ∧
      ((deCompressZip p system platform fs).2 = true → ∀ f ∈ fs, ∀ rtype,
        fileName2Type.lookup f.name = some rtype →
          (deCompressZip p system platform fs).1.Present ⟨system, platform, rtype⟩) := by
  induction fs generalizing p with
  | nil => exact ⟨Keeps.refl p, fun _ f hf => absurd hf List.not_mem_nil⟩
  | cons f fs ih =>
    obtain ⟨hentry, hrest⟩ := h
    obtain ⟨hkeeps, hpresent⟩ := deCompress2dest_right hentry
    by_cases hnil : (deCompressEntry p system platform f).2 = .nil
    · have hok : (deCompress2dest p system platform f).2 = true := decide_eq_true hnil
      obtain ⟨hkeeps', hpresent'⟩ := ih (hrest hok)
      rw [deCompressZip, deCompressAll_nil_cons hnil]
      refine ⟨hkeeps.trans hkeeps', fun hall g hg rtype hrtype => ?_⟩
      rcases List.mem_cons.mp hg with rfl | hg
      · exact hkeeps'.present _ (hpresent hok rtype hrtype)
      · exact hpresent' hall g hg rtype hrtype
    · rw [deCompressZip, deCompressAll_stop_cons hnil]
      exact ⟨hkeeps, fun hall => absurd (of_decide_eq_true hall) hnil⟩

/-! ## Requests -/

/-- A request that goes well: everything is kept, and a success leaves every file it was given with
its record. -/
theorem handle_right {r : UploadRequest} (h : r.Right p) :
    Keeps p (p.handle r).1 ∧ ((p.handle r).2 = true → ∀ n ∈ r.names, (p.handle r).1.Present n) := by
  cases r with
  | agent system platform form o =>
    by_cases hrefused : system ∉ systemArray ∨ platform ∉ platformArray
    · simp only [Published.handle, fileUpload, if_pos hrefused]
      exact ⟨Keeps.refl p, fun hfalse => absurd hfalse Bool.false_ne_true⟩
    · have hlisted : system ∈ systemArray ∧ platform ∈ platformArray := by
        simpa only [not_or, not_not] using hrefused
      cases form with
      | none =>
        simp only [Published.handle, fileUpload, if_neg hrefused]
        exact ⟨Keeps.refl p, fun hfalse => absurd hfalse Bool.false_ne_true⟩
      | some content =>
        simp only [Published.handle, fileUpload, if_neg hrefused, UploadRequest.names]
        obtain ⟨hkeeps, hpresent⟩ := recordHash_right (h hlisted content rfl)
        exact ⟨hkeeps, fun hok n hn => List.mem_singleton.mp hn ▸ hpresent hok⟩
  | zip system platform archive =>
    by_cases hrefused : system ∉ systemArray ∨ platform ∉ platformArray
    · simp only [Published.handle, saveFile, if_pos hrefused]
      exact ⟨Keeps.refl p, fun hfalse => absurd hfalse Bool.false_ne_true⟩
    · have hlisted : system ∈ systemArray ∧ platform ∈ platformArray := by
        simpa only [not_or, not_not] using hrefused
      cases archive with
      | none =>
        simp only [Published.handle, saveFile, if_neg hrefused]
        exact ⟨Keeps.refl p, fun hfalse => absurd hfalse Bool.false_ne_true⟩
      | some fs =>
        simp only [Published.handle, saveFile, if_neg hrefused, UploadRequest.names,
          Option.getD_some]
        obtain ⟨hkeeps, hpresent⟩ := deCompressZip_right (h hlisted)
        refine ⟨hkeeps, fun hok n hn => ?_⟩
        obtain ⟨f, hf, hn⟩ := List.mem_filterMap.mp hn
        obtain ⟨rtype, hrtype, rfl⟩ := Option.map_eq_some_iff.mp hn
        exact hpresent hok f hf rtype hrtype

/-- An upload of the agent goes well exactly when it keeps the files and the records in step and its
success leaves both. -/
theorem agent_right_iff {form : Option (List UInt8)} (hp : p.Matches) :
    ((p.handle (.agent system platform form o)).1.Matches ∧
      ((p.handle (.agent system platform form o)).2 = true →
        ∀ n ∈ (UploadRequest.agent system platform form o).names,
          (p.handle (.agent system platform form o)).1.Present n)) ↔
    (UploadRequest.agent system platform form o).Right p := by
  constructor
  · rintro ⟨hmatch, hpresent⟩ hlisted content rfl
    have hrefused : ¬ (system ∉ systemArray ∨ platform ∉ platformArray) := by
      simpa only [not_or, not_not] using hlisted
    simp only [Published.handle, fileUpload, if_neg hrefused] at hmatch hpresent
    exact right_of_recordHash hmatch fun hok => hpresent hok _ List.mem_cons_self
  · intro h
    obtain ⟨hkeeps, hpresent⟩ := handle_right h
    exact ⟨hkeeps.matched hp, hpresent⟩

/-- In a run whose requests all go well, every record has the hash of the stored file after each
request, and every success leaves the files it was given with their records. -/
theorem published_matches_along {p0 : Published} {rs : List UploadRequest} (h0 : p0.Matches)
    (hright : Along publishStep (fun p r => r.Right p) p0 rs) :
    (∀ rs1 p, rs1 <+: rs → run publishStep p0 rs1 = some p → p.Matches) ∧
      Along publishStep (fun p r =>
        (p.handle r).2 = true → ∀ n ∈ r.names, (p.handle r).1.Present n) p0 rs := by
  have hstep : ∀ (p : Published) (r : UploadRequest) (p' : Published), p.Matches → r.Right p →
      publishStep p r = some p' → p'.Matches := by
    rintro p r p' hp hr hp'
    rw [publishStep, Option.some.injEq] at hp'
    exact hp' ▸ (handle_right hr).1.matched hp
  constructor
  · rintro rs1 p ⟨rs2, rfl⟩ hrun
    exact Along.invariant hstep h0 ((along_append_iff hrun).mp hright).1 hrun
  · exact Along.of_invariant (I := Published.Matches) hstep
      (fun p r _ hr => (handle_right hr).2) h0 hright

def freshConsole : Published := ⟨fun _ => none, []⟩

/-- The content `a`, with everything behind its writing going well. -/
def agentUpload : UploadRequest := .agent (str "linux") (str "64") (some [97]) ⟨some 1, false, false⟩

theorem published_matches_along_upload :
    (∀ rs1 p, rs1 <+: [agentUpload] → run publishStep freshConsole rs1 = some p → p.Matches) ∧
      Along publishStep (fun p r =>
        (p.handle r).2 = true → ∀ n ∈ r.names, (p.handle r).1.Present n) freshConsole
          [agentUpload] := by
  refine published_matches_along (fun _ _ _ hstored => nomatch hstored) ⟨?_, fun _ _ => trivial⟩
  rintro - content heq
  obtain rfl := Option.some.inj heq
  rw [RecordSteps.Right, if_neg (by decide)]
  exact ⟨rfl, fun hfalse => absurd hfalse Bool.false_ne_true⟩

/-- A second content `b`, of which the hash cannot be computed. -/
def failedUpload : UploadRequest := .agent (str "linux") (str "64") (some [98]) ⟨none, false, false⟩

/-- The archive of an installation whose entry cannot be opened. -/
def closedArchive : UploadRequest := .zip (str "linux") (str "64") (some [⟨str "daemon", .notOpened⟩])

/-- After the failed upload the record has the hash of the file that was overwritten, and the archive
is a success without a file. -/
theorem published_mismatch :
    (∃ p, run publishStep freshConsole [agentUpload, failedUpload] = some p ∧ ¬ p.Matches) ∧
      (freshConsole.handle closedArchive).2 = true ∧
      ¬ (freshConsole.handle closedArchive).1.Present ⟨str "linux", str "64", str "daemon"⟩ := by
  refine ⟨⟨_, rfl, fun h => ?_⟩, by decide, fun h => absurd h.1 (by decide)⟩
  have hhash := h ⟨str "linux", str "64", str "agent"⟩ [98]
    ⟨str "64", str "linux", str "agent", hexEncode (md5 [97])⟩ (by decide +kernel) ?_
  · exact absurd hhash (by decide +kernel)
  · rfl

end YulongHids.Web
