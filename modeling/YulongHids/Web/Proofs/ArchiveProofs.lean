import YulongHids.Transition.Run
import YulongHids.Web.Archive
import YulongHids.Web.Proofs.PublishProofs

/-!
# Proofs: the archive of the installation

Every entry ends in one of four ways, and three of them can be read off the entry alone. The fourth
needs the records: whether there is one for its type when its turn comes.
-/

namespace YulongHids.Web

open Golang Mongo Transition

variable {p q : Published} {n : FileName} {content : List UInt8} {o : RecordSteps}
  {system platform : GoString} {f : ZipEntry}

/-! ## One entry -/

theorem lookup_of_mem_typeArray {name : GoString} (h : name ∈ typeArray) :
    ∃ rtype, fileName2Type.lookup name = some rtype := by
  have hall : ∀ name ∈ typeArray, (fileName2Type.lookup name).isSome = true := by decide
  exact Option.isSome_iff_exists.mp (hall name h)

/-- The entry has an allowed name, is extracted and gets to the insertion, if there has to be one. -/
def ZipEntry.Stores (f : ZipEntry) (rtype : GoString) (content : List UInt8) (o : RecordSteps) :
    Prop :=
  fileName2Type.lookup f.name = some rtype ∧ f.file = .copied content o ∧
    ¬ (o.read = none ∨ o.updateFails = true)

/-- The ways in which an entry ends: it is passed over, it panics, it fails, or it is stored with or
without its record. -/
theorem deCompressEntry_cases (p : Published) (system platform : GoString) (f : ZipEntry) :
    (f.file = .notOpened ∧ deCompressEntry p system platform f = (p, .nil)) ∨
    (f.Panics ∧ deCompressEntry p system platform f = (p, .panic)) ∨
    (f.Fails ∧ ∃ q err, deCompressEntry p system platform f = (q, .error err) ∧
      (q = p ∨ ∃ rtype content, fileName2Type.lookup f.name = some rtype ∧
        q = p.write ⟨system, platform, rtype⟩ content)) ∨
    ∃ rtype content o, f.Stores rtype content o ∧
      let n : FileName := ⟨system, platform, rtype⟩
      (deCompressEntry p system platform f = (p.write n content, .nil) ∧
          (one p.records n.selector).isNone ∧ o.insertFails = true ∨
        deCompressEntry p system platform f =
            ((p.write n content).withRecord n (getFileMD5Hash content o.read), .nil) ∧
          (o.insertFails = true → (one p.records n.selector).isSome)) := by
  obtain ⟨name, file⟩ := f
  cases htype : fileName2Type.lookup name with
  | none =>
    have hname : name ∉ typeArray := by
      intro hmem
      obtain ⟨rtype, hrtype⟩ := lookup_of_mem_typeArray hmem
      rw [htype] at hrtype
      cases hrtype
    cases file with
    | notOpened => exact Or.inl ⟨rfl, rfl⟩
    | notCreated | broken content | copied content o =>
      refine Or.inr (Or.inl ⟨⟨by simp, hname⟩, ?_⟩)
      simp only [deCompressEntry, htype]
  | some rtype =>
    have hname : name ∈ typeArray := fileName2Type_mem_typeArray htype
    have hallowed : ¬ name ∉ typeArray := not_not.mpr hname
    cases file with
    | notOpened => exact Or.inl ⟨rfl, rfl⟩
    | notCreated =>
      refine Or.inr (Or.inr (Or.inl ⟨⟨hname, Or.inl rfl⟩, p, .notCreated, ?_, Or.inl rfl⟩))
      simp only [deCompressEntry, htype, if_neg hallowed]
    | broken content =>
      refine Or.inr (Or.inr (Or.inl ⟨⟨hname, Or.inr (Or.inl ⟨content, rfl⟩)⟩,
        p.write ⟨system, platform, rtype⟩ content, .notCopied, ?_,
        Or.inr ⟨rtype, content, rfl, rfl⟩⟩))
      simp only [deCompressEntry, htype, if_neg hallowed]
    | copied content o =>
      have hrun : deCompressEntry p system platform ⟨name, .copied content o⟩ =
          toDB (p.write ⟨system, platform, rtype⟩ content) ⟨system, platform, rtype⟩ content o := by
        simp only [deCompressEntry, htype, if_neg hallowed]
      rw [hrun]
      rcases toDB_cases (p.write ⟨system, platform, rtype⟩ content) ⟨system, platform, rtype⟩ content o
        with ⟨⟨err, hdb⟩, hfail⟩ | ⟨hdb, hok, hnone, hinsert⟩ | ⟨hdb, hok, hinsert⟩
      · exact Or.inr (Or.inr (Or.inl ⟨⟨hname, Or.inr (Or.inr ⟨content, o, rfl, hfail⟩)⟩, _, err, hdb,
          Or.inr ⟨rtype, content, rfl, rfl⟩⟩))
      · exact Or.inr (Or.inr (Or.inr ⟨rtype, content, o, ⟨htype, rfl, hok⟩,
          Or.inl ⟨hdb, hnone, hinsert⟩⟩))
      · exact Or.inr (Or.inr (Or.inr ⟨rtype, content, o, ⟨htype, rfl, hok⟩, Or.inr ⟨hdb, hinsert⟩⟩))

theorem ZipEntry.Fails.not_panics (h : f.Fails) : ¬ f.Panics := fun hpanics => hpanics.2 h.1

theorem ZipEntry.Stores.quiet {rtype : GoString} (h : f.Stores rtype content o) :
    ¬ f.Fails ∧ ¬ f.Panics := by
  obtain ⟨htype, hfile, hok⟩ := h
  constructor
  · rintro ⟨-, hfail⟩
    rw [hfile] at hfail
    rcases hfail with hfail | ⟨c, hfail⟩ | ⟨c, o', hfail, hsteps⟩
    · cases hfail
    · cases hfail
    · obtain ⟨-, rfl⟩ := EntryFile.copied.inj hfail
      exact hok hsteps
  · rintro ⟨-, hname⟩
    exact hname (fileName2Type_mem_typeArray htype)

theorem not_opened_quiet (h : f.file = .notOpened) : ¬ f.Fails ∧ ¬ f.Panics := by
  constructor
  · rintro ⟨-, hfail⟩
    rw [h] at hfail
    rcases hfail with hfail | ⟨c, hfail⟩ | ⟨c, o, hfail, -⟩
    · cases hfail
    · cases hfail
    · cases hfail
  · rintro ⟨hopened, -⟩
    exact hopened h

/-- How an entry ends depends on the entry only. -/
theorem deCompressEntry_ret (p : Published) (system platform : GoString) (f : ZipEntry) :
    (f.Fails ∧ ∃ err, (deCompressEntry p system platform f).2 = .error err) ∨
    (f.Panics ∧ (deCompressEntry p system platform f).2 = .panic) ∨
    ((¬ f.Fails ∧ ¬ f.Panics) ∧ (deCompressEntry p system platform f).2 = .nil) := by
  rcases deCompressEntry_cases p system platform f with
    ⟨hfile, hrun⟩ | ⟨hpanics, hrun⟩ | ⟨hfails, q, err, hrun, -⟩ | ⟨rtype, content, o, hstores, hrun⟩
  · exact Or.inr (Or.inr ⟨not_opened_quiet hfile, by rw [hrun]⟩)
  · exact Or.inr (Or.inl ⟨hpanics, by rw [hrun]⟩)
  · exact Or.inl ⟨hfails, err, by rw [hrun]⟩
  · refine Or.inr (Or.inr ⟨hstores.quiet, ?_⟩)
    rcases hrun with ⟨hrun, -⟩ | ⟨hrun, -⟩
    · rw [hrun]
    · rw [hrun]

theorem deCompressEntry_nil (h : ¬ f.Fails ∧ ¬ f.Panics) :
    (deCompressEntry p system platform f).2 = .nil := by
  rcases deCompressEntry_ret p system platform f with ⟨hfails, -⟩ | ⟨hpanics, -⟩ | ⟨-, hret⟩
  · exact absurd hfails h.1
  · exact absurd hpanics h.2
  · exact hret

/-! ## The archive -/

/-- The archive ends with an error exactly at the first entry that fails, none before it panicking. -/
theorem deCompressAll_error_iff (p : Published) (system platform : GoString) (fs : List ZipEntry) :
    (∃ err, (deCompressAll p system platform fs).2 = .error err) ↔
      ∃ pre f post, fs = pre ++ f :: post ∧ f.Fails ∧ ∀ g ∈ pre, ¬ g.Panics := by
  induction fs generalizing p with
  | nil =>
    refine iff_of_false (by simp [deCompressAll]) ?_
    rintro ⟨pre, f, post, hsplit, -⟩
    exact absurd hsplit (by simp)
  | cons f fs ih =>
    rw [exists_split_cons (Q := fun pre f => ZipEntry.Fails f ∧ ∀ g ∈ pre, ¬ ZipEntry.Panics g)]
    rcases deCompressEntry_ret p system platform f with
      ⟨hfails, err, hret⟩ | ⟨hpanics, hret⟩ | ⟨⟨hfails, hpanics⟩, hret⟩
    · rw [deCompressAll_stop_cons (by simp [hret])]
      exact iff_of_true ⟨err, hret⟩ (Or.inl ⟨hfails, by simp⟩)
    · rw [deCompressAll_stop_cons (by simp [hret]), hret]
      refine iff_of_false (by simp) ?_
      rintro (⟨hfails, -⟩ | ⟨pre, g, post, -, -, hpre⟩)
      · exact hfails.not_panics hpanics
      · exact hpre f List.mem_cons_self hpanics
    · rw [deCompressAll_nil_cons hret, ih, or_iff_right fun h => hfails h.1]
      simp only [List.forall_mem_cons, hpanics, not_false_eq_true, true_and]

/-- It ends with nil if no entry fails or panics. -/
theorem deCompressAll_nil_iff (p : Published) (system platform : GoString) (fs : List ZipEntry) :
    (deCompressAll p system platform fs).2 = .nil ↔ ∀ f ∈ fs, ¬ f.Fails ∧ ¬ f.Panics := by
  induction fs generalizing p with
  | nil => simp [deCompressAll]
  | cons f fs ih =>
    rw [List.forall_mem_cons]
    rcases deCompressEntry_ret p system platform f with
      ⟨hfails, err, hret⟩ | ⟨hpanics, hret⟩ | ⟨hquiet, hret⟩
    · rw [deCompressAll_stop_cons (by simp [hret]), hret]
      exact iff_of_false (by simp) fun h => h.1.1 hfails
    · rw [deCompressAll_stop_cons (by simp [hret]), hret]
      exact iff_of_false (by simp) fun h => h.1.2 hpanics
    · rw [deCompressAll_nil_cons hret, ih, and_iff_right hquiet]

theorem deCompressAll_append {pre : List ZipEntry} (fs : List ZipEntry)
    (h : ∀ g ∈ pre, ¬ g.Fails ∧ ¬ g.Panics) :
    deCompressAll p system platform (pre ++ fs) =
      deCompressAll (deCompressAll p system platform pre).1 system platform fs := by
  induction pre generalizing p with
  | nil => rfl
  | cons g pre ih =>
    obtain ⟨hg, hpre⟩ := List.forall_mem_cons.mp h
    have hret := @deCompressEntry_nil p system platform g hg
    rw [List.cons_append, deCompressAll_nil_cons hret, deCompressAll_nil_cons hret, ih hpre]

/-! ## The records -/

/-- After an entry there is a record where there was one, and for the type that it has inserted. -/
theorem hasRecord_entry (h : ¬ f.Fails ∧ ¬ f.Panics) (rtype : GoString) :
    (one (deCompressEntry p system platform f).1.records
        (FileName.selector ⟨system, platform, rtype⟩)).isSome ↔
      (one p.records (FileName.selector ⟨system, platform, rtype⟩)).isSome ∨
        ∃ content o, f.file = .copied content o ∧ fileName2Type.lookup f.name = some rtype ∧
          o.insertFails = false := by
  rcases deCompressEntry_cases p system platform f with
    ⟨hfile, hrun⟩ | ⟨hpanics, -⟩ | ⟨hfails, -⟩ | ⟨rt, content, o, ⟨htype, hfile, -⟩, hrun⟩
  · rw [hrun, hfile]
    simp
  · exact absurd hpanics h.2
  · exact absurd hfails h.1
  · rcases hrun with ⟨hrun, -, hinsert⟩ | ⟨hrun, hinsert⟩
    · rw [hrun, write_records, hfile]
      refine (or_iff_left ?_).symm
      rintro ⟨c, o', hfile', -, hinsert'⟩
      obtain ⟨-, rfl⟩ := EntryFile.copied.inj hfile'
      rw [hinsert] at hinsert'
      cases hinsert'
    · rw [hrun, hfile, htype]
      change (one (fileUpdate p.records _) _).isSome ↔ _
      rw [one_fileUpdate]
      by_cases hrt : rtype = rt
      · subst hrt
        rw [if_pos rfl]
        refine iff_of_true rfl ?_
        cases hfails : o.insertFails with
        | true => exact Or.inl (hinsert hfails)
        | false => exact Or.inr ⟨content, o, rfl, rfl, hfails⟩
      · rw [if_neg fun hn => hrt (congrArg FileName.type hn)]
        refine (or_iff_left ?_).symm
        rintro ⟨c, o', -, htype', -⟩
        exact hrt (Option.some.inj htype').symm

theorem hasRecord_iff {pre : List ZipEntry} (h : ∀ g ∈ pre, ¬ g.Fails ∧ ¬ g.Panics)
    (rtype : GoString) :
    (one (deCompressAll p system platform pre).1.records
        (FileName.selector ⟨system, platform, rtype⟩)).isSome ↔
      HasRecord p system platform pre rtype := by
  induction pre generalizing p with
  | nil => simp [deCompressAll, HasRecord]
  | cons g pre ih =>
    obtain ⟨hg, hpre⟩ := List.forall_mem_cons.mp h
    have hret := @deCompressEntry_nil p system platform g hg
    rw [deCompressAll_nil_cons hret, ih hpre, HasRecord, hasRecord_entry hg, HasRecord,
      List.exists_mem_cons_iff, or_assoc]

/-- An entry is installed when its turn is over if all of its steps went well. -/
theorem installed_entry_iff (h : ¬ f.Fails ∧ ¬ f.Panics) :
    (∃ rtype content o, fileName2Type.lookup f.name = some rtype ∧ f.file = .copied content o ∧
        (deCompressEntry p system platform f).1.Installed ⟨system, platform, rtype⟩ content) ↔
      ∃ rtype content o, fileName2Type.lookup f.name = some rtype ∧ f.file = .copied content o ∧
        getFileMD5Hash content o.read = hexEncode (md5 content) ∧ o.read ≠ none ∧
        o.updateFails = false ∧ (o.insertFails = true →
          (one p.records (FileName.selector ⟨system, platform, rtype⟩)).isSome) := by
  refine exists_congr fun rtype => exists_congr fun content => exists_congr fun o => ?_
  refine and_congr_right fun htype => and_congr_right fun hfile => ?_
  rcases deCompressEntry_cases p system platform f with
    ⟨hno, -⟩ | ⟨hpanics, -⟩ | ⟨hfails, -⟩ | ⟨rt, content', o', ⟨htype', hfile', hok⟩, hrun⟩
  · rw [hfile] at hno
    cases hno
  · exact absurd hpanics h.2
  · exact absurd hfails h.1
  obtain rfl : rt = rtype := Option.some.inj (htype'.symm.trans htype)
  obtain ⟨rfl, rfl⟩ := EntryFile.copied.inj (hfile'.symm.trans hfile)
  obtain ⟨hread, hupdate⟩ := not_or.mp hok
  rw [Bool.not_eq_true] at hupdate
  rcases hrun with ⟨hrun, hnone, hinsert⟩ | ⟨hrun, hinsert⟩
  · rw [hrun]
    rw [Option.isNone_iff_eq_none] at hnone
    refine iff_of_false ?_ ?_
    · rintro ⟨-, r, hr, -⟩
      rw [write_records, hnone] at hr
      cases hr
    · rintro ⟨-, -, -, hsome⟩
      have := hsome hinsert
      rw [hnone] at this
      cases this
  · rw [hrun]
    have hone : one ((p.write ⟨system, platform, rt⟩ content').withRecord ⟨system, platform, rt⟩
        (getFileMD5Hash content' o'.read)).records (FileName.selector ⟨system, platform, rt⟩) =
        some (FileName.record ⟨system, platform, rt⟩ (getFileMD5Hash content' o'.read)) := by
      change one (fileUpdate p.records _) _ = _
      rw [one_fileUpdate, if_pos rfl]
    constructor
    · rintro ⟨-, r, hr, hhash⟩
      rw [hone, Option.some.injEq] at hr
      rw [← hr] at hhash
      exact ⟨hhash, hread, hupdate, hinsert⟩
    · rintro ⟨hhash, -⟩
      exact ⟨write_stored_self, _, hone, hhash⟩

/-! ## The files -/

/-- A file of the request: its type is one of the six names'. -/
def Named (system platform : GoString) (n : FileName) : Prop :=
  ∃ name rtype, fileName2Type.lookup name = some rtype ∧ n = ⟨system, platform, rtype⟩

theorem stored_write_ne {rtype : GoString} (htype : fileName2Type.lookup f.name = some rtype)
    (h : (p.write ⟨system, platform, rtype⟩ content).stored n ≠ p.stored n) :
    Named system platform n := by
  refine ⟨f.name, rtype, htype, ?_⟩
  by_contra hne
  exact h (write_stored_ne hne)

/-- An entry writes no other file. -/
theorem deCompressEntry_writes
    (h : (deCompressEntry p system platform f).1.stored n ≠ p.stored n) :
    Named system platform n := by
  rcases deCompressEntry_cases p system platform f with
    ⟨-, hrun⟩ | ⟨-, hrun⟩ | ⟨-, q, err, hrun, rfl | ⟨rtype, content, htype, rfl⟩⟩ |
      ⟨rtype, content, o, hstores, hrun⟩
  · rw [hrun] at h
    exact absurd rfl h
  · rw [hrun] at h
    exact absurd rfl h
  · rw [hrun] at h
    exact absurd rfl h
  · rw [hrun] at h
    exact stored_write_ne htype h
  · rcases hrun with ⟨hrun, -⟩ | ⟨hrun, -⟩
    · rw [hrun] at h
      exact stored_write_ne hstores.1 h
    · rw [hrun] at h
      exact stored_write_ne hstores.1 h

theorem deCompressAll_writes (p : Published) (system platform : GoString) (fs : List ZipEntry)
    (n : FileName) (h : (deCompressAll p system platform fs).1.stored n ≠ p.stored n) :
    Named system platform n := by
  induction fs generalizing p with
  | nil => exact absurd rfl h
  | cons f fs ih =>
    by_cases hret : (deCompressEntry p system platform f).2 = .nil
    · rw [deCompressAll_nil_cons hret] at h
      by_cases hfirst : (deCompressEntry p system platform f).1.stored n = p.stored n
      · exact ih _ (by rwa [hfirst])
      · exact deCompressEntry_writes hfirst
    · rw [deCompressAll_stop_cons hret] at h
      exact deCompressEntry_writes h

/-- For a system and a platform of the lists such a file is one of three, in the directory itself. -/
theorem base_of_named (hsystem : system ∈ systemArray) (hplatform : platform ∈ platformArray)
    (h : Named system platform n) :
    (∃ t ∈ [str "agent", str "data", str "daemon"],
      n.base = system ++ str "-" ++ platform ++ str "-" ++ t) ∧ 47 ∉ n.base := by
  obtain ⟨name, rtype, htype, rfl⟩ := h
  have htypes : (fileName2Type.all fun e =>
      decide (e.2 ∈ [str "agent", str "data", str "daemon"])) = true := by decide
  have hslash : ∀ s ∈ systemArray, ∀ pl ∈ platformArray,
      ∀ t ∈ [str "agent", str "data", str "daemon"],
        (47 : UInt8) ∉ s ++ str "-" ++ pl ++ str "-" ++ t := by decide +kernel
  obtain ⟨pre, post, hsplit, -⟩ := List.lookup_eq_some_iff.mp htype
  have hmem : rtype ∈ [str "agent", str "data", str "daemon"] := by
    have hin : (name, rtype) ∈ fileName2Type := by
      rw [hsplit]
      exact List.mem_append_right _ List.mem_cons_self
    exact of_decide_eq_true (List.all_eq_true.mp htypes _ hin)
  exact ⟨⟨rtype, hmem, rfl⟩, hslash system hsystem platform hplatform rtype hmem⟩

/-! ## All or error -/

theorem ZipEntry.Good.quiet {pre : List ZipEntry} (h : f.Good p system platform pre) :
    ¬ f.Fails ∧ ¬ f.Panics := by
  obtain ⟨rtype, content, o, htype, hfile, -, hread, hupdate, -⟩ := h
  have hstores : f.Stores rtype content o := by
    refine ⟨htype, hfile, ?_⟩
    rintro (hnone | hfails)
    · exact hread hnone
    · rw [hupdate] at hfails
      cases hfails
  exact hstores.quiet

/-- An archive that ends with nil is installed completely if and only if every entry is good. -/
theorem complete_iff {fs : List ZipEntry} (h : ∀ f ∈ fs, ¬ f.Fails ∧ ¬ f.Panics) :
    (∀ pre f post, fs = pre ++ f :: post → ∃ rtype content o,
      fileName2Type.lookup f.name = some rtype ∧ f.file = .copied content o ∧
        (deCompressAll p system platform (pre ++ [f])).1.Installed ⟨system, platform, rtype⟩
          content) ↔
      ∀ pre f post, fs = pre ++ f :: post → f.Good p system platform pre := by
  refine forall_congr' fun pre => forall_congr' fun f => forall_congr' fun post =>
    forall_congr' fun hsplit => ?_
  have hpre : ∀ g ∈ pre, ¬ g.Fails ∧ ¬ g.Panics := fun g hg =>
    h g (by rw [hsplit]; exact List.mem_append_left _ hg)
  have hf := h f (by rw [hsplit]; exact List.mem_append_right _ List.mem_cons_self)
  have hrun : (deCompressAll p system platform (pre ++ [f])).1 =
      (deCompressEntry (deCompressAll p system platform pre).1 system platform f).1 := by
    rw [deCompressAll_append _ hpre, deCompressAll_nil_cons (deCompressEntry_nil hf)]
    rfl
  rw [hrun, installed_entry_iff hf, ZipEntry.Good]
  simp only [hasRecord_iff hpre]

/-- An archive panics at an entry whose name is not allowed. -/
theorem exists_name_of_panic {p : Published} {system platform : GoString} {fs : List ZipEntry}
    (hret : (deCompressAll p system platform fs).2 = .panic) : ∃ f ∈ fs, f.name ∉ typeArray := by
  by_contra hno
  push Not at hno
  have hpanics : ∀ f ∈ fs, ¬ f.Panics := fun f hf hp => hp.2 (hno f hf)
  by_cases hfails : ∃ f ∈ fs, f.Fails
  · obtain ⟨f, hf, hff⟩ := hfails
    obtain ⟨pre, post, hsplit⟩ := List.mem_iff_append.mp hf
    obtain ⟨err, herr⟩ := (deCompressAll_error_iff p system platform fs).mpr
      ⟨pre, f, post, hsplit, hff, fun g hg =>
        hpanics g (by rw [hsplit]; exact List.mem_append_left _ hg)⟩
    rw [hret] at herr
    cases herr
  · push Not at hfails
    have hquiet := (deCompressAll_nil_iff p system platform fs).mpr
      fun f hf => ⟨hfails f hf, hpanics f hf⟩
    rw [hret] at hquiet
    cases hquiet

/-- An archive is installed or refused as it should be if and only if an entry fails before any one
panics, or every entry is good. -/
theorem deCompressZip_all_or_error_iff (p : Published) (system platform : GoString)
    (hsystem : system ∈ systemArray) (hplatform : platform ∈ platformArray) (fs : List ZipEntry) :
    AllOrError p system platform fs ↔
      (∃ pre f post, fs = pre ++ f :: post ∧ f.Fails ∧ ∀ g ∈ pre, ¬ g.Panics) ∨
        ∀ pre f post, fs = pre ++ f :: post → f.Good p system platform pre := by
  have hwrites := fun n h => base_of_named hsystem hplatform
    (deCompressAll_writes p system platform fs n h)
  have herror := deCompressAll_error_iff p system platform fs
  have hnil := deCompressAll_nil_iff p system platform fs
  constructor
  · intro h
    cases hret : (deCompressAll p system platform fs).2 with
    | error err => exact Or.inl (herror.mp ⟨err, hret⟩)
    | nil => exact Or.inr ((complete_iff (hnil.mp hret)).mp (h.complete hret))
    | panic =>
      obtain ⟨err, herr⟩ := h.refuses (exists_name_of_panic hret)
      rw [hret] at herr
      cases herr
  · rintro (hfails | hgood)
    · obtain ⟨err, herr⟩ := herror.mpr hfails
      refine ⟨fun h => ?_, fun _ => ⟨err, herr⟩, hwrites⟩
      rw [herr] at h
      cases h
    · have hquiet : ∀ f ∈ fs, ¬ f.Fails ∧ ¬ f.Panics := by
        intro f hf
        obtain ⟨pre, post, hsplit⟩ := List.mem_iff_append.mp hf
        exact (hgood pre f post hsplit).quiet
      refine ⟨fun _ => (complete_iff hquiet).mpr hgood, ?_, hwrites⟩
      rintro ⟨f, hf, hname⟩
      obtain ⟨pre, post, hsplit⟩ := List.mem_iff_append.mp hf
      obtain ⟨rtype, content, o, htype, -⟩ := hgood pre f post hsplit
      exact absurd (fileName2Type_mem_typeArray htype) hname

/-- A console without files. -/
def emptyPublished : Published := ⟨fun _ => none, []⟩

/-- An entry all of whose steps go well. -/
def wholeEntry (name : GoString) (content : List UInt8) : ZipEntry :=
  ⟨name, .copied content ⟨some content.length, false, false⟩⟩

/-- An archive of an agent and a daemon. -/
theorem deCompressZip_all_or_error_linux :
    AllOrError emptyPublished (str "linux") (str "64")
        [wholeEntry (str "agent") (str "elf"), wholeEntry (str "daemon") (str "elf")] ↔
      (∃ pre f post, [wholeEntry (str "agent") (str "elf"), wholeEntry (str "daemon") (str "elf")] =
          pre ++ f :: post ∧ f.Fails ∧ ∀ g ∈ pre, ¬ g.Panics) ∨
        ∀ pre f post, [wholeEntry (str "agent") (str "elf"), wholeEntry (str "daemon") (str "elf")] =
          pre ++ f :: post → f.Good emptyPublished (str "linux") (str "64") pre :=
  deCompressZip_all_or_error_iff emptyPublished (str "linux") (str "64") (by decide) (by decide) _

/-- A file with another name is a panic, and an entry that cannot be opened is a success. -/
theorem deCompressZip_not_all_or_error :
    ((deCompressAll emptyPublished (str "linux") (str "64")
        [wholeEntry (str "README") (str "text")]).2 = .panic ∧
      ¬ AllOrError emptyPublished (str "linux") (str "64")
        [wholeEntry (str "README") (str "text")]) ∧
    (deCompressAll emptyPublished (str "linux") (str "64") [⟨str "agent", .notOpened⟩]).2 = .nil ∧
      ¬ AllOrError emptyPublished (str "linux") (str "64") [⟨str "agent", .notOpened⟩] := by
  have hpanic : (deCompressAll emptyPublished (str "linux") (str "64")
      [wholeEntry (str "README") (str "text")]).2 = .panic := by decide +kernel
  have hnil : (deCompressAll emptyPublished (str "linux") (str "64")
      [⟨str "agent", .notOpened⟩]).2 = .nil := by decide +kernel
  refine ⟨⟨hpanic, fun h => ?_⟩, hnil, fun h => ?_⟩
  · obtain ⟨err, herr⟩ := h.refuses ⟨wholeEntry (str "README") (str "text"), by simp, by decide +kernel⟩
    rw [hpanic] at herr
    cases herr
  · obtain ⟨rtype, content, o, -, hfile, -⟩ := h.complete hnil [] ⟨str "agent", .notOpened⟩ [] rfl
    cases hfile

end YulongHids.Web
