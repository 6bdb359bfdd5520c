import YulongHids.Agent.FileMonitor
import YulongHids.Agent.Proofs.ListeningProofs
import YulongHids.Agent.Proofs.ProcessMonitorWindowsProofs

/-!
# Proofs: file events on Linux

What an iteration does with a file is said once, in `fileContent_cases`. The iterations that do not
panic report every event that is not listed.
-/

namespace YulongHids.Agent

open Golang

section Events

variable {txt : TextLib} {i : FileInput}

/-! ## The hash -/

theorem getFileMD5_eq_panic {v : FileViews} (h : v.hashStat = none) : getFileMD5 v = .panic := by
  rw [getFileMD5, h]

/-- With a result of its `os.Stat`, `getFileMD5` gives the hash of a content that is small enough, or
an error. -/
theorem getFileMD5_of_stat {v : FileViews} {f : FileInfo} (h : v.hashStat = some f) :
    (f.size < fileSize ∧ ∃ c, v.content = some c ∧ getFileMD5 v = .hash (md5Text c)) ∨
      ((fileSize ≤ f.size ∨ v.content = none) ∧ getFileMD5 v = .error) := by
  rw [getFileMD5, h]
  by_cases hbig : fileSize ≤ f.size
  · exact .inr ⟨.inl hbig, if_pos hbig⟩
  simp only [if_neg hbig]
  cases hcontent : v.content with
  | none => exact .inr ⟨.inr rfl, rfl⟩
  | some c => exact .inl ⟨not_le.mp hbig, c, rfl, rfl⟩

theorem Hashed.eq {h h' : GoString} (hh : Hashed i h) (hh' : Hashed i h') : h = h' := by
  obtain ⟨c, hc, rfl⟩ := hh.content
  obtain ⟨c', hc', rfl⟩ := hh'.content
  rw [hc, Option.some.injEq] at hc'
  rw [hc']

/-! ## The end of an iteration -/

/-- The white list does not look at the owner. -/
theorem isFileWhite_user (filter : List GoString) (e : FileEvent) (h user : GoString) :
    isFileWhite txt filter (fileRecord e h user) = isFileWhite txt filter (fileRecord e h []) := by
  have hne : str "hash" ≠ str "user" := by decide
  have hne' : str "path" ≠ str "user" := by decide
  simp only [isFileWhite, fileRecord, Record.get_insert_ne _ hne, Record.get_insert_ne _ hne']

theorem fileRecord_path (e : FileEvent) (h user : GoString) :
    (fileRecord e h user).get (str "path") = e.name := by
  have hne : str "path" ≠ str "user" := by decide
  have hne' : str "path" ≠ str "hash" := by decide
  rw [fileRecord, Record.get_insert_ne _ hne, Record.get_insert_ne _ hne', Record.get_insert]

theorem fileRecord_action (e : FileEvent) (h user : GoString) :
    (fileRecord e h user).get (str "action") = e.action := by
  have hne : str "action" ≠ str "user" := by decide
  have hne' : str "action" ≠ str "hash" := by decide
  have hpath : str "action" ≠ str "path" := by decide
  rw [fileRecord, Record.get_insert_ne _ hne, Record.get_insert_ne _ hne',
    Record.get_insert_ne _ hpath, Record.get_insert]

theorem sendFile_ne_panic (h user : GoString) : sendFile txt i h user ≠ .panic := by
  rw [sendFile]
  split
  · exact Turn.noConfusion
  · exact Turn.noConfusion

theorem sendFile_eq {h : GoString} (hun : Unlisted txt i h) (user : GoString) :
    sendFile txt i h user = .send (fileRecord i.event h user) := by
  have hwhite : ¬ isFileWhite txt i.cfg.filterFile (fileRecord i.event h user) = true := by
    rw [isFileWhite_user, hun]
    exact Bool.false_ne_true
  rw [sendFile, if_neg hwhite]

theorem fileOwner_ne_panic_iff {h : GoString} :
    fileOwner txt i h ≠ .panic ↔ ∀ dat, i.views.passwd = some dat → 10 ∈ dat := by
  have hpanic : fileOwner txt i h = .panic ↔ getFileUser i.views.uid i.views.passwd = .panic := by
    rw [fileOwner]
    cases getFileUser i.views.uid i.views.passwd with
    | panic => exact iff_of_true rfl rfl
    | error => exact iff_of_false (sendFile_ne_panic _ _) FileUser.noConfusion
    | found user => exact iff_of_false (sendFile_ne_panic _ _) FileUser.noConfusion
  rw [ne_eq, hpanic]
  cases i.views.passwd with
  | none =>
    exact iff_of_true FileUser.noConfusion fun _ hdat => absurd hdat.symm (Option.some_ne_none _)
  | some dat =>
    rw [← ne_eq, getFileUser_returns_iff]
    exact ⟨fun hmem _ hdat => Option.some.inj hdat ▸ hmem, fun hall => hall dat rfl⟩

theorem fileOwner_eq {h : GoString} (hun : Unlisted txt i h) (hno : fileOwner txt i h ≠ .panic) :
    ∃ user, fileOwner txt i h = .send (fileRecord i.event h user) := by
  rw [fileOwner] at hno ⊢
  cases hfound : getFileUser i.views.uid i.views.passwd with
  | panic =>
    rw [hfound] at hno
    exact absurd rfl hno
  | error => exact ⟨[], sendFile_eq hun []⟩
  | found user => exact ⟨user, sendFile_eq hun user⟩

/-! ## One event -/

/-- What an iteration does with a file that the loop has seen: it panics if the file is gone for
`getFileMD5`, leaves out a hash that is listed, and goes on with the hash or without one. -/
theorem fileContent_cases (txt : TextLib) {f : FileInfo} (hstat : i.views.stat = some f)
    (hdir : f.isDir = false) :
    (f.size ≤ fileSize ∧ i.views.hashStat = none ∧ fileContent txt i f = .panic) ∨
    ((f.size ≤ fileSize → i.views.hashStat ≠ none) ∧
      ((∃ h, Hashed i h ∧ hashListed txt i h = true ∧ fileContent txt i f = .skip) ∨
      (∃ h, Hashed i h ∧ hashListed txt i h = false ∧ fileContent txt i f = fileOwner txt i h) ∨
      ((∀ h, ¬ Hashed i h) ∧ fileContent txt i f = fileOwner txt i []))) := by
  rw [fileContent]
  by_cases hsize : f.size ≤ fileSize
  · rw [if_pos hsize]
    cases hagain : i.views.hashStat with
    | none =>
      rw [getFileMD5_eq_panic hagain]
      exact .inl ⟨hsize, rfl, rfl⟩
    | some g =>
      refine .inr ⟨fun _ => Option.some_ne_none _, ?_⟩
      rcases getFileMD5_of_stat hagain with ⟨hsmall, c, hc, heq⟩ | ⟨hnone, heq⟩
      · have hhashed : Hashed i (md5Text c) :=
          ⟨⟨f, hstat, hdir, hsize⟩, ⟨g, hagain, hsmall⟩, ⟨c, hc, rfl⟩⟩
        rw [heq]
        cases hlisted : hashListed txt i (md5Text c) with
        | true => exact .inl ⟨_, hhashed, hlisted, if_pos hlisted⟩
        | false =>
          exact .inr (.inl ⟨_, hhashed, hlisted, if_neg (Bool.eq_false_iff.mp hlisted)⟩)
      · rw [heq]
        refine .inr (.inr ⟨fun h hh => ?_, rfl⟩)
        rcases hnone with hbig | hnone
        · obtain ⟨g', hg', hlt⟩ := hh.again
          rw [hagain, Option.some.injEq] at hg'
          rw [hg'] at hbig
          omega
        · obtain ⟨c, hc, -⟩ := hh.content
          rw [hnone] at hc
          cases hc
  · rw [if_neg hsize]
    refine .inr ⟨fun h => absurd h hsize, .inr (.inr ⟨fun h hh => ?_, rfl⟩)⟩
    obtain ⟨f', hf', -, hle⟩ := hh.stat
    rw [hstat, Option.some.injEq] at hf'
    exact hsize (hf' ▸ hle)

theorem fileContent_ne_panic_iff {f : FileInfo} (hstat : i.views.stat = some f)
    (hdir : f.isDir = false) : fileContent txt i f ≠ .panic ↔ ViewsOk txt i := by
  rcases fileContent_cases txt hstat hdir with
    ⟨hsize, hgone, heq⟩ | ⟨hthere, ⟨h, hh, hlisted, heq⟩ | ⟨h, hh, hlisted, heq⟩ | ⟨hno, heq⟩⟩
  · rw [heq]
    exact iff_of_false (fun h => h rfl) fun h => h.hashStat f hstat hdir hsize hgone
  · rw [heq]
    refine iff_of_true Turn.noConfusion ⟨fun f' hf' _ hsize => ?_, fun _ _ _ hall => ?_⟩
    · rw [hstat, Option.some.injEq] at hf'
      exact hthere (hf' ▸ hsize)
    · rw [hall h hh] at hlisted
      cases hlisted
  all_goals
    rw [heq, fileOwner_ne_panic_iff]
    constructor
    · refine fun hpasswd => ⟨fun f' hf' _ hsize => ?_, fun _ _ _ _ => hpasswd⟩
      rw [hstat, Option.some.injEq] at hf'
      exact hthere (hf' ▸ hsize)
  · exact fun hok => hok.passwd f hstat hdir fun h' hh' => by rwa [← hh.eq hh']
  · exact fun hok => hok.passwd f hstat hdir fun h' hh' => absurd hh' (hno h')

/-- The event is reported with the path and the action. -/
theorem reported_of_eq {t : Turn} {h user : GoString}
    (ht : t = .send (fileRecord i.event h user)) :
    ∃ r, t = .send r ∧ r.get (str "path") = i.event.name ∧ r.get (str "action") = i.event.action :=
  ⟨_, ht, fileRecord_path _ _ _, fileRecord_action _ _ _⟩

theorem fileContent_reported {f : FileInfo} (hstat : i.views.stat = some f)
    (hdir : f.isDir = false) (hno : fileContent txt i f ≠ .panic) (hun : Unlisted txt i [])
    (hhash : ∀ h, Hashed i h → hashListed txt i h = false ∧ Unlisted txt i h) :
    ∃ h user, fileContent txt i f = .send (fileRecord i.event h user) := by
  rcases fileContent_cases txt hstat hdir with
    ⟨-, -, heq⟩ | ⟨-, ⟨h, hh, hlisted, -⟩ | ⟨h, hh, -, heq⟩ | ⟨-, heq⟩⟩
  · exact absurd heq hno
  · rw [(hhash h hh).1] at hlisted
    cases hlisted
  · rw [heq] at hno ⊢
    exact ⟨h, fileOwner_eq (hhash h hh).2 hno⟩
  · rw [heq] at hno ⊢
    exact ⟨[], fileOwner_eq hun hno⟩

theorem fileTurn_of_not_noted (h : ¬ Noted txt i) : fileTurn txt i = .skip := by
  rw [fileTurn]
  by_cases hlisted : nameListed txt i.cfg i.event = true
  · exact if_pos hlisted
  rw [if_neg hlisted, if_pos]
  by_contra hname
  exact h ⟨Bool.eq_false_of_not_eq_true hlisted, hname⟩

theorem fileTurn_of_noted (h : Noted txt i) :
    fileTurn txt i =
      match i.views.stat with
      | none => sendFile txt i [] []
      | some f => if f.isDir then sendFile txt i [] [] else fileContent txt i f := by
  rw [fileTurn]
  exact (if_neg (Bool.eq_false_iff.mp h.1)).trans (if_neg h.2)

/-! ## What is sent is not filtered -/

theorem fileRecord_hash (e : FileEvent) (h user : GoString) :
    (fileRecord e h user).get (str "hash") = h := by
  have hne : str "hash" ≠ str "user" := by decide
  rw [fileRecord, Record.get_insert_ne _ hne, Record.get_insert]

theorem sendFile_eq_send {h user : GoString} {r : Record} (hsend : sendFile txt i h user = .send r) :
    r = fileRecord i.event h user ∧ isFileWhite txt i.cfg.filterFile r = false := by
  rw [sendFile] at hsend
  split_ifs at hsend with hwhite
  obtain rfl := Turn.send.inj hsend
  exact ⟨rfl, Bool.eq_false_iff.mpr hwhite⟩

theorem fileOwner_eq_send {h : GoString} {r : Record} (hsend : fileOwner txt i h = .send r) :
    ∃ user, r = fileRecord i.event h user ∧ isFileWhite txt i.cfg.filterFile r = false := by
  rw [fileOwner] at hsend
  split at hsend
  · cases hsend
  · exact ⟨_, sendFile_eq_send hsend⟩
  · exact ⟨_, sendFile_eq_send hsend⟩

theorem fileFiltered_fileRecord {h user : GoString} (hnoted : Noted txt i)
    (hhash : h = [] ∨ hashListed txt i h = false)
    (hwhite : isFileWhite txt i.cfg.filterFile (fileRecord i.event h user) = false) :
    fileFiltered txt i.cfg.filterFile (fileRecord i.event h user) = false := by
  have hname := hnoted.1
  rw [nameListed, Bool.or_eq_false_iff] at hname
  rw [fileFiltered, fileRecord_path, fileRecord_hash, hwhite, hname.2]
  rcases hhash with rfl | hlisted
  · rfl
  · rw [hashListed] at hlisted
    simp [hlisted]

/-- A record that the monitor sends is none that the list filters. -/
theorem fileFiltered_of_send {r : Record} (hsend : fileTurn txt i = .send r) :
    fileFiltered txt i.cfg.filterFile r = false := by
  by_cases hnoted : Noted txt i
  swap
  · rw [fileTurn_of_not_noted hnoted] at hsend
    cases hsend
  rw [fileTurn_of_noted hnoted] at hsend
  cases hstat : i.views.stat with
  | none =>
    rw [hstat] at hsend
    obtain ⟨rfl, hwhite⟩ := sendFile_eq_send hsend
    exact fileFiltered_fileRecord hnoted (Or.inl rfl) hwhite
  | some f =>
    simp only [hstat] at hsend
    cases hdir : f.isDir with
    | true =>
      rw [hdir, if_pos rfl] at hsend
      obtain ⟨rfl, hwhite⟩ := sendFile_eq_send hsend
      exact fileFiltered_fileRecord hnoted (Or.inl rfl) hwhite
    | false =>
      rw [hdir, if_neg Bool.false_ne_true] at hsend
      rcases fileContent_cases txt hstat hdir with
        ⟨-, -, heq⟩ | ⟨-, ⟨h, -, -, heq⟩ | ⟨h, -, hlisted, heq⟩ | ⟨-, heq⟩⟩
      · rw [heq] at hsend
        cases hsend
      · rw [heq] at hsend
        cases hsend
      · rw [heq] at hsend
        obtain ⟨user, rfl, hwhite⟩ := fileOwner_eq_send hsend
        exact fileFiltered_fileRecord hnoted (Or.inr hlisted) hwhite
      · rw [heq] at hsend
        obtain ⟨user, rfl, hwhite⟩ := fileOwner_eq_send hsend
        exact fileFiltered_fileRecord hnoted (Or.inl rfl) hwhite

/-! ## Events that are answered -/

/-- There is nothing to check for a path that shows no file other than a directory. -/
theorem viewsOk_of_isDir (h : ∀ f, i.views.stat = some f → f.isDir = true) : ViewsOk txt i := by
  refine ⟨fun f hf hdir => ?_, fun f hf hdir => ?_⟩
  · rw [h f hf] at hdir
    cases hdir
  · rw [h f hf] at hdir
    cases hdir

theorem fileTurn_handled_iff (i : FileInput) :
    Handled txt i (fileTurn txt i) ↔ (Noted txt i → ViewsOk txt i) := by
  by_cases hnoted : Noted txt i
  · rw [fileTurn_of_noted hnoted]
    cases hstat : i.views.stat with
    | none =>
      refine iff_of_true ⟨sendFile_ne_panic _ _, fun _ hun _ => ?_⟩ fun _ => viewsOk_of_isDir ?_
      · exact reported_of_eq (sendFile_eq hun [])
      · intro f hf
        rw [hstat] at hf
        cases hf
    | some f =>
      simp only
      cases hdir : f.isDir with
      | true =>
        refine iff_of_true ⟨sendFile_ne_panic _ _, fun _ hun _ => ?_⟩ fun _ => viewsOk_of_isDir ?_
        · exact reported_of_eq (sendFile_eq hun [])
        · intro f' hf'
          rw [hstat, Option.some.injEq] at hf'
          rwa [← hf']
      | false =>
        rw [if_neg Bool.false_ne_true]
        constructor
        · exact fun h _ => (fileContent_ne_panic_iff hstat hdir).mp h.no_panic
        · intro hok
          have hno := (fileContent_ne_panic_iff hstat hdir).mpr (hok hnoted)
          refine ⟨hno, fun _ hun hhash => ?_⟩
          obtain ⟨h, user, heq⟩ := fileContent_reported hstat hdir hno hun hhash
          exact reported_of_eq heq
  · rw [fileTurn_of_not_noted hnoted]
    exact iff_of_true ⟨Turn.noConfusion, fun h => absurd h hnoted⟩ fun h => absurd h hnoted

end Events

/-- The iterations of a loop that answer their messages: all of them, if no message is answered by a
panic. -/
theorem forall₂_turnsOf_iff {δ : Type} {turn : δ → Turn} {R : δ → Turn → Prop}
    (hpanic : ∀ d, ¬ R d .panic) {messages : List δ} :
    List.Forall₂ R messages (turnsOf turn messages) ↔ ∀ d ∈ messages, R d (turn d) := by
  induction messages with
  | nil => simp [turnsOf]
  | cons d ds ih =>
    rw [turnsOf, List.forall_mem_cons]
    cases hturn : turn d with
    | panic =>
      exact iff_of_false (fun h => hpanic d (List.forall₂_cons.mp h).1) fun h => hpanic d h.1
    | skip => exact List.forall₂_cons.trans (and_congr_right fun _ => ih)
    | send r => exact List.forall₂_cons.trans (and_congr_right fun _ => ih)

/-- The loop answers every event of a sequence if and only if every event that passes the tests of
its name finds its file and the passwd file in order. -/
theorem file_events_handled_iff (txt : TextLib) (inputs : List FileInput) :
    List.Forall₂ (Handled txt) inputs (fileTurns txt inputs) ↔
      ∀ i ∈ inputs, Noted txt i → ViewsOk txt i := by
  rw [fileTurns, forall₂_turnsOf_iff fun i h => h.no_panic rfl]
  exact forall₂_congr fun i _ => fileTurn_handled_iff i

/-- A new file that is there for the loop and gone for `getFileMD5`. -/
def vanished : FileInput where
  cfg := ⟨[str "/web"], []⟩
  event := ⟨str "/web/a.php", str "CREATE"⟩
  views := ⟨some ⟨10, false⟩, none, none, 0, some (str "root:x:0:0:root:/root:/bin/sh
")⟩

/-- The loop ends in a panic, before the next event. -/
theorem file_event_crashes : fileTurns plainText [vanished, vanished] = [.panic] := by
  rfl

end YulongHids.Agent
