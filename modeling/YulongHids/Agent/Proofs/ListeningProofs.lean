import YulongHids.Agent.Listening
import YulongHids.Agent.LoginLogLinux
import YulongHids.Agent.Proofs.UsersProofs

/-!
# Proofs: the collectors on any text

What `ss`, `lastb` and the passwd file must not contain, for each of the four collectors, if it is
not to panic.
-/

namespace YulongHids.Agent

open Golang

/-! ## The expression of the process column -/

theorem infix_of_eq {sep s a r : GoString} (h : s = a ++ (sep ++ r)) : sep <:+: s :=
  ⟨a, r, by rw [h, List.append_assoc]⟩

theorem infix_append_of_suffix {sep s a r t : GoString} (h : s = a ++ (sep ++ r)) (hs : s <:+ t) :
    ∃ a', t = a' ++ (sep ++ r) := by
  obtain ⟨u, rfl⟩ := hs
  exact ⟨u ++ a, by rw [h, List.append_assoc]⟩

/-- Cutting at the first occurrence leaves more than at any other. -/
theorem cut_of_eq (sep : GoString) {s t a r : GoString} (hsep : sep ≠ []) (h : s = a ++ (sep ++ r))
    (hs : s <:+ t) : ∃ b q, cut sep t = some (b, q) ∧ r <:+ q := by
  obtain ⟨a', ht⟩ := infix_append_of_suffix h hs
  obtain ⟨b, q, hcut⟩ := exists_cut (infix_of_eq ht)
  exact ⟨b, q, hcut, (cut_eq_some hsep hcut).2 a' r ht⟩

theorem usersSubmatch_isSome_iff {s : GoString} :
    (usersSubmatch s).isSome = true ↔ ShowsProcess s := by
  constructor
  · intro h
    obtain ⟨⟨name, users⟩, hmatch⟩ := Option.isSome_iff_exists.mp h
    simp only [usersSubmatch, Option.bind_eq_bind, Option.bind_eq_some_iff, Prod.exists] at hmatch
    obtain ⟨before, s1, h1, name', s2, h2, users', s3, h3, more, rest, h4, -⟩ := hmatch
    refine ⟨before, name', users', more, rest, ?_⟩
    rw [(cut_eq_some (by decide) h1).1, (cut_eq_some (by decide) h2).1,
      (cut_eq_some (by decide) h3).1, (cut_eq_some (by decide) h4).1]
  · rintro ⟨before, name, users, more, rest, rfl⟩
    obtain ⟨b1, q1, h1, hs1⟩ := cut_of_eq (str "users:((\"") (by decide) rfl (List.suffix_refl (before ++ _))
    obtain ⟨b2, q2, h2, hs2⟩ := cut_of_eq (str "\",") (by decide) rfl hs1
    obtain ⟨b3, q3, h3, hs3⟩ := cut_of_eq (str ",") (by decide) rfl hs2
    obtain ⟨b4, q4, h4, -⟩ := cut_of_eq (str ")") (by decide) rfl hs3
    rw [usersSubmatch, h1]
    simp [h2, h3, h4]

/-- The index behind the test for `=` is in range. -/
theorem listenPid_isSome (users : GoString) : ∃ pid, listenPid users = some pid := by
  rw [listenPid]
  split
  · next h =>
    have hmem : 61 ∈ users := (of_decide_eq_true h).subset (List.mem_singleton_self _)
    obtain ⟨f, t, rfl, hf⟩ := List.eq_append_cons_of_mem hmem
    exact ⟨t, by rw [splitN_append_cons hf]; rfl⟩
  · exact ⟨users, rfl⟩

/-! ## `GetListening` -/

/-- No record has the address of the line. -/
def Fresh (resultData : List ListenRecord) (info : GoString) : Prop :=
  ∀ r ∈ resultData, r.address ≠ addressOf info

section Loop

variable {info : GoString} {resultData : List ListenRecord} (lines : List GoString)

theorem any_address_iff :
    resultData.any (·.address == addressOf info) = true ↔ ¬ Fresh resultData info := by
  simp [Fresh]

theorem listenLoop_skip (h : Listens info → ¬ Fresh resultData info) :
    listenLoop (info :: lines) resultData = listenLoop lines resultData := by
  rw [listenLoop]
  by_cases hlocal : contains info (str "127.0.0.1") = true
  · rw [if_pos hlocal]
  rw [if_neg hlocal]
  by_cases hshort : (ssFields info).length < 6
  · exact if_pos hshort
  · have hdup := h ⟨Bool.eq_false_iff.mpr hlocal, not_lt.mp hshort⟩
    exact (if_neg hshort).trans (if_pos (any_address_iff.mpr hdup))

theorem listenLoop_take (h : Listens info) (hfresh : Fresh resultData info) :
    listenLoop (info :: lines) resultData =
      match usersSubmatch ((ssFields info).getD 5 []) with
      | none => none
      | some (name, users) =>
        match listenPid users with
        | none => none
        | some pid =>
          listenLoop lines (resultData ++ [⟨str "TCP", addressOf info, pid, name⟩]) := by
  have hnew : ¬ resultData.any (·.address == addressOf info) = true :=
    fun hany => any_address_iff.mp hany hfresh
  rw [listenLoop, if_neg (by rw [h.1]; exact Bool.false_ne_true)]
  exact (if_neg (not_lt.mpr h.2)).trans (if_neg hnew)

/-- A line that is looked at must show its process; its record then has the address of the line. -/
theorem listenLoop_cons (h : Listens info) (hfresh : Fresh resultData info) :
    (¬ ShowsProcess ((ssFields info).getD 5 []) ∧
        listenLoop (info :: lines) resultData = none) ∨
      (ShowsProcess ((ssFields info).getD 5 []) ∧ ∃ r, r.address = addressOf info ∧
        listenLoop (info :: lines) resultData = listenLoop lines (resultData ++ [r])) := by
  rw [listenLoop_take lines h hfresh, ← usersSubmatch_isSome_iff]
  cases usersSubmatch ((ssFields info).getD 5 []) with
  | none => exact Or.inl ⟨by simp, rfl⟩
  | some groups =>
    obtain ⟨pid, hpid⟩ := listenPid_isSome groups.2
    refine Or.inr ⟨rfl, ⟨str "TCP", addressOf info, pid, groups.1⟩, rfl, ?_⟩
    simp only [hpid]

theorem fresh_concat_iff {r : ListenRecord} {x : GoString} (hr : r.address = addressOf info) :
    Fresh (resultData ++ [r]) x ↔ Fresh resultData x ∧ addressOf info ≠ addressOf x := by
  rw [Fresh, List.forall_mem_append, List.forall_mem_singleton, hr, Fresh]

end Loop

/-- The first lines of new addresses show their processes. -/
def ShownFrom (lines : List GoString) (resultData : List ListenRecord) : Prop :=
  ∀ p info rest, lines = p ++ info :: rest → Listens info → Fresh resultData info →
    (∀ x ∈ p, Listens x → addressOf x ≠ addressOf info) → ShowsProcess ((ssFields info).getD 5 [])

theorem shownFrom_cons_iff {info : GoString} {lines : List GoString}
    {resultData : List ListenRecord} :
    ShownFrom (info :: lines) resultData ↔
      (Listens info → Fresh resultData info → ShowsProcess ((ssFields info).getD 5 [])) ∧
      ∀ p x rest, lines = p ++ x :: rest → Listens x → Fresh resultData x →
        (Listens info → addressOf info ≠ addressOf x) →
        (∀ y ∈ p, Listens y → addressOf y ≠ addressOf x) →
        ShowsProcess ((ssFields x).getD 5 []) := by
  constructor
  · intro h
    refine ⟨fun hl hf => h [] info lines rfl hl hf (by simp), ?_⟩
    intro p x rest hlines hl hf hinfo hp
    exact h (info :: p) x rest (by rw [hlines]; rfl) hl hf (List.forall_mem_cons.mpr ⟨hinfo, hp⟩)
  · rintro ⟨hhead, htail⟩ p x rest hlines hl hf hp
    rcases p with _ | ⟨y, p⟩
    · obtain ⟨rfl, -⟩ := List.cons.inj hlines
      exact hhead hl hf
    · obtain ⟨rfl, hrest⟩ := List.cons.inj hlines
      obtain ⟨hinfo, htailp⟩ := List.forall_mem_cons.mp hp
      exact htail p x rest hrest hl hf hinfo htailp

theorem listenLoop_isSome_iff (lines : List GoString) (resultData : List ListenRecord) :
    (listenLoop lines resultData).isSome = true ↔ ShownFrom lines resultData := by
  induction lines generalizing resultData with
  | nil => simp [listenLoop, ShownFrom]
  | cons info lines ih =>
    rw [shownFrom_cons_iff]
    by_cases hlook : Listens info ∧ Fresh resultData info
    · obtain ⟨hl, hf⟩ := hlook
      rcases listenLoop_cons lines hl hf with ⟨hhidden, hnone⟩ | ⟨hshown, r, hr, hrest⟩
      · rw [hnone]
        exact iff_of_false (by simp) fun h => hhidden (h.1 hl hf)
      · rw [hrest, ih, ShownFrom]
        simp only [fresh_concat_iff hr]
        constructor
        · intro h
          exact ⟨fun _ _ => hshown, fun p x rest hlines hx hfx hinfo hp =>
            h p x rest hlines hx ⟨hfx, hinfo hl⟩ hp⟩
        · intro h p x rest hlines hx hfx hp
          exact h.2 p x rest hlines hx hfx.1 (fun _ => hfx.2) hp
    · have hskip : Listens info → ¬ Fresh resultData info := not_and.mp hlook
      rw [listenLoop_skip lines hskip, ih]
      constructor
      · intro h
        refine ⟨fun hl hf => absurd hf (hskip hl), fun p x rest hlines hx hfx _ hp => ?_⟩
        exact h p x rest hlines hx hfx hp
      · intro h p x rest hlines hx hfx hp
        refine h.2 p x rest hlines hx hfx (fun hl hsame => ?_) hp
        -- the address of the line is that of a record
        refine hskip hl fun r hr => ?_
        rw [hsame]
        exact hfx r hr

theorem getListening_isSome_iff (out : GoString) :
    (getListening out).isSome = true ↔ ProcessesShown (ssLines out) := by
  have hall : ProcessesShown (ssLines out) ↔ ShownFrom (ssLines out) [] := by
    simp [ProcessesShown, ShownFrom, Fresh]
  rw [hall, getListening]
  split
  · next hlen =>
    have hnil : ssLines out = [] := by
      rw [ssLines, List.drop_eq_nil_iff, List.length_take]
      omega
    rw [hnil]
    simp [ShownFrom]
  · exact listenLoop_isSome_iff _ _

/-! ## The other three -/

theorem getLastb_isSome_iff (parseTime : GoString → ℤ) (out : GoString) :
    (getLastb parseTime out).isSome = true ↔ 2 ≤ out.count 10 := by
  have hlen := length_split out 10
  rw [getLastb]
  by_cases hshort : (split out 10).length < 3
  · rw [if_pos hshort]
    exact iff_of_false (by simp) (by omega)
  · rw [if_neg hshort]
    exact iff_of_true rfl (by omega)

theorem userLoop_isSome_iff (lines : List GoString) :
    (userLoop lines).isSome = true ↔
      ∀ info ∈ lines, contains info (str "/nologin") = false → 58 ∈ info := by
  induction lines with
  | nil => simp [userLoop]
  | cons info lines ih =>
    rw [userLoop, List.forall_mem_cons]
    by_cases hno : contains info (str "/nologin") = true
    · rw [if_pos hno, ih]
      simp [hno]
    · rw [if_neg hno]
      by_cases hcolon : 58 ∈ info
      · obtain ⟨f, t, rfl, hf⟩ := List.eq_append_cons_of_mem hcolon
        have hsplit : splitN (f ++ 58 :: t) 58 2 = [f, t] := splitN_append_cons hf t 0
        simp only [hsplit, Option.isSome_map, ih]
        exact ⟨fun h => ⟨fun _ => hcolon, h⟩, fun h => h.2⟩
      · have hsplit : splitN info 58 2 = [info] := by rw [splitN, if_neg hcolon]
        simp only [hsplit]
        exact iff_of_false (by simp) fun h => hcolon (h.1 (Bool.eq_false_iff.mpr hno))

/-- The lines that `GetUser` looks at. -/
def userLines (dat : GoString) : List GoString := (split dat 10).take ((split dat 10).length - 2)

theorem getUser_isSome_iff (dat : GoString) :
    (getUser (some dat)).isSome = true ↔
      ∀ info ∈ userLines dat, contains info (str "/nologin") = false → 58 ∈ info := by
  rw [getUser]
  split
  · next hlen =>
    have hnil : userLines dat = [] := by
      rw [userLines, List.take_eq_nil_iff]
      omega
    rw [hnil]
    simp
  · exact userLoop_isSome_iff _

theorem findUser_ne_panic (uid : GoString) (lines : List GoString) :
    findUser uid lines ≠ .panic := by
  induction lines with
  | nil => exact FileUser.noConfusion
  | cons info lines ih =>
    rw [findUser]
    split
    · exact FileUser.noConfusion
    · exact ih

theorem getFileUser_returns_iff (uid : UInt32) (dat : GoString) :
    getFileUser uid (some dat) ≠ .panic ↔ 10 ∈ dat := by
  have hlen := length_split dat 10
  rw [← List.count_pos_iff, getFileUser]
  split
  · exact iff_of_false (fun h => h rfl) (by omega)
  · exact iff_of_true (findUser_ne_panic _ _) (by omega)

/-- The collectors survive a text if and only if, for `ss`, the first line of every address shows its
process, for `lastb`, there are three lines, for `GetUser`, the lines it looks at have a colon, and
for `getFileUser`, there is a newline. -/
theorem linux_collectors_survive_iff (parseTime : GoString → ℤ) (uid : UInt32) (out dat : GoString) :
    ((getListening out).isSome = true ↔ ProcessesShown (ssLines out)) ∧
    ((getLastb parseTime out).isSome = true ↔ 2 ≤ out.count 10) ∧
    ((getUser (some dat)).isSome = true ↔
      ∀ info ∈ userLines dat, contains info (str "/nologin") = false → 58 ∈ info) ∧
    (getFileUser uid (some dat) ≠ .panic ↔ 10 ∈ dat) :=
  ⟨getListening_isSome_iff out, getLastb_isSome_iff parseTime out, getUser_isSome_iff dat,
    getFileUser_returns_iff uid dat⟩

/-- The output of `ss` for a program with a blank in its name. -/
def blankName : GoString :=
  str "State Recv-Q Send-Q Local Peer Process\n" ++
    str "LISTEN 0 128 *:80 *:* users:((\"my server\",pid=7,fd=3))\n"

/-- A program name with a blank, no output at all, a line without a colon, and an empty file. -/
theorem linux_collectors_panic :
    getListening blankName = none ∧
      getLastb (fun _ => 0) [] = none ∧
      getUser (some (str "root\nbin:x:1:1::/:/bin/sh\n")) = none ∧
      getFileUser 0 (some []) = .panic := by
  refine ⟨?_, ?_, ?_, ?_⟩ <;> decide +kernel

end YulongHids.Agent
