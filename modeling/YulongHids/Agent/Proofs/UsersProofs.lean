import YulongHids.Agent.Users
import YulongHids.Golang.Proofs.StringsProofs

/-!
# Proofs: accounts on Linux

The text of a passwd file ends with a newline, so the list of its lines has one empty line at its end
and cutting two leaves the last account out.
-/

namespace YulongHids.Agent

open Golang

/-! ## Account lines -/

section Line

variable (a : Account)

theorem Account.part {s : GoString} (hs : s ∈ a.parts) : IsAccountPart s := by
  have huid : IsAccountPart (itoa a.uid.toNat) :=
    ⟨not_mem_itoa (by decide), not_mem_itoa (by decide)⟩
  have hformed := a.formed
  simp only [List.forall_mem_cons, List.not_mem_nil, false_imp_iff, implies_true, and_true]
    at hformed
  simp only [Account.parts, List.mem_cons, List.not_mem_nil, or_false] at hs
  rcases hs with rfl | rfl | rfl | rfl | rfl | rfl | rfl <;> tauto

theorem Account.split_line : split a.line 58 = a.parts :=
  split_join (fun _ hf => (a.part hf).1) (List.cons_ne_nil _ _)

theorem Account.newline_not_mem : 10 ∉ a.line := by
  intro h
  rcases mem_join h with h | ⟨f, hf, hb⟩
  · exact absurd (List.mem_singleton.mp h) (by decide)
  · exact (a.part hf).2 hb

theorem Account.splitN_line : splitN a.line 58 2 = [a.record.name, a.record.description] := by
  have hname : 58 ∉ a.name := (a.part List.mem_cons_self).1
  have hline : a.line = a.name ++ 58 :: a.record.description := by
    rw [Account.line, Account.record, Account.parts, join, join, List.intercalate_cons_cons]
    simp
  rw [hline, splitN_append_cons hname]
  rfl

end Line

theorem itoa_inj {n m : ℕ} (hn : n < 2 ^ 64) (hm : m < 2 ^ 64) (h : itoa n = itoa m) : n = m := by
  have hval := parseUint_itoa hn
  rw [h, parseUint_itoa hm] at hval
  exact (Except.ok.inj hval).symm

/-- The text of a number that does not fit into an `int` is that of a negative one. -/
theorem itoa_eq_uidStr_iff {n uid : UInt32} :
    itoa n.toNat = uidStr uid ↔ n = uid ∧ uid.toNat < 2 ^ 31 := by
  have hn := n.toNat_lt
  have hu := uid.toNat_lt
  rw [uidStr]
  split
  · next hlt =>
    constructor
    · intro h
      exact ⟨UInt32.toNat_inj.mp (itoa_inj (by omega) (by omega) h), hlt⟩
    · rintro ⟨rfl, -⟩
      rfl
  · next hge =>
    refine iff_of_false (fun h => ?_) fun h => hge h.2
    have hmem : (45 : UInt8) ∈ itoa n.toNat := by
      rw [h]
      exact List.mem_cons_self
    exact not_mem_itoa (by decide) hmem

/-! ## The two loops on account lines -/

theorem userLoop_lines (accounts : List Account) :
    userLoop (accounts.map Account.line) = some (loginAccounts accounts) := by
  induction accounts with
  | nil => rfl
  | cons a accounts ih =>
    rw [List.map_cons, userLoop, ← Account.nologin, loginAccounts]
    by_cases hno : a.nologin = true
    · rw [if_pos hno, ih, loginAccounts, List.filter_cons_of_neg (by simp [hno])]
    · rw [if_neg hno, Account.splitN_line, List.filter_cons_of_pos (by simp [hno]), List.map_cons]
      simp only [ih, Option.map_some]
      rfl

theorem findUser_lines (accounts : List Account) {uid : UInt32} :
    findUser (uidStr uid) (accounts.map Account.line) =
      if uid.toNat < 2 ^ 31 then ownerOf accounts uid else .error := by
  induction accounts with
  | nil => simp [findUser, ownerOf]
  | cons a accounts ih =>
    have hkey : a.parts.getD 2 [] = uidStr uid ↔ a.uid = uid ∧ uid.toNat < 2 ^ 31 :=
      itoa_eq_uidStr_iff
    rw [List.map_cons, findUser, Account.split_line]
    by_cases hsmall : uid.toNat < 2 ^ 31
    · rw [if_pos hsmall] at ih ⊢
      rw [ownerOf]
      by_cases huid : a.uid = uid
      · rw [if_pos ⟨show 3 ≤ 7 by decide, hkey.mpr ⟨huid, hsmall⟩⟩, List.find?_cons_of_pos (by simpa using huid)]
        rfl
      · rw [if_neg (fun h => huid (hkey.mp h.2).1), ih, ownerOf,
          List.find?_cons_of_neg (by simpa using huid)]
    · rw [if_neg hsmall] at ih ⊢
      rw [if_neg (fun h => hsmall (hkey.mp h.2).2), ih]

/-! ## Whole files -/

theorem split_passwdText (accounts : List Account) :
    split (passwdText accounts) 10 = accounts.map Account.line ++ [[]] := by
  induction accounts with
  | nil => rfl
  | cons a accounts ih =>
    have hcons : passwdText (a :: accounts) = a.line ++ 10 :: passwdText accounts := by
      simp [passwdText]
    rw [hcons, split_append_cons, split_eq_singleton a.newline_not_mem, ih]
    rfl

/-- What is left of the lines of a file with an account. -/
theorem take_split_passwdText (accounts : List Account) :
    (split (passwdText accounts) 10).take ((split (passwdText accounts) 10).length - 2) =
      accounts.dropLast.map Account.line := by
  rw [split_passwdText, List.length_append, List.length_map, List.length_singleton,
    List.take_append_of_le_length (by rw [List.length_map]; omega), List.dropLast_eq_take,
    List.map_take]
  rfl

theorem getUser_passwdText (accounts : List Account) :
    getUser (some (passwdText accounts)) = some (loginAccounts accounts.dropLast) := by
  simp only [getUser, take_split_passwdText, userLoop_lines]
  split
  · next hlen =>
    rw [split_passwdText, List.length_append, List.length_map, List.length_singleton] at hlen
    obtain rfl : accounts = [] := List.length_eq_zero_iff.mp (by omega)
    rfl
  · rfl

theorem getFileUser_passwdText {accounts : List Account} (h : accounts ≠ []) (uid : UInt32) :
    getFileUser uid (some (passwdText accounts)) =
      if uid.toNat < 2 ^ 31 then ownerOf accounts.dropLast uid else .error := by
  have hlen : ¬ (split (passwdText accounts) 10).length < 2 := by
    have hpos := List.length_pos_iff.mpr h
    rw [split_passwdText, List.length_append, List.length_map, List.length_singleton]
    omega
  simp only [getFileUser, if_neg hlen, take_split_passwdText, findUser_lines]

theorem loginAccounts_concat (accounts : List Account) (a : Account) :
    loginAccounts (accounts ++ [a]) =
      loginAccounts accounts ++ if a.nologin then [] else [a.record] := by
  rw [loginAccounts, List.filter_append, List.map_append, loginAccounts]
  cases h : a.nologin <;> simp [h]

theorem getUser_iff (accounts : List Account) :
    getUser (some (passwdText accounts)) = some (loginAccounts accounts) ↔
      ∀ a, accounts.getLast? = some a → a.nologin = true := by
  rw [getUser_passwdText, Option.some.injEq]
  rcases List.eq_nil_or_concat' accounts with rfl | ⟨init, a, rfl⟩
  · exact iff_of_true rfl (by simp)
  · rw [List.dropLast_concat, List.getLast?_concat, loginAccounts_concat]
    cases h : a.nologin <;> simp [h]

/-- The account of an owner is found among the accounts without the last one if it is there. -/
theorem ownerOf_dropLast_iff {accounts : List Account} {uid : UInt32} :
    ownerOf accounts.dropLast uid = ownerOf accounts uid ↔
      ((∃ a ∈ accounts, a.uid = uid) → ∃ a ∈ accounts.dropLast, a.uid = uid) := by
  rcases List.eq_nil_or_concat' accounts with rfl | ⟨init, a, rfl⟩
  · simp
  rw [List.dropLast_concat, ownerOf, ownerOf, List.find?_append]
  cases hfind : init.find? fun a => a.uid = uid with
  | some b =>
    have hb := List.find?_some hfind
    exact iff_of_true rfl fun _ => ⟨b, List.mem_of_find?_eq_some hfind, by simpa using hb⟩
  | none =>
    have hno : ¬ ∃ b ∈ init, b.uid = uid := by
      rintro ⟨b, hb, huid⟩
      exact absurd (List.find?_eq_none.mp hfind b hb) (by simpa using huid)
    by_cases huid : a.uid = uid
    · refine iff_of_false ?_ fun h => hno (h ⟨a, by simp, huid⟩)
      simp [huid]
    · refine iff_of_true (by simp [huid]) ?_
      rintro ⟨b, hb, hbuid⟩
      rcases List.mem_append.mp hb with hb | hb
      · exact ⟨b, hb, hbuid⟩
      · rw [List.mem_singleton.mp hb] at hbuid
        exact absurd hbuid huid

theorem getFileUser_iff (accounts : List Account) (uid : UInt32) :
    getFileUser uid (some (passwdText accounts)) = ownerOf accounts uid ↔
      accounts ≠ [] ∧ ((∃ a ∈ accounts, a.uid = uid) →
        uid.toNat < 2 ^ 31 ∧ ∃ a ∈ accounts.dropLast, a.uid = uid) := by
  by_cases hnil : accounts = []
  · subst hnil
    refine iff_of_false ?_ fun h => h.1 rfl
    show ¬ FileUser.panic = .error
    decide
  rw [getFileUser_passwdText hnil]
  by_cases hsmall : uid.toNat < 2 ^ 31
  · rw [if_pos hsmall, ownerOf_dropLast_iff]
    constructor
    · exact fun h => ⟨hnil, fun howner => ⟨hsmall, h howner⟩⟩
    · exact fun h howner => (h.2 howner).2
  · rw [if_neg hsmall, ownerOf]
    cases hfind : accounts.find? fun a => a.uid = uid with
    | none =>
      refine iff_of_true rfl ⟨hnil, ?_⟩
      rintro ⟨a, ha, huid⟩
      exact absurd (List.find?_eq_none.mp hfind a ha) (by simpa using huid)
    | some a =>
      have ha := List.find?_some hfind
      refine iff_of_false (by simp) fun h => hsmall (h.2 ⟨a, List.mem_of_find?_eq_some hfind, ?_⟩).1
      simpa using ha

/-- `GetUser` overlooks no account if and only if the last one has no login, and `getFileUser` finds
the owner of a file if and only if an account before the last one has its number, when there is one,
and the number fits into an `int`. -/
theorem accounts_overlooked_iff (accounts : List Account) :
    (getUser (some (passwdText accounts)) = some (loginAccounts accounts) ↔
      ∀ a, accounts.getLast? = some a → a.nologin = true) ∧
    ∀ uid, getFileUser uid (some (passwdText accounts)) = ownerOf accounts uid ↔
      accounts ≠ [] ∧ ((∃ a ∈ accounts, a.uid = uid) →
        uid.toNat < 2 ^ 31 ∧ ∃ a ∈ accounts.dropLast, a.uid = uid) :=
  ⟨getUser_iff accounts, getFileUser_iff accounts⟩

def rootAccount : Account where
  name := str "root"
  password := str "x"
  uid := 0
  gid := str "0"
  gecos := str "root"
  home := str "/root"
  shell := str "/bin/bash"
  formed := by unfold IsAccountPart; decide

/-- The last account of a file, and here the only one, is neither listed nor found. -/
theorem root_overlooked :
    passwdText [rootAccount] = str "root:x:0:0:root:/root:/bin/bash\n" ∧
      getUser (some (passwdText [rootAccount])) = some [] ∧
      loginAccounts [rootAccount] = [⟨str "root", str "x:0:0:root:/root:/bin/bash"⟩] ∧
      getFileUser 0 (some (passwdText [rootAccount])) = .error ∧
      ownerOf [rootAccount] 0 = .found (str "root") := by
  refine ⟨?_, ?_, ?_, ?_, ?_⟩ <;> decide +kernel

end YulongHids.Agent
