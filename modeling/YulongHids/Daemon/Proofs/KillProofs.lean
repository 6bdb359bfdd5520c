import YulongHids.Daemon.Proofs.TaskProofs
import YulongHids.Golang.Proofs.StringsProofs

/-!
# Proofs: the command of the kill task

The class of the pattern lacks the digits from 2 on. A name that is accepted has only bytes that mean
nothing to a shell.
-/

namespace YulongHids.Daemon

open Golang

variable {env : TaskEnv} {s : GoString}

/-! ## The pattern -/

/-- What holds of the 256 bytes holds of every byte. -/
theorem forall_byte {p : UInt8 → Prop} (h : ∀ n : Fin 256, p ⟨⟨n⟩⟩) (b : UInt8) : p b :=
  h b.toBitVec.toFin

/-- The pattern's class is the plain bytes without eight digits. -/
theorem nameByte_iff (b : UInt8) : nameByte b = true ↔ plainByte b = true ∧ ¬ (50 ≤ b ∧ b ≤ 57) := by
  revert b
  apply forall_byte
  decide +kernel

theorem nameMatches_iff :
    nameMatches s = true ↔ PlainName s ∧ ∀ b ∈ s, ¬ (50 ≤ b ∧ b ≤ 57) := by
  rw [nameMatches, Bool.and_eq_true, bne_iff_ne, List.all_eq_true, PlainName, and_assoc]
  refine and_congr_right fun _ => ?_
  constructor
  · intro h
    exact ⟨fun b hb => ((nameByte_iff b).mp (h b hb)).1, fun b hb => ((nameByte_iff b).mp (h b hb)).2⟩
  · rintro ⟨hplain, hdigit⟩ b hb
    exact (nameByte_iff b).mpr ⟨hplain b hb, hdigit b hb⟩

theorem killArgs_eq_some_iff {args : List GoString} :
    killArgs env s = some args ↔
      nameMatches s = true ∧ cmdArgs env.windows (killCommand env s) = args := by
  unfold killArgs
  by_cases h : nameMatches s = true
  · rw [if_pos h, Option.some.injEq, and_iff_right h]
  · rw [if_neg h]
    exact iff_of_false (by simp) fun hargs => h hargs.1

/-- `KillProcess` returns what the command prints, if there is one. -/
theorem killProcess_eq :
    killProcess env s =
      if (killArgs env s).isSome then (cmdExec env (killCommand env s)).1 else [] := by
  unfold killProcess killArgs
  cases nameMatches s with
  | true => rfl
  | false => rfl

/-! ## The line -/

/-- The plain bytes stand for themselves in both shells. -/
theorem ordinary_of_plainByte (b : UInt8) (h : plainByte b = true) :
    Shell.ordinary Shell.posixSpecial b = true ∧ Shell.ordinary Shell.cmdSpecial b = true ∧
      b ≠ 32 := by
  revert b
  apply forall_byte
  decide +kernel

section Line

variable (hplain : PlainName s)

include hplain

theorem not_mem_blank : (32 : UInt8) ∉ s := by
  intro hmem
  exact (ordinary_of_plainByte 32 (hplain.2 32 hmem)).2.2 rfl

/-- The line for `/bin/sh`: `s` is the last word of the substitution. -/
theorem posixWords_killCommand :
    Shell.posixWords (str "kill -9 $(pidof " ++ s ++ str ")") =
      some [.text (str "kill"), .text (str "-9"), .substitution [str "pidof", s]] := by
  have houter : Shell.plainWords Shell.posixSpecial (str "kill -9") = some [str "kill", str "-9"] := by
    decide +kernel
  have hpidof : Shell.plainWords Shell.posixSpecial (str "pidof") = some [str "pidof"] := by
    decide +kernel
  have hinner := Shell.plainWords_append_word hpidof hplain.1
    fun b hb => (ordinary_of_plainByte b (hplain.2 b hb)).1
  have hline := Shell.posixWords_substitution houter hinner
  have heq : str "kill -9 $(pidof " ++ s ++ str ")" =
      str "kill -9" ++ 32 :: 36 :: 40 :: ((str "pidof" ++ 32 :: s) ++ [41]) := by
    have hopen : str "kill -9 $(pidof " = str "kill -9" ++ 32 :: 36 :: 40 :: (str "pidof" ++ [32]) := by
      decide +kernel
    have hclose : str ")" = [41] := by decide +kernel
    rw [hopen, hclose]
    simp
  rw [heq, hline]
  rfl

/-- The arguments for `cmd.exe`, and the line they make. -/
theorem cmdWords_killCommand :
    cmdArgs true (str "taskkill.exe /f /im " ++ s) =
        [str "cmd", str "/c", str "taskkill.exe", str "/f", str "/im", s] ∧
      Shell.cmdWords (join [str "cmd", str "/c", str "taskkill.exe", str "/f", str "/im", s]
        (str " ")) = some [str "cmd", str "/c", str "taskkill.exe", str "/f", str "/im", s] := by
  constructor
  · have hsplit : split (str "/c taskkill.exe /f /im") 32 =
        [str "/c", str "taskkill.exe", str "/f", str "/im"] := by decide +kernel
    have heq : str "/c " ++ (str "taskkill.exe /f /im " ++ s) =
        str "/c taskkill.exe /f /im" ++ 32 :: s := by
      have hopen : str "/c " ++ str "taskkill.exe /f /im " = str "/c taskkill.exe /f /im" ++ [32] := by
        decide +kernel
      rw [← List.append_assoc, hopen]
      simp
    rw [cmdArgs, if_pos rfl, heq, split_append_cons, hsplit, split_eq_singleton (not_mem_blank hplain)]
    rfl
  · have hline : Shell.plainWords Shell.cmdSpecial (str "cmd /c taskkill.exe /f /im") =
        some [str "cmd", str "/c", str "taskkill.exe", str "/f", str "/im"] := by decide +kernel
    have hword := Shell.plainWords_append_word hline hplain.1
      fun b hb => (ordinary_of_plainByte b (hplain.2 b hb)).2.1
    have heq : join [str "cmd", str "/c", str "taskkill.exe", str "/f", str "/im", s] (str " ") =
        str "cmd /c taskkill.exe /f /im" ++ 32 :: s := by
      have hopen : str "cmd" ++ str " " ++ str "/c" ++ str " " ++ str "taskkill.exe" ++ str " " ++
          str "/f" ++ str " " ++ str "/im" ++ str " " = str "cmd /c taskkill.exe /f /im" ++ [32] := by
        decide +kernel
      rw [show str "cmd /c taskkill.exe /f /im" ++ 32 :: s =
        (str "cmd /c taskkill.exe /f /im" ++ [32]) ++ s by simp, ← hopen]
      simp [join, List.intercalate, List.intersperse]
    rw [heq]
    exact hword

end Line

theorem oneWord_of_killArgs {args : List GoString} (h : killArgs env s = some args) :
    OneWord env.windows args s := by
  obtain ⟨hname, hargs⟩ := killArgs_eq_some_iff.mp h
  have hplain := (nameMatches_iff.mp hname).1
  unfold killCommand at hargs
  cases hwin : env.windows with
  | true =>
    rw [hwin, if_pos rfl] at hargs
    obtain ⟨hsplit, hline⟩ := cmdWords_killCommand hplain
    rw [OneWord, if_pos rfl, ← hargs, hsplit]
    exact ⟨rfl, hline⟩
  | false =>
    rw [hwin, if_neg Bool.false_ne_true, cmdArgs, if_neg Bool.false_ne_true] at hargs
    rw [OneWord, if_neg Bool.false_ne_true, ← hargs]
    exact ⟨_, rfl, posixWords_killCommand hplain⟩

/-- The kill task does what it should for a text if and only if that is no plain name with a digit
from 2 to 9. -/
theorem killProcess_accepts_iff (env : TaskEnv) (s : GoString) :
    KillsPlainNames env s ↔ (PlainName s → ∀ b ∈ s, ¬ (50 ≤ b ∧ b ≤ 57)) := by
  have hruns : (∃ args, killArgs env s = some args) ↔ nameMatches s = true := by
    constructor
    · rintro ⟨args, hargs⟩
      exact (killArgs_eq_some_iff.mp hargs).1
    · intro hname
      exact ⟨_, killArgs_eq_some_iff.mpr ⟨hname, rfl⟩⟩
  constructor
  · intro h hplain
    exact (nameMatches_iff.mp (hruns.mp (h.runs.mpr hplain))).2
  · intro h
    refine ⟨?_, fun args => oneWord_of_killArgs⟩
    rw [hruns, nameMatches_iff]
    exact ⟨fun hname => hname.1, fun hplain => ⟨hplain, h hplain⟩⟩

/-- No command is run for `python3`. -/
theorem killProcess_refuses_digit :
    PlainName (str "python3") ∧ killArgs linuxHost (str "python3") = none ∧
      ¬ KillsPlainNames linuxHost (str "python3") := by
  have hplain : PlainName (str "python3") := by
    unfold PlainName
    decide +kernel
  have hnone : killArgs linuxHost (str "python3") = none := by decide +kernel
  refine ⟨hplain, hnone, fun h => ?_⟩
  obtain ⟨args, hargs⟩ := h.runs.mpr hplain
  rw [hnone] at hargs
  cases hargs

end YulongHids.Daemon
