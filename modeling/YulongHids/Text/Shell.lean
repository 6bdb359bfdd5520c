import YulongHids.Text.Words

/-!
# Command lines

How an interpreter reads a line that is one simple command: its words, separated by blanks, of which
one may be a command substitution that holds a simple command again. A line in which another byte has
a meaning of its own (a quote, an expansion, an operator, a newline) is not read at all.
-/

namespace YulongHids.Shell

open Text

abbrev Line := List UInt8

def blank (b : UInt8) : Bool := b == 32 || b == 9

/-- The bytes that stand for themselves: none that `special` holds, no blank and no newline. -/
def ordinary (special : List UInt8) (b : UInt8) : Bool :=
  !special.contains b && !blank b && b != 10 && b != 13 && b != 0

/-- The words of a line in which every byte stands for itself. -/
def plainWords (special : List UInt8) (line : Line) : Option (List Line) :=
  if line.all fun b => ordinary special b || blank b then some (fields blank line) else none

/-- What the POSIX shell gives a meaning: quotes, operators, expansions, patterns, comments, braces
and assignments. -/
def posixSpecial : List UInt8 := "|&;<>()$`\\\"'*?[]#~=%!{}^".toUTF8.data.toList

/-- What `cmd.exe` gives a meaning: quotes, operators, escapes, variables and separators. -/
def cmdSpecial : List UInt8 := "|&<>()^%!\"',;=`*?[]{}+~@\\".toUTF8.data.toList

inductive Word where
  | text (word : Line)
  | substitution (words : List Line)
  deriving DecidableEq

/-- The words of a simple command of the POSIX shell that ends with a command substitution or has
none. -/
def posixWords (line : Line) : Option (List Word) :=
  match line.dropWhile (· ≠ 36) with
  | 36 :: 40 :: rest =>
    match plainWords posixSpecial (line.takeWhile (· ≠ 36)),
      plainWords posixSpecial (rest.takeWhile (· ≠ 41)) with
    | some words, some inner =>
      if (line.takeWhile (· ≠ 36)).getLast?.all blank && rest.dropWhile (· ≠ 41) == [41] then
        some (words.map .text ++ [.substitution inner])
      else none
    | _, _ => none
  | _ => (plainWords posixSpecial line).map (·.map .text)

/-- The words that `cmd.exe` makes of a line. -/
def cmdWords (line : Line) : Option (List Line) := plainWords cmdSpecial line

section Plain

variable {special : List UInt8} {line w : Line} {words : List Line}

theorem plainWords_eq_some_iff :
    plainWords special line = some words ↔
      (∀ b ∈ line, (ordinary special b || blank b) = true) ∧ fields blank line = words := by
  unfold plainWords
  by_cases h : line.all (fun b => ordinary special b || blank b) = true
  · rw [if_pos h, Option.some.injEq, and_iff_right (List.all_eq_true.mp h)]
  · rw [if_neg h]
    refine iff_of_false (by simp) ?_
    rintro ⟨hall, -⟩
    exact h (List.all_eq_true.mpr hall)

theorem not_blank_of_ordinary {b : UInt8} (h : ordinary special b = true) : blank b = false := by
  by_contra hb
  rw [Bool.not_eq_false] at hb
  simp [ordinary, hb] at h

/-- A word behind a line and a blank. -/
theorem plainWords_append_word (hline : plainWords special line = some words) (hw : w ≠ [])
    (h : ∀ b ∈ w, ordinary special b = true) :
    plainWords special (line ++ 32 :: w) = some (words ++ [w]) := by
  obtain ⟨hall, hfields⟩ := plainWords_eq_some_iff.mp hline
  refine plainWords_eq_some_iff.mpr ⟨?_, ?_⟩
  · intro b hb
    rcases List.mem_append.mp hb with hb | hb
    · exact hall b hb
    rcases List.mem_cons.mp hb with rfl | hb
    · rw [show blank 32 = true from rfl, Bool.or_true]
    · rw [h b hb, Bool.true_or]
  · rw [fields_append_cons (show blank 32 = true from rfl), hfields,
      fields_word hw fun b hb => not_blank_of_ordinary (h b hb)]

theorem plainWords_append_blank (hline : plainWords special line = some words) :
    plainWords special (line ++ [32]) = some words := by
  obtain ⟨hall, hfields⟩ := plainWords_eq_some_iff.mp hline
  refine plainWords_eq_some_iff.mpr ⟨?_, ?_⟩
  · intro b hb
    rcases List.mem_append.mp hb with hb | hb
    · exact hall b hb
    · rw [List.mem_singleton.mp hb, show blank 32 = true from rfl, Bool.or_true]
  · rw [fields_append_space line (by simp [blank]), hfields]

/-- A byte with a meaning of its own is in no line that is read. -/
theorem not_mem_of_plainWords (hline : plainWords special line = some words) {b : UInt8}
    (hb : special.contains b = true) (hblank : blank b = false) : b ∉ line := by
  intro hmem
  have hord := (plainWords_eq_some_iff.mp hline).1 b hmem
  rw [hblank, Bool.or_false, ordinary, hb] at hord
  exact Bool.false_ne_true hord

end Plain

/-- A byte that does not occur before it is where a scan for it stops. -/
theorem takeWhile_ne_append {c : UInt8} {pre : Line} (h : ∀ b ∈ pre, b ≠ c) (post : Line) :
    (pre ++ c :: post).takeWhile (· ≠ c) = pre := by
  rw [List.takeWhile_append_of_pos (by simpa using h)]
  simp

theorem dropWhile_ne_append {c : UInt8} {pre : Line} (h : ∀ b ∈ pre, b ≠ c) (post : Line) :
    (pre ++ c :: post).dropWhile (· ≠ c) = c :: post := by
  rw [List.dropWhile_append_of_pos (by simpa using h)]
  simp

/-- A simple command whose last word is a substitution. -/
theorem posixWords_substitution {line inner : Line} {words vs : List Line}
    (hline : plainWords posixSpecial line = some words)
    (hinner : plainWords posixSpecial inner = some vs) :
    posixWords (line ++ 32 :: 36 :: 40 :: (inner ++ [41])) =
      some (words.map .text ++ [.substitution vs]) := by
  have hdollar : ∀ b ∈ line ++ [32], b ≠ 36 := by
    intro b hb
    rcases List.mem_append.mp hb with hb | hb
    · rintro rfl
      exact not_mem_of_plainWords hline (by decide) rfl hb
    · rw [List.mem_singleton.mp hb]
      decide
  have hclose : ∀ b ∈ inner, b ≠ 41 := by
    rintro b hb rfl
    exact not_mem_of_plainWords hinner (by decide) rfl hb
  have hpre := plainWords_append_blank hline
  have hsplit : line ++ 32 :: 36 :: 40 :: (inner ++ [41]) =
      (line ++ [32]) ++ 36 :: 40 :: (inner ++ [41]) := by simp
  have htake := takeWhile_ne_append hdollar (40 :: (inner ++ [41]))
  have hdrop := dropWhile_ne_append hdollar (40 :: (inner ++ [41]))
  have htake' := takeWhile_ne_append hclose []
  have hdrop' := dropWhile_ne_append hclose []
  unfold posixWords
  rw [hsplit, hdrop]
  simp only [htake, htake', hdrop', hpre, hinner]
  rw [if_pos]
  simp [blank]

end YulongHids.Shell
