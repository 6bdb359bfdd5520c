import YulongHids.Golang.Strings

/-!
# Patterns of one text

The part of the syntax of `regexp` that consists of `^`, characters that stand for themselves, and
`$`. A character with a meaning in patterns stands for itself behind a backslash. Such a pattern
matches one text; texts are valid UTF-8 here, so they are strings.
-/

namespace YulongHids.Golang

/-- The characters with a meaning in patterns. -/
def specialChars : List Char :=
  ['\\', '.', '+', '*', '?', '(', ')', '|', '[', ']', '\x7b', '\x7d', '^', '$']

/-- A backslash makes a character of ASCII stand for itself if it is no letter or digit. -/
def escapable (c : Char) : Bool := c.toNat < 128 && !c.isAlphanum

/-- The characters that a pattern stands for, from behind the `^` to the `$` at its end. -/
def literalItems : List Char → Option (List Char)
  | [] => none
  | ['$'] => some []
  | '\\' :: c :: rest => if escapable c then (literalItems rest).map (c :: ·) else none
  | c :: rest => if specialChars.contains c then none else (literalItems rest).map (c :: ·)

/-- The text that a pattern of this kind matches. -/
def literalText (pattern : String) : Option String :=
  match pattern.toList with
  | '^' :: rest => (literalItems rest).map String.ofList
  | _ => none

/-- What `strings.ToLower` and `regexp.Compile` do with texts: lower-casing is a function on texts
that does nothing to its results, and a pattern of one text matches that text. -/
structure TextLib.OnTexts (txt : TextLib) (lower : String → String) : Prop where
  toLower_str : ∀ s, txt.toLower (str s) = str (lower s)
  lower_lower : ∀ s, lower (lower s) = lower s
  compile_literal : ∀ pattern text, literalText pattern = some text →
    ∃ re, txt.compile (str pattern) = some re ∧
      ∀ subject, re (str subject) = true ↔ subject = text

/-- The text of a byte string, if it is one. -/
def text? (s : GoString) : Option String := String.fromUTF8? ⟨⟨s⟩⟩

theorem text?_str (s : String) : text? (str s) = some s := by
  rw [text?, String.fromUTF8?, dif_pos (show ByteArray.IsValidUTF8 ⟨⟨str s⟩⟩ from s.isValidUTF8)]
  rfl

/-- The text functions on patterns of one text, with the lower-casing of ASCII. -/
def literalLib : TextLib where
  toLower s := ((text? s).map fun t => str (t.map Char.toLower)).getD s
  compile pattern := ((text? pattern).bind literalText).map fun text subject => subject == str text

theorem toLower_toLower (c : Char) : c.toLower.toLower = c.toLower := by
  by_cases h : c.val ≥ 'A'.val ∧ c.val ≤ 'Z'.val
  · have hlow : c.toLower.val = c.val + 32 := congrArg Char.val (dif_pos h)
    have hnot : ¬ (c.toLower.val ≥ 'A'.val ∧ c.toLower.val ≤ 'Z'.val) := by
      rw [hlow]
      simp only [ge_iff_le, UInt32.le_iff_toNat_le, UInt32.toNat_add] at h ⊢
      have hA : 'A'.val.toNat = 65 := rfl
      have hZ : 'Z'.val.toNat = 90 := rfl
      have h32 : (32 : UInt32).toNat = 32 := rfl
      omega
    exact dif_neg hnot
  · have hlow : c.toLower = c := dif_neg h
    rw [hlow, hlow]

theorem literalLib_onTexts : literalLib.OnTexts (String.map Char.toLower) where
  toLower_str s := by simp [literalLib, text?_str]
  lower_lower s := by
    rw [String.map_map]
    congr 1
    funext c
    exact toLower_toLower c
  compile_literal pattern text h := by
    refine ⟨fun subject => subject == str text, ?_, fun subject => ?_⟩
    · simp [literalLib, text?_str, h]
    · simp

end YulongHids.Golang
