import Mathlib.Data.List.TakeWhile
import Mathlib.Tactic

/-!
# Blocks of type 1

The layout of a padded message, `00 01 FF … FF 00` and the message, with at least eight bytes of
padding, and what a scan for the separator finds in a block.
-/

namespace YulongHids.Rsa

/-- `d` is a block of type 1 around `msg`. -/
def IsBlock (d msg : List UInt8) : Prop :=
  ∃ n ≥ 8, d = 0 :: 1 :: (List.replicate n 255 ++ 0 :: msg)

/-- The scan stops at the first zero behind the padding. -/
theorem dropWhile_padding (n : ℕ) (msg : List UInt8) :
    (List.replicate n 255 ++ 0 :: msg).dropWhile (· ≠ 0) = 0 :: msg := by
  simp

theorem takeWhile_padding (n : ℕ) (msg : List UInt8) :
    (List.replicate n 255 ++ 0 :: msg).takeWhile (· ≠ 0) = List.replicate n 255 := by
  simp

/-- The head of what is left by the scan is a zero. -/
theorem dropWhile_head_zero {rest : List UInt8} {b : UInt8} {msg : List UInt8}
    (h : rest.dropWhile (· ≠ 0) = b :: msg) : b = 0 := by
  have hb := List.head?_dropWhile_not (fun x : UInt8 => decide (x ≠ 0)) rest
  rw [h] at hb
  simpa using hb

/-- A block of type 1, seen by the scan: the second byte is 1, and what the scan passes over is all
padding and long enough. -/
theorem isBlock_iff {d1 b : UInt8} {rest msg : List UInt8}
    (h : rest.dropWhile (· ≠ 0) = b :: msg) :
    IsBlock (0 :: d1 :: rest) msg ↔
      d1 = 1 ∧ (∀ x ∈ rest.takeWhile (· ≠ 0), x = 255) ∧ 8 ≤ (rest.takeWhile (· ≠ 0)).length := by
  have hb := dropWhile_head_zero h
  subst hb
  have hrest : rest.takeWhile (· ≠ 0) ++ 0 :: msg = rest := by
    rw [← h]
    exact List.takeWhile_append_dropWhile ..
  constructor
  · rintro ⟨n, hn, heq⟩
    rw [List.cons.injEq, List.cons.injEq] at heq
    obtain ⟨-, rfl, rfl⟩ := heq
    rw [takeWhile_padding]
    exact ⟨rfl, fun x hx => List.eq_of_mem_replicate hx, by simpa using hn⟩
  · rintro ⟨rfl, hpad, hlen⟩
    refine ⟨_, hlen, ?_⟩
    rw [← List.eq_replicate_of_mem hpad, hrest]

end YulongHids.Rsa
