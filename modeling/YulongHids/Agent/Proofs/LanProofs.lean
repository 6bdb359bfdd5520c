import YulongHids.Agent.Lan
import YulongHids.Server.Proofs.IntelligenceProofs

/-!
# Proofs: internal addresses

On a dotted quad the six bounds of `isLan` are the first and last addresses of the three private
blocks, in the agent and in the server.
-/

namespace YulongHids.Agent

open Golang

section Quad

variable (a b c d : UInt8)

theorem addrBits_quad :
    addrBits [a, b, c, d] = a.toNat * 2 ^ 24 + b.toNat * 2 ^ 16 + c.toNat * 2 ^ 8 + d.toNat := by
  simp only [addrBits, List.map_cons, List.map_nil, List.reverse_cons, List.reverse_nil,
    List.nil_append, List.cons_append, Nat.ofDigits_cons, Nat.ofDigits_nil]
  push_cast
  ring

/-- The sum of the shifted octets does not overflow. -/
theorem ipToInt_dottedText : ipToInt (dottedText [a, b, c, d]) = some (addrBits [a, b, c, d] : ℤ) := by
  have hsplit : split (dottedText [a, b, c, d]) 46 = _ := split_dottedText (by simp)
  have hatoi : ∀ x : UInt8, (atoi (itoa x.toNat)).1 = x.toNat := by
    intro x
    have hx := x.toNat_lt
    rw [atoi_itoa (by omega)]
  have ha := a.toNat_lt
  have hb := b.toNat_lt
  have hc := c.toNat_lt
  have hd := d.toNat_lt
  simp only [ipToInt, hsplit, List.map_cons, hatoi, Option.some.injEq, addrBits_quad]
  rw [Int.bmod_eq_of_le] <;> push_cast <;> omega

theorem internal_iff_bounds :
    Internal [a, b, c, d] ↔
      (167772160 ≤ addrBits [a, b, c, d] ∧ addrBits [a, b, c, d] ≤ 184549375) ∨
      (2886729728 ≤ addrBits [a, b, c, d] ∧ addrBits [a, b, c, d] ≤ 2887778303) ∨
      (3232235520 ≤ addrBits [a, b, c, d] ∧ addrBits [a, b, c, d] ≤ 3232301055) := by
  have h10 : addrBits [10, 0, 0, 0] = 167772160 := by rw [addrBits_quad]; rfl
  have h172 : addrBits [172, 16, 0, 0] = 2886729728 := by rw [addrBits_quad]; rfl
  have h192 : addrBits [192, 168, 0, 0] = 3232235520 := by rw [addrBits_quad]; rfl
  unfold Internal InBlock
  rw [h10, h172, h192]
  omega

theorem agentIsLan_iff_internal :
    ∃ lan, isLan (dottedText [a, b, c, d]) = some lan ∧ (lan = true ↔ Internal [a, b, c, d]) := by
  refine ⟨_, by rw [isLan, ipToInt_dottedText, Option.map_some], ?_⟩
  rw [internal_iff_bounds]
  simp only [Bool.or_eq_true, Bool.and_eq_true, decide_eq_true_eq]
  omega

theorem serverIsLan_iff_internal :
    Server.isLan (dottedText [a, b, c, d]) = true ↔ Internal [a, b, c, d] := by
  rw [Server.isLan_dottedText rfl, internal_iff_bounds, addrBits_quad]
  have hb := b.toNat_lt
  have hc := c.toNat_lt
  have hd := d.toNat_lt
  simp only [Server.privateRange, Bool.or_eq_true, Bool.and_eq_true, decide_eq_true_eq, beq_iff_eq,
    ← UInt8.toNat_inj, UInt8.le_iff_toNat_le, UInt8.reduceToNat]
  omega

end Quad

/-- Agent and server call the same dotted quads internal, those of the three private blocks. -/
theorem isLan_agent_server (a b c d : UInt8) :
    isLan (dottedText [a, b, c, d]) = some (Server.isLan (dottedText [a, b, c, d])) ∧
      (Server.isLan (dottedText [a, b, c, d]) = true ↔ Internal [a, b, c, d]) := by
  have hserver := serverIsLan_iff_internal a b c d
  obtain ⟨lan, hlan, hagent⟩ := agentIsLan_iff_internal a b c d
  refine ⟨?_, hserver⟩
  rw [hlan, Option.some.injEq, Bool.eq_iff_iff, hagent, hserver]

end YulongHids.Agent
