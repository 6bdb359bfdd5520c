import YulongHids.Golang.Net
import YulongHids.Golang.Proofs.StringsProofs

/-!
# Proofs: IP addresses

The text of an IPv4 address splits at its dots into the decimal numbers of its four bytes, and
parses to the address. The text of any other address has no dot.
-/

namespace YulongHids.Golang

/-! ## Dotted texts -/

theorem split_dottedText {p4 : List UInt8} (h : p4 ≠ []) :
    split (dottedText p4) 46 = p4.map fun b => itoa b.toNat := by
  refine split_join ?_ (by simpa using h)
  intro f hf
  obtain ⟨b, -, rfl⟩ := List.mem_map.mp hf
  exact not_mem_itoa (by decide)

theorem mem_dottedText {p4 : List UInt8} {c : UInt8} (h : c ∈ dottedText p4) :
    c = 46 ∨ (48 ≤ c ∧ c ≤ 57) := by
  rcases mem_join h with h | ⟨f, hf, hc⟩
  · exact Or.inl (List.mem_singleton.mp h)
  · obtain ⟨b, -, rfl⟩ := List.mem_map.mp hf
    exact Or.inr (itoa_digit hc)

theorem to4_ipv4 (a b c d : UInt8) : to4 (ipv4 a b c d) = some [a, b, c, d] := by
  simp [to4, ipv4, v4InV6Prefix]

theorem to4_length {ip : IP} {p4 : List UInt8} (h : to4 ip = some p4) : p4.length = 4 := by
  unfold to4 at h
  split at h
  · next h4 =>
    rw [← Option.some.inj h]
    exact h4
  · split at h
    · next h16 =>
      rw [← Option.some.inj h, List.length_drop, h16.1]
    · exact absurd h (by simp)

theorem string_of_to4 {ip : IP} {p4 : List UInt8} (h : to4 ip = some p4) :
    ip.string = dottedText p4 := by
  have hne : ip ≠ [] := by
    rintro rfl
    simp [to4] at h
  simp [IP.string, hne, h]

theorem string_ipv4 (a b c d : UInt8) : (ipv4 a b c d).string = dottedText [a, b, c, d] :=
  string_of_to4 (to4_ipv4 a b c d)

/-! ## The letters of a text -/

/-- A byte that is no hexadecimal digit and none of the other letters of the texts without a dot. -/
structure NoAddrLetter (c : UInt8) : Prop where
  hex : ∀ n < 16, hexDigit n ≠ c
  other : c ∉ str "<nil>:?"

section Letters

variable {c : UInt8} (hc : NoAddrLetter c)

include hc

theorem not_mem_hexText (n : ℕ) : c ∉ hexText n := by
  unfold hexText
  split
  · rw [List.mem_singleton]
    exact fun h => hc.hex 0 (by norm_num) h.symm
  · intro h
    obtain ⟨d, hd, he⟩ := List.mem_map.mp h
    exact hc.hex d (Nat.digits_lt_base (by norm_num) (List.mem_reverse.mp hd)) he

theorem ne_colon : c ≠ 58 := by
  rintro rfl
  exact hc.other (by decide)

theorem not_mem_groupText (gs : List ℕ) : c ∉ join (gs.map hexText) [58] := by
  intro h
  rcases mem_join h with h | ⟨f, hf, hmem⟩
  · exact ne_colon hc (List.mem_singleton.mp h)
  · obtain ⟨n, -, rfl⟩ := List.mem_map.mp hf
    exact not_mem_hexText hc n hmem

theorem not_mem_ipv6Text (ip : IP) : c ∉ ipv6Text ip := by
  unfold ipv6Text
  dsimp only
  split
  · exact not_mem_groupText hc _
  · simp only [List.mem_append, not_or]
    refine ⟨⟨not_mem_groupText hc _, ?_⟩, not_mem_groupText hc _⟩
    simpa using ne_colon hc

theorem not_mem_string {ip : IP} (h : to4 ip = none) : c ∉ ip.string := by
  unfold IP.string
  split
  · intro hmem
    exact hc.other ((by decide : str "<nil>" ⊆ str "<nil>:?") hmem)
  · simp only [h]
    split
    · exact not_mem_ipv6Text hc ip
    · simp only [List.mem_cons, List.mem_flatMap, List.not_mem_nil, or_false, not_or, not_exists,
        not_and]
      refine ⟨?_, fun b _ => ⟨?_, ?_⟩⟩
      · rintro rfl
        exact hc.other (by decide)
      · exact (hc.hex _ (by have := b.toNat_lt; omega)).symm
      · exact (hc.hex _ (by omega)).symm

end Letters

/-- Only the text of an IPv4 address has a dot. -/
theorem dot_not_mem_string {ip : IP} (h : to4 ip = none) : 46 ∉ ip.string :=
  not_mem_string ⟨by decide, by decide⟩ h

/-! ## Parsing what was written -/

theorem parseOctet_itoa (b : UInt8) : parseOctet (itoa b.toNat) = some b := by
  have hb := b.toNat_lt
  have hzero : ¬ (1 < (itoa b.toNat).length ∧ (itoa b.toNat).head? = some 48) := by
    rintro ⟨hlen, hhead⟩
    by_cases h0 : b.toNat = 0
    · simp [h0, itoa] at hlen
    · exact head?_itoa h0 hhead
  rw [parseOctet, parseUint_itoa (by omega)]
  simp only [if_pos (show b.toNat ≤ 255 ∧ _ from ⟨by omega, hzero⟩)]
  simp

theorem parseIPv4_dottedText (a b c d : UInt8) :
    parseIPv4 (dottedText [a, b, c, d]) = some (ipv4 a b c d) := by
  rw [parseIPv4, split_dottedText (by simp)]
  simp [parseOctet_itoa]

theorem parseIP_dottedText (a b c d : UInt8) :
    parseIP (dottedText [a, b, c, d]) = ipv4 a b c d := by
  have hfind : (dottedText [a, b, c, d]).find? (fun x => x == 46 || x == 58) = some 46 := by
    cases hf : (dottedText [a, b, c, d]).find? (fun x => x == 46 || x == 58) with
    | none =>
      have hdot : (46 : UInt8) ∈ dottedText [a, b, c, d] := by simp [dottedText, join]
      exact absurd (List.find?_eq_none.mp hf 46 hdot) (by decide)
    | some x =>
      have hx := List.find?_some hf
      have hmem := mem_dottedText (List.mem_of_find?_eq_some hf)
      simp only [Bool.or_eq_true, beq_iff_eq] at hx
      rcases hx with rfl | rfl
      · rfl
      · exact absurd hmem (by decide)
  simp [parseIP, hfind, parseIPv4_dottedText]

end YulongHids.Golang
