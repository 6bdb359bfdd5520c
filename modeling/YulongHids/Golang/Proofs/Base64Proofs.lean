import YulongHids.Golang.Base64

/-!
# What is encoded is decoded

Each group of bytes comes back from its characters, and none of these is a line feed, so an encoding
can be sent as one line.
-/

namespace YulongHids.Golang.Base64

theorem digitValue_digit : ∀ n < 64, digitValue (digit n) = some n := by decide

theorem digit_ne_newline : ∀ n < 64, (digit n != 10 && digit n != 13) = true := by decide

theorem toUInt8_toNat {n : ℕ} {a : UInt8} (h : n % 256 = a.toNat) : n.toUInt8 = a := by
  apply UInt8.toNat_inj.mp
  rw [← h]
  exact UInt8.toNat_ofNat'

theorem decodeGroups_encode (s : List UInt8) : decodeGroups (encodeToString s) = s := by
  fun_induction encodeToString s with
  | case1 a b c s ih =>
    have ha := a.toNat_lt
    have hb := b.toNat_lt
    have hc := c.toNat_lt
    rw [decodeGroups, digitValue_digit _ (by omega), digitValue_digit _ (by omega),
      digitValue_digit _ (by omega), digitValue_digit _ (by omega)]
    simp only [firstByte, secondByte, thirdByte, ih]
    rw [toUInt8_toNat (a := a) (by omega), toUInt8_toNat (a := b) (by omega),
      toUInt8_toNat (a := c) (by omega)]
  | case2 a b =>
    have ha := a.toNat_lt
    have hb := b.toNat_lt
    rw [decodeGroups, digitValue_digit _ (by omega), digitValue_digit _ (by omega),
      digitValue_digit _ (by omega)]
    simp only [firstByte, secondByte]
    rw [toUInt8_toNat (a := a) (by omega), toUInt8_toNat (a := b) (by omega)]
  | case3 a =>
    have ha := a.toNat_lt
    rw [decodeGroups, digitValue_digit _ (by omega), digitValue_digit _ (by omega)]
    simp only [firstByte]
    rw [toUInt8_toNat (a := a) (by omega)]
  | case4 => rfl

theorem encodeToString_no_newline (s : List UInt8) :
    ∀ c ∈ encodeToString s, (c != 10 && c != 13) = true := by
  fun_induction encodeToString s with
  | case1 a b c s ih =>
    have ha := a.toNat_lt
    have hb := b.toNat_lt
    have hc := c.toNat_lt
    simp only [List.forall_mem_cons]
    exact ⟨digit_ne_newline _ (by omega), digit_ne_newline _ (by omega),
      digit_ne_newline _ (by omega), digit_ne_newline _ (by omega), ih⟩
  | case2 a b =>
    have ha := a.toNat_lt
    have hb := b.toNat_lt
    simp only [List.forall_mem_cons, List.not_mem_nil, false_implies, implies_true, and_true]
    exact ⟨digit_ne_newline _ (by omega), digit_ne_newline _ (by omega),
      digit_ne_newline _ (by omega)⟩
  | case3 a =>
    have ha := a.toNat_lt
    simp only [List.forall_mem_cons, List.not_mem_nil, false_implies, implies_true, and_true]
    exact ⟨digit_ne_newline _ (by omega), digit_ne_newline _ (by omega)⟩
  | case4 => exact fun c hc => absurd hc List.not_mem_nil

/-- A line that ends behind an encoding is decoded to what was encoded. -/
theorem decodeString_line (s : List UInt8) : decodeString (encodeToString s ++ [10]) = s := by
  have hkeep : (encodeToString s).filter (fun c => c != 10 && c != 13) = encodeToString s :=
    List.filter_eq_self.mpr (encodeToString_no_newline s)
  have hend : [10].filter (fun c : UInt8 => c != 10 && c != 13) = [] := rfl
  rw [decodeString, List.filter_append, hkeep, hend, List.append_nil, decodeGroups_encode]

end YulongHids.Golang.Base64
