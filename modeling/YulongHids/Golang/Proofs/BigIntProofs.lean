import Mathlib.Data.Nat.ModEq
import YulongHids.Golang.BigInt

/-!
# Proofs: big integers

Numbers and their big-endian bytes, and `Exp` as a power modulo its third argument.
-/

namespace YulongHids.Golang.Big

/-! ## Powers -/

theorem foldr_bits_eq (x m : ℕ) (bits : List ℕ) (h : ∀ b ∈ bits, b < 2) :
    bits.foldr (fun bit z => z * z % m * (if bit = 0 then 1 else x) % m) (1 % m) =
      x ^ Nat.ofDigits 2 bits % m := by
  induction bits with
  | nil => simp
  | cons b bits ih =>
    have hb : b < 2 := h b (List.mem_cons_self ..)
    have ih' := ih fun b' hb' => h b' (List.mem_cons_of_mem _ hb')
    have hsq : x ^ (2 * Nat.ofDigits 2 bits) = x ^ Nat.ofDigits 2 bits * x ^ Nat.ofDigits 2 bits := by
      rw [two_mul, pow_add]
    rw [List.foldr_cons, ih', Nat.ofDigits_cons, pow_add, hsq]
    rcases (by omega : b = 0 ∨ b = 1) with rfl | rfl
    · simp
    · simp only [one_ne_zero, if_false, pow_one]
      rw [← Nat.mul_mod, Nat.mod_mul_mod, mul_comm]

theorem exp_eq (x y m : ℕ) : exp x y m = x ^ y % m := by
  have hbits : ∀ b ∈ Nat.digits 2 y, b < 2 := fun b hb => Nat.digits_lt_base (by norm_num) hb
  rw [exp, foldr_bits_eq x m _ hbits, Nat.ofDigits_digits]

/-! ## Lengths -/

theorem lt_pow_bitLen (n : ℕ) : n < 2 ^ bitLen n := by
  unfold bitLen
  split
  · next h => simp [h]
  · exact Nat.lt_log2_self

theorem pow_bitLen_le {n : ℕ} (hn : n ≠ 0) : 2 ^ (bitLen n - 1) ≤ n := by
  rw [bitLen, if_neg hn, Nat.add_sub_cancel]
  exact Nat.log2_self_le hn

theorem lt_pow_byteLen (n : ℕ) : n < 256 ^ ((bitLen n + 7) / 8) := by
  have h256 : (256 : ℕ) ^ ((bitLen n + 7) / 8) = 2 ^ (8 * ((bitLen n + 7) / 8)) := by
    rw [pow_mul]
    norm_num
  rw [h256]
  exact lt_of_lt_of_le (lt_pow_bitLen n) (Nat.pow_le_pow_right (by norm_num) (by omega))

theorem pow_byteLen_le {n : ℕ} (hn : n ≠ 0) : 256 ^ ((bitLen n + 7) / 8 - 1) ≤ n := by
  have h256 : (256 : ℕ) ^ ((bitLen n + 7) / 8 - 1) = 2 ^ (8 * ((bitLen n + 7) / 8 - 1)) := by
    rw [pow_mul]
    norm_num
  rw [h256]
  exact le_trans (Nat.pow_le_pow_right (by norm_num) (by omega)) (pow_bitLen_le hn)

/-! ## Bytes -/

theorem setBytes_eq_ofDigits (l : List UInt8) :
    setBytes l = Nat.ofDigits 256 (l.reverse.map UInt8.toNat) := by
  rw [setBytes, ← List.foldr_reverse]
  induction l.reverse with
  | nil => rfl
  | cons b l ih =>
    rw [List.foldr_cons, List.map_cons, Nat.ofDigits_cons, ih]
    ring

theorem byte_digits_lt (l : List UInt8) : ∀ d ∈ l.reverse.map UInt8.toNat, d < 256 := by
  intro d hd
  obtain ⟨b, -, rfl⟩ := List.mem_map.mp hd
  exact b.toNat_lt

theorem setBytes_lt (l : List UInt8) : setBytes l < 256 ^ l.length := by
  rw [setBytes_eq_ofDigits]
  have h := Nat.ofDigits_lt_base_pow_length (b := 256) (by norm_num) (byte_digits_lt l)
  rwa [List.length_map, List.length_reverse] at h

theorem setBytes_cons (b : UInt8) (l : List UInt8) :
    setBytes (b :: l) = b.toNat * 256 ^ l.length + setBytes l := by
  rw [setBytes_eq_ofDigits, setBytes_eq_ofDigits, List.reverse_cons, List.map_append,
    Nat.ofDigits_append, List.length_map, List.length_reverse, List.map_singleton,
    Nat.ofDigits_singleton]
  ring

/-- Lists of one length are determined by their numbers. -/
theorem setBytes_inj {l l' : List UInt8} (hlen : l.length = l'.length)
    (h : setBytes l = setBytes l') : l = l' := by
  rw [setBytes_eq_ofDigits, setBytes_eq_ofDigits] at h
  have hmap := Nat.ofDigits_inj_of_len_eq (by norm_num) (by simpa using hlen) (byte_digits_lt l)
    (byte_digits_lt l') h
  have hinj : Function.Injective UInt8.toNat := fun a b hab => UInt8.toNat_inj.mp hab
  exact List.reverse_injective (hinj.list_map hmap)

theorem setBytes_bytes (n : ℕ) : setBytes (bytes n) = n := by
  have hmap : ((Nat.digits 256 n).map Nat.toUInt8).map UInt8.toNat = Nat.digits 256 n := by
    rw [List.map_map]
    conv_rhs => rw [← List.map_id (Nat.digits 256 n)]
    refine List.map_congr_left fun d hd => ?_
    have hlt : d < 256 := Nat.digits_lt_base (by norm_num) hd
    simp only [Function.comp_apply, Nat.toUInt8, UInt8.toNat_ofNat', id_eq]
    omega
  rw [setBytes_eq_ofDigits, bytes, List.reverse_reverse, hmap, Nat.ofDigits_digits]

theorem bytes_length_le {k n : ℕ} (h : n < 256 ^ k) : (bytes n).length ≤ k := by
  rw [bytes, List.length_reverse, List.length_map]
  exact (Nat.digits_length_le_iff (by norm_num) n).mpr h

theorem setBytes_replicate_zero (k : ℕ) (l : List UInt8) :
    setBytes (List.replicate k 0 ++ l) = setBytes l := by
  induction k with
  | zero => rfl
  | succ k ih =>
    rw [List.replicate_succ, List.cons_append, setBytes, List.foldl_cons]
    exact ih

theorem fillBytes_length {k n : ℕ} (h : n < 256 ^ k) : (fillBytes k n).length = k := by
  have hle := bytes_length_le h
  rw [fillBytes, List.length_append, List.length_replicate]
  omega

theorem setBytes_fillBytes (k n : ℕ) : setBytes (fillBytes k n) = n := by
  rw [fillBytes, setBytes_replicate_zero, setBytes_bytes]

/-- Writing the number of some bytes on as many bytes yields them again. -/
theorem fillBytes_setBytes (l : List UInt8) : fillBytes l.length (setBytes l) = l :=
  setBytes_inj (fillBytes_length (setBytes_lt l)) (setBytes_fillBytes _ _)

end YulongHids.Golang.Big
