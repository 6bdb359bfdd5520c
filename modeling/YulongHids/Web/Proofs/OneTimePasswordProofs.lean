import YulongHids.Golang.Proofs.BigIntProofs
import YulongHids.Web.OneTimePassword

/-!
# Proofs: one-time passwords

The password is the one of RFC 4226. The bytes of a counter are taken as ranges of its bits, and the
arithmetic on 32 bits never wraps.
-/

namespace YulongHids.Web

open Golang

/-! ## The counter -/

theorem setWidth_sshiftRight (x : BitVec 64) {s : ℕ} (hs : s + 8 ≤ 64) :
    (x.sshiftRight s &&& 255#64).setWidth 8 = x.extractLsb' s 8 := by
  have hmask : ∀ i : ℕ, i < 8 → (255#64).getLsbD i = true := by decide
  apply BitVec.eq_of_getLsbD_eq
  intro i hi
  have hlt : s + i < 64 := by omega
  rw [BitVec.getLsbD_setWidth, BitVec.getLsbD_and, hmask i hi, BitVec.getLsbD_sshiftRight,
    BitVec.getLsbD_extractLsb']
  simp [hi, hlt, show ¬ 64 ≤ i by omega]

theorem shifted_byte_toNat (value shift : Int64) (s : ℕ) (hs : s + 8 ≤ 64)
    (hshift : (shift.toBitVec.smod 64).toNat = s) :
    (((value >>> shift) &&& 0xFF).toUInt64.toUInt8).toNat =
      value.toUInt64.toNat / 2 ^ s % 256 := by
  have hbits : (((value >>> shift) &&& 0xFF).toUInt64.toUInt8).toBitVec =
      value.toBitVec.extractLsb' s 8 := by
    rw [← setWidth_sshiftRight _ hs, ← hshift]
    rfl
  rw [← UInt8.toNat_toBitVec, hbits, BitVec.extractLsb'_toNat, Nat.shiftRight_eq_div_pow]
  rfl

@[simp] theorem toBytes_length (value : Int64) : (toBytes value).length = 8 := rfl

theorem div_byte (n s : ℕ) : n / 2 ^ (s + 8) * 256 + n / 2 ^ s % 256 = n / 2 ^ s := by
  rw [pow_add, ← Nat.div_div_eq_div_mul]
  exact Nat.div_add_mod' (n / 2 ^ s) 256

theorem horner_bytes {n : ℕ} (h : n < 2 ^ 64) :
    (((((((n / 2 ^ 56 % 256 * 256 + n / 2 ^ 48 % 256) * 256 + n / 2 ^ 40 % 256) * 256 +
      n / 2 ^ 32 % 256) * 256 + n / 2 ^ 24 % 256) * 256 + n / 2 ^ 16 % 256) * 256 +
      n / 2 ^ 8 % 256) * 256 + n / 2 ^ 0 % 256) = n := by
  have htop : n / 2 ^ 56 % 256 = n / 2 ^ 56 := Nat.mod_eq_of_lt (by omega)
  rw [htop, div_byte n 48, div_byte n 40, div_byte n 32, div_byte n 24, div_byte n 16, div_byte n 8,
    div_byte n 0, pow_zero, Nat.div_one]

theorem setBytes_eight (b0 b1 b2 b3 b4 b5 b6 b7 : UInt8) :
    Big.setBytes [b0, b1, b2, b3, b4, b5, b6, b7] =
      ((((((b0.toNat * 256 + b1.toNat) * 256 + b2.toNat) * 256 + b3.toNat) * 256 + b4.toNat) * 256 +
        b5.toNat) * 256 + b6.toNat) * 256 + b7.toNat := by
  simp only [Big.setBytes, List.foldl_cons, List.foldl_nil, Nat.zero_mul, Nat.zero_add]

theorem setBytes_toBytes (value : Int64) : Big.setBytes (toBytes value) = value.toUInt64.toNat := by
  have h56 := shifted_byte_toNat value 56 56 (by omega) (by decide)
  have h48 := shifted_byte_toNat value 48 48 (by omega) (by decide)
  have h40 := shifted_byte_toNat value 40 40 (by omega) (by decide)
  have h32 := shifted_byte_toNat value 32 32 (by omega) (by decide)
  have h24 := shifted_byte_toNat value 24 24 (by omega) (by decide)
  have h16 := shifted_byte_toNat value 16 16 (by omega) (by decide)
  have h8 := shifted_byte_toNat value 8 8 (by omega) (by decide)
  have h0 := shifted_byte_toNat value 0 0 (by omega) (by decide)
  have hsum := horner_bytes value.toUInt64.toNat_lt
  rw [← h56, ← h48, ← h40, ← h32, ← h24, ← h16, ← h8, ← h0] at hsum
  rw [← hsum]
  unfold toBytes
  simp only [List.map_cons, List.map_nil]
  rw [setBytes_eight]

/-- The message is the counter on eight bytes, the high byte first. -/
theorem toBytes_eq_fillBytes (value : Int64) :
    toBytes value = Big.fillBytes 8 value.toUInt64.toNat := by
  have hlt : value.toUInt64.toNat < 256 ^ 8 := value.toUInt64.toNat_lt
  apply Big.setBytes_inj
  · rw [toBytes_length, Big.fillBytes_length hlt]
  · rw [setBytes_toBytes, Big.setBytes_fillBytes]

theorem toUInt64_injective : Function.Injective Int64.toUInt64 := by
  intro t t' h
  rw [← Int64.toInt64_toUInt64 t, ← Int64.toInt64_toUInt64 t', h]

theorem toBytes_injective : Function.Injective toBytes := by
  intro t t' h
  have hnum : t.toUInt64.toNat = t'.toUInt64.toNat := by
    rw [← setBytes_toBytes, ← setBytes_toBytes, h]
  exact toUInt64_injective (UInt64.toNat_inj.mp hnum)

/-! ## The four bytes -/

theorem and_mask_toNat (b : UInt8) : (b &&& 0x0F).toNat = b.toNat % 16 := by
  rw [UInt8.toNat_and]
  exact Nat.and_two_pow_sub_one_eq_mod b.toNat 4

theorem and_sign_mask_toNat (b : UInt8) : (b &&& 0x7F).toNat = b.toNat % 128 := by
  rw [UInt8.toNat_and]
  exact Nat.and_two_pow_sub_one_eq_mod b.toNat 7

theorem getLast?_digest (hash : Rfc4226.Digest) : hash.val.getLast? = some (hash.val.getD 19 0) := by
  have h20 := hash.property
  rw [List.getLast?_eq_getElem?, h20, List.getD_eq_getElem?_getD,
    List.getElem?_eq_getElem (show 20 - 1 < hash.val.length by omega)]
  rfl

theorem offset_lt (hash : Rfc4226.Digest) : Rfc4226.offset hash < 16 :=
  Nat.mod_lt _ (by omega)

/-- The offset is at most 15, so four bytes from there end within the twenty. -/
theorem hashParts_eq (hash : Rfc4226.Digest) :
    hashParts hash.val = some ((hash.val.drop (Rfc4226.offset hash)).take 4) := by
  have h20 := hash.property
  have hlow : (hash.val.getD 19 0 &&& 0x0F).toNat = Rfc4226.offset hash := and_mask_toNat _
  have hlt := offset_lt hash
  have hhigh : ((hash.val.getD 19 0 &&& 0x0F) + 4).toNat = Rfc4226.offset hash + 4 := by
    rw [UInt8.toNat_add, hlow]
    show (Rfc4226.offset hash + 4) % 256 = _
    omega
  unfold hashParts
  rw [getLast?_digest]
  show byteSlice _ _ _ = _
  rw [byteSlice, if_pos, hlow, hhigh, List.drop_take, Nat.add_sub_cancel_left]
  rw [UInt8.le_iff_toNat_le, hlow, hhigh]
  omega

theorem length_eq_four {l : List UInt8} (h : l.length = 4) :
    ∃ b0 b1 b2 b3, l = [b0, b1, b2, b3] := by
  obtain ⟨b0, tail, rfl⟩ := List.exists_cons_of_length_eq_add_one h
  obtain ⟨b1, b2, b3, rfl⟩ := List.length_eq_three.mp (Nat.succ_injective h)
  exact ⟨b0, b1, b2, b3, rfl⟩

theorem exists_parts (hash : Rfc4226.Digest) :
    ∃ b0 b1 b2 b3, (hash.val.drop (Rfc4226.offset hash)).take 4 = [b0, b1, b2, b3] := by
  have h20 := hash.property
  have hlt := offset_lt hash
  apply length_eq_four
  rw [List.length_take, List.length_drop]
  omega

/-- No bit is lost in the shifts, no carry in the sums. -/
theorem toUint32_toNat (b0 b1 b2 b3 : UInt8) :
    ((b0.toUInt32 <<< 24) + (b1.toUInt32 <<< 16) + (b2.toUInt32 <<< 8) + b3.toUInt32).toNat =
      Big.setBytes [b0, b1, b2, b3] := by
  have h0 := b0.toNat_lt
  have h1 := b1.toNat_lt
  have h2 := b2.toNat_lt
  have h3 := b3.toNat_lt
  simp [Big.setBytes, Nat.shiftLeft_eq]
  omega

theorem setBytes_clear_sign (b0 b1 b2 b3 : UInt8) :
    Big.setBytes [b0 &&& 0x7F, b1, b2, b3] = Big.setBytes [b0, b1, b2, b3] % 2 ^ 31 := by
  have h1 := b1.toNat_lt
  have h2 := b2.toNat_lt
  have h3 := b3.toNat_lt
  simp only [Big.setBytes, List.foldl_cons, List.foldl_nil, and_sign_mask_toNat]
  omega

theorem passwordOfHash_eq (hash : Rfc4226.Digest) :
    (passwordOfHash hash.val).map UInt32.toNat = some (Rfc4226.password hash) := by
  obtain ⟨b0, b1, b2, b3, hparts⟩ := exists_parts hash
  unfold passwordOfHash
  rw [hashParts_eq, Rfc4226.password, Rfc4226.truncate, hparts, ← setBytes_clear_sign,
    ← toUint32_toNat]
  rfl

/-! ## The password -/

theorem oneTimePassword_eq (key : List UInt8) (t : Int64) :
    (oneTimePassword key (toBytes t)).map UInt32.toNat =
      some (Rfc4226.hotp key t.toUInt64.toNat) := by
  rw [oneTimePassword, toBytes_eq_fillBytes]
  exact passwordOfHash_eq (Rfc4226.sign key t.toUInt64.toNat)

example : oneTimePassword (str "12345678901234567890") (toBytes 0) = some 755224 := by
  decide +kernel

/-- For every digest the slice lies within the twenty bytes and the password is the standard's; the
message is the counter on eight bytes, and no two counters share one. -/
theorem oneTimePassword_rfc4226 :
    (∀ hash : Rfc4226.Digest,
      Rfc4226.offset hash + 4 ≤ hash.val.length ∧
      hashParts hash.val = some ((hash.val.drop (Rfc4226.offset hash)).take 4) ∧
      (passwordOfHash hash.val).map UInt32.toNat =
        some (Big.setBytes ((hash.val.drop (Rfc4226.offset hash)).take 4) % 2 ^ 31 % 10 ^ 6)) ∧
    (∀ (key : List UInt8) (t : Int64),
      (oneTimePassword key (toBytes t)).map UInt32.toNat =
        some (Rfc4226.hotp key t.toUInt64.toNat)) ∧
    (∀ t : Int64, 0 ≤ t → toBytes t = Big.fillBytes 8 t.toInt.toNat) ∧
    Set.InjOn toBytes {t | 0 ≤ t} := by
  refine ⟨fun hash => ⟨?_, hashParts_eq hash, passwordOfHash_eq hash⟩, oneTimePassword_eq, ?_,
    toBytes_injective.injOn⟩
  · have hlt := offset_lt hash
    have h20 := hash.property
    omega
  · intro t ht
    rw [toBytes_eq_fillBytes, Int64.toNat_toUInt64_of_le ht]
    rfl

/-- What the console shows the user's code against: the password of the current half minute. -/
theorem getPassword_eq (keyDecode : Option (List UInt8)) (epochSeconds : Int64) :
    (getPassword keyDecode epochSeconds).map UInt32.toNat =
      some (keyDecode.elim 0 fun key => Rfc4226.hotp key (epochSeconds / 30).toUInt64.toNat) := by
  cases keyDecode with
  | none => rfl
  | some key => exact oneTimePassword_eq key (epochSeconds / 30)

/-- There is always a code, of at most six digits. -/
theorem getPassword_lt (keyDecode : Option (List UInt8)) (epochSeconds : Int64) :
    ∃ pwd, getPassword keyDecode epochSeconds = some pwd ∧ pwd.toNat < 10 ^ 6 := by
  obtain ⟨pwd, hpwd, hnat⟩ := Option.map_eq_some_iff.mp (getPassword_eq keyDecode epochSeconds)
  refine ⟨pwd, hpwd, ?_⟩
  rw [hnat]
  cases keyDecode with
  | none => norm_num
  | some key => exact Nat.mod_lt _ (by norm_num)

end YulongHids.Web
