import YulongHids.Golang.Proofs.NetProofs
import YulongHids.Web.Net

/-!
# Proofs: IP ranges

`IP2Int` inverts `Int2IP` on the numbers of 32 bits, so the addresses that `BetweenIP` counts up
have different texts.
-/

namespace YulongHids.Web

open Golang

/-! ## Addresses as numbers -/

theorem atoi_byte (b : UInt8) : (atoi (itoa b.toNat)).1 = b.toNat := by
  have hb := b.toNat_lt
  rw [atoi_itoa (by omega)]

/-- `IP2Int` reads the four bytes of an IPv4 address and is out of range on any other. -/
theorem ip2Int_ipv4 {ip : IP} {a b c d : UInt8} (h : to4 ip = some [a, b, c, d]) :
    ip2Int ip =
      some ((a.toNat : ℤ) * 2 ^ 24 + (b.toNat : ℤ) * 2 ^ 16 + (c.toNat : ℤ) * 2 ^ 8 + (d.toNat : ℤ)) := by
  rw [ip2Int, string_of_to4 h, split_dottedText (by simp)]
  simp only [List.map_cons, List.map_nil, atoi_byte]

theorem ip2Int_none {ip : IP} (h : to4 ip = none) : ip2Int ip = none := by
  rw [ip2Int, split_eq_singleton (dot_not_mem_string h)]

theorem ip2Int_range {ip : IP} {n : ℤ} (h : ip2Int ip = some n) : 0 ≤ n ∧ n < 2 ^ 32 := by
  cases h4 : to4 ip with
  | none => simp [ip2Int_none h4] at h
  | some p4 =>
    obtain ⟨a, b, c, d, rfl⟩ := List.length_eq_four.mp (to4_length h4)
    rw [ip2Int_ipv4 h4, Option.some.injEq] at h
    have ha := a.toNat_lt
    have hb := b.toNat_lt
    have hc := c.toNat_lt
    have hd := d.toNat_lt
    omega

theorem byte_toNat (n : ℤ) (k : ℕ) :
    ((n / 2 ^ k % 256).toNat.toUInt8.toNat : ℤ) = n / 2 ^ k % 256 := by
  simp only [Nat.toUInt8, UInt8.toNat_ofNat']
  omega

theorem ip2Int_int2IP {n : ℤ} (h0 : 0 ≤ n) (h : n < 2 ^ 32) : ip2Int (int2IP n) = some n := by
  rw [int2IP, ip2Int_ipv4 (to4_ipv4 ..), Option.some.injEq]
  simp only [byte_toNat]
  omega

theorem int2IP_string_inj {n m : ℤ} (hn : 0 ≤ n ∧ n < 2 ^ 32) (hm : 0 ≤ m ∧ m < 2 ^ 32)
    (h : (int2IP n).string = (int2IP m).string) : n = m := by
  have hn' := ip2Int_int2IP hn.1 hn.2
  have hm' := ip2Int_int2IP hm.1 hm.2
  rw [ip2Int, h] at hn'
  rw [ip2Int, hn', Option.some.injEq] at hm'
  exact hm'

/-! ## Ranges -/

theorem mem_countUp {n : ℕ} {a : ℤ} {s : GoString} :
    s ∈ countUp n a ↔ ∃ k, a ≤ k ∧ k < a + n ∧ s = (int2IP k).string := by
  induction n generalizing a with
  | zero =>
    simp only [countUp, List.not_mem_nil, false_iff, not_exists, not_and]
    intro k h1 h2
    omega
  | succ n ih =>
    simp only [countUp, List.mem_cons, ih]
    constructor
    · rintro (rfl | ⟨k, h1, h2, rfl⟩)
      · exact ⟨a, le_refl a, by omega, rfl⟩
      · exact ⟨k, by omega, by push_cast; omega, rfl⟩
    · rintro ⟨k, h1, h2, rfl⟩
      by_cases hk : k = a
      · exact Or.inl (by rw [hk])
      · exact Or.inr ⟨k, by omega, by push_cast at h2; omega, rfl⟩

theorem countUp_nodup {n : ℕ} {a : ℤ} (h0 : 0 ≤ a) (h : a + n ≤ 2 ^ 32) : (countUp n a).Nodup := by
  induction n generalizing a with
  | zero => exact List.nodup_nil
  | succ n ih =>
    refine List.nodup_cons.mpr ⟨?_, ih (by omega) (by push_cast at h; omega)⟩
    intro hmem
    obtain ⟨k, h1, h2, hk⟩ := mem_countUp.mp hmem
    push_cast at h
    have := int2IP_string_inj ⟨h0, by omega⟩ ⟨by omega, by omega⟩ hk
    omega

/-- The range between two texts, whatever they are: no address occurs twice. -/
theorem betweenIP_nodup {s t : GoString} {hosts : List GoString}
    (h : betweenIP s t = some hosts) : hosts.Nodup := by
  unfold betweenIP at h
  split at h
  · next a b ha hb =>
    rw [← Option.some.inj h]
    split
    · have hra := ip2Int_range ha
      have hrb := ip2Int_range hb
      exact countUp_nodup hra.1 (by omega)
    · exact List.nodup_nil
  · exact absurd h (by simp)

/-- The loop counts through the numbers of its addresses. -/
theorem countUp_eq_map (n a : ℕ) : countUp n a = (List.range' a n).map addrText := by
  induction n generalizing a with
  | zero => rfl
  | succ n ih =>
    rw [countUp, List.range'_succ, List.map_cons, ← ih (a + 1)]
    push_cast
    rfl

/-- An address text parsed as IPv4 stands for one number of 32 bits. -/
theorem parseIPv4_eq_int2IP {s : GoString} {ip : IP} (h : parseIPv4 s = some ip) :
    ∃ n : ℕ, n < 2 ^ 32 ∧ ip = int2IP n := by
  unfold parseIPv4 at h
  split at h
  · split at h
    · next a b c d _ _ _ _ =>
      have hd := d.toNat_lt
      have hc := c.toNat_lt
      have hb := b.toNat_lt
      have ha := a.toNat_lt
      refine ⟨a.toNat * 2 ^ 24 + b.toNat * 2 ^ 16 + c.toNat * 2 ^ 8 + d.toNat, by omega, ?_⟩
      rw [← Option.some.inj h, int2IP]
      congr 1 <;> apply UInt8.toNat_inj.mp <;> zify <;> rw [byte_toNat] <;> push_cast <;> omega
    · exact absurd h (by simp)
  · exact absurd h (by simp)

theorem parseIP_addrText (n : ℕ) : parseIP (addrText n) = int2IP n := by
  unfold addrText int2IP
  rw [string_ipv4, parseIP_dottedText]

/-- The range between two addresses: every address of it, except for a range of one address. -/
theorem betweenIP_addrText {a b : ℕ} (ha : a < 2 ^ 32) (hb : b < 2 ^ 32) :
    betweenIP (addrText a) (addrText b) = some (if a < b then countUp (b + 1 - a) a else []) := by
  have ha' : ip2Int (int2IP a) = some (a : ℤ) := ip2Int_int2IP (by omega) (by exact_mod_cast ha)
  have hb' : ip2Int (int2IP b) = some (b : ℤ) := ip2Int_int2IP (by omega) (by exact_mod_cast hb)
  rw [betweenIP, parseIP_addrText, parseIP_addrText, ha', hb']
  simp only [Nat.cast_lt, Option.some.injEq]
  have hlen : ((b : ℤ) + 1 - a).toNat = b + 1 - a := by omega
  rw [hlen]

/-! ## The range as a list of numbers -/

theorem addressesBetween_length (a b : ℕ) : (addressesBetween a b).length = b + 1 - a := by
  rw [addressesBetween, List.length_map, List.length_range']

theorem addressesBetween_nodup {a b : ℕ} (hb : b < 2 ^ 32) : (addressesBetween a b).Nodup := by
  rw [addressesBetween, ← countUp_eq_map]
  by_cases h : a ≤ b
  · exact countUp_nodup (by omega) (by omega)
  · have hz : b + 1 - a = 0 := by omega
    rw [hz]
    exact List.nodup_nil

theorem mem_addressesBetween {a b : ℕ} {s : GoString} :
    s ∈ addressesBetween a b ↔ ∃ n, a ≤ n ∧ n ≤ b ∧ addrText n = s := by
  rw [addressesBetween, List.mem_map]
  constructor
  · rintro ⟨n, hn, hs⟩
    have := List.mem_range'_1.mp hn
    exact ⟨n, by omega, by omega, hs⟩
  · rintro ⟨n, h1, h2, hs⟩
    exact ⟨n, List.mem_range'_1.mpr (by omega), hs⟩

/-- The numbers of the texts ascend along the range. -/
theorem addressesBetween_ascending {a b : ℕ} (hb : b < 2 ^ 32) :
    (addressesBetween a b).Pairwise fun s t =>
      ∃ n m : ℤ, ip2Int (parseIP s) = some n ∧ ip2Int (parseIP t) = some m ∧ n < m := by
  rw [addressesBetween, List.pairwise_map]
  refine List.Pairwise.imp_of_mem ?_ (List.pairwise_lt_range' (s := a) (n := b + 1 - a))
  intro n m hn hm hlt
  have hn' := List.mem_range'_1.mp hn
  have hm' := List.mem_range'_1.mp hm
  refine ⟨n, m, ?_, ?_, by exact_mod_cast hlt⟩
  · rw [parseIP_addrText, ip2Int_int2IP (by omega) (by omega)]
  · rw [parseIP_addrText, ip2Int_int2IP (by omega) (by omega)]

/-- Between two texts of IPv4 addresses `BetweenIP` returns the addresses from the first to the
second, and none when the second is below the first, unless the two are the same address. -/
theorem betweenIP_exact_iff {s t : GoString} {a b : ℕ} (ha : a < 2 ^ 32) (hb : b < 2 ^ 32)
    (hs : parseIP s = int2IP a) (ht : parseIP t = int2IP b) :
    betweenIP s t = some (addressesBetween a b) ↔ a ≠ b := by
  have hrun : betweenIP s t = some (if a < b then addressesBetween a b else []) := by
    have htext := betweenIP_addrText ha hb
    rw [betweenIP, parseIP_addrText, parseIP_addrText] at htext
    rw [betweenIP, hs, ht, htext, countUp_eq_map]
    rfl
  have hlen := addressesBetween_length a b
  rw [hrun, Option.some.injEq]
  constructor
  · rintro h rfl
    rw [if_neg (lt_irrefl a)] at h
    rw [← h, List.length_nil] at hlen
    omega
  · intro hne
    by_cases hlt : a < b
    · rw [if_pos hlt]
    · have hz : (addressesBetween a b).length = 0 := by omega
      rw [if_neg hlt, List.length_eq_zero_iff.mp hz]

theorem betweenIP_exact_iff_two_hosts :
    betweenIP (str "10.0.0.255") (str "10.0.1.0") = some (addressesBetween 167772415 167772416) ↔
      167772415 ≠ 167772416 :=
  betweenIP_exact_iff (by decide) (by decide) (by decide) (by decide)

/-- A range of one address is read as an empty one. -/
theorem betweenIP_one_host :
    betweenIP (str "10.0.0.1") (str "10.0.0.1") = some [] ∧
      betweenIP (str "10.0.0.1") (str "10.0.0.1") ≠ some (addressesBetween 167772161 167772161) ∧
      addressesBetween 167772161 167772161 = [str "10.0.0.1"] := by
  decide

theorem hyphen_not_mem_addrText (n : ℕ) : 45 ∉ addrText n := by
  unfold addrText int2IP
  rw [string_ipv4]
  intro h
  have hmem := mem_dottedText h
  revert hmem
  decide

end YulongHids.Web
