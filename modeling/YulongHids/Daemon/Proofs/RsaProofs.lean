import Mathlib.NumberTheory.LucasLehmer
import YulongHids.Daemon.Rsa
import YulongHids.Rsa.Padding
import YulongHids.Server.Proofs.RsaProofs

/-!
# Proofs: task decryption

What the server encrypts the daemon decrypts. In the other direction the daemon accepts more than the
blocks of the server: it looks at the second byte and at the place of the separator, and not at the
padding between them.
-/

namespace YulongHids.Daemon

open Golang Rsa

/-! ## The block -/

section Block

variable {pub : PublicKey} {data : List UInt8}

theorem leftPad_bytes {k c : ℕ} (h : c < 256 ^ k) : leftPad (Big.bytes c) k = Big.fillBytes k c := by
  have hlen := Big.bytes_length_le h
  simp [leftPad, Big.fillBytes, hlen]

theorem power_lt (hn : 0 < pub.n) (x : ℕ) : x % pub.n < 256 ^ pub.len :=
  lt_trans (Nat.mod_lt x hn) (Big.lt_pow_byteLen pub.n)

theorem decryptedBlock_eq (hn : 0 < pub.n) : decryptedBlock pub data = powerBlock pub data := by
  rw [decryptedBlock, Big.exp_eq]
  exact leftPad_bytes (power_lt hn _)

theorem pubKeyDecrypt_length (hlen : data.length ≠ pub.len) :
    pubKeyDecrypt pub data = some (.error (str "data length error")) := by
  have hk : (Big.bitLen pub.n + 7) / 8 ≠ data.length := Ne.symm hlen
  rw [pubKeyDecrypt, if_pos hk]

theorem pubKeyDecrypt_size (hlen : data.length = pub.len) (hgt : pub.n < Big.setBytes data) :
    pubKeyDecrypt pub data =
      some (.error (str "message too long for RSA public key size")) := by
  have hk : ¬ (Big.bitLen pub.n + 7) / 8 ≠ data.length := not_not.mpr hlen.symm
  rw [pubKeyDecrypt, if_neg hk, if_pos hgt]

theorem pubKeyDecrypt_eq (hn : 0 < pub.n) (hlen : data.length = pub.len)
    (hle : Big.setBytes data ≤ pub.n) : pubKeyDecrypt pub data = unpad (powerBlock pub data) := by
  have hk : ¬ (Big.bitLen pub.n + 7) / 8 ≠ data.length := by
    rw [hlen]
    exact not_not.mpr rfl
  rw [pubKeyDecrypt, if_neg hk, if_neg (not_lt.mpr hle), decryptedBlock_eq hn]

/-- The scan finds no zero byte. -/
theorem dropWhile_eq_nil_iff_not_mem {rest : List UInt8} :
    rest.dropWhile (· ≠ 0) = [] ↔ 0 ∉ rest := by
  rw [List.dropWhile_eq_nil_iff]
  constructor
  · intro h hzero
    exact absurd (h 0 hzero) (by simp)
  · rintro hzero x hx
    refine decide_eq_true ?_
    rintro rfl
    exact hzero hx

/-- The slice is out of range for a block that passes the two tests and has no zero byte after
that. -/
theorem unpad_none_iff {d : List UInt8} (hd : 2 ≤ d.length) :
    unpad d = none ↔ ∃ d1 rest, d = 0 :: d1 :: rest ∧ (d1 = 0 ∨ d1 = 1) ∧ 0 ∉ rest := by
  rcases d with _ | ⟨d0, _ | ⟨d1, rest⟩⟩
  · exact absurd hd (by decide)
  · exact absurd hd (by simp)
  rw [unpad]
  by_cases h0 : d0 = 0
  · subst h0
    rw [if_neg (not_not.mpr rfl)]
    by_cases h1 : d1 ≠ 0 ∧ d1 ≠ 1
    · rw [if_pos h1]
      constructor
      · intro h
        exact absurd h (by simp)
      · rintro ⟨d1', rest', heq, hd1, -⟩
        have hcons : d1 = d1' ∧ rest = rest' := by simpa using heq
        rw [← hcons.1] at hd1
        exact absurd h1 (by tauto)
    · rw [if_neg h1]
      have hd1 : d1 = 0 ∨ d1 = 1 := by tauto
      constructor
      · intro h
        refine ⟨d1, rest, rfl, hd1, ?_⟩
        cases hscan : rest.dropWhile (· ≠ 0) with
        | nil => exact dropWhile_eq_nil_iff_not_mem.mp hscan
        | cons b msg =>
          rw [hscan] at h
          simp at h
      · rintro ⟨d1', rest', heq, -, hzero⟩
        have hcons : d1 = d1' ∧ rest = rest' := by simpa using heq
        rw [← hcons.2] at hzero
        rw [dropWhile_eq_nil_iff_not_mem.mpr hzero]
  · rw [if_pos h0]
    constructor
    · intro h
      exact absurd h (by simp)
    · rintro ⟨d1', rest', heq, -⟩
      have hcons : d0 = 0 ∧ d1 = d1' ∧ rest = rest' := by simpa using heq
      exact absurd hcons.1 h0

/-- A message is returned for a block that starts with 0 and then 0 or 1, and has a zero byte after
that; it is what follows the first one. -/
theorem unpad_ok_iff {d msg : List UInt8} :
    unpad d = some (.ok msg) ↔
      ∃ d1 b rest, d = 0 :: d1 :: rest ∧ (d1 = 0 ∨ d1 = 1) ∧ rest.dropWhile (· ≠ 0) = b :: msg := by
  constructor
  · intro h
    rcases d with _ | ⟨d0, _ | ⟨d1, rest⟩⟩
    · simp [unpad] at h
    · simp [unpad] at h
    rw [unpad] at h
    by_cases h0 : d0 = 0
    · rw [if_neg (not_not.mpr h0)] at h
      by_cases h1 : d1 ≠ 0 ∧ d1 ≠ 1
      · rw [if_pos h1] at h
        simp at h
      · rw [if_neg h1] at h
        have hd1 : d1 = 0 ∨ d1 = 1 := by
          by_contra hn
          exact h1 (not_or.mp hn)
        cases hscan : rest.dropWhile (· ≠ 0) with
        | nil =>
          rw [hscan] at h
          simp at h
        | cons b msg' =>
          rw [hscan] at h
          have hmsg : msg' = msg := by simpa using h
          exact ⟨d1, b, rest, by rw [h0], hd1, by rw [hscan, hmsg]⟩
    · rw [if_pos h0] at h
      simp at h
  · rintro ⟨d1, b, rest, rfl, hd1, hscan⟩
    have hd1' : ¬ (d1 ≠ 0 ∧ d1 ≠ 1) := by
      rintro ⟨h0, h1⟩
      exact hd1.elim h0 h1
    rw [unpad, if_neg (not_not.mpr rfl), if_neg hd1', hscan]

theorem pubKeyDecrypt_ok_iff (hn : 0 < pub.n) {msg : List UInt8} :
    pubKeyDecrypt pub data = some (.ok msg) ↔
      data.length = pub.len ∧ Big.setBytes data ≤ pub.n ∧
        unpad (powerBlock pub data) = some (.ok msg) := by
  constructor
  · intro h
    have hlen : data.length = pub.len := by
      by_contra hne
      rw [pubKeyDecrypt_length hne] at h
      simp at h
    have hle : Big.setBytes data ≤ pub.n := by
      by_contra hgt
      rw [pubKeyDecrypt_size hlen (not_le.mp hgt)] at h
      simp at h
    exact ⟨hlen, hle, by rw [← pubKeyDecrypt_eq hn hlen hle, h]⟩
  · rintro ⟨hlen, hle, h⟩
    rw [pubKeyDecrypt_eq hn hlen hle, h]

theorem modulus_pos (hk : 11 ≤ pub.len) : 0 < pub.n := by
  rcases Nat.eq_zero_or_pos pub.n with h | h
  · rw [PublicKey.len, h] at hk
    exact absurd hk (by decide)
  · exact h

theorem powerBlock_length (hn : 0 < pub.n) : (powerBlock pub data).length = pub.len :=
  Big.fillBytes_length (power_lt hn _)

/-- The modulus itself is no encrypted block: its power has no 1 as its second byte. -/
theorem powerBlock_modulus (hk : 11 ≤ pub.len) (h : Big.setBytes data = pub.n) (rest : List UInt8) :
    powerBlock pub data ≠ 0 :: 1 :: rest := by
  intro hblock
  have hn := modulus_pos hk
  have hlen := congrArg List.length hblock
  rw [powerBlock_length hn, List.length_cons, List.length_cons] at hlen
  have hval := congrArg Big.setBytes hblock
  rw [powerBlock, Big.setBytes_fillBytes, h, Big.setBytes_cons, Big.setBytes_cons] at hval
  have hsmall : pub.n ^ pub.e % pub.n ≤ 1 := by
    cases pub.e with
    | zero => exact le_trans (Nat.mod_le _ _) (by simp)
    | succ e => simp [pow_succ]
  have hbig : 1 < 256 ^ rest.length := Nat.one_lt_pow (by omega) (by norm_num)
  have hone : (1 : UInt8).toNat = 1 := rfl
  have hzero : (0 : UInt8).toNat = 0 := rfl
  rw [hzero, hone] at hval
  omega

end Block

/-! ## The round trip -/

section RoundTrip

variable {priv : Server.PrivateKey} {msg : List UInt8}

theorem powerBlock_encrypted (hn : 0 < priv.n) (hpair : ExponentPair priv.n priv.e priv.d)
    (hfit : msg.length + 11 ≤ Server.keyLen priv.n) :
    powerBlock ⟨priv.n, priv.e⟩ (Big.fillBytes (Server.keyLen priv.n)
        (Big.setBytes (Server.paddedBlock (Server.keyLen priv.n) msg) ^ priv.d % priv.n)) =
      Server.paddedBlock (Server.keyLen priv.n) msg := by
  have hlt := Server.paddedBlock_lt hn.ne' hfit
  have hlen := Server.paddedBlock_length hfit
  rw [powerBlock, Big.setBytes_fillBytes, hpair.decrypt hlt]
  conv_rhs => rw [← Big.fillBytes_setBytes (Server.paddedBlock (Server.keyLen priv.n) msg)]
  rw [hlen]
  rfl

/-- An encrypted block has the length of the modulus, and its message is found in it. -/
theorem pubKeyDecrypt_encrypted (hn : 0 < priv.n) (hpair : ExponentPair priv.n priv.e priv.d)
    (hfit : msg.length + 11 ≤ Server.keyLen priv.n) {c : List UInt8}
    (hc : c = Big.fillBytes (Server.keyLen priv.n)
      (Big.setBytes (Server.paddedBlock (Server.keyLen priv.n) msg) ^ priv.d % priv.n)) :
    c.length = Server.keyLen priv.n ∧
      pubKeyDecrypt ⟨priv.n, priv.e⟩ c = some (.ok msg) := by
  subst hc
  have hlen := Big.fillBytes_length (lt_trans
    (Nat.mod_lt (Big.setBytes (Server.paddedBlock (Server.keyLen priv.n) msg) ^ priv.d) hn)
    (Big.lt_pow_byteLen priv.n))
  refine ⟨hlen, (pubKeyDecrypt_ok_iff hn).mpr ⟨hlen, ?_, ?_⟩⟩
  · rw [Big.setBytes_fillBytes]
    exact (Nat.mod_lt _ hn).le
  · rw [powerBlock_encrypted hn hpair hfit]
    exact unpad_ok_iff.mpr ⟨1, 0, _, rfl, Or.inr rfl, dropWhile_padding _ msg⟩

end RoundTrip

/-- `priKeyEncrypt` refuses a message that is too long. It yields a block for any other one, whatever
the blinding factor that the random source comes to, and whenever it yields one, the block is as long
as the modulus and `pubKeyDecrypt` makes the message of it again. -/
theorem task_roundTrip (priv : Server.PrivateKey) (hk : 11 ≤ Server.keyLen priv.n)
    (hpair : ExponentPair priv.n priv.e priv.d)
    (hpre : ∀ pre, priv.precomputed = some pre → pre.Consistent priv)
    (random : Option (List (Except GoString ℕ))) (msg : List UInt8) :
    (Server.keyLen priv.n - 11 < msg.length →
        ∃ err, Server.priKeyEncrypt random priv msg = some (.error err)) ∧
      (msg.length ≤ Server.keyLen priv.n - 11 →
        ((∀ draws, random = some draws → Server.DeliversFactor priv.n draws) →
          ∃ c, Server.priKeyEncrypt random priv msg = some (.ok c)) ∧
        ∀ c, Server.priKeyEncrypt random priv msg = some (.ok c) →
          c.length = Server.keyLen priv.n ∧
            pubKeyDecrypt ⟨priv.n, priv.e⟩ c = some (.ok msg)) := by
  have hn := Server.keyLen_pos_modulus hk
  constructor
  · intro hlong
    exact ⟨_, Server.priKeyEncrypt_long (by omega)⟩
  · intro hshort
    have hfit : msg.length + 11 ≤ Server.keyLen priv.n := by omega
    constructor
    · intro hrandom
      exact ⟨_, Server.priKeyEncrypt_eq hn hpair hpre
        (fun draws h => Server.blindingFactor_delivers (hrandom draws h)) hfit⟩
    · intro c hc
      have hfactor := Server.priKeyEncrypt_ok_factor hc
      rw [Server.priKeyEncrypt_eq hn hpair hpre hfactor hfit, Option.some.injEq,
        Except.ok.injEq] at hc
      exact pubKeyDecrypt_encrypted hn hpair hfit hc.symm

/-! ## The other direction -/

/-- The daemon accepts only blocks of type 1 if and only if, whenever the power of a ciphertext
passes its tests, the second byte is 1 and the scan passes over padding bytes only, eight at least. -/
theorem pubKeyDecrypt_authentic_iff (pub : PublicKey) (hk : 11 ≤ pub.len) (data : List UInt8) :
    (∀ msg, pubKeyDecrypt pub data = some (.ok msg) →
        Big.setBytes data < pub.n ∧ IsBlock (powerBlock pub data) msg) ↔
      (data.length = pub.len → Big.setBytes data ≤ pub.n →
        ∀ d1 rest, powerBlock pub data = 0 :: d1 :: rest → d1 = 0 ∨ d1 = 1 → 0 ∈ rest →
          d1 = 1 ∧ (∀ x ∈ rest.takeWhile (· ≠ 0), x = 255) ∧
            8 ≤ (rest.takeWhile (· ≠ 0)).length) := by
  have hn := modulus_pos hk
  constructor
  · intro h hlen hle d1 rest hblock hd1 hzero
    obtain ⟨b, msg, hscan⟩ : ∃ b msg, rest.dropWhile (· ≠ 0) = b :: msg := by
      cases hs : rest.dropWhile (· ≠ 0) with
      | nil => exact absurd hzero (dropWhile_eq_nil_iff_not_mem.mp hs)
      | cons b msg => exact ⟨b, msg, rfl⟩
    have hok : pubKeyDecrypt pub data = some (.ok msg) :=
      (pubKeyDecrypt_ok_iff hn).mpr
        ⟨hlen, hle, unpad_ok_iff.mpr ⟨d1, b, rest, hblock, hd1, hscan⟩⟩
    obtain ⟨-, hisBlock⟩ := h msg hok
    rw [hblock] at hisBlock
    exact (isBlock_iff hscan).mp hisBlock
  · intro h msg hok
    obtain ⟨hlen, hle, hunpad⟩ := (pubKeyDecrypt_ok_iff hn).mp hok
    obtain ⟨d1, b, rest, hblock, hd1, hscan⟩ := unpad_ok_iff.mp hunpad
    have hzero : 0 ∈ rest := by
      have hb := dropWhile_head_zero hscan
      rw [← List.takeWhile_append_dropWhile (p := fun x : UInt8 => decide (x ≠ 0)) (l := rest), hscan, hb]
      simp
    have hpadded := h hlen hle d1 rest hblock hd1 hzero
    refine ⟨lt_of_le_of_ne hle ?_, ?_⟩
    · intro heq
      rw [hpadded.1] at hblock
      exact powerBlock_modulus hk heq rest hblock
    · rw [hblock]
      exact (isBlock_iff hscan).mpr hpadded

/-! ## Any ciphertext -/

/-- The daemon lives through a ciphertext if and only if, whenever its power passes the two tests of
the block, that has a zero byte behind them. -/
theorem pubKeyDecrypt_survives_iff (pub : PublicKey) (hk : 11 ≤ pub.len) (data : List UInt8) :
    pubKeyDecrypt pub data ≠ none ↔
      (data.length = pub.len → Big.setBytes data ≤ pub.n →
        ∀ d1 rest, powerBlock pub data = 0 :: d1 :: rest → d1 = 0 ∨ d1 = 1 → 0 ∈ rest) := by
  have hn := modulus_pos hk
  have hd : 2 ≤ (powerBlock pub data).length := by
    rw [powerBlock_length hn]
    omega
  by_cases hlen : data.length = pub.len
  · by_cases hle : Big.setBytes data ≤ pub.n
    · rw [pubKeyDecrypt_eq hn hlen hle, Ne, unpad_none_iff hd]
      constructor
      · intro h _ _ d1 rest hblock hd1
        by_contra hzero
        exact h ⟨d1, rest, hblock, hd1, hzero⟩
      · rintro h ⟨d1, rest, hblock, hd1, hzero⟩
        exact hzero (h hlen hle d1 rest hblock hd1)
    · have herr : pubKeyDecrypt pub data ≠ none := by
        rw [pubKeyDecrypt_size hlen (not_le.mp hle)]
        exact Option.some_ne_none _
      exact iff_of_true herr fun _ hle' => absurd hle' hle
  · have herr : pubKeyDecrypt pub data ≠ none := by
      rw [pubKeyDecrypt_length hlen]
      exact Option.some_ne_none _
    exact iff_of_true herr fun hlen' => absurd hlen' hlen

/-! ## A key -/

/-- The factors of the key are the Mersenne primes of 61 and 31 bits. -/
theorem prime_p : (2305843009213693951 : ℕ).Prime := by
  have h : (mersenne 61).Prime := lucas_lehmer_sufficiency 61 (by norm_num) (by norm_num)
  exact h

theorem prime_q : (2147483647 : ℕ).Prime := by
  have h : (mersenne 31).Prime := lucas_lehmer_sufficiency 31 (by norm_num) (by norm_num)
  exact h

/-- A key of twelve bytes with its precomputed values. -/
def mersenneKey : Server.PrivateKey where
  n := 4951760154835678088235319297
  e := 65537
  d := 4181459486416926817284415673
  primes := [2305843009213693951, 2147483647]
  precomputed := some ⟨1690970304802162823, 1431677609, 2147483649, []⟩

theorem mersenneKey_pair : ExponentPair mersenneKey.n mersenneKey.e mersenneKey.d := by
  refine @exponentPair_of_primes mersenneKey.primes mersenneKey.e mersenneKey.d ?_ (by decide)
    (by decide) ?_
  · intro p hp
    simp only [mersenneKey, List.mem_cons, List.not_mem_nil, or_false] at hp
    rcases hp with rfl | rfl
    · exact prime_p
    · exact prime_q
  · intro p hp
    simp only [mersenneKey, List.mem_cons, List.not_mem_nil, or_false] at hp
    rcases hp with rfl | rfl <;> decide

theorem mersenneKey_consistent :
    ∀ pre, mersenneKey.precomputed = some pre → pre.Consistent mersenneKey := by
  intro pre hpre
  rw [mersenneKey, Option.some.injEq] at hpre
  subst hpre
  refine ⟨⟨_, _, [], rfl, by norm_num, by norm_num, ?_, ?_, by decide, trivial⟩, by decide⟩
  · exact pow_modEq_of_exponents prime_p (by norm_num) (by decide) (by decide)
  · exact pow_modEq_of_exponents prime_q (by norm_num) (by decide) (by decide)

/-- A source whose first number shares a factor with the modulus. -/
def mersenneSource : List (Except GoString ℕ) := [.ok 2147483647, .ok 7]

theorem mersenneSource_delivers : Server.DeliversFactor mersenneKey.n mersenneSource :=
  ⟨[2147483647], 7, [], rfl, Or.inr (by decide)⟩

/-- A message of one byte goes through. -/
theorem task_roundTrip_mersenneKey :
    ∃ c, Server.priKeyEncrypt (some mersenneSource) mersenneKey (str "x") = some (.ok c) ∧
      c.length = Server.keyLen mersenneKey.n ∧
      pubKeyDecrypt ⟨mersenneKey.n, mersenneKey.e⟩ c = some (.ok (str "x")) := by
  obtain ⟨-, hshort⟩ := task_roundTrip mersenneKey (by decide) mersenneKey_pair
    mersenneKey_consistent (some mersenneSource) (str "x")
  obtain ⟨hyields, hdecrypts⟩ := hshort (by decide)
  obtain ⟨c, hc⟩ := hyields fun draws h => by
    rw [← Option.some.inj h]
    exact mersenneSource_delivers
  obtain ⟨hlen, hmsg⟩ := hdecrypts c hc
  exact ⟨c, hc, hlen, hmsg⟩

/-- The power of this ciphertext is 0, 1 and ten padding bytes, with no separator. -/
theorem pubKeyDecrypt_crashes :
    let pub : PublicKey := ⟨mersenneKey.n, mersenneKey.e⟩
    let data : List UInt8 := [11, 21, 61, 48, 107, 240, 39, 83, 134, 121, 252, 4]
    11 ≤ pub.len ∧ powerBlock pub data = 0 :: 1 :: List.replicate 10 255 ∧
      pubKeyDecrypt pub data = none := by
  intro pub data
  have hblock : powerBlock pub data = 0 :: 1 :: List.replicate 10 255 := by
    rw [powerBlock, ← Big.exp_eq]
    decide
  exact ⟨by decide, hblock, by decide⟩

/-- The number 1 as a block has zeros behind its second byte. -/
theorem pubKeyDecrypt_survives_mersenneKey :
    let pub : PublicKey := ⟨mersenneKey.n, mersenneKey.e⟩
    let data : List UInt8 := List.replicate 11 0 ++ [1]
    pubKeyDecrypt pub data ≠ none ↔
      (data.length = pub.len → Big.setBytes data ≤ pub.n →
        ∀ d1 rest, powerBlock pub data = 0 :: d1 :: rest → d1 = 0 ∨ d1 = 1 → 0 ∈ rest) :=
  pubKeyDecrypt_survives_iff ⟨mersenneKey.n, mersenneKey.e⟩ (by decide) _

/-- The daemon accepts the number 1 as a block, for any exponent: its second byte and its padding
are zeros. -/
theorem pubKeyDecrypt_accepts_one :
    let pub : PublicKey := ⟨mersenneKey.n, mersenneKey.e⟩
    let data : List UInt8 := List.replicate 11 0 ++ [1]
    let msg : List UInt8 := List.replicate 8 0 ++ [1]
    11 ≤ pub.len ∧ pubKeyDecrypt pub data = some (.ok msg) ∧
      ¬ (Big.setBytes data < pub.n ∧ IsBlock (powerBlock pub data) msg) := by
  intro pub data msg
  have hblock : powerBlock pub data = List.replicate 11 0 ++ [1] := by
    rw [powerBlock, ← Big.exp_eq]
    decide
  refine ⟨by decide, by decide, ?_⟩
  rintro ⟨-, n, -, h⟩
  rw [hblock, List.replicate_succ, List.replicate_succ] at h
  simp at h

theorem pubKeyDecrypt_authentic_mersenneKey :
    let pub : PublicKey := ⟨mersenneKey.n, mersenneKey.e⟩
    let data : List UInt8 := List.replicate 11 0 ++ [2]
    (∀ msg, pubKeyDecrypt pub data = some (.ok msg) →
        Big.setBytes data < pub.n ∧ IsBlock (powerBlock pub data) msg) ↔
      (data.length = pub.len → Big.setBytes data ≤ pub.n →
        ∀ d1 rest, powerBlock pub data = 0 :: d1 :: rest → d1 = 0 ∨ d1 = 1 → 0 ∈ rest →
          d1 = 1 ∧ (∀ x ∈ rest.takeWhile (· ≠ 0), x = 255) ∧
            8 ≤ (rest.takeWhile (· ≠ 0)).length) :=
  pubKeyDecrypt_authentic_iff ⟨mersenneKey.n, mersenneKey.e⟩ (by decide) _

end YulongHids.Daemon
