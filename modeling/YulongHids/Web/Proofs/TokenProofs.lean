import YulongHids.Sampling.Rejection
import YulongHids.Web.Token
import Mathlib.Algebra.BigOperators.Fin
import Mathlib.Logic.Equiv.Fin.Basic

/-!
# Proofs: the tokens of the console

After some turns of the loop, `cache` is the last number without the indices that were taken from it.
So the loop takes one index of the source at each turn.
-/

namespace YulongHids.Web

open Golang Sampling

variable {src : Source} {s : TokenLoop} {j fuel n : ℕ}

/-- The loop stands in front of the index `j`. -/
structure TokenLoop.At (src : Source) (j : ℕ) (s : TokenLoop) : Prop where
  cache : s.cache = src.int63 (s.drawn - 1) / 64 ^ (10 - s.remain)
  place : j + s.remain = 10 * s.drawn
  remain_le : s.remain ≤ 10
  drawn_pos : 0 < s.drawn

theorem at_start : TokenLoop.At src 0 ⟨1, src.int63 0, letterIdxMax, n, []⟩ :=
  ⟨by simp [letterIdxMax, letterIdxBits], rfl, le_refl _, Nat.one_pos⟩

theorem TokenLoop.At.refill (h : s.At src j) :
    (s.refill src).At src j ∧ 0 < (s.refill src).remain := by
  have hplace := h.place
  unfold TokenLoop.refill
  split_ifs with hzero
  · refine ⟨⟨?_, ?_, le_refl _, Nat.succ_pos _⟩, ?_⟩
    · simp [letterIdxMax, letterIdxBits]
    · show j + 10 = 10 * (s.drawn + 1)
      omega
    · show 0 < 10
      norm_num
  · exact ⟨h, Nat.pos_of_ne_zero hzero⟩

theorem refill_missing : (s.refill src).missing = s.missing := by
  unfold TokenLoop.refill
  split_ifs <;> rfl

theorem refill_b : (s.refill src).b = s.b := by
  unfold TokenLoop.refill
  split_ifs <;> rfl

/-- In front of an index that is left, the lowest bits of `cache` are that index. -/
theorem TokenLoop.At.mask (h : s.At src j) (hpos : 0 < s.remain) :
    s.cache &&& letterIdxMask = indexAt src j := by
  have hplace := h.place
  have hle := h.remain_le
  have hdiv : j / 10 = s.drawn - 1 := by omega
  have hmod : j % 10 = 10 - s.remain := by omega
  calc s.cache &&& letterIdxMask = s.cache % 64 := Nat.and_two_pow_sub_one_eq_mod _ 6
    _ = indexAt src j := by rw [h.cache, indexAt, hdiv, hmod]

/-- The shift goes to the next index. -/
theorem TokenLoop.At.shift (h : s.At src j) (hpos : 0 < s.remain) (missing : ℕ) (b : GoString) :
    TokenLoop.At src (j + 1)
      ⟨s.drawn, s.cache >>> letterIdxBits, s.remain - 1, missing, b⟩ := by
  have hplace := h.place
  have hle := h.remain_le
  refine ⟨?_, ?_, ?_, h.drawn_pos⟩
  · show s.cache >>> 6 = src.int63 (s.drawn - 1) / 64 ^ (10 - (s.remain - 1))
    have hexp : 10 - (s.remain - 1) = 10 - s.remain + 1 := by omega
    rw [h.cache, hexp, Nat.shiftRight_eq_div_pow, Nat.div_div_eq_div_mul, pow_succ]
    rfl
  · show j + 1 + (s.remain - 1) = 10 * s.drawn
    omega
  · show s.remain - 1 ≤ 10
    omega

/-- A turn takes the next index. -/
theorem TokenLoop.At.turn (h : s.At src j) :
    (s.turn src).At src (j + 1) ∧
      (s.turn src).b = (letterBytes[indexAt src j]?).toList ++ s.b ∧
      (s.turn src).missing = s.missing - (letterBytes[indexAt src j]?).toList.length := by
  obtain ⟨hat, hpos⟩ := h.refill
  have hmask := hat.mask hpos
  unfold TokenLoop.turn
  simp only
  rw [hmask]
  cases letterBytes[indexAt src j]? with
  | none => exact ⟨hat.shift hpos _ _, refill_b, refill_missing⟩
  | some letter =>
    refine ⟨hat.shift hpos _ _, ?_, ?_⟩
    · exact congrArg (letter :: ·) refill_b
    · exact congrArg (· - 1) refill_missing

/-- The letters from an index on. -/
theorem lettersUpTo_succ (m : ℕ) :
    lettersUpTo src (m + 1) = lettersUpTo src m ++ (letterBytes[indexAt src m]?).toList := by
  rw [lettersUpTo, List.range_succ, List.filterMap_append, ← lettersUpTo]
  cases h : letterBytes[indexAt src m]? <;> simp [h]

/-- The letters so far are the first ones. -/
theorem lettersUpTo_prefix (m fuel : ℕ) : lettersUpTo src m <+: lettersUpTo src (m + fuel) := by
  induction fuel with
  | zero => exact List.prefix_rfl
  | succ fuel ih =>
    rw [← Nat.add_assoc, lettersUpTo_succ]
    exact ih.trans (List.prefix_append _ _)

/-- The loop in front of the index `j`, with the letters so far: it ends with the first letters, as
many as are wanted, if there are so many. -/
theorem tokenLoop_eq_some_iff {t : GoString} (h : s.At src j)
    (hb : s.b = ((lettersUpTo src j).take n).reverse)
    (hmissing : s.missing = n - (lettersUpTo src j).length) :
    tokenLoop src fuel s = some t ↔ n ≤ (lettersUpTo src (j + fuel)).length ∧
      t = ((lettersUpTo src (j + fuel)).take n).reverse := by
  induction fuel generalizing j s with
  | zero =>
    rw [tokenLoop, Nat.add_zero]
    split_ifs with hzero
    · rw [Option.some.injEq, eq_comm, hb]
      exact ⟨fun ht => ⟨by omega, ht⟩, fun ht => ht.2⟩
    · simp only [false_iff]
      omega
  | succ fuel ih =>
    rw [tokenLoop]
    split_ifs with hzero
    · have hle : n ≤ (lettersUpTo src j).length := by omega
      obtain ⟨rest, hrest⟩ : lettersUpTo src j <+: lettersUpTo src (j + (fuel + 1)) :=
        lettersUpTo_prefix j (fuel + 1)
      have hall : n ≤ (lettersUpTo src (j + (fuel + 1))).length := by
        rw [← hrest, List.length_append]
        omega
      rw [Option.some.injEq, eq_comm, hb, ← hrest, List.take_append_of_le_length hle, hrest,
        and_iff_right hall]
    · have hlt : (lettersUpTo src j).length < n := by omega
      obtain ⟨hat, hb', hmissing'⟩ := h.turn
      have hnext : (s.turn src).b = ((lettersUpTo src (j + 1)).take n).reverse := by
        have hle : (lettersUpTo src (j + 1)).length ≤ n := by
          rw [lettersUpTo_succ, List.length_append]
          have := Option.length_toList_le (o := letterBytes[indexAt src j]?)
          omega
        rw [List.take_of_length_le hle, hb', hb, List.take_of_length_le hlt.le, lettersUpTo_succ,
          List.reverse_append]
        cases letterBytes[indexAt src j]? <;> rfl
      have hleft : (s.turn src).missing = n - (lettersUpTo src (j + 1)).length := by
        rw [hmissing', hmissing, lettersUpTo_succ, List.length_append]
        omega
      rw [ih hat hnext hleft, Nat.add_right_comm, Nat.add_assoc]

/-- The optimised loop gives the letters of the indices, from the last to the first. -/
theorem randString_eq_some_iff (src : Source) (fuel n : ℕ) (t : GoString) :
    randString src fuel n = some t ↔
      n ≤ (lettersUpTo src fuel).length ∧ t = ((lettersUpTo src fuel).take n).reverse := by
  have hb : ([] : GoString) = ((lettersUpTo src 0).take n).reverse := by simp [lettersUpTo]
  have hloop : randString src fuel n = some t ↔ n ≤ (lettersUpTo src (0 + fuel)).length ∧
      t = ((lettersUpTo src (0 + fuel)).take n).reverse :=
    tokenLoop_eq_some_iff at_start hb (show n = n - 0 from rfl)
  rwa [Nat.zero_add] at hloop

/-! ## All tokens are alike -/

/-- The letter of an index. -/
def letterOf (c : Fin 64) : Option UInt8 := letterBytes[(c : ℕ)]?

/-- The indices of the numbers, one after the other. -/
def indices {K : ℕ} (w : Fin K → Fin (2 ^ 63)) (j : Fin (K * 10)) : Fin 64 :=
  ⟨indexAt (Source.ofDraws w) j, Nat.mod_lt _ (by norm_num)⟩

theorem lettersUpTo_ofDraws {K : ℕ} (w : Fin K → Fin (2 ^ 63)) :
    lettersUpTo (Source.ofDraws w) (K * 10) = accepted letterOf (indices w) := by
  have hrange : List.range (K * 10) = (List.finRange (K * 10)).map Fin.val := by
    rw [List.map_coe_finRange_eq_range]
  rw [lettersUpTo, accepted, hrange, List.filterMap_map, List.ofFn_eq_map, List.filterMap_map]
  rfl

/-- A number is its ten indices and the three bits above them. -/
def splitNumber : Fin (2 ^ 63) ≃ Fin 8 × (Fin 10 → Fin 64) :=
  (finCongr (by norm_num : 2 ^ 63 = 8 * 64 ^ 10)).trans
    (finProdFinEquiv.symm.trans ((Equiv.refl (Fin 8)).prodCongr finFunctionFinEquiv.symm))

theorem splitNumber_index (v : Fin (2 ^ 63)) (i : Fin 10) :
    ((splitNumber v).2 i : ℕ) = (v : ℕ) / 64 ^ (i : ℕ) % 64 := by
  have hpow : 64 ^ 10 = 64 ^ (i : ℕ) * 64 ^ (10 - (i : ℕ)) := by
    rw [← pow_add]
    congr 1
    omega
  have hdvd : 64 ∣ 64 ^ (10 - (i : ℕ)) := dvd_pow_self 64 (by omega)
  show (v : ℕ) % 64 ^ 10 / 64 ^ (i : ℕ) % 64 = (v : ℕ) / 64 ^ (i : ℕ) % 64
  rw [hpow, Nat.mod_mul_right_div_self, Nat.mod_mod_of_dvd _ hdvd]

/-- Numbers are their indices, one after the other, and the bits above them. -/
def splitNumbers (K : ℕ) :
    (Fin K → Fin (2 ^ 63)) ≃ (Fin K → Fin 8) × (Fin (K * 10) → Fin 64) :=
  ((Equiv.refl (Fin K)).arrowCongr splitNumber).trans
    ((Equiv.arrowProdEquivProdArrow _ _ _).trans
      ((Equiv.refl (Fin K → Fin 8)).prodCongr
        ((Equiv.curry (Fin K) (Fin 10) (Fin 64)).symm.trans
          (finProdFinEquiv.arrowCongr (Equiv.refl (Fin 64))))))

theorem splitNumbers_indices {K : ℕ} (w : Fin K → Fin (2 ^ 63)) :
    (splitNumbers K w).2 = indices w := by
  funext j
  have hlt : (j : ℕ) / 10 < K := by omega
  refine Fin.ext ?_
  show ((splitNumber (w j.divNat)).2 j.modNat : ℕ) = indexAt (Source.ofDraws w) j
  have hnumber : (Source.ofDraws w).int63 ((j : ℕ) / 10) = w j.divNat := dif_pos hlt
  rw [splitNumber_index, indexAt, hnumber]
  rfl

theorem letterBytes_nodup : letterBytes.Nodup := by decide

/-- Every letter has one index. -/
theorem card_letterOf {b : UInt8} (hb : b ∈ letterBytes) :
    Fintype.card { c // letterOf c = some b } = 1 := by
  obtain ⟨i, hi, hget⟩ := List.mem_iff_getElem.mp hb
  have hlt : i < 64 := lt_trans hi (by decide)
  have hsome : letterBytes[i]? = some b := List.getElem?_eq_some_iff.mpr ⟨hi, hget⟩
  refine Fintype.card_eq_one_iff.mpr ⟨⟨⟨i, hlt⟩, hsome⟩, ?_⟩
  rintro ⟨c, hc⟩
  have hc' : letterBytes[(c : ℕ)]? = some b := hc
  obtain ⟨hclt, -⟩ := List.getElem?_eq_some_iff.mp hc'
  have hval : (c : ℕ) = i :=
    (List.getElem?_inj hclt letterBytes_nodup).mp (hc'.trans hsome.symm)
  exact Subtype.ext (Fin.ext hval)

/-- How many lists of numbers give a token. -/
theorem card_randString (K : ℕ) (t : GoString) :
    Fintype.card { w : Fin K → Fin (2 ^ 63) //
      randString (Source.ofDraws w) (K * 10) t.length = some t } =
        8 ^ K * ways letterOf (K * 10) t.reverse := by
  have hiff : ∀ w : Fin K → Fin (2 ^ 63),
      randString (Source.ofDraws w) (K * 10) t.length = some t ↔
        True ∧ t.reverse <+: accepted letterOf (splitNumbers K w).2 := by
    intro w
    rw [randString_eq_some_iff, splitNumbers_indices, ← lettersUpTo_ofDraws, true_and,
      List.prefix_iff_eq_take, List.length_reverse]
    constructor
    · rintro ⟨-, ht⟩
      exact List.reverse_eq_iff.mpr ht
    · intro ht
      have hlen := congrArg List.length ht
      rw [List.length_reverse, List.length_take] at hlen
      exact ⟨by omega, List.reverse_eq_iff.mp ht⟩
  have hcard : Fintype.card { w : Fin K → Fin (2 ^ 63) //
      randString (Source.ofDraws w) (K * 10) t.length = some t } =
        Fintype.card { p : (Fin K → Fin 8) × (Fin (K * 10) → Fin 64) //
          True ∧ t.reverse <+: accepted letterOf p.2 } :=
    Fintype.card_congr ((splitNumbers K).subtypeEquiv hiff)
  rw [hcard, Fintype.card_congr (Equiv.subtypeProdEquivProd (p := fun _ : Fin K → Fin 8 => True)
    (q := fun c => t.reverse <+: accepted letterOf c)), Fintype.card_prod]
  refine congrArg₂ (· * ·) ?_ rfl
  simp

/-- All tokens of a length are given by equally many lists of numbers. -/
theorem randString_uniform (K : ℕ) {t t' : GoString} (hlen : t.length = t'.length)
    (ht : ∀ b ∈ t, b ∈ letterBytes) (ht' : ∀ b ∈ t', b ∈ letterBytes) :
    Fintype.card { w : Fin K → Fin (2 ^ 63) //
      randString (Source.ofDraws w) (K * 10) t.length = some t } =
    Fintype.card { w : Fin K → Fin (2 ^ 63) //
      randString (Source.ofDraws w) (K * 10) t'.length = some t' } := by
  have hways : ways letterOf (K * 10) t.reverse = ways letterOf (K * 10) t'.reverse := by
    refine ways_eq (by simpa using hlen) fun b hb b' hb' => ?_
    rw [card_letterOf (ht b (List.mem_reverse.mp hb)),
      card_letterOf (ht' b' (List.mem_reverse.mp hb'))]
  rw [card_randString, card_randString, hways]

theorem randString_uniform_two :
    Fintype.card { w : Fin 1 → Fin (2 ^ 63) //
      randString (Source.ofDraws w) (1 * 10) (str "ab").length = some (str "ab") } =
    Fintype.card { w : Fin 1 → Fin (2 ^ 63) //
      randString (Source.ofDraws w) (1 * 10) (str "Zz").length = some (str "Zz") } :=
  randString_uniform 1 (by decide) (show str "ab" ⊆ letterBytes by decide)
    (show str "Zz" ⊆ letterBytes by decide)

end YulongHids.Web
