import YulongHids.Golang.Utf8

/-!
# Runes and their encodings

A rune that is found in a string is encoded by the bytes it was found in, whatever stands behind
them. So the runes of a string make up the string, and writing them again changes it exactly where a
byte stands alone.
-/

namespace YulongHids.Golang

/-! ## Encodings -/

/-- The encodings that `decodeRune` accepts, with their runes. -/
inductive Encoding : ℕ → GoString → Prop
  | one {a : UInt8} (ha : a < 0x80) : Encoding a.toNat [a]
  | two {a b lo hi : UInt8} (ha : acceptRange a = some (2, lo, hi)) (hb : tailByte lo hi b = true) :
    Encoding (a.toNat % 0x20 * 0x40 + lowBits b) [a, b]
  | three {a b c lo hi : UInt8} (ha : acceptRange a = some (3, lo, hi)) (hb : tailByte lo hi b = true)
    (hc : tailByte 0x80 0xBF c = true) :
    Encoding (a.toNat % 0x10 * 0x1000 + lowBits b * 0x40 + lowBits c) [a, b, c]
  | four {a b c d lo hi : UInt8} (ha : acceptRange a = some (4, lo, hi))
    (hb : tailByte lo hi b = true) (hc : tailByte 0x80 0xBF c = true)
    (hd : tailByte 0x80 0xBF d = true) :
    Encoding (a.toNat % 0x8 * 0x40000 + lowBits b * 0x1000 + lowBits c * 0x40 + lowBits d) [a, b, c, d]

theorem toNat_0x80 : (0x80 : UInt8).toNat = 0x80 := rfl

/-- A first byte with the bounds of its second one, as numbers. -/
theorem acceptRange_bounds {a lo hi : UInt8} {n : ℕ} (h : acceptRange a = some (n, lo, hi)) :
    (n = 2 ∧ 0xC2 ≤ a.toNat ∧ a.toNat < 0xE0 ∧ lo.toNat = 0x80 ∧ hi.toNat = 0xBF) ∨
    (n = 3 ∧ a.toNat = 0xE0 ∧ lo.toNat = 0xA0 ∧ hi.toNat = 0xBF) ∨
    (n = 3 ∧ a.toNat = 0xED ∧ lo.toNat = 0x80 ∧ hi.toNat = 0x9F) ∨
    (n = 3 ∧ 0xE0 < a.toNat ∧ a.toNat < 0xF0 ∧ a.toNat ≠ 0xED ∧ lo.toNat = 0x80 ∧ hi.toNat = 0xBF) ∨
    (n = 4 ∧ a.toNat = 0xF0 ∧ lo.toNat = 0x90 ∧ hi.toNat = 0xBF) ∨
    (n = 4 ∧ 0xF0 < a.toNat ∧ a.toNat < 0xF4 ∧ lo.toNat = 0x80 ∧ hi.toNat = 0xBF) ∨
    (n = 4 ∧ a.toNat = 0xF4 ∧ lo.toNat = 0x80 ∧ hi.toNat = 0x8F) := by
  unfold acceptRange at h
  simp only [UInt8.lt_iff_toNat_lt, ← UInt8.toNat_inj] at h
  split_ifs at h with h1 h2 h3 h4 h5 h6 h7 h8 <;>
    simp only [Option.some.injEq, Prod.mk.injEq] at h <;>
    obtain ⟨rfl, rfl, rfl⟩ := h <;> simp at * <;> omega

theorem tailByte_iff {lo hi b : UInt8} :
    tailByte lo hi b = true ↔ lo.toNat ≤ b.toNat ∧ b.toNat ≤ hi.toNat := by
  simp [tailByte, UInt8.le_iff_toNat_le]

theorem decodeRune_eq_some_iff {s : GoString} {r size : ℕ} :
    decodeRune s = some (r, size) ↔ ∃ e rest, s = e ++ rest ∧ Encoding r e ∧ size = e.length := by
  constructor
  · intro h
    rcases s with _ | ⟨a, s⟩
    · cases h
    unfold decodeRune at h
    simp only at h
    split_ifs at h with ha
    · cases h
      exact ⟨[a], s, rfl, .one ha, rfl⟩
    · split at h
      · next lo hi b rest hrange =>
        split_ifs at h with hb
        cases h
        exact ⟨[a, b], rest, rfl, .two hrange hb, rfl⟩
      · next lo hi b c rest hrange =>
        split_ifs at h with hb
        rw [Bool.and_eq_true] at hb
        cases h
        exact ⟨[a, b, c], rest, rfl, .three hrange hb.1 hb.2, rfl⟩
      · next lo hi b c d rest hrange =>
        split_ifs at h with hb
        rw [Bool.and_eq_true, Bool.and_eq_true] at hb
        cases h
        exact ⟨[a, b, c, d], rest, rfl, .four hrange hb.1.1 hb.1.2 hb.2, rfl⟩
      · cases h
  · rintro ⟨e, rest, rfl, henc, rfl⟩
    have hbig : ∀ {a lo hi : UInt8} {n : ℕ}, acceptRange a = some (n, lo, hi) → ¬ a < 0x80 := by
      intro a lo hi n ha hlt
      have hb := acceptRange_bounds ha
      rw [UInt8.lt_iff_toNat_lt, toNat_0x80] at hlt
      omega
    cases henc with
    | one ha => simp [decodeRune, ha]
    | two ha hb => simp [decodeRune, hbig ha, ha, hb]
    | three ha hb hc => simp [decodeRune, hbig ha, ha, hb, hc]
    | four ha hb hc hd => simp [decodeRune, hbig ha, ha, hb, hc, hd]

section Encoding

variable {r : ℕ} {e : GoString}

theorem toUInt8_eq {n : ℕ} {a : UInt8} (h : n = a.toNat) : n.toUInt8 = a := by
  rw [h]
  exact UInt8.ofNat_toNat

/-- A rune is written as the bytes it was read from. -/
theorem Encoding.encodeRune_eq (h : Encoding r e) : encodeRune r = e := by
  cases h with
  | @one a ha =>
    have hlt : a.toNat < 0x80 := by
      rw [UInt8.lt_iff_toNat_lt] at ha
      exact ha
    rw [encodeRune, if_pos hlt, toUInt8_eq rfl]
  | @two a b lo hi ha hb =>
    have hbounds := acceptRange_bounds ha
    rw [tailByte_iff] at hb
    unfold lowBits
    rw [encodeRune, if_neg (by omega), if_pos (by omega), toUInt8_eq (a := a) (by omega),
      toUInt8_eq (a := b) (by omega)]
  | @three a b c lo hi ha hb hc =>
    have hbounds := acceptRange_bounds ha
    rw [tailByte_iff] at hb hc
    simp only [UInt8.reduceToNat] at hc
    unfold lowBits
    rw [encodeRune, if_neg (by omega), if_neg (by omega), if_neg (by omega), if_pos (by omega),
      toUInt8_eq (a := a) (by omega), toUInt8_eq (a := b) (by omega), toUInt8_eq (a := c) (by omega)]
  | @four a b c d lo hi ha hb hc hd =>
    have hbounds := acceptRange_bounds ha
    rw [tailByte_iff] at hb hc hd
    simp only [UInt8.reduceToNat] at hc hd
    unfold lowBits
    rw [encodeRune, if_neg (by omega), if_neg (by omega), if_neg (by omega), if_neg (by omega),
      toUInt8_eq (a := a) (by omega), toUInt8_eq (a := b) (by omega), toUInt8_eq (a := c) (by omega),
      toUInt8_eq (a := d) (by omega)]

theorem Encoding.ne_nil (h : Encoding r e) : e ≠ [] := by
  cases h <;> exact List.cons_ne_nil _ _

/-- An encoding is one byte of ASCII, or it has none. -/
theorem Encoding.ascii (h : Encoding r e) :
    (∃ a, a < 0x80 ∧ e = [a] ∧ r = a.toNat) ∨ ∀ b ∈ e, 0x80 ≤ b := by
  have hfirst : ∀ {a lo hi : UInt8} {n : ℕ}, acceptRange a = some (n, lo, hi) →
      0x80 ≤ a ∧ ∀ b, tailByte lo hi b = true → 0x80 ≤ b := by
    intro a lo hi n ha
    have hbounds := acceptRange_bounds ha
    refine ⟨?_, fun b hb => ?_⟩
    · rw [UInt8.le_iff_toNat_le, toNat_0x80]
      omega
    · rw [tailByte_iff] at hb
      rw [UInt8.le_iff_toNat_le, toNat_0x80]
      omega
  have htail : ∀ b, tailByte 0x80 0xBF b = true → 0x80 ≤ b := by
    intro b hb
    rw [tailByte_iff] at hb
    rw [UInt8.le_iff_toNat_le]
    exact hb.1
  cases h with
  | one ha => exact Or.inl ⟨_, ha, rfl, rfl⟩
  | two ha hb =>
    right
    simp only [List.forall_mem_cons, List.not_mem_nil, false_implies, implies_true, and_true]
    exact ⟨(hfirst ha).1, (hfirst ha).2 _ hb⟩
  | three ha hb hc =>
    right
    simp only [List.forall_mem_cons, List.not_mem_nil, false_implies, implies_true, and_true]
    exact ⟨(hfirst ha).1, (hfirst ha).2 _ hb, htail _ hc⟩
  | four ha hb hc hd =>
    right
    simp only [List.forall_mem_cons, List.not_mem_nil, false_implies, implies_true, and_true]
    exact ⟨(hfirst ha).1, (hfirst ha).2 _ hb, htail _ hc, htail _ hd⟩

theorem Encoding.decodeRune_append (h : Encoding r e) (rest : GoString) :
    decodeRune (e ++ rest) = some (r, e.length) :=
  decodeRune_eq_some_iff.mpr ⟨e, rest, rfl, h, rfl⟩

end Encoding

/-! ## The runes of a string -/

/-- A rune as it stands in a string: an encoding, or a byte alone. -/
inductive Rune.Found : Rune → Prop
  | encoded {r : ℕ} {e : GoString} (h : Encoding r e) : Rune.Found ⟨e, some r⟩
  | alone (b : UInt8) : Rune.Found ⟨[b], none⟩

theorem runesFrom_append (e s : GoString) : runesFrom e.length (e ++ s) = runes s := by
  induction e with
  | nil => rfl
  | cons b e ih => exact ih

/-- The first rune of a string that is not empty, and the rest. -/
theorem runes_cons (b : UInt8) (s : GoString) :
    ∃ r rest, Rune.Found r ∧ b :: s = r.bytes ++ rest ∧ runes (b :: s) = r :: runes rest := by
  rw [runes, runesFrom]
  rcases hdec : decodeRune (b :: s) with _ | ⟨r, size⟩
  · exact ⟨⟨[b], none⟩, s, .alone b, rfl, rfl⟩
  · obtain ⟨e, rest, hsplit, henc, rfl⟩ := decodeRune_eq_some_iff.mp hdec
    refine ⟨⟨e, some r⟩, rest, .encoded henc, hsplit, ?_⟩
    obtain ⟨a, e', rfl⟩ := List.exists_cons_of_ne_nil henc.ne_nil
    obtain ⟨rfl, rfl⟩ := List.cons.inj hsplit
    have htake : (b :: (e' ++ rest)).take (e'.length + 1) = b :: e' := by
      rw [← List.cons_append, ← List.length_cons, List.take_left]
    show ⟨(b :: (e' ++ rest)).take (e'.length + 1), some r⟩ :: runesFrom e'.length (e' ++ rest) = _
    rw [htake, runesFrom_append]

/-- Induction over a string rune by rune. -/
theorem runes_induction {P : GoString → List Rune → Prop} (hnil : P [] [])
    (hcons : ∀ r rest, Rune.Found r → P rest (runes rest) → P (r.bytes ++ rest) (r :: runes rest))
    (s : GoString) : P s (runes s) := by
  generalize hlen : s.length = n
  induction n using Nat.strong_induction_on generalizing s with
  | _ n ih =>
    rcases s with _ | ⟨b, s⟩
    · exact hnil
    · obtain ⟨r, rest, hfound, hsplit, hrunes⟩ := runes_cons b s
      rw [hrunes, hsplit]
      refine hcons r rest hfound (ih rest.length ?_ rest rfl)
      have hpos : r.bytes ≠ [] := by
        cases hfound with
        | encoded h => exact h.ne_nil
        | alone b => exact List.cons_ne_nil _ _
      rw [← hlen, hsplit, List.length_append]
      have := List.length_pos_iff.mpr hpos
      omega

theorem runes_found (s : GoString) : ∀ r ∈ runes s, r.Found := by
  refine runes_induction (P := fun _ rs => ∀ r ∈ rs, r.Found) (by simp) ?_ s
  intro r rest hfound ih
  exact List.forall_mem_cons.mpr ⟨hfound, ih⟩

/-! ## Valid strings -/

theorem Rune.Found.valid_eq {r : Rune} (h : r.Found) (hv : r.value.isSome = true) :
    r.valid = r.bytes := by
  cases h with
  | encoded henc => exact henc.encodeRune_eq
  | alone b => cases hv

theorem runeError_length : runeError.length = 3 := rfl

theorem Rune.Found.length_le {r : Rune} (h : r.Found) : r.bytes.length ≤ r.valid.length := by
  cases h with
  | encoded henc => exact (congrArg List.length henc.encodeRune_eq).ge
  | alone b =>
    show 1 ≤ runeError.length
    rw [runeError_length]
    decide

theorem Rune.Found.length_lt {r : Rune} (h : r.Found) (hv : r.value.isSome = false) :
    r.bytes.length < r.valid.length := by
  cases h with
  | encoded henc => cases hv
  | alone b =>
    show 1 < runeError.length
    rw [runeError_length]
    decide

/-- Writing the runes again is no change exactly for a valid string. -/
theorem coerceUTF8_eq_iff (s : GoString) : coerceUTF8 s = s ↔ validString s = true := by
  constructor
  · intro h
    by_contra hbad
    have hlt : s.length < (coerceUTF8 s).length := by
      rw [Bool.not_eq_true] at hbad
      revert hbad
      unfold coerceUTF8 validString
      refine runes_induction (P := fun s rs => (rs.all fun r => r.value.isSome) = false →
        s.length < (rs.flatMap Rune.valid).length) (by simp) ?_ s
      intro r rest hfound ih hbad
      rw [List.flatMap_cons, List.length_append, List.length_append]
      have hle : rest.length ≤ ((runes rest).flatMap Rune.valid).length := by
        refine runes_induction (P := fun s rs => s.length ≤ (rs.flatMap Rune.valid).length)
          (by simp) ?_ rest
        intro r rest hfound ih
        rw [List.flatMap_cons, List.length_append, List.length_append]
        exact Nat.add_le_add hfound.length_le ih
      rw [List.all_cons, Bool.and_eq_false_iff] at hbad
      rcases hbad with hbad | hbad
      · exact Nat.add_lt_add_of_lt_of_le (hfound.length_lt hbad) hle
      · exact Nat.add_lt_add_of_le_of_lt hfound.length_le (ih hbad)
    rw [h] at hlt
    exact lt_irrefl _ hlt
  · unfold coerceUTF8 validString
    refine runes_induction (P := fun s rs => (rs.all fun r => r.value.isSome) = true →
      rs.flatMap Rune.valid = s) (fun _ => rfl) ?_ s
    intro r rest hfound ih hall
    rw [List.all_cons, Bool.and_eq_true] at hall
    rw [List.flatMap_cons, hfound.valid_eq hall.1, ih hall.2]

end YulongHids.Golang
