import YulongHids.Golang.Json
import YulongHids.Golang.Proofs.Utf8Proofs
import YulongHids.Golang.Proofs.StringsProofs

/-!
# What is written as JSON is read again

A rune that was escaped is read as itself, so a string comes back with its bad bytes coerced, and a
map comes back with its strings. What is written has no line feed, so it can be sent as one line.
-/

namespace YulongHids.Golang.Json

/-! ## Strings -/

theorem hexValue_hexDigit : ∀ n < 16, hexValue (hexDigit n) = some n := by decide

theorem readHex4_hexDigits {c : ℕ} (hc : c < 256) (rest : GoString) :
    readHex4 (48 :: 48 :: hexDigit (c / 16) :: hexDigit (c % 16) :: rest) = some (c, rest) := by
  have h0 : hexValue 48 = some 0 := rfl
  rw [readHex4, h0, hexValue_hexDigit _ (by omega), hexValue_hexDigit _ (by omega)]
  simp only [Option.some.injEq, Prod.mk.injEq, and_true]
  omega

/-- A character of ASCII that stands for itself is read as it is. -/
theorem readChar_ascii {b : UInt8} (h1 : ¬ b < 32) (h2 : b < 128) (h3 : b ≠ 92) (rest : GoString) :
    readChar (b :: rest) = some ([b], rest) := by
  rw [readChar, if_neg h1, if_neg h3, if_pos h2]

/-- So is an encoding of more bytes. -/
theorem readChar_encoding {r : ℕ} {e : GoString} (h : Encoding r e) (hbig : ∀ b ∈ e, 128 ≤ b)
    (rest : GoString) : readChar (e ++ rest) = some (encodeRune r, rest) := by
  obtain ⟨b, e', rfl⟩ := List.exists_cons_of_ne_nil h.ne_nil
  have hb : 128 ≤ b := hbig b (List.mem_cons_self)
  have h1 : ¬ b < 32 := UInt8.not_lt.mpr (UInt8.le_trans (show 32 ≤ 128 by decide) hb)
  have h2 : b ≠ 92 := by
    rintro rfl
    exact absurd hb (by decide)
  have hdec : decodeRune (b :: (e' ++ rest)) = some (r, (b :: e').length) := h.decodeRune_append rest
  have hdrop : (b :: (e' ++ rest)).drop (b :: e').length = rest := by
    rw [← List.cons_append, List.drop_left]
  rw [List.cons_append, readChar, if_neg h1, if_neg h2, if_neg (UInt8.not_lt.mpr hb), hdec]
  simp only
  rw [hdrop]

/-- The escape of four digits. -/
theorem readChar_unicode {r : ℕ} (hr : ¬ (0xD800 ≤ r ∧ r < 0xE000)) {s rest : GoString}
    (h : readHex4 s = some (r, rest)) : readChar (92 :: 117 :: s) = some (encodeRune r, rest) := by
  have hchar : readChar (92 :: 117 :: s) = readUnicode s := rfl
  rw [hchar, readUnicode, h]
  simp only
  rw [if_neg hr]

theorem str_unicode_fffd : str "\\ufffd" = [92, 117, 102, 102, 102, 100] := by decide

theorem str_unicode_00 : str "\\u00" = [92, 117, 48, 48] := by decide

theorem str_unicode_202 : str "\\u202" = [92, 117, 50, 48, 50] := by decide

/-- A rune of ASCII that is escaped. -/
theorem readChar_escapeRune_ascii {a : UInt8} (ha : a < 128) (rest : GoString) :
    readChar (escapeRune ⟨[a], some a.toNat⟩ ++ rest) = some ([a], rest) := by
  have hlt : a.toNat < 128 := UInt8.lt_iff_toNat_lt.mp ha
  have hself : a.toNat.toUInt8 = a := toUInt8_eq rfl
  have heq : ∀ {b : UInt8}, a.toNat = b.toNat → a = b := UInt8.toNat_inj.mp
  unfold escapeRune
  simp only
  split_ifs with hquote hlf hcr htab hhtml hline
  · rw [hself]
    rcases hquote with h | h
    · obtain rfl : a = 92 := heq h
      rfl
    · obtain rfl : a = 34 := heq h
      rfl
  · obtain rfl : a = 10 := heq hlf
    rfl
  · obtain rfl : a = 13 := heq hcr
    rfl
  · obtain rfl : a = 9 := heq htab
    rfl
  · rw [str_unicode_00]
    have hread := readChar_unicode (by omega) (readHex4_hexDigits (c := a.toNat) (by omega) rest)
    rw [encodeRune, if_pos hlt, hself] at hread
    exact hread
  · omega
  · have h1 : ¬ a < 32 := fun h => hhtml (Or.inl (UInt8.lt_iff_toNat_lt.mp h))
    have h2 : a ≠ 92 := fun h => hquote (Or.inl (congrArg UInt8.toNat h))
    exact readChar_ascii h1 ha h2 rest

/-- An escaped rune is read as the rune. -/
theorem readChar_escapeRune {r : Rune} (h : r.Found) (rest : GoString) :
    readChar (escapeRune r ++ rest) = some (r.valid, rest) := by
  cases h with
  | alone b =>
    show readChar (str "\\ufffd" ++ rest) = some (runeError, rest)
    rw [str_unicode_fffd]
    exact readChar_unicode (r := 0xFFFD) (by omega) rfl
  | @encoded c e henc =>
    show _ = some (encodeRune c, rest)
    rcases henc.ascii with ⟨a, ha, rfl, rfl⟩ | hbig
    · rw [henc.encodeRune_eq]
      exact readChar_escapeRune_ascii ha rest
    · have hc : 128 ≤ c := by
        by_contra hlt
        have he := henc.encodeRune_eq
        rw [encodeRune, if_pos (by omega)] at he
        have hmem := hbig c.toUInt8 (he ▸ List.mem_singleton_self _)
        have hval : c.toUInt8.toNat = c := UInt8.toNat_ofNat_of_lt' (show c < 256 by omega)
        rw [UInt8.le_iff_toNat_le, hval] at hmem
        exact hlt hmem
      unfold escapeRune
      simp only
      rw [if_neg (by omega), if_neg (by omega), if_neg (by omega), if_neg (by omega),
        if_neg (by omega)]
      split_ifs with hline
      · rw [str_unicode_202]
        rcases hline with rfl | rfl
        · exact readChar_unicode (by omega) rfl
        · exact readChar_unicode (by omega) rfl
      · exact readChar_encoding henc hbig rest

/-- An escaped rune does not begin with a quote. -/
theorem escapeRune_head {r : Rune} (h : r.Found) (rest : GoString) :
    (escapeRune r ++ rest).head? ≠ some 34 := by
  have hcons : ∀ {b : UInt8} {s : GoString}, b ≠ 34 → (b :: s ++ rest).head? ≠ some 34 :=
    fun hb hhead => hb (Option.some.inj hhead)
  cases h with
  | alone b => exact hcons (b := 92) (by decide)
  | @encoded c e henc =>
    unfold escapeRune
    simp only
    split_ifs with hquote hlf hcr htab hhtml hline
    · exact hcons (by decide)
    · exact hcons (b := 92) (by decide)
    · exact hcons (b := 92) (by decide)
    · exact hcons (b := 92) (by decide)
    · exact hcons (b := 92) (by decide)
    · exact hcons (b := 92) (by decide)
    · obtain ⟨b, e', rfl⟩ := List.exists_cons_of_ne_nil henc.ne_nil
      refine hcons ?_
      rintro rfl
      rcases henc.ascii with ⟨a, ha, he, rfl⟩ | hbig
      · obtain ⟨rfl, -⟩ := List.cons.inj he
        exact hquote (Or.inr rfl)
      · exact absurd (hbig 34 List.mem_cons_self) (by decide)

/-- A string is read up to its closing quote, its bad bytes coerced. -/
theorem readString_stringBody (s rest : GoString) {fuel : ℕ} (hfuel : (runes s).length < fuel) :
    readString fuel (stringBody s ++ rest) = some (coerceUTF8 s, rest) := by
  unfold stringBody coerceUTF8
  generalize hrs : runes s = rs at *
  have hfound : ∀ r ∈ rs, r.Found := hrs ▸ runes_found s
  clear hrs
  induction rs generalizing fuel with
  | nil =>
    obtain ⟨fuel, rfl⟩ := Nat.exists_eq_succ_of_ne_zero (Nat.ne_of_gt hfuel)
    rfl
  | cons r rs ih =>
    obtain ⟨fuel, rfl⟩ := Nat.exists_eq_succ_of_ne_zero (Nat.ne_of_gt (Nat.zero_lt_of_lt hfuel))
    rw [List.forall_mem_cons] at hfound
    rw [List.length_cons] at hfuel
    have hih := ih (show rs.length < fuel by omega) hfound.2
    rw [List.flatMap_cons, List.append_assoc, List.append_assoc, readString,
      if_neg (escapeRune_head hfound.1 _), readChar_escapeRune hfound.1]
    simp only
    rw [← List.append_assoc, hih, Option.map_some, List.flatMap_cons]

/-- A rune is written in one byte at least, and the closing quote follows. -/
theorem runes_length_lt (s : GoString) : (runes s).length < (stringBody s).length := by
  have hone : ∀ rs : List Rune, (∀ r ∈ rs, r.Found) → rs.length ≤ (rs.flatMap escapeRune).length := by
    intro rs
    induction rs with
    | nil => exact fun _ => le_rfl
    | cons r rs ih =>
      intro hfound
      rw [List.forall_mem_cons] at hfound
      have hne : escapeRune r ≠ [] := by
        intro hnil
        have hread := readChar_escapeRune hfound.1 []
        rw [hnil] at hread
        cases hread
      have hpos := List.length_pos_iff.mpr hne
      have hih := ih hfound.2
      rw [List.flatMap_cons, List.length_append, List.length_cons]
      omega
  have hle := hone (runes s) (runes_found s)
  rw [stringBody, List.length_append, List.length_singleton]
  omega

theorem readString_marshal (s rest : GoString) :
    readString (stringBody s ++ rest).length (stringBody s ++ rest) = some (coerceUTF8 s, rest) := by
  refine readString_stringBody s rest ?_
  have hlt := runes_length_lt s
  rw [List.length_append]
  omega

/-! ## Values -/

theorem expect_cons (b : UInt8) (rest : GoString) (hb : (b == 32 || b == 9 || b == 10 || b == 13) = false) :
    expect b (b :: rest) = some rest := by
  rw [expect, skipSpace, List.dropWhile_cons_of_neg (by rw [hb]; exact Bool.false_ne_true)]
  exact if_pos rfl

theorem expect_cons_ne {b c : UInt8} (rest : GoString) (hne : c ≠ b)
    (hc : (c == 32 || c == 9 || c == 10 || c == 13) = false) : expect b (c :: rest) = none := by
  rw [expect, skipSpace, List.dropWhile_cons_of_neg (by rw [hc]; exact Bool.false_ne_true)]
  exact if_neg hne

theorem readValue_marshalString (fuel : ℕ) (s rest : GoString) :
    readValue (fuel + 1) (marshalString s ++ rest) = some (.string (coerceUTF8 s), rest) := by
  have hskip : skipSpace (34 :: (stringBody s ++ rest)) = 34 :: (stringBody s ++ rest) := rfl
  rw [marshalString, List.cons_append, readValue, hskip]
  simp only
  rw [if_neg (by decide), if_neg (by decide), if_pos trivial, readString_marshal, Option.map_some]

/-- The members of an object as they are read from their text. -/
def coercedMember (entry : GoString × GoString) : GoString × Json :=
  (coerceUTF8 entry.1, .string (coerceUTF8 entry.2))

/-- One member is read, and what stands behind it decides how it goes on. -/
theorem readMembers_marshalMember (fuel : ℕ) (entry : GoString × GoString) (t : GoString) :
    readMembers (fuel + 2) (marshalMember entry ++ t) =
      match expect 44 t with
      | some s => (readMembers (fuel + 1) s).map fun r => (coercedMember entry :: r.1, r.2)
      | none => (expect 125 t).map fun s => ([coercedMember entry], s) := by
  have htext : marshalMember entry ++ t =
      34 :: (stringBody entry.1 ++ 58 :: (marshalString entry.2 ++ t)) := by
    simp only [marshalMember, marshalString, List.append_assoc, List.cons_append]
  rw [htext, readMembers, expect_cons 34 _ rfl]
  simp only [Option.bind_eq_bind, Option.bind_some]
  rw [readString_marshal]
  simp only [Option.bind_some]
  rw [expect_cons 58 _ rfl]
  simp only [Option.bind_some]
  rw [readValue_marshalString]
  rfl

theorem readMembers_marshal (entry : GoString × GoString) (entries : List (GoString × GoString))
    (rest : GoString) {fuel : ℕ} (hfuel : entries.length + 1 < fuel) :
    readMembers fuel (join ((entry :: entries).map marshalMember) [44] ++ 125 :: rest) =
      some ((entry :: entries).map coercedMember, rest) := by
  induction entries generalizing entry fuel with
  | nil =>
    obtain ⟨fuel, rfl⟩ := Nat.exists_eq_add_of_le' (show 2 ≤ fuel from hfuel)
    rw [List.map_singleton, join, List.intercalate_singleton, readMembers_marshalMember,
      expect_cons_ne rest (by decide) rfl]
    simp only
    rw [expect_cons 125 rest rfl]
    rfl
  | cons entry' entries ih =>
    rw [List.length_cons] at hfuel
    obtain ⟨fuel, rfl⟩ := Nat.exists_eq_add_of_le' (show 2 ≤ fuel by omega)
    have hih := ih entry' (show entries.length + 1 < fuel + 1 by omega)
    rw [List.map_cons, List.map_cons, join, List.intercalate_cons_cons, List.append_assoc,
      List.append_assoc, readMembers_marshalMember, List.singleton_append, expect_cons 44 _ rfl]
    simp only
    rw [← List.map_cons, ← join, hih]
    rfl

theorem length_join_ge (entries : List (GoString × GoString)) :
    entries.length ≤ (join (entries.map marshalMember) [44]).length := by
  induction entries with
  | nil => exact Nat.zero_le _
  | cons entry entries ih =>
    have hpos : 0 < (marshalMember entry).length := by
      rw [marshalMember, marshalString, List.length_append, List.length_cons]
      omega
    rcases entries with _ | ⟨entry', entries⟩
    · rw [List.map_singleton, join, List.intercalate_singleton]
      exact hpos
    · rw [List.map_cons, List.map_cons, join, List.intercalate_cons_cons, ← List.map_cons, ← join,
        List.length_append, List.length_append, List.length_cons]
      omega

theorem decode_of_readValue {s rest : GoString} {value : Json}
    (h : readValue (s.length + 1) s = some (value, rest)) (hrest : skipSpace rest = []) :
    decode s = some value := by
  rw [decode, h]
  exact if_pos hrest

/-- The text of a map is read as an object with its members, in the order of the keys. -/
theorem decode_marshalMap (m : Record) {t : GoString} (ht : skipSpace t = []) :
    decode (marshalMap m ++ t) = some (.object ((sortedEntries m).map coercedMember)) := by
  have hlen := length_join_ge (sortedEntries m)
  refine decode_of_readValue ?_ ht
  rw [marshalMap]
  generalize sortedEntries m = entries at *
  rcases entries with _ | ⟨entry, entries⟩
  · rfl
  · have hhead : expect 125 (join ((entry :: entries).map marshalMember) [44] ++ 125 :: t) = none := by
      rcases entries with _ | ⟨entry', entries⟩
      · rw [List.map_singleton, join, List.intercalate_singleton]
        exact expect_cons_ne _ (by decide) rfl
      · rw [List.map_cons, List.map_cons, join, List.intercalate_cons_cons]
        exact expect_cons_ne _ (by decide) rfl
    have hskip : ∀ t, skipSpace (123 :: t) = 123 :: t := fun _ => rfl
    have htext : 123 :: join ((entry :: entries).map marshalMember) [44] ++ [125] ++ t =
        123 :: (join ((entry :: entries).map marshalMember) [44] ++ 125 :: t) := by
      rw [List.cons_append, List.cons_append, List.append_assoc, List.singleton_append]
    have hfuel : entries.length + 1 <
        (123 :: (join ((entry :: entries).map marshalMember) [44] ++ 125 :: t)).length := by
      rw [List.length_cons, List.length_append, List.length_cons]
      rw [List.length_cons] at hlen
      omega
    rw [htext, readValue, hskip]
    simp only [if_true]
    rw [hhead]
    simp only
    rw [readMembers_marshal entry entries t hfuel, Option.map_some]

/-! ## Maps -/

theorem mem_sortStrings {l : List GoString} {k : GoString} : k ∈ sortStrings l ↔ k ∈ l :=
  (List.perm_insertionSort (· ≤ ·) l).mem_iff

/-- Members whose keys are valid are put into a map one after the other. -/
theorem foldlM_unmarshalMember (g : GoString → GoString) (ks : List GoString)
    (hvalid : ∀ k ∈ ks, coerceUTF8 k = k) (acc : Record) :
    ∃ m : Record, (ks.map fun k => coercedMember (k, g k)).foldlM unmarshalMember acc = some m ∧
      ∀ k, m.lookup k = if k ∈ ks then some (coerceUTF8 (g k)) else acc.lookup k := by
  induction ks generalizing acc with
  | nil => exact ⟨acc, rfl, fun k => rfl⟩
  | cons k ks ih =>
    rw [List.forall_mem_cons] at hvalid
    obtain ⟨m, hm, hlookup⟩ := ih hvalid.2 (acc.insert k (coerceUTF8 (g k)))
    refine ⟨m, ?_, fun k' => ?_⟩
    · rw [List.map_cons, List.foldlM_cons]
      have hstep : unmarshalMember acc (coercedMember (k, g k)) =
          some (acc.insert k (coerceUTF8 (g k))) := by
        rw [coercedMember, unmarshalMember, hvalid.1]
      rw [hstep]
      exact hm
    · rw [hlookup]
      by_cases hmem : k' ∈ ks
      · rw [if_pos hmem, if_pos (List.mem_cons_of_mem _ hmem)]
      · rw [if_neg hmem]
        by_cases heq : k' = k
        · subst heq
          rw [AList.lookup_insert, if_pos List.mem_cons_self]
        · rw [AList.lookup_insert_ne heq, if_neg (by simp [heq, hmem])]

/-- A map whose keys are valid comes back with its values, their bad bytes coerced. -/
theorem unmarshalMap_marshalMap (m : Record) (hvalid : ∀ k ∈ m, coerceUTF8 k = k) :
    ∃ m' : Record, unmarshalMap (marshalMap m) = some m' ∧
      ∀ k, m'.lookup k = (m.lookup k).map coerceUTF8 := by
  obtain ⟨m', hm', hlookup⟩ := foldlM_unmarshalMember m.get (sortStrings m.keys)
    (fun k hk => hvalid k (AList.mem_keys.mpr (mem_sortStrings.mp hk))) ∅
  refine ⟨m', ?_, fun k => ?_⟩
  · rw [unmarshalMap, ← List.append_nil (marshalMap m), decode_marshalMap m rfl]
    simp only [sortedEntries, List.map_map]
    exact hm'
  · rw [hlookup]
    by_cases hk : k ∈ m
    · obtain ⟨v, hv⟩ := Option.isSome_iff_exists.mp (AList.lookup_isSome.mpr hk)
      rw [if_pos (mem_sortStrings.mpr (AList.mem_keys.mp hk)), Record.get, hv]
      rfl
    · rw [if_neg fun h => hk (AList.mem_keys.mpr (mem_sortStrings.mp h)),
        AList.lookup_eq_none.mpr hk, AList.lookup_empty]
      rfl

/-! ## Lines -/

theorem escapeRune_no_newline {r : Rune} (h : r.Found) : 10 ∉ escapeRune r := by
  have hhex : ∀ n < 16, (10 : UInt8) ≠ hexDigit n := by decide
  cases h with
  | alone b => exact show (10 : UInt8) ∉ str "\\ufffd" by decide
  | @encoded c e henc =>
    unfold escapeRune
    simp only
    split_ifs with hquote hlf hcr htab hhtml hline
    · rcases hquote with rfl | rfl <;> decide
    · decide
    · decide
    · decide
    · have h1 : (10 : UInt8) ∉ str "\\u00" := by decide
      simp only [List.mem_append, List.mem_cons, List.not_mem_nil, or_false, not_or]
      exact ⟨h1, hhex _ (by omega), hhex _ (by omega)⟩
    · have h1 : (10 : UInt8) ∉ str "\\u202" := by decide
      simp only [List.mem_append, List.mem_cons, List.not_mem_nil, or_false, not_or]
      exact ⟨h1, hhex _ (by omega)⟩
    · intro hmem
      rcases henc.ascii with ⟨a, ha, rfl, rfl⟩ | hbig
      · obtain rfl := List.mem_singleton.mp hmem
        exact hlf rfl
      · exact absurd (hbig 10 hmem) (by decide)

theorem marshalString_no_newline (s : GoString) : 10 ∉ marshalString s := by
  intro hmem
  rw [marshalString, stringBody, List.mem_cons, List.mem_append, List.mem_flatMap,
    List.mem_singleton] at hmem
  rcases hmem with h | ⟨r, hr, h⟩ | h
  · exact absurd h (by decide)
  · exact escapeRune_no_newline (runes_found s r hr) h
  · exact absurd h (by decide)

theorem marshalMap_no_newline (m : Record) : 10 ∉ marshalMap m := by
  intro hmem
  rw [marshalMap, List.cons_append, List.mem_cons, List.mem_append, List.mem_singleton] at hmem
  rcases hmem with h | h | h
  · exact absurd h (by decide)
  · rcases mem_join h with hb | ⟨s, hs, hb⟩
    · exact absurd hb (by decide)
    · obtain ⟨entry, -, rfl⟩ := List.mem_map.mp hs
      rw [marshalMember, List.mem_append, List.mem_cons] at hb
      rcases hb with hb | hb | hb
      · exact marshalString_no_newline _ hb
      · exact absurd hb (by decide)
      · exact marshalString_no_newline _ hb
  · exact absurd h (by decide)

end YulongHids.Golang.Json
