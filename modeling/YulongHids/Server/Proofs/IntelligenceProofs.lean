import YulongHids.Server.Intelligence
import YulongHids.Server.Proofs.WarningProofs
import YulongHids.Golang.Proofs.NetProofs

/-!
# Proofs: the cache of the threat intelligence

The key of a record is its type, its host and its target without separators. The types begin with
different letters, so two keys agree if the records agree, or if digits move from the end of the one
host to the beginning of the other target.
-/

namespace YulongHids.Server

open Golang

/-! ## Private addresses -/

theorem isLan_dottedText {p4 : List UInt8} (h : p4.length = 4) :
    isLan (dottedText p4) = privateRange p4 := by
  obtain ⟨a, b, c, d, rfl⟩ := List.length_eq_four.mp h
  have hsplit : split (dottedText [a, b, c, d]) 46 = _ := split_dottedText (by simp)
  have hcount : (dottedText [a, b, c, d]).count 46 = 3 := by
    have hlen := length_split (dottedText [a, b, c, d]) 46
    rw [hsplit] at hlen
    simp at hlen
    omega
  have ha := a.toNat_lt
  have hb := b.toNat_lt
  have hc := c.toNat_lt
  have hd := d.toNat_lt
  have hint : ipToInt (dottedText [a, b, c, d]) =
      a.toNat * 2 ^ 24 + b.toNat * 2 ^ 16 + c.toNat * 2 ^ 8 + d.toNat := by
    simp only [ipToInt, hsplit, List.map_cons, atoi_itoa (show a.toNat < 2 ^ 63 by omega),
      atoi_itoa (show b.toNat < 2 ^ 63 by omega), atoi_itoa (show c.toNat < 2 ^ 63 by omega),
      atoi_itoa (show d.toNat < 2 ^ 63 by omega)]
    rw [Int.bmod_eq_of_le] <;> omega
  rw [isLan, hint, if_neg (by simp [hcount]), Bool.eq_iff_iff]
  simp only [privateRange, Bool.or_eq_true, Bool.and_eq_true, decide_eq_true_eq, beq_iff_eq,
    ← UInt8.toNat_inj, UInt8.le_iff_toNat_le, UInt8.reduceToNat]
  omega

/-! ## Keys -/

/-- The text that stands for a record in the cache. -/
def IntelRecord.key (r : IntelRecord) : GoString := r.info.type ++ r.info.ip ++ r.target

theorem mem_quad {s : GoString} (h : Quad s) {b : UInt8} (hb : b ∈ s) :
    b = 46 ∨ (48 ≤ b ∧ b ≤ 57) := by
  obtain ⟨p4, -, rfl⟩ := h
  exact mem_dottedText hb

theorem count_quad {s : GoString} (h : Quad s) : s.count 46 = 3 := by
  obtain ⟨p4, hlen, rfl⟩ := h
  have hne : p4 ≠ [] := by
    rintro rfl
    cases hlen
  have hsplit := length_split (dottedText p4) 46
  rw [split_dottedText hne, List.length_map, hlen] at hsplit
  omega

/-- What can be added to a dotted quad to get another one are digits. -/
theorem quad_append {s d : GoString} (hs : Quad s) (hd : Quad (s ++ d)) :
    ∀ b ∈ d, 48 ≤ b ∧ b ≤ 57 := by
  have hcount : d.count 46 = 0 := by
    have h1 := count_quad hs
    have h2 := count_quad hd
    rw [List.count_append] at h2
    omega
  intro b hb
  rcases mem_quad hd (List.mem_append_right s hb) with rfl | hdigit
  · exact absurd hb (List.count_eq_zero.mp hcount)
  · exact hdigit

theorem IntelRecord.Valid.type_mem {r : IntelRecord} (h : r.Valid) :
    r.info.type ∈ [str "connection", str "loginlog", str "file"] := by
  rcases h.kind with ⟨ht | ht, -⟩ | ⟨ht, -⟩ <;> simp [ht]

/-- Keys that agree begin with the same type. -/
theorem type_eq_of_append_eq {t t' s s' : GoString}
    (ht : t ∈ [str "connection", str "loginlog", str "file"])
    (ht' : t' ∈ [str "connection", str "loginlog", str "file"]) (h : t ++ s = t' ++ s') : t = t' := by
  have hne : t ≠ [] := by
    rintro rfl
    exact absurd ht (by decide)
  have hne' : t' ≠ [] := by
    rintro rfl
    exact absurd ht' (by decide)
  have hhead : t.head? = t'.head? := by
    have h0 := congrArg List.head? h
    rwa [List.head?_append_of_ne_nil _ hne, List.head?_append_of_ne_nil _ hne'] at h0
  have hletters : ∀ a ∈ [str "connection", str "loginlog", str "file"],
      ∀ b ∈ [str "connection", str "loginlog", str "file"], a.head? = b.head? → a = b := by decide
  exact hletters t ht t' ht' hhead

/-- Two keys agree exactly if the records do, or if digits move between host and target. -/
theorem key_eq_iff {r r' : IntelRecord} (h : r.Valid) (h' : r'.Valid) :
    r'.key = r.key ↔ r.sameAs r' ∨ r.shifted r' := by
  constructor
  · intro hkey
    rw [IntelRecord.key, IntelRecord.key, List.append_assoc, List.append_assoc] at hkey
    have htype := type_eq_of_append_eq h'.type_mem h.type_mem hkey
    rw [htype, List.append_cancel_left_eq] at hkey
    rcases List.append_eq_append_iff.mp hkey with ⟨d, hip, htarget⟩ | ⟨d, hip, htarget⟩
    · by_cases hd : d = []
      · exact Or.inl ⟨htype, by simpa [hd] using hip.symm, by simpa [hd] using htarget⟩
      · exact Or.inr ⟨htype, d, hd, quad_append h'.ip (hip ▸ h.ip), Or.inr ⟨hip, htarget⟩⟩
    · by_cases hd : d = []
      · exact Or.inl ⟨htype, by simpa [hd] using hip, by simpa [hd] using htarget.symm⟩
      · exact Or.inr ⟨htype, d, hd, quad_append h.ip (hip ▸ h'.ip), Or.inl ⟨hip, htarget⟩⟩
  · rintro (⟨htype, hip, htarget⟩ | ⟨htype, d, -, -, ⟨hip, htarget⟩ | ⟨hip, htarget⟩⟩)
    · simp [IntelRecord.key, htype, hip, htarget]
    · simp [IntelRecord.key, htype, hip, htarget]
    · simp [IntelRecord.key, htype, hip, htarget]

/-! ## One call -/

/-- The call of `Intelligence` for a record. -/
def IntelRecord.call (r : IntelRecord) (c : Check) (cache : List GoString) : Intel :=
  { c with info := r.info, v := r.v }.intelligence r.env cache

/-- A valid record gets to the cache test. -/
theorem call_eq_lookUp {r : IntelRecord} (h : r.Valid) (c : Check) (cache : List GoString) :
    ∃ api placeholder description, r.call c cache =
      { c with info := r.info, v := r.v }.lookUp r.env cache r.target api placeholder description := by
  have hfile : r.info.type ≠ str "file" →
      r.target = cutPort (r.v.get (str "remote")) := fun hne => by
    rw [IntelRecord.target, if_neg hne]
  rcases h.kind with ⟨htype, p4, hlen, htarget, hrange⟩ | ⟨htype, htarget⟩
  · have hne : r.info.type ≠ str "file" := by
      rcases htype with ht | ht <;> rw [ht, Ne, str_inj] <;> decide
    have hlan : isLan (cutPort (r.v.get (str "remote"))) = false := by
      rw [← hfile hne, htarget, isLan_dottedText hlen, hrange]
    refine ⟨r.env.conf.ipapi, str "\x7b$ip\x7d", str "威胁情报接口显示此IP存在风险", ?_⟩
    simp only [IntelRecord.call, Check.intelligence, h.switch, Bool.not_true, Bool.false_eq_true,
      if_false, if_pos htype, hlan, hfile hne]
  · have htarget' : r.target = r.v.get (str "hash") := by
      rw [IntelRecord.target, if_pos htype]
    have hne : ¬ (r.info.type = str "connection" ∨ r.info.type = str "loginlog") := by
      rw [htype, str_inj, str_inj]
      decide
    refine ⟨r.env.conf.fileapi, str "\x7b$hash\x7d", str "威胁情报接口显示此文件存在风险", ?_⟩
    simp only [IntelRecord.call, Check.intelligence, h.switch, Bool.not_true, Bool.false_eq_true,
      if_false, if_neg hne, if_pos htype, ← htarget', if_neg htarget]

/-- How a call ends, and what it leaves in the cache. -/
theorem call_spec {r : IntelRecord} (h : r.Valid) (c : Check) (cache : List GoString) :
    ((r.call c cache).exit = .cached ↔ r.key ∈ cache) ∧
      (∀ k, k ∈ (r.call c cache).cache ↔ k ∈ cache ∨ k = r.key) ∧
      ((r.env.txt.compile r.env.conf.regex).isSome = true → (r.call c cache).exit ≠ .crashed) := by
  obtain ⟨api, placeholder, description, hcall⟩ := call_eq_lookUp h c cache
  rw [hcall, Check.lookUp]
  have hkey : r.info.type ++ r.info.ip ++ r.target = r.key := rfl
  simp only [hkey]
  by_cases hmem : r.key ∈ cache
  · rw [if_pos ((inArray_false_iff _ _ _).mpr hmem)]
    refine ⟨by simp [hmem], fun k => ⟨Or.inl, ?_⟩, by simp⟩
    rintro (hk | rfl)
    · exact hk
    · exact hmem
  · rw [if_neg fun hin => hmem ((inArray_false_iff _ _ _).mp hin)]
    cases r.env.get (replaceFirst placeholder r.target api) with
    | none => simp [hmem]
    | some body =>
      cases r.env.txt.compile r.env.conf.regex with
      | none => simp [hmem]
      | some reg => cases hreg : reg body <;> simp [hmem, hreg]

/-! ## A window -/

theorem intelligenceRun_cons (c : Check) (cache : List GoString) (r : IntelRecord)
    (rs : List IntelRecord) :
    intelligenceRun c cache (r :: rs) =
      if (r.call c cache).exit = .crashed then [.crashed]
      else (r.call c cache).exit ::
        intelligenceRun (r.call c cache).check (r.call c cache).cache rs := rfl

/-- A record skipped at the cache test has its key from before the window, or from an earlier
record. -/
theorem earlier_of_cached {rs : List IntelRecord} (hvalid : ∀ r ∈ rs, r.Valid) {c : Check}
    {cache : List GoString} {n : ℕ} {r : IntelRecord} (hr : rs[n]? = some r)
    (hexit : (intelligenceRun c cache rs)[n]? = some IntelExit.cached) :
    r.key ∈ cache ∨ ∃ m < n, ∃ r', rs[m]? = some r' ∧ r'.key = r.key := by
  induction rs generalizing c cache n with
  | nil => cases hr
  | cons r0 rs ih =>
    obtain ⟨hcached, hcache, -⟩ := call_spec (hvalid r0 List.mem_cons_self) c cache
    rw [intelligenceRun_cons] at hexit
    split_ifs at hexit with hcrash
    · cases n with
      | zero => cases hexit
      | succ n => cases hexit
    cases n with
    | zero =>
      obtain rfl : r0 = r := Option.some.inj hr
      exact Or.inl (hcached.mp (Option.some.inj hexit))
    | succ n =>
      rcases ih (fun r hr => hvalid r (List.mem_cons_of_mem r0 hr)) hr hexit with hmem | hearlier
      · rcases (hcache r.key).mp hmem with hmem | hkey
        · exact Or.inl hmem
        · exact Or.inr ⟨0, Nat.succ_pos n, r0, rfl, hkey.symm⟩
      · obtain ⟨m, hm, r', hr', hkey⟩ := hearlier
        exact Or.inr ⟨m + 1, Nat.succ_lt_succ hm, r', hr', hkey⟩

/-- A record with the key of an earlier one is skipped, unless the server ended before it. -/
theorem cached_of_earlier {rs : List IntelRecord} (hvalid : ∀ r ∈ rs, r.Valid)
    (hcompiles : ∀ r ∈ rs, (r.env.txt.compile r.env.conf.regex).isSome = true) {c : Check}
    {cache : List GoString} {n : ℕ} {r : IntelRecord} (hr : rs[n]? = some r)
    (hkey : r.key ∈ cache ∨ ∃ m < n, ∃ r', rs[m]? = some r' ∧ r'.key = r.key) :
    (intelligenceRun c cache rs)[n]? = some IntelExit.cached := by
  induction rs generalizing c cache n with
  | nil => cases hr
  | cons r0 rs ih =>
    obtain ⟨hcached, hcache, hcrash⟩ := call_spec (hvalid r0 List.mem_cons_self) c cache
    rw [intelligenceRun_cons, if_neg (hcrash (hcompiles r0 List.mem_cons_self))]
    cases n with
    | zero =>
      obtain rfl : r0 = r := Option.some.inj hr
      have hmem : r0.key ∈ cache := by
        rcases hkey with hmem | ⟨m, hm, -⟩
        · exact hmem
        · exact absurd hm (Nat.not_lt_zero m)
      rw [List.getElem?_cons_zero, hcached.mpr hmem]
    | succ n =>
      rw [List.getElem?_cons_succ]
      refine ih (fun r hr => hvalid r (List.mem_cons_of_mem r0 hr))
        (fun r hr => hcompiles r (List.mem_cons_of_mem r0 hr)) hr ?_
      rcases hkey with hmem | ⟨m, hm, r', hr', hkey⟩
      · exact Or.inl ((hcache r.key).mpr (Or.inl hmem))
      · cases m with
        | zero =>
          obtain rfl : r0 = r' := Option.some.inj hr'
          exact Or.inl ((hcache r.key).mpr (Or.inr hkey.symm))
        | succ m => exact Or.inr ⟨m, Nat.lt_of_succ_lt_succ hm, r', hr', hkey⟩

/-- In a window where no digits have moved, or where the record is a repeat anyway, only repeats are
skipped. In the other windows something else is, unless the server ends before. -/
theorem skipsRepeats_iff (c : Check) (rs : List IntelRecord) (hvalid : ∀ r ∈ rs, r.Valid) :
    (RepeatedWhereShifted rs → SkipsRepeats c rs) ∧
      ((∀ r ∈ rs, (r.env.txt.compile r.env.conf.regex).isSome = true) →
        SkipsRepeats c rs → RepeatedWhereShifted rs) := by
  have hmem : ∀ {n : ℕ} {r : IntelRecord}, rs[n]? = some r → r.Valid := fun hr =>
    hvalid _ (List.mem_of_getElem? hr)
  constructor
  · intro hcond n r hr hexit
    rcases earlier_of_cached hvalid hr hexit with hnil | ⟨m, hm, r', hr', hkey⟩
    · cases hnil
    · rcases (key_eq_iff (hmem hr) (hmem hr')).mp hkey with hsame | hshift
      · exact ⟨m, hm, r', hr', hsame⟩
      · exact hcond n r hr ⟨m, hm, r', hr', hshift⟩
  · rintro hcompiles hskips n r hr ⟨m, hm, r', hr', hshift⟩
    have hkey := (key_eq_iff (hmem hr) (hmem hr')).mpr (Or.inr hshift)
    exact hskips n r hr (cached_of_earlier hvalid hcompiles hr (Or.inr ⟨m, hm, r', hr', hkey⟩))

/-- A connection of a host, with an interface that does not answer. -/
def connectionRecord (ip remote : GoString) : IntelRecord where
  info := ⟨ip, str "connection", str "linux", [], 0⟩
  v := AList.insert (str "remote") remote ∅
  env := ⟨⟨true, str "http://127.0.0.1/api/?ip=\x7b$ip\x7d", [], str "black"⟩, plainText, fun _ => none⟩

def firstHost : IntelRecord := connectionRecord (str "1.1.1.1") (str "11.2.3.4:80")

def secondHost : IntelRecord := connectionRecord (str "1.1.1.11") (str "1.2.3.4:80")

theorem firstHost_valid : firstHost.Valid :=
  ⟨rfl, ⟨[1, 1, 1, 1], rfl, by decide⟩,
    Or.inl ⟨Or.inl rfl, [11, 2, 3, 4], rfl, by decide, by decide⟩⟩

theorem secondHost_valid : secondHost.Valid :=
  ⟨rfl, ⟨[1, 1, 1, 11], rfl, by decide⟩,
    Or.inl ⟨Or.inl rfl, [1, 2, 3, 4], rfl, by decide, by decide⟩⟩

/-- The first connection of a host, and its repeat. -/
theorem skipsRepeats_repeat : SkipsRepeats newCheck [firstHost, firstHost] := by
  have hvalid : ∀ r ∈ [firstHost, firstHost], r.Valid := by
    intro r hr
    simp only [List.mem_cons, List.not_mem_nil, or_false, or_self] at hr
    exact hr ▸ firstHost_valid
  refine (skipsRepeats_iff newCheck _ hvalid).1 ?_
  rintro n r hr ⟨m, hm, r', hr', -⟩
  have hr1 := List.mem_of_getElem? hr
  have hr2 := List.mem_of_getElem? hr'
  simp only [List.mem_cons, List.not_mem_nil, or_false, or_self] at hr1 hr2
  exact ⟨m, hm, r', hr', by rw [hr1, hr2]; exact ⟨rfl, rfl, rfl⟩⟩

/-- The second host is the first one to connect to its address, and the lookup is skipped. -/
theorem skips_first_lookup :
    ¬ ∀ (c : Check) (rs : List IntelRecord), (∀ r ∈ rs, r.Valid) → SkipsRepeats c rs := by
  intro hall
  have hvalid : ∀ r ∈ [firstHost, secondHost], r.Valid := by
    intro r hr
    simp only [List.mem_cons, List.not_mem_nil, or_false] at hr
    rcases hr with rfl | rfl
    · exact firstHost_valid
    · exact secondHost_valid
  have hexit : (intelligenceRun newCheck [] [firstHost, secondHost])[1]? = some IntelExit.cached := by
    decide
  obtain ⟨m, hm, r', hr', -, hip, -⟩ := hall newCheck _ hvalid 1 secondHost rfl hexit
  obtain rfl : m = 0 := by omega
  obtain rfl : firstHost = r' := Option.some.inj hr'
  exact absurd hip (by decide)

end YulongHids.Server
