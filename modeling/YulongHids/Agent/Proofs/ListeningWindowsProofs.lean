import YulongHids.Agent.ListeningWindows
import YulongHids.Agent.Proofs.LanProofs
import YulongHids.Golang.Proofs.NetProofs

/-!
# Proofs: listening ports on Windows

The two decoders respect the byte order and every record describes its row. The loops skip nothing,
so the result is right exactly where there is nothing to skip.
-/

namespace YulongHids.Agent

open Golang

/-! ## Byte order -/

theorem addrDecode_eq (addr : UInt32) : addrDecode addr = dottedText (octets addr.toNat) := by
  have h0 : addr.toUInt8 = (addr.toNat / 256 ^ 0).toUInt8 := by
    apply UInt8.toNat_inj.mp
    simp
  have h1 : (addr >>> 8).toUInt8 = (addr.toNat / 256 ^ 1).toUInt8 := by
    apply UInt8.toNat_inj.mp
    simp [Nat.shiftRight_eq_div_pow]
  have h2 : (addr >>> 16).toUInt8 = (addr.toNat / 256 ^ 2).toUInt8 := by
    apply UInt8.toNat_inj.mp
    simp [Nat.shiftRight_eq_div_pow]
  have h3 : (addr >>> 24).toUInt8 = (addr.toNat / 256 ^ 3).toUInt8 := by
    apply UInt8.toNat_inj.mp
    simp [Nat.shiftRight_eq_div_pow]
  unfold addrDecode
  rw [h0, h1, h2, h3]
  rfl

theorem bigEndianUint16_toNat (b0 b1 : UInt8) :
    (bigEndianUint16 b0 b1).toNat = 256 * b0.toNat + b1.toNat := by
  have h0 := b0.toNat_lt
  have hlow : b1.toNat < 2 ^ 8 := b1.toNat_lt
  have hshift : (b0.toUInt16 <<< 8).toNat = 2 ^ 8 * b0.toNat := by
    simp [Nat.shiftLeft_eq]
    omega
  rw [bigEndianUint16, UInt16.toNat_or, hshift, UInt8.toNat_toUInt16, Nat.or_comm,
    ← Nat.two_pow_add_eq_or_of_lt hlow]

theorem portDecode_eq (row : MibTcpRow) : portDecode row.dwLocalPort = row.port := by
  rw [portDecode, bigEndianUint16_toNat, MibTcpRow.port]
  simp [Nat.shiftRight_eq_div_pow]

theorem addressText_eq (row : MibTcpRow) :
    addressText row = dottedText (octets row.dwLocalAddr.toNat) ++ str ":" ++ itoa row.port := by
  rw [addressText, addrDecode_eq, portDecode_eq]

/-! ## Records -/

theorem record2003_describes (row : MibTcpRow) : Describes row (record2003 row) := by
  refine ⟨?_, Record.get_insert ..⟩
  rw [record2003, Record.get_insert_ne _ (by decide), Record.get_insert, addressText_eq]

theorem recordOther_describes (getProcessName : GoString → Option GoString) (row : MibTcpRow2) :
    Describes row.toMibTcpRow (recordOther getProcessName row) := by
  refine ⟨?_, Record.get_insert ..⟩
  rw [← addressText_eq, recordOther, Record.get_insert_ne _ (by decide)]
  split
  · rw [Record.get_insert_ne _ (by decide), Record.get_insert_ne _ (by decide),
      Record.get_insert_ne _ (by decide), Record.get_insert]
  · rw [Record.get_insert_ne _ (by decide), Record.get_insert_ne _ (by decide), Record.get_insert]

/-! ## The loop -/

theorem listens_iff {tcp : MibTcpRow} : tcp.Listens ↔ tcp.dwState = 2 :=
  UInt32.toNat_inj (b := 2)

/-- `tr` is never set, so the test never skips a row. -/
theorem listeningLoop_eq {Row : Type} (dwState : Row → UInt32) (record : Row → Record)
    (rows : List Row) :
    listeningLoop dwState record ⟨[], 0, 0⟩ rows =
      (rows.filter fun tcp => decide (dwState tcp = 2)).map record := by
  have htest : Listening.skipped ⟨[], 0, 0⟩ = false := by decide
  induction rows with
  | nil => rfl
  | cons tcp rows ih =>
    unfold listeningLoop
    rw [htest, ih]
    by_cases h : dwState tcp = 2
    · simp [h]
    · simp [h]

theorem describes_map {Row : Type} (view : Row → MibTcpRow) (record : Row → Record)
    (hrecord : ∀ tcp, Describes (view tcp) (record tcp)) (rows : List Row) :
    List.Forall₂ Describes (rows.map view) (rows.map record) := by
  rw [List.forall₂_map_left_iff, List.forall₂_map_right_iff]
  exact List.forall₂_same.mpr fun tcp _ => hrecord tcp

/-- After the two calls: a panic for a count beyond the array, else a record for each listening row,
local or not. -/
theorem listeningOf_cases {Row : Type} (view : Row → MibTcpRow) {record : Row → Record}
    (hrecord : ∀ tcp, Describes (view tcp) (record tcp)) {calls : TcpTableCalls Row}
    (hcalls : calls.first = 122 ∧ calls.second = 0) :
    (65535 < calls.ptb.dwNumEntries.toNat ∧
      listeningOf (fun tcp => (view tcp).dwState) record calls = none) ∨
    (calls.ptb.dwNumEntries.toNat ≤ 65535 ∧ ∃ records,
      listeningOf (fun tcp => (view tcp).dwState) record calls = some records ∧
      List.Forall₂ Describes
        (((calls.ptb.table.map view).take calls.ptb.dwNumEntries.toNat).filter
          fun row => decide row.Listens) records) := by
  have hlen := calls.ptb.length_table
  unfold listeningOf MibTcpTable.entries
  rw [hcalls.1, hcalls.2, hlen]
  by_cases hle : calls.ptb.dwNumEntries.toNat ≤ 65535
  · have hrows : ((calls.ptb.table.map view).take calls.ptb.dwNumEntries.toNat).filter
        (fun row => decide row.Listens) =
          ((calls.ptb.table.take calls.ptb.dwNumEntries.toNat).filter
            fun tcp => decide ((view tcp).dwState = 2)).map view := by
      rw [← List.map_take, List.filter_map]
      simp only [Function.comp_def, listens_iff]
    refine .inr ⟨hle, _, by simp only [hle, if_true]; rfl, ?_⟩
    rw [hrows, listeningLoop_eq]
    exact describes_map view record hrecord _
  · exact .inl ⟨by omega, by simp [hle]⟩

theorem getListeningWindows_cases {sys : WinTcp} (h : sys.Returned) :
    (65535 < sys.numEntries ∧ getListeningWindows sys = none) ∨
    (sys.numEntries ≤ 65535 ∧ ∃ records, getListeningWindows sys = some records ∧
      List.Forall₂ Describes (sys.rows.filter fun row => decide row.Listens) records) := by
  unfold WinTcp.Returned at h
  unfold getListeningWindows WinTcp.rows WinTcp.numEntries
  split at h
  · next husers =>
    simp only [husers, if_true]
    exact listeningOf_cases MibTcpRow2.toMibTcpRow (recordOther_describes sys.getProcessName) h
  · next husers =>
    simp only [husers, if_false, Bool.false_eq_true]
    have hcases := listeningOf_cases id record2003_describes h
    rwa [List.map_id] at hcases

/-! ## What is reported -/

theorem wanted_eq_iff {rows : List MibTcpRow} :
    (rows.filter fun row => decide (row.Listens ∧ ¬ row.Local)) =
        (rows.filter fun row => decide row.Listens) ↔
      ∀ row ∈ rows, row.Listens → ¬ row.Local := by
  constructor
  · intro heq row hrow hlistens
    have hmem : row ∈ rows.filter fun row => decide row.Listens :=
      List.mem_filter.mpr ⟨hrow, decide_eq_true hlistens⟩
    rw [← heq] at hmem
    exact (of_decide_eq_true (List.mem_filter.mp hmem).2).2
  · intro hnone
    refine List.filter_congr fun row hrow => ?_
    rw [decide_eq_decide]
    exact ⟨fun h => h.1, fun h => ⟨h, hnone row hrow h⟩⟩

/-- Lists of records for both selections of rows exist only where they are one. -/
theorem wanted_eq_of_forall₂ {rows : List MibTcpRow} {records : List Record}
    (hwanted : Reported rows records)
    (hall : List.Forall₂ Describes (rows.filter fun row => decide row.Listens) records) :
    (rows.filter fun row => decide (row.Listens ∧ ¬ row.Local)) =
      (rows.filter fun row => decide row.Listens) := by
  have hsub : (rows.filter fun row => decide (row.Listens ∧ ¬ row.Local)).Sublist
      (rows.filter fun row => decide row.Listens) := by
    refine List.monotone_filter_right rows fun row hrow => ?_
    exact decide_eq_true (of_decide_eq_true hrow).1
  exact hsub.eq_of_length (hwanted.length_eq.trans hall.length_eq.symm)

/-- The ports are reported as intended exactly when the array holds the table and no listening row
has a local address. -/
theorem getListeningWindows_reported_iff (sys : WinTcp) (h : sys.Returned) :
    (∃ records, getListeningWindows sys = some records ∧ Reported sys.rows records) ↔
      sys.numEntries ≤ 65535 ∧ ∀ row ∈ sys.rows, row.Listens → ¬ row.Local := by
  rcases getListeningWindows_cases h with ⟨hlong, hnone⟩ | ⟨hle, records, hrecords, hall⟩
  · constructor
    · rintro ⟨records, hrecords, -⟩
      rw [hnone] at hrecords
      cases hrecords
    · rintro ⟨hle, -⟩
      omega
  · rw [← wanted_eq_iff]
    constructor
    · rintro ⟨records', hrecords', hwanted⟩
      rw [hrecords] at hrecords'
      cases hrecords'
      exact ⟨hle, wanted_eq_of_forall₂ hwanted hall⟩
    · rintro ⟨-, heq⟩
      refine ⟨records, hrecords, ?_⟩
      unfold Reported
      rw [heq]
      exact hall

/-- A table with one entry in use. -/
def oneEntry {Row : Type} (row : Row) : MibTcpTable Row where
  dwNumEntries := 1
  table := row :: List.replicate 65534 row
  length_table := by rw [List.length_cons, List.length_replicate]

theorem listeningOf_oneEntry {Row : Type} (dwState : Row → UInt32) (record : Row → Record)
    (row : Row) :
    listeningOf dwState record ⟨122, 0, oneEntry row⟩ =
      some (listeningLoop dwState record ⟨[], 0, 0⟩ [row]) := by
  have hentries : (oneEntry row).entries = some [row] := by
    rw [MibTcpTable.entries, (oneEntry row).length_table]
    rfl
  unfold listeningOf
  rw [hentries]
  rfl

/-- Port 80 is open at an address, in either variant. -/
def oneListener (users : Bool) (addr : UInt32) : WinTcp where
  users := users
  calls2003 := ⟨122, 0, oneEntry ⟨2, addr, 0x5000⟩⟩
  callsOther := ⟨122, 0, oneEntry ⟨⟨2, addr, 0x5000⟩, 1234⟩⟩
  getProcessName := fun _ => none

theorem getListeningWindows_reported_wildcard :
    (∃ records, getListeningWindows (oneListener false 0) = some records ∧
        Reported (oneListener false 0).rows records) ↔
      (oneListener false 0).numEntries ≤ 65535 ∧
        ∀ row ∈ (oneListener false 0).rows, row.Listens → ¬ row.Local :=
  getListeningWindows_reported_iff (oneListener false 0) ⟨rfl, rfl⟩

/-- No row is to be reported, and one is: `127.0.0.1:80`. -/
theorem getListeningWindows_loopback :
    (oneListener false 0x0100007f).Returned ∧
    (getListeningWindows (oneListener false 0x0100007f)).map
        (List.map fun m => Record.get m (str "address")) = some [str "127.0.0.1:80"] ∧
    (¬ ∃ records, getListeningWindows (oneListener false 0x0100007f) = some records ∧
      Reported (oneListener false 0x0100007f).rows records) ∧
    (oneListener true 0x0100007f).Returned ∧
    (getListeningWindows (oneListener true 0x0100007f)).map
        (List.map fun m => Record.get m (str "address")) = some [str "127.0.0.1:80"] ∧
    ¬ ∃ records, getListeningWindows (oneListener true 0x0100007f) = some records ∧
      Reported (oneListener true 0x0100007f).rows records := by
  have hnone : ∀ users, (oneListener users 0x0100007f).rows.filter
      (fun row => decide (row.Listens ∧ ¬ row.Local)) = [] := by
    intro users
    cases users <;> rfl
  have hone : ∀ users, (getListeningWindows (oneListener users 0x0100007f)).map
      (List.map fun m => Record.get m (str "address")) = some [str "127.0.0.1:80"] := by
    intro users
    unfold getListeningWindows getListening2003 getListeningOther oneListener
    rw [listeningOf_oneEntry, listeningOf_oneEntry]
    cases users <;> decide
  have hnot : ∀ users, ¬ ∃ records,
      getListeningWindows (oneListener users 0x0100007f) = some records ∧
        Reported (oneListener users 0x0100007f).rows records := by
    rintro users ⟨records, hrecords, hreported⟩
    unfold Reported at hreported
    rw [hnone users] at hreported
    cases hreported
    have haddress := hone users
    rw [hrecords] at haddress
    cases haddress
  exact ⟨⟨rfl, rfl⟩, hone false, hnot false, ⟨rfl, rfl⟩, hone true, hnot true⟩

/-! ## The test that is not applied -/

theorem itoa_byte_injective : Function.Injective fun b : UInt8 => itoa b.toNat := by
  intro b b' hb
  have hparse := congrArg parseOctet hb
  simp only [parseOctet_itoa] at hparse
  exact Option.some.inj hparse

section Quad

variable {a b c d : UInt8}

theorem dottedText_eq_loopback_iff :
    dottedText [a, b, c, d] = str "127.0.0.1" ↔ [a, b, c, d] = [127, 0, 0, 1] := by
  have htext : str "127.0.0.1" = dottedText [127, 0, 0, 1] := by decide
  constructor
  · intro h
    rw [htext] at h
    have hsplit := congrArg (split · 46) h
    simp only [split_dottedText (List.cons_ne_nil _ _)] at hsplit
    exact itoa_byte_injective.list_map hsplit
  · intro h
    rw [h, htext]

theorem inBlock_linkLocal_iff : InBlock [169, 254, 0, 0] 16 [a, b, c, d] ↔ a = 169 ∧ b = 254 := by
  have ha := a.toNat_lt
  have hb := b.toNat_lt
  have hc := c.toNat_lt
  have hd := d.toNat_lt
  rw [InBlock, addrBits_quad, addrBits_quad, ← UInt8.toNat_inj, ← UInt8.toNat_inj]
  simp only [UInt8.reduceToNat]
  omega

theorem linkLocal_prefix_iff :
    str "169.254." <+: dottedText [a, b, c, d] ↔ a = 169 ∧ b = 254 := by
  constructor
  · rintro ⟨rest, hrest⟩
    have hsplit := split_dottedText (List.cons_ne_nil a [b, c, d])
    have hstr : str "169.254." ++ rest = str "169" ++ 46 :: (str "254" ++ 46 :: rest) := rfl
    rw [← hrest, hstr, split_append_cons, split_append_cons,
      split_eq_singleton (by decide : 46 ∉ str "169"),
      split_eq_singleton (by decide : 46 ∉ str "254")] at hsplit
    have ha : itoa (169 : UInt8).toNat = itoa a.toNat := (List.cons.inj hsplit).1
    have hb : itoa (254 : UInt8).toNat = itoa b.toNat :=
      (List.cons.inj (List.cons.inj hsplit).2).1
    exact ⟨(itoa_byte_injective ha).symm, (itoa_byte_injective hb).symm⟩
  · rintro ⟨rfl, rfl⟩
    have h169 : itoa (169 : UInt8).toNat = str "169" := by decide
    have h254 : itoa (254 : UInt8).toNat = str "254" := by decide
    have htext : dottedText [169, 254, c, d] = itoa (169 : UInt8).toNat ++ 46 ::
        (itoa (254 : UInt8).toNat ++ 46 :: dottedText [c, d]) := by
      simp [dottedText, join]
    rw [htext, h169, h254]
    exact ⟨dottedText [c, d], rfl⟩

end Quad

/-- With the address of the row in `tr` the test would skip the local rows and no others. -/
theorem skipped_iff (addr : UInt32) (localPort pid : ℤ) :
    Listening.skipped ⟨addrDecode addr, localPort, pid⟩ = true ↔
      LocalAddress (octets addr.toNat) := by
  have hquad : octets addr.toNat = [(addr.toNat / 256 ^ 0).toUInt8, (addr.toNat / 256 ^ 1).toUInt8,
    (addr.toNat / 256 ^ 2).toUInt8, (addr.toNat / 256 ^ 3).toUInt8] := rfl
  unfold Listening.skipped LocalAddress
  rw [addrDecode_eq, hquad, Bool.or_eq_true, beq_iff_eq, List.isPrefixOf_iff_prefix,
    dottedText_eq_loopback_iff, linkLocal_prefix_iff, inBlock_linkLocal_iff]

end YulongHids.Agent
