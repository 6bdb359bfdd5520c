import YulongHids.Golang.Proofs.NetProofs
import YulongHids.Gopcap.Decode

/-!
# Proofs: packets

A decoded packet has a UDP header if its last IP header announces one and eight bytes follow, and a
TCP header if one was decoded at all. Only a TCP header puts `[syn]` into the text of a packet.
-/

namespace YulongHids.Gopcap

open Golang

/-! ## The recursion of `decodeIp` -/

/-- What is not shorter than the packet is the packet. -/
theorem ipPayload_eq_self {pkt : List UInt8} (h : pkt.length ≤ (ipPayload pkt).length) :
    ipPayload pkt = pkt := by
  rw [ipPayload] at h ⊢
  split
  · next hlt =>
    rw [if_pos hlt, List.length_drop, List.length_take] at h
    rw [List.take_of_length_le (by omega)]
    have hzero : (ipHeader pkt).ihl * 4 = 0 := by omega
    rw [hzero, List.drop_zero]
  · next hlt =>
    rw [if_neg hlt, List.length_nil] at h
    exact (List.length_eq_zero_iff.mp (by omega)).symm

theorem decodeIp_stuck {pkt : List UInt8} (hlong : ¬ pkt.length < 20)
    (hself : ipPayload pkt = pkt) (hinip : (ipHeader pkt).protocol = 4) (n : ℕ) (p : Packet) :
    decodeIp n p pkt = none := by
  induction n generalizing p with
  | zero => rfl
  | succ n ih =>
    rw [decodeIp, if_neg hlong]
    simp only [hinip, hself]
    exact ih _

/-- A packet that is decoded with some fuel is decoded so with more fuel than it has bytes. -/
theorem decodeIp_fuel {m n : ℕ} {p q : Packet} {pkt : List UInt8} (h : decodeIp m p pkt = some q)
    (hn : pkt.length < n) : decodeIp n p pkt = some q := by
  induction m generalizing n p pkt with
  | zero => cases h
  | succ m ih =>
    obtain ⟨n, rfl⟩ : ∃ k, n = k + 1 := ⟨n - 1, by omega⟩
    by_cases hshort : pkt.length < 20
    · rw [decodeIp, if_pos hshort] at h ⊢
      exact h
    by_cases hinip : (ipHeader pkt).protocol = 4
    · by_cases hself : pkt.length ≤ (ipPayload pkt).length
      · rw [decodeIp_stuck hshort (ipPayload_eq_self hself) hinip] at h
        cases h
      · rw [decodeIp, if_neg hshort] at h ⊢
        simp only [hinip] at h ⊢
        exact ih h (by omega)
    · rw [decodeIp, if_neg hshort] at h ⊢
      simp only [hinip, if_false] at h ⊢
      exact h

/-! ## The headers of a decoded packet -/

/-- What the decoder has found: a TCP header that is listed is kept, the addresses of the IP header
have four bytes, and a UDP header is kept if it was announced and is there. -/
structure Decoded (p : Packet) : Prop where
  tcp : ∀ t, Header.tcp t ∈ p.headers → p.tcp ≠ none
  addresses : ∀ ip, p.ip = some ip → ip.srcIp.length = 4 ∧ ip.destIp.length = 4
  udp : ∀ ip, p.ip = some ip → ip.protocol = 17 → (p.udp = none ↔ p.body.length < 8)

/-- Before the innermost header no segment was decoded. -/
structure Open (p : Packet) : Prop where
  tcp : ∀ t, Header.tcp t ∉ p.headers
  udp : p.udp = none

section Decode

variable {p q : Packet} {pkt : List UInt8}

theorem Decoded.decodeTcp (h : Decoded p) (hudp : ∀ ip, p.ip = some ip → ip.protocol ≠ 17) :
    Decoded (decodeTcp p pkt) := by
  rw [Gopcap.decodeTcp]
  split
  · exact h
  · exact ⟨fun _ _ => Option.some_ne_none _, h.addresses, fun ip hip h17 => absurd h17 (hudp ip hip)⟩

theorem Decoded.decodeIcmp (h : Decoded p) : Decoded (decodeIcmp p pkt) := by
  rw [Gopcap.decodeIcmp]
  split
  · exact h
  · refine ⟨fun t ht => h.tcp t ?_, h.addresses, h.udp⟩
    simpa using ht

theorem ipHeader_addresses (hlong : ¬ pkt.length < 20) :
    (ipHeader pkt).srcIp.length = 4 ∧ (ipHeader pkt).destIp.length = 4 := by
  simp only [ipHeader, List.length_take, List.length_drop]
  omega

theorem Open.append (hopen : Open p) (h : Header) (hh : ∀ t, h ≠ .tcp t) :
    Open { p with headers := p.headers ++ [h] } := by
  refine ⟨fun t ht => ?_, hopen.udp⟩
  rcases List.mem_append.mp ht with ht | ht
  · exact hopen.tcp t ht
  · exact hh t (List.mem_singleton.mp ht).symm

/-- A UDP header is kept if it is there. -/
theorem Open.decodeUdp (hopen : Open p)
    (haddr : ∀ ip, p.ip = some ip → ip.srcIp.length = 4 ∧ ip.destIp.length = 4)
    (hbody : ∀ ip, p.ip = some ip → p.body = pkt) : Decoded (decodeUdp p pkt) := by
  rw [Gopcap.decodeUdp]
  split
  · next hshort =>
    refine ⟨fun t ht => absurd ht (hopen.tcp t), haddr, fun ip hip _ => ?_⟩
    rw [hbody ip hip]
    exact iff_of_true hopen.udp hshort
  · next hlong =>
    refine ⟨fun t ht => absurd ?_ (hopen.tcp t), haddr, fun ip hip _ => ?_⟩
    · simpa using ht
    · rw [hbody ip hip]
      exact iff_of_false (Option.some_ne_none _) hlong

theorem decodeIp_decoded {n : ℕ} (hopen : Open p) (hp : Decoded p)
    (h : decodeIp n p pkt = some q) : Decoded q := by
  induction n generalizing p pkt with
  | zero => cases h
  | succ n ih =>
    rw [decodeIp] at h
    by_cases hshort : pkt.length < 20
    · rw [if_pos hshort, Option.some.injEq] at h
      rwa [← h]
    rw [if_neg hshort] at h
    simp only at h
    set p' : Packet := { p with
      headers := p.headers ++ [.ip (ipHeader pkt)], ip := some (ipHeader pkt)
      body := ipPayload pkt }
    have hopen' : Open p' :=
      ⟨(hopen.append (.ip (ipHeader pkt)) fun _ => Header.noConfusion).tcp, hopen.udp⟩
    have haddr : ∀ ip, p'.ip = some ip → ip.srcIp.length = 4 ∧ ip.destIp.length = 4 := by
      intro ip hip
      rw [← Option.some.inj hip]
      exact ipHeader_addresses hshort
    have hdecoded (h17 : (ipHeader pkt).protocol ≠ 17) : Decoded p' := by
      refine ⟨fun t ht => absurd ht (hopen'.tcp t), haddr, fun ip hip hproto => ?_⟩
      rw [← Option.some.inj hip] at hproto
      exact absurd hproto h17
    split at h
    · next h6 =>
      rw [← Option.some.inj h]
      have h17 : (ipHeader pkt).protocol ≠ 17 := by rw [h6]; decide
      refine (hdecoded h17).decodeTcp fun ip hip => ?_
      rwa [← Option.some.inj hip]
    split at h
    · rw [← Option.some.inj h]
      exact hopen'.decodeUdp haddr fun _ _ => rfl
    split at h
    · next h1 =>
      rw [← Option.some.inj h]
      exact (hdecoded (by rw [h1]; decide)).decodeIcmp
    split at h
    · next h4 => exact ih hopen' (hdecoded (by rw [h4]; decide)) h
    · next h17 _ _ =>
      rw [← Option.some.inj h]
      exact hdecoded h17

/-- Before the first IP header. -/
theorem Open.decoded (hopen : Open p) (hip : p.ip = none) : Decoded p := by
  refine ⟨fun t ht => absurd ht (hopen.tcp t), fun ip h => ?_, fun ip h => ?_⟩ <;>
  · rw [hip] at h
    cases h

theorem decodeIp6_decoded {n : ℕ} (hopen : Open p) (hip : p.ip = none)
    (h : decodeIp6 n p pkt = some q) : Decoded q := by
  rw [decodeIp6] at h
  split at h
  · rw [← Option.some.inj h]
    exact hopen.decoded hip
  simp only at h
  have hopen' := hopen.append (.ip6 (ip6Header pkt)) (fun _ => Header.noConfusion)
  have hdecoded := hopen'.decoded hip
  split at h
  · rw [← Option.some.inj h]
    refine hdecoded.decodeTcp fun ip h' => ?_
    rw [hip] at h'
    cases h'
  split at h
  · rw [← Option.some.inj h]
    exact hopen'.decodeUdp hdecoded.addresses fun ip h' => absurd (hip ▸ h') (Option.some_ne_none ip).symm
  split at h
  · rw [← Option.some.inj h]
    exact hdecoded.decodeIcmp
  split at h
  · exact decodeIp_decoded hopen' hdecoded h
  · rw [← Option.some.inj h]
    exact hdecoded

theorem decodeArp_decoded (hopen : Open p) (hip : p.ip = none) (h : decodeArp p pkt = some q) :
    Decoded q := by
  rw [decodeArp] at h
  split at h
  · rw [← Option.some.inj h]
    exact hopen.decoded hip
  simp only at h
  split at h
  · rw [← Option.some.inj h]
    exact hopen.decoded hip
  split at h
  · rw [← Option.some.inj h]
    exact (hopen.append .arp fun _ => Header.noConfusion).decoded hip
  · cases h

theorem decodeType_decoded {n type : ℕ} (hopen : Open p) (hip : p.ip = none)
    (h : decodeType n type p pkt = some q) : Decoded q := by
  rw [decodeType] at h
  split at h
  · exact decodeIp_decoded hopen (hopen.decoded hip) h
  split at h
  · exact decodeIp6_decoded hopen hip h
  split at h
  · exact decodeArp_decoded hopen hip h
  · rw [← Option.some.inj h]
    exact hopen.decoded hip

theorem open_empty : Open .empty := ⟨fun _ => List.not_mem_nil, rfl⟩

theorem decode_decoded {data : List UInt8} (h : decode data = some q) : Decoded q := by
  rw [decode] at h
  split at h
  · rw [← Option.some.inj h]
    exact open_empty.decoded rfl
  simp only at h
  split at h
  · rw [decodeVlan] at h
    split at h
    · rw [← Option.some.inj h]
      exact open_empty.decoded rfl
    · exact decodeType_decoded (open_empty.append .vlan fun _ => Header.noConfusion) rfl h
  · exact decodeType_decoded open_empty rfl h

end Decode

/-! ## Captured frames -/

/-- The expression `tcp or udp` of the capture filter, on Ethernet: the protocol of an IPv4 packet,
or the next header of an IPv6 packet or of its fragment header. -/
def Captured (data : List UInt8) : Prop :=
  (be16 data 12 = 0x0800 ∧ (data.getD 23 0 = 6 ∨ data.getD 23 0 = 17)) ∨
    (be16 data 12 = 0x86DD ∧ (data.getD 20 0 = 6 ∨ data.getD 20 0 = 17 ∨
      (data.getD 20 0 = 44 ∧ (data.getD 54 0 = 6 ∨ data.getD 54 0 = 17))))

theorem getD_drop (l : List UInt8) (n i : ℕ) : (l.drop n).getD i 0 = l.getD (n + i) 0 := by
  rw [List.getD_eq_getElem?_getD, List.getElem?_drop, ← List.getD_eq_getElem?_getD]

/-- The decoding of a captured frame ends. -/
theorem decode_captured {data : List UInt8} (h : Captured data) : ∃ p, decode data = some p := by
  rw [decode]
  by_cases hshort : data.length ≤ 14
  · exact ⟨_, if_pos hshort⟩
  rw [if_neg hshort]
  simp only
  rcases h with ⟨htype, hproto⟩ | ⟨htype, hnext⟩
  · rw [if_neg (by rw [htype]; decide), decodeType, if_pos htype, decodeIp]
    have hprotocol : (ipHeader (data.drop 14)).protocol = data.getD 23 0 := getD_drop data 14 9
    simp only [hprotocol]
    split
    · exact ⟨_, rfl⟩
    rcases hproto with h6 | h17
    · exact ⟨_, if_pos h6⟩
    · rw [if_neg (by rw [h17]; decide)]
      exact ⟨_, if_pos h17⟩
  · rw [if_neg (by rw [htype]; decide), decodeType, if_neg (by rw [htype]; decide), if_pos htype,
      decodeIp6]
    have hheader : (ip6Header (data.drop 14)).nextHeader = data.getD 20 0 := getD_drop data 14 6
    simp only [hheader]
    split
    · exact ⟨_, rfl⟩
    rcases hnext with h6 | h17 | ⟨h44, -⟩
    · exact ⟨_, if_pos h6⟩
    · rw [if_neg (by rw [h17]; decide)]
      exact ⟨_, if_pos h17⟩
    · rw [h44]
      exact ⟨_, rfl⟩

/-! ## The text of a packet -/

section Text

variable {time s : GoString}

/-- A part without a bracket does not begin the text `[syn]`. -/
theorem syn_infix_append {a : GoString} (ha : 91 ∉ a) (h : str "[syn]" <:+: a ++ s) :
    str "[syn]" <:+: s := by
  induction a with
  | nil => exact h
  | cons b a ih =>
    obtain ⟨hb, ha⟩ := not_or.mp (mt List.mem_cons.mpr ha)
    rcases List.infix_cons_iff.mp h with hpre | htail
    · exact absurd (List.cons_prefix_cons.mp hpre).1 hb
    · exact ih ha htail

/-- So does a part behind it that is not its last bracket. -/
theorem syn_infix_concat {b : UInt8} (hb : b ≠ 93) (h : str "[syn]" <:+: s ++ [b]) :
    str "[syn]" <:+: s := by
  rcases List.infix_concat_iff.mp h with hsuffix | hinfix
  · obtain ⟨t, ht⟩ := hsuffix
    have hlast : (93 : UInt8) = b := by
      have h := congrArg List.getLast? ht
      have hsyn : str "[syn]" = str "[syn" ++ [93] := by decide
      rw [hsyn, ← List.append_assoc, List.getLast?_concat, List.getLast?_concat] at h
      exact Option.some.inj h
    exact absurd hlast.symm hb
  · exact hinfix

theorem not_syn_of_not_mem (h : 91 ∉ s) : ¬ str "[syn]" <:+: s :=
  fun hsyn => h (hsyn.subset (by decide))

theorem bracket_not_mem_string (ip : IP) : 91 ∉ ip.string := by
  cases h4 : to4 ip with
  | none => exact not_mem_string ⟨by decide, by decide⟩ h4
  | some p4 =>
    rw [string_of_to4 h4]
    intro hmem
    exact absurd (mem_dottedText hmem) (by decide)

theorem bracket_not_mem_itoa (n : ℕ) : 91 ∉ itoa n := not_mem_itoa (by decide)

theorem bracket_not_mem_addr {h : Header} {addr : GoString × GoString × ℕ}
    (ha : h.addr = some addr) : 91 ∉ addr.1 ∧ 91 ∉ addr.2.1 := by
  cases h with
  | ip h =>
    rw [← Option.some.inj ha]
    exact ⟨bracket_not_mem_string _, bracket_not_mem_string _⟩
  | ip6 h =>
    rw [← Option.some.inj ha]
    exact ⟨bracket_not_mem_string _, bracket_not_mem_string _⟩
  | vlan => cases ha
  | arp => cases ha
  | tcp t => cases ha
  | udp u => cases ha
  | icmp i => cases ha

/-- The text of a segment without flags. -/
theorem bracket_not_mem_addrString {h : Header} {addr : GoString × GoString × ℕ}
    (haddr : 91 ∉ addr.1 ∧ 91 ∉ addr.2.1) (htcp : ∀ t, h ≠ .tcp t)
    (hs : h.addrString addr = some s) : 91 ∉ s := by
  have hport : ∀ a b, 91 ∉ endpoints addr a b := by
    intro a b
    simp only [endpoints, List.mem_append, not_or, bracket_not_mem_itoa, haddr, not_false_eq_true,
      and_true, true_and]
    decide
  cases h with
  | ip h => cases hs
  | ip6 h => cases hs
  | vlan => cases hs
  | arp => cases hs
  | tcp t => exact absurd rfl (htcp t)
  | udp u =>
    rw [← Option.some.inj hs]
    simp only [List.mem_append, not_or, bracket_not_mem_itoa, hport, not_false_eq_true, and_true]
    decide
  | icmp i =>
    rw [← Option.some.inj hs]
    simp only [List.mem_append, not_or, bracket_not_mem_itoa, haddr, not_false_eq_true, and_true]
    decide

theorem not_syn_pairString (htime : 91 ∉ time) {all : List Header} (hall : ∀ t, .tcp t ∉ all)
    (hs : pairString time all = some s) : ¬ str "[syn]" <:+: s := by
  rcases all with _ | ⟨h0, _ | ⟨h1, rest⟩⟩
  · cases hs
  · cases hs
  · rw [pairString, Option.bind_eq_some_iff] at hs
    obtain ⟨addr, haddr, hs⟩ := hs
    obtain ⟨x, hx, rfl⟩ := Option.map_eq_some_iff.mp hs
    have htcp : ∀ t, h1 ≠ .tcp t := by
      rintro t rfl
      exact hall t (by simp)
    have hfree := bracket_not_mem_addrString (bracket_not_mem_addr haddr) htcp hx
    refine not_syn_of_not_mem ?_
    simp only [List.mem_append, not_or, htime, hfree, not_false_eq_true, true_and, and_true]
    decide

/-- The only bracket of the list of types is followed by the star of a type. -/
theorem not_syn_unknownString (headers : List Header) :
    ¬ str "[syn]" <:+: unknownString headers := by
  intro h
  have hname : ∀ h : Header, 91 ∉ h.typeName := by
    intro h
    cases h <;> simp only [Header.typeName] <;> decide
  have hnames : 91 ∉ join (headers.map Header.typeName) (str ",") := by
    intro hmem
    rcases mem_join hmem with hmem | ⟨f, hf, hmem⟩
    · exact absurd hmem (by decide)
    · obtain ⟨h, -, rfl⟩ := List.mem_map.mp hf
      exact hname h hmem
  have hrest : 91 ∉ join (headers.map Header.typeName) (str ",") ++ str "]" := by
    simp only [List.mem_append, not_or, hnames, not_false_eq_true, true_and]
    decide
  have htext : unknownString headers =
      str "unknown " ++ 91 :: (join (headers.map Header.typeName) (str ",") ++ str "]") := by
    have hopen : str "unknown [" = str "unknown " ++ [91] := by decide
    rw [unknownString, hopen, List.append_assoc, List.append_assoc, List.singleton_append]
  rw [htext] at h
  have hsyn := syn_infix_append (by decide) h
  rcases List.infix_cons_iff.mp hsyn with hpre | htail
  · have hletter := (List.cons_prefix_cons.mp hpre).2
    rcases headers with _ | ⟨h0, headers⟩
    · exact absurd hletter (by decide)
    · obtain ⟨w, hw⟩ : ∃ w, h0.typeName = 42 :: w := by cases h0 <;> exact ⟨_, rfl⟩
      obtain ⟨m, hm⟩ : ∃ m, join ((h0 :: headers).map Header.typeName) (str ",") = 42 :: m := by
        rcases headers with _ | ⟨h1, headers⟩
        · exact ⟨w, by simp [join, hw]⟩
        · exact ⟨_, by rw [List.map_cons, List.map_cons, join, List.intercalate_cons_cons, hw,
            List.cons_append, List.cons_append]⟩
      rw [hm, List.cons_append] at hletter
      exact absurd (List.cons_prefix_cons.mp hletter).1 (by decide)
  · exact not_syn_of_not_mem hrest htail

theorem not_syn_headerString (htime : 91 ∉ time) {all : List Header} (hall : ∀ t, .tcp t ∉ all)
    (headers : List Header) : ¬ str "[syn]" <:+: headerString time all headers := by
  induction headers with
  | nil => exact not_syn_unknownString []
  | cons h0 tail ih =>
    rcases tail with _ | ⟨h1, rest⟩
    · exact not_syn_unknownString [h0]
    · rw [headerString]
      cases hpair : if rest = [] then pairString time all else none with
      | some s =>
        split at hpair
        · exact not_syn_pairString htime hall hpair
        · cases hpair
      | none =>
        cases h0addr : h0.addr with
        | none => exact not_syn_unknownString _
        | some addr =>
          cases h1.addr with
          | none => exact not_syn_unknownString _
          | some addr1 =>
            intro h
            obtain ⟨hsrc, hdest⟩ := bracket_not_mem_addr h0addr
            refine ih (syn_infix_append ?_ (syn_infix_concat (by decide) h))
            simp only [List.mem_append, not_or, hsrc, hdest, not_false_eq_true, true_and, and_true]
            decide

/-- A packet with `[syn]` in its text has a TCP header. -/
theorem Decoded.tcp_of_syn {p : Packet} (h : Decoded p) {type : ℕ} (htime : 91 ∉ time)
    (hsyn : contains (p.string time type) (str "[syn]") = true) : p.tcp ≠ none := by
  by_cases htcp : ∃ t, .tcp t ∈ p.headers
  · obtain ⟨t, ht⟩ := htcp
    exact h.tcp t ht
  · have hall : ∀ t, .tcp t ∉ p.headers := not_exists.mp htcp
    have htext := of_decide_eq_true hsyn
    rw [Packet.string] at htext
    split at htext
    · refine absurd htext (not_syn_of_not_mem ?_)
      simp only [List.mem_append, not_or, htime, bracket_not_mem_itoa, not_false_eq_true, true_and,
        and_true]
      decide
    · refine absurd (syn_infix_append ?_ htext) (not_syn_headerString htime hall _)
      simp only [List.mem_append, not_or, htime, not_false_eq_true, true_and]
      decide

end Text

end YulongHids.Gopcap
