import YulongHids.Agent.NetSniff
import YulongHids.Agent.Proofs.LanProofs
import YulongHids.Agent.Proofs.ProcessMonitorWindowsProofs
import YulongHids.Gopcap.Proofs.DecodeProofs

/-!
# Proofs: the connection monitor on any packet

The text `[syn]` stands for a TCP header, and nothing stands for a UDP header: a packet that is
looked at and announces UDP ends the loop if the header is cut off.
-/

namespace YulongHids.Agent

open Golang Gopcap

/-! ## The process of a connection -/

/-- The number of a process has at most seven digits, so the slash is kept. -/
theorem conName_some (o : SocketOwner) : ∃ name, conName (some o) = itoa o.pid ++ 47 :: name := by
  have hpid := o.pid_lt
  have hlen : (itoa o.pid).length ≤ 7 := length_itoa_le (by omega) (by omega)
  obtain ⟨k, hk⟩ : ∃ k, 19 - (itoa o.pid).length = k + 1 := ⟨18 - (itoa o.pid).length, by omega⟩
  refine ⟨(o.cmdline.takeWhile (· != 0)).take k, ?_⟩
  rw [conName, List.take_append, List.take_of_length_le (by omega), hk, List.take_succ_cons]

theorem linuxProcess_ne_none (owner : Option SocketOwner) : linuxProcess owner ≠ none := by
  rw [linuxProcess]
  cases owner with
  | none => exact Option.some_ne_none _
  | some o =>
    obtain ⟨name, hname⟩ := conName_some o
    have hsplit : splitN (conName (some o)) 47 2 = [itoa o.pid, name] := by
      rw [hname, splitN_append_cons (not_mem_itoa (by decide))]
      rfl
    have hne : conName (some o) ≠ [] := by
      rw [hname]
      exact List.append_ne_nil_of_right_ne_nil _ (List.cons_ne_nil _ _)
    rw [if_neg hne, hsplit]
    exact Option.some_ne_none _

theorem winProcess_ne_none (owner : WinOwner) : winProcess owner ≠ none := by
  rw [winProcess]
  split
  · exact Option.some_ne_none _
  · exact Option.some_ne_none _

/-! ## One packet -/

theorem sniffPorts_ne_panic {process : Option (GoString × GoString)} (h : process ≠ none)
    (cfg : SniffConfig) (out : Bool) (protocol ip : GoString) (srcPort destPort : ℕ) :
    sniffPorts cfg out protocol ip srcPort destPort process ≠ .panic := by
  obtain ⟨⟨pid, name⟩, rfl⟩ := Option.ne_none_iff_exists'.mp h
  unfold sniffPorts
  simp only
  generalize (if out then destPort else srcPort) = port
  generalize (if out then srcPort else destPort) = localPort
  split
  · exact Turn.noConfusion
  · exact Turn.noConfusion

/-- The address that is tested is a dotted quad. -/
theorem isLan_string {ip : IP} (h : ip.length = 4) :
    ∃ lan, isLan ip.string = some lan ∧ (lan = true ↔ Internal ip) := by
  obtain ⟨a, b, c, d, rfl⟩ : ∃ a b c d, ip = [a, b, c, d] := by
    rcases ip with _ | ⟨a, _ | ⟨b, _ | ⟨c, _ | ⟨d, _ | ⟨e, rest⟩⟩⟩⟩⟩
    case cons.cons.cons.cons.nil => exact ⟨a, b, c, d, rfl⟩
    all_goals simp at h
  have hto4 : to4 [a, b, c, d] = some [a, b, c, d] := if_pos rfl
  rw [string_of_to4 hto4]
  exact agentIsLan_iff_internal a b c d

section Packet

variable {ω : Type} {process : ω → Option (GoString × GoString)} {txt : TextLib}

theorem frameOk_iff {cfg : SniffConfig} {f : Frame} {ip : Iphdr} (hip : f.packet.ip = some ip) :
    FrameOk txt cfg f ↔
      (Watched txt cfg ip → ip.protocol = 17 → cfg.udp = true → 8 ≤ f.packet.body.length) := by
  rw [FrameOk]
  constructor
  · exact fun h => h ip hip
  · intro h ip' hip'
    rw [hip, Option.some.injEq] at hip'
    exact hip' ▸ h

/-- The test whether internal connections are logged does not panic. -/
theorem lanTest_eq (cfg : SniffConfig) {p : Packet} {ip : Iphdr} (hp : Decoded p)
    (hip : p.ip = some ip) :
    ∃ lan, (if cfg.lan then some false else isLan (remoteIP cfg ip)) = some lan ∧
      (lan = false ↔
        cfg.lan = true ∨ ¬ Internal (if outgoing cfg ip then ip.destIp else ip.srcIp)) := by
  by_cases hlan : cfg.lan = true
  · exact ⟨false, if_pos hlan, iff_of_true rfl (.inl hlan)⟩
  rw [if_neg hlan]
  obtain ⟨hsrc, hdest⟩ := hp.addresses ip hip
  have hremote : remoteIP cfg ip = (if outgoing cfg ip then ip.destIp else ip.srcIp).string := by
    rw [remoteIP]
    split
    · rfl
    · rfl
  have hlen : (if outgoing cfg ip then ip.destIp else ip.srcIp).length = 4 := by
    split
    · exact hdest
    · exact hsrc
  obtain ⟨lan, heq, hinternal⟩ := isLan_string hlen
  refine ⟨lan, by rw [hremote, heq], ?_⟩
  rw [← hinternal, Bool.not_eq_true, or_iff_right hlan]

/-- A segment is read through a nil pointer only if it should have a UDP header. -/
theorem sniffSegment_ne_panic_iff (cfg : SniffConfig) (f : Frame) {ip : Iphdr}
    (hip : f.packet.ip = some ip) {found : Option (GoString × GoString)} (hfound : found ≠ none) :
    sniffSegment cfg f ip found ≠ .panic ↔
      (ip.protocol = 17 → cfg.udp = true → 8 ≤ f.packet.body.length) := by
  have hdecoded := decode_decoded f.decoded
  unfold sniffSegment
  by_cases h17 : ip.protocol = 17
  · rw [if_pos h17]
    by_cases hudp : cfg.udp = false
    · rw [if_pos hudp]
      refine iff_of_true Turn.noConfusion fun _ h => ?_
      rw [hudp] at h
      cases h
    rw [if_neg hudp]
    have hheader := hdecoded.udp ip hip h17
    cases hudphdr : f.packet.udp with
    | none =>
      have hshort := hheader.mp hudphdr
      refine iff_of_false (fun h => h rfl) fun h => ?_
      have := h h17 (Bool.eq_true_of_not_eq_false hudp)
      omega
    | some udp =>
      refine iff_of_true (sniffPorts_ne_panic (Option.some_ne_none _) _ _ _ _ _ _) fun _ _ => ?_
      have hlong : ¬ f.packet.body.length < 8 := by
        rw [← hheader, hudphdr]
        exact Option.some_ne_none _
      omega
  · rw [if_neg h17]
    refine iff_of_true ?_ fun h => absurd h h17
    split
    · next hsyn =>
      obtain ⟨tcp, htcp⟩ := Option.ne_none_iff_exists'.mp
        (hdecoded.tcp_of_syn f.time_text hsyn.2)
      rw [htcp]
      exact sniffPorts_ne_panic hfound _ _ _ _ _ _
    · exact Turn.noConfusion

/-- Of the packets that are looked at only those panic that announce a UDP header and have none. -/
theorem sniffTurn_ne_panic_iff (hprocess : ∀ o, process o ≠ none) (i : SniffInput ω) :
    sniffTurn process txt i ≠ .panic ↔ FrameOk txt i.cfg i.frame := by
  unfold sniffTurn
  cases hip : i.frame.packet.ip with
  | none =>
    refine iff_of_true Turn.noConfusion fun ip h => ?_
    rw [hip] at h
    cases h
  | some ip =>
    rw [frameOk_iff hip]
    simp only
    by_cases hhost : concernsHost txt i.cfg ip = false
    · rw [if_pos hhost]
      refine iff_of_true Turn.noConfusion fun hw => ?_
      rw [hw.host] at hhost
      cases hhost
    rw [if_neg hhost]
    by_cases hdir : i.cfg.serverType = str "web" ∧ outgoing i.cfg ip = false
    · rw [if_pos hdir]
      exact iff_of_true Turn.noConfusion fun hw => absurd hdir hw.direction
    rw [if_neg hdir]
    obtain ⟨lan, hlan, hexternal⟩ := lanTest_eq i.cfg (decode_decoded i.frame.decoded) hip
    rw [hlan]
    cases lan with
    | true =>
      refine iff_of_true Turn.noConfusion fun hw => ?_
      exact absurd (hexternal.mpr hw.external) Bool.noConfusion
    | false =>
      simp only
      by_cases hlist : inArray txt i.cfg.filterIP (remoteIP i.cfg ip) false = true
      · rw [if_pos hlist]
        refine iff_of_true Turn.noConfusion fun hw => ?_
        exact absurd hlist (Bool.eq_false_iff.mp hw.unlisted)
      rw [if_neg hlist, sniffSegment_ne_panic_iff i.cfg i.frame hip (hprocess _)]
      have hwatched : Watched txt i.cfg ip :=
        ⟨Bool.eq_true_of_not_eq_false hhost, hdir, hexternal.mp rfl,
          Bool.eq_false_of_not_eq_true hlist⟩
      exact ⟨fun h _ => h, fun h => h hwatched⟩

end Packet

/-- Both loops survive a sequence of frames if and only if no packet that is looked at announces UDP,
with UDP logged, and has fewer than eight bytes behind its IP header. -/
theorem net_sniff_survives_iff (txt : TextLib) :
    (∀ inputs, Survives (linuxSniffTurns txt inputs) inputs ↔
      ∀ i ∈ inputs, FrameOk txt i.cfg i.frame) ∧
    ∀ inputs, Survives (winSniffTurns txt inputs) inputs ↔
      ∀ i ∈ inputs, FrameOk txt i.cfg i.frame := by
  constructor
  · intro inputs
    rw [linuxSniffTurns, turnsOf_survives_iff]
    exact forall₂_congr fun i _ => sniffTurn_ne_panic_iff linuxProcess_ne_none i
  · intro inputs
    rw [winSniffTurns, turnsOf_survives_iff]
    exact forall₂_congr fun i _ => sniffTurn_ne_panic_iff winProcess_ne_none i

/-- From 8.8.8.8 to 10.0.0.5, an IP header that announces UDP and nothing behind it. -/
def cutFrame : List UInt8 :=
  List.replicate 12 0 ++ [8, 0, 69, 0, 0, 20, 0, 0, 0, 0, 64, 17, 0, 0, 8, 8, 8, 8, 10, 0, 0, 5]

def cutHeader : Iphdr := ⟨5, 20, 17, [8, 8, 8, 8], [10, 0, 0, 5]⟩

theorem decode_cutFrame :
    decode cutFrame = some ⟨[.ip cutHeader], some cutHeader, none, none, []⟩ := by
  have htype : be16 cutFrame 12 = 0x0800 := by decide
  have hheader : ipHeader (cutFrame.drop 14) = cutHeader := by rfl
  have hpayload : ipPayload (cutFrame.drop 14) = [] := by rfl
  rw [decode, if_neg (by decide)]
  simp only
  rw [htype, if_neg (by decide), decodeType, if_pos rfl, decodeIp, if_neg (by decide)]
  simp only [hheader, hpayload]
  rfl

def sniffCutFrame {ω : Type} (owner : ω) : SniffInput ω where
  cfg := ⟨str "10.0.0.5", [], str "server", false, true, []⟩
  frame := ⟨cutFrame, ⟨[.ip cutHeader], some cutHeader, none, none, []⟩, decode_cutFrame,
    str "12:00", by decide⟩
  owner := owner

/-- A captured frame without its UDP header ends both loops before the next one. -/
theorem net_sniff_crashes :
    Captured cutFrame ∧
      linuxSniffTurns plainText [sniffCutFrame none, sniffCutFrame none] = [.panic] ∧
      winSniffTurns plainText [sniffCutFrame ⟨0, none⟩, sniffCutFrame ⟨0, none⟩] = [.panic] := by
  refine ⟨.inl ⟨rfl, .inr rfl⟩, ?_, ?_⟩
  · rfl
  · rfl

end YulongHids.Agent
