import YulongHids.Golang.Net

/-!
# Packets

`Packet.Decode` and `Packet.String` of the vendored package `gopcap`
(`agent/vendor/github.com/akrennmair/gopcap/decode.go`), as far as the agent reads their results. The
agent takes the text of packets with an IP header only, so that of an ARP header is left out.
-/

namespace YulongHids.Gopcap

open Golang

/-- `binary.BigEndian.Uint16` at an offset. -/
def be16 (pkt : List UInt8) (i : ℕ) : ℕ := (pkt.getD i 0).toNat * 256 + (pkt.getD (i + 1) 0).toNat

def be32 (pkt : List UInt8) (i : ℕ) : ℕ := be16 pkt i * 2 ^ 16 + be16 pkt (i + 2)

structure Iphdr where
  ihl : ℕ
  length : ℕ
  protocol : UInt8
  srcIp : IP
  destIp : IP

structure Ip6hdr where
  length : ℕ
  nextHeader : UInt8
  srcIp : IP
  destIp : IP

structure Tcphdr where
  srcPort : ℕ
  destPort : ℕ
  seq : ℕ
  ack : ℕ
  flags : ℕ

structure Udphdr where
  srcPort : ℕ
  destPort : ℕ
  length : ℕ
  checksum : ℕ

structure Icmphdr where
  type : UInt8
  code : UInt8

inductive Header where
  | ip (h : Iphdr)
  | ip6 (h : Ip6hdr)
  | vlan
  | arp
  | tcp (h : Tcphdr)
  | udp (h : Udphdr)
  | icmp (h : Icmphdr)

/-- The decoded part of a packet. What stands behind the last IP header is kept for the
statements. -/
structure Packet where
  headers : List Header
  ip : Option Iphdr
  tcp : Option Tcphdr
  udp : Option Udphdr
  body : List UInt8

def Packet.empty : Packet := ⟨[], none, none, none, []⟩

/-! ## `Decode` -/

def decodeTcp (p : Packet) (pkt : List UInt8) : Packet :=
  if pkt.length < 20 then p
  else
    let tcp : Tcphdr := ⟨be16 pkt 0, be16 pkt 2, be32 pkt 4, be32 pkt 8, be16 pkt 12 % 512⟩
    { p with headers := p.headers ++ [.tcp tcp], tcp := some tcp }

def decodeUdp (p : Packet) (pkt : List UInt8) : Packet :=
  if pkt.length < 8 then p
  else
    let udp : Udphdr := ⟨be16 pkt 0, be16 pkt 2, be16 pkt 4, be16 pkt 6⟩
    { p with headers := p.headers ++ [.udp udp], udp := some udp }

def decodeIcmp (p : Packet) (pkt : List UInt8) : Packet :=
  if pkt.length < 8 then p
  else { p with headers := p.headers ++ [.icmp ⟨pkt.getD 0 0, pkt.getD 1 0⟩] }

def ipHeader (pkt : List UInt8) : Iphdr where
  ihl := (pkt.getD 0 0).toNat % 16
  length := be16 pkt 2
  protocol := pkt.getD 9 0
  srcIp := (pkt.drop 12).take 4
  destIp := (pkt.drop 16).take 4

/-- What `decodeIp` leaves of a packet: the bytes from the end of the header to the end that the
header gives, as far as they are there. -/
def ipPayload (pkt : List UInt8) : List UInt8 :=
  let ip := ipHeader pkt
  let pEnd := min ip.length pkt.length
  if ip.ihl * 4 < pEnd then (pkt.take pEnd).drop (ip.ihl * 4) else []

/-- `decodeIp`. A header of length 0 that announces IP in IP leaves the same packet again; the result
is `none` if the recursion does not end within `fuel` calls. -/
def decodeIp : ℕ → Packet → List UInt8 → Option Packet
  | 0, _, _ => none
  | fuel + 1, p, pkt =>
    if pkt.length < 20 then some p
    else
      let ip := ipHeader pkt
      let payload := ipPayload pkt
      let p' := { p with headers := p.headers ++ [.ip ip], ip := some ip, body := payload }
      if ip.protocol = 6 then some (decodeTcp p' payload)
      else if ip.protocol = 17 then some (decodeUdp p' payload)
      else if ip.protocol = 1 then some (decodeIcmp p' payload)
      else if ip.protocol = 4 then decodeIp fuel p' payload
      else some p'

def ip6Header (pkt : List UInt8) : Ip6hdr where
  length := be16 pkt 4
  nextHeader := pkt.getD 6 0
  srcIp := (pkt.drop 8).take 16
  destIp := (pkt.drop 24).take 16

def decodeIp6 (fuel : ℕ) (p : Packet) (pkt : List UInt8) : Option Packet :=
  if pkt.length < 40 then some p
  else
    let ip6 := ip6Header pkt
    let payload := pkt.drop 40
    let p' := { p with headers := p.headers ++ [.ip6 ip6] }
    if ip6.nextHeader = 6 then some (decodeTcp p' payload)
    else if ip6.nextHeader = 17 then some (decodeUdp p' payload)
    else if ip6.nextHeader = 1 then some (decodeIcmp p' payload)
    else if ip6.nextHeader = 4 then decodeIp fuel p' payload
    else some p'

/-- `decodeArp`. The ends of its four slices are sums of one byte each; a slice that ends in front of
its start is a panic, `none`. -/
def decodeArp (p : Packet) (pkt : List UInt8) : Option Packet :=
  if pkt.length < 8 then some p
  else
    let hwAddressSize := pkt.getD 4 0
    let protAddressSize := pkt.getD 5 0
    let ends := [8, 8 + hwAddressSize, 8 + hwAddressSize + protAddressSize,
      8 + 2 * hwAddressSize + protAddressSize, 8 + 2 * hwAddressSize + 2 * protAddressSize]
    if pkt.length < (8 + 2 * hwAddressSize + 2 * protAddressSize).toNat then some p
    else if ends.Pairwise (· ≤ ·) then some { p with headers := p.headers ++ [.arp] }
    else none

/-- The switch over a type of payload. -/
def decodeType (fuel type : ℕ) (p : Packet) (pkt : List UInt8) : Option Packet :=
  if type = 0x0800 then decodeIp fuel p pkt
  else if type = 0x86DD then decodeIp6 fuel p pkt
  else if type = 0x0806 then decodeArp p pkt
  else some p

def decodeVlan (fuel : ℕ) (p : Packet) (pkt : List UInt8) : Option Packet :=
  if pkt.length < 4 then some p
  else
    let payload := if 5 ≤ pkt.length then pkt.drop 4 else pkt
    decodeType fuel (be16 pkt 2) { p with headers := p.headers ++ [.vlan] } payload

/-- `Decode` on the bytes of a frame, `none` if it does not get through. More calls of `decodeIp` than there are bytes are not needed. -/
def decode (data : List UInt8) : Option Packet :=
  if data.length ≤ 14 then some .empty
  else
    let payload := data.drop 14
    let fuel := data.length + 1
    if be16 data 12 = 0x8100 then decodeVlan fuel .empty payload
    else decodeType fuel (be16 data 12) .empty payload

/-! ## `String` -/

/-- The interface `addrHdr`: the source, the destination and the length. -/
def Header.addr : Header → Option (GoString × GoString × ℕ)
  | .ip h => some (h.srcIp.string, h.destIp.string, h.length)
  | .ip6 h => some (h.srcIp.string, h.destIp.string, h.length)
  | _ => none

/-- `FlagsString`. -/
def flagsString (flags : ℕ) : GoString :=
  let names := [(1, "syn"), (0, "fin"), (4, "ack"), (3, "psh"), (2, "rst"), (5, "urg"), (8, "ns"),
    (7, "cwr"), (6, "ece")]
  str "[" ++ join ((names.filter fun e => flags.testBit e.1).map fun e => str e.2) (str " ") ++
    str "]"

/-- Addresses and ports of a segment. -/
def endpoints (addr : GoString × GoString × ℕ) (srcPort destPort : ℕ) : GoString :=
  addr.1 ++ str ":" ++ itoa srcPort ++ str " > " ++ addr.2.1 ++ str ":" ++ itoa destPort

/-- The interface `addrStringer`. -/
def Header.addrString (addr : GoString × GoString × ℕ) : Header → Option GoString
  | .tcp t => some (str "TCP " ++ endpoints addr t.srcPort t.destPort ++ str " " ++
      flagsString t.flags ++ str " SEQ=" ++ itoa t.seq ++ str " ACK=" ++ itoa t.ack ++ str " LEN=" ++
      itoa addr.2.2)
  | .udp u => some (str "UDP " ++ endpoints addr u.srcPort u.destPort ++ str " LEN=" ++
      itoa u.length ++ str " CHKSUM=" ++ itoa u.checksum)
  | .icmp i => some (str "ICMP " ++ addr.1 ++ str " > " ++ addr.2.1 ++ str " Type = " ++
      itoa i.type.toNat ++ str " Code = " ++ itoa i.code.toNat ++ str " ")
  | _ => none

def Header.typeName : Header → GoString
  | .ip _ => str "*pcap.Iphdr"
  | .ip6 _ => str "*pcap.Ip6hdr"
  | .vlan => str "*pcap.Vlanhdr"
  | .arp => str "*pcap.Arphdr"
  | .tcp _ => str "*pcap.Tcphdr"
  | .udp _ => str "*pcap.Udphdr"
  | .icmp _ => str "*pcap.Icmphdr"

def unknownString (headers : List Header) : GoString :=
  str "unknown [" ++ join (headers.map Header.typeName) (str ",") ++ str "]"

/-- The text of the first two headers of a packet, if they are an address and a segment. -/
def pairString (time : GoString) : List Header → Option GoString
  | h0 :: h1 :: _ => h0.addr.bind fun addr => (h1.addrString addr).map fun s => time ++ str " " ++ s
  | _ => none

/-- `headerString`. With two headers left it looks at the first two of all; the inner text of IP in IP
has no verb in the format. -/
def headerString (time : GoString) (all : List Header) : List Header → GoString
  | [] => unknownString []
  | [h] => unknownString [h]
  | h0 :: h1 :: rest =>
    match if rest = [] then pairString time all else none with
    | some s => s
    | none =>
      match h0.addr, h1.addr with
      | some addr, some _ =>
        addr.1 ++ str " > " ++ addr.2.1 ++ str " IP in IP: %!(EXTRA string=" ++
          headerString time all (h1 :: rest) ++ str ")"
      | _, _ => unknownString (h0 :: h1 :: rest)

/-- `String`, for a packet of the given type and time. -/
def Packet.string (time : GoString) (type : ℕ) (p : Packet) : GoString :=
  if p.headers = [] then time ++ str " unsupported protocol " ++ itoa type
  else time ++ str " " ++ headerString time p.headers p.headers

end YulongHids.Gopcap
