import YulongHids.Agent.Lan

/-!
# Listening ports on Windows

`GetListening` (`agent/collect/listen_windows.go`) takes the TCP table of the system and reports its
listening rows. Windows 2003 has a table without the owners of the connections, so there are two
copies of the loop. A result is `none` where the code panics. The type `int` has 64 bits.
-/

namespace YulongHids.Agent

open Golang

/-! ## The table -/

/-- `MIB_TCPROW`, without the remote end. -/
structure MibTcpRow where
  dwState : UInt32
  dwLocalAddr : UInt32
  dwLocalPort : UInt32

/-- `MIB_TCPROW2`. -/
structure MibTcpRow2 extends MibTcpRow where
  dwOwningPid : UInt32

/-- `MIB_TCPTABLE` and `MIB_TCPTABLE2`: the array has a fixed length, and as many of its entries are in
use as the field says. -/
structure MibTcpTable (Row : Type) where
  dwNumEntries : UInt32
  table : List Row
  length_table : table.length = 65535

/-- `ptb.Table[0:int(ptb.DwNumEntries)]`. -/
def MibTcpTable.entries {Row : Type} (ptb : MibTcpTable Row) : Option (List Row) :=
  if ptb.dwNumEntries.toNat ≤ ptb.table.length then some (ptb.table.take ptb.dwNumEntries.toNat)
  else none

/-- The two calls of `getTCPTable`, or of `getTCPTable2`: what they return, and the table after
them. -/
structure TcpTableCalls (Row : Type) where
  first : UInt32
  second : UInt32
  ptb : MibTcpTable Row

/-! ## The functions -/

/-- `addrDecode`. -/
def addrDecode (addr : UInt32) : GoString :=
  let buf : List UInt8 :=
    [addr.toUInt8, (addr >>> 8).toUInt8, (addr >>> 16).toUInt8, (addr >>> 24).toUInt8]
  IP.string buf

/-- `binary.BigEndian.Uint16` of two bytes. -/
def bigEndianUint16 (b0 b1 : UInt8) : UInt16 := b1.toUInt16 ||| (b0.toUInt16 <<< 8)

/-- `portDecode`. -/
def portDecode (port : UInt32) : ℕ := (bigEndianUint16 port.toUInt8 (port >>> 8).toUInt8).toNat

/-- The type `listening`. -/
structure Listening where
  localAddr : GoString
  localPort : ℤ
  pid : ℤ

/-- The test of the loops on their variable `tr`. -/
def Listening.skipped (tr : Listening) : Bool :=
  tr.localAddr == str "127.0.0.1" || (str "169.254.").isPrefixOf tr.localAddr

/-- The loop over the entries. Nothing is assigned to `tr`. -/
def listeningLoop {Row : Type} (dwState : Row → UInt32) (record : Row → Record) (tr : Listening) :
    List Row → List Record
  | [] => []
  | tcp :: rest =>
    if dwState tcp = 2 then
      if tr.skipped then listeningLoop dwState record tr rest
      else record tcp :: listeningLoop dwState record tr rest
    else listeningLoop dwState record tr rest

/-- What both functions do around the loop. -/
def listeningOf {Row : Type} (dwState : Row → UInt32) (record : Row → Record)
    (calls : TcpTableCalls Row) : Option (List Record) :=
  if calls.first ≠ 122 then some []
  else if calls.second ≠ 0 then some []
  else calls.ptb.entries.map (listeningLoop dwState record ⟨[], 0, 0⟩)

def addressText (tcp : MibTcpRow) : GoString :=
  addrDecode tcp.dwLocalAddr ++ str ":" ++ itoa (portDecode tcp.dwLocalPort)

def record2003 (tcp : MibTcpRow) : Record :=
  let m : Record := (∅ : Record).insert (str "address") (addressText tcp)
  m.insert (str "proto") (str "TCP")

/-- The record of the other variant. `getProcessName` asks WMI, with `none` where it finds nothing. -/
def recordOther (getProcessName : GoString → Option GoString) (tcp : MibTcpRow2) : Record :=
  let m : Record := (∅ : Record).insert (str "address") (addressText tcp.toMibTcpRow)
  let m : Record := m.insert (str "pid") (itoa tcp.dwOwningPid.toNat)
  let m : Record := m.insert (str "name") []
  let m : Record := match getProcessName (Record.get m (str "pid")) with
    | some name => m.insert (str "name") name
    | none => m
  m.insert (str "proto") (str "TCP")

def getListening2003 (calls : TcpTableCalls MibTcpRow) : Option (List Record) :=
  listeningOf (·.dwState) record2003 calls

def getListeningOther (getProcessName : GoString → Option GoString)
    (calls : TcpTableCalls MibTcpRow2) : Option (List Record) :=
  listeningOf (·.dwState) (recordOther getProcessName) calls

/-- What `GetListening` meets: whether the directory `Users` is found, and the calls of either
variant. -/
structure WinTcp where
  users : Bool
  calls2003 : TcpTableCalls MibTcpRow
  callsOther : TcpTableCalls MibTcpRow2
  getProcessName : GoString → Option GoString

/-- `GetListening`. -/
def getListeningWindows (sys : WinTcp) : Option (List Record) :=
  if sys.users then getListeningOther sys.getProcessName sys.callsOther
  else getListening2003 sys.calls2003

/-! ## What it is for -/

/-- The four octets of an address in network byte order: the first is the lowest byte of the word. -/
def octets (addr : ℕ) : List UInt8 := (List.range 4).map fun i => (addr / 256 ^ i).toUInt8

/-- 127.0.0.1, or an address of 169.254.0.0/16. -/
def LocalAddress (p4 : List UInt8) : Prop := p4 = [127, 0, 0, 1] ∨ InBlock [169, 254, 0, 0] 16 p4

instance (p4 : List UInt8) : Decidable (LocalAddress p4) :=
  inferInstanceAs (Decidable (p4 = [127, 0, 0, 1] ∨
    addrBits p4 / 2 ^ (32 - 16) = addrBits [169, 254, 0, 0] / 2 ^ (32 - 16)))

/-- The row is in the listening state. -/
def MibTcpRow.Listens (row : MibTcpRow) : Prop := row.dwState.toNat = 2

def MibTcpRow.Local (row : MibTcpRow) : Prop := LocalAddress (octets row.dwLocalAddr.toNat)

instance (row : MibTcpRow) : Decidable row.Listens :=
  inferInstanceAs (Decidable (row.dwState.toNat = 2))

instance (row : MibTcpRow) : Decidable row.Local :=
  inferInstanceAs (Decidable (LocalAddress (octets row.dwLocalAddr.toNat)))

/-- The port of a row in network byte order: the lowest byte of the word is the high one. -/
def MibTcpRow.port (row : MibTcpRow) : ℕ :=
  256 * (row.dwLocalPort.toNat % 256) + row.dwLocalPort.toNat / 256 % 256

/-- The record has the address and the port of the row. -/
def Describes (row : MibTcpRow) (m : Record) : Prop :=
  Record.get m (str "address") = dottedText (octets row.dwLocalAddr.toNat) ++ str ":" ++ itoa row.port ∧
    Record.get m (str "proto") = str "TCP"

/-- The table that `GetListening` asks for is returned. -/
def WinTcp.Returned (sys : WinTcp) : Prop :=
  if sys.users then sys.callsOther.first = 122 ∧ sys.callsOther.second = 0
  else sys.calls2003.first = 122 ∧ sys.calls2003.second = 0

/-- The number of its entries. -/
def WinTcp.numEntries (sys : WinTcp) : ℕ :=
  if sys.users then sys.callsOther.ptb.dwNumEntries.toNat else sys.calls2003.ptb.dwNumEntries.toNat

/-- Its entries. -/
def WinTcp.rows (sys : WinTcp) : List MibTcpRow :=
  if sys.users then (sys.callsOther.ptb.table.map (·.toMibTcpRow)).take sys.numEntries
  else sys.calls2003.ptb.table.take sys.numEntries

/-- In order, one record for each listening row that is not local. -/
def Reported (rows : List MibTcpRow) (records : List Record) : Prop :=
  List.Forall₂ Describes (rows.filter fun row => decide (row.Listens ∧ ¬ row.Local)) records

end YulongHids.Agent
