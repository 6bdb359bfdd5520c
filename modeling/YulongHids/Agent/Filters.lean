import YulongHids.Agent.ProcessMonitor

/-!
# The filters of the agent

`isFileWhite` (`agent/monitor/lib.go`), and what the monitors of `agent/monitor` do with the lists of
the filter: `StartFileMonitor`, `StartNetSniff` and `StartProcessMonitor`.
-/

namespace YulongHids.Agent

open Golang

/-- `regexp.MatchString("^[0-9a-zA-Z]\x7b32\x7d$", v)`. -/
def isHash (v : GoString) : Bool :=
  v.length == 32 &&
    v.all fun b => (48 ≤ b && b ≤ 57) || (97 ≤ b && b ≤ 122) || (65 ≤ b && b ≤ 90)

/-- `isFileWhite`. -/
def isFileWhite (txt : TextLib) (filter : List GoString) (resultdata : Record) : Bool :=
  filter.any fun v =>
    if isHash v then txt.toLower v == txt.toLower (resultdata.get (str "hash"))
    else (txt.compile v).any (· (txt.toLower (resultdata.get (str "path"))))

/-- The tests of `StartFileMonitor`. Any entry may match the path, whatever form it has, and the hash
is looked for where there is one, before `isFileWhite` gets the record. -/
def fileFiltered (txt : TextLib) (filter : List GoString) (resultdata : Record) : Bool :=
  inArray txt filter (txt.toLower (resultdata.get (str "path"))) true ||
    (resultdata.get (str "hash") != [] &&
      inArray txt filter (txt.toLower (resultdata.get (str "hash"))) false) ||
    isFileWhite txt filter resultdata

/-- The test of `StartProcessMonitor`, which is one of the record before on Linux. -/
def processFiltered (txt : TextLib) (filter : List GoString) (system : GoString)
    (before resultdata : Record) : Bool :=
  filtered txt filter (if system = str "windows" then resultdata else before)

/-- The test of the remote address of a connection. -/
def ipFiltered (txt : TextLib) (filter : List GoString) (ip : GoString) : Bool :=
  inArray txt filter ip false

end YulongHids.Agent
