import YulongHids.Golang.Filepath
import YulongHids.Server.Intelligence

/-!
# The watches of the file monitor

`iterationWatcher` (`agent/monitor/lib.go`) and the set-up of `StartFileMonitor`
(`agent/monitor/file_linux.go`), before the event loop.
-/

namespace YulongHids.Agent

open Golang Filepath
open Server (replaceFirst)

/-- The variable `pathList` and the paths that `watcher.Add` was called with. -/
structure WatchState where
  pathList : List GoString
  requested : List GoString

/-- The paths that have a watch: `Add` cleans its argument. -/
def WatchState.watched (s : WatchState) : List GoString := s.requested.map clean

section SetUp

variable (txt : TextLib) (fs : GoString → Node)

/-- The callback of `iterationWatcher`. -/
def watchCallback (s : WatchState) (path : GoString) : Visit → WatchState × Bool
  | .error => (s, true)
  | .dir => (⟨s.pathList ++ [path], s.requested ++ [txt.toLower path]⟩, false)
  | .file => (s, false)

/-- `iterationWatcher`. What `Walk` returns is not looked at. -/
def iterationWatcher (monList : List GoString) (s : WatchState) : WatchState :=
  monList.foldl (fun s p => (walk (watchCallback txt) p (fs p) s).1) s

/-- The loop body of the set-up. `iterationWatcher` gets a copy of `pathList`, and the watcher
itself. -/
def addMonitorPath (serverPath : List GoString) (s : WatchState) (path : GoString) : WatchState :=
  if path = str "%web%" then
    { s with requested := (iterationWatcher txt fs serverPath s).requested }
  else if str "/" <+: path then
    let s := { s with pathList := s.pathList ++ [path] }
    if str "*" <:+ path then
      { s with requested := (iterationWatcher txt fs [replaceFirst (str "*") [] path] s).requested }
    else { s with requested := s.requested ++ [path] }
  else s

/-- The state in front of the event loop. -/
def setUp (serverPath monitorPath : List GoString) : WatchState :=
  monitorPath.foldl (addMonitorPath txt fs serverPath) ⟨[], []⟩

end SetUp

/-! ## Trees that are to be covered -/

/-- A path of this system that ends in a star. -/
def Starred (path : GoString) : Prop := path ≠ str "%web%" ∧ str "/" <+: path ∧ str "*" <:+ path

/-- A path of this system that is monitored alone. -/
def Single (path : GoString) : Prop := path ≠ str "%web%" ∧ str "/" <+: path ∧ ¬ str "*" <:+ path

/-- The root of a tree to monitor for a configured path: a web root, or the path without the star at
its end. -/
def MonitoredRoot (serverPath : List GoString) (path root : GoString) : Prop :=
  (path = str "%web%" ∧ root ∈ serverPath) ∨ (Starred path ∧ root = path.dropLast)

/-- The root of a walk for a configured path: a web root, or the path without its first star. -/
def WalkedRoot (serverPath : List GoString) (path root : GoString) : Prop :=
  (path = str "%web%" ∧ root ∈ serverPath) ∨ (Starred path ∧ root = replaceFirst (str "*") [] path)

/-- A path of a directory of the tree at a root, outside of the directories that cannot be read. -/
def Readable (fs : GoString → Node) (root d : GoString) : Prop := (d, .dir) ∈ (fs root).listing root

/-- A directory that comes before everything that cannot be read, in the order of a walk. -/
def Reached (fs : GoString → Node) (root d : GoString) : Prop := (d, .dir) ∈ (fs root).reached root

/-- The path is monitored alone, or is the lower-case spelling of a directory that a walk for a
configured path reaches. -/
def Covered (txt : TextLib) (fs : GoString → Node) (serverPath monitorPath : List GoString)
    (d : GoString) : Prop :=
  (d ∈ monitorPath ∧ Single d) ∨
    ∃ path ∈ monitorPath, ∃ root, WalkedRoot serverPath path root ∧
      ∃ q, Reached fs root q ∧ txt.toLower q = d

end YulongHids.Agent
