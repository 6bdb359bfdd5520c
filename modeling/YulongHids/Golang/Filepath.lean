import YulongHids.Golang.Strings

/-!
# Directory trees

`Clean`, `Join` and `Walk` of `path/filepath` on Linux. A tree shows what a walker without special
rights sees: nothing of what is below a directory that it cannot read. `Walk` is modelled for
callbacks that do not return `SkipDir`; it reads the names of a directory before it calls the
callback, so a directory that cannot be read comes with its error only.
-/

namespace YulongHids.Golang.Filepath

/-! ## Paths -/

/-- The loop of `Clean` over the parts of a path. The parts that are kept are collected in reverse. -/
def cleanParts (rooted : Bool) : List GoString → List GoString → List GoString
  | acc, [] => acc.reverse
  | acc, part :: rest =>
    if part = [] ∨ part = str "." then cleanParts rooted acc rest
    else if part = str ".." then
      match acc with
      | [] => cleanParts rooted (if rooted then [] else [part]) rest
      | top :: below => cleanParts rooted (if top = str ".." then part :: acc else below) rest
    else cleanParts rooted (part :: acc) rest

/-- `filepath.Clean`. -/
def clean (path : GoString) : GoString :=
  let rooted := path.head? == some 47
  let out := (if rooted then str "/" else []) ++
    Golang.join (cleanParts rooted [] (split path 47)) (str "/")
  if out = [] then str "." else out

/-- `filepath.Join` of two parts, the second not empty. -/
def join (path name : GoString) : GoString :=
  if path = [] then clean name else clean (path ++ str "/" ++ name)

/-! ## Trees -/

/-- An entry without entries of its own: a file, an entry that `Lstat` fails on, or a directory whose
names cannot be read. -/
inductive Leaf where
  | file
  | lost
  | closed
  deriving DecidableEq

/-- The entries of a directory, in the order of `readDirNames`. -/
inductive Entries where
  | nil
  | leaf (name : GoString) (kind : Leaf) (rest : Entries)
  | dir (name : GoString) (children rest : Entries)

/-- What is found at a path. -/
inductive Node where
  | leaf (kind : Leaf)
  | dir (children : Entries)

/-! ## `Walk` -/

/-- What the callback is called with: the information on a file or a directory, or an error. -/
inductive Visit where
  | file
  | dir
  | error
  deriving DecidableEq

def Leaf.visit : Leaf → Visit
  | .file => .file
  | .lost => .error
  | .closed => .error

section Walk

variable {σ : Type} (fn : σ → GoString → Visit → σ × Bool)

/-- The loop of `walk` over the entries of a directory. The callback carries a state; it and the loop
tell whether an error is returned. -/
def walkEntries (parent : GoString) : Entries → σ → σ × Bool
  | .nil, s => (s, false)
  | .leaf name kind rest, s =>
    match fn s (join parent name) kind.visit with
    | (s', true) => (s', true)
    | (s', false) => walkEntries parent rest s'
  | .dir name children rest, s =>
    match fn s (join parent name) .dir with
    | (s', true) => (s', true)
    | (s', false) =>
      match walkEntries (join parent name) children s' with
      | (s'', true) => (s'', true)
      | (s'', false) => walkEntries parent rest s''

/-- `filepath.Walk`. -/
def walk (root : GoString) : Node → σ → σ × Bool
  | .leaf kind, s => fn s root kind.visit
  | .dir children, s =>
    match fn s root .dir with
    | (s', true) => (s', true)
    | (s', false) => walkEntries fn root children s'

/-- The callback on one entry after the other, up to one with an error. -/
def visits : List (GoString × Visit) → σ → σ × Bool
  | [], s => (s, false)
  | (path, v) :: rest, s =>
    match fn s path v with
    | (s', true) => (s', true)
    | (s', false) => visits rest s'

end Walk

/-! ## The order of a walk -/

/-- The entries below a directory as a walk meets them. -/
def Entries.listing (parent : GoString) : Entries → List (GoString × Visit)
  | .nil => []
  | .leaf name kind rest => (Golang.Filepath.join parent name, kind.visit) :: rest.listing parent
  | .dir name children rest =>
    (Golang.Filepath.join parent name, .dir) ::
      (children.listing (Golang.Filepath.join parent name) ++ rest.listing parent)

def Node.listing (root : GoString) : Node → List (GoString × Visit)
  | .leaf kind => [(root, kind.visit)]
  | .dir children => (root, .dir) :: children.listing root

/-- The entries in front of the first error. -/
def Node.reached (root : GoString) (node : Node) : List (GoString × Visit) :=
  (node.listing root).takeWhile fun e => e.2 ≠ .error

end YulongHids.Golang.Filepath
