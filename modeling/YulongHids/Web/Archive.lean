import YulongHids.Web.Publish

/-!
# The archive of the installation

What `deCompressZip` (`web/controllers/install.go`) promises, all entries or an error, and the entries
that decide about it.
-/

namespace YulongHids.Web

open Golang Mongo

/-- The name under which a file is stored. -/
def FileName.base (n : FileName) : GoString :=
  n.system ++ str "-" ++ n.platform ++ str "-" ++ n.type

/-- The content is stored under the name, and its hash is registered. -/
def Published.Installed (p : Published) (n : FileName) (content : List UInt8) : Prop :=
  p.stored n = some content ∧
    ∃ f, one p.records n.selector = some f ∧ f.hash = hexEncode (md5 content)

/-- What the installation of an archive should do: nil means that every entry was extracted in full
and registered when its turn came, a name that is not allowed is an error, and no other files than
the three are written, all of them in the directory itself. -/
structure AllOrError (p : Published) (system platform : GoString) (fs : List ZipEntry) : Prop where
  complete : (deCompressAll p system platform fs).2 = .nil →
    ∀ pre f post, fs = pre ++ f :: post → ∃ rtype content o,
      fileName2Type.lookup f.name = some rtype ∧ f.file = .copied content o ∧
        (deCompressAll p system platform (pre ++ [f])).1.Installed ⟨system, platform, rtype⟩ content
  refuses : (∃ f ∈ fs, f.name ∉ typeArray) →
    ∃ err, (deCompressAll p system platform fs).2 = .error err
  writes : ∀ n, (deCompressAll p system platform fs).1.stored n ≠ p.stored n →
    (∃ t ∈ [str "agent", str "data", str "daemon"],
      n.base = system ++ str "-" ++ platform ++ str "-" ++ t) ∧ 47 ∉ n.base

/-- The name is not one of the six, and the entry can be opened. -/
def ZipEntry.Panics (f : ZipEntry) : Prop := f.file ≠ .notOpened ∧ f.name ∉ typeArray

/-- A step for an allowed name fails and returns an error. -/
def ZipEntry.Fails (f : ZipEntry) : Prop :=
  f.name ∈ typeArray ∧ (f.file = .notCreated ∨ (∃ content, f.file = .broken content) ∨
    ∃ content o, f.file = .copied content o ∧ (o.read = none ∨ o.updateFails = true))

/-- There is a record of the type when an entry behind `pre` gets its turn. -/
def HasRecord (p : Published) (system platform : GoString) (pre : List ZipEntry) (rtype : GoString) :
    Prop :=
  (one p.records (FileName.selector ⟨system, platform, rtype⟩)).isSome ∨
    ∃ g ∈ pre, ∃ content o, g.file = .copied content o ∧ fileName2Type.lookup g.name = some rtype ∧
      o.insertFails = false

/-- All steps for the entry behind `pre` go well: the copy, the hash of the whole file, and the update,
which may have to insert a record. -/
def ZipEntry.Good (p : Published) (system platform : GoString) (pre : List ZipEntry) (f : ZipEntry) :
    Prop :=
  ∃ rtype content o, fileName2Type.lookup f.name = some rtype ∧ f.file = .copied content o ∧
    getFileMD5Hash content o.read = hexEncode (md5 content) ∧ o.read ≠ none ∧ o.updateFails = false ∧
      (o.insertFails = true → HasRecord p system platform pre rtype)

end YulongHids.Web
