import YulongHids.Mongo.Aggregate
import YulongHids.Mongo.ObjectId
import YulongHids.Web.Notice

/-!
# Ignoring an item of the watch mode

The branch of `NoticeController.ChangeStatus` (`web/controllers/notice.go`) for the id `learn`. The
list of the watch mode shows one item for each type and info; the branch looks for a notice of the
item and ignores it.
-/

namespace YulongHids.Web

open Golang Mongo Server

/-- The notices with the index on `_id`, which every collection has. -/
structure NoticeStore where
  notices : Notices
  ids_nodup : (notices.docs.map Notice.id).Nodup
  ids_length : ∀ n ∈ notices.docs, n.id.length = 12

/-- The selector `{"type": type, "info": info}`; it does not look at the status. -/
def itemQ (type info : GoString) (n : Notice) : Bool := n.type == type && n.info == info

def uptimeRank (n : Notice) : ℕ := dateRank n.uptime

/-- What `baseModel.FindOne` may return: a notice that comes first under the default sort, or nothing
if there is none. -/
inductive FindOne (c : Notices) (query : Notice → Bool) : Option Notice → Prop
  | missing : c.docs.filter query = [] → FindOne c query none
  | found (n : Notice) : MayBeFirst uptimeRank (c.docs.filter query) n → FindOne c query (some n)

/-- A notice whose status was changed. -/
def withStatus (status : ℤ) (now : ℕ) (n : Notice) : Notice :=
  { n with status := status, uptime := some now }

/-- `Notice.ChangeStatusbyId`, with `false` for an error; `none` is the panic at a text that is not an
id. -/
def changeStatusbyId (c : Notices) (id : GoString) (status : ℤ) (now : ℕ) :
    Option (Notices × Bool) :=
  (objectIdHex id).map fun mid =>
    if c.docs.any (·.id == mid) then c.updateAll (·.id == mid) (withStatus status now) else (c, false)

/-- The branch behind `FindOne`; it panics at a notice that was not found. -/
def changeStatusLearn (c : Notices) (notice : Option Notice) (now : ℕ) : Option (Notices × Bool) :=
  notice.bind fun n => changeStatusbyId c (hexEncode n.id) 2 now

/-- A notice of the watch mode for the item is ignored now, and those that are not of the watch mode
are as they were. -/
def IgnoresItem (before after : Collection Notice) (type info : GoString) : Prop :=
  (∃ n ∈ before, learnNoticeQ n = true ∧ itemQ type info n = true ∧
    ∃ n' ∈ after, n'.id = n.id ∧ n'.status = 2) ∧
  ∀ m ∈ before, m.status = 0 ∨ m.status = 1 ∨ m.status = 2 → m ∈ after

/-- The index has an ignored notice of the same alert and the same time already. -/
def Taken (docs : Collection Notice) (n : Notice) (now : ℕ) : Prop :=
  ∃ m ∈ docs, SameAlert m n ∧ m.status = 2 ∧ m.uptime = some now

end YulongHids.Web
