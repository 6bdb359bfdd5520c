import YulongHids.Server.Notice

/-!
# The end of the watch mode

`Notice.LearnEnding` (`web/models/notice.go`) opens the notices of the watch mode. When the bulk
update ends with an error, `doneDuplicateErr` is to open the rest one by one.
-/

namespace YulongHids.Web

open Golang Mongo Server

/-- The update documents in question: the fields to set, or such a document under `$set`. -/
inductive NoticeUpdate where
  | status (value : ℤ)
  | set (update : NoticeUpdate)

/-- What `$set` with a document does; a field that is called `$set` is rejected. -/
def NoticeUpdate.setFields : NoticeUpdate → Option (Notice → Notice)
  | .status value => some fun n => { n with status := value }
  | .set _ => none

/-- `LearnNoticeQ`, the selector of the notices of the watch mode. -/
def learnNoticeQ (n : Notice) : Bool := decide (2 < n.status)

/-- `Notice.UpdateAll`, which puts the update under `$set`; with `false` for an error. -/
def noticeUpdateAll (c : Notices) (selector : Notice → Bool) (update : NoticeUpdate) :
    Notices × Bool :=
  match update.setFields with
  | none => (c, false)
  | some f => c.updateAll selector f

/-- `baseModel.UpdateByID`, which puts the data under `$set`. -/
def updateByID (c : Notices) (id : ObjectId) (data : NoticeUpdate) : Notices × Bool :=
  match data.setFields with
  | none => (c, false)
  | some f =>
    if c.docs.any (·.id == id) then c.updateAll (·.id == id) f else (c, false)

/-- The loop of `doneDuplicateErr` over the notices it found. -/
def duplicateLoop (update : NoticeUpdate) : Notices → List Notice → Notices
  | c, [] => c
  | c, coll :: rest =>
    let (c', updated) := updateByID c coll.id update
    duplicateLoop update (if updated then c' else c'.removeAll learnNoticeQ) rest

/-- `doneDuplicateErr`. The order in which `FindAll` sorts does not matter here. -/
def doneDuplicateErr (c : Notices) : Notices :=
  duplicateLoop (.set (.status 0)) c (c.docs.filter learnNoticeQ)

/-- `LearnEnding`, with the goroutine that it may start run to its end. -/
def learnEnding (c : Notices) : Notices :=
  let (c', updated) := noticeUpdateAll c learnNoticeQ (.status 0)
  if updated then c' else doneDuplicateErr c'

/-- A notice after it was opened. -/
def opened (n : Notice) : Notice := { n with status := 0 }

/-! ## What the end of the watch mode is for -/

/-- Every notice of the watch mode is an open one now, or there is an open one of its alert. -/
def AlertsKept (before after : Collection Notice) : Prop :=
  ∀ n ∈ before, learnNoticeQ n = true →
    (∃ m ∈ after, m.id = n.id ∧ m.status = 0 ∧ SameAlert m n) ∨
      ∃ m ∈ after, m.status = 0 ∧ SameAlert m n

/-- There is an open notice of the alert of `n`, from before or made of one in `pre`. -/
def OpenFor (docs pre : List Notice) (n : Notice) : Prop :=
  ∃ m ∈ docs, (m.status = 0 ∨ m ∈ pre ∧ learnNoticeQ m = true) ∧ SameAlert m n

/-- There is one with the same `uptime`. -/
def Clashes (docs pre : List Notice) (n : Notice) : Prop :=
  ∃ m ∈ docs, (m.status = 0 ∨ m ∈ pre ∧ learnNoticeQ m = true) ∧ SameAlert m n ∧
    m.uptime = n.uptime

/-- The first notice of the watch mode that cannot be opened, and what stands before and behind
it. -/
structure StopsAt (docs pre : List Notice) (d : Notice) (post : List Notice) : Prop where
  docs_eq : docs = pre ++ d :: post
  learn : learnNoticeQ d = true
  clashes : Clashes docs pre d
  first : ∀ pre' d' post', pre = pre' ++ d' :: post' → learnNoticeQ d' = true →
    ¬ Clashes docs pre' d'

end YulongHids.Web
