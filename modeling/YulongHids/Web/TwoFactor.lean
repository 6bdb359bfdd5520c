import YulongHids.Golang.Strings

/-!
# Two-factor authentication of the console

`BaseController.Prepare` (`web/controllers/base.go`) runs before every handler and asks for the
current code where a URL is protected. A history of six codes limits the tries.
`NoticeController.ChangeStatus` (`web/controllers/notice.go`) asks for the code once more when all
notices are changed at once.
-/

namespace YulongHids.Web

open Golang

/-- What the two functions read of the configuration of the console. -/
structure Console where
  ylhostname : GoString
  onlyHTTPS : Bool
  devMode : Bool
  username : GoString
  twoFactorAuth : Bool

/-- The fields of `StatusForm` that decide on the branch of `ChangeStatus`. -/
structure StatusForm where
  id : GoString
  status : ℤ

/-- The handlers, as far as they differ in this. -/
inductive Handler where
  | changeStatus
  | other
  deriving DecidableEq

/-- A request, with the results of the two attempts to read its body as a form, the handler that the
router runs for it, and what the database says at that time: whether the watch mode is on, and the
id of the white list. -/
structure Visit where
  host : GoString
  scheme : GoString
  method : GoString
  url : GoString
  user : Option GoString
  pass : GoString
  cookieToken : GoString
  headerToken : GoString
  statusForm : Option StatusForm
  editId : GoString
  handler : Handler
  learn : Bool
  whiteID : GoString

def authURILst : List GoString := [str "/file", str "/config", str "/tasks", str "/rules"]

def httpURLLst : List GoString := [str "/download"]

/-- `FindSub`: the first of the strings that occurs, the empty string if none does. -/
def findSub (strlist : List GoString) (s : GoString) : GoString :=
  (strlist.find? fun key => contains s key).getD []

/-- `GetUint32("pass")`, `none` for an error. -/
def Visit.clientside (v : Visit) : Option ℕ :=
  match parseUint v.pass with
  | .error _ => none
  | .ok u64 => if u64 < 2 ^ 32 then some u64 else none

/-- `WatchModeExempt`. -/
def Visit.watchModeExempt (v : Visit) : Bool :=
  (str "config").isSuffixOf v.url && v.learn && v.editId == v.whiteID

/-- `TFAPassHistorys`: six codes. -/
structure PassHistory where
  slots : List ℕ
  length_slots : slots.length = 6

/-- The push of the code and the pop of `first`. -/
def PassHistory.push (h : PassHistory) (serverside : ℕ) : ℕ × PassHistory :=
  (h.slots.headD serverside, ⟨h.slots.tail ++ [serverside], by simp [h.length_slots]⟩)

/-- What a function did: the history afterwards, the submitted values it compared with the code, and
whether it went on. -/
structure Checked where
  history : PassHistory
  compared : List ℕ
  passed : Bool

section Requests

variable (c : Console) (serverside : ℕ)

/-- The checks of `Prepare` before the one of the code. -/
def Visit.admitted (v : Visit) : Bool :=
  !(c.ylhostname != [] && !(split c.ylhostname 44).contains v.host) &&
    !(c.onlyHTTPS && v.scheme != str "https" && findSub httpURLLst v.url == []) &&
    (c.devMode || v.user == some c.username)

/-- Whether the code is asked for. -/
def Visit.guarded (v : Visit) : Bool :=
  v.method != str "GET" && c.twoFactorAuth && !v.watchModeExempt &&
    findSub authURILst v.url != []

/-- The check of the code in `Prepare`. -/
def checkCode (h : PassHistory) (v : Visit) : Checked :=
  let (first, h') := h.push serverside
  if first = serverside then ⟨h', [], false⟩
  else
    match v.clientside with
    | none => ⟨h', [], false⟩
    | some clientside => ⟨h', [clientside], serverside == clientside⟩

/-- The CSRF check. -/
def Visit.csrfPassed (v : Visit) : Bool :=
  v.method == str "GET" || c.devMode || v.headerToken == v.cookieToken

/-- `Prepare`. -/
def prepare (h : PassHistory) (v : Visit) : Checked :=
  if v.admitted c then
    let checked := if v.guarded c then checkCode serverside h v else ⟨h, [], true⟩
    { checked with passed := checked.passed && v.csrfPassed c }
  else ⟨h, [], false⟩

/-- The values that `ChangeStatus` compares with the code. -/
def changeStatus (v : Visit) : List ℕ :=
  match v.statusForm with
  | none => []
  | some form =>
    if form.id = str "all_learn" ∧ form.status = 0 then []
    else if form.id = str "learn" then []
    else if form.id = str "all" then
      if c.twoFactorAuth then v.clientside.toList else []
    else []

/-- A request: the handler runs if `Prepare` has not answered. -/
def serve (h : PassHistory) (v : Visit) : PassHistory × List ℕ :=
  let prepared := prepare c serverside h v
  (prepared.history, prepared.compared ++
    if prepared.passed && decide (v.handler = .changeStatus) then changeStatus c v else [])

/-- All values that are compared with the code in a sequence of requests. -/
def comparisons : PassHistory → List Visit → List ℕ
  | _, [] => []
  | h, v :: visits =>
    let (h', compared) := serve c serverside h v
    compared ++ comparisons h' visits

/-! ## How many there are -/

/-- The protected requests, each with the slot of the history that it pops, as long as there are
slots from before. -/
def slotted (h : PassHistory) (visits : List Visit) : List (ℕ × Visit) :=
  h.slots.zip (visits.filter fun v => v.admitted c && v.guarded c)

/-- The tries that the history lets through: those with a number, among the first six protected
requests, whose slot does not have the code already. -/
def prepareTries (h : PassHistory) (visits : List Visit) : ℕ :=
  (slotted c h visits).countP fun p => p.1 != serverside && p.2.clientside.isSome

/-- A request to change the status of all notices, with a number as the code. -/
def Visit.changesAll (v : Visit) : Bool :=
  v.csrfPassed c && decide (v.handler = .changeStatus) &&
    (v.statusForm.any (fun form => form.id == str "all") && c.twoFactorAuth && v.clientside.isSome)

/-- The tries at changing the status of all notices: those that are not protected, and those with
the code that the history lets through. -/
def statusTries (h : PassHistory) (visits : List Visit) : ℕ :=
  (visits.countP fun v => v.admitted c && !v.guarded c && v.changesAll c) +
    (slotted c h visits).countP fun p =>
      p.1 != serverside && p.2.clientside == some serverside && p.2.changesAll c

end Requests

end YulongHids.Web
