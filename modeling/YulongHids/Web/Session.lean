import YulongHids.Golang.Md5
import YulongHids.Transition.Since
import YulongHids.Web.OneTimePassword
import YulongHids.Web.TwoFactor

/-!
# Sessions of the console

`LoginController` and `LogoutController` (`web/controllers/login.go`, `logout.go`) set and delete the
user of a session, and `BaseController.Prepare` asks for it. The sessions are in the memory provider
of beego (`session/sess_mem.go`), which drops those that were not used for some time. A request is one
step here. The update that a request starts in a goroutine of its own is another one.
-/

namespace YulongHids.Web

open Golang Transition

/-! ## The memory provider -/

/-- `MemSessionStore`, with the value of its key `user`. -/
structure MemSession where
  sid : GoString
  timeAccessed : ℕ
  user : Option GoString

/-- The list of `MemProvider`, from its front. The map `sessions` is an index of it. -/
abbrev MemProvider := List MemSession

namespace MemProvider

variable (p : MemProvider) (sid : GoString) (now : ℕ)

def sessionExist : Bool := p.any fun sess => sess.sid == sid

/-- `SessionRead`, up to the update. -/
def sessionRead : MemProvider :=
  if p.sessionExist sid then p else ⟨sid, now, none⟩ :: p

/-- `SessionUpdate` -/
def sessionUpdate : MemProvider :=
  match p.find? fun sess => sess.sid == sid with
  | some sess => { sess with timeAccessed := now } :: p.eraseP fun sess => sess.sid == sid
  | none => p

/-- `SessionGC`: from the back, up to the first session that is not expired. -/
def sessionGC (maxlifetime : ℕ) : MemProvider :=
  p.rdropWhile fun sess => decide (sess.timeAccessed + maxlifetime < now)

/-- `Get("user")` -/
def getUser : Option GoString := (p.find? fun sess => sess.sid == sid).bind MemSession.user

/-- `Set("user", ..)` and, with `none`, `Delete("user")`. -/
def setUser (user : Option GoString) : MemProvider :=
  p.map fun sess => if sess.sid = sid then { sess with user := user } else sess

end MemProvider

/-! ## The console -/

/-- The configuration, with the key of the second factor as `GetPassword` decodes it. -/
structure SessionConsole extends Console where
  passwordhex : GoString
  keyDecode : Option (List UInt8)
  maxlifetime : ℕ

/-- `GetPassword(TwoFactorAuthKey)` -/
def SessionConsole.serverside (c : SessionConsole) (now : ℕ) : ℕ :=
  ((getPassword c.keyDecode (Int64.ofNat now)).map UInt32.toNat).getD 0

/-- The test of `LoginController.Post`. -/
def SessionConsole.accepts (c : SessionConsole) (username passwd : GoString) : Bool :=
  username == c.username && hexEncode (md5 passwd) == c.passwordhex

/-- The controller of a request: one with a `BaseController`, `LoginController.Post`,
`LogoutController.Post`, or one that does not look at the session. -/
inductive Target where
  | base (v : Visit)
  | login (username passwd : GoString)
  | logout
  | other

/-- The clock in seconds, the sessions, the updates that are still to come, and
`settings.TFAPassHistorys`. -/
structure ConsoleState where
  now : ℕ
  provider : MemProvider
  updates : List GoString
  history : PassHistory

inductive ConsoleEvent where
  | tick (d : ℕ)
  | gc
  | update (sid : GoString)
  /-- A request with the id in its cookie, and the id that is drawn if there is no such session. -/
  | request (cookie newSid : GoString) (target : Target)

namespace ConsoleState

theorem length_noPasses : [0, 0, 0, 0, 0, 0].length = 6 := rfl

/-- The console has just been started. -/
def start (now : ℕ) : ConsoleState := ⟨now, [], [], ⟨[0, 0, 0, 0, 0, 0], length_noPasses⟩⟩

variable (c : SessionConsole) (s : ConsoleState)

/-- The id of the session that `SessionStart` gives to a request. -/
def sidOf (cookie newSid : GoString) : GoString :=
  if cookie ≠ [] ∧ s.provider.sessionExist cookie then cookie else newSid

/-- `SessionStart`. A session that was there is updated later. -/
def sessionStart (sid : GoString) : ConsoleState :=
  { s with
    provider := s.provider.sessionRead sid s.now
    updates := if s.provider.sessionExist sid then sid :: s.updates else s.updates }

/-- What `Prepare` sees of a request: the user is the one of the session. -/
def visitOf (sid : GoString) (v : Visit) : Visit :=
  { v with user := (s.sessionStart sid).provider.getUser sid }

/-- `Prepare`, in a session. -/
def prepared (sid : GoString) (v : Visit) : Checked :=
  prepare c.toConsole (c.serverside s.now) s.history (s.visitOf sid v)

/-- What the controller changes. -/
def serve (sid : GoString) : Target → ConsoleState
  | .base v => { s.sessionStart sid with history := (s.prepared c sid v).history }
  | .login username passwd =>
    let t := s.sessionStart sid
    if c.accepts username passwd then
      { t with provider := t.provider.setUser sid (some c.username) }
    else t
  | .logout =>
    let t := s.sessionStart sid
    { t with provider := t.provider.setUser sid none }
  | .other => s.sessionStart sid

def step (s : ConsoleState) : ConsoleEvent → Option ConsoleState
  | .tick d => some { s with now := s.now + d }
  | .gc => some { s with provider := s.provider.sessionGC s.now c.maxlifetime }
  | .update sid =>
    if sid ∈ s.updates then
      some { s with
        provider := s.provider.sessionUpdate sid s.now
        updates := s.updates.erase sid }
    else none
  | .request cookie newSid target => some (s.serve c (s.sidOf cookie newSid) target)

/-- Whether the method of the controller runs after `Prepare`. -/
def handles (cookie newSid : GoString) (v : Visit) : Bool :=
  (s.prepared c (s.sidOf cookie newSid) v).passed

end ConsoleState

/-! ## What the sessions are for -/

section Spec

variable (c : SessionConsole) (s0 : ConsoleState) (es : List ConsoleEvent)

/-- The event `e` creates or updates the session at time `t`. -/
def Access (sid : GoString) (t : ℕ) (es : List ConsoleEvent) (e : ConsoleEvent) : Prop :=
  ∃ s, run (ConsoleState.step c) s0 es = some s ∧ s.now = t ∧
    (e = .update sid ∨ ∃ cookie newSid target, e = .request cookie newSid target ∧
      s.sidOf cookie newSid = sid ∧ s.provider.sessionExist sid = false)

end Spec

end YulongHids.Web
