import YulongHids.Web.TwoFactor
import YulongHids.Web.Config

/-!
# The exemption of the watch mode

While the watch mode is on, the white list may be changed without the code. `WatchModeExempt`
(`web/controllers/utils.go`) decides this for `Prepare` from the configuration and its own reading of
the body; the handler of `/config` reads the body again.
-/

namespace YulongHids.Web

open Golang Mongo

/-- A request, with what `json.Unmarshal` makes of its body as an `EditCfgForm`. -/
structure WebRequest where
  host : GoString
  scheme : GoString
  method : GoString
  url : GoString
  user : Option GoString
  pass : GoString
  cookieToken : GoString
  headerToken : GoString
  body : Body

/-- `serverConf.Dic.(bson.M)["learn"].(bool)`, `none` for a panic. -/
def Configs.learn (c : Configs) : Option Bool :=
  match (c.findOne (str "server")).dic with
  | some (.doc fields) =>
    match fields.lookup (str "learn") with
    | some (.bool isLearn) => some isLearn
    | _ => none
  | _ => none

/-- The request as `Prepare` sees it. Where `learn` panics, the visit does not matter. -/
def WebRequest.visit (r : WebRequest) (c : Configs) : Visit where
  host := r.host
  scheme := r.scheme
  method := r.method
  url := r.url
  user := r.user
  pass := r.pass
  cookieToken := r.cookieToken
  headerToken := r.headerToken
  statusForm := none
  editId := r.body.form.id
  handler := .other
  learn := c.learn.getD false
  whiteID := hexEncode (c.findOne (str "whitelist")).id

/-- The handlers of `/config` by their methods. -/
def WebRequest.configHandler (r : WebRequest) (c : Configs) : Configs :=
  if r.method = str "POST" then afterHandler c (configEdit c r.body)
  else if r.method = str "DELETE" then afterHandler c (configDel c r.body)
  else if r.method = str "PUT" then afterHandler c (configAdd c r.body)
  else c

section Prepare

variable (con : Console) (serverside : ℕ) (h : PassHistory) (c : Configs) (r : WebRequest)

/-- `WatchModeExempt` panics. -/
def WebRequest.panics : Bool :=
  (r.visit c).admitted con && r.method != str "GET" && con.twoFactorAuth &&
    (str "config").isSuffixOf r.url && c.learn.isNone

/-- The handler runs: `Prepare` neither answered nor panicked. -/
def WebRequest.runs : Bool :=
  !r.panics con c && (prepare con serverside h (r.visit c)).passed

/-! ## What the code is for -/

/-- A request about the white list to `/config` in watch mode. -/
def Exempted : Prop :=
  (str "config").isSuffixOf r.url = true ∧ c.learn = some true ∧
    ∃ white, one c (·.type == str "whitelist") = some white ∧ r.body.form.id = hexEncode white.id

/-- No document but the one with the id `id` is changed. -/
def OnlyChanged (id : ObjectId) (c c' : Configs) : Prop :=
  List.Forall₂ (fun d d' => d'.id = d.id ∧ (d.id ≠ id → d' = d)) c c'

/-- The handler runs only with the code or for a change of the white list, which changes nothing
else. -/
def Protected : Prop :=
  r.runs con serverside h c = true →
    ((r.visit c).clientside = some serverside ∨ Exempted c r) ∧
      (Exempted c r →
        OnlyChanged (c.findOne (str "whitelist")).id c (r.configHandler c))

/-- Where there is no white list, a request for the empty id to `/config` in watch mode does not get
past the other checks, or it has the code. -/
def GuardsEmptyId : Prop :=
  one c (·.type == str "whitelist") = none → r.body.form.id = [] →
    (str "config").isSuffixOf r.url = true → c.learn = some true →
    (r.visit c).admitted con = true → (r.visit c).csrfPassed con = true →
    (r.visit c).clientside = some serverside

end Prepare

end YulongHids.Web
