import YulongHids.Web.WatchMode

/-!
# Proofs: the exemption of the watch mode

The two readings of the body agree, and a hexadecimal id is never one of the tags that `Add`
translates, so a change that is exempted is one of the document with the id. A missing white list has
the empty id.
-/

namespace YulongHids.Web

open Golang Mongo

variable {con : Console} {serverside : ℕ} {h : PassHistory} {c c' : Configs} {r : WebRequest}

/-! ## The change -/

theorem OnlyChanged.refl (id : ObjectId) (c : Configs) : OnlyChanged id c c :=
  List.forall₂_same.mpr fun _ _ => ⟨rfl, fun _ => rfl⟩

theorem onlyChanged_update (id : ObjectId) (c : Configs) {f : Config → Config}
    (hf : ∀ d, (f d).id = d.id) : OnlyChanged id c (update c (·.id == id) f) := by
  induction c with
  | nil => exact List.Forall₂.nil
  | cons d c ih =>
    by_cases hd : d.id = id
    · rw [update, if_pos (beq_iff_eq.mpr hd)]
      exact List.Forall₂.cons ⟨hf d, fun hne => absurd hd hne⟩ (OnlyChanged.refl id c)
    · rw [update, if_neg (by simpa using hd)]
      exact List.Forall₂.cons ⟨rfl, fun _ => rfl⟩ ih

/-- A change with the hexadecimal text of an id changes no document with another id. -/
theorem onlyChanged_changeOne {op : FieldOp} {id : ObjectId} {key value : GoString} {res : Bool}
    (hchange : c.changeOne op (hexEncode id) key value = some (c', res)) : OnlyChanged id c c' := by
  obtain ⟨rfl, -⟩ | ⟨mid, -, hmid, hup⟩ := Configs.changeOne_cases hchange
  · exact OnlyChanged.refl id c'
  obtain rfl := objectIdHex_hexEncode hmid
  obtain ⟨rfl, -⟩ | ⟨d, dic, -, -, -, rfl⟩ := Configs.updateDic_cases hup
  · exact OnlyChanged.refl mid c'
  · exact onlyChanged_update mid c fun _ => rfl

/-- Neither does one with a zero byte in its key, whatever the store reads behind it. -/
theorem onlyChanged_changeRaw {raw : Config → Option Config} {id : ObjectId} {value : GoString}
    {res : Bool} (hchange : c.changeRaw raw (hexEncode id) value = some (c', res)) :
    OnlyChanged id c c' := by
  obtain ⟨rfl, -⟩ | ⟨mid, d, d', -, hmid, -, -, -, rfl⟩ := Configs.changeRaw_cases hchange
  · exact OnlyChanged.refl id c'
  · obtain rfl := objectIdHex_hexEncode hmid
    exact onlyChanged_update mid c fun _ => rfl

theorem onlyChanged_handle {b : Body} {change : EditCfgForm → Option (Configs × Bool)}
    {id : ObjectId} (hchange : ∀ c' res, change b.form = some (c', res) → OnlyChanged id c c') :
    OnlyChanged id c (afterHandler c (b.handle c (hexEncode id) change)) := by
  rcases hhandle : b.handle c (hexEncode id) change with _ | ⟨c', r⟩
  · exact OnlyChanged.refl id c
  · obtain ⟨hsame, -⟩ | ⟨-, res, -, hres⟩ := Body.handle_cases hhandle
    · exact hsame ▸ OnlyChanged.refl id c
    · unfold Body.change at hres
      split at hres
      · exact onlyChanged_changeRaw hres
      · exact hchange c' res hres

theorem listID_hexEncode (c : Configs) (id : ObjectId) : listID c (hexEncode id) = hexEncode id := by
  have hblack : hexEncode id ≠ str "blacklist" := hexEncode_ne (by decide)
  have hwhite : hexEncode id ≠ str "whitelist" := hexEncode_ne (by decide)
  simp [listID, hblack, hwhite]

/-- The handler of `/config` changes no document but the one its form names. -/
theorem onlyChanged_configHandler {id : ObjectId} (hid : r.body.form.id = hexEncode id) :
    OnlyChanged id c (r.configHandler c) := by
  unfold WebRequest.configHandler
  split_ifs
  · rw [configEdit, hid]
    exact onlyChanged_handle fun c' res hres => onlyChanged_changeOne (hid ▸ hres)
  · rw [configDel, hid]
    exact onlyChanged_handle fun c' res hres => onlyChanged_changeOne (hid ▸ hres)
  · rw [configAdd, hid, listID_hexEncode]
    refine onlyChanged_handle fun c' res hres => ?_
    rw [hid, listID_hexEncode] at hres
    exact onlyChanged_changeOne hres
  · exact OnlyChanged.refl id c

/-! ## Who gets there -/

theorem findOne_of_one {type : GoString} {d : Config} (hd : one c (·.type == type) = some d) :
    c.findOne type = d := by
  rw [Configs.findOne, hd]
  rfl

theorem learn_getD : c.learn.getD false = true ↔ c.learn = some true := by
  cases hl : c.learn with
  | none => simp
  | some b => simp

/-- `WatchModeExempt` says yes for a change of the white list, and for the empty id where there is
none. -/
theorem watchModeExempt_iff :
    (r.visit c).watchModeExempt = true ↔
      Exempted c r ∨ ((str "config").isSuffixOf r.url = true ∧ c.learn = some true ∧
        one c (·.type == str "whitelist") = none ∧ r.body.form.id = []) := by
  simp only [Visit.watchModeExempt, WebRequest.visit, Bool.and_eq_true, learn_getD, beq_iff_eq,
    Exempted]
  cases hwhite : one c (·.type == str "whitelist") with
  | none =>
    have hid : hexEncode (c.findOne (str "whitelist")).id = [] := by
      rw [Configs.findOne, hwhite]
      rfl
    simp [hid, and_assoc]
  | some white =>
    rw [findOne_of_one hwhite]
    simp [and_assoc]

theorem guarded_eq (htfa : con.twoFactorAuth = true) (hmethod : r.method ≠ str "GET")
    (hurl : findSub authURILst r.url ≠ []) :
    (r.visit c).guarded con = !(r.visit c).watchModeExempt := by
  have hm : ((r.visit c).method != str "GET") = true := bne_iff_ne.mpr hmethod
  have hu : (findSub authURILst (r.visit c).url != []) = true := bne_iff_ne.mpr hurl
  simp [Visit.guarded, htfa, hm, hu]

/-- A request that is asked for the code gets past the check with it only. -/
theorem checkCode_passed {v : Visit} (hpass : (checkCode serverside h v).passed = true) :
    v.clientside = some serverside := by
  unfold checkCode at hpass
  dsimp only at hpass
  split_ifs at hpass
  cases hc : v.clientside with
  | none =>
    rw [hc] at hpass
    cases hpass
  | some clientside =>
    rw [hc] at hpass
    exact congrArg some (beq_iff_eq.mp hpass).symm

/-- The handler of a request that is not exempted runs only with the code. -/
theorem runs_clientside (htfa : con.twoFactorAuth = true) (hmethod : r.method ≠ str "GET")
    (hurl : findSub authURILst r.url ≠ []) (hexempt : (r.visit c).watchModeExempt = false)
    (hruns : r.runs con serverside h c = true) : (r.visit c).clientside = some serverside := by
  rw [WebRequest.runs, Bool.and_eq_true] at hruns
  have hpass := hruns.2
  unfold prepare at hpass
  split_ifs at hpass with hadm hguard
  · exact checkCode_passed (Bool.and_eq_true_iff.mp hpass).1
  · rw [guarded_eq htfa hmethod hurl, hexempt] at hguard
    exact absurd rfl hguard

/-- An exempted request that meets the other checks gets past `Prepare`. -/
theorem runs_of_exempt (hlearn : c.learn = some true)
    (hexempt : (r.visit c).watchModeExempt = true) (hadm : (r.visit c).admitted con = true)
    (hcsrf : (r.visit c).csrfPassed con = true) : r.runs con serverside h c = true := by
  have hguard : (r.visit c).guarded con = false := by
    simp [Visit.guarded, hexempt]
  simp [WebRequest.runs, WebRequest.panics, hlearn, prepare, hadm, hguard, hcsrf]

theorem runs_checked (hruns : r.runs con serverside h c = true) :
    (r.visit c).admitted con = true ∧ (r.visit c).csrfPassed con = true := by
  rw [WebRequest.runs, Bool.and_eq_true] at hruns
  have hpass := hruns.2
  unfold prepare at hpass
  split_ifs at hpass with hadm hguard
  · exact ⟨hadm, (Bool.and_eq_true_iff.mp hpass).2⟩
  · exact ⟨hadm, by simpa using hpass⟩

/-- The protection holds exactly where the empty id of a missing white list is not let through. -/
theorem protected_iff (con : Console) (serverside : ℕ) (h : PassHistory) (c : Configs)
    (r : WebRequest) (htfa : con.twoFactorAuth = true) (hmethod : r.method ≠ str "GET")
    (hurl : findSub authURILst r.url ≠ []) :
    Protected con serverside h c r ↔ GuardsEmptyId con serverside c r := by
  constructor
  · intro hprot hnone hid hconfig hlearn hadm hcsrf
    have hexempt := watchModeExempt_iff.mpr (Or.inr ⟨hconfig, hlearn, hnone, hid⟩)
    obtain ⟨hcode | ⟨-, -, white, hwhite, -⟩, -⟩ := hprot (runs_of_exempt hlearn hexempt hadm hcsrf)
    · exact hcode
    · rw [hnone] at hwhite
      cases hwhite
  · intro hguard hruns
    refine ⟨?_, ?_⟩
    · cases hexempt : (r.visit c).watchModeExempt with
      | false => exact Or.inl (runs_clientside htfa hmethod hurl hexempt hruns)
      | true =>
        obtain hex | ⟨hconfig, hlearn, hnone, hid⟩ := watchModeExempt_iff.mp hexempt
        · exact Or.inr hex
        · obtain ⟨hadm, hcsrf⟩ := runs_checked hruns
          exact Or.inl (hguard hnone hid hconfig hlearn hadm hcsrf)
    · rintro ⟨-, -, white, hwhite, hid⟩
      rw [findOne_of_one hwhite]
      exact onlyChanged_configHandler hid

/-! ## Instances -/

def watchConsole : Console := ⟨str "", false, false, str "yulong", true⟩

/-- The configuration in watch mode, with the rest of it. -/
def watchConfigs (rest : Configs) : Configs :=
  ⟨List.replicate 12 1, str "server", some (.doc [(str "learn", .bool true)])⟩ :: rest

/-- A request of the user to `/config` without a code. -/
def configRequest (method id : GoString) : WebRequest where
  host := str "yulong"
  scheme := str "https"
  method := method
  url := str "/v1/config"
  user := some (str "yulong")
  pass := []
  cookieToken := str "token"
  headerToken := str "token"
  body := { form := ⟨id, str "process", str "^bash$"⟩, failed := false }

def noPasses : PassHistory := ⟨List.replicate 6 0, rfl⟩

/-- There is a white list, and the request is about it. -/
theorem protected_white :
    Protected watchConsole 123456 noPasses
      (watchConfigs [⟨List.replicate 12 2, str "whitelist", some (.doc [])⟩])
      (configRequest (str "PUT") (str "020202020202020202020202")) := by
  refine (protected_iff _ _ _ _ _ rfl (by decide) (by decide)).mpr ?_
  intro hnone
  exact absurd (congrArg Option.isSome hnone) (by decide)

/-- There is no white list, and the request has no id. -/
theorem unprotected_empty :
    ¬ Protected watchConsole 123456 noPasses (watchConfigs []) (configRequest (str "POST") []) := by
  intro hprot
  obtain ⟨hcode | ⟨-, -, white, hwhite, -⟩, -⟩ := hprot (by decide)
  · exact absurd hcode (by decide)
  · have hnone : one (watchConfigs []) (·.type == str "whitelist") = none := rfl
    rw [hnone] at hwhite
    cases hwhite

end YulongHids.Web
