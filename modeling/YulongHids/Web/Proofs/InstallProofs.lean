import YulongHids.Web.Install
import YulongHids.Transition.Run

/-!
# The installer stays closed

`HasInstall` is above the last step in two kinds of states: those with a public key, a rule and a
file, and those with none of the three. A request leaves them if it removes the last rule of the one
or adds something to the other. What an update whose key has a zero byte does is left open.
-/

namespace YulongHids.Web

open Golang Mongo Transition

section State

variable {db : ConsoleDB} {fields : List (GoString × Value)}

/-- A public key that `HasInstall` takes for one. -/
def Value.Solid (v : Value) : Prop := v.isString [] = false ∧ v ≠ .null

/-- The two kinds of installed states, with the fields of the server document. -/
def InstalledWith (db : ConsoleDB) (fields : List (GoString × Value)) : Prop :=
  (∃ v, fields.lookup (str "publickey") = some v ∧ Value.Solid v ∧ db.rules ≠ [] ∧ db.file ≠ []) ∨
    (fields.lookup (str "publickey") = none ∧ db.rules = [] ∧ db.file = [])

theorem one_true_isNone_iff {α : Type*} (c : Collection α) :
    (one c fun _ => true) = none ↔ c = [] := by
  cases c <;> simp [one]

theorem hasInstall_doc (db : ConsoleDB) (hdic : (db.config.findOne (str "server")).dic = some (.doc fields)) :
    Installed db ↔ InstalledWith db fields := by
  have hrules : ((one db.rules fun _ => true).isNone = true) ↔ db.rules = [] := by
    rw [Option.isNone_iff_eq_none, one_true_isNone_iff]
  have hrules' : ((one db.rules fun _ => true).isSome = true) ↔ db.rules ≠ [] := by
    rw [ne_eq, ← hrules, Option.isSome_iff_ne_none, Option.isNone_iff_eq_none]
  have hfile : 0 < db.file.length ↔ db.file ≠ [] := List.length_pos_iff
  have hfile' : db.file.length = 0 ↔ db.file = [] := List.length_eq_zero_iff
  simp only [Installed, hasInstall, hdic, hrules, hrules', hfile, hfile', InstalledWith]
  cases hkey : fields.lookup (str "publickey") with
  | none =>
    by_cases hr : db.rules = [] <;> by_cases hf : db.file = [] <;>
      simp [hr, hf, isEmptyString, isNil, installStep]
  | some v =>
    by_cases hr : db.rules = []
    · simp [hr, installStep]
    · by_cases hf : db.file = []
      · simp [hr, hf, installStep]
      · cases hv : v.isString [] with
        | true => simp [hr, hf, isEmptyString, hv, installStep, Value.Solid]
        | false =>
          cases v with
          | null => simp [hr, hf, isEmptyString, isNil, installStep, Value.Solid]
          | _ => simp [hr, hf, isEmptyString, isNil, hv, installStep, Value.Solid]

/-- Only a server document with fields is installed. -/
theorem Installed.exists_fields (h : Installed db) :
    ∃ fields, (db.config.findOne (str "server")).dic = some (.doc fields) := by
  obtain ⟨n, hn, hlt⟩ := h
  unfold hasInstall at hn
  split at hn
  · cases hn
    exact absurd hlt (by decide)
  · cases hn
    exact absurd hlt (by decide)
  · next fields hdic => exact ⟨fields, hdic⟩
  · cases hn

end State

section Change

variable {c : Configs} {op : FieldOp} {id key value : GoString}
  {fields : List (GoString × Value)}

/-- The collection after one of the three updates, which may panic. -/
def Configs.afterChange (c : Configs) (op : FieldOp) (id key value : GoString) : Configs :=
  ((c.changeOne op id key value).map Prod.fst).getD c

/-- An update that injects nothing is a change of the field at its path, or it is refused. -/
theorem afterHandler_handle (b : Body) (c : Configs) (op : EditCfgForm → FieldOp) (id : GoString)
    (hinj : ¬ b.Injects c id) :
    afterHandler c (b.handle c id fun j => c.changeOne (op j) id j.key j.input) =
      if b.failed || b.form.key.contains 0 then c
      else c.afterChange (op b.form) id b.form.key b.form.input := by
  unfold Body.handle afterHandler Configs.afterChange
  cases hfailed : b.failed with
  | true => rfl
  | false =>
    cases hzero : b.form.key.contains 0 with
    | false => simp [Body.change_of_not_contains hzero, Option.map_map, Function.comp_def]
    | true =>
      rw [Body.change, if_pos hzero]
      rcases hraw : c.changeRaw b.raw id b.form.input with _ | ⟨c', res⟩
      · rfl
      obtain ⟨rfl, -⟩ | ⟨mid, d, d', hblank, hmid, hd, hd', -, -⟩ := Configs.changeRaw_cases hraw
      · rfl
      · exact absurd ⟨hfailed, hzero, hblank, mid, d, hmid, hd, by rw [hd']; rfl⟩ hinj

/-- The operators of the three updates: what they make is a key that `HasInstall` takes for one, and
they remove none. -/
structure MakesSolid (op : FieldOp) : Prop where
  made : ∀ v u, op v = some (some u) → Value.Solid u
  present : ∀ v u, op (some v) = some u → u.isSome

theorem makesSolid_setOp (key : GoString) (h : blank value = false) :
    MakesSolid (setOp (keyType key value)) := by
  have hv : value ≠ [] := by
    rintro rfl
    cases h
  refine ⟨fun v u hu => ?_, fun v u hu => ?_⟩
  · obtain rfl : keyType key value = u := Option.some.inj (Option.some.inj hu)
    unfold keyType
    simp only
    split_ifs
    · exact ⟨rfl, by simp⟩
    · exact ⟨rfl, by simp⟩
    · exact ⟨by simpa [Value.isString] using hv, by simp⟩
  · obtain rfl : some (keyType key value) = u := Option.some.inj hu
    rfl

theorem makesSolid_addToSetOp (s : GoString) : MakesSolid (addToSetOp s) := by
  refine ⟨fun v u hu => ?_, fun v u hu => ?_⟩
  · unfold addToSetOp at hu
    split at hu
    · exact Option.some.inj (Option.some.inj hu) ▸ ⟨rfl, by simp⟩
    · exact Option.some.inj (Option.some.inj hu) ▸ ⟨rfl, by simp⟩
    · cases hu
  · unfold addToSetOp at hu
    split at hu
    · next h => cases h
    · exact Option.some.inj hu ▸ rfl
    · cases hu

theorem makesSolid_pullOp (s : GoString) : MakesSolid (pullOp s) := by
  refine ⟨fun v u hu => ?_, fun v u hu => ?_⟩
  · unfold pullOp at hu
    split at hu
    · cases hu
    · exact Option.some.inj (Option.some.inj hu) ▸ ⟨rfl, by simp⟩
    · cases hu
  · unfold pullOp at hu
    split at hu
    · next h => cases h
    · exact Option.some.inj hu ▸ rfl
    · cases hu

/-- The server document of a state in which it has fields. -/
theorem one_server (hdic : (c.findOne (str "server")).dic = some (.doc fields)) :
    ∃ d, one c (·.type == str "server") = some d ∧ d.dic = some (.doc fields) := by
  unfold Configs.findOne at hdic
  cases hd : one c (·.type == str "server") with
  | none => rw [hd] at hdic; cases hdic
  | some d => exact ⟨d, rfl, by simpa [hd] using hdic⟩

theorem split_eq_cons (s : GoString) (sep : UInt8) : ∃ k path, split s sep = k :: path :=
  List.exists_cons_of_ne_nil (List.splitOn_ne_nil sep s)

/-- A change that does not lead to the field `publickey` of the server document leaves the field. -/
theorem afterChange_of_not_hits (op : FieldOp) (hzero : key.contains 0 = false)
    (hdic : (c.findOne (str "server")).dic = some (.doc fields))
    (hhits : ¬ HitsKey c id key value) :
    ∃ fields', ((c.afterChange op id key value).findOne (str "server")).dic = some (.doc fields') ∧
      fields'.lookup (str "publickey") = fields.lookup (str "publickey") := by
  unfold Configs.afterChange
  cases hchange : c.changeOne op id key value with
  | none => exact ⟨fields, hdic, rfl⟩
  | some p =>
    obtain ⟨c', res⟩ := p
    simp only [Option.map_some, Option.getD_some]
    obtain ⟨rfl, -⟩ | ⟨mid, hblank, hmid, hup⟩ := Configs.changeOne_cases hchange
    · exact ⟨fields, hdic, rfl⟩
    obtain ⟨rfl, -⟩ | ⟨d, dic, hd, hfield, -, rfl⟩ := Configs.updateDic_cases hup
    · exact ⟨fields, hdic, rfl⟩
    obtain ⟨d0, hd0, hdic0⟩ := one_server hdic
    by_cases hsame : d = d0
    · subst hsame
      obtain ⟨k, path, hsplit⟩ := split_eq_cons key 46
      rw [updateField, hsplit, hdic0, Option.ite_none_right_eq_some] at hfield
      obtain ⟨hnames, hat⟩ := hfield
      obtain ⟨fields', u, rfl, -, -, hother⟩ := updateAt_doc hat
      refine ⟨fields', ?_, ?_⟩
      · rw [Configs.findOne, one_update_of_eq rfl hd hd0]
        rfl
      · refine hother _ (Ne.symm fun hkey => hhits
          ⟨hblank, hzero, hsplit ▸ hnames, ?_, mid, d, hmid, hd, hd0⟩)
        rw [hsplit, hkey]
        rfl
    · refine ⟨fields, ?_, rfl⟩
      have hother : one (update c (·.id == mid) fun d => { d with dic := dic })
          (·.type == str "server") = one c (·.type == str "server") := by
        refine one_update_of_ne (fun _ => rfl) fun d1 hd1 hd1' => hsame ?_
        rw [hd, Option.some.injEq] at hd1
        rw [hd0, Option.some.injEq] at hd1'
        exact hd1.trans hd1'.symm
      rw [Configs.findOne, hother, ← Configs.findOne, hdic]

/-- A change that leads there is an update of the field, at some path below it. -/
theorem afterChange_of_hits (op : FieldOp)
    (hdic : (c.findOne (str "server")).dic = some (.doc fields))
    (hhits : HitsKey c id key value) :
    ∃ fields' path, ((c.afterChange op id key value).findOne (str "server")).dic =
        some (.doc fields') ∧
      fields'.lookup (str "publickey") =
        (updateAt op path (fields.lookup (str "publickey"))).join.or
          (fields.lookup (str "publickey")) := by
  obtain ⟨hblank, -, hnames, hhead, mid, d, hmid, hd, hserver⟩ := hhits
  obtain ⟨k, path, hsplit⟩ := split_eq_cons key 46
  obtain rfl : k = str "publickey" := by simpa [hsplit] using hhead
  obtain ⟨d0, hd0, hdic0⟩ := one_server hdic
  obtain rfl : d = d0 := Option.some.inj (hserver.symm.trans hd0)
  have hafter : c.afterChange op id key value = (c.updateDic mid key op).1 := by
    simp [Configs.afterChange, Configs.changeOne, hblank, hmid]
  have hfield : updateField op key d.dic = updateAt op (str "publickey" :: path) (some (.doc fields)) := by
    rw [updateField, if_pos hnames, hsplit, hdic0]
  rw [hafter, Configs.updateDic, hd]
  simp only [hfield]
  cases hat : updateAt op (str "publickey" :: path) (some (.doc fields)) with
  | none =>
    have hnone : updateAt op path (fields.lookup (str "publickey")) = none := by
      simpa [updateAt] using hat
    exact ⟨fields, path, hdic, by rw [hnone]; rfl⟩
  | some w =>
    obtain ⟨fields', u, rfl, hu, hk, -⟩ := updateAt_doc hat
    refine ⟨fields', path, ?_, by rw [hk, hu]; rfl⟩
    rw [Configs.findOne, one_update_of_eq rfl hd hd0]
    rfl

/-- A change keeps a key that `HasInstall` takes for one. -/
theorem afterChange_solid (hop : MakesSolid op) (id value : GoString) (hzero : key.contains 0 = false)
    (hdic : (c.findOne (str "server")).dic = some (.doc fields)) {v : Value}
    (hv : fields.lookup (str "publickey") = some v) (hsolid : Value.Solid v) :
    ∃ fields' v', ((c.afterChange op id key value).findOne (str "server")).dic =
        some (.doc fields') ∧ fields'.lookup (str "publickey") = some v' ∧ Value.Solid v' := by
  by_cases hhits : HitsKey c id key value
  · obtain ⟨fields', path, hdic', hlookup⟩ := afterChange_of_hits op hdic hhits
    rw [hv] at hlookup
    cases hat : updateAt op path (some v) with
    | none =>
      rw [hat] at hlookup
      exact ⟨fields', v, hdic', hlookup, hsolid⟩
    | some u =>
      obtain ⟨v', rfl⟩ := Option.isSome_iff_exists.mp (updateAt_present hop.present hat)
      rw [hat] at hlookup
      refine ⟨fields', v', hdic', hlookup, ?_⟩
      exact updateAt_made (fun _ => ⟨rfl, by simp⟩) (fun _ => ⟨rfl, by simp⟩) hop.made hat
  · obtain ⟨fields', hdic', hlookup⟩ := afterChange_of_not_hits op hzero hdic hhits
    exact ⟨fields', v, hdic', hlookup.trans hv, hsolid⟩

/-- Where there is no key, a change makes one if it leads to the field and the operator makes a
value of a missing one. -/
theorem afterChange_missing {u : Option Value} (hop : op none = some u) (id value : GoString)
    (hzero : key.contains 0 = false)
    (hdic : (c.findOne (str "server")).dic = some (.doc fields))
    (hkey : fields.lookup (str "publickey") = none) :
    ∃ fields', ((c.afterChange op id key value).findOne (str "server")).dic = some (.doc fields') ∧
      (fields'.lookup (str "publickey") = none ↔ ¬ (u.isSome ∧ HitsKey c id key value)) := by
  by_cases hhits : HitsKey c id key value
  · obtain ⟨fields', path, hdic', hlookup⟩ := afterChange_of_hits op hdic hhits
    obtain ⟨u', hu', hiff⟩ := updateAt_missing path u hop
    refine ⟨fields', hdic', ?_⟩
    rw [hlookup, hkey, hu', Option.join_some, Option.or_none, ← Option.not_isSome_iff_eq_none, hiff]
    simp [hhits]
  · obtain ⟨fields', hdic', hlookup⟩ := afterChange_of_not_hits op hzero hdic hhits
    refine ⟨fields', hdic', ?_⟩
    simp [hlookup, hkey, hhits]

end Change

section Requests

variable {db : ConsoleDB} {fields : List (GoString × Value)}

/-- A change of the rules is harmless if it leaves rules exactly where there were rules. -/
theorem installed_rules_iff (hdic : (db.config.findOne (str "server")).dic = some (.doc fields))
    (h : InstalledWith db fields) (rules : Collection RuleDoc) :
    Installed { db with rules := rules } ↔ (db.rules = [] ↔ rules = []) := by
  rw [hasInstall_doc { db with rules := rules } hdic, InstalledWith]
  rcases h with ⟨v, hv, hsolid, hr, hf⟩ | ⟨hv, hr, hf⟩
  · simp [hv, hsolid, hr, hf]
  · simp [hv, hr, hf]

theorem installed_file_iff (hdic : (db.config.findOne (str "server")).dic = some (.doc fields))
    (h : InstalledWith db fields) (file : Collection File) :
    Installed { db with file := file } ↔ (db.file = [] ↔ file = []) := by
  rw [hasInstall_doc { db with file := file } hdic, InstalledWith]
  rcases h with ⟨v, hv, hsolid, hr, hf⟩ | ⟨hv, hr, hf⟩
  · simp [hv, hsolid, hr, hf]
  · simp [hv, hr, hf]

/-- A change of the configuration is harmless if it makes no first key. -/
theorem installed_config_iff (hdic : (db.config.findOne (str "server")).dic = some (.doc fields))
    (h : InstalledWith db fields) {op : FieldOp} (hop : MakesSolid op) {u : Option Value}
    (hmissing : op none = some u) (id value : GoString) {key : GoString}
    (hzero : key.contains 0 = false) :
    Installed { db with config := db.config.afterChange op id key value } ↔
      (db.publickey = none → ¬ (u.isSome ∧ HitsKey db.config id key value)) := by
  have hkey : db.publickey = fields.lookup (str "publickey") := by
    rw [ConsoleDB.publickey, hdic]
    rfl
  rw [hkey]
  rcases h with ⟨v, hv, hsolid, hr, hf⟩ | ⟨hv, hr, hf⟩
  · obtain ⟨fields', v', hdic', hv', hsolid'⟩ := afterChange_solid hop id value hzero hdic hv
      hsolid
    rw [hasInstall_doc { db with config := db.config.afterChange op id key value } hdic',
      InstalledWith]
    simp [hv, hv', hsolid', hr, hf]
  · obtain ⟨fields', hdic', hiff⟩ := afterChange_missing hmissing id value hzero hdic hv
    rw [hasInstall_doc { db with config := db.config.afterChange op id key value } hdic',
      InstalledWith]
    simp [hv, hr, hf, hiff]

theorem enableRule_eq_nil_iff (rules : Collection RuleDoc) (idstr : GoString) (status : Bool) :
    enableRule rules idstr status = [] ↔ rules = [] := by
  unfold enableRule
  cases objectIdHex idstr with
  | none => exact Iff.rfl
  | some id =>
    cases rules with
    | nil => simp [update]
    | cons d rules =>
      by_cases hd : (d.id == id) = true <;> simp [update, hd]

theorem removeRule_eq_nil_iff (rules : Collection RuleDoc) (idstr : GoString) :
    removeRule rules idstr = [] ↔
      rules = [] ∨ ∃ id, objectIdHex idstr = some id ∧ ∀ d ∈ rules, d.id = id := by
  unfold removeRule
  cases objectIdHex idstr with
  | none => simp
  | some id =>
    simp only [List.filter_eq_nil_iff, bne_iff_ne, ne_eq, Decidable.not_not, Option.some.injEq,
      exists_eq_left']
    constructor
    · exact Or.inr
    · rintro (rfl | h)
      · simp
      · exact h

theorem fileUpdate_ne_nil (files : Collection File) (f : File) : fileUpdate files f ≠ [] := by
  unfold fileUpdate
  cases hone : one files (fileSelector f.system f.platform f.type) with
  | none => simp [hone, Mongo.insert]
  | some d =>
    simp only [hone]
    cases files with
    | nil => cases hone
    | cons e files =>
      by_cases he : fileSelector f.system f.platform f.type e = true <;> simp [update, he]

/-- An update of the configuration that injects nothing is harmless if it makes no first key. -/
theorem installed_update_iff (h : Installed db) (b : Body) (op : EditCfgForm → FieldOp)
    {id : GoString} (hinj : ¬ b.Injects db.config id)
    (hop : blank b.form.input = false → MakesSolid (op b.form)) {u : Option Value}
    (hmissing : op b.form none = some u) :
    Installed { db with
        config := afterHandler db.config
          (b.handle db.config id fun j => db.config.changeOne (op j) id j.key j.input) } ↔
      (db.publickey = none → b.failed = false →
        ¬ (u.isSome ∧ HitsKey db.config id b.form.key b.form.input)) := by
  obtain ⟨fields, hdic⟩ := h.exists_fields
  have hwith : InstalledWith db fields := (hasInstall_doc db hdic).mp h
  rw [afterHandler_handle b db.config op id hinj]
  cases b.failed with
  | true => simpa using h
  | false =>
    cases hzero : b.form.key.contains 0 with
    | true =>
      refine iff_of_true h fun _ _ hhits => ?_
      rw [hhits.2.2.1] at hzero
      cases hzero
    | false =>
      cases hblank : blank b.form.input with
      | true => simpa [Configs.afterChange, Configs.changeOne, HitsKey, hblank] using h
      | false =>
        simpa using installed_config_iff hdic hwith (hop hblank) hmissing id b.form.input hzero

/-- One request that injects nothing keeps the installation exactly if it meets the condition. -/
theorem handle_installed_iff (h : Installed db) (r : ConsoleRequest) (hinj : ¬ Injects db r) :
    Installed (db.handle r) ↔ KeepsInstall db r := by
  obtain ⟨fields, hdic⟩ := h.exists_fields
  have hwith : InstalledWith db fields := (hasInstall_doc db hdic).mp h
  cases r with
  | ruleEnable body =>
    cases body with
    | none => simpa [ConsoleDB.handle, KeepsInstall] using h
    | some body =>
      obtain ⟨idstr, status⟩ := body
      simp [ConsoleDB.handle, KeepsInstall, installed_rules_iff hdic hwith, enableRule_eq_nil_iff]
  | ruleAdd stored =>
    simp only [ConsoleDB.handle, KeepsInstall, installed_rules_iff hdic hwith, List.append_eq_nil_iff]
    tauto
  | ruleDel body =>
    cases body with
    | none => simpa [ConsoleDB.handle, KeepsInstall] using h
    | some idstr =>
      simp only [ConsoleDB.handle, KeepsInstall, installed_rules_iff hdic hwith,
        removeRule_eq_nil_iff]
      by_cases hr : db.rules = [] <;> simp [hr]
  | configEdit b =>
    have hiff := installed_update_iff h b (fun j => setOp (keyType j.key j.input)) hinj
      (makesSolid_setOp b.form.key) rfl
    simp only [Option.isSome_some, true_and] at hiff
    exact hiff.trans (and_iff_right hinj).symm
  | configDel b =>
    have hiff := installed_update_iff h b (fun j => pullOp j.input) hinj
      (fun _ => makesSolid_pullOp b.form.input) rfl
    simp only [Option.isSome_none, Bool.false_eq_true, false_and, not_false_iff] at hiff
    exact hiff.trans (iff_of_true (fun _ _ => trivial) hinj)
  | configAdd b =>
    have hiff := installed_update_iff h b (fun j => addToSetOp j.input) hinj
      (fun _ => makesSolid_addToSetOp b.form.input) rfl
    simp only [Option.isSome_some, true_and] at hiff
    exact hiff.trans (and_iff_right hinj).symm
  | fileUpload system platform md5 =>
    simp only [ConsoleDB.handle, KeepsInstall]
    cases uploadAccepted system platform md5 with
    | true => simp [installed_file_iff hdic hwith, fileUpdate_ne_nil]
    | false => simpa using h
  | task => simpa [ConsoleDB.handle, KeepsInstall] using h
  | notice => simpa [ConsoleDB.handle, KeepsInstall] using h

theorem KeepsInstall.not_injects {r : ConsoleRequest} (h : KeepsInstall db r) : ¬ Injects db r := by
  cases r with
  | configEdit b => exact h.1
  | configDel b => exact h
  | configAdd b => exact h.1
  | _ => exact not_false

/-- A step of the console, which is always possible. -/
abbrev consoleStep (db : ConsoleDB) (r : ConsoleRequest) : Option ConsoleDB := some (db.handle r)

/-- Along the runs whose requests all meet the condition, the console stays installed; along the runs
that inject nothing, only there. -/
theorem stays_installed_iff (db : ConsoleDB) (h : Installed db) (rs : List ConsoleRequest) :
    (Along consoleStep KeepsInstall db rs →
      ∀ n ≤ rs.length, Installed (db.handleAll (rs.take n))) ∧
    (Along consoleStep (fun db r => ¬ Injects db r) db rs →
      (∀ n ≤ rs.length, Installed (db.handleAll (rs.take n))) →
      Along consoleStep KeepsInstall db rs) := by
  induction rs generalizing db with
  | nil => simpa [ConsoleDB.handleAll, Along] using h
  | cons r rs ih =>
    simp only [along_cons_iff (show consoleStep db r = some (db.handle r) from rfl)]
    constructor
    · rintro ⟨hkeeps, hrest⟩ n hn
      have h1 := (handle_installed_iff h r hkeeps.not_injects).mpr hkeeps
      cases n with
      | zero => exact h
      | succ n => exact (ih (db.handle r) h1).1 hrest n (by simpa using hn)
    · rintro ⟨hinj, hrest⟩ hall
      have h1 : Installed (db.handle r) := hall 1 (by simp)
      exact ⟨(handle_installed_iff h r hinj).mp h1,
        (ih (db.handle r) h1).2 hrest fun n hn => hall (n + 1) (by simpa using hn)⟩

/-- An installed console with one rule. -/
def oneRuleDB : ConsoleDB where
  config := [⟨List.replicate 12 1, str "server",
    some (.doc [(str "publickey", .string (str "-----BEGIN PUBLIC KEY-----"))])⟩]
  rules := [⟨List.replicate 12 2, [(str "enabled", .bool true)]⟩]
  file := [⟨str "64", str "linux", str "agent", str "0cc175b9c0f1b6a831c399e269772661"⟩]

/-- Its rule is removed. -/
def removeIt : ConsoleRequest := .ruleDel (some (str "020202020202020202020202"))

/-- Another rule is added first. -/
def replaceIt : List ConsoleRequest := [.ruleAdd [⟨List.replicate 12 3, []⟩], removeIt]

theorem stays_installed_replace :
    Installed oneRuleDB ∧ ∀ n ≤ replaceIt.length, Installed (oneRuleDB.handleAll (replaceIt.take n)) := by
  have h : Installed oneRuleDB := ⟨42, rfl, by decide⟩
  refine ⟨h, (stays_installed_iff oneRuleDB h replaceIt).1 ?_⟩
  refine Along.cons rfl (fun hr => by cases hr) (Along.cons rfl ?_ trivial)
  rintro - ⟨id, hid, hall⟩
  have h2 := hall _ (List.mem_cons_self)
  have h3 := hall ⟨List.replicate 12 3, []⟩ (by simp [ConsoleDB.handle, oneRuleDB])
  exact absurd (h2.trans h3.symm) (by decide)

/-- The console is installed; the removal of its only rule opens the installer. -/
theorem installer_reopened :
    ¬ ∀ (db : ConsoleDB) (rs : List ConsoleRequest), Installed db → Installed (db.handleAll rs) := by
  intro hall
  obtain ⟨n, hn, hlt⟩ := hall oneRuleDB [removeIt] ⟨42, rfl, by decide⟩
  have h2 : hasInstall (oneRuleDB.handleAll [removeIt]) = some 2 := rfl
  rw [h2] at hn
  cases hn
  exact absurd hlt (by decide)

end Requests

end YulongHids.Web
