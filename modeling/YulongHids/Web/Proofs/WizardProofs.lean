import YulongHids.Web.Proofs.ArchiveProofs
import YulongHids.Web.Proofs.InstallProofs
import YulongHids.Web.Wizard
import YulongHids.Transition.History

/-!
# Proofs: the steps of the installation

Nothing that a request writes is taken away by another one, and a request writes only what belongs to
the step that it found. So the four parts of the installation come in their order, whatever the
requests do in between.
-/

namespace YulongHids.Web

open Golang Mongo Transition

/-- What an update leaves of a document. -/
def Config.fixed (d : Config) : ObjectId × GoString := (d.id, d.type)

section ServerField

variable {c c' : Configs} {op : FieldOp} {id key key' value : GoString} {res : Bool} {v : Value}

theorem serverField_eq_some_iff : c.serverField key = some v ↔
    ∃ d fields, one c (·.type == str "server") = some d ∧ d.dic = some (.doc fields) ∧
      fields.lookup key = some v := by
  constructor
  · intro h
    obtain ⟨dic, hdic, hv⟩ := Option.bind_eq_some_iff.mp h
    cases dic with
    | doc fields =>
      obtain ⟨d, hd, hd'⟩ := one_server hdic
      exact ⟨d, fields, hd, hd', hv⟩
    | _ => cases hv
  · rintro ⟨d, fields, hd, hdic, hv⟩
    rw [Configs.serverField, Configs.findOne, hd, Option.getD_some, hdic]
    exact hv

/-- Documents behind a server document are not looked at. -/
theorem serverField_append (h : c.serverField key = some v) (docs : Configs) :
    Configs.serverField (c ++ docs) key = some v := by
  obtain ⟨d, fields, hd, hdic, hv⟩ := serverField_eq_some_iff.mp h
  refine serverField_eq_some_iff.mpr ⟨d, fields, ?_, hdic, hv⟩
  rw [one, List.find?_append, ← one, hd]
  rfl

/-- An accepted change touches one `dic`. -/
theorem changeOne_update (h : c.changeOne op id key value = some (c', res)) :
    c' = c ∨ ∃ mid dic, c' = update c (·.id == mid) fun d => { d with dic := dic } := by
  obtain ⟨rfl, -⟩ | ⟨mid, -, -, hup⟩ := Configs.changeOne_cases h
  · exact Or.inl rfl
  obtain ⟨rfl, -⟩ | ⟨d, dic, -, -, -, rfl⟩ := Configs.updateDic_cases hup
  · exact Or.inl rfl
  · exact Or.inr ⟨mid, dic, rfl⟩

theorem keys_changeOne (h : c.changeOne op id key value = some (c', res)) :
    c'.map Config.fixed = c.map Config.fixed := by
  rcases changeOne_update h with rfl | ⟨mid, dic, rfl⟩
  · rfl
  · exact map_update fun _ _ => rfl

theorem ids_of_keys (h : c'.map Config.fixed = c.map Config.fixed) :
    c'.map Config.id = c.map Config.id := by
  have hmap : ∀ c : Configs, c.map Config.id = (c.map Config.fixed).map Prod.fst := by
    intro c
    rw [List.map_map]
    rfl
  rw [hmap, hmap, h]

theorem idOf_of_keys (h : c'.map Config.fixed = c.map Config.fixed) (type : GoString) :
    c'.idOf type = c.idOf type := by
  induction c generalizing c' with
  | nil =>
    obtain rfl := List.map_eq_nil_iff.mp h
    rfl
  | cons d c ih =>
    obtain ⟨d', c', rfl, hd, hc⟩ := List.map_eq_cons_iff.mp h
    obtain ⟨hid, htype⟩ := Prod.mk.inj hd
    have hrest := ih hc
    rw [Configs.idOf, Configs.idOf, Configs.findOne, Configs.findOne] at hrest ⊢
    rw [one, one, List.find?_cons, List.find?_cons, htype]
    cases hmatch : d.type == type with
    | true => exact congrArg hexEncode hid
    | false => exact hrest

/-- A change of one field leaves the other fields of the server document. -/
theorem serverField_changeOne_of_ne (h : c.changeOne op id key value = some (c', res))
    (hsplit : split key 46 = [key]) (hne : key' ≠ key) (hv : c.serverField key' = some v) :
    c'.serverField key' = some v := by
  obtain ⟨rfl, -⟩ | ⟨mid, -, -, hup⟩ := Configs.changeOne_cases h
  · exact hv
  obtain ⟨rfl, -⟩ | ⟨d, dic, hd, hfield, -, rfl⟩ := Configs.updateDic_cases hup
  · exact hv
  obtain ⟨d0, fields, hd0, hdic0, hv0⟩ := serverField_eq_some_iff.mp hv
  by_cases hsame : d = d0
  · subst hsame
    rw [updateField, hsplit, hdic0, Option.ite_none_right_eq_some] at hfield
    obtain ⟨fields', u, rfl, -, -, hother⟩ := updateAt_doc hfield.2
    refine serverField_eq_some_iff.mpr ⟨_, fields', one_update_of_eq rfl hd hd0, rfl, ?_⟩
    rw [hother key' hne, hv0]
  · refine serverField_eq_some_iff.mpr ⟨d0, fields, ?_, hdic0, hv0⟩
    have hother : one (update c (·.id == mid) fun d => { d with dic := dic })
        (·.type == str "server") = one c (·.type == str "server") := by
      refine one_update_of_ne (fun _ => rfl) fun d1 hd1 hd1' => hsame ?_
      rw [hd, Option.some.injEq] at hd1
      rw [hd0, Option.some.injEq] at hd1'
      exact hd1.trans hd1'.symm
    rw [hother, hd0]

/-- With distinct ids, a document is the first one with its id. -/
theorem one_id {d : Config} (hids : (c.map Config.id).Nodup) (hd : d ∈ c) :
    one c (·.id == d.id) = some d := by
  cases hone : one c (·.id == d.id) with
  | none =>
    have hnot := List.find?_eq_none.mp hone d hd
    simp at hnot
  | some d' =>
    have hid : d'.id = d.id := by simpa using List.find?_some hone
    exact congrArg some (List.inj_on_of_nodup_map hids (List.mem_of_find?_eq_some hone) hd hid)

/-- `EditByID` of the server document sets the field, unless the value is blank. -/
theorem serverField_editByID (hids : (c.map Config.id).Nodup) (hlen : ∀ d ∈ c, d.id.length = 12)
    (hsplit : split key 46 = [key]) (hname : fieldName key = true)
    (hv : c.serverField key' = some v) (hblank : blank value = false)
    (h : c.editByID (c.idOf (str "server")) key value = some (c', res)) :
    c'.serverField key = some (keyType key value) := by
  obtain ⟨d, fields, hd, hdic, -⟩ := serverField_eq_some_iff.mp hv
  have hmem : d ∈ c := List.mem_of_find?_eq_some hd
  have hid : c.idOf (str "server") = hexEncode d.id := by
    rw [Configs.idOf, Configs.findOne, hd]
    rfl
  have hhex : objectIdHex (hexEncode d.id) = some d.id := by
    rw [objectIdHex, hexDecode_hexEncode, Option.bind_some, if_pos (hlen d hmem)]
  have hfield : updateField (setOp (keyType key value)) key d.dic =
      some (some (.doc (setField key (keyType key value) fields))) := by
    rw [updateField, hsplit, hdic]
    simp [hname, updateAt, setOp]
  rw [Configs.editByID, Configs.changeOne, hblank, hid, hhex] at h
  simp only [Bool.false_eq_true, if_false, Option.map_some, Option.some.injEq] at h
  rw [Configs.updateDic, one_id hids hmem] at h
  simp only [hfield] at h
  obtain ⟨rfl, -⟩ := Prod.mk.inj h
  refine serverField_eq_some_iff.mpr ⟨_, _, one_update_of_eq rfl (one_id hids hmem) hd, rfl, ?_⟩
  exact lookup_setField key _ fields

end ServerField

section Keys

variable {c c' : Configs} {k k' : KeyFiles} {o : KeySteps} {id key value : GoString} {v : Value}

/-- The two fields for the keys are strings, and the ids of the documents are distinct. -/
structure Configs.HasKeys (c : Configs) (privateKey publicKey : GoString) : Prop where
  ids : (c.map Config.id).Nodup
  lengths : ∀ d ∈ c, d.id.length = 12
  privateKey : c.serverField (str "privatekey") = some (.string privateKey)
  publicKey : c.serverField (str "publickey") = some (.string publicKey)

variable {privateKey publicKey : GoString}

theorem lengths_of_ids (h : c'.map Config.id = c.map Config.id) (hlen : ∀ d ∈ c, d.id.length = 12) :
    ∀ d ∈ c', d.id.length = 12 := by
  intro d hd
  have hmem : d.id ∈ c.map Config.id := h ▸ List.mem_map_of_mem hd
  obtain ⟨d', hd', hid⟩ := List.mem_map.mp hmem
  exact hid ▸ hlen d' hd'

/-- A change of another field. -/
theorem Configs.HasKeys.changeOne {op : FieldOp} {res : Bool} (h : c.HasKeys privateKey publicKey)
    (hchange : c.changeOne op id key value = some (c', res)) (hsplit : split key 46 = [key])
    (hprivate : str "privatekey" ≠ key) (hpublic : str "publickey" ≠ key) :
    c'.HasKeys privateKey publicKey := by
  have hids := ids_of_keys (keys_changeOne hchange)
  exact ⟨hids ▸ h.ids, lengths_of_ids hids h.lengths,
    serverField_changeOne_of_ne hchange hsplit hprivate h.privateKey,
    serverField_changeOne_of_ne hchange hsplit hpublic h.publicKey⟩

theorem Configs.HasKeys.addEntries {ok : Bool} {entries : List (Option GoString)}
    (h : c.HasKeys privateKey publicKey) (hsplit : split key 46 = [key])
    (hprivate : str "privatekey" ≠ key) (hpublic : str "publickey" ≠ key)
    (hadd : addEntries id key entries c = (c', ok)) : c'.HasKeys privateKey publicKey := by
  induction entries generalizing c with
  | nil =>
    obtain ⟨rfl, -⟩ := Prod.mk.inj hadd
    exact h
  | cons entry rest ih =>
    cases entry with
    | none =>
      obtain ⟨rfl, -⟩ := Prod.mk.inj hadd
      exact h
    | some entry =>
      rw [YulongHids.Web.addEntries] at hadd
      split_ifs at hadd
      · exact ih h hadd
      · rcases hone : c.addOne id key entry with _ | ⟨c1, res⟩
        · rw [hone] at hadd
          obtain ⟨rfl, -⟩ := Prod.mk.inj hadd
          exact h
        · rw [hone] at hadd
          exact ih (h.changeOne hone hsplit hprivate hpublic) hadd

theorem Configs.HasKeys.toConfig {ok : Bool} {iplst prolist : List (Option GoString)}
    {certText : GoString} (h : c.HasKeys privateKey publicKey)
    (hto : toConfig c iplst prolist certText = (c', ok)) : c'.HasKeys privateKey publicKey := by
  have hfields : split (str "ip") 46 = [str "ip"] ∧ split (str "process") 46 = [str "process"] ∧
      split (str "cert") 46 = [str "cert"] := by decide
  unfold YulongHids.Web.toConfig at hto
  rcases hip : YulongHids.Web.addEntries (c.idOf (str "whitelist")) (str "ip") iplst c with ⟨c1, _ | _⟩
  · simp only [hip] at hto
    obtain ⟨rfl, -⟩ := Prod.mk.inj hto
    exact h.addEntries hfields.1 (by decide) (by decide) hip
  have h1 := h.addEntries hfields.1 (by decide) (by decide) hip
  rcases hprocess : YulongHids.Web.addEntries (c.idOf (str "whitelist")) (str "process") prolist c1 with
    ⟨c2, _ | _⟩
  · simp only [hip, hprocess] at hto
    obtain ⟨rfl, -⟩ := Prod.mk.inj hto
    exact h1.addEntries hfields.2.1 (by decide) (by decide) hprocess
  have h2 := h1.addEntries hfields.2.1 (by decide) (by decide) hprocess
  simp only [hip, hprocess] at hto
  rcases hcert : c2.editByID (c2.idOf (str "server")) (str "cert") certText with _ | ⟨c3, res⟩
  · rw [hcert] at hto
    obtain ⟨rfl, -⟩ := Prod.mk.inj hto
    exact h2
  · rw [hcert] at hto
    obtain ⟨rfl, -⟩ := Prod.mk.inj hto
    exact h2.changeOne hcert hfields.2.2 (by decide) (by decide)

/-- The value of a field after `EditByID`. -/
def storedValue (old value : GoString) (stores : Bool) : GoString :=
  if stores = true ∧ blank value = false then value else old

/-- `EditByID` finds the server document. -/
theorem Configs.HasKeys.exists_editByID (h : c.HasKeys privateKey publicKey) (key value : GoString) :
    ∃ c' res, c.editByID (c.idOf (str "server")) key value = some (c', res) := by
  obtain ⟨d, fields, hd, -, -⟩ := serverField_eq_some_iff.mp h.publicKey
  have hid : c.idOf (str "server") = hexEncode d.id := by
    rw [Configs.idOf, Configs.findOne, hd]
    rfl
  have hhex : objectIdHex (hexEncode d.id) = some d.id := by
    rw [objectIdHex, hexDecode_hexEncode, Option.bind_some,
      if_pos (h.lengths d (List.mem_of_find?_eq_some hd))]
  rw [Configs.editByID, Configs.changeOne, hid, hhex]
  split_ifs
  · exact ⟨c, false, rfl⟩
  · exact ⟨_, _, rfl⟩

theorem blank_unchanged {res : Bool} (hblank : blank value = true)
    (h : c.editByID id key value = some (c', res)) : c' = c := by
  rw [Configs.editByID, Configs.changeOne, if_pos hblank] at h
  exact (Prod.mk.inj (Option.some.inj h)).1.symm

theorem keyType_key (value : GoString) :
    keyType (str "privatekey") value = .string value ∧ keyType (str "publickey") value = .string value := by
  have hprivate : valueInListMap (str "privatekey") configTypeMap = [] := by decide
  have hpublic : valueInListMap (str "publickey") configTypeMap = [] := by decide
  have hint : ([] : GoString) ≠ str "int" := by decide
  have hbool : ([] : GoString) ≠ str "bool" := by decide
  simp [keyType, hprivate, hpublic, hint, hbool]

theorem Configs.HasKeys.storePrivate (h : c.HasKeys privateKey publicKey) (value : GoString)
    (stores : Bool) :
    ∃ c', c.storeKey (c.idOf (str "server")) (str "privatekey") value stores = some c' ∧
      c'.map Config.fixed = c.map Config.fixed ∧
      c'.HasKeys (storedValue privateKey value stores) publicKey := by
  obtain ⟨c', res, hedit⟩ := h.exists_editByID (str "privatekey") value
  refine ⟨if stores then c' else c, by rw [Configs.storeKey, hedit]; rfl, ?_⟩
  cases stores with
  | false => exact ⟨rfl, h⟩
  | true =>
    have hkeys := keys_changeOne hedit
    have hids := ids_of_keys hkeys
    have hsplit : split (str "privatekey") 46 = [str "privatekey"] := by decide
    refine ⟨hkeys, hids ▸ h.ids, lengths_of_ids hids h.lengths, ?_,
      serverField_changeOne_of_ne hedit hsplit (by decide) h.publicKey⟩
    cases hblank : blank value with
    | true =>
      obtain rfl := blank_unchanged hblank hedit
      simpa [storedValue, hblank] using h.privateKey
    | false =>
      have hset := serverField_editByID h.ids h.lengths hsplit (by decide) h.publicKey hblank hedit
      simpa [storedValue, hblank, (keyType_key value).1] using hset

theorem Configs.HasKeys.storePublic (h : c.HasKeys privateKey publicKey) (value : GoString)
    (stores : Bool) :
    ∃ c', c.storeKey (c.idOf (str "server")) (str "publickey") value stores = some c' ∧
      c'.map Config.fixed = c.map Config.fixed ∧
      c'.HasKeys privateKey (storedValue publicKey value stores) := by
  obtain ⟨c', res, hedit⟩ := h.exists_editByID (str "publickey") value
  refine ⟨if stores then c' else c, by rw [Configs.storeKey, hedit]; rfl, ?_⟩
  cases stores with
  | false => exact ⟨rfl, h⟩
  | true =>
    have hkeys := keys_changeOne hedit
    have hids := ids_of_keys hkeys
    have hsplit : split (str "publickey") 46 = [str "publickey"] := by decide
    refine ⟨hkeys, hids ▸ h.ids, lengths_of_ids hids h.lengths,
      serverField_changeOne_of_ne hedit hsplit (by decide) h.privateKey, ?_⟩
    cases hblank : blank value with
    | true =>
      obtain rfl := blank_unchanged hblank hedit
      simpa [storedValue, hblank] using h.publicKey
    | false =>
      have hset := serverField_editByID h.ids h.lengths hsplit (by decide) h.publicKey hblank hedit
      simpa [storedValue, hblank, (keyType_key value).2] using hset

/-- What `updateHTTPSKeys` stores: nothing, or the private key of the file that it moved away and the
public key of the other file. -/
theorem Configs.HasKeys.updateHTTPSKeys {out : Option Bool} (h : c.HasKeys privateKey publicKey)
    {cert : GoString} (hup : updateHTTPSKeys c k cert o = ((c', k'), out)) :
    k'.publicPem = k.publicPem ∧
      ((c' = c ∧ (k'.privatePem = k.privatePem ∨ k'.privatePem = none)) ∨
        ∃ key, k.privatePem = some key ∧ k'.privatePem = none ∧
          c'.HasKeys (storedValue privateKey (readFile (some key) o.readPrivate) o.storesPrivate)
            (storedValue publicKey (readFile k.publicPem o.readPublic) o.storesPublic)) := by
  unfold YulongHids.Web.updateHTTPSKeys at hup
  rcases hpem : k.privatePem with _ | key
  · simp only [hpem, Prod.mk.injEq] at hup
    obtain ⟨⟨rfl, rfl⟩, -⟩ := hup
    exact ⟨rfl, Or.inl ⟨rfl, Or.inl hpem⟩⟩
  simp only [hpem] at hup
  split_ifs at hup
  · obtain ⟨⟨rfl, rfl⟩, -⟩ := hup
    exact ⟨rfl, Or.inl ⟨rfl, Or.inl hpem⟩⟩
  · obtain ⟨⟨rfl, rfl⟩, -⟩ := hup
    exact ⟨rfl, Or.inl ⟨rfl, Or.inr rfl⟩⟩
  · obtain ⟨c1, hprivate, hkeys, h1⟩ :=
      h.storePrivate (readFile (some key) o.readPrivate) o.storesPrivate
    obtain ⟨c2, hpublic, -, h2⟩ := h1.storePublic (readFile k.publicPem o.readPublic) o.storesPublic
    rw [idOf_of_keys hkeys] at hpublic
    simp only [hprivate, hpublic, Prod.mk.injEq] at hup
    obtain ⟨⟨rfl, rfl⟩, -⟩ := hup
    exact ⟨rfl, Or.inr ⟨key, rfl, rfl, h2⟩⟩

end Keys

section Steps

variable {s s' : Wizard} {n currentStep : ℕ}

/-- The installation is at step `n`: what the first steps write is there, and nothing else. -/
structure Wizard.AtStep (s : Wizard) (n : ℕ) : Prop where
  mem : n ∈ [1, 2, 3, 4, 42]
  ids : (s.db.config.map Config.id).Nodup
  lengths : ∀ d ∈ s.db.config, d.id.length = 12
  config : (n = 1 ∧ one s.db.config (·.type == str "server") = none) ∨
    (1 < n ∧ ∃ p q, s.db.config.HasKeys p q ∧ (q ≠ [] ↔ 4 < n))
  rules : s.db.rules ≠ [] ↔ 2 < n
  file : s.db.file ≠ [] ↔ 3 < n

/-- `HasInstall` finds the step. -/
theorem Wizard.AtStep.hasInstall (h : s.AtStep n) : hasInstall s.db = some n := by
  have hrules := h.rules
  have hfile := h.file
  have hmem := h.mem
  rcases h.config with ⟨rfl, hnone⟩ | ⟨hn, p, q, hkeys, hq⟩
  · rw [YulongHids.Web.hasInstall, Configs.findOne, hnone]
    rfl
  · obtain ⟨d, fields, hd, hdic, hv⟩ := serverField_eq_some_iff.mp hkeys.publicKey
    have hfind : (s.db.config.findOne (str "server")).dic = some (.doc fields) := by
      rw [Configs.findOne, hd]
      exact hdic
    rw [YulongHids.Web.hasInstall, hfind]
    simp only [hv]
    simp only [List.mem_cons, List.not_mem_nil, or_false] at hmem
    rcases hmem with rfl | rfl | rfl | rfl | rfl
    · omega
    · have hnil : s.db.rules = [] := by simpa using hrules
      simp [hnil, one]
    · have hne : s.db.rules ≠ [] := hrules.mpr (by norm_num)
      have hnil : s.db.file = [] := by simpa using hfile
      obtain ⟨r, rs, hr⟩ := List.exists_cons_of_ne_nil hne
      simp [hr, hnil, one]
    · have hne : s.db.rules ≠ [] := hrules.mpr (by norm_num)
      have hne' : s.db.file ≠ [] := hfile.mpr (by norm_num)
      have hnil : q = [] := by simpa using hq
      obtain ⟨r, rs, hr⟩ := List.exists_cons_of_ne_nil hne
      obtain ⟨f, fs, hf⟩ := List.exists_cons_of_ne_nil hne'
      simp [hr, hf, one, hnil, isEmptyString, Value.isString]
    · have hne : s.db.rules ≠ [] := hrules.mpr (by norm_num)
      have hne' : s.db.file ≠ [] := hfile.mpr (by norm_num)
      have hne'' : q ≠ [] := hq.mpr (by norm_num)
      obtain ⟨r, rs, hr⟩ := List.exists_cons_of_ne_nil hne
      obtain ⟨f, fs, hf⟩ := List.exists_cons_of_ne_nil hne'
      simp [hr, hf, one, hne'', isEmptyString, isNil, Value.isString]

/-- The ids of the default documents are those that they get. -/
theorem ids_defaultDocs {ids : List ObjectId} (hlen : ids.length ≤ 8) :
    (defaultDocs ids).map Config.id = ids := by
  have hzip : (ids.zip defaultConfig).map Prod.fst = ids :=
    List.map_fst_zip (show ids.length ≤ defaultConfig.length from hlen)
  rw [List.zip, List.map_zipWith] at hzip
  rw [defaultDocs, List.map_zipWith]
  exact hzip

/-- The server document among the first default documents. -/
theorem serverField_defaultDocs (a b : ObjectId) (rest : List ObjectId) :
    (defaultDocs (a :: b :: rest)).serverField (str "privatekey") = some (.string []) ∧
      (defaultDocs (a :: b :: rest)).serverField (str "publickey") = some (.string []) :=
  ⟨rfl, rfl⟩

theorem no_server_of_few {ids : List ObjectId} (hfew : ids.length < 2) :
    one (defaultDocs ids) (·.type == str "server") = none := by
  rcases ids with _ | ⟨a, _ | ⟨b, rest⟩⟩
  · rfl
  · rfl
  · simp only [List.length_cons] at hfew
    omega

/-- What is stored behind a configuration with the two fields. -/
theorem Configs.HasKeys.append {c : Configs} {p q : GoString} (h : c.HasKeys p q) {docs : Configs}
    (hids : ((c ++ docs).map Config.id).Nodup) (hlen : ∀ d ∈ docs, d.id.length = 12) :
    Configs.HasKeys (c ++ docs) p q := by
  refine ⟨hids, ?_, serverField_append h.privateKey docs, serverField_append h.publicKey docs⟩
  intro d hd
  rcases List.mem_append.mp hd with hd | hd
  · exact h.lengths d hd
  · exact hlen d hd

/-- Behind a configuration without a server document. -/
theorem serverField_append_of_none {c docs : Configs} {key : GoString}
    (h : one c (·.type == str "server") = none) :
    Configs.serverField (c ++ docs) key = docs.serverField key := by
  rw [Configs.serverField, Configs.findOne, one, List.find?_append, ← one, h, Option.none_or]
  rfl

/-- Default documents are stored. -/
theorem Wizard.AtStep.append (h : s.AtStep n) {indexed : Bool} {ids : List ObjectId}
    (hpossible : s.Possible (.initDB indexed ids)) :
    ∃ m, (m = n ∨ m = nextStep n) ∧
      Wizard.AtStep { s with db := { s.db with config := s.db.config ++ defaultDocs ids } } m := by
  obtain ⟨hnodup, hlen, htwelve⟩ := hpossible
  have hids : ((s.db.config ++ defaultDocs ids).map Config.id).Nodup := by
    rw [List.map_append, ids_defaultDocs hlen]
    exact hnodup
  have hdocs : ∀ d ∈ defaultDocs ids, d.id.length = 12 := by
    intro d hd
    have hmem : d.id ∈ (defaultDocs ids).map Config.id := List.mem_map_of_mem hd
    rw [ids_defaultDocs hlen] at hmem
    exact htwelve d.id hmem
  have hlengths : ∀ d ∈ s.db.config ++ defaultDocs ids, d.id.length = 12 := by
    intro d hd
    rcases List.mem_append.mp hd with hd | hd
    · exact h.lengths d hd
    · exact hdocs d hd
  rcases h.config with ⟨rfl, hnone⟩ | ⟨hn, p, q, hkeys, hq⟩
  · by_cases hfew : ids.length < 2
    · refine ⟨1, Or.inl rfl, h.mem, hids, hlengths, Or.inl ⟨rfl, ?_⟩, h.rules, h.file⟩
      show one (s.db.config ++ defaultDocs ids) _ = none
      rw [one, List.find?_append, ← one, ← one, hnone, no_server_of_few hfew]
      rfl
    · obtain ⟨a, b, rest, rfl⟩ : ∃ a b rest, ids = a :: b :: rest := by
        rcases ids with _ | ⟨a, _ | ⟨b, rest⟩⟩
        · exact absurd (show 0 < 2 by norm_num) hfew
        · exact absurd (show 1 < 2 by norm_num) hfew
        · exact ⟨a, b, rest, rfl⟩
      obtain ⟨hprivate, hpublic⟩ := serverField_defaultDocs a b rest
      have hkeys : Configs.HasKeys (s.db.config ++ defaultDocs (a :: b :: rest)) [] [] :=
        ⟨hids, hlengths, (serverField_append_of_none hnone).trans hprivate,
          (serverField_append_of_none hnone).trans hpublic⟩
      refine ⟨2, Or.inr rfl, by decide, hids, hlengths, Or.inr ⟨by norm_num, [], [], hkeys, by simp⟩,
        h.rules.trans ?_, h.file.trans ?_⟩
      · norm_num
      · norm_num
  · exact ⟨n, Or.inl rfl, h.mem, hids, hlengths, Or.inr ⟨hn, p, q, hkeys.append hids hdocs, hq⟩,
      h.rules, h.file⟩

theorem Wizard.AtStep.initDB (h : s.AtStep n) {indexed : Bool} {ids : List ObjectId}
    (hpossible : s.Possible (.initDB indexed ids)) :
    ∃ m, (m = n ∨ m = nextStep n) ∧ (s.initDB indexed ids).1.AtStep m := by
  unfold Wizard.initDB
  split_ifs
  · exact ⟨n, Or.inl rfl, h⟩
  · exact h.append hpossible
  · exact h.append hpossible

/-- Rules are stored. -/
theorem Wizard.AtStep.initRules (h : s.AtStep n) (hn : 2 ≤ n) (stored : List RuleDoc) (failed : Bool) :
    ∃ m, (m = n ∨ m = nextStep n) ∧ (s.initRules stored failed).1.AtStep m := by
  have hmem := h.mem
  by_cases hsame : n = 2 ∧ stored ≠ []
  · obtain ⟨rfl, hne⟩ := hsame
    obtain ⟨habsurd, -⟩ | ⟨-, p, q, hkeys, hq⟩ := h.config
    · omega
    refine ⟨3, Or.inr rfl, by decide, h.ids, h.lengths, Or.inr ⟨by norm_num, p, q, hkeys, ?_⟩, ?_,
      h.file.trans (by norm_num)⟩
    · exact hq.trans (by norm_num)
    · show s.db.rules ++ stored ≠ [] ↔ 2 < 3
      simp [hne]
  · refine ⟨n, Or.inl rfl, h.mem, h.ids, h.lengths, h.config, ?_, h.file⟩
    show s.db.rules ++ stored ≠ [] ↔ 2 < n
    rw [← h.rules, ne_eq, List.append_eq_nil_iff, not_and_or]
    refine ⟨fun hor => hor.elim id fun hne => ?_, Or.inl⟩
    have hlt : 2 < n := by
      have : n ≠ 2 := fun h2 => hsame ⟨h2, hne⟩
      omega
    exact h.rules.mpr hlt

/-- A record of a file is never taken away. -/
theorem deCompressEntry_ne_nil {p : Published} (hne : p.records ≠ []) (system platform : GoString)
    (f : ZipEntry) : (deCompressEntry p system platform f).1.records ≠ [] := by
  rcases deCompressEntry_cases p system platform f with ⟨-, heq⟩ | ⟨-, heq⟩ |
    ⟨-, q, err, heq, rfl | ⟨rtype, content, -, rfl⟩⟩ | ⟨rtype, content, o, -, ⟨heq, -⟩ | ⟨heq, -⟩⟩
  · rw [heq]
    exact hne
  · rw [heq]
    exact hne
  · rw [heq]
    exact hne
  · rw [heq]
    exact hne
  · rw [heq]
    exact hne
  · rw [heq]
    exact fileUpdate_ne_nil p.records _

theorem deCompressAll_ne_nil {p : Published} (hne : p.records ≠ []) (system platform : GoString)
    (fs : List ZipEntry) : (deCompressAll p system platform fs).1.records ≠ [] := by
  induction fs generalizing p with
  | nil => exact hne
  | cons f fs ih =>
    have hentry := deCompressEntry_ne_nil hne system platform f
    by_cases hret : (deCompressEntry p system platform f).2 = .nil
    · rw [deCompressAll_nil_cons hret]
      exact ih hentry
    · rw [deCompressAll_stop_cons hret]
      exact hentry

/-- What `saveFile` changes. -/
theorem saveFile_cases (s : Wizard) (system platform : GoString) (saved : Bool)
    (archive : Option (List ZipEntry)) :
    (s.saveFile system platform saved archive).1 = s ∨ ∃ entries,
      (s.saveFile system platform saved archive).1 = { s with
        stored := (deCompressAll ⟨s.stored, s.db.file⟩ system platform entries).1.stored
        db := { s.db with
          file := (deCompressAll ⟨s.stored, s.db.file⟩ system platform entries).1.records } } := by
  unfold Wizard.saveFile
  split_ifs
  · exact Or.inl rfl
  · rcases archive with _ | entries
    · exact Or.inl rfl
    · refine Or.inr ⟨entries, ?_⟩
      simp only
      cases (deCompressAll ⟨s.stored, s.db.file⟩ system platform entries).2 <;> rfl

theorem Wizard.AtStep.saveFile (h : s.AtStep n) (hn : 3 ≤ n) (system platform : GoString)
    (saved : Bool) (archive : Option (List ZipEntry)) :
    ∃ m, (m = n ∨ m = nextStep n) ∧ (s.saveFile system platform saved archive).1.AtStep m := by
  have hmem := h.mem
  rcases saveFile_cases s system platform saved archive with heq | ⟨entries, heq⟩
  · rw [heq]
    exact ⟨n, Or.inl rfl, h⟩
  rw [heq]
  by_cases hsame : n = 3 ∧ (deCompressAll ⟨s.stored, s.db.file⟩ system platform entries).1.records ≠ []
  · obtain ⟨rfl, hne⟩ := hsame
    obtain ⟨habsurd, -⟩ | ⟨-, p, q, hkeys, hq⟩ := h.config
    · omega
    refine ⟨4, Or.inr rfl, by decide, h.ids, h.lengths, Or.inr ⟨by norm_num, p, q, hkeys, ?_⟩,
      h.rules.trans (by norm_num), iff_of_true hne (by norm_num)⟩
    exact hq.trans (by norm_num)
  · refine ⟨n, Or.inl rfl, h.mem, h.ids, h.lengths, h.config, h.rules, ?_⟩
    show (deCompressAll ⟨s.stored, s.db.file⟩ system platform entries).1.records ≠ [] ↔ 3 < n
    constructor
    · intro hne
      have hne3 : n ≠ 3 := fun h3 => hsame ⟨h3, hne⟩
      omega
    · intro hlt
      exact deCompressAll_ne_nil (h.file.mpr hlt) system platform entries

theorem storedValue_ne_nil {old value : GoString} {stores : Bool} (hne : old ≠ []) :
    storedValue old value stores ≠ [] := by
  unfold storedValue
  split_ifs with hset
  · rintro rfl
    exact absurd hset.2 (by decide)
  · exact hne

/-- What `addConfig` changes. -/
theorem addConfig_cases {p q : GoString} (h : s.db.config.HasKeys p q) (body : ConfigBody)
    (o : KeySteps) : ∃ c keys,
      (s.addConfig body o).1 = { s with keys := keys, db := { s.db with config := c } } ∧
      keys.publicPem = s.keys.publicPem ∧
      ((c.HasKeys p q ∧ (keys.privatePem = s.keys.privatePem ∨ keys.privatePem = none)) ∨
        ∃ key, s.keys.privatePem = some key ∧ keys.privatePem = none ∧
          c.HasKeys (storedValue p (readFile (some key) o.readPrivate) o.storesPrivate)
            (storedValue q (readFile s.keys.publicPem o.readPublic) o.storesPublic)) := by
  unfold Wizard.addConfig
  rcases body with ⟨_ | iplst, _ | prolist, _ | cert⟩
  case some.some.some =>
    simp only
    rcases hto : toConfig s.db.config iplst prolist cert with ⟨c, _ | _⟩
    · exact ⟨c, s.keys, rfl, rfl, Or.inl ⟨h.toConfig hto, Or.inl rfl⟩⟩
    · have h1 := h.toConfig hto
      rcases hup : updateHTTPSKeys c s.keys cert o with ⟨⟨c', keys⟩, out⟩
      obtain ⟨hpublic, hcases⟩ := h1.updateHTTPSKeys hup
      refine ⟨c', keys, ?_, hpublic, ?_⟩
      · simp only [hup]
        rcases out with _ | _ | _ <;> rfl
      · rcases hcases with ⟨rfl, hprivate⟩ | hstored
        · exact Or.inl ⟨h1, hprivate⟩
        · exact Or.inr hstored
  all_goals exact ⟨s.db.config, s.keys, rfl, rfl, Or.inl ⟨h, Or.inl rfl⟩⟩

theorem Wizard.AtStep.addConfig (h : s.AtStep n) (hn : 4 ≤ n) (body : ConfigBody) (o : KeySteps) :
    ∃ m, (m = n ∨ m = nextStep n) ∧ (s.addConfig body o).1.AtStep m := by
  have hmem := h.mem
  obtain ⟨habsurd, -⟩ | ⟨hlt, p, q, hkeys, hq⟩ := h.config
  · omega
  obtain ⟨c, keys, heq, -, hcases⟩ := addConfig_cases hkeys body o
  have hkeys' : ∃ p' q', c.HasKeys p' q' ∧ (q ≠ [] → q' ≠ []) := by
    rcases hcases with ⟨hc, -⟩ | ⟨key, -, -, hc⟩
    · exact ⟨p, q, hc, id⟩
    · exact ⟨_, _, hc, storedValue_ne_nil⟩
  obtain ⟨p', q', hc, hkeep⟩ := hkeys'
  rw [heq]
  by_cases hsame : n = 4 ∧ q' ≠ []
  · obtain ⟨rfl, hne⟩ := hsame
    refine ⟨42, Or.inr rfl, by decide, hc.ids, hc.lengths, Or.inr ⟨by norm_num, p', q', hc, ?_⟩,
      h.rules.trans (by norm_num), h.file.trans (by norm_num)⟩
    exact iff_of_true hne (by norm_num)
  · refine ⟨n, Or.inl rfl, h.mem, hc.ids, hc.lengths, Or.inr ⟨hlt, p', q', hc, ?_⟩, h.rules, h.file⟩
    constructor
    · intro hne
      have hne4 : n ≠ 4 := fun h4 => hsame ⟨h4, hne⟩
      omega
    · intro h4
      exact hkeep (hq.mpr h4)

theorem db_createKey (s : Wizard) (gen : KeyGen) (openssl : Except GoString GoString) :
    (s.createKey gen openssl).1.db = s.db := by
  unfold Wizard.createKey
  rcases genRsaKey s.keys gen with ⟨keys, _ | _⟩
  · rfl
  · rcases openssl with err | cert <;> rfl

/-- A request that found an earlier step, or this one, leaves the installation at its step or takes it
to the next one. -/
theorem Wizard.AtStep.post (h : s.AtStep n) (hle : currentStep ≤ n) {r : WizardRequest}
    (hpossible : s.Possible r) :
    ∃ m, (m = n ∨ m = nextStep n) ∧ (s.post currentStep r).1.AtStep m := by
  have hsame : ∃ m, (m = n ∨ m = nextStep n) ∧ s.AtStep m := ⟨n, Or.inl rfl, h⟩
  cases r with
  | initDB indexed ids =>
    simp only [Wizard.post]
    split_ifs
    · exact hsame
    · exact h.initDB hpossible
    · exact hsame
  | initRules stored failed =>
    simp only [Wizard.post]
    split_ifs with _ hstep
    · exact hsame
    · exact h.initRules (hstep ▸ hle) stored failed
    · exact hsame
  | saveFile system platform saved archive =>
    simp only [Wizard.post]
    split_ifs with _ hstep
    · exact hsame
    · exact h.saveFile (le_trans hstep hle) system platform saved archive
    · exact hsame
  | createKey gen openssl =>
    simp only [Wizard.post]
    split_ifs
    · exact hsame
    · refine ⟨n, Or.inl rfl, ?_⟩
      have hdb := db_createKey s gen openssl
      exact ⟨h.mem, hdb ▸ h.ids, hdb ▸ h.lengths, hdb ▸ h.config, hdb ▸ h.rules, hdb ▸ h.file⟩
    · exact hsame
  | addConfig body o =>
    simp only [Wizard.post]
    split_ifs with _ hstep
    · exact hsame
    · exact h.addConfig (hstep ▸ hle) body o
    · exact hsame
  | other =>
    simp only [Wizard.post]
    split_ifs
    · exact hsame
    · exact hsame

/-- The installation is at some step, and no request found a later one. -/
def Wizard.OnTrack (s : Wizard) (n : ℕ) : Prop := s.AtStep n ∧ ∀ k ∈ s.checked, k ≤ n

theorem le_nextStep {n : ℕ} : n ≤ nextStep n := by
  unfold nextStep
  split
  · norm_num
  · exact Nat.le_succ _

theorem Wizard.OnTrack.step {e : WizardEvent} (h : s.OnTrack n) (hstep : s.step e = some s') :
    ∃ m, (m = n ∨ m = nextStep n) ∧ s'.OnTrack m := by
  obtain ⟨hat, hchecked⟩ := h
  cases e with
  | check =>
    obtain ⟨k, hk, rfl⟩ := Option.map_eq_some_iff.mp hstep
    rw [hat.hasInstall, Option.some.injEq] at hk
    refine ⟨n, Or.inl rfl, ⟨hat.mem, hat.ids, hat.lengths, hat.config, hat.rules, hat.file⟩, ?_⟩
    intro j hj
    rcases List.mem_cons.mp hj with rfl | hj
    · exact hk.ge
    · exact hchecked j hj
  | post currentStep r =>
    obtain ⟨⟨hmem, hpossible⟩, rfl⟩ := guard_iff.mp hstep
    obtain ⟨m, hm, hpost⟩ := hat.post (hchecked _ hmem) hpossible
    refine ⟨m, hm, ⟨hpost.mem, hpost.ids, hpost.lengths, hpost.config, hpost.rules, hpost.file⟩, ?_⟩
    intro k hk
    have hkn := hchecked k (List.mem_of_mem_erase hk)
    rcases hm with rfl | rfl
    · exact hkn
    · exact hkn.trans le_nextStep

end Steps

section Pairs

variable {s s' : Wizard} {n : ℕ} {es : List WizardEvent} {e : WizardEvent} {p q : GoString}

theorem Generated.mono (h : Generated es p q) (e : WizardEvent) : Generated (es ++ [e]) p q := by
  obtain ⟨currentStep, openssl, hmem⟩ := h
  exact ⟨currentStep, openssl, List.mem_append_left _ hmem⟩

/-- The two files hold a pair if there is a private key, and so do the two fields unless they are
empty. -/
structure Wizard.Paired (es : List WizardEvent) (s : Wizard) : Prop where
  files : ∀ p, s.keys.privatePem = some p →
    ∃ q, s.keys.publicPem = some q ∧ blank p = false ∧ blank q = false ∧ Generated es p q
  fields : ∀ p q, s.db.config.HasKeys p q → (p = [] ∧ q = []) ∨ Generated es p q

theorem Configs.HasKeys.unique {c : Configs} {p' q' : GoString} (h : c.HasKeys p q)
    (h' : c.HasKeys p' q') : p' = p ∧ q' = q := by
  have hp := h'.privateKey.symm.trans h.privateKey
  have hq := h'.publicKey.symm.trans h.publicKey
  exact ⟨Value.string.inj (Option.some.inj hp), Value.string.inj (Option.some.inj hq)⟩

/-- An event that changes neither. -/
theorem Wizard.Paired.frame (h : s.Paired es) (hkeys : s'.keys = s.keys)
    (hconfig : s'.db.config = s.db.config) (e : WizardEvent) : s'.Paired (es ++ [e]) := by
  refine ⟨fun p hp => ?_, fun p q hpq => ?_⟩
  · rw [hkeys] at hp ⊢
    obtain ⟨q, hq, hblank, hblank', hgen⟩ := h.files p hp
    exact ⟨q, hq, hblank, hblank', hgen.mono e⟩
  · rw [hconfig] at hpq
    rcases h.fields p q hpq with hnil | hgen
    · exact Or.inl hnil
    · exact Or.inr (hgen.mono e)

theorem Wizard.Paired.initDB (h : s.Paired es) (hat : s.AtStep n) {indexed : Bool}
    {ids : List ObjectId} (hpossible : s.Possible (.initDB indexed ids)) (e : WizardEvent) :
    (s.initDB indexed ids).1.Paired (es ++ [e]) := by
  have happend : Wizard.Paired (es ++ [e])
      { s with db := { s.db with config := s.db.config ++ defaultDocs ids } } := by
    refine ⟨(h.frame rfl rfl e).files, fun p q hpq => ?_⟩
    rcases hat.config with ⟨-, hnone⟩ | ⟨-, p0, q0, hkeys, -⟩
    · have hp := hpq.privateKey
      have hq := hpq.publicKey
      rw [serverField_append_of_none hnone] at hp hq
      rcases ids with _ | ⟨a, _ | ⟨b, rest⟩⟩
      · cases hp
      · cases hp
      · obtain ⟨hprivate, hpublic⟩ := serverField_defaultDocs a b rest
        have hp' := hp.symm.trans hprivate
        have hq' := hq.symm.trans hpublic
        exact Or.inl ⟨Value.string.inj (Option.some.inj hp'), Value.string.inj (Option.some.inj hq')⟩
    · have hp := hpq.privateKey.symm.trans (serverField_append hkeys.privateKey (defaultDocs ids))
      have hq := hpq.publicKey.symm.trans (serverField_append hkeys.publicKey (defaultDocs ids))
      obtain rfl := Value.string.inj (Option.some.inj hp)
      obtain rfl := Value.string.inj (Option.some.inj hq)
      exact (h.frame rfl rfl e).fields p q hkeys
  unfold Wizard.initDB
  split_ifs
  · exact h.frame rfl rfl e
  · exact happend
  · exact happend

theorem Wizard.Paired.createKey (h : s.Paired es) {currentStep : ℕ} {gen : KeyGen}
    {openssl : Except GoString GoString}
    (hwhole : WholeKeys s (.post currentStep (.createKey gen openssl))) :
    (s.createKey gen openssl).1.Paired (es ++ [.post currentStep (.createKey gen openssl)]) := by
  rcases hwhole with rfl | ⟨p, q, rfl, hp, hq⟩
  · exact h.frame rfl rfl _
  · have hgen : Generated (es ++ [.post currentStep (.createKey (.pair p q) openssl)]) p q :=
      ⟨currentStep, openssl, List.mem_append_right _ (List.mem_singleton_self _)⟩
    have hkeys : (s.createKey (.pair p q) openssl).1.keys =
        { s.keys with privatePem := some p, publicPem := some q } := by
      rcases openssl with err | cert <;> rfl
    refine ⟨fun p' hp' => ?_, fun p' q' hpq => ?_⟩
    · rw [hkeys] at hp' ⊢
      obtain rfl := Option.some.inj hp'
      exact ⟨q, rfl, hp, hq, hgen⟩
    · rw [db_createKey] at hpq
      exact (h.frame rfl rfl _).fields p' q' hpq

theorem Wizard.Paired.addConfig (h : s.Paired es) (hat : s.AtStep n) (hn : 4 ≤ n)
    {currentStep : ℕ} {body : ConfigBody} {o : KeySteps}
    (hwhole : WholeKeys s (.post currentStep (.addConfig body o))) (e : WizardEvent) :
    (s.addConfig body o).1.Paired (es ++ [e]) := by
  obtain ⟨habsurd, -⟩ | ⟨-, p, q, hkeys, -⟩ := hat.config
  · omega
  obtain ⟨c, keys, heq, hpublic, hcases⟩ := addConfig_cases hkeys body o
  have hold := h.frame rfl rfl e
  rw [heq]
  refine ⟨fun p' hp' => ?_, fun p' q' hpq => ?_⟩
  · have hsame : s.keys.privatePem = some p' := by
      rcases hcases with ⟨-, hpem | hpem⟩ | ⟨key, -, hpem, -⟩
      · exact hpem ▸ hp'
      · exact absurd (hpem.symm.trans hp') (by simp)
      · exact absurd (hpem.symm.trans hp') (by simp)
    show ∃ q, keys.publicPem = some q ∧ _
    rw [hpublic]
    exact hold.files p' hsame
  · rcases hcases with ⟨hc, -⟩ | ⟨key, hkey, -, hc⟩
    · obtain ⟨rfl, rfl⟩ := hc.unique hpq
      exact hold.fields p' q' hkeys
    · obtain ⟨rfl, rfl⟩ := hc.unique hpq
      obtain ⟨pub, hpub, hblank, hblank', hgen⟩ := hold.files key hkey
      rcases hwhole with ⟨hsp, hsq⟩ | ⟨hsp, hsq, hrp, hrq⟩
      · rw [hsp, hsq]
        exact hold.fields p q hkeys
      · rw [hsp, hsq, hrp key hkey, hpub, hrq pub hpub]
        refine Or.inr ?_
        simpa [storedValue, hblank, hblank'] using hgen

theorem Wizard.Paired.step (h : s.Paired es) (htrack : s.OnTrack n) (hwhole : WholeKeys s e)
    (hstep : s.step e = some s') : s'.Paired (es ++ [e]) := by
  cases e with
  | check =>
    obtain ⟨k, -, rfl⟩ := Option.map_eq_some_iff.mp hstep
    refine h.frame ?_ ?_ _
    · rfl
    · rfl
  | post currentStep r =>
    obtain ⟨⟨hmem, hpossible⟩, rfl⟩ := guard_iff.mp hstep
    have hle := htrack.2 currentStep hmem
    have hpost : (s.post currentStep r).1.Paired (es ++ [.post currentStep r]) := by
      have hsame : s.Paired (es ++ [.post currentStep r]) := h.frame rfl rfl _
      cases r with
      | initDB indexed ids =>
        simp only [Wizard.post]
        split_ifs
        · exact hsame
        · exact h.initDB htrack.1 hpossible _
        · exact hsame
      | initRules stored failed =>
        simp only [Wizard.post]
        split_ifs
        · exact hsame
        · refine h.frame ?_ ?_ _
          · rfl
          · rfl
        · exact hsame
      | saveFile system platform saved archive =>
        simp only [Wizard.post]
        split_ifs
        · exact hsame
        · rcases saveFile_cases s system platform saved archive with heq | ⟨entries, heq⟩
          · rw [heq]
            exact hsame
          · rw [heq]
            refine h.frame ?_ ?_ _
            · rfl
            · rfl
        · exact hsame
      | createKey gen openssl =>
        simp only [Wizard.post]
        split_ifs
        · exact hsame
        · exact h.createKey hwhole
        · exact hsame
      | addConfig body o =>
        simp only [Wizard.post]
        split_ifs with _ hfour
        · exact hsame
        · exact h.addConfig htrack.1 (hfour ▸ hle) hwhole _
        · exact hsame
      | other =>
        simp only [Wizard.post]
        split_ifs
        · exact hsame
        · exact hsame
    exact ⟨hpost.files, hpost.fields⟩

end Pairs

end YulongHids.Web
