import YulongHids.Server.Whitelisting
import YulongHids.Server.Proofs.WarningProofs

/-!
# Proofs: from a notice to the white list of the server

The pattern for a name matches exactly the name. `WhiteFilter` matches it against the name in lower
case, so a name with upper case stays unknown.
-/

namespace YulongHids.Server

open Golang Mongo Web

/-! ## The pattern -/

theorem escapable_of_mem {c : Char} (hc : c ∈ escapeClass) : escapable c = true := by
  have hall : escapeClass.all escapable = true := by decide
  exact List.all_eq_true.mp hall c hc

theorem mem_of_special {c : Char} (hc : c ∈ specialChars) : c ∈ escapeClass := by
  have hall : specialChars.all escapeClass.contains = true := by decide
  exact List.contains_iff_mem.mp (List.all_eq_true.mp hall c hc)

theorem literalItems_cons {c : Char} (hc : c ∉ escapeClass) (rest : List Char) :
    literalItems (c :: rest) = (literalItems rest).map (c :: ·) := by
  have hspecial : c ∉ specialChars := fun h => hc (mem_of_special h)
  have hback : c ≠ '\\' := by
    rintro rfl
    exact hc (by decide)
  have hend : c ≠ '$' := by
    rintro rfl
    exact hc (by decide)
  rw [literalItems, if_neg (by simpa using hspecial)]
  · exact fun h _ => hend h
  · exact fun _ _ h _ => hback h

theorem literalItems_escape (s : List Char) : literalItems (escapeRegexp s ++ ['$']) = some s := by
  induction s with
  | nil => rfl
  | cons c s ih =>
    by_cases hc : c ∈ escapeClass
    · have happ : escapeRegexp (c :: s) ++ ['$'] = '\\' :: c :: (escapeRegexp s ++ ['$']) := by
        simp [escapeRegexp, hc]
      rw [happ, literalItems, if_pos (escapable_of_mem hc), ih, Option.map_some]
    · have happ : escapeRegexp (c :: s) ++ ['$'] = c :: (escapeRegexp s ++ ['$']) := by
        simp [escapeRegexp, hc]
      rw [happ, literalItems_cons hc, ih, Option.map_some]

/-- The pattern for a name stands for the name. -/
theorem literalText_string2regexp (s : String) : literalText (string2regexp s) = some s := by
  rw [literalText, string2regexp, String.toList_ofList]
  simp only [literalItems_escape, Option.map_some, String.ofList_toList]

/-! ## The list -/

section List

variable {c c' : Configs} {page s : String} {lists : FilterLists}

/-- The pattern that is added. -/
def addedPattern (s : String) : GoString := str (string2regexp s)

theorem add2config_process {form : EditCfgForm}
    (h : add2config page "process" s "whitelist" = some form) :
    form = ⟨str "whitelist", str "process", addedPattern s⟩ := by
  have hform : add2config page "process" s "whitelist" =
      if indexOfPos s.toList '|' then none
      else some ⟨str "whitelist", str "process", addedPattern s⟩ := by
    simp [add2config, addedPattern]
  rw [hform, Option.ite_none_left_eq_some] at h
  exact (Option.some.inj h.2).symm

/-- A field of a document that an operator was applied to. -/
theorem field_updateField {op : FieldOp} {key : GoString} {v w : Option Value}
    (hkey : split key 46 = [key]) (hindex : arrayIndex key = none)
    (h : updateField op key v = some w) :
    ∃ u, op (v.bind fun dic => dic.field key) = some u ∧
      (w.bind fun dic => dic.field key) = u.or (v.bind fun dic => dic.field key) := by
  unfold updateField at h
  rw [hkey] at h
  split_ifs at h with hname
  cases v with
  | none =>
    rw [updateAt, updateAt, Option.map_eq_some_iff] at h
    obtain ⟨u, hu, rfl⟩ := h
    refine ⟨u, hu, ?_⟩
    cases u with
    | none => rfl
    | some u => simp [Value.field]
  | some v =>
    cases v with
    | doc fields =>
      obtain ⟨fields', u, rfl, hu, hk, -⟩ := updateAt_doc h
      exact ⟨u, hu, hk⟩
    | array elems =>
      rw [updateAt, hindex] at h
      cases h
    | _ => cases h

theorem mem_stringList_array {elems : List Value} {g : GoString} :
    g ∈ stringList (some (.array elems)) ↔ Value.string g ∈ elems := by
  simp only [stringList, List.mem_filterMap]
  constructor
  · rintro ⟨e, he, heq⟩
    cases e with
    | string s' =>
      obtain rfl : s' = g := Option.some.inj heq
      exact he
    | _ => cases heq
  · exact fun he => ⟨_, he, rfl⟩

theorem any_isString_iff {elems : List Value} {g : GoString} :
    elems.any (·.isString g) = true ↔ Value.string g ∈ elems := by
  rw [List.any_eq_true]
  constructor
  · rintro ⟨e, he, heq⟩
    cases e with
    | string s' => exact (beq_iff_eq.mp heq : s' = g) ▸ he
    | _ => cases heq
  · exact fun he => ⟨_, he, beq_self_eq_true g⟩

/-- After `$addToSet`, the list has the new string besides the old ones. -/
theorem mem_stringList_addToSet {v g : GoString} {old u : Option Value}
    (h : addToSetOp v old = some u) :
    g ∈ stringList (u.or old) ↔ g ∈ stringList old ∨ g = v := by
  unfold addToSetOp at h
  split at h
  · obtain rfl := Option.some.inj h
    simp [stringList]
  · next elems =>
    obtain rfl := Option.some.inj h
    rw [Option.some_or, mem_stringList_array, mem_stringList_array]
    split_ifs with hany
    · have hv : Value.string v ∈ elems := any_isString_iff.mp hany
      constructor
      · exact Or.inl
      · rintro (hg | rfl)
        · exact hg
        · exact hv
    · simp
  · cases h

theorem one_id_of_nodup {id : ObjectId} {p : Config → Bool} {d d' : Config}
    (hids : (c.map Config.id).Nodup) (hp : one c p = some d) (hd : d.id = id)
    (hid : one c (·.id == id) = some d') : d' = d := by
  have h1 := List.mem_of_find?_eq_some hp
  have h2 := List.mem_of_find?_eq_some hid
  have h3 : d'.id = id := by simpa using List.find?_some hid
  exact List.inj_on_of_nodup_map hids h2 h1 (h3.trans hd.symm)

/-- A name that is added is added to the processes of the white list that there is. -/
theorem update_of_added (hids : (c.map Config.id).Nodup)
    (hadd : addAndReload c page s = some lists) :
    ∃ c' : Configs, lists = whiteListRes c' ∧
      updateField (addToSetOp (addedPattern s)) (str "process") (c.findOne (str "whitelist")).dic =
        some (c'.findOne (str "whitelist")).dic := by
  unfold addAndReload at hadd
  split at hadd
  · cases hadd
  next form hform =>
  obtain rfl := add2config_process hform
  split at hadd
  · next c' hhandle =>
    obtain rfl := Option.some.inj hadd
    refine ⟨c', rfl, ?_⟩
    obtain ⟨-, hbad⟩ | ⟨-, res, hres, hchange⟩ := Body.handle_cases hhandle
    · cases hbad
    obtain rfl : true = res := Reply.status.inj hres
    rw [Body.change_of_not_contains (show (str "process").contains 0 = false by decide)] at hchange
    obtain ⟨-, hbad⟩ | ⟨mid, -, hmid, hup⟩ := Configs.changeOne_cases hchange
    · cases hbad
    obtain ⟨-, hbad⟩ | ⟨d, dic, hd, hfield, -, rfl⟩ := Configs.updateDic_cases hup
    · cases hbad
    rw [listID, if_pos (Or.inr rfl)] at hmid
    obtain rfl := objectIdHex_hexEncode hmid
    cases hwhite : one c (·.type == str "whitelist") with
    | none =>
      -- a missing white list has the empty id, which is none
      rw [Configs.findOne, hwhite] at hmid
      cases hmid
    | some white =>
      have hfind : c.findOne (str "whitelist") = white := by
        rw [Configs.findOne, hwhite]
        rfl
      rw [hfind] at hd
      obtain rfl : d = white := one_id_of_nodup hids hwhite rfl hd
      have hfind' : Configs.findOne (update c (·.id == d.id) fun d => { d with dic := dic })
          (str "whitelist") = { d with dic := dic } := by
        rw [Configs.findOne, one_update_of_eq rfl hd hwhite]
        rfl
      rw [hfind, hfind']
      exact hfield
  · cases hadd

/-- The white list of the server after the name was added and reloaded. -/
theorem mem_process_of_added (hids : (c.map Config.id).Nodup)
    (hadd : addAndReload c page s = some lists) (g : GoString) :
    g ∈ lists.process ↔ g ∈ (whiteListRes c).process ∨ g = addedPattern s := by
  obtain ⟨c', rfl, hfield⟩ := update_of_added hids hadd
  have hprocess : ∀ c : Configs, (whiteListRes c).process =
      stringList ((c.findOne (str "whitelist")).dic.bind fun dic => dic.field (str "process")) :=
    fun _ => rfl
  have hkey : split (str "process") 46 = [str "process"] := by decide
  have hindex : arrayIndex (str "process") = none := by decide
  obtain ⟨u, hu, hnew⟩ := field_updateField hkey hindex hfield
  rw [hprocess, hprocess, hnew]
  exact mem_stringList_addToSet hu

end List

/-! ## `WhiteFilter` -/

section Filter

variable {txt : TextLib} {lower : String → String} {lists : FilterLists} {s : String}

theorem filterFor_process {c : Check} (htype : c.info.type = str "process") :
    c.filterFor lists = (lists.process, c.v.get (str "name"), true) := by
  rw [Check.filterFor, if_pos htype]

/-- The pattern for a name compiles, and matches it. -/
theorem compile_addedPattern (h : txt.OnTexts lower) (s : String) :
    ∃ re, txt.compile (addedPattern s) = some re ∧
      ∀ subject, re (str subject) = true ↔ subject = s :=
  h.compile_literal _ _ (literalText_string2regexp s)

theorem addedPattern_ne_nil (s : String) : addedPattern s ≠ [] := by
  intro h
  have hs : string2regexp s = "" := str_inj.mp h
  have hlist := congrArg String.toList hs
  rw [string2regexp, String.toList_ofList] at hlist
  cases hlist

/-- Whether the list has a name in lower case after the name was added. -/
theorem inArray_added_iff (h : txt.OnTexts lower) {c : Configs} (hids : (c.map Config.id).Nodup)
    {page : String} (hadd : addAndReload c page s = some lists) :
    inArray txt lists.process (str (lower s)) true = true ↔
      lower s = s ∨ inArray txt (whiteListRes c).process (str (lower s)) true = true := by
  obtain ⟨re, hre, hmatch⟩ := compile_addedPattern h s
  simp only [inArray_true_iff, mem_process_of_added hids hadd]
  constructor
  · rintro ⟨v, hv | rfl, hne, hany⟩
    · exact Or.inr ⟨v, hv, hne, hany⟩
    · rw [hre, Option.any_some] at hany
      exact Or.inl ((hmatch _).mp hany)
  · rintro (heq | ⟨v, hv, hne, hany⟩)
    · refine ⟨addedPattern s, Or.inr rfl, addedPattern_ne_nil s, ?_⟩
      rw [hre, Option.any_some]
      exact (hmatch _).mpr heq
    · exact ⟨v, Or.inl hv, hne, hany⟩

/-- A record of a process with the name `s`. -/
def processCheck (s : String) : Check :=
  ⟨⟨[], str "process", [], [], 0⟩, AList.insert (str "name") (str s) ∅, [], [], [], 0⟩

theorem whiteFilter_processCheck (h : txt.OnTexts lower) :
    (processCheck s).whiteFilter txt lists = true ↔
      inArray txt lists.process (str (lower s)) true = true := by
  have hname : (processCheck s).v.get (str "name") = str s := Record.get_insert ∅ _ _
  rw [whiteFilter_iff (filterFor_process rfl), hname, h.toLower_str]

/-- Whitelisting a name from the console works exactly if the name is in lower case, or an entry
matched it in lower case before. -/
theorem whitelisted_iff (txt : TextLib) (lower : String → String) (h : txt.OnTexts lower)
    (c : Configs) (hids : (c.map Config.id).Nodup) (page s : String) (lists : FilterLists)
    (hadd : addAndReload c page s = some lists) :
    Whitelisted txt lower lists s ↔
      lower s = s ∨ inArray txt (whiteListRes c).process (str (lower s)) true = true := by
  rw [← inArray_added_iff h hids hadd]
  constructor
  · rintro ⟨hwhite, -⟩
    exact (whiteFilter_processCheck h).mp (hwhite (processCheck s) rfl (Record.get_insert ∅ _ _))
  · intro hold
    obtain ⟨re, hre, hmatch⟩ := compile_addedPattern h s
    refine ⟨fun check htype hname => ?_, re, hre, fun name hname => ?_⟩
    · rw [whiteFilter_iff (filterFor_process htype), hname, h.toLower_str]
      exact hold
    · have heq : lower name = s := (hmatch _).mp hname
      rw [← heq, h.lower_lower]

/-- A configuration with an empty white list. -/
def emptyWhiteList : Configs :=
  [⟨List.replicate 12 5, str "whitelist", some (.doc [(str "process", .array [])])⟩]

def bash : String := String.ofList ['b', 'a', 's', 'h']

def bashUpper : String := String.ofList ['B', 'a', 's', 'h']

theorem whitelisted_bash :
    ∃ lists, addAndReload emptyWhiteList "" bash = some lists ∧
      Whitelisted literalLib (String.map Char.toLower) lists bash := by
  have hadd : (addAndReload emptyWhiteList "" bash).isSome = true := by decide
  obtain ⟨lists, hlists⟩ := Option.isSome_iff_exists.mp hadd
  refine ⟨lists, hlists, ?_⟩
  refine (whitelisted_iff literalLib _ literalLib_onTexts emptyWhiteList (by decide) "" bash lists
    hlists).mpr (Or.inl ?_)
  rw [String.map_eq_internal, bash, String.toList_ofList]
  rfl

/-- A name with an upper-case letter is added, and stays unknown. -/
theorem not_whitelisted_upper :
    ¬ ∀ (txt : TextLib) (lower : String → String) (c : Configs) (page s : String)
      (lists : FilterLists), txt.OnTexts lower → (c.map Config.id).Nodup → s ≠ "" →
        '|' ∉ s.toList → addAndReload c page s = some lists → Whitelisted txt lower lists s := by
  intro hall
  have hadd : (addAndReload emptyWhiteList "" bashUpper).isSome = true := by decide
  obtain ⟨lists, hlists⟩ := Option.isSome_iff_exists.mp hadd
  have hwhite := hall literalLib _ emptyWhiteList "" bashUpper lists literalLib_onTexts (by decide)
    (by decide) (by decide) hlists
  have hin := (whiteFilter_processCheck literalLib_onTexts).mp
    (hwhite.1 (processCheck bashUpper) rfl (Record.get_insert ∅ _ _))
  rcases (inArray_added_iff literalLib_onTexts (by decide) hlists).mp hin with heq | hempty
  · have hlist := congrArg String.toList heq
    rw [String.toList_map, bashUpper, String.toList_ofList] at hlist
    exact absurd hlist (by decide)
  · cases hempty

end Filter

end YulongHids.Server
