import YulongHids.Mongo.Collection

/-!
# Groups of documents

The stage `$group` with a count of the documents of each group, and one of its documents: the first
one that comes along, for which the store promises nothing. Nor does it promise an order of the groups.
-/

namespace YulongHids.Mongo

variable {α κ : Type*} [DecidableEq κ] {docs : List α} {key : α → κ}

/-- A group: its `_id`, the count of its documents, and one of them. -/
structure GroupRow (α κ : Type*) where
  id : κ
  count : ℕ
  first : α

/-- An answer that the store may give. -/
structure IsGrouping (docs : List α) (key : α → κ) (rows : List (GroupRow α κ)) : Prop where
  nodup : (rows.map GroupRow.id).Nodup
  first_mem : ∀ r ∈ rows, r.first ∈ docs ∧ key r.first = r.id
  count_eq : ∀ r ∈ rows, r.count = docs.countP fun d => key d = r.id
  exists_row : ∀ d ∈ docs, ∃ r ∈ rows, r.id = key d

variable {rows : List (GroupRow α κ)}

/-- The count that a search for a group finds. -/
theorem IsGrouping.find?_eq [BEq κ] [LawfulBEq κ] (h : IsGrouping docs key rows) (k : κ) :
    ((rows.find? fun r => r.id == k).elim 0 GroupRow.count) = docs.countP fun d => key d = k := by
  cases hfind : rows.find? fun r => r.id == k with
  | none =>
    have hnone := List.find?_eq_none.mp hfind
    symm
    rw [Option.elim_none, List.countP_eq_zero]
    intro d hd
    obtain ⟨r, hr, hid⟩ := h.exists_row d hd
    have hne := hnone r hr
    rw [hid] at hne
    simpa using hne
  | some r =>
    have hid : r.id = k := by simpa using List.find?_some hfind
    rw [Option.elim_some, h.count_eq r (List.mem_of_find?_eq_some hfind), hid]

theorem IsGrouping.count_pos (h : IsGrouping docs key rows) {r : GroupRow α κ} (hr : r ∈ rows) :
    0 < r.count := by
  obtain ⟨hmem, hkey⟩ := h.first_mem r hr
  rw [h.count_eq r hr, List.countP_pos_iff]
  exact ⟨r.first, hmem, by simpa using hkey⟩

/-- The store can answer. -/
theorem exists_grouping (docs : List α) (key : α → κ) : ∃ rows, IsGrouping docs key rows := by
  have hdoc : ∀ k : { k // k ∈ (docs.map key).dedup }, ∃ d ∈ docs, key d = k := by
    rintro ⟨k, hk⟩
    exact List.mem_map.mp (List.mem_dedup.mp hk)
  choose first hmem hkey using hdoc
  let row (k : { k // k ∈ (docs.map key).dedup }) : GroupRow α κ :=
    ⟨k, docs.countP fun d => key d = k, first k⟩
  have hids : ((docs.map key).dedup.attach.map row).map GroupRow.id = (docs.map key).dedup := by
    rw [List.map_map]
    exact List.attach_map_subtype_val _
  refine ⟨(docs.map key).dedup.attach.map row, ?_, ?_, ?_, ?_⟩
  · rw [hids]
    exact List.nodup_dedup _
  · intro r hr
    obtain ⟨k, -, rfl⟩ := List.mem_map.mp hr
    exact ⟨hmem k, hkey k⟩
  · intro r hr
    obtain ⟨k, -, rfl⟩ := List.mem_map.mp hr
    rfl
  · intro d hd
    have hk : key d ∈ (docs.map key).dedup := List.mem_dedup.mpr (List.mem_map_of_mem hd)
    exact ⟨row ⟨key d, hk⟩, List.mem_map_of_mem (List.mem_attach _ _), rfl⟩

end YulongHids.Mongo
