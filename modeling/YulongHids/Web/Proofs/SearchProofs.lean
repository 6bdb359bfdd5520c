import YulongHids.Web.Proofs.AnalyzeProofs
import YulongHids.Web.Search

/-!
# Proofs: searching and paging

A page of an `Info` search is cut out of the matching documents in their natural order and sorted
then. So the pages make up the sorted result only when the natural order keeps them apart.
-/

namespace YulongHids.Web

open Golang Mongo Server

variable {srv : MongoServer} {intQuery : GoString → ℤ × GoString} {info : Collection Info}
  {stats : Statistics} {m m1 m2 : Record} {limit n : ℕ}

theorem map_inj_on {α β : Type*} {f : α → β} {l l' : List α}
    (hinj : ∀ a ∈ l, ∀ b ∈ l', f a = f b → a = b) (h : l.map f = l'.map f) : l = l' := by
  induction l generalizing l' with
  | nil => exact (List.map_eq_nil_iff.mp h.symm).symm
  | cons a l ih =>
    cases l' with
    | nil => exact absurd h (List.cons_ne_nil _ _)
    | cons b l' =>
      obtain ⟨hab, htail⟩ := List.cons.inj h
      rw [hinj a List.mem_cons_self b List.mem_cons_self hab,
        ih (fun a ha b hb => hinj a (List.mem_cons_of_mem _ ha) b (List.mem_cons_of_mem _ hb)) htail]

/-- The order of the `$and` list does not matter to a projection. -/
theorem project_congr (srv : MongoServer) {p p' : ProjectDoc} (h : SameUpToAnd p p') :
    srv.project p = srv.project p' := by
  obtain ⟨l, l', hperm, rfl, rfl⟩ := h
  funext d
  have hall : (fun r : Record => l.all (srv.equation · r)) = fun r => l'.all (srv.equation · r) := by
    funext r
    exact hperm.all_eq
  have hdata : ∀ l, (projectQuery l).lookup (str "data") = some (.filter (str "$data") (str "d") l) :=
    fun l => Finmap.lookup_insert _
  have hother : ∀ k, k ≠ str "data" → (projectQuery l).lookup k = (projectQuery l').lookup k := by
    intro k hk
    rw [projectQuery, projectQuery, Finmap.lookup_insert_of_ne _ hk, Finmap.lookup_insert_of_ne _ hk]
  simp only [MongoServer.project, hdata, Option.map_some, hall, InfoHit.mk.injEq]
  refine ⟨?_, ?_, ?_, ?_, trivial, ?_⟩ <;> rw [hother _ (by decide)]

/-- A projection keeps the time of a document. -/
theorem project_uptime (p : Record) (d : Info) :
    (srv.project (searchParser intQuery p).2.1 d).uptime = some d.uptime := by
  have hkey : (projectQuery (searchLoop intQuery p).condAndQuery).lookup (str "uptime") =
      some .one := by
    rw [projectQuery, Finmap.lookup_insert_of_ne _ (by decide)]
    rfl
  simp only [MongoServer.project, searchParser, hkey, Option.map_some]

theorem toParameter_start {p : ℕ} (h : p * limit < 2 ^ 63) :
    (Paginator.mk (p + 1) limit).toParameter = (((p * limit : ℕ) : ℤ), (limit : ℤ)) := by
  have hstart : (((p : ℤ) + 1 - 1) * limit).bmod (2 ^ 64) = ((p * limit : ℕ) : ℤ) := by
    rw [add_sub_cancel_right, ← Nat.cast_mul]
    generalize p * limit = start at h
    rw [Int.bmod_def]
    omega
  simp only [Paginator.toParameter, hstart]
  rw [if_neg (by omega)]

/-- The documents that an `Info` search is about, in natural order. -/
def matched (srv : MongoServer) (intQuery : GoString → ℤ × GoString) (info : Collection Info)
    (m : Record) : List Info :=
  info.filter (srv.matchInfo (searchParser intQuery m).1)

/-- What a search shows of a document. -/
def shown (srv : MongoServer) (intQuery : GoString → ℤ × GoString) (m : Record) (d : Info) : Found :=
  .info (srv.project (searchParser intQuery m).2.1 d)

theorem searchAll_eq : searchAll srv intQuery info m =
    (sortDesc Info.uptime (matched srv intQuery info m)).map (shown srv intQuery m) := rfl

/-- A page of an `Info` search is a page of the matching documents, sorted by itself. -/
theorem searchPage_eq {p : ℕ} (hperm : m1.entries.Perm m.entries)
    (hinfo : (searchParser intQuery m1).2.2 = str "Info") (hlimit : 0 < limit)
    (hrange : p * limit < 2 ^ 63) :
    searchPage srv intQuery info stats m1 ⟨p + 1, limit⟩ =
      (sortDesc Info.uptime (page limit (matched srv intQuery info m) p)).map
        (shown srv intQuery m) := by
  have hmatch := matchQuery_of_perm intQuery hperm
  have hproject := project_congr srv (projectQuery_of_perm intQuery hperm)
  have hrank : ∀ a b : Info, b.uptime ≤ a.uptime ↔
      dateRank (srv.project (searchParser intQuery m).2.1 b).uptime ≤
        dateRank (srv.project (searchParser intQuery m).2.1 a).uptime := by
    intro a b
    rw [project_uptime, project_uptime]
    exact Nat.succ_le_succ_iff.symm
  have hpos : ¬ (limit : ℤ) ≤ 0 := by omega
  simp only [searchPage, toParameter_start hrange, searchInMongo, if_pos hinfo, aggregateInfo,
    if_neg hpos, hmatch, hproject, Int.toNat_natCast]
  rw [sortDesc_map (f := srv.project (searchParser intQuery m).2.1) hrank, List.map_map]
  rfl

/-- The pages of an `Info` search make up the sorted list of all matching documents exactly when the
natural order of the documents keeps every page in front of the later ones. -/
theorem pages_eq_searchAll_iff {orders : ℕ → Record} (hlimit : 0 < limit)
    (huptime : (info.map Info.uptime).Nodup) (horders : ∀ p, (orders p).entries.Perm m.entries)
    (hinfo : ∀ p, (searchParser intQuery (orders p)).2.2 = str "Info")
    (hcover : (matched srv intQuery info m).length ≤ n * limit) (hrange : n * limit < 2 ^ 63) :
    ((List.range n).map fun p =>
        searchPage srv intQuery info stats (orders p) ⟨p + 1, limit⟩).flatten =
      searchAll srv intQuery info m ↔
    PagesDescend Info.uptime limit (matched srv intQuery info m) := by
  have hnodup : ((matched srv intQuery info m).map Info.uptime).Nodup :=
    huptime.sublist (List.Sublist.map _ List.filter_sublist)
  have hpages : ((List.range n).map fun p =>
        searchPage srv intQuery info stats (orders p) ⟨p + 1, limit⟩).flatten =
      (((List.range n).map fun p => sortDesc Info.uptime
        (page limit (matched srv intQuery info m) p)).flatten).map (shown srv intQuery m) := by
    rw [List.map_flatten, List.map_map]
    congr 1
    refine List.map_congr_left fun p hp => ?_
    have hle : p * limit ≤ n * limit := Nat.mul_le_mul_right _ (List.mem_range.mp hp).le
    exact searchPage_eq (horders p) (hinfo p) hlimit (by omega)
  rw [hpages, searchAll_eq, ← flatten_sorted_pages_iff hlimit hcover hnodup]
  constructor
  · refine map_inj_on ?_
    intro a ha b hb hab
    have ha' : a ∈ matched srv intQuery info m := by
      obtain ⟨l, hl, hal⟩ := List.mem_flatten.mp ha
      obtain ⟨p, -, rfl⟩ := List.mem_map.mp hl
      exact mem_of_mem_page ((sortDesc_perm _ _).mem_iff.mp hal)
    have hb' : b ∈ matched srv intQuery info m := (sortDesc_perm _ _).mem_iff.mp hb
    refine List.inj_on_of_nodup_map hnodup ha' hb' ?_
    have htime := congrArg InfoHit.uptime (Found.info.inj hab)
    rwa [project_uptime, project_uptime, Option.some.injEq] at htime
  · intro h
    rw [h]

/-! ## Two hosts with a list of users -/

/-- A store that knows the key `type` only. -/
def typeServer : MongoServer where
  matchInfo doc d := decide (doc.lookup (str "type") = some (.text d.type))
  matchStat _ _ := false
  equation _ _ := true

def userlistOf (ip : GoString) (uptime : ℕ) : Info :=
  ⟨[1], ip, str "Linux", str "userlist", [], uptime⟩

def userlistQuery : Record := (∅ : Record).insert (str "type") (str "userlist")

def Found.uptime : Found → Option ℕ
  | .info hit => hit.uptime
  | .statistics doc => some doc.uptime

theorem pages_eq_searchAll_iff_two_hosts :
    let info := [userlistOf (str "10.0.0.1") 20, userlistOf (str "10.0.0.2") 10]
    let intQuery := parseIntQuery mongoComparisonOperator
    ((List.range 2).map fun p : ℕ =>
        searchPage typeServer intQuery info [] userlistQuery ⟨p + 1, (1 : ℕ)⟩).flatten =
      searchAll typeServer intQuery info userlistQuery ↔
    PagesDescend Info.uptime 1 (matched typeServer intQuery info userlistQuery) :=
  pages_eq_searchAll_iff (by decide) (by decide)
    (fun _ => List.Perm.refl _) (fun _ => by decide) (by decide) (by decide)

/-- With the older document in front, the pages come in ascending order of time. -/
theorem searchPage_older_first :
    let info := [userlistOf (str "10.0.0.1") 10, userlistOf (str "10.0.0.2") 20]
    let intQuery := parseIntQuery mongoComparisonOperator
    let pages := ((List.range 2).map fun p : ℕ =>
      searchPage typeServer intQuery info [] userlistQuery ⟨p + 1, (1 : ℕ)⟩).flatten
    pages.map Found.uptime = [some 10, some 20] ∧
      (searchAll typeServer intQuery info userlistQuery).map Found.uptime = [some 20, some 10] ∧
      pages ≠ searchAll typeServer intQuery info userlistQuery := by
  intro info intQuery pages
  have hpages : pages.map Found.uptime = [some 10, some 20] := by decide
  have hall : (searchAll typeServer intQuery info userlistQuery).map Found.uptime =
      [some 20, some 10] := by decide
  refine ⟨hpages, hall, fun h => ?_⟩
  rw [h, hall] at hpages
  exact absurd hpages (by decide)

end YulongHids.Web
