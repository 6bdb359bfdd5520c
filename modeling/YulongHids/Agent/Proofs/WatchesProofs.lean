import YulongHids.Agent.Watches
import YulongHids.Golang.Proofs.FilepathProofs

/-!
# Proofs: the watches of the file monitor

A walk requests the lower-case spellings of the directories in front of the first error, and the
set-up what its walks request and the paths that are configured alone.
-/

namespace YulongHids.Agent

open Golang Filepath
open Server (replaceFirst)

section Watches

variable {txt : TextLib} {fs : GoString → Node} {s : WatchState} {d : GoString}

/-! ## One walk -/

/-- What a walk adds for an entry without an error. -/
def addWatch (txt : TextLib) (s : WatchState) : GoString × Visit → WatchState
  | (path, .dir) => ⟨s.pathList ++ [path], s.requested ++ [txt.toLower path]⟩
  | _ => s

theorem mem_requested_foldl {l : List (GoString × Visit)} :
    d ∈ (l.foldl (addWatch txt) s).requested ↔
      d ∈ s.requested ∨ ∃ q, (q, .dir) ∈ l ∧ txt.toLower q = d := by
  induction l generalizing s with
  | nil => simp
  | cons e l ih =>
    rw [List.foldl_cons, ih]
    obtain ⟨path, v⟩ := e
    cases v with
    | dir =>
      rw [addWatch, List.mem_append, List.mem_singleton, or_assoc]
      refine or_congr_right ?_
      simp only [List.mem_cons, Prod.mk.injEq, and_true, or_and_right, exists_or, exists_eq_left,
        @eq_comm _ d]
    | file => simp [addWatch]
    | error => simp [addWatch]

theorem mem_requested_walk (root : GoString) :
    d ∈ (walk (watchCallback txt) root (fs root) s).1.requested ↔
      d ∈ s.requested ∨ ∃ q, Reached fs root q ∧ txt.toLower q = d := by
  rw [walk_fst_of_returns (watchCallback txt) (g := addWatch txt) (fun _ _ => rfl),
    mem_requested_foldl]
  · rfl
  · intro s path v hv
    cases v with
    | file => rfl
    | dir => rfl
    | error => exact absurd rfl hv

theorem mem_requested_iterationWatcher {monList : List GoString} :
    d ∈ (iterationWatcher txt fs monList s).requested ↔
      d ∈ s.requested ∨ ∃ root ∈ monList, ∃ q, Reached fs root q ∧ txt.toLower q = d := by
  induction monList generalizing s with
  | nil => simp [iterationWatcher]
  | cons p monList ih =>
    rw [iterationWatcher, List.foldl_cons, ← iterationWatcher, ih, mem_requested_walk, or_assoc,
      List.exists_mem_cons_iff]

/-- One recursive path: every readable directory is watched if and only if all their paths are in
lower case and none of them comes behind something that cannot be read. -/
theorem iterationWatcher_covers_iff (hlower : ∀ p, txt.toLower (txt.toLower p) = txt.toLower p)
    (root : GoString) :
    (∀ d, Readable fs root d → d ∈ (iterationWatcher txt fs [root] ⟨[], []⟩).requested) ↔
      ∀ d, Readable fs root d → txt.toLower d = d ∧ Reached fs root d := by
  simp only [mem_requested_iterationWatcher, List.not_mem_nil, false_or, List.mem_singleton,
    exists_eq_left]
  constructor
  · intro hall d hd
    have hfixed : ∀ d, Readable fs root d → txt.toLower d = d := by
      intro d hd
      obtain ⟨q, -, rfl⟩ := hall d hd
      exact hlower q
    obtain ⟨q, hq, heq⟩ := hall d hd
    rw [hfixed q (mem_listing_of_mem_reached hq)] at heq
    exact ⟨hfixed d hd, heq ▸ hq⟩
  · exact fun hall d hd => ⟨d, (hall d hd).2, (hall d hd).1⟩

/-! ## The set-up -/

variable {serverPath monitorPath : List GoString} {path : GoString}

theorem mem_requested_web (h : path = str "%web%") :
    d ∈ (addMonitorPath txt fs serverPath s path).requested ↔
      d ∈ s.requested ∨ ∃ root ∈ serverPath, ∃ q, Reached fs root q ∧ txt.toLower q = d := by
  rw [addMonitorPath, if_pos h]
  exact mem_requested_iterationWatcher

theorem mem_requested_starred (h : Starred path) :
    d ∈ (addMonitorPath txt fs serverPath s path).requested ↔
      d ∈ s.requested ∨
        ∃ q, Reached fs (replaceFirst (str "*") [] path) q ∧ txt.toLower q = d := by
  rw [addMonitorPath, if_neg h.1, if_pos h.2.1]
  simp only [if_pos h.2.2]
  rw [mem_requested_iterationWatcher]
  simp only [List.mem_singleton, exists_eq_left]

theorem mem_requested_single (h : Single path) :
    d ∈ (addMonitorPath txt fs serverPath s path).requested ↔ d ∈ s.requested ∨ d = path := by
  rw [addMonitorPath, if_neg h.1, if_pos h.2.1]
  simp only [if_neg h.2.2]
  rw [List.mem_append, List.mem_singleton]

theorem eq_single_iff : d = path ∧ Single d ↔ Single path ∧ d = path := by
  constructor
  · rintro ⟨rfl, h⟩
    exact ⟨h, rfl⟩
  · rintro ⟨h, rfl⟩
    exact ⟨rfl, h⟩

/-- What one configured path adds. -/
theorem mem_requested_addMonitorPath :
    d ∈ (addMonitorPath txt fs serverPath s path).requested ↔
      d ∈ s.requested ∨ (d = path ∧ Single d) ∨
        ∃ root, WalkedRoot serverPath path root ∧ ∃ q, Reached fs root q ∧ txt.toLower q = d := by
  rw [eq_single_iff]
  by_cases hweb : path = str "%web%"
  · have hsingle : ¬ Single path := fun h => h.1 hweb
    have hstarred : ¬ Starred path := fun h => h.1 hweb
    rw [mem_requested_web hweb]
    simp only [WalkedRoot, hsingle, hstarred, false_and, or_false, false_or]
    simp only [hweb, true_and]
  by_cases hsingle : Single path
  · have hstarred : ¬ Starred path := fun h => hsingle.2.2 h.2.2
    rw [mem_requested_single hsingle]
    simp only [WalkedRoot, hsingle, hstarred, hweb, true_and, false_and, or_false, exists_false]
  by_cases hstarred : Starred path
  · rw [mem_requested_starred hstarred]
    simp only [WalkedRoot, hsingle, hstarred, hweb, true_and, false_and, false_or, exists_eq_left]
  · -- a path of another system
    have habs : ¬ str "/" <+: path := by
      intro h
      by_cases hstar : str "*" <:+ path
      · exact hstarred ⟨hweb, h, hstar⟩
      · exact hsingle ⟨hweb, h, hstar⟩
    rw [addMonitorPath, if_neg hweb, if_neg habs]
    simp only [WalkedRoot, hsingle, hstarred, hweb, false_and, or_false, exists_false]

theorem mem_requested_setUp :
    d ∈ (setUp txt fs serverPath monitorPath).requested ↔
      Covered txt fs serverPath monitorPath d := by
  have hrun : ∀ s : WatchState,
      d ∈ (monitorPath.foldl (addMonitorPath txt fs serverPath) s).requested ↔
        d ∈ s.requested ∨ Covered txt fs serverPath monitorPath d := by
    induction monitorPath with
    | nil => simp [Covered]
    | cons path rest ih =>
      intro s
      rw [List.foldl_cons, ih, mem_requested_addMonitorPath, or_assoc]
      refine or_congr_right ?_
      simp only [Covered, List.mem_cons, or_and_right, exists_or, exists_eq_left]
      exact or_or_or_comm
  rw [setUp, hrun]
  exact or_iff_right List.not_mem_nil

end Watches

/-- After the set-up a watch was requested for every readable directory of the trees to monitor if and
only if each of them is monitored alone or is the lower-case spelling of a directory that a walk
reaches. -/
theorem set_up_covers_iff (txt : TextLib) (fs : GoString → Node)
    (serverPath monitorPath : List GoString) :
    (∀ path ∈ monitorPath, ∀ root, MonitoredRoot serverPath path root → ∀ d, Readable fs root d →
        d ∈ (setUp txt fs serverPath monitorPath).requested) ↔
      ∀ path ∈ monitorPath, ∀ root, MonitoredRoot serverPath path root → ∀ d, Readable fs root d →
        Covered txt fs serverPath monitorPath d :=
  forall₂_congr fun _ _ => forall₂_congr fun _ _ => forall₂_congr fun _ _ => mem_requested_setUp

/-- A directory has a watch if and only if a path that comes to the same when it is cleaned is covered;
a slash at the end of a configured path makes no difference. -/
theorem set_up_watches_iff (txt : TextLib) (fs : GoString → Node)
    (serverPath monitorPath : List GoString) :
    (∀ path ∈ monitorPath, ∀ root, MonitoredRoot serverPath path root → ∀ d, Readable fs root d →
        clean d ∈ (setUp txt fs serverPath monitorPath).watched) ↔
      ∀ path ∈ monitorPath, ∀ root, MonitoredRoot serverPath path root → ∀ d, Readable fs root d →
        ∃ p, Covered txt fs serverPath monitorPath p ∧ clean p = clean d :=
  forall₂_congr fun _ _ => forall₂_congr fun _ _ => forall₂_congr fun _ _ => by
    simp only [WatchState.watched, List.mem_map, mem_requested_setUp]

/-- Below `/web`, a directory with a capital letter and one that cannot be read in front of another. -/
def webTree (root : GoString) : Node :=
  if root = str "/web/" then
    .dir (.dir (str "Admin") .nil (.leaf (str "a") .closed (.dir (str "b") .nil .nil)))
  else .leaf .lost

/-- Neither `/web/Admin` nor `/web/b` is watched. -/
theorem set_up_misses_directories :
    MonitoredRoot [] (str "/web/*") (str "/web/") ∧
      ∀ d ∈ [str "/web/Admin", str "/web/b"], Readable webTree (str "/web/") d ∧
        d ∉ (setUp plainText webTree [] [str "/web/*"]).requested ∧
          clean d ∉ (setUp plainText webTree [] [str "/web/*"]).watched := by
  have hlisting : (webTree (str "/web/")).listing (str "/web/") =
      [(str "/web/", .dir), (str "/web/Admin", .dir), (str "/web/a", .error),
        (str "/web/b", .dir)] := by
    rw [webTree, if_pos rfl]
    rfl
  have hrequested : (setUp plainText webTree [] [str "/web/*"]).requested =
      [str "/web/", str "/web/admin"] := rfl
  refine ⟨.inr ⟨⟨?_, ?_, ?_⟩, rfl⟩, ?_⟩
  · decide
  · decide
  · decide
  · simp only [Readable, WatchState.watched, hlisting, hrequested]
    decide

end YulongHids.Agent
