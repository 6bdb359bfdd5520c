import YulongHids.Web.Proofs.TaskProofs

/-!
# Proofs: malformed ranges

`BetweenIP` indexes four dotted parts of the text of each end. Only an IPv4 address has them, so the
loop of `Save` panics at the first range it reaches with another end.
-/

namespace YulongHids.Web

open Golang Mongo

/-! ## The conversion of one range -/

theorem ip2Int_addrNumber {s : GoString} (h : isIPv4Text s = true) :
    ip2Int (parseIP s) = some (addrNumber s : ℤ) := by
  obtain ⟨p4, h4⟩ := Option.isSome_iff_exists.mp h
  obtain ⟨a, b, c, d, rfl⟩ := List.length_eq_four.mp (to4_length h4)
  rw [ip2Int_ipv4 h4, addrNumber, h4, Option.some.injEq]
  simp only [Option.getD_some, List.map_cons, List.map_nil, List.reverse_cons, List.reverse_nil,
    List.nil_append, List.cons_append, Nat.ofDigits_cons, Nat.ofDigits_nil]
  push_cast
  ring

theorem ip2Int_isSome (s : GoString) : (ip2Int (parseIP s)).isSome = isIPv4Text s := by
  cases h4 : to4 (parseIP s) with
  | none =>
    rw [ip2Int_none h4, isIPv4Text, h4]
    rfl
  | some p4 =>
    have htext : isIPv4Text s = true := by rw [isIPv4Text, h4]; rfl
    rw [ip2Int_addrNumber htext, htext]
    rfl

theorem betweenIP_isSome_iff {s t : GoString} :
    (betweenIP s t).isSome = true ↔ isIPv4Text s = true ∧ isIPv4Text t = true := by
  rw [← ip2Int_isSome, ← ip2Int_isSome, betweenIP]
  cases ip2Int (parseIP s) with
  | none => simp
  | some n => cases ip2Int (parseIP t) <;> simp

theorem betweenIP_ne_nil_iff {s t : GoString} (hs : isIPv4Text s = true)
    (ht : isIPv4Text t = true) :
    (betweenIP s t).getD [] ≠ [] ↔ addrNumber s < addrNumber t := by
  rw [betweenIP, ip2Int_addrNumber hs, ip2Int_addrNumber ht]
  simp only [Option.getD_some]
  by_cases hlt : addrNumber s < addrNumber t
  · have hlen : ((addrNumber t : ℤ) + 1 - addrNumber s).toNat =
        addrNumber t - addrNumber s + 1 := by omega
    rw [if_pos (by exact_mod_cast hlt), hlen, countUp]
    simp [hlt]
  · rw [if_neg (by exact_mod_cast hlt)]
    simp [hlt]

/-! ## One entry -/

theorem entryHosts_isSome_iff {e : GoString} : entryHosts e ≠ none ↔ RangeOk e := by
  rw [entryHosts, RangeOk]
  by_cases he : 45 ∈ e
  · rw [if_pos he]
    rcases split e 45 with _ | ⟨a, _ | ⟨b, _ | ⟨x, l⟩⟩⟩
    · simp
    · simp
    · rw [← Option.isSome_iff_ne_none, betweenIP_isSome_iff]
      simp
    · simp
  · rw [if_neg he, split_eq_singleton he]
    simp

theorem hosts_ne_nil_iff {e : GoString} (h : RangeOk e) : hosts e ≠ [] ↔ namesHost e = true := by
  rw [hosts, entryHosts, namesHost]
  by_cases he : 45 ∈ e
  · rw [if_pos he, if_pos he]
    unfold RangeOk at h
    revert h
    rcases split e 45 with _ | ⟨a, _ | ⟨b, _ | ⟨x, l⟩⟩⟩ <;> intro h
    · simp
    · simp
    · obtain ⟨ha, hb⟩ := h a b rfl
      rw [betweenIP_ne_nil_iff ha hb, decide_eq_true_eq]
    · simp
  · rw [if_neg he, if_neg he]
    simp

theorem unrepeated_iff {entries : List GoString} :
    Unrepeated entries ↔ (∀ e ∈ entries, RangeOk e) ∧ NoRepeats entries := by
  constructor
  · rintro ⟨hwf, hnodup⟩
    have hok : ∀ e ∈ entries, RangeOk e := fun e he => entryHosts_isSome_iff.mp (hwf e he)
    refine ⟨hok, ?_⟩
    rw [NoRepeats, ← List.filter_congr (p := fun e => hosts e ≠ [])]
    · exact hnodup
    · intro e he
      rw [Bool.eq_iff_iff, decide_eq_true_eq]
      exact hosts_ne_nil_iff (hok e he)
  · rintro ⟨hok, hnodup⟩
    refine ⟨fun e he => entryHosts_isSome_iff.mpr (hok e he), ?_⟩
    rw [List.filter_congr (q := fun e => namesHost e)]
    · exact hnodup
    · intro e he
      rw [Bool.eq_iff_iff, decide_eq_true_eq]
      exact hosts_ne_nil_iff (hok e he)

/-! ## The loop -/

section Loop

variable {env : SaveEnv} {c : Task}

/-- The loop panics at a malformed entry right behind the reached ones. -/
theorem queueLoop_panics_iff {l addedLst : List GoString} (queue : QueueStore)
    (hadded : ∀ x ∈ addedLst, entryHosts x ≠ none) :
    (queueLoop env c l addedLst queue).returned = none ↔
      ∃ e rest, l = reached addedLst l ++ e :: rest ∧ entryHosts e = none := by
  induction l generalizing addedLst queue with
  | nil => simp [queueLoop, reached]
  | cons e rest ih =>
    rw [queueLoop_cons, reached]
    by_cases hmem : e ∈ addedLst
    · rw [if_pos hmem, if_pos (Or.inl hmem)]
      refine iff_of_false (by simp) ?_
      rintro ⟨e', rest', hl, hbad⟩
      obtain ⟨rfl, -⟩ := List.cons.inj hl
      exact hadded e hmem hbad
    rw [if_neg hmem]
    cases he : entryHosts e with
    | none =>
      rw [if_pos (Or.inr rfl)]
      exact iff_of_true rfl ⟨e, rest, rfl, he⟩
    | some hs =>
      have hhosts : hosts e = hs := by rw [hosts, he, Option.getD_some]
      have hadded' : ∀ x ∈ addedLst ++ hs.map fun _ => e, entryHosts x ≠ none := by
        intro x hx
        rcases List.mem_append.mp hx with hx | hx
        · exact hadded x hx
        · obtain ⟨-, -, rfl⟩ := List.mem_map.mp hx
          rw [he]
          exact Option.some_ne_none hs
      rw [if_neg (by simp [hmem]), hhosts, ih _ hadded']
      simp only [List.cons_append, List.cons.injEq, true_and]

theorem queueLoop_returned (l addedLst : List GoString) (queue : QueueStore) :
    (queueLoop env c l addedLst queue).returned = none ∨
      (queueLoop env c l addedLst queue).returned = some true := by
  induction l generalizing addedLst queue with
  | nil => exact Or.inr rfl
  | cons e rest ih =>
    rw [queueLoop_cons]
    by_cases hmem : e ∈ addedLst
    · rw [if_pos hmem]
      exact Or.inr rfl
    rw [if_neg hmem]
    cases entryHosts e with
    | none => exact Or.inl rfl
    | some hs => exact ih _ _

end Loop

/-- A malformed entry that no repetition hides. -/
def Exposed (l : List GoString) : Prop :=
  ∃ p e rest, l = p ++ e :: rest ∧ NoRepeats p ∧ ¬ RangeOk e

/-- The first malformed entry, if there is one. -/
theorem first_malformed {l : List GoString} (h : ¬ ∀ e ∈ l, RangeOk e) :
    ∃ p e rest, l = p ++ e :: rest ∧ (∀ x ∈ p, RangeOk x) ∧ ¬ RangeOk e := by
  induction l with
  | nil => exact absurd (by simp) h
  | cons e rest ih =>
    by_cases he : RangeOk e
    · have hrest : ¬ ∀ x ∈ rest, RangeOk x := fun hr => h (List.forall_mem_cons.mpr ⟨he, hr⟩)
      obtain ⟨p, e', rest', rfl, hp, he'⟩ := ih hrest
      exact ⟨e :: p, e', rest', rfl, List.forall_mem_cons.mpr ⟨he, hp⟩, he'⟩
    · exact ⟨[], e, rest, rfl, by simp, he⟩

theorem NoRepeats.of_prefix {p q : List GoString} (h : NoRepeats q) (hpq : p <+: q) : NoRepeats p :=
  List.Nodup.sublist (hpq.sublist.filter _) h

/-- Entries without a malformed one that are followed by a malformed one are all that is reached. -/
theorem reached_of_malformed {p : List GoString} {e : GoString} {rest : List GoString}
    (hp : Unrepeated p) (he : ¬ RangeOk e) : reached [] (p ++ e :: rest) = p := by
  obtain ⟨hpre, hun⟩ := prefix_reached_nil_iff.mp (List.prefix_refl (reached [] (p ++ e :: rest)))
  have hle : p <+: reached [] (p ++ e :: rest) :=
    prefix_reached_nil_iff.mpr ⟨List.prefix_append p (e :: rest), hp⟩
  obtain ⟨q, hq⟩ := hle
  rw [← hq, List.prefix_append_right_inj] at hpre
  rcases q with _ | ⟨x, q⟩
  · rw [← hq, List.append_nil]
  · obtain ⟨rfl, -⟩ := List.cons_prefix_cons.mp hpre
    have hmem : x ∈ reached [] (p ++ x :: rest) := by
      rw [← hq]
      simp
    exact absurd ((unrepeated_iff.mp hun).1 x hmem) he

theorem reached_stops_iff {l : List GoString} :
    (∃ e rest, l = reached [] l ++ e :: rest ∧ entryHosts e = none) ↔ Exposed l := by
  constructor
  · rintro ⟨e, rest, hl, hbad⟩
    have hun := (prefix_reached_nil_iff.mp (List.prefix_refl (reached [] l))).2
    exact ⟨_, e, rest, hl, (unrepeated_iff.mp hun).2, fun hok => entryHosts_isSome_iff.mpr hok hbad⟩
  · rintro ⟨p, e, rest, rfl, hrep, hbad⟩
    have hall : ¬ ∀ x ∈ p ++ [e], RangeOk x := fun h => hbad (h e (by simp))
    obtain ⟨p', e', rest', hsplit, hok, hbad'⟩ := first_malformed hall
    have hp' : p' <+: p ++ [e] := ⟨_, hsplit.symm⟩
    have hpre : p' <+: p := by
      refine List.prefix_of_prefix_length_le hp' (List.prefix_append p [e]) ?_
      have hlen := congrArg List.length hsplit
      simp only [List.length_append, List.length_cons, List.length_nil] at hlen
      omega
    have hl : p ++ e :: rest = p' ++ e' :: (rest' ++ rest) := by
      have := congrArg (· ++ rest) hsplit
      simpa using this
    rw [hl, reached_of_malformed (unrepeated_iff.mpr ⟨hok, hrep.of_prefix hpre⟩) hbad']
    exact ⟨e', rest' ++ rest, rfl, not_not.mp (mt entryHosts_isSome_iff.mp hbad')⟩

theorem save_panics_iff (env : SaveEnv) (store : ClientStore) (queue : Collection Queue) (c : Task) :
    (c.save env store queue).returned = none ↔
      env.insertTask = true ∧ Exposed (expandTags store c.hostList) := by
  rw [Task.save]
  cases htask : env.insertTask with
  | false => simp
  | true => rw [if_pos rfl, queueLoop_panics_iff _ (by simp), reached_stops_iff, eq_self, true_and]

/-! ## The queue of a task with malformed ranges -/

/-- `Save` queues the hosts of all entries. -/
def QueuesAll (env : SaveEnv) (store : ClientStore) (queue : Collection Queue) (c : Task) : Prop :=
  c.save env store queue =
    ⟨some true, queue ++ ((expandTags store c.hostList).flatMap hosts).map (queueItem env c)⟩

theorem queuesAll_iff {env : SaveEnv} {store : ClientStore} {queue : Collection Queue} {c : Task}
    (htask : env.insertTask = true) (hqueue : ∀ n, env.insertQueue n = true)
    (hrep : NoRepeats (expandTags store c.hostList)) :
    QueuesAll env store queue c ↔ ∀ e ∈ expandTags store c.hostList, RangeOk e := by
  constructor
  · intro hall
    by_contra hbad
    obtain ⟨p, e, rest, hl, -, he⟩ := first_malformed hbad
    have hexposed : Exposed (expandTags store c.hostList) :=
      ⟨p, e, rest, hl, hrep.of_prefix ⟨e :: rest, hl.symm⟩, he⟩
    have hnone := (save_panics_iff env store queue c).mpr ⟨htask, hexposed⟩
    rw [hall] at hnone
    cases hnone
  · intro hok
    have hreached : reached [] (expandTags store c.hostList) = expandTags store c.hostList :=
      (prefix_reached_nil_iff.mp (List.prefix_refl _)).1.eq_of_length_le
        (prefix_reached_nil_iff.mpr
          ⟨List.prefix_refl _, unrepeated_iff.mpr ⟨hok, hrep⟩⟩).length_le
    obtain ⟨sub, -, hitems, hall⟩ :=
      @queueLoop_items env c (expandTags store c.hostList) [] ⟨queue, 0⟩
    rw [hall hqueue, hreached] at hitems
    have hreturned : (queueLoop env c (expandTags store c.hostList) [] ⟨queue, 0⟩).returned =
        some true := by
      refine (queueLoop_returned _ _ _).resolve_left fun hnone => ?_
      obtain ⟨e, rest, hl, hbad⟩ := (queueLoop_panics_iff _ (by simp)).mp hnone
      exact entryHosts_isSome_iff.mpr (hok e (by rw [hl]; simp)) hbad
    rw [QueuesAll, Task.save, if_pos htask, ← hitems, ← hreturned]

/-- `BetweenIP` returns for two texts if and only if both are IPv4 addresses. A task is processed to
the end if and only if no malformed range is exposed in its host list, and all its hosts are queued
if and only if there is no malformed range at all. -/
theorem save_survives_ranges_iff (s t : GoString) (env : SaveEnv) (store : ClientStore)
    (queue : Collection Queue) (c : Task) :
    ((betweenIP s t).isSome = true ↔ isIPv4Text s = true ∧ isIPv4Text t = true) ∧
    ((c.save env store queue).returned ≠ none ↔
      (env.insertTask = true → ¬ Exposed (expandTags store c.hostList))) ∧
    (env.insertTask = true → (∀ n, env.insertQueue n = true) →
      NoRepeats (expandTags store c.hostList) →
      (QueuesAll env store queue c ↔ ∀ e ∈ expandTags store c.hostList, RangeOk e)) := by
  refine ⟨betweenIP_isSome_iff, ?_, queuesAll_iff⟩
  rw [Ne, save_panics_iff, not_and]

/-- A range with good ends before a plain host. -/
theorem save_survives_ranges_two_entries :
    QueuesAll workingEnv noClients [] (reloadTask ["10.0.0.1-10.0.0.2", "web"]) ↔
      ∀ e ∈ expandTags noClients (reloadTask ["10.0.0.1-10.0.0.2", "web"]).hostList, RangeOk e :=
  (save_survives_ranges_iff [] [] workingEnv noClients [] _).2.2 rfl (fun _ => rfl)
    (by unfold NoRepeats; decide)

/-- A host name with a hyphen ends the loop before the next host is queued. -/
theorem save_panics_on_host_name :
    split (str "web-01") 45 = [str "web", str "01"] ∧
      betweenIP (str "web") (str "01") = none ∧
      (reloadTask ["web-01", "10.0.0.9"]).save workingEnv noClients [] = ⟨none, []⟩ := by
  refine ⟨by decide, by decide, ?_⟩
  rfl

end YulongHids.Web
