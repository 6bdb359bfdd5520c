import YulongHids.Web.Proofs.NetProofs
import YulongHids.Web.Task

/-!
# Proofs: the queue of a task

The loop over the host list ends at the first entry it has queued before, so it queues the hosts of
the longest prefix that repeats no entry. Hosts are not compared with each other.
-/

namespace YulongHids.Web

open Golang Mongo

/-! ## The hosts of an entry -/

theorem hosts_plain {e : GoString} (h : 45 ∉ e) : hosts e = [e] := by
  simp [hosts, entryHosts, h]

theorem split_rangeText (a b : ℕ) : split (rangeText a b) 45 = [addrText a, addrText b] := by
  have hjoin : rangeText a b = join [addrText a, addrText b] [45] := by simp [rangeText, join]
  rw [hjoin]
  refine split_join ?_ (by simp)
  intro f hf
  simp only [List.mem_cons, List.not_mem_nil, or_false] at hf
  rcases hf with rfl | rfl <;> exact hyphen_not_mem_addrText _

theorem hyphen_mem_rangeText (a b : ℕ) : 45 ∈ rangeText a b := by simp [rangeText]

theorem rangeText_inj {a b a' b' : ℕ} (ha : a < 2 ^ 32) (hb : b < 2 ^ 32) (ha' : a' < 2 ^ 32)
    (hb' : b' < 2 ^ 32) (h : rangeText a b = rangeText a' b') : a = a' ∧ b = b' := by
  have hsplit := split_rangeText a b
  rw [h, split_rangeText, List.cons.injEq, List.cons.injEq] at hsplit
  obtain ⟨h1, h2, -⟩ := hsplit
  have haddr : ∀ n m : ℕ, n < 2 ^ 32 → m < 2 ^ 32 → addrText n = addrText m → n = m := by
    intro n m hn hm hnm
    exact_mod_cast int2IP_string_inj ⟨by omega, by omega⟩ ⟨by omega, by omega⟩ hnm
  exact ⟨(haddr _ _ ha' ha h1).symm, (haddr _ _ hb' hb h2).symm⟩

/-- A range of one address has no host. -/
theorem hosts_rangeText {a b : ℕ} (ha : a < 2 ^ 32) (hb : b < 2 ^ 32) :
    hosts (rangeText a b) = if a < b then countUp (b + 1 - a) a else [] := by
  simp [hosts, entryHosts, hyphen_mem_rangeText, split_rangeText, betweenIP_addrText ha hb]

theorem entryDenotes_rangeText {a b : ℕ} {h : GoString} (ha : a < 2 ^ 32) (hb : b < 2 ^ 32) :
    EntryDenotes (rangeText a b) h ↔ ∃ n, a ≤ n ∧ n ≤ b ∧ h = addrText n := by
  constructor
  · rintro (⟨hno, -⟩ | ⟨a', b', n, h1, h2, hb', heq, rfl⟩)
    · exact absurd (hyphen_mem_rangeText a b) hno
    · obtain ⟨rfl, rfl⟩ := rangeText_inj ha hb (by omega) hb' heq
      exact ⟨n, h1, h2, rfl⟩
  · rintro ⟨n, h1, h2, rfl⟩
    exact Or.inr ⟨a, b, n, h1, h2, hb, rfl, rfl⟩

/-- The hosts the loop queues for a plain entry or a range are those the entry denotes, except for
that of a range of one address. -/
theorem entryDenotes_iff {e h : GoString}
    (he : 45 ∉ e ∨ ∃ a b, a ≤ b ∧ b < 2 ^ 32 ∧ e = rangeText a b) :
    EntryDenotes e h ↔ h ∈ hosts e ∨ ∃ a < 2 ^ 32, e = rangeText a a ∧ h = addrText a := by
  rcases he with he | ⟨a, b, hab, hb, rfl⟩
  · have hno : ∀ a b, e ≠ rangeText a b := by
      rintro a b rfl
      exact he (hyphen_mem_rangeText a b)
    simp [EntryDenotes, hosts_plain he, he, hno]
  · have ha : a < 2 ^ 32 := lt_of_le_of_lt hab hb
    rw [entryDenotes_rangeText ha hb, hosts_rangeText ha hb]
    by_cases hlt : a < b
    · have hone : ¬ ∃ c < 2 ^ 32, rangeText a b = rangeText c c ∧ h = addrText c := by
        rintro ⟨c, hc, heq, -⟩
        have := rangeText_inj ha hb hc hc heq
        omega
      simp only [if_pos hlt, hone, or_false, mem_countUp]
      constructor
      · rintro ⟨n, h1, h2, rfl⟩
        exact ⟨n, by omega, by omega, rfl⟩
      · rintro ⟨k, h1, h2, rfl⟩
        obtain ⟨n, rfl⟩ := Int.eq_ofNat_of_zero_le (show 0 ≤ k by omega)
        exact ⟨n, by omega, by omega, rfl⟩
    · obtain rfl : a = b := by omega
      simp only [lt_irrefl, if_false, List.not_mem_nil, false_or]
      constructor
      · rintro ⟨n, h1, h2, rfl⟩
        obtain rfl : n = a := by omega
        exact ⟨n, ha, rfl, rfl⟩
      · rintro ⟨c, hc, heq, rfl⟩
        obtain ⟨rfl, -⟩ := rangeText_inj ha hb hc hc heq
        exact ⟨a, le_refl a, le_refl a, rfl⟩

theorem hosts_nodup (e : GoString) : (hosts e).Nodup := by
  unfold hosts entryHosts
  by_cases he : 45 ∈ e
  · rw [if_pos he]
    split
    · next a b _ =>
      cases hb : betweenIP a b with
      | none => exact List.nodup_nil
      | some hs => exact betweenIP_nodup hb
    · exact List.nodup_nil
  · rw [if_neg he]
    exact List.nodup_singleton e

/-! ## The loop -/

/-- The entries whose hosts are queued, given those that are in `addedLst` already. -/
def reached : List GoString → List GoString → List GoString
  | _, [] => []
  | addedLst, e :: rest =>
    if e ∈ addedLst ∨ entryHosts e = none then []
    else e :: reached (addedLst ++ (hosts e).map fun _ => e) rest

section Loop

variable {env : SaveEnv} {c : Task}

def queueItem (env : SaveEnv) (c : Task) (ip : GoString) : Queue :=
  ⟨env.newObjectId, env.now, ip, c.type, c.command⟩

/-- One turn of the loop; a plain entry is a range of one address here. -/
theorem queueLoop_cons (e : GoString) (rest addedLst : List GoString) (queue : QueueStore) :
    queueLoop env c (e :: rest) addedLst queue =
      if e ∈ addedLst then ⟨some true, queue.items⟩
      else match entryHosts e with
        | none => ⟨none, queue.items⟩
        | some hs => queueLoop env c rest (addedLst ++ hs.map fun _ => e)
            (hs.foldl (addQueue env c) queue) := by
  rw [queueLoop]
  by_cases hadded : e ∈ addedLst
  · rw [if_pos hadded, if_pos hadded]
  rw [if_neg hadded, if_neg hadded]
  unfold entryHosts
  by_cases he : 45 ∈ e
  · rw [if_pos he, if_pos he]
    rcases split e 45 with _ | ⟨a, _ | ⟨b, _ | ⟨x, l⟩⟩⟩
    · simp
    · simp
    · cases betweenIP a b <;> rfl
    · simp
  · rw [if_neg he, if_neg he]
    rfl

/-- Some of the documents are inserted, each at most once and in order. -/
theorem foldl_addQueue_items (hs : List GoString) (queue : QueueStore) :
    ∃ sub, sub.Sublist hs ∧
      (hs.foldl (addQueue env c) queue).items = queue.items ++ sub.map (queueItem env c) ∧
      ((∀ n, env.insertQueue n = true) → sub = hs) := by
  induction hs generalizing queue with
  | nil => exact ⟨[], List.Sublist.refl _, by simp, fun _ => rfl⟩
  | cons h hs ih =>
    obtain ⟨sub, hsub, hitems, hall⟩ := ih (addQueue env c queue h)
    cases hins : env.insertQueue queue.inserts with
    | true =>
      refine ⟨h :: sub, hsub.cons_cons h, ?_, fun hok => by rw [hall hok]⟩
      rw [List.foldl_cons, hitems]
      simp [addQueue, hins, Mongo.insert, queueItem]
    | false =>
      refine ⟨sub, hsub.cons h, ?_, fun hok => by simp [hok] at hins⟩
      rw [List.foldl_cons, hitems]
      simp [addQueue, hins]

/-- The queue after the loop: documents for hosts of the reached entries, for all of them if no
insert fails. -/
theorem queueLoop_items (l addedLst : List GoString) (queue : QueueStore) :
    ∃ sub, sub.Sublist ((reached addedLst l).flatMap hosts) ∧
      (queueLoop env c l addedLst queue).queue = queue.items ++ sub.map (queueItem env c) ∧
      ((∀ n, env.insertQueue n = true) → sub = (reached addedLst l).flatMap hosts) := by
  induction l generalizing addedLst queue with
  | nil => exact ⟨[], List.Sublist.refl _, by simp [queueLoop], fun _ => rfl⟩
  | cons e rest ih =>
    rw [queueLoop_cons, reached]
    by_cases hadded : e ∈ addedLst
    · exact ⟨[], List.nil_sublist _, by simp [hadded], fun _ => by simp [hadded]⟩
    cases he : entryHosts e with
    | none => exact ⟨[], List.nil_sublist _, by simp [hadded], fun _ => by simp⟩
    | some hs =>
      have hhosts : hosts e = hs := by simp [hosts, he]
      obtain ⟨sub1, hsub1, hitems1, hall1⟩ := @foldl_addQueue_items env c hs queue
      obtain ⟨sub2, hsub2, hitems2, hall2⟩ := ih (addedLst ++ hs.map fun _ => e)
        (hs.foldl (addQueue env c) queue)
      simp only [hadded, false_or, reduceCtorEq, if_false, List.flatMap_cons, hhosts]
      refine ⟨sub1 ++ sub2, hsub1.append hsub2, ?_, fun hok => by rw [hall1 hok, hall2 hok]⟩
      rw [hitems2, hitems1]
      simp

end Loop

/-! ## The reached entries -/

theorem unrepeated_nil : Unrepeated [] := ⟨by simp, by simp⟩

theorem unrepeated_cons_iff {e : GoString} {p : List GoString} :
    Unrepeated (e :: p) ↔
      entryHosts e ≠ none ∧ (hosts e ≠ [] → e ∉ p) ∧ Unrepeated p := by
  constructor
  · rintro ⟨hwf, hnodup⟩
    refine ⟨hwf e (List.mem_cons_self ..), ?_, fun x hx => hwf x (List.mem_cons_of_mem _ hx), ?_⟩
    · intro hne hmem
      rw [List.filter_cons_of_pos (by simpa using hne), List.nodup_cons] at hnodup
      exact hnodup.1 (List.mem_filter.mpr ⟨hmem, by simpa using hne⟩)
    · exact hnodup.sublist ((List.sublist_cons_self _ _).filter _)
  · rintro ⟨he, hnotin, hwf, hnodup⟩
    refine ⟨List.forall_mem_cons.mpr ⟨he, hwf⟩, ?_⟩
    by_cases hne : hosts e = []
    · simpa [hne] using hnodup
    · rw [List.filter_cons_of_pos (by simpa using hne), List.nodup_cons]
      exact ⟨fun h => hnotin hne (List.mem_filter.mp h).1, hnodup⟩

/-- After an entry was queued, `addedLst` has it if it has a host. -/
theorem mem_addedLst_iff {addedLst : List GoString} {e x : GoString} :
    x ∈ addedLst ++ (hosts e).map (fun _ => e) ↔ x ∈ addedLst ∨ (hosts e ≠ [] ∧ x = e) := by
  rw [List.mem_append, List.mem_map]
  refine or_congr_right ⟨?_, ?_⟩
  · rintro ⟨y, hy, rfl⟩
    exact ⟨List.ne_nil_of_mem hy, rfl⟩
  · rintro ⟨hne, rfl⟩
    obtain ⟨y, hy⟩ := List.exists_mem_of_ne_nil _ hne
    exact ⟨y, hy, rfl⟩

/-- The prefixes of the reached part are the prefixes that repeat no entry, in themselves or from
`addedLst`. -/
theorem prefix_reached_iff {addedLst l p : List GoString} :
    p <+: reached addedLst l ↔ p <+: l ∧ Unrepeated p ∧ ∀ e ∈ p, e ∉ addedLst := by
  induction l generalizing addedLst p with
  | nil =>
    simp only [reached, List.prefix_nil]
    refine ⟨?_, fun h => h.1⟩
    rintro rfl
    exact ⟨rfl, unrepeated_nil, by simp⟩
  | cons e rest ih =>
    rcases p with _ | ⟨e', p⟩
    · simp [unrepeated_nil]
    rw [reached]
    by_cases hstop : e ∈ addedLst ∨ entryHosts e = none
    · rw [if_pos hstop]
      refine ⟨fun h => by simp at h, ?_⟩
      rintro ⟨hpre, hun, hfresh⟩
      obtain rfl := (List.cons_prefix_cons.mp hpre).1
      rcases hstop with h | h
      · exact absurd h (hfresh e' (List.mem_cons_self ..))
      · exact absurd h (unrepeated_cons_iff.mp hun).1
    obtain ⟨hnew, hwf⟩ := not_or.mp hstop
    rw [if_neg hstop, List.cons_prefix_cons, List.cons_prefix_cons, ih, unrepeated_cons_iff]
    constructor
    · rintro ⟨rfl, hpre, hun, hfresh⟩
      have hfresh' : ∀ x ∈ p, x ∉ addedLst ∧ ¬ (hosts e' ≠ [] ∧ x = e') := fun x hx =>
        not_or.mp (mt mem_addedLst_iff.mpr (hfresh x hx))
      refine ⟨⟨rfl, hpre⟩, ⟨hwf, fun hne hmem => (hfresh' e' hmem).2 ⟨hne, rfl⟩, hun⟩, ?_⟩
      exact List.forall_mem_cons.mpr ⟨hnew, fun x hx => (hfresh' x hx).1⟩
    · rintro ⟨⟨rfl, hpre⟩, ⟨-, hnotin, hun⟩, hfresh⟩
      refine ⟨rfl, hpre, hun, fun x hx hin => ?_⟩
      rcases mem_addedLst_iff.mp hin with hin | ⟨hne, rfl⟩
      · exact hfresh x (List.mem_cons_of_mem _ hx) hin
      · exact hnotin hne hx

theorem prefix_reached_nil_iff {l p : List GoString} :
    p <+: reached [] l ↔ p <+: l ∧ Unrepeated p := by
  rw [prefix_reached_iff]
  simp

/-! ## The queue -/

section Save

variable {env : SaveEnv} {store : ClientStore} {queue : Collection Queue} {c : Task}

/-- The documents of the task in the queue that `Save` leaves. -/
theorem save_items (hfresh : ∀ q ∈ queue, q.taskID ≠ env.newObjectId) :
    ∃ sub, sub.Sublist ((reached [] (expandTags store c.hostList)).flatMap hosts) ∧
      (c.save env store queue).queue.filter (fun q => q.taskID = env.newObjectId) =
        sub.map (queueItem env c) ∧
      (env.insertTask = true → (∀ n, env.insertQueue n = true) →
        sub = (reached [] (expandTags store c.hostList)).flatMap hosts) := by
  have hold : queue.filter (fun q => q.taskID = env.newObjectId) = [] := by
    simpa using hfresh
  unfold Task.save
  cases htask : env.insertTask with
  | false => exact ⟨[], List.nil_sublist _, by simpa using hfresh, by simp⟩
  | true =>
    obtain ⟨sub, hsub, hitems, hall⟩ :=
      @queueLoop_items env c (expandTags store c.hostList) [] ⟨queue, 0⟩
    refine ⟨sub, hsub, ?_, fun _ => hall⟩
    rw [if_pos rfl, hitems, List.filter_append, hold, List.nil_append, List.filter_eq_self]
    intro q hq
    obtain ⟨ip, -, rfl⟩ := List.mem_map.mp hq
    simp [queueItem]

theorem map_queueItem_ip (hs : List GoString) : (hs.map (queueItem env c)).map Queue.ip = hs := by
  simp [queueItem, Function.comp_def]

theorem mem_reached_hosts_iff {l : List GoString} {h : GoString} :
    h ∈ (reached [] l).flatMap hosts ↔
      ∃ entries, entries <+: l ∧ Unrepeated entries ∧ ∃ e ∈ entries, h ∈ hosts e := by
  rw [List.mem_flatMap]
  constructor
  · rintro ⟨e, he, hh⟩
    obtain ⟨hpre, hun⟩ := prefix_reached_nil_iff.mp (List.prefix_refl (reached [] l))
    exact ⟨_, hpre, hun, e, he, hh⟩
  · rintro ⟨entries, hpre, hun, e, he, hh⟩
    exact ⟨e, (prefix_reached_nil_iff.mpr ⟨hpre, hun⟩).subset he, hh⟩

theorem reached_hosts_nodup_iff {l : List GoString} :
    ((reached [] l).flatMap hosts).Nodup ↔
      ∀ entries, entries <+: l → Unrepeated entries →
        entries.Pairwise fun e e' => ∀ h ∈ hosts e, h ∉ hosts e' := by
  rw [List.nodup_flatMap]
  constructor
  · rintro ⟨-, hpair⟩ entries hpre hun
    exact hpair.sublist (prefix_reached_nil_iff.mpr ⟨hpre, hun⟩).sublist
  · intro h
    obtain ⟨hpre, hun⟩ := prefix_reached_nil_iff.mp (List.prefix_refl (reached [] l))
    exact ⟨fun e _ => hosts_nodup e, h _ hpre hun⟩

end Save

/-- When `Save` returns true, every host the list denotes is queued if and only if each of them
belongs to an entry of the expanded list up to which no entry is repeated. -/
theorem save_queues_denoted_iff (env : SaveEnv) (store : ClientStore) (queue : Collection Queue)
    (c : Task) (hfresh : ∀ q ∈ queue, q.taskID ≠ env.newObjectId)
    (hqueue : ∀ n, env.insertQueue n = true)
    (hsave : (c.save env store queue).returned = some true) :
    (∀ h, Denotes store.clients c.hostList h →
        ∃ q ∈ (c.save env store queue).queue, q.taskID = env.newObjectId ∧ q.ip = h) ↔
      ∀ h, Denotes store.clients c.hostList h →
        ∃ entries, entries <+: expandTags store c.hostList ∧ Unrepeated entries ∧
          ∃ e ∈ entries, h ∈ hosts e := by
  have htask : env.insertTask = true := by
    by_contra hn
    simp [Task.save, hn] at hsave
  obtain ⟨sub, -, hitems, hall⟩ := @save_items env store queue c hfresh
  have hsub := hall htask hqueue
  have hqueued : ∀ h, (∃ q ∈ (c.save env store queue).queue,
      q.taskID = env.newObjectId ∧ q.ip = h) ↔ h ∈ sub := by
    intro h
    rw [← @map_queueItem_ip env c sub, ← hitems, List.mem_map]
    simp only [List.mem_filter, decide_eq_true_eq, and_assoc]
  refine forall_congr' fun h => imp_congr_right fun _ => ?_
  rw [hqueued, hsub, mem_reached_hosts_iff]

/-- A console whose inserts all succeed. -/
def workingEnv : SaveEnv := ⟨str "task-0000001", 0, true, fun _ => true⟩

def reloadTask (hostList : List String) : Task := ⟨str "reload", hostList.map str, str "reload", []⟩

def noClients : ClientStore where
  clients := []
  all := some ⟨[], List.nodup_nil, by simp⟩
  windows := some ⟨[], List.nodup_nil, by simp⟩
  linux := some ⟨[], List.nodup_nil, by simp⟩

def linuxClient : Client := ⟨str "10.0.0.9", str "linux"⟩

theorem matchesWindows_linux : matchesWindows (str "linux") = false := by decide

def oneClient : ClientStore where
  clients := [linuxClient]
  all := some ⟨[linuxClient.ip], List.nodup_singleton _, by simp [eq_comm]⟩
  windows := some ⟨[], List.nodup_nil, by simp [linuxClient, matchesWindows_linux]⟩
  linux := some ⟨[linuxClient.ip], List.nodup_singleton _, by
    intro k
    rw [List.mem_singleton]
    constructor
    · rintro rfl
      exact ⟨linuxClient, List.mem_singleton_self _, by decide, rfl⟩
    · rintro ⟨d, hd, -, rfl⟩
      rw [List.mem_singleton.mp hd]⟩

/-- A range of one address is dropped, and a repeated entry ends the loop: of the three hosts of
this list one is queued. -/
theorem save_loses_hosts :
    let c := reloadTask ["10.0.0.5-10.0.0.5", "10.0.0.1", "10.0.0.1", "10.0.0.2"]
    let run := c.save workingEnv noClients []
    run.returned = some true ∧
      Denotes noClients.clients c.hostList (str "10.0.0.2") ∧
      Denotes noClients.clients c.hostList (str "10.0.0.5") ∧
      run.queue.map Queue.ip = [str "10.0.0.1"] ∧
      ¬ ∀ h, Denotes noClients.clients c.hostList h →
        ∃ q ∈ run.queue, q.taskID = workingEnv.newObjectId ∧ q.ip = h := by
  intro c run
  have hips : run.queue.map Queue.ip = [str "10.0.0.1"] := by decide
  have hall : str "all" ∉ c.hostList := by decide
  have hplain : Denotes noClients.clients c.hostList (str "10.0.0.2") := by
    rw [Denotes, if_neg hall]
    exact Or.inl ⟨str "10.0.0.2", by decide, by decide, by decide, Or.inl ⟨by decide, rfl⟩⟩
  have hrange : Denotes noClients.clients c.hostList (str "10.0.0.5") := by
    rw [Denotes, if_neg hall]
    refine Or.inl ⟨str "10.0.0.5-10.0.0.5", by decide, by decide, by decide, Or.inr ?_⟩
    exact ⟨167772165, 167772165, 167772165, le_refl _, le_refl _, by norm_num, by decide, by decide⟩
  refine ⟨by decide, hplain, hrange, hips, fun h => ?_⟩
  obtain ⟨q, hq, -, hip⟩ := h _ hplain
  have hmem := List.mem_map_of_mem (f := Queue.ip) hq
  rw [hips, hip] at hmem
  revert hmem
  decide

theorem save_queues_denoted_tagged :
    let c := reloadTask ["linux", "10.0.0.1-10.0.0.3"]
    let run := c.save workingEnv oneClient []
    (∀ h, Denotes oneClient.clients c.hostList h →
        ∃ q ∈ run.queue, q.taskID = workingEnv.newObjectId ∧ q.ip = h) ↔
      ∀ h, Denotes oneClient.clients c.hostList h →
        ∃ entries, entries <+: expandTags oneClient c.hostList ∧ Unrepeated entries ∧
          ∃ e ∈ entries, h ∈ hosts e :=
  save_queues_denoted_iff workingEnv oneClient [] _ (by simp) (fun _ => rfl) (by decide)

/-- No host is ever queued twice for a task if and only if no two entries of the expanded list up
to its first repeated entry share a host. -/
theorem save_queues_once_iff (store : ClientStore) (c : Task) :
    (∀ (env : SaveEnv) (queue : Collection Queue),
        (∀ q ∈ queue, q.taskID ≠ env.newObjectId) →
        (((c.save env store queue).queue.filter fun q => q.taskID = env.newObjectId).map
          Queue.ip).Nodup) ↔
      ∀ entries, entries <+: expandTags store c.hostList → Unrepeated entries →
        entries.Pairwise fun e e' => ∀ h ∈ hosts e, h ∉ hosts e' := by
  rw [← reached_hosts_nodup_iff]
  constructor
  · intro h
    have hnodup := h ⟨[], 0, true, fun _ => true⟩ [] (by simp)
    obtain ⟨sub, -, hitems, hall⟩ :=
      @save_items ⟨[], 0, true, fun _ => true⟩ store [] c (by simp)
    rw [hitems, map_queueItem_ip, hall rfl fun _ => rfl] at hnodup
    exact hnodup
  · intro h env queue hfresh
    obtain ⟨sub, hsub, hitems, -⟩ := @save_items env store queue c hfresh
    rw [hitems, map_queueItem_ip]
    exact h.sublist hsub

/-- A host inside a range that is also listed by itself is queued twice. -/
theorem save_queues_twice :
    ((((reloadTask ["10.0.0.1-10.0.0.3", "10.0.0.2"]).save workingEnv noClients []).queue.filter
        fun q => q.taskID = workingEnv.newObjectId).map Queue.ip).count (str "10.0.0.2") = 2 ∧
      ¬ ((((reloadTask ["10.0.0.1-10.0.0.3", "10.0.0.2"]).save workingEnv noClients []).queue.filter
        fun q => q.taskID = workingEnv.newObjectId).map Queue.ip).Nodup := by
  constructor <;> decide

end YulongHids.Web
