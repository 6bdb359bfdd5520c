import YulongHids.Server.Health

/-!
# Proofs: the health checks of the server

The writes of the threads select a host by its address alone. What protects a host that reports while
a thread goes through its list is only that the thread has come to it already.
-/

namespace YulongHids.Server

open Golang Mongo Transition

/-! ## The writes to the collection -/

section Clients

variable {clients : Clients} {c : Client} {info : ComputerInfo} {uptime : ℕ} {ip : GoString}

theorem ipSelector_iff : ipSelector ip c = true ↔ c.ip = ip := beq_iff_eq

/-- An entry after the upsert is an old one, or it has the new address and time. -/
theorem mem_upsertInfo (h : c ∈ upsertInfo clients info uptime) :
    c ∈ clients ∨ c.ip = info.ip ∧ c.uptime = uptime := by
  unfold upsertInfo at h
  split_ifs at h with hcount
  · rcases mem_update h with hc | ⟨e, -, -, rfl⟩
    · exact Or.inl hc
    · exact Or.inr ⟨rfl, rfl⟩
  · rcases List.mem_append.mp h with hc | hc
    · exact Or.inl hc
    · rw [List.mem_singleton.mp hc]
      exact Or.inr ⟨rfl, rfl⟩

theorem nodup_upsertInfo (h : (clients.map Client.ip).Nodup) :
    ((upsertInfo clients info uptime).map Client.ip).Nodup := by
  unfold upsertInfo
  split_ifs with hcount
  · have hip : ∀ d, ipSelector info.ip d = true →
        Client.ip { d with info := info, uptime := uptime } = d.ip :=
      fun d hd => (ipSelector_iff.mp hd).symm
    rwa [map_update hip]
  · rw [Mongo.insert, List.map_append, List.nodup_append']
    refine ⟨h, List.nodup_singleton _, ?_⟩
    intro x hx hx'
    obtain ⟨d, hd, rfl⟩ := List.mem_map.mp hx
    apply hcount
    rw [count, List.one_le_countP_iff]
    exact ⟨d, hd, ipSelector_iff.mpr (List.mem_singleton.mp hx')⟩

theorem one_upsertInfo :
    ∃ c, one (upsertInfo clients info uptime) (ipSelector info.ip) = some c ∧ c.uptime = uptime := by
  unfold upsertInfo
  split_ifs with hcount
  · have hip : ∀ d, ipSelector info.ip d = true →
        ipSelector info.ip { d with info := info, uptime := uptime } = true :=
      fun d _ => ipSelector_iff.mpr rfl
    rw [one_update_self hip]
    obtain ⟨c, hc⟩ := Option.isSome_iff_exists.mp (one_le_count_iff.mp hcount)
    rw [hc]
    exact ⟨_, rfl, rfl⟩
  · have hnone : one clients (ipSelector info.ip) = none := by
      rw [← Option.not_isSome_iff_eq_none, ← one_le_count_iff]
      exact hcount
    have hip : ipSelector info.ip ⟨info, uptime, none⟩ = true := ipSelector_iff.mpr rfl
    rw [one_insert, hnone, if_pos hip]
    exact ⟨_, rfl, rfl⟩

/-- The hosts with the times of their last reports. -/
def reports (clients : Clients) : List (GoString × ℕ) := clients.map fun c => (c.ip, c.uptime)

/-- The updates of the field `health` leave the reports. -/
theorem reports_setHealthy : reports (setHealthy clients ip) = reports clients :=
  map_update fun _ _ => rfl

theorem reports_setOffline : reports (setOffline clients ip) = reports clients :=
  map_update fun _ _ => rfl

theorem reports_removeClient : List.Sublist (reports (removeClient clients ip)) (reports clients) :=
  List.eraseP_sublist.map _

theorem map_fst_reports : (reports clients).map Prod.fst = clients.map Client.ip := by
  rw [reports, List.map_map]
  rfl

theorem mem_offlineIPs {limit t : ℕ} :
    ip ∈ offlineIPs clients limit t ↔ ∃ c ∈ clients, c.uptime + limit ≤ t ∧ c.ip = ip := by
  simp [offlineIPs, List.mem_map, and_assoc]

end Clients

/-! ## Threads with hosts that were not refreshed -/

namespace HealthSystem

variable {s s' : HealthSystem}

/-- A thread has read the clock at most now, and no entry of the hosts that it has not come to yet was
refreshed in the time `limit`. -/
structure Sound (s : HealthSystem) (limit : ℕ) (clock : Option ℕ) (todo : List GoString) : Prop where
  clock : ∀ t ∈ clock, t ≤ s.now
  stale : ∀ c ∈ s.clients, c.ip ∈ todo → c.uptime + limit ≤ s.now

/-- Every host has one entry, and both threads are as described. -/
structure Inv (s : HealthSystem) : Prop where
  ips : (s.clients.map Client.ip).Nodup
  clean : s.Sound hours72 s.clean.clock s.clean.todo
  offline : s.Sound minutes5 s.offline.stage.clock s.offline.stage.todo

section Sound

variable {limit t : ℕ} {clock clock' : Option ℕ} {todo todo' : List GoString}

/-- A thread stays as described when it goes on in its list, time goes on, and every entry has a report
that it had before or one that is old enough. -/
theorem Sound.mono (h : s.Sound limit clock todo) (hnow : s.now ≤ s'.now)
    (hclock : ∀ t ∈ clock', t ∈ clock) (htodo : ∀ ip ∈ todo', ip ∈ todo)
    (hreports : ∀ c ∈ s'.clients, (c.ip, c.uptime) ∈ reports s.clients ∨
      (c.ip ∈ todo' → c.uptime + limit ≤ s'.now)) : s'.Sound limit clock' todo' := by
  refine ⟨fun t ht => (h.clock t (hclock t ht)).trans hnow, fun c hc hip => ?_⟩
  rcases hreports c hc with hold | hnew
  · obtain ⟨c', hc', heq⟩ := List.mem_map.mp hold
    obtain ⟨hip', huptime⟩ := Prod.mk.inj heq
    have hstale := h.stale c' hc' (hip' ▸ htodo c.ip hip)
    omega
  · exact hnew hip

theorem Sound.of_sublist (h : s.Sound limit clock todo) (hnow : s.now ≤ s'.now)
    (hclock : ∀ t ∈ clock', t ∈ clock) (htodo : ∀ ip ∈ todo', ip ∈ todo)
    (hreports : List.Sublist (reports s'.clients) (reports s.clients)) :
    s'.Sound limit clock' todo' :=
  h.mono hnow hclock htodo fun _ hc => Or.inl (hreports.subset (List.mem_map_of_mem hc))

/-- A thread with nothing to do that reads the clock. -/
theorem sound_clock : s.Sound limit (some s.now) [] :=
  ⟨fun _ ht => (Option.some.inj ht).ge, fun _ _ hip => absurd hip List.not_mem_nil⟩

theorem sound_nil : s.Sound limit none [] :=
  ⟨nofun, fun _ _ hip => absurd hip List.not_mem_nil⟩

/-- With one entry for each host, no entry of a host in the answer of a query was refreshed. -/
theorem Sound.answer (h : s.Sound limit (some t) todo) (hips : (s.clients.map Client.ip).Nodup)
    {answer : List GoString} (hanswer : s.Answers limit t (some answer)) :
    s.Sound limit none answer := by
  refine ⟨nofun, fun c hc hip => ?_⟩
  rw [(hanswer answer rfl).mem_iff, mem_offlineIPs] at hip
  obtain ⟨c', hc', hold, heq⟩ := hip
  obtain rfl : c' = c := List.inj_on_of_nodup_map hips hc' hc heq
  have ht := h.clock t rfl
  omega

theorem Sound.dead (h : s.Sound limit clock todo) {ip : GoString} (hip : ip ∈ todo) :
    s.Dead limit ip := by
  intro c hc
  have hone : c.ip = ip := ipSelector_iff.mp (List.find?_some hc)
  exact h.stale c (List.mem_of_find?_eq_some hc) (hone ▸ hip)

/-- The entry that is found for a host is its only one. -/
theorem stale_of_dead (hips : (s.clients.map Client.ip).Nodup)
    (hdead : ∀ ip ∈ todo, s.Dead limit ip) : s.Sound limit none todo := by
  refine ⟨nofun, fun c hc hip => ?_⟩
  cases hone : one s.clients (ipSelector c.ip) with
  | none => exact absurd (ipSelector_iff.mpr rfl) (List.find?_eq_none.mp hone c hc)
  | some c' =>
    have hip' : c'.ip = c.ip := ipSelector_iff.mp (List.find?_some hone)
    obtain rfl := List.inj_on_of_nodup_map hips (List.mem_of_find?_eq_some hone) hc hip'
    exact hdead c'.ip hip c' hone

end Sound

/-! ## What a step keeps -/

/-- Steps that bring no new report. -/
theorem inv_of_sublist (h : s.Inv) (hnow : s.now ≤ s'.now)
    (hreports : List.Sublist (reports s'.clients) (reports s.clients))
    (hclean : (∀ t ∈ s'.clean.clock, t ∈ s.clean.clock) ∧ ∀ ip ∈ s'.clean.todo, ip ∈ s.clean.todo)
    (hoffline : (∀ t ∈ s'.offline.stage.clock, t ∈ s.offline.stage.clock) ∧
      ∀ ip ∈ s'.offline.stage.todo, ip ∈ s.offline.stage.todo) : s'.Inv := by
  refine ⟨?_, h.clean.of_sublist hnow hclean.1 hclean.2 hreports,
    h.offline.of_sublist hnow hoffline.1 hoffline.2 hreports⟩
  have hips := hreports.map Prod.fst
  rw [map_fst_reports, map_fst_reports] at hips
  exact h.ips.sublist hips

/-- A thread that stays where it is. -/
theorem same_place {α : Type} {o o' : Option ℕ} {l l' : List α} (ho : o' = o) (hl : l' = l) :
    (∀ t ∈ o', t ∈ o) ∧ ∀ x ∈ l', x ∈ l := by
  subst ho hl
  exact ⟨fun _ ht => ht, fun _ hx => hx⟩

/-- A write that brings no new report. -/
theorem inv_write (h : s.Inv) {clients : Clients} {ok : Bool}
    (hreports : List.Sublist (reports clients) (reports s.clients)) :
    (s.write ok clients).Inv := by
  cases ok with
  | false => exact h
  | true =>
    exact inv_of_sublist h (le_refl _) hreports (same_place rfl rfl) (same_place rfl rfl)

theorem clean_write {clients : Clients} {ok : Bool} : (s.write ok clients).clean = s.clean := by
  cases ok with
  | false => rfl
  | true => rfl

theorem offline_write {clients : Clients} {ok : Bool} :
    (s.write ok clients).offline = s.offline := by
  cases ok with
  | false => rfl
  | true => rfl

/-- A report reaches the entry of a host. -/
theorem inv_upsert (h : s.Inv) {info : ComputerInfo} {uptime : ℕ}
    (hclean : info.ip ∈ s.clean.todo → uptime + hours72 ≤ s.now)
    (hoffline : info.ip ∈ s.offline.stage.todo → uptime + minutes5 ≤ s.now) :
    Inv { s with clients := upsertInfo s.clients info uptime } := by
  have hreports : ∀ (limit : ℕ) (todo : List GoString),
      (info.ip ∈ todo → uptime + limit ≤ s.now) →
      ∀ c ∈ upsertInfo s.clients info uptime, (c.ip, c.uptime) ∈ reports s.clients ∨
        (c.ip ∈ todo → c.uptime + limit ≤ s.now) := by
    intro limit todo hold c hc
    rcases mem_upsertInfo hc with hc' | ⟨hip, huptime⟩
    · exact Or.inl (List.mem_map_of_mem hc')
    · exact Or.inr fun hmem => huptime ▸ hold (hip ▸ hmem)
  exact ⟨nodup_upsertInfo h.ips,
    h.clean.mono (le_refl _) (fun _ ht => ht) (fun _ hip => hip) (hreports _ _ hclean),
    h.offline.mono (le_refl _) (fun _ ht => ht) (fun _ hip => hip) (hreports _ _ hoffline)⟩

/-- A step of a call of `ComputerInfoSave`. -/
theorem inv_saveStep {n : ℕ} {ok : Bool} (h : s.Inv) (hu : s.Undisturbed (.saveStep n ok))
    (hstep : s.step (.saveStep n ok) = some s') : s'.Inv := by
  obtain ⟨save, hsave, rfl⟩ := Option.map_eq_some_iff.mp hstep
  cases save with
  | health ip =>
    have hreports : List.Sublist (reports (setHealthy s.clients ip)) (reports s.clients) := by
      rw [reports_setHealthy]
    exact inv_of_sublist (inv_write h hreports) (le_refl _) (List.Sublist.refl _)
      (same_place rfl rfl) (same_place rfl rfl)
  | upsert info uptime =>
    cases ok with
    | false =>
      exact inv_of_sublist h (le_refl _) (List.Sublist.refl _) (same_place rfl rfl)
        (same_place rfl rfl)
    | true =>
      obtain ⟨hclean, hoffline⟩ := hu rfl info uptime hsave
      exact inv_of_sublist (inv_upsert h hclean hoffline) (le_refl _) (List.Sublist.refl _)
        (same_place rfl rfl) (same_place rfl rfl)

/-- The query of `cleanThread`. Without an answer there is nothing to remove. -/
theorem inv_cleanQuery {answer : Option (List GoString)} (h : s.Inv)
    (hstep : s.step (.cleanQuery answer) = some s') : s'.Inv := by
  rw [step] at hstep
  split at hstep
  case h_2 => exact absurd hstep (by simp)
  case h_1 t hclean =>
    obtain ⟨hanswer, rfl⟩ := guard_iff.mp hstep
    refine ⟨h.ips, ?_, ⟨h.offline.clock, h.offline.stale⟩⟩
    have hsound := h.clean
    rw [hclean] at hsound
    show Sound _ hours72 none (if 100 ≤ (answer.getD []).length then [] else answer.getD [])
    split_ifs
    · exact sound_nil
    · cases answer with
      | none => exact sound_nil
      | some ips =>
        obtain ⟨hclock, hstale⟩ := hsound.answer h.ips hanswer
        exact ⟨hclock, hstale⟩

theorem inv_cleanRemove {ok : Bool} (h : s.Inv) (hstep : s.step (.cleanRemove ok) = some s') :
    s'.Inv := by
  rw [step] at hstep
  split at hstep
  case h_2 => exact absurd hstep (by simp)
  case h_1 ip todo hclean =>
    obtain rfl := Option.some.inj hstep
    refine inv_of_sublist (inv_write h reports_removeClient) (le_refl _) (List.Sublist.refl _) ?_
      (same_place rfl rfl)
    rw [clean_write, hclean]
    exact ⟨nofun, fun _ hx => List.mem_cons_of_mem ip hx⟩

/-- The query of `offlineCheckThread`. Without an answer the last list is there again. -/
theorem inv_offlineQuery {answer : Option (List GoString)} (h : s.Inv)
    (hu : s.Undisturbed (.offlineQuery answer)) (hstep : s.step (.offlineQuery answer) = some s') :
    s'.Inv := by
  rw [step] at hstep
  split at hstep
  case h_2 => exact absurd hstep (by simp)
  case h_1 t hstage =>
    obtain ⟨hanswer, rfl⟩ := guard_iff.mp hstep
    refine ⟨h.ips, ⟨h.clean.clock, h.clean.stale⟩, ?_⟩
    have hsound := h.offline
    rw [hstage] at hsound
    cases answer with
    | none =>
      obtain ⟨hclock, hstale⟩ := stale_of_dead h.ips hu
      exact ⟨hclock, hstale⟩
    | some ips =>
      obtain ⟨hclock, hstale⟩ := hsound.answer h.ips hanswer
      exact ⟨hclock, hstale⟩

theorem inv_offlineUpdate {ok offlineCheck : Bool} (h : s.Inv)
    (hstep : s.step (.offlineUpdate ok offlineCheck) = some s') : s'.Inv := by
  rw [step] at hstep
  split at hstep
  case h_2 => exact absurd hstep (by simp)
  case h_1 ip todo hstage =>
    obtain rfl := Option.some.inj hstep
    have hreports : List.Sublist (reports (setOffline s.clients ip)) (reports s.clients) := by
      rw [reports_setOffline]
    refine inv_of_sublist (inv_write h hreports) (le_refl _) (List.Sublist.refl _)
      (same_place rfl rfl) ?_
    rw [offline_write, hstage]
    dsimp only
    split_ifs
    · exact ⟨nofun, fun _ hx => List.mem_cons_of_mem ip hx⟩
    · exact ⟨nofun, fun _ hx => List.mem_cons_of_mem ip hx⟩

/-- Every step that nothing disturbs keeps the invariant. -/
theorem inv_step {e : HealthEvent} (h : s.Inv) (hu : s.Undisturbed e)
    (hstep : s.step e = some s') : s'.Inv := by
  cases e with
  | tick d =>
    obtain rfl := Option.some.inj hstep
    exact inv_of_sublist h (Nat.le_add_right _ _) (List.Sublist.refl _) (same_place rfl rfl)
      (same_place rfl rfl)
  | save info =>
    obtain rfl := Option.some.inj hstep
    exact inv_of_sublist h (le_refl _) (List.Sublist.refl _) (same_place rfl rfl)
      (same_place rfl rfl)
  | saveStep n ok => exact inv_saveStep h hu hstep
  | cleanClock =>
    rw [step] at hstep
    split at hstep
    case h_2 => exact absurd hstep (by simp)
    case h_1 =>
      obtain rfl := Option.some.inj hstep
      exact ⟨h.ips, sound_clock, ⟨h.offline.clock, h.offline.stale⟩⟩
  | cleanQuery answer => exact inv_cleanQuery h hstep
  | cleanRemove ok => exact inv_cleanRemove h hstep
  | offlineClock =>
    rw [step] at hstep
    split at hstep
    case h_2 => exact absurd hstep (by simp)
    case h_1 =>
      obtain rfl := Option.some.inj hstep
      exact ⟨h.ips, ⟨h.clean.clock, h.clean.stale⟩, sound_clock⟩
  | offlineQuery answer => exact inv_offlineQuery h hu hstep
  | offlineUpdate ok offlineCheck => exact inv_offlineUpdate h hstep
  | offlinePing =>
    rw [step] at hstep
    split at hstep
    case h_2 => exact absurd hstep (by simp)
    case h_1 todo hstage =>
      obtain rfl := Option.some.inj hstep
      refine inv_of_sublist h (le_refl _) (List.Sublist.refl _) (same_place rfl rfl) ?_
      rw [hstage]
      exact ⟨nofun, fun _ hx => hx⟩

/-- In a state as described, the next write of a thread meets an entry that was not refreshed. -/
theorem Inv.sparesLive (h : s.Inv) (e : HealthEvent) : s.SparesLive e := by
  cases e with
  | cleanRemove ok => exact fun _ ip hip => h.clean.dead (List.mem_of_mem_head? hip)
  | offlineUpdate ok offlineCheck =>
    exact fun _ ip hip => h.offline.dead (List.mem_of_mem_head? hip)
  | _ => trivial

/-! ## What a disturbance leads to -/

theorem one_removeClient_of_ne {clients : Clients} {ip ip' : GoString} (h : ip' ≠ ip) :
    one (removeClient clients ip') (ipSelector ip) = one clients (ipSelector ip) := by
  refine one_findAndRemove_disjoint fun d hd => ?_
  rw [ipSelector_iff] at hd
  rw [ipSelector, hd, beq_eq_false_iff_ne]
  exact h

theorem one_setOffline_of_ne {clients : Clients} {ip ip' : GoString} (h : ip' ≠ ip) :
    one (setOffline clients ip') (ipSelector ip) = one clients (ipSelector ip) := by
  have hsel : ∀ c : Client, ipSelector ip' c = true → ipSelector ip c = false := by
    intro c hc
    rw [ipSelector_iff] at hc
    rw [ipSelector, hc, beq_eq_false_iff_ne]
    exact h
  exact one_update_disjoint fun c hc => ⟨hsel c hc, hsel c hc⟩

/-- A run that drops a live host. -/
def Drops (s : HealthSystem) : Prop :=
  ∃ es s', run step s es = some s' ∧ ¬ Along step SparesLive s es

theorem Drops.of_step {e : HealthEvent} (hstep : s.step e = some s') (h : s'.Drops) : s.Drops := by
  obtain ⟨es, s'', hrun, hdrop⟩ := h
  exact ⟨e :: es, s'', run_cons_iff.mpr ⟨s', hstep, hrun⟩, fun h => hdrop (h.2 s' hstep)⟩

theorem Drops.of_event {e : HealthEvent} (hstep : s.step e = some s') (h : ¬ s.SparesLive e) :
    s.Drops :=
  ⟨[e], s', run_cons_iff.mpr ⟨s', hstep, rfl⟩, fun halong => h halong.1⟩

/-- `cleanThread` goes through its list until it comes to a live host. -/
theorem drops_of_clean {ip : GoString} {todo : List GoString} (hip : ip ∈ todo)
    (hclean : s.clean = .remove todo) (hlive : ¬ s.Dead hours72 ip) : s.Drops := by
  induction todo generalizing s with
  | nil => exact absurd hip List.not_mem_nil
  | cons ip' todo ih =>
    have hstep : s.step (.cleanRemove true) =
        some { s with clients := removeClient s.clients ip', clean := .remove todo } := by
      simp only [step, hclean]
      rfl
    by_cases heq : ip' = ip
    · refine Drops.of_event hstep fun hspared => hlive (hspared rfl ip ?_)
      rw [hclean, ← heq]
      rfl
    · refine Drops.of_step hstep (ih (List.mem_of_ne_of_mem (Ne.symm heq) hip) rfl fun hdead => ?_)
      refine hlive fun c hc => hdead c ?_
      show c ∈ one (removeClient s.clients ip') (ipSelector ip)
      rwa [one_removeClient_of_ne heq]

/-- So does `offlineCheckThread`. -/
theorem drops_of_offline {ip : GoString} {todo : List GoString} (hip : ip ∈ todo)
    (hstage : s.offline.stage = .update todo) (hlive : ¬ s.Dead minutes5 ip) : s.Drops := by
  induction todo generalizing s with
  | nil => exact absurd hip List.not_mem_nil
  | cons ip' todo ih =>
    have hstep : s.step (.offlineUpdate true false) =
        some { s with
          clients := setOffline s.clients ip'
          offline := { s.offline with stage := .update todo } } := by
      simp only [step, hstage]
      rfl
    by_cases heq : ip' = ip
    · refine Drops.of_event hstep fun hspared => hlive (hspared rfl ip ?_)
      rw [hstage, ← heq]
      rfl
    · refine Drops.of_step hstep (ih (List.mem_of_ne_of_mem (Ne.symm heq) hip) rfl fun hdead => ?_)
      refine hlive fun c hc => hdead c ?_
      show c ∈ one (setOffline s.clients ip') (ipSelector ip)
      rwa [one_setOffline_of_ne heq]

theorem drops_of_offline_todo {ip : GoString} (hip : ip ∈ s.offline.stage.todo)
    (hlive : ¬ s.Dead minutes5 ip) : s.Drops := by
  cases hstage : s.offline.stage with
  | query t =>
    rw [hstage] at hip
    exact absurd hip List.not_mem_nil
  | update todo =>
    rw [hstage] at hip
    exact drops_of_offline hip hstage hlive
  | ping todo =>
    rw [hstage] at hip
    have hstep : s.step .offlinePing =
        some { s with offline := { s.offline with stage := .update todo } } := by
      simp only [step, hstage]
    exact Drops.of_step hstep (drops_of_offline hip rfl hlive)

/-- After every disturbance the threads can go on to drop a live host. -/
theorem disturbed_drops {e : HealthEvent} (hstep : s.step e = some s') (hu : ¬ s.Undisturbed e) :
    s'.Drops := by
  cases e with
  | saveStep n ok =>
    simp only [Undisturbed, Classical.not_imp, not_forall] at hu
    obtain ⟨rfl, info, uptime, hsave, hboth⟩ := hu
    simp only [step, hsave, Option.map_some, Option.some.injEq] at hstep
    have hlive : ∀ limit, s'.Dead limit info.ip → uptime + limit ≤ s.now := by
      intro limit hdead
      obtain ⟨c, hc, huptime⟩ := @one_upsertInfo s.clients info uptime
      subst hstep
      exact huptime ▸ hdead c hc
    rcases not_and_or.mp hboth with h | h
    · obtain ⟨hip, hnew⟩ := Classical.not_imp.mp h
      cases hclean : s.clean with
      | query t =>
        rw [hclean] at hip
        exact absurd hip List.not_mem_nil
      | remove todo =>
        rw [hclean] at hip
        refine drops_of_clean hip ?_ fun hdead => hnew (hlive _ hdead)
        subst hstep
        exact hclean
    · obtain ⟨hip, hnew⟩ := Classical.not_imp.mp h
      refine drops_of_offline_todo ?_ fun hdead => hnew (hlive _ hdead)
      subst hstep
      exact hip
  | offlineQuery answer =>
    cases answer with
    | some ips => exact absurd trivial hu
    | none =>
      simp only [Undisturbed, not_forall] at hu
      obtain ⟨ip, hip, hlive⟩ := hu
      rw [step] at hstep
      split at hstep
      case h_2 => exact absurd hstep (by simp)
      case h_1 t hstage =>
        obtain ⟨-, rfl⟩ := guard_iff.mp hstep
        exact drops_of_offline hip rfl hlive
  | _ => exact absurd trivial hu

end HealthSystem

/-- In a run that nothing disturbs, no live host is dropped. -/
theorem live_hosts_spared {now : ℕ} {clients : Clients} (hips : (clients.map Client.ip).Nodup)
    {es : List HealthEvent}
    (hu : Along HealthSystem.step HealthSystem.Undisturbed (.start now clients) es) :
    Along HealthSystem.step HealthSystem.SparesLive (.start now clients) es :=
  Along.of_invariant (fun _ _ _ h hu hstep => HealthSystem.inv_step h hu hstep)
    (fun _ e h _ => h.sparesLive e) ⟨hips, HealthSystem.sound_nil, HealthSystem.sound_nil⟩ hu

def webInfo : ComputerInfo := ⟨str "10.0.0.7", str "linux", str "web", str "web", []⟩

def labInfo : ComputerInfo := ⟨str "10.0.0.8", str "linux", str "lab", [], []⟩

/-- The lab host is removed after 72 hours, while the web host reports. -/
theorem live_hosts_spared_web :
    Along HealthSystem.step HealthSystem.SparesLive
      (.start hours72 [⟨webInfo, 1, some 0⟩, ⟨labInfo, 0, some 1⟩])
      [.cleanClock, .cleanQuery (some [labInfo.ip]), .save webInfo, .saveStep 0 true,
        .cleanRemove true] := by
  refine live_hosts_spared (by decide) ?_
  refine .cons rfl trivial (.cons rfl trivial (.cons rfl trivial (.cons rfl ?_
    (.cons rfl trivial trivial))))
  rintro - info uptime hsave
  obtain ⟨rfl, rfl⟩ := Save.upsert.inj (Option.some.inj hsave)
  exact ⟨by decide, nofun⟩

/-- A host that was away for 72 hours reports between the query of `cleanThread` and the removal. -/
def reportBeforeRemoval : List HealthEvent :=
  [.cleanClock, .cleanQuery (some [webInfo.ip]), .save webInfo, .saveStep 0 true, .cleanRemove true]

/-- A host that was away for 5 minutes has reported when the next query fails. -/
def reportBeforeFailure : List HealthEvent :=
  [.offlineClock, .offlineQuery (some [webInfo.ip]), .offlineUpdate true false, .save webInfo,
    .saveStep 0 true, .saveStep 0 true, .offlineClock, .offlineQuery none, .offlineUpdate true false]

/-- In the first run the entry that has just been refreshed is removed, in the second one its host is
set to health 1. -/
theorem live_host_dropped :
    (∃ s, run HealthSystem.step (.start hours72 [⟨webInfo, 0, some 1⟩]) reportBeforeRemoval = some s ∧
      s.clients = [] ∧ ¬ Along HealthSystem.step HealthSystem.SparesLive
        (.start hours72 [⟨webInfo, 0, some 1⟩]) reportBeforeRemoval) ∧
    ∃ s, run HealthSystem.step (.start minutes5 [⟨webInfo, 0, some 0⟩]) reportBeforeFailure = some s ∧
      s.clients = [⟨webInfo, minutes5, some 1⟩] ∧
      ¬ Along HealthSystem.step HealthSystem.SparesLive
        (.start minutes5 [⟨webInfo, 0, some 0⟩]) reportBeforeFailure := by
  refine ⟨⟨_, rfl, rfl, fun hspared => ?_⟩, _, rfl, rfl, fun hspared => ?_⟩
  · have hlast := Along.after (reportBeforeRemoval.take 4) (.cleanRemove true) [] hspared rfl
    exact absurd (hlast rfl webInfo.ip rfl _ rfl) (by decide)
  · have hlast := Along.after (reportBeforeFailure.take 8) (.offlineUpdate true false) [] hspared rfl
    exact absurd (hlast rfl webInfo.ip rfl _ rfl) (by decide)

end YulongHids.Server
