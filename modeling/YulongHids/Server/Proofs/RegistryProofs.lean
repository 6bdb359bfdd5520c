import YulongHids.Transition.History
import YulongHids.Server.Registry

/-!
# Proofs: the register of the servers

The collection remembers the last time each server was heard of, and the daemon the last list it
got. So a connection is let in exactly if its server was alive when that list was made.
-/

namespace YulongHids.Server

open Golang Mongo Transition

/-! ## The collection -/

section Registrations

variable {servers : Collection Registration} {localIP : GoString} {now : ℕ}

theorem netlocOf_inj {a b : GoString} : netlocOf a = netlocOf b ↔ a = b :=
  List.append_left_inj _

theorem exists_mem_update {α : Type*} {c : Collection α} {p : α → Bool} {f : α → α}
    (h : ∃ d ∈ c, p d = true) : ∃ d ∈ c, p d = true ∧ f d ∈ update c p f := by
  induction c with
  | nil =>
    obtain ⟨d, hd, -⟩ := h
    cases hd
  | cons e c ih =>
    cases hp : p e with
    | true => exact ⟨e, List.mem_cons_self, hp, by simp [update, hp]⟩
    | false =>
      obtain ⟨d, hd, hpd⟩ := h
      rcases List.mem_cons.mp hd with rfl | hd
      · rw [hp] at hpd
        cases hpd
      · obtain ⟨d', hd', hp', hmem⟩ := ih ⟨d, hd, hpd⟩
        refine ⟨d', List.mem_cons_of_mem _ hd', hp', ?_⟩
        simp only [update, hp, Bool.false_eq_true, if_false]
        exact List.mem_cons_of_mem _ hmem

theorem mem_update_of_not {α : Type*} {c : Collection α} {p : α → Bool} {f : α → α} {d : α}
    (hd : d ∈ c) (hp : p d = false) : d ∈ update c p f := by
  induction c with
  | nil => cases hd
  | cons e c ih =>
    rw [update]
    rcases List.mem_cons.mp hd with rfl | hd
    · rw [hp]
      exact List.mem_cons_self
    · split_ifs
      · exact List.mem_cons_of_mem _ hd
      · exact List.mem_cons_of_mem _ (ih hd)

/-- After a server was registered its document has the time of it. -/
theorem exists_regServer (servers : Collection Registration) (localIP : GoString) (now : ℕ) :
    ∃ r ∈ regServer servers localIP now, r.netloc = netlocOf localIP ∧ r.uptime = now := by
  rw [regServer]
  split_ifs with hcount
  · rw [one_le_count_iff, one, List.find?_isSome] at hcount
    obtain ⟨d, -, hp, hmem⟩ := exists_mem_update (f := fun r : Registration => { r with uptime := now }) hcount
    exact ⟨_, hmem, beq_iff_eq.mp hp, rfl⟩
  · exact ⟨_, List.mem_append_right _ (List.mem_singleton_self _), rfl, rfl⟩

/-- The documents afterwards: that one, and others that were there. -/
theorem mem_regServer {r : Registration} (h : r ∈ regServer servers localIP now) :
    r ∈ servers ∨ r.netloc = netlocOf localIP ∧ r.uptime = now := by
  rw [regServer] at h
  split_ifs at h
  · rcases mem_update h with h | ⟨d, -, hp, rfl⟩
    · exact Or.inl h
    · exact Or.inr ⟨beq_iff_eq.mp hp, rfl⟩
  · rcases List.mem_append.mp h with h | h
    · exact Or.inl h
    · rw [List.mem_singleton.mp h]
      exact Or.inr ⟨rfl, rfl⟩

theorem mem_regServer_of_ne {r : Registration} (h : r ∈ servers)
    (hne : r.netloc ≠ netlocOf localIP) : r ∈ regServer servers localIP now := by
  rw [regServer]
  split_ifs
  · exact mem_update_of_not h (beq_eq_false_iff_ne.mpr hne)
  · exact List.mem_append_left _ h

/-- The servers of the list are those with a document of the last minute. -/
theorem isServer_getAliveServerList {ip : GoString} :
    isServer (getAliveServerList servers now) ip = true ↔
      ∃ r ∈ servers, hostPart r.netloc = ip ∧ now ≤ r.uptime + oneMinute := by
  rw [isServer, List.any_eq_true]
  simp only [getAliveServerList, List.mem_map, mem_find_all, beq_iff_eq, decide_eq_true_eq]
  constructor
  · rintro ⟨_, ⟨r, ⟨hr, hfresh⟩, rfl⟩, rfl⟩
    exact ⟨r, hr, rfl, hfresh⟩
  · rintro ⟨r, hr, rfl, hfresh⟩
    exact ⟨_, ⟨r, ⟨hr, hfresh⟩, rfl⟩, rfl⟩

end Registrations

/-! ## What the collection remembers -/

section Run

variable {s0 s : Registry} {es : List RegistryEvent}

/-- Every document is of a server that registered at its time, and no server registered later. -/
structure Remembers (s0 : Registry) (es : List RegistryEvent) (s : Registry) : Prop where
  beat : ∀ r ∈ s.servers, ∃ es0 localIP es1 t, es = es0 ++ .heartbeat localIP true :: es1 ∧
    run Registry.step s0 es0 = some t ∧ r.netloc = netlocOf localIP ∧ r.uptime = t.now
  latest : ∀ es0 localIP es1 t, es = es0 ++ .heartbeat localIP true :: es1 →
    run Registry.step s0 es0 = some t →
    ∃ r ∈ s.servers, r.netloc = netlocOf localIP ∧ t.now ≤ r.uptime
  now : ∀ r ∈ s.servers, r.uptime ≤ s.now

/-- An event that is no successful heartbeat leaves the documents, and no time goes back. -/
theorem Remembers.of_same (h : Remembers s0 es s) {e : RegistryEvent} {s' : Registry}
    (he : ∀ localIP, e ≠ .heartbeat localIP true) (hservers : s'.servers = s.servers)
    (hnow : s.now ≤ s'.now) : Remembers s0 (es ++ [e]) s' := by
  refine ⟨fun r hr => ?_, fun es0 localIP es1 t hsplit hrun => ?_, fun r hr => ?_⟩
  · rw [hservers] at hr
    obtain ⟨es0, localIP, es1, t, hes, hrun, hloc, htime⟩ := h.beat r hr
    exact ⟨es0, localIP, _, t, place_append hes [e], hrun, hloc, htime⟩
  · rw [hservers]
    rcases place_concat hsplit with ⟨-, hx, -⟩ | ⟨post', -, hes⟩
    · exact absurd hx.symm (he localIP)
    · exact h.latest es0 localIP post' t hes hrun
  · rw [hservers] at hr
    exact le_trans (h.now r hr) hnow

/-- A successful heartbeat. -/
theorem Remembers.of_heartbeat (h : Remembers s0 es s) (hrun : run Registry.step s0 es = some s)
    (localIP : GoString) :
    Remembers s0 (es ++ [.heartbeat localIP true])
      { s with servers := regServer s.servers localIP s.now } := by
  refine ⟨fun r hr => ?_, fun es0 ip es1 t hsplit ht => ?_, fun r hr => ?_⟩
  · rcases mem_regServer hr with hr | ⟨hloc, htime⟩
    · obtain ⟨es0, ip, es1, t, hes, ht, hloc, htime⟩ := h.beat r hr
      exact ⟨es0, ip, _, t, place_append hes _, ht, hloc, htime⟩
    · exact ⟨es, localIP, [], s, rfl, hrun, hloc, htime⟩
  · rcases place_concat hsplit with ⟨rfl, hx, -⟩ | ⟨post', -, hes⟩
    · obtain ⟨rfl, -⟩ := RegistryEvent.heartbeat.inj hx
      obtain rfl : s = t := Option.some.inj (hrun.symm.trans ht)
      obtain ⟨r, hr, hloc, htime⟩ := exists_regServer s.servers ip s.now
      exact ⟨r, hr, hloc, htime.ge⟩
    · obtain ⟨r, hr, hloc, htime⟩ := h.latest es0 ip post' t hes ht
      by_cases heq : ip = localIP
      · subst heq
        obtain ⟨r', hr', hloc', htime'⟩ := exists_regServer s.servers ip s.now
        exact ⟨r', hr', hloc', le_trans (le_trans htime (h.now r hr)) htime'.ge⟩
      · refine ⟨r, mem_regServer_of_ne hr ?_, hloc, htime⟩
        rw [hloc]
        exact fun hnet => heq (netlocOf_inj.mp hnet)
  · rcases mem_regServer hr with hr | ⟨-, htime⟩
    · exact h.now r hr
    · exact htime.le

theorem remembers_run {now : ℕ} (hrun : run Registry.step (Registry.start now) es = some s) :
    Remembers (Registry.start now) es s := by
  refine run_induction (motive := Remembers (Registry.start now)) ?_ ?_ hrun
  · refine ⟨fun r hr => ?_, fun es0 localIP es1 t hsplit _ => ?_, fun r hr => ?_⟩
    · cases hr
    · exact absurd hsplit (by simp)
    · cases hr
  · intro es s' e t hrun ih hstep
    cases e with
    | tick d =>
      rw [← Option.some.inj hstep]
      exact ih.of_same nofun rfl (Nat.le_add_right _ _)
    | heartbeat localIP ok =>
      rw [← Option.some.inj hstep]
      cases ok with
      | true => exact ih.of_heartbeat hrun localIP
      | false => exact ih.of_same nofun rfl le_rfl
    | connect remoteAddr fetch =>
      rw [← Option.some.inj hstep]
      exact ih.of_same nofun rfl le_rfl

/-- A list that is made now has the servers that were alive in the last minute. -/
theorem isServer_alive_iff {now : ℕ} (hrun : run Registry.step (Registry.start now) es = some s)
    (ip : GoString) :
    isServer (getAliveServerList s.servers s.now) ip = true ↔
      BeatWithin (Registry.start now) es ip s.now := by
  have h := remembers_run hrun
  rw [isServer_getAliveServerList]
  constructor
  · rintro ⟨r, hr, rfl, hfresh⟩
    obtain ⟨es0, localIP, es1, t, hes, ht, hloc, htime⟩ := h.beat r hr
    exact ⟨es0, localIP, es1, t, hes, ht, by rw [hloc], htime ▸ hfresh⟩
  · rintro ⟨es0, localIP, es1, t, hes, ht, rfl, hfresh⟩
    obtain ⟨r, hr, hloc, htime⟩ := h.latest es0 localIP es1 t hes ht
    exact ⟨r, hr, by rw [hloc], by omega⟩

/-! ## What the daemon remembers -/

/-- An event that brings no new list. -/
theorem lastListHas_concat_of_not {e : RegistryEvent} (he : ¬ e.Replaces) (ip : GoString) :
    LastListHas s0 (es ++ [e]) ip ↔ LastListHas s0 es ip := by
  constructor
  · rintro ⟨es1, remoteAddr, es2, s1, hsplit, hlast, hrun, hbeat⟩
    rcases place_concat hsplit with ⟨-, hx, -⟩ | ⟨post', rfl, hes⟩
    · exact absurd (hx ▸ trivial) he
    · exact ⟨es1, remoteAddr, post', s1, hes,
        fun e' he' => hlast e' (List.mem_append_left _ he'), hrun, hbeat⟩
  · rintro ⟨es1, remoteAddr, es2, s1, hes, hlast, hrun, hbeat⟩
    refine ⟨es1, remoteAddr, es2 ++ [e], s1, place_append hes [e], fun e' he' => ?_, hrun, hbeat⟩
    rcases List.mem_append.mp he' with he' | he'
    · exact hlast e' he'
    · rw [List.mem_singleton.mp he']
      exact he

/-- An event that does. -/
theorem lastListHas_concat_of_replaces {e : RegistryEvent} (he : e.Replaces) (ip : GoString) :
    LastListHas s0 (es ++ [e]) ip ↔
      (∃ remoteAddr, e = .connect remoteAddr .list) ∧ ∃ s1, run Registry.step s0 es = some s1 ∧
        BeatWithin s0 es ip s1.now := by
  constructor
  · rintro ⟨es1, remoteAddr, es2, s1, hsplit, hlast, hrun, hbeat⟩
    rcases place_concat hsplit with ⟨rfl, hx, -⟩ | ⟨post', rfl, -⟩
    · exact ⟨⟨remoteAddr, hx.symm⟩, s1, hrun, hbeat⟩
    · exact absurd he (hlast e (List.mem_append_right _ (List.mem_singleton_self e)))
  · rintro ⟨⟨remoteAddr, rfl⟩, s1, hrun, hbeat⟩
    exact ⟨es, remoteAddr, [], s1, rfl, fun _ h => absurd h List.not_mem_nil, hrun, hbeat⟩

/-- The list of the daemon is the last one that it got. -/
theorem isServer_serverList_iff {now : ℕ}
    (hrun : run Registry.step (Registry.start now) es = some s) (ip : GoString) :
    isServer s.serverList ip = true ↔ LastListHas (Registry.start now) es ip := by
  refine run_induction (motive := fun es s => isServer s.serverList ip = true ↔
    LastListHas (Registry.start now) es ip) ?_ ?_ hrun
  · refine iff_of_false (by simp [Registry.start, isServer]) ?_
    rintro ⟨es1, remoteAddr, es2, s1, hsplit, -⟩
    exact absurd hsplit (by simp)
  · intro es s' e t hrun ih hstep
    cases e with
    | tick d =>
      rw [← Option.some.inj hstep, lastListHas_concat_of_not id]
      exact ih
    | heartbeat localIP ok =>
      rw [← Option.some.inj hstep, lastListHas_concat_of_not id, ← ih]
      cases ok <;> rfl
    | connect remoteAddr fetch =>
      rw [← Option.some.inj hstep]
      cases fetch with
      | failed =>
        rw [lastListHas_concat_of_not id]
        exact ih
      | empty =>
        rw [lastListHas_concat_of_replaces (show RegistryEvent.Replaces (.connect _ .empty) from trivial)]
        refine iff_of_false (by simp [setServerList, isServer]) ?_
        rintro ⟨⟨_, h⟩, -⟩
        cases h
      | list =>
        rw [lastListHas_concat_of_replaces (show RegistryEvent.Replaces (.connect _ .list) from trivial)]
        have halive := isServer_alive_iff hrun ip
        constructor
        · intro h
          exact ⟨⟨remoteAddr, rfl⟩, s', hrun, halive.mp h⟩
        · rintro ⟨-, s1, hs1, hbeat⟩
          obtain rfl : s' = s1 := Option.some.inj (hrun.symm.trans hs1)
          exact halive.mpr hbeat

end Run

/-- In every run, a connection is let in if and only if the last list that the daemon got by then, this
connection's included, was made when a server with its address had registered within a minute. -/
theorem accepts_iff (now : ℕ) (es : List RegistryEvent) (s : Registry)
    (hrun : run Registry.step (Registry.start now) es = some s) (remoteAddr : GoString)
    (fetch : Fetch) :
    s.accepts remoteAddr fetch = true ↔
      LastListHas (Registry.start now) (es ++ [.connect remoteAddr fetch]) (hostPart remoteAddr) := by
  have hstep : run Registry.step (Registry.start now) (es ++ [.connect remoteAddr fetch]) =
      some { s with serverList := setServerList s.serverList s.servers s.now fetch } :=
    run_concat_iff.mpr ⟨s, hrun, rfl⟩
  exact isServer_serverList_iff hstep (hostPart remoteAddr)

/-- A server that registered is let in later, after a request that failed. -/
theorem accepts_after_failure :
    LastListHas (Registry.start 0)
      [.heartbeat (str "10.0.0.1") true, .tick 60000, .connect (str "10.0.0.1:4000") .list,
        .tick 90000, .connect (str "10.0.0.1:4001") .failed] (hostPart (str "10.0.0.1:4001")) :=
  (accepts_iff 0 [.heartbeat (str "10.0.0.1") true, .tick 60000,
    .connect (str "10.0.0.1:4000") .list, .tick 90000] _ rfl (str "10.0.0.1:4001") .failed).mp
    (by decide)

end YulongHids.Server
