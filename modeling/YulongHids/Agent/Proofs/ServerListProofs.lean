import YulongHids.Agent.ServerList

/-!
# Proofs: the list of the servers

`newClient` only adds to the address list, so it is the list of all servers that the agent ever had.
-/

namespace YulongHids.Agent

open Golang Transition

variable {a a' : AgentState} {dial : GoString → Option GoString} {servers : List GoString}
  {r : Refresh}

/-! ## The loop of newClient -/

theorem newClientLoop_lists (h : newClientLoop dial servers a = some a') :
    a'.serverList = a.serverList ∧ a'.serverIPList = a.serverIPList ++ servers.map ipPart := by
  induction servers generalizing a with
  | nil =>
    obtain rfl : a = a' := Option.some.inj h
    exact ⟨rfl, (List.append_nil _).symm⟩
  | cons server servers ih =>
    have hips : a.serverIPList ++ [ipPart server] ++ servers.map ipPart =
        a.serverIPList ++ (server :: servers).map ipPart := by
      rw [List.append_assoc, List.singleton_append, List.map_cons]
    rw [newClientLoop] at h
    dsimp only at h
    split at h
    · split at h
      · cases h
      · obtain ⟨hlist, hip⟩ := ih h
        exact ⟨hlist, hip.trans hips⟩
    · obtain ⟨hlist, hip⟩ := ih h
      exact ⟨hlist, hip.trans hips⟩

/-- With a local address the loop does not dial. -/
theorem newClientLoop_local (hlocal : a.localIP ≠ []) :
    newClientLoop dial servers a =
      some { a with
        serverIPList := a.serverIPList ++ servers.map ipPart
        client := a.client ++ servers } := by
  induction servers generalizing a with
  | nil => simp [newClientLoop]
  | cons server servers ih =>
    rw [newClientLoop]
    dsimp only
    rw [if_neg hlocal]
    refine (ih ?_).trans ?_
    · exact hlocal
    · simp only [List.append_assoc, List.singleton_append, List.map_cons]

/-- The state after a new list of servers. -/
def AgentState.replaced (a : AgentState) (serverList : List GoString) : AgentState where
  serverList := serverList
  client := serverList
  localIP := a.localIP
  serverIPList := a.serverIPList ++ serverList.map ipPart

theorem newClient_local (hlocal : a.localIP ≠ []) (serverList : List GoString) :
    newClient dial { a with serverList := serverList } = some (a.replaced serverList) := by
  rw [newClient]
  refine (newClientLoop_local ?_).trans rfl
  exact hlocal

/-! ## A refresh -/

theorem anyMoved_eq_false_iff {l l' : List GoString} (hlen : l.length = l'.length) :
    anyMoved l l' = false ↔ l = l' := by
  induction l generalizing l' with
  | nil =>
    obtain rfl := List.length_eq_zero_iff.mp hlen.symm
    exact iff_of_true rfl rfl
  | cons x l ih =>
    obtain ⟨y, l', rfl⟩ := List.exists_cons_of_length_eq_add_one hlen.symm
    rw [anyMoved, Bool.or_eq_false_iff, ih (Nat.succ.inj hlen), bne_eq_false_iff_eq, List.cons.injEq]

/-- A refresh puts a list that is not empty in the place of another one, or leaves everything. -/
theorem configRefresh_cases (hlocal : a.localIP ≠ []) (r : Refresh) :
    (configRefresh a r = some a ∧ (r.getInfo = true →
      ∀ l, r.getServerList = some l → l ≠ [] → l = a.serverList)) ∨
    ∃ l, r.getInfo = true ∧ r.getServerList = some l ∧ l ≠ [] ∧
      configRefresh a r = some (a.replaced l) := by
  unfold configRefresh
  cases hinfo : r.getInfo with
  | false => exact Or.inl ⟨rfl, nofun⟩
  | true =>
    cases hget : r.getServerList with
    | none => exact Or.inl ⟨rfl, nofun⟩
    | some l =>
      dsimp only
      by_cases hnil : l = []
      · rw [if_pos hnil]
        refine Or.inl ⟨rfl, fun _ l' hl' hne => ?_⟩
        obtain rfl := Option.some.inj hl'
        exact absurd hnil hne
      rw [if_neg hnil]
      by_cases hlen : l.length = a.serverList.length
      · rw [if_pos hlen]
        cases hmoved : anyMoved l a.serverList with
        | false =>
          refine Or.inl ⟨rfl, fun _ l' hl' _ => ?_⟩
          obtain rfl := Option.some.inj hl'
          exact (anyMoved_eq_false_iff hlen).mp hmoved
        | true => exact Or.inr ⟨l, rfl, rfl, hnil, newClient_local hlocal l⟩
      · rw [if_neg hlen]
        exact Or.inr ⟨l, rfl, rfl, hnil, newClient_local hlocal l⟩

theorem localIP_configRefresh (hlocal : a.localIP ≠ []) (h : configRefresh a r = some a') :
    a'.localIP ≠ [] := by
  rcases configRefresh_cases hlocal r with ⟨hr, -⟩ | ⟨l, -, -, -, hr⟩
  · obtain rfl := Option.some.inj (hr.symm.trans h)
    exact hlocal
  · obtain rfl := Option.some.inj (hr.symm.trans h)
    exact hlocal

/-! ## What the agent knows -/

theorem inArray_exact {txt : TextLib} {list : List GoString} {value : GoString} :
    inArray txt list value false = true ↔ value ∈ list := by
  simp [inArray, List.any_eq_true]

theorem serversKnown_iff_ips :
    ServersKnown a ↔ ∀ ip, ip ∈ a.serverIPList ↔ ip ∈ a.serverList.map ipPart := by
  refine ⟨fun h => h.ips, fun hips => ⟨hips, fun txt srcAddr destAddr => ?_⟩⟩
  simp only [sniffed, Bool.and_eq_true, Bool.or_eq_true, beq_iff_eq, Bool.not_eq_true',
    ← Bool.not_eq_true, inArray_exact, hips, and_assoc]

theorem serversKnown_replaced_iff (h : ServersKnown a) (l : List GoString) :
    ServersKnown (a.replaced l) ↔ ∀ ip ∈ a.serverList.map ipPart, ip ∈ l.map ipPart := by
  rw [serversKnown_iff_ips]
  constructor
  · intro hall ip hip
    exact (hall ip).mp (List.mem_append_left _ ((h.ips ip).mpr hip))
  · intro hall ip
    rw [AgentState.replaced, List.mem_append, h.ips]
    exact ⟨fun hip => hip.elim (hall ip) id, Or.inr⟩

theorem init_known {env : Startup} (h : init env = some a) :
    ServersKnown a ∧ a.localIP ≠ [] := by
  unfold init at h
  cases hget : env.getServerList with
  | none =>
    rw [hget] at h
    cases h
  | some l =>
    simp only [hget] at h
    split at h
    · cases h
    split at h
    · cases h
    next a1 hnew =>
      split at h
      · cases h
      next hok =>
        obtain rfl := Option.some.inj h
        obtain ⟨hlist, hips⟩ := newClientLoop_lists hnew
        refine ⟨serversKnown_iff_ips.mpr fun ip => ?_, (not_or.mp hok).1⟩
        rw [hips, hlist]
        exact Iff.rfl

/-- One refresh keeps what the agent knows exactly if no server leaves. -/
theorem refresh_known_iff (h : ServersKnown a) (hlocal : a.localIP ≠ []) :
    (∀ a', configRefresh a r = some a' → ServersKnown a') ↔ NoneLeaves a r := by
  rcases configRefresh_cases hlocal r with ⟨hr, hsame⟩ | ⟨l, hinfo, hget, hne, hr⟩
  · refine iff_of_true (fun a' ha' => Option.some.inj (hr.symm.trans ha') ▸ h) ?_
    intro hinfo l hget hne ip hip
    rwa [hsame hinfo l hget hne]
  · have hnext : (∀ a', configRefresh a r = some a' → ServersKnown a') ↔
        ServersKnown (a.replaced l) := by
      rw [hr]
      exact ⟨fun hall => hall _ rfl, fun hk a' ha' => Option.some.inj ha' ▸ hk⟩
    rw [hnext, serversKnown_replaced_iff h]
    constructor
    · intro hall _ l' hl' _
      obtain rfl := Option.some.inj (hget.symm.trans hl')
      exact hall
    · intro hall
      exact hall hinfo l hget hne

theorem exists_run (hlocal : a.localIP ≠ []) (rs : List Refresh) :
    ∃ a', run configRefresh a rs = some a' := by
  induction rs generalizing a with
  | nil => exact ⟨a, rfl⟩
  | cons r rs ih =>
    obtain ⟨a1, h1⟩ : ∃ a1, configRefresh a r = some a1 := by
      rcases configRefresh_cases hlocal r with ⟨hr, -⟩ | ⟨l, -, -, -, hr⟩
      · exact ⟨_, hr⟩
      · exact ⟨_, hr⟩
    obtain ⟨a2, h2⟩ := ih (localIP_configRefresh hlocal h1)
    exact ⟨a2, run_cons_iff.mpr ⟨a1, h1, h2⟩⟩

/-- After each refresh the agent knows exactly its servers, exactly if no list lacks the address of a
server of the list before. -/
theorem serversKnown_iff (env : Startup) (a : AgentState) (hinit : init env = some a)
    (rs : List Refresh) :
    (∀ rs1 a1, rs1 <+: rs → run configRefresh a rs1 = some a1 → ServersKnown a1) ↔
      Along configRefresh NoneLeaves a rs := by
  obtain ⟨hknown, hlocal⟩ := init_known hinit
  obtain ⟨a', hrun⟩ := exists_run hlocal rs
  rw [forall_reached_iff hknown]
  refine along_iff_of_invariant (I := fun a => ServersKnown a ∧ a.localIP ≠ [])
    (R := fun _ _ => True) (along_true a rs) ?_ ?_ ⟨hknown, hlocal⟩ hrun
  · rintro a r a1 ⟨-, hlocal⟩ - hnext hstep
    exact ⟨hnext a1 hstep, localIP_configRefresh hlocal hstep⟩
  · rintro a r a1 ⟨hknown, hlocal⟩ - -
    exact refresh_known_iff hknown hlocal

/-- A server at startup, and another one in its place. -/
def oneServer : Startup where
  getServerList := some [str "10.0.0.1:33433"]
  dial := fun _ => some (str "10.0.0.7:41022")
  getInfo := true

def otherServer : Refresh where
  getInfo := true
  getServerList := some [str "10.0.0.2:33433"]
  dial := fun _ => none

def moreServers : Refresh where
  getInfo := true
  getServerList := some [str "10.0.0.1:33433", str "10.0.0.2:33433"]
  dial := fun _ => none

/-- A second server joins the first one. -/
theorem serversKnown_moreServers : ∃ a a', init oneServer = some a ∧
    configRefresh a moreServers = some a' ∧ ServersKnown a' := by
  refine ⟨_, _, rfl, rfl, ?_⟩
  refine (serversKnown_iff oneServer _ rfl [moreServers]).mpr (Along.cons rfl ?_ trivial)
    [moreServers] _ List.prefix_rfl rfl
  rintro - l hl - ip hip
  obtain rfl := Option.some.inj hl
  exact List.mem_cons.mpr (Or.inl (List.mem_singleton.mp hip))

/-- Packets from and to the first server stay unrecorded when it has left. -/
theorem server_stays : ¬ ∀ env a rs, init env = some a → ∀ rs1 a1, rs1 <+: rs →
    run configRefresh a rs1 = some a1 → ServersKnown a1 := by
  intro hall
  have h := hall oneServer _ [otherServer] rfl [otherServer] _ List.prefix_rfl rfl
  have hgone : ipPart (str "10.0.0.1:33433") ∉ [str "10.0.0.2:33433"].map ipPart := by
    decide
  exact hgone ((h.ips _).mp (List.mem_cons_self))

end YulongHids.Agent
