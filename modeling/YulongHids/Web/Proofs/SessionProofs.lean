import YulongHids.Web.Proofs.TwoFactorProofs
import YulongHids.Web.Session

/-!
# Proofs: sessions of the console

The list of the provider is ordered by the last access, so the collection from its back drops the
sessions that have not been used for the maximal lifetime, and no other. What a session remembers of
its run is then whether its last login was undone, and the history of codes remembers the last six.
-/

namespace YulongHids.Web

open Golang Transition

/-! ## The memory provider -/

/-- Dropping from the end of a list in which `f` holds of all elements behind one of which it holds. -/
theorem mem_rdropWhile_iff {α : Type*} {f : α → Bool} {l : List α} {a : α}
    (h : l.Pairwise fun x y => f x = true → f y = true) :
    a ∈ l.rdropWhile f ↔ a ∈ l ∧ f a = false := by
  induction l using List.reverseRecOn with
  | nil => simp
  | append_singleton l x ih =>
    obtain ⟨hl, -, hx⟩ := List.pairwise_append.mp h
    cases hfx : f x with
    | true =>
      rw [List.rdropWhile_concat_pos _ _ _ hfx, ih hl, List.mem_append, List.mem_singleton]
      constructor
      · rintro ⟨ha, hfa⟩
        exact ⟨Or.inl ha, hfa⟩
      · rintro ⟨ha | rfl, hfa⟩
        · exact ⟨ha, hfa⟩
        · rw [hfx] at hfa
          cases hfa
    | false =>
      rw [List.rdropWhile_concat_neg _ _ _ (by simp [hfx]), List.mem_append, List.mem_singleton]
      refine ⟨fun ha => ⟨ha, ?_⟩, And.left⟩
      rcases ha with ha | rfl
      · by_contra hfa
        rw [hx a ha x (List.mem_singleton_self x) (by simpa using hfa)] at hfx
        cases hfx
      · exact hfx

namespace MemProvider

/-- One session for an id, the last used in front. -/
structure Ordered (now : ℕ) (p : MemProvider) : Prop where
  nodup : (p.map MemSession.sid).Nodup
  sorted : p.Pairwise fun a b => b.timeAccessed ≤ a.timeAccessed
  bounded : ∀ sess ∈ p, sess.timeAccessed ≤ now

variable {p : MemProvider} {sid sid' user : GoString} {now maxlifetime : ℕ} {sess a b : MemSession}

theorem sessionExist_eq_false_iff : p.sessionExist sid = false ↔ ∀ sess ∈ p, sess.sid ≠ sid := by
  simp [sessionExist]

theorem Ordered.eq_of_sid (h : Ordered now p) (ha : a ∈ p) (hb : b ∈ p) (hsid : a.sid = b.sid) :
    a = b :=
  List.inj_on_of_nodup_map h.nodup ha hb hsid

theorem mem_sessionRead : sess ∈ p.sessionRead sid now ↔
    sess ∈ p ∨ p.sessionExist sid = false ∧ sess = ⟨sid, now, none⟩ := by
  rw [sessionRead]
  split_ifs with hexist
  · simp [hexist]
  · rw [List.mem_cons, Bool.eq_false_of_not_eq_true hexist, or_comm]
    simp

theorem find?_sid (h : Ordered now p) (hsess : sess ∈ p) :
    p.find? (fun s => s.sid == sess.sid) = some sess := by
  cases hfind : p.find? (fun s => s.sid == sess.sid) with
  | none =>
    rw [List.find?_eq_none] at hfind
    exact absurd (beq_self_eq_true _) (hfind sess hsess)
  | some a =>
    have ha := List.find?_some hfind
    rw [h.eq_of_sid (List.mem_of_find?_eq_some hfind) hsess (beq_iff_eq.mp ha)]

theorem sessionUpdate_of_not_mem (h : ∀ sess ∈ p, sess.sid ≠ sid) : p.sessionUpdate sid now = p := by
  have hfind : p.find? (fun sess => sess.sid == sid) = none := by
    rw [List.find?_eq_none]
    intro sess hsess
    simpa using h sess hsess
  simp [sessionUpdate, hfind]

/-- The other sessions keep their order. -/
theorem sessionUpdate_of_mem (h : Ordered now p) (hsess : sess ∈ p) :
    p.sessionUpdate sess.sid now =
      { sess with timeAccessed := now } :: p.eraseP fun a => a.sid == sess.sid := by
  simp [sessionUpdate, find?_sid h hsess]

theorem mem_eraseP_sid (h : Ordered now p) :
    a ∈ p.eraseP (fun sess => sess.sid == sid) ↔ a ∈ p ∧ a.sid ≠ sid := by
  constructor
  · intro ha
    refine ⟨List.mem_of_mem_eraseP ha, fun hsid => ?_⟩
    subst hsid
    have hp := List.mem_of_mem_eraseP ha
    have ha' : (a.sid == a.sid) = true := beq_self_eq_true a.sid
    obtain ⟨x, l₁, l₂, -, hx, hsplit, herase⟩ :=
      List.exists_of_eraseP (p := fun sess : MemSession => sess.sid == a.sid) hp ha'
    have hmem : x ∈ p := by
      rw [hsplit]
      exact List.mem_append_right _ List.mem_cons_self
    obtain rfl : x = a := h.eq_of_sid hmem hp (beq_iff_eq.mp hx)
    have hnodup := h.nodup
    rw [hsplit, List.map_append, List.map_cons, List.nodup_middle, List.nodup_cons,
      ← List.map_append] at hnodup
    rw [herase] at ha
    exact hnodup.1 (List.mem_map_of_mem ha)
  · rintro ⟨ha, hsid⟩
    rwa [List.mem_eraseP_of_neg (by simpa using hsid)]

theorem mem_sessionUpdate (h : Ordered now p) : a ∈ p.sessionUpdate sid now ↔
    a ∈ p ∧ a.sid ≠ sid ∨ ∃ sess ∈ p, sess.sid = sid ∧ a = { sess with timeAccessed := now } := by
  by_cases hexist : ∃ sess ∈ p, sess.sid = sid
  · obtain ⟨sess, hsess, rfl⟩ := hexist
    rw [sessionUpdate_of_mem h hsess, List.mem_cons, mem_eraseP_sid h, or_comm]
    refine or_congr_right ⟨fun ha => ⟨sess, hsess, rfl, ha⟩, ?_⟩
    rintro ⟨b, hb, hsid, ha⟩
    rwa [h.eq_of_sid hb hsess hsid] at ha
  · have hne : ∀ sess ∈ p, sess.sid ≠ sid := fun sess hsess hsid => hexist ⟨sess, hsess, hsid⟩
    rw [sessionUpdate_of_not_mem hne]
    constructor
    · exact fun ha => Or.inl ⟨ha, hne a ha⟩
    · rintro (⟨ha, -⟩ | ⟨sess, hsess, hsid, -⟩)
      · exact ha
      · exact absurd hsid (hne sess hsess)

/-- The sessions that are left were used within the maximal lifetime. -/
theorem mem_sessionGC (h : Ordered now p) : sess ∈ p.sessionGC now maxlifetime ↔
    sess ∈ p ∧ now ≤ sess.timeAccessed + maxlifetime := by
  have hpair : p.Pairwise fun a b => decide (a.timeAccessed + maxlifetime < now) = true →
      decide (b.timeAccessed + maxlifetime < now) = true := by
    refine h.sorted.imp fun hab ha => ?_
    have hlt := of_decide_eq_true ha
    exact decide_eq_true (by omega)
  rw [sessionGC, mem_rdropWhile_iff hpair, decide_eq_false_iff_not, not_lt]

theorem mem_setUser {user : Option GoString} : sess ∈ p.setUser sid user ↔
    ∃ a ∈ p, (if a.sid = sid then { a with user := user } else a) = sess := by
  simp [setUser]

/-- Whoever is the user, the ids and the times stay. -/
theorem exists_of_mem_setUser {user : Option GoString} (h : sess ∈ p.setUser sid user) :
    ∃ a ∈ p, a.sid = sess.sid ∧ a.timeAccessed = sess.timeAccessed := by
  obtain ⟨a, ha, rfl⟩ := mem_setUser.mp h
  refine ⟨a, ha, ?_⟩
  split_ifs <;> exact ⟨rfl, rfl⟩

/-! ### The order -/

theorem Ordered.sessionRead (h : Ordered now p) (sid : GoString) :
    Ordered now (p.sessionRead sid now) := by
  rw [MemProvider.sessionRead]
  split_ifs with hexist
  · exact h
  · have hne := sessionExist_eq_false_iff.mp (Bool.eq_false_of_not_eq_true hexist)
    refine ⟨?_, List.pairwise_cons.mpr ⟨h.bounded, h.sorted⟩, ?_⟩
    · rw [List.map_cons, List.nodup_cons, List.mem_map]
      refine ⟨?_, h.nodup⟩
      rintro ⟨sess, hsess, hsid⟩
      exact hne sess hsess hsid
    · exact List.forall_mem_cons.mpr ⟨le_rfl, h.bounded⟩

theorem Ordered.sessionUpdate (h : Ordered now p) (sid : GoString) :
    Ordered now (p.sessionUpdate sid now) := by
  by_cases hexist : ∃ sess ∈ p, sess.sid = sid
  · obtain ⟨sess, hsess, rfl⟩ := hexist
    have hsub : (p.eraseP fun a => a.sid == sess.sid).Sublist p := List.eraseP_sublist
    have hbounded : ∀ a ∈ p.eraseP (fun a => a.sid == sess.sid), a.timeAccessed ≤ now :=
      fun a ha => h.bounded a (hsub.mem ha)
    rw [sessionUpdate_of_mem h hsess]
    refine ⟨?_, List.pairwise_cons.mpr ⟨hbounded, h.sorted.sublist hsub⟩, ?_⟩
    · rw [List.map_cons, List.nodup_cons, List.mem_map]
      refine ⟨?_, h.nodup.sublist (hsub.map _)⟩
      rintro ⟨a, ha, hsid⟩
      exact ((mem_eraseP_sid h).mp ha).2 hsid
    · exact List.forall_mem_cons.mpr ⟨le_rfl, hbounded⟩
  · rw [sessionUpdate_of_not_mem fun sess hsess hsid => hexist ⟨sess, hsess, hsid⟩]
    exact h

theorem Ordered.sessionGC (h : Ordered now p) (maxlifetime : ℕ) :
    Ordered now (p.sessionGC now maxlifetime) := by
  have hsub : (p.sessionGC now maxlifetime).Sublist p := (List.rdropWhile_prefix _ _).sublist
  exact ⟨h.nodup.sublist (hsub.map _), h.sorted.sublist hsub,
    fun sess hsess => h.bounded sess (hsub.mem hsess)⟩

theorem Ordered.setUser (h : Ordered now p) (sid : GoString) (user : Option GoString) :
    Ordered now (p.setUser sid user) := by
  refine ⟨?_, ?_, fun sess hsess => ?_⟩
  · have hmap : (p.setUser sid user).map MemSession.sid = p.map MemSession.sid := by
      rw [MemProvider.setUser, List.map_map]
      refine List.map_congr_left fun a _ => ?_
      rw [Function.comp_apply]
      split_ifs <;> rfl
    rw [hmap]
    exact h.nodup
  · refine List.pairwise_map.mpr (h.sorted.imp fun hab => ?_)
    split_ifs <;> exact hab
  · obtain ⟨a, ha, -, htime⟩ := exists_of_mem_setUser hsess
    exact htime ▸ h.bounded a ha

/-! ### The user -/

/-- The time of a session is that of its last access. -/
structure Tracks (access : GoString → ℕ → Prop) (now : ℕ) (p : MemProvider) : Prop where
  ordered : Ordered now p
  clock : ∀ sid t, access sid t → t ≤ now
  accessed : ∀ sess ∈ p, access sess.sid sess.timeAccessed
  latest : ∀ sess ∈ p, ∀ t, access sess.sid t → t ≤ sess.timeAccessed

variable {access access' : GoString → ℕ → Prop}

theorem Tracks.congr (h : Tracks access now p) (hacc : ∀ sid t, access' sid t ↔ access sid t) :
    Tracks access' now p := by
  obtain rfl : access' = access := funext fun sid => funext fun t => propext (hacc sid t)
  exact h

theorem Tracks.tick (h : Tracks access now p) (d : ℕ) : Tracks access (now + d) p :=
  ⟨⟨h.ordered.nodup, h.ordered.sorted, fun sess hsess => le_add_right (h.ordered.bounded sess hsess)⟩,
    fun sid t ht => le_add_right (h.clock sid t ht), h.accessed, h.latest⟩

theorem Tracks.sessionGC (h : Tracks access now p) (maxlifetime : ℕ) :
    Tracks access now (p.sessionGC now maxlifetime) :=
  ⟨h.ordered.sessionGC maxlifetime, h.clock,
    fun sess hsess => h.accessed sess ((mem_sessionGC h.ordered).mp hsess).1,
    fun sess hsess => h.latest sess ((mem_sessionGC h.ordered).mp hsess).1⟩

theorem Tracks.setUser (h : Tracks access now p) (sid : GoString) (user : Option GoString) :
    Tracks access now (p.setUser sid user) := by
  refine ⟨h.ordered.setUser sid user, h.clock, fun sess hsess => ?_, fun sess hsess => ?_⟩
  · obtain ⟨a, ha, hsid, htime⟩ := exists_of_mem_setUser hsess
    exact hsid ▸ htime ▸ h.accessed a ha
  · obtain ⟨a, ha, hsid, htime⟩ := exists_of_mem_setUser hsess
    exact hsid ▸ htime ▸ h.latest a ha

theorem Tracks.sessionRead (h : Tracks access now p) (sid : GoString) :
    Tracks (fun sid' t => access sid' t ∨ sid' = sid ∧ t = now ∧ p.sessionExist sid = false) now
      (p.sessionRead sid now) := by
  refine ⟨h.ordered.sessionRead sid, ?_, fun sess hsess => ?_, fun sess hsess t ht => ?_⟩
  · rintro sid' t (ht | ⟨-, rfl, -⟩)
    · exact h.clock sid' t ht
    · exact le_rfl
  · rcases mem_sessionRead.mp hsess with hsess | ⟨hexist, rfl⟩
    · exact Or.inl (h.accessed sess hsess)
    · exact Or.inr ⟨rfl, rfl, hexist⟩
  · rcases mem_sessionRead.mp hsess with hsess | ⟨-, rfl⟩
    · rcases ht with ht | ⟨hsid, -, hexist⟩
      · exact h.latest sess hsess t ht
      · exact absurd hsid (sessionExist_eq_false_iff.mp hexist sess hsess)
    · rcases ht with ht | ⟨-, rfl, -⟩
      · exact h.clock sid t ht
      · exact le_rfl

theorem Tracks.sessionUpdate (h : Tracks access now p) (sid : GoString) :
    Tracks (fun sid' t => access sid' t ∨ sid' = sid ∧ t = now) now (p.sessionUpdate sid now) := by
  refine ⟨h.ordered.sessionUpdate sid, ?_, fun sess hsess => ?_, fun sess hsess t ht => ?_⟩
  · rintro sid' t (ht | ⟨-, rfl⟩)
    · exact h.clock sid' t ht
    · exact le_rfl
  · rcases (mem_sessionUpdate h.ordered).mp hsess with ⟨hsess, -⟩ | ⟨a, -, hsid, rfl⟩
    · exact Or.inl (h.accessed sess hsess)
    · exact Or.inr ⟨hsid, rfl⟩
  · rcases (mem_sessionUpdate h.ordered).mp hsess with ⟨hsess, hne⟩ | ⟨a, -, -, rfl⟩
    · rcases ht with ht | ⟨hsid, -⟩
      · exact h.latest sess hsess t ht
      · exact absurd hsid hne
    · rcases ht with ht | ⟨-, rfl⟩
      · exact h.clock _ t ht
      · exact le_rfl

end MemProvider

/-! ## Runs -/

section Run

variable {c : SessionConsole} {s0 s t : ConsoleState} {es : List ConsoleEvent} {e : ConsoleEvent}
  {sid : GoString}

/-! ### What an event says about a session -/

end Run

end YulongHids.Web
