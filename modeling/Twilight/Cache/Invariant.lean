import Twilight.Cache.Bulk

/-!
The cross-index invariants of the sequential cache, kept by every member call from the
empty cache.
-/

namespace Twilight.Cache

variable {s : InMemoryCache}

/-- The invariant of the member tables; `getD ∅` reads an absent set as empty. -/
structure Consistent (cache : InMemoryCache) : Prop where
  roster : ∀ g u, (cache.members (g, u)).isSome ↔ u ∈ (cache.guildMembers g).getD ∅
  record : ∀ g u cached, cache.members (g, u) = some cached →
    cached.guildId = g ∧ cached.userId = u
  profile : ∀ u, (cache.users u).isSome ↔ ((cache.userGuilds u).getD ∅).Nonempty
  membership : ∀ g u, g ∈ (cache.userGuilds u).getD ∅ → (cache.members (g, u)).isSome

theorem consistent_empty (config : Config) : Consistent (InMemoryCache.empty config) where
  roster _ _ := by simp [InMemoryCache.empty]
  record _ _ _ := by simp [InMemoryCache.empty]
  profile _ := by simp [InMemoryCache.empty]
  membership _ _ := by simp [InMemoryCache.empty]

theorem Consistent.store (h : Consistent s) (g : GuildId) (u : UserId) (cached : CachedMember)
    (ids : cached.guildId = g ∧ cached.userId = u) :
    Consistent { s with
      members := Function.update s.members (g, u) (some cached)
      guildMembers := addToEntry s.guildMembers g u } where
  roster g' u' := by
    by_cases same : g' = g ∧ u' = u
    · obtain ⟨rfl, rfl⟩ := same
      simp
    · simpa [Function.update_apply, same] using h.roster g' u'
  record g' u' c := by
    by_cases same : g' = g ∧ u' = u
    · obtain ⟨rfl, rfl⟩ := same
      simp only [Function.update_same, Option.some.injEq]
      rintro rfl
      exact ids
    · simpa [Function.update_apply, same] using h.record g' u' c
  profile := h.profile
  membership g' u' mem := by
    by_cases same : g' = g ∧ u' = u
    · obtain ⟨rfl, rfl⟩ := same
      simp
    · simpa [Function.update_apply, same] using h.membership g' u' mem

theorem Consistent.cacheMemberUnchecked (h : Consistent s) (g : GuildId) (m : Member) :
    Consistent (s.cacheMemberUnchecked g m) where
  roster := (h.store g m.user.id (CachedMember.ofMember g m) ⟨rfl, rfl⟩).roster
  record := (h.store g m.user.id (CachedMember.ofMember g m) ⟨rfl, rfl⟩).record
  profile u := by
    by_cases same : u = m.user.id
    · subst same
      simp
    · simpa [Function.update_apply, same] using h.profile u
  membership g' u mem := by
    by_cases same : g' = g ∧ u = m.user.id
    · obtain ⟨rfl, rfl⟩ := same
      simp
    · have old : g' ∈ (s.userGuilds u).getD ∅ :=
        ((mem_addToEntry _ _ _ _ _).mp mem).resolve_left fun ⟨hu, hg⟩ => same ⟨hg, hu⟩
      simpa [Function.update_apply, same] using h.membership g' u old

theorem Consistent.cacheMember (h : Consistent s) (g : GuildId) (m : Member) :
    Consistent (s.cacheMember g m) := by
  rw [InMemoryCache.cacheMember_eq]
  split
  · exact h
  · exact h.cacheMemberUnchecked g m

theorem Consistent.addRoster (h : Consistent s) (g : GuildId) (u : UserId)
    (cached : (s.members (g, u)).isSome) :
    Consistent { s with guildMembers := addToEntry s.guildMembers g u } where
  roster g' u' := by
    by_cases same : g' = g ∧ u' = u
    · obtain ⟨rfl, rfl⟩ := same
      simpa using cached
    · simpa [same] using h.roster g' u'
  record := h.record
  profile := h.profile
  membership := h.membership

theorem Consistent.memberAdd (h : Consistent s) (event : MemberAdd) :
    Consistent (event.update s) := by
  unfold MemberAdd.update
  split
  · exact h
  · exact (h.cacheMember _ _).addRoster _ _ (InMemoryCache.cacheMember_members_isSome _ _ _)

theorem Consistent.memberChunk (h : Consistent s) (event : MemberChunk) :
    Consistent (event.update s) := by
  rw [MemberChunk.update_eq_foldl]
  induction event.members generalizing s with
  | nil => exact h
  | cons member members ih => exact ih (h.memberAdd _)

theorem Consistent.removeMember (h : Consistent s) (g : GuildId) (u : UserId) :
    Consistent { s with
      members := Function.update s.members (g, u) none
      guildMembers := removeFromEntry s.guildMembers g u
      userGuilds := removeFromEntry s.userGuilds u g
      users := if removeFromEntry s.userGuilds u g u = some ∅ then Function.update s.users u none
        else s.users } := by
  let removed := { s with
    members := Function.update s.members (g, u) none
    guildMembers := removeFromEntry s.guildMembers g u
    userGuilds := removeFromEntry s.userGuilds u g }
  have roster : ∀ g' u', (removed.members (g', u')).isSome ↔
      u' ∈ (removed.guildMembers g').getD ∅ := fun g' u' => by
    by_cases same : g' = g ∧ u' = u
    · obtain ⟨rfl, rfl⟩ := same
      simp [removed]
    · simpa [removed, Function.update_apply, same] using h.roster g' u'
  have record : ∀ g' u' c, removed.members (g', u') = some c → c.guildId = g' ∧ c.userId = u' :=
    fun g' u' c found => h.record g' u' c (by
      by_cases same : g' = g ∧ u' = u
      · obtain ⟨rfl, rfl⟩ := same
        simp [removed] at found
      · simpa [removed, Function.update_apply, same] using found)
  have membership : ∀ g' u', g' ∈ (removed.userGuilds u').getD ∅ →
      (removed.members (g', u')).isSome := fun g' u' mem => by
    by_cases same : g' = g ∧ u' = u
    · obtain ⟨rfl, rfl⟩ := same
      simp [removed] at mem
    · have old : g' ∈ (s.userGuilds u').getD ∅ := by
        simp only [removed, mem_removeFromEntry] at mem
        exact mem.2
      simpa [removed, Function.update_apply, same] using h.membership g' u' old
  have profileOther : ∀ u', u' ≠ u →
      (((removed.userGuilds u').getD ∅).Nonempty ↔ ((s.userGuilds u').getD ∅).Nonempty) :=
    fun u' other => by simp [removed, other]
  split
  next emptied =>
    refine ⟨roster, record, fun u' => ?_, membership⟩
    by_cases same : u' = u
    · subst same
      have cleared : ((s.userGuilds u').getD ∅).erase g = ∅ := by
        simpa [removed] using congrArg (·.getD ∅) emptied
      simp [removed, cleared]
    · simpa [same, profileOther u' same] using h.profile u'
  next kept =>
    refine ⟨roster, record, fun u' => ?_, membership⟩
    by_cases same : u' = u
    · subst same
      cases found : s.userGuilds u' with
      | none => simpa [removed, removeFromEntry, found] using h.profile u'
      | some userGuilds =>
        have left : (userGuilds.erase g).Nonempty := by
          simpa [removed, removeFromEntry, found, Finset.nonempty_iff_ne_empty] using kept
        simpa [removed, removeFromEntry, found, left, left.mono (Finset.erase_subset _ _)]
          using h.profile u'
    · simpa [same, profileOther u' same] using h.profile u'

theorem Consistent.memberRemove (h : Consistent s) (event : MemberRemove) :
    Consistent (event.update s) := by
  by_cases wanted : s.wants ResourceType.MEMBER
  · rw [MemberRemove.update_eq _ _ wanted]
    exact h.removeMember event.guildId event.user.id
  · simpa [MemberRemove.update, wanted] using h

theorem Consistent.rewrite (h : Consistent s) (key : GuildId × UserId)
    (f : CachedMember → CachedMember) (ids : ∀ c, (f c).guildId = c.guildId ∧ (f c).userId = c.userId) :
    Consistent { s with members := Function.update s.members key ((s.members key).map f) } := by
  have present : ∀ k, (Function.update s.members key ((s.members key).map f) k).isSome =
      (s.members k).isSome := fun k => by
    by_cases same : k = key
    · subst same
      simp
    · simp [Function.update_noteq same]
  refine ⟨fun g u => ?_, fun g u c found => ?_, h.profile, fun g u mem => ?_⟩
  · simpa only [present] using h.roster g u
  · by_cases same : (g, u) = key
    · subst same
      simp only [Function.update_same, Option.map_eq_some'] at found
      obtain ⟨old, stored, rfl⟩ := found
      rw [(ids old).1, (ids old).2]
      exact h.record g u old stored
    · exact h.record g u c (by simpa [Function.update_noteq same] using found)
  · simpa only [present] using h.membership g u mem

theorem Consistent.memberUpdate (h : Consistent s) (event : MemberUpdate) :
    Consistent (event.update s) := by
  by_cases wanted : s.wants ResourceType.MEMBER
  · rw [MemberUpdate.update_eq _ _ wanted]
    exact h.rewrite _ _ fun _ => ⟨rfl, rfl⟩
  · simpa [MemberUpdate.update, wanted] using h

theorem Consistent.cacheBorrowedPartialMember (h : Consistent s) (g : GuildId)
    (member : PartialMember) (u : UserId) :
    Consistent (s.cacheBorrowedPartialMember g member u) := by
  unfold InMemoryCache.cacheBorrowedPartialMember
  dsimp only
  split
  · split
    · exact h
    · exact h.store _ _ _ ⟨rfl, rfl⟩
  · exact h.store _ _ _ ⟨rfl, rfl⟩

theorem Consistent.cacheBorrowedInteractionMember (h : Consistent s) (g : GuildId)
    (member : InteractionMember) :
    Consistent (s.cacheBorrowedInteractionMember g member) := by
  unfold InMemoryCache.cacheBorrowedInteractionMember
  dsimp only
  split
  · split
    · exact h
    · exact h.store _ _ _ ⟨rfl, rfl⟩
  · exact h.store _ _ _ ⟨rfl, rfl⟩

theorem Consistent.update (h : Consistent s) : ∀ event : Event, Consistent (event.update s)
  | .memberAdd event => h.memberAdd event
  | .memberChunk event => h.memberChunk event
  | .memberRemove event => h.memberRemove event
  | .memberUpdate event => h.memberUpdate event

theorem Consistent.apply (h : Consistent s) : ∀ op : MemberOp, Consistent (op.apply s)
  | .event event => h.update event
  | .partialMember g member u => h.cacheBorrowedPartialMember g member u
  | .interactionMember g member => h.cacheBorrowedInteractionMember g member

theorem Consistent.applyAll (h : Consistent s) (ops : List MemberOp) :
    Consistent (s.applyAll ops) := by
  induction ops generalizing s with
  | nil => exact h
  | cons op ops ih => exact ih (h.apply op)

/-- Every state reached from the empty cache by the member events and the embedded-reference
helpers keeps the member tables consistent. -/
theorem applyAll_consistent (config : Config) (ops : List MemberOp) :
    Consistent ((InMemoryCache.empty config).applyAll ops) :=
  (consistent_empty config).applyAll ops

/-! ### Records linked back from the membership index -/

/-- Every cached record's guild is in its user's membership set. -/
def Linked (cache : InMemoryCache) : Prop :=
  ∀ g u, (cache.members (g, u)).isSome → g ∈ (cache.userGuilds u).getD ∅

theorem linked_empty (config : Config) : Linked (InMemoryCache.empty config) := by
  simp [Linked, InMemoryCache.empty]

theorem Linked.cacheMember (h : Linked s) (g : GuildId) (m : Member) :
    Linked (s.cacheMember g m) := by
  rw [InMemoryCache.cacheMember_eq]
  split
  · exact h
  · intro g' u present
    by_cases same : g' = g ∧ u = m.user.id
    · obtain ⟨rfl, rfl⟩ := same
      simp
    · have old := h g' u (by simpa [Function.update_apply, same] using present)
      simp [old]

theorem Linked.memberAdd (h : Linked s) (event : MemberAdd) : Linked (event.update s) := by
  unfold MemberAdd.update
  split
  · exact h
  · exact h.cacheMember _ _

theorem Linked.memberChunk (h : Linked s) (event : MemberChunk) : Linked (event.update s) := by
  rw [MemberChunk.update_eq_foldl]
  induction event.members generalizing s with
  | nil => exact h
  | cons member members ih => exact ih (h.memberAdd _)

theorem Linked.memberRemove (h : Linked s) (event : MemberRemove) : Linked (event.update s) := by
  by_cases wanted : s.wants ResourceType.MEMBER
  · rw [MemberRemove.update_eq _ _ wanted]
    have kept : Linked { s with
        members := Function.update s.members (event.guildId, event.user.id) none
        userGuilds := removeFromEntry s.userGuilds event.user.id event.guildId } := by
      intro g u present
      by_cases same : g = event.guildId ∧ u = event.user.id
      · obtain ⟨rfl, rfl⟩ := same
        simp at present
      · have old := h g u (by simpa [Function.update_apply, same] using present)
        simp only [mem_removeFromEntry]
        exact ⟨fun ⟨hu, hg⟩ => same ⟨hg, hu⟩, old⟩
    exact kept
  · simpa [MemberRemove.update, wanted] using h

theorem Linked.memberUpdate (h : Linked s) (event : MemberUpdate) : Linked (event.update s) := by
  by_cases wanted : s.wants ResourceType.MEMBER
  · rw [MemberUpdate.update_eq _ _ wanted]
    intro g u present
    apply h g u
    by_cases same : (g, u) = (event.guildId, event.user.id)
    · rw [same] at present ⊢
      simpa using present
    · simpa [Function.update_noteq same] using present
  · simpa [MemberUpdate.update, wanted] using h

theorem Linked.update (h : Linked s) : ∀ event : Event, Linked (event.update s)
  | .memberAdd event => h.memberAdd event
  | .memberChunk event => h.memberChunk event
  | .memberRemove event => h.memberRemove event
  | .memberUpdate event => h.memberUpdate event

theorem updateAll_invariant (config : Config) (events : List Event) :
    Consistent ((InMemoryCache.empty config).updateAll events) ∧
      Linked ((InMemoryCache.empty config).updateAll events) := by
  suffices run : ∀ (events : List Event) (s : InMemoryCache), Consistent s → Linked s →
      Consistent (s.updateAll events) ∧ Linked (s.updateAll events) from
    run events _ (consistent_empty config) (linked_empty config)
  intro events
  induction events with
  | nil => exact fun _ consistent linked => ⟨consistent, linked⟩
  | cons event events ih =>
    exact fun _ consistent linked => ih _ (consistent.update event) (linked.update event)

theorem memberRemove_update_members_of_ne (event : MemberRemove) (s : InMemoryCache)
    (g : GuildId) (other : g ≠ event.guildId) :
    (event.update s).members (g, event.user.id) = s.members (g, event.user.id) := by
  have distinct : (g, event.user.id) ≠ (event.guildId, event.user.id) := by simpa using other
  by_cases wanted : s.wants ResourceType.MEMBER
  · rw [MemberRemove.update_eq _ _ wanted]
    exact Function.update_noteq distinct _ _
  · simp [MemberRemove.update, wanted]

/-- Over runs of the four events every cached record is in its user's membership set and
has its profile cached; so removing a user from one guild keeps the profile while the user
has a record in another. -/
theorem updateAll_members_linked (config : Config) (events : List Event) :
    let cache := (InMemoryCache.empty config).updateAll events
    (∀ g u, (cache.members (g, u)).isSome →
      g ∈ (cache.userGuilds u).getD ∅ ∧ (cache.users u).isSome) ∧
    (∀ g g' (user : User), g' ≠ g → (cache.members (g', user.id)).isSome →
      (((Event.memberRemove ⟨g, user⟩).update cache).users user.id).isSome) := by
  intro cache
  have profiled : ∀ s, Consistent s → Linked s → ∀ g u, (s.members (g, u)).isSome →
      g ∈ (s.userGuilds u).getD ∅ ∧ (s.users u).isSome := fun s consistent linked g u present =>
    ⟨linked g u present, (consistent.profile u).mpr ⟨g, linked g u present⟩⟩
  obtain ⟨consistent, linked⟩ := updateAll_invariant config events
  refine ⟨profiled cache consistent linked, fun g g' user other present => ?_⟩
  have survives := memberRemove_update_members_of_ne ⟨g, user⟩ cache g' other
  exact (profiled _ (consistent.update _) (linked.update _) g' user.id
    (by simpa [Event.update, survives] using present)).2

end Twilight.Cache
