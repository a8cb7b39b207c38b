import Twilight.Cache.Invariant

/-!
`cache_member`'s early return against the unchecked write: they differ only in the profile.
-/

namespace Twilight.Cache

variable {s : InMemoryCache}

theorem CachedMember.ofMember_eq_of_eqMember {cached : CachedMember} {g : GuildId} {m : Member}
    (ids : cached.guildId = g ∧ cached.userId = m.user.id) (equal : cached.eqMember m) :
    CachedMember.ofMember g m = cached := by
  obtain ⟨deaf, guildId, joinedAt, mute, nick, pending, premiumSince, roles, userId⟩ := cached
  simp only [CachedMember.eqMember, Bool.and_eq_true, decide_eq_true_eq] at equal
  obtain ⟨⟨⟨⟨⟨⟨⟨rfl, rfl⟩, rfl⟩, rfl⟩, rfl⟩, rfl⟩, rfl⟩, rfl⟩ := equal
  simp only at ids
  obtain ⟨rfl, -⟩ := ids
  rfl

theorem cacheMember_eq_unchecked_except_profile (consistent : Consistent s) (linked : Linked s)
    (g : GuildId) (m : Member) :
    ∃ profile, (profile = some m.user ∨ profile = s.users m.user.id) ∧
      s.cacheMember g m = { s.cacheMemberUnchecked g m with
        users := Function.update s.users m.user.id profile } := by
  rw [InMemoryCache.cacheMember_eq]
  split
  next unchanged =>
    obtain ⟨cached, found, equal⟩ : ∃ cached, s.members (g, m.user.id) = some cached ∧
        cached.eqMember m := by
      cases found : s.members (g, m.user.id) <;> simp_all
    have present : (s.members (g, m.user.id)).isSome := by simp [found]
    have rebuilt := CachedMember.ofMember_eq_of_eqMember (consistent.record _ _ _ found) equal
    refine ⟨s.users m.user.id, .inr rfl, InMemoryCache.ext rfl ?_ ?_ ?_ ?_⟩
    · simp [rebuilt, ← found]
    · exact (addToEntry_of_mem _ _ _ ((consistent.roster _ _).mp present)).symm
    · exact (addToEntry_of_mem _ _ _ (linked _ _ present)).symm
    · simp
  next => exact ⟨some m.user, .inl rfl, rfl⟩

/-- Over states the member events reach from an empty cache, `cache_member` agrees with its
body without lines 25-29 except that the early return leaves the cached profile under the
member's user id where the body writes the payload's; so the two agree whenever the cached
profile already is the payload's. -/
theorem cacheMember_shortcut_keeps_profile (config : Config) (events : List Event)
    (g : GuildId) (m : Member) :
    let cache := (InMemoryCache.empty config).updateAll events
    (∃ profile, (profile = some m.user ∨ profile = cache.users m.user.id) ∧
      cache.cacheMember g m = { cache.cacheMemberUnchecked g m with
        users := Function.update cache.users m.user.id profile }) ∧
    (cache.users m.user.id = some m.user → cache.cacheMember g m = cache.cacheMemberUnchecked g m) := by
  intro cache
  obtain ⟨consistent, linked⟩ := updateAll_invariant config events
  obtain ⟨profile, choice, shape⟩ := cacheMember_eq_unchecked_except_profile consistent linked g m
  refine ⟨⟨profile, choice, shape⟩, fun cachedProfile => ?_⟩
  have same : profile = some m.user := choice.elim id (·.trans cachedProfile)
  rw [shape, same]
  rfl

theorem cacheMember_skips_renamed_profile :
    ¬ ∀ (config : Config) (events : List Event) (g : GuildId) (m : Member),
      let cache := (InMemoryCache.empty config).updateAll events
      cache.cacheMember g m = cache.cacheMemberUnchecked g m := by
  intro sound
  let user : User := ⟨⟨1⟩, "user", "0001", none⟩
  let member : Member := ⟨false, ⟨1⟩, none, false, none, false, none, [], user⟩
  let renamed : Member := { member with user := { user with name := "renamed" } }
  have same := congrArg (·.users user.id)
    (sound ⟨ResourceType.MEMBER⟩ [.memberAdd ⟨member⟩] ⟨1⟩ renamed)
  exact absurd same (by decide)

end Twilight.Cache
