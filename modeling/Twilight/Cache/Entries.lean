import Twilight.Cache.Invariant

/-!
No handler removes a roster or membership entry: a last removal leaves an empty set.
-/

namespace Twilight.Cache

/-- No roster or membership entry of `before` is missing from `after`. -/
structure KeepsEntries (before after : InMemoryCache) : Prop where
  guildMembers : ∀ g, (before.guildMembers g).isSome → (after.guildMembers g).isSome
  userGuilds : ∀ u, (before.userGuilds u).isSome → (after.userGuilds u).isSome

theorem KeepsEntries.refl (s : InMemoryCache) : KeepsEntries s s := ⟨fun _ => id, fun _ => id⟩

theorem KeepsEntries.trans {a b c : InMemoryCache} (first : KeepsEntries a b)
    (second : KeepsEntries b c) : KeepsEntries a c :=
  ⟨fun g present => second.guildMembers g (first.guildMembers g present),
    fun u present => second.userGuilds u (first.userGuilds u present)⟩

theorem keepsEntries_addToEntry (s : InMemoryCache) (g : GuildId) (u : UserId)
    (members : GuildId × UserId → Option CachedMember) :
    KeepsEntries s { s with members, guildMembers := addToEntry s.guildMembers g u } :=
  ⟨fun _ present => by simp [present], fun _ => id⟩

theorem keepsEntries_cacheMember (s : InMemoryCache) (g : GuildId) (m : Member) :
    KeepsEntries s (s.cacheMember g m) := by
  rw [InMemoryCache.cacheMember_eq]
  split
  · exact KeepsEntries.refl s
  · exact ⟨fun _ present => by simp [present], fun _ present => by simp [present]⟩

theorem keepsEntries_memberAdd (event : MemberAdd) (s : InMemoryCache) :
    KeepsEntries s (event.update s) := by
  unfold MemberAdd.update
  split
  · exact KeepsEntries.refl s
  · exact (keepsEntries_cacheMember _ _ _).trans (keepsEntries_addToEntry _ _ _ _)

theorem keepsEntries_memberChunk (event : MemberChunk) (s : InMemoryCache) :
    KeepsEntries s (event.update s) := by
  rw [MemberChunk.update_eq_foldl]
  induction event.members generalizing s with
  | nil => exact KeepsEntries.refl s
  | cons member members ih => exact (keepsEntries_memberAdd _ s).trans (ih _)

theorem keepsEntries_memberRemove (event : MemberRemove) (s : InMemoryCache) :
    KeepsEntries s (event.update s) := by
  by_cases wanted : s.wants ResourceType.MEMBER
  · rw [MemberRemove.update_eq _ _ wanted]
    exact ⟨fun _ present => by simp [present], fun _ present => by simp [present]⟩
  · simpa [MemberRemove.update, wanted] using KeepsEntries.refl s

theorem keepsEntries_memberUpdate (event : MemberUpdate) (s : InMemoryCache) :
    KeepsEntries s (event.update s) := by
  by_cases wanted : s.wants ResourceType.MEMBER
  · rw [MemberUpdate.update_eq _ _ wanted]
    exact ⟨fun _ => id, fun _ => id⟩
  · simpa [MemberUpdate.update, wanted] using KeepsEntries.refl s

theorem keepsEntries_apply (s : InMemoryCache) : ∀ op : MemberOp, KeepsEntries s (op.apply s)
  | .event (.memberAdd event) => keepsEntries_memberAdd event s
  | .event (.memberChunk event) => keepsEntries_memberChunk event s
  | .event (.memberRemove event) => keepsEntries_memberRemove event s
  | .event (.memberUpdate event) => keepsEntries_memberUpdate event s
  | .partialMember g member u => by
    unfold MemberOp.apply InMemoryCache.cacheBorrowedPartialMember
    dsimp only
    split
    · split
      · exact KeepsEntries.refl s
      · exact keepsEntries_addToEntry s g u _
    · exact keepsEntries_addToEntry s g u _
  | .interactionMember g member => by
    unfold MemberOp.apply InMemoryCache.cacheBorrowedInteractionMember
    dsimp only
    split
    · split
      · exact KeepsEntries.refl s
      · exact keepsEntries_addToEntry s g member.id _
    · exact keepsEntries_addToEntry s g member.id _

/-- A run of member operations from any state drops no index entry; a remove that takes a
guild's last member leaves that guild an empty roster, and one that takes a user's last guild
leaves that user an empty membership set. -/
theorem applyAll_keeps_index_entries :
    (∀ (s : InMemoryCache) (ops : List MemberOp), KeepsEntries s (s.applyAll ops)) ∧
    (∀ (s : InMemoryCache) (g : GuildId) (user : User), s.wants ResourceType.MEMBER →
      s.guildMembers g = some {user.id} →
        ((MemberRemove.mk g user).update s).guildMembers g = some ∅) ∧
    (∀ (s : InMemoryCache) (g : GuildId) (user : User), s.wants ResourceType.MEMBER →
      s.userGuilds user.id = some {g} →
        ((MemberRemove.mk g user).update s).userGuilds user.id = some ∅) := by
  refine ⟨fun s ops => ?_, fun s g user wanted roster => ?_, fun s g user wanted membership => ?_⟩
  · induction ops generalizing s with
    | nil => exact KeepsEntries.refl s
    | cons op ops ih => exact (keepsEntries_apply s op).trans (ih _)
  · rw [MemberRemove.update_eq _ _ wanted]
    simp [removeFromEntry, roster]
  · rw [MemberRemove.update_eq _ _ wanted]
    simp [removeFromEntry, membership]

theorem member_remove_leaves_empty_entries :
    ¬ ∀ (config : Config) (ops : List MemberOp),
      let cache := (InMemoryCache.empty config).applyAll ops
      (∀ g gs, cache.guildMembers g = some gs → gs.Nonempty) ∧
        (∀ u gs, cache.userGuilds u = some gs → gs.Nonempty) := by
  intro noEmptyEntry
  let user : User := ⟨⟨1⟩, "user", "0001", none⟩
  let member : Member := ⟨false, ⟨1⟩, none, false, none, false, none, [], user⟩
  have emptied := (noEmptyEntry ⟨ResourceType.MEMBER⟩
    [.event (.memberAdd ⟨member⟩), .event (.memberRemove ⟨⟨1⟩, user⟩)]).1 ⟨1⟩ ∅ (by decide)
  simp at emptied

end Twilight.Cache
