import Twilight.Cache.Member

/-!
A member chunk is its members' adds in one guild: the roster extend repeats the inserts
`cache_member` makes, so a chunk equals the run of `MemberAdd`s, and chunks concatenate.
-/

namespace Twilight.Cache

def rosterInserts (guildId : GuildId) :
    (GuildId → Option (Finset UserId)) → List UserId → GuildId → Option (Finset UserId)
  | guildMembers, [] => guildMembers
  | guildMembers, userId :: userIds =>
      rosterInserts guildId (addToEntry guildMembers guildId userId) userIds

theorem extendEntry_addToEntry (map : GuildId → Option (Finset UserId)) (guildId : GuildId)
    (userId : UserId) (userIds : List UserId) :
    extendEntry (addToEntry map guildId userId) guildId userIds =
      extendEntry map guildId (userId :: userIds) := by
  funext other
  simp only [extendEntry, addToEntry, Function.update_apply]
  split <;> simp_all [Finset.insert_union]

theorem rosterInserts_eq_extendEntry (guildId : GuildId) (userId : UserId)
    (userIds : List UserId) (map : GuildId → Option (Finset UserId)) :
    rosterInserts guildId map (userId :: userIds) = extendEntry map guildId (userId :: userIds) := by
  induction userIds generalizing userId map with
  | nil =>
    funext other
    simp only [rosterInserts, extendEntry, addToEntry, Function.update_apply]
    split <;> simp_all [Finset.insert_eq, Finset.union_comm]
  | cons next userIds ih => rw [rosterInserts, ih, extendEntry_addToEntry]

theorem cacheMember_addToEntry (s : InMemoryCache) (guildId guildId' : GuildId)
    (userId : UserId) (member : Member) :
    ({ s with guildMembers := addToEntry s.guildMembers guildId' userId }).cacheMember guildId
        member =
      let cached := s.cacheMember guildId member
      { cached with guildMembers := addToEntry cached.guildMembers guildId' userId } := by
  simp only [InMemoryCache.cacheMember_eq]
  split
  · rfl
  · exact InMemoryCache.ext rfl rfl (addToEntry_comm _ _ _ _ _) rfl rfl

theorem cacheMembers_addToEntry (guildId guildId' : GuildId) (userId : UserId)
    (members : List Member) (s : InMemoryCache) :
    ({ s with guildMembers := addToEntry s.guildMembers guildId' userId }).cacheMembers guildId
        members =
      let cached := s.cacheMembers guildId members
      { cached with guildMembers := addToEntry cached.guildMembers guildId' userId } := by
  induction members generalizing s with
  | nil => rfl
  | cons member members ih =>
    simp only [InMemoryCache.cacheMembers, cacheMember_addToEntry, ih]

def MemberChunk.memberAdd (guildId : GuildId) (member : Member) : MemberAdd :=
  ⟨{ member with guildId }⟩

theorem MemberChunk.memberAdd_update (guildId : GuildId) (member : Member) (s : InMemoryCache)
    (wanted : s.wants ResourceType.MEMBER) :
    (MemberChunk.memberAdd guildId member).update s =
      let cached := s.cacheMember guildId member
      { cached with guildMembers := addToEntry cached.guildMembers guildId member.user.id } := by
  rw [MemberAdd.update, if_neg (by simp [wanted])]
  rfl

theorem memberAdd_update_of_not_wanted (event : MemberAdd) (s : InMemoryCache)
    (unwanted : s.wants ResourceType.MEMBER = false) : event.update s = s := by
  simp [MemberAdd.update, unwanted]

theorem memberAdd_update_config (event : MemberAdd) (s : InMemoryCache) :
    (event.update s).config = s.config := by
  unfold MemberAdd.update
  split <;> simp

theorem foldl_memberAdd_update (guildId : GuildId) (members : List Member) (s : InMemoryCache)
    (wanted : s.wants ResourceType.MEMBER) :
    members.foldl (fun cache member => (MemberChunk.memberAdd guildId member).update cache) s =
      let cached := s.cacheMembers guildId members
      { cached with
        guildMembers :=
          rosterInserts guildId cached.guildMembers (members.map (·.user.id)) } := by
  induction members generalizing s with
  | nil => rfl
  | cons member members ih =>
    have stillWanted : ((MemberChunk.memberAdd guildId member).update s).wants
        ResourceType.MEMBER := by
      simpa [InMemoryCache.wants, memberAdd_update_config] using wanted
    simp only [List.foldl]
    rw [ih _ stillWanted, MemberChunk.memberAdd_update guildId member s wanted]
    simp only [cacheMembers_addToEntry, InMemoryCache.cacheMembers, List.map, rosterInserts]

theorem MemberChunk.update_eq_foldl (guildId : GuildId) (members : List Member)
    (s : InMemoryCache) :
    (MemberChunk.mk guildId members).update s =
      members.foldl (fun cache member => (MemberChunk.memberAdd guildId member).update cache) s := by
  by_cases wanted : s.wants ResourceType.MEMBER
  · rw [foldl_memberAdd_update guildId members s wanted]
    cases members with
    | nil => simp [MemberChunk.update, wanted, InMemoryCache.cacheMembers, rosterInserts]
    | cons member members =>
      simp [MemberChunk.update, wanted, List.map, rosterInserts_eq_extendEntry]
  · have unwanted : s.wants ResourceType.MEMBER = false := by simpa using wanted
    have unchanged : ∀ (ms : List Member) (cache : InMemoryCache),
        cache.config = s.config →
          ms.foldl (fun c m => (MemberChunk.memberAdd guildId m).update c) cache = cache := by
      intro ms
      induction ms with
      | nil => intro cache _; rfl
      | cons m ms ih =>
        intro cache same
        have idle : (MemberChunk.memberAdd guildId m).update cache = cache :=
          memberAdd_update_of_not_wanted _ _ (by simpa [InMemoryCache.wants, same] using unwanted)
        simp only [List.foldl, idle, ih cache same]
    rw [unchanged members s rfl]
    simp [MemberChunk.update, unwanted]

theorem updateAll_map_memberAdd {α : Type} (s : InMemoryCache) (events : List α) (add : α → MemberAdd) :
    s.updateAll (events.map fun event => .memberAdd (add event)) =
      events.foldl (fun cache event => (add event).update cache) s := by
  induction events generalizing s with
  | nil => rfl
  | cons event events ih => exact ih _

/-- A chunk reaches the state its members reach as single adds, applied in list order. -/
theorem memberChunk_update_eq_memberAdds (s : InMemoryCache) (guildId : GuildId)
    (members : List Member) :
    (Event.memberChunk ⟨guildId, members⟩).update s =
      s.updateAll (members.map fun member => .memberAdd (MemberChunk.memberAdd guildId member)) := by
  rw [Event.update, MemberChunk.update_eq_foldl, updateAll_map_memberAdd]

theorem MemberChunk.update_append (s : InMemoryCache) (guildId : GuildId)
    (first second : List Member) :
    (MemberChunk.mk guildId (first ++ second)).update s =
      (MemberChunk.mk guildId second).update ((MemberChunk.mk guildId first).update s) := by
  simp only [MemberChunk.update_eq_foldl, List.foldl_append]

/-- A guild's members received over any number of chunks, one after another, leave the
cache one chunk holding all of them in that order leaves. -/
theorem memberChunks_update_eq_flatten (s : InMemoryCache) (guildId : GuildId)
    (parts : List (List Member)) :
    s.updateAll (parts.map fun members => .memberChunk ⟨guildId, members⟩) =
      (MemberChunk.mk guildId parts.flatten).update s := by
  induction parts generalizing s with
  | nil => simp [InMemoryCache.updateAll, MemberChunk.update_eq_foldl]
  | cons members parts ih =>
    rw [List.map_cons, InMemoryCache.updateAll, ih, List.flatten_cons,
      MemberChunk.update_append]
    rfl

end Twilight.Cache
