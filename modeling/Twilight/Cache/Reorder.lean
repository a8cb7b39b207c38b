import Twilight.Cache.Provenance

/-!
The embedded-reference writes commute with every member call that does not name their key.
-/

namespace Twilight.Cache

def MemberOp.embeddedKey : MemberOp → Option (GuildId × UserId)
  | .partialMember guildId _ userId => some (guildId, userId)
  | .interactionMember guildId member => some (guildId, member.id)
  | .event _ => none

section Store

variable (s : InMemoryCache) {key : GuildId × UserId} (record : CachedMember)

theorem InMemoryCache.storeRecord_members_of_ne {other : GuildId × UserId} (distinct : other ≠ key) :
    (s.storeRecord key record).members other = s.members other :=
  Function.update_noteq distinct _ _

theorem InMemoryCache.storeRecord_comm {key' : GuildId × UserId} (distinct : key ≠ key')
    (record' : CachedMember) :
    (s.storeRecord key record).storeRecord key' record' =
      (s.storeRecord key' record').storeRecord key record :=
  InMemoryCache.ext rfl (Function.update_comm distinct _ _ _) (addToEntry_comm _ _ _ _ _) rfl rfl

theorem memberAdd_storeRecord_comm (e : MemberAdd) (wanted : s.wants ResourceType.MEMBER)
    (distinct : (e.member.guildId, e.member.user.id) ≠ key) :
    e.update (s.storeRecord key record) = (e.update s).storeRecord key record := by
  rw [MemberAdd.update_eq (s.storeRecord key record) e wanted, MemberAdd.update_eq s e wanted]
  simp only [InMemoryCache.storeRecord_members_of_ne s record distinct]
  split
  · exact InMemoryCache.ext rfl rfl (addToEntry_comm _ _ _ _ _) rfl rfl
  · exact InMemoryCache.ext rfl (Function.update_comm (Ne.symm distinct) _ _ _)
      (addToEntry_comm _ _ _ _ _) rfl rfl

theorem foldl_memberAdd_storeRecord_comm (wanted : s.wants ResourceType.MEMBER) (g : GuildId)
    (members : List Member) (distinct : ∀ m ∈ members, (g, m.user.id) ≠ key) :
    members.foldl (fun c m => (MemberChunk.memberAdd g m).update c) (s.storeRecord key record) =
      (members.foldl (fun c m => (MemberChunk.memberAdd g m).update c) s).storeRecord key record := by
  induction members generalizing s with
  | nil => rfl
  | cons m members ih =>
    simp only [List.foldl_cons]
    rw [memberAdd_storeRecord_comm s record _ wanted (distinct m (List.mem_cons_self _ _))]
    exact ih _ (by rwa [memberAdd_update_wants]) fun m' mem => distinct m' (List.mem_cons_of_mem _ mem)

theorem memberRemove_storeRecord_comm (e : MemberRemove) (wanted : s.wants ResourceType.MEMBER)
    (distinct : (e.guildId, e.user.id) ≠ key) :
    e.update (s.storeRecord key record) = (e.update s).storeRecord key record := by
  have apart : key.1 ≠ e.guildId ∨ key.2 ≠ e.user.id := by
    by_contra both
    push_neg at both
    exact distinct (Prod.ext both.1.symm both.2.symm)
  rw [MemberRemove.update_eq e (s.storeRecord key record) wanted,
    MemberRemove.update_eq e s wanted]
  exact InMemoryCache.ext rfl (Function.update_comm (Ne.symm distinct) _ _ _)
    (addToEntry_removeFromEntry_comm _ _ _ _ _ apart) rfl rfl

theorem memberUpdate_storeRecord_comm (e : MemberUpdate) (wanted : s.wants ResourceType.MEMBER)
    (distinct : (e.guildId, e.user.id) ≠ key) :
    e.update (s.storeRecord key record) = (e.update s).storeRecord key record := by
  rw [MemberUpdate.update_eq e (s.storeRecord key record) wanted, MemberUpdate.update_eq e s wanted]
  simp only [InMemoryCache.storeRecord_members_of_ne s record distinct]
  exact InMemoryCache.ext rfl (Function.update_comm (Ne.symm distinct) _ _ _) rfl rfl rfl

theorem MemberOp.storeRecord_comm (op : MemberOp) (other : ¬(op.guildId = key.1 ∧ key.2 ∈ op.userIds)) :
    op.apply (s.storeRecord key record) = (op.apply s).storeRecord key record := by
  have distinct : ∀ g u, op.guildId = g → u ∈ op.userIds → (g, u) ≠ key := by
    rintro g u rfl named rfl
    exact other ⟨rfl, named⟩
  cases op with
  | event e =>
    by_cases wanted : s.wants ResourceType.MEMBER
    swap
    · have unwanted : s.wants ResourceType.MEMBER = false := by simpa using wanted
      rw [MemberOp.apply, MemberOp.apply, e.update_of_not_wanted (s.storeRecord key record) unwanted,
        e.update_of_not_wanted s unwanted]
    cases e with
    | memberAdd e =>
      exact memberAdd_storeRecord_comm s record e wanted (distinct _ _ rfl (List.mem_singleton_self _))
    | memberChunk e =>
      rw [MemberOp.apply, MemberOp.apply, Event.memberChunk_update]
      exact foldl_memberAdd_storeRecord_comm s record wanted _ _ fun m mem =>
        distinct _ _ rfl (List.mem_map_of_mem _ mem)
    | memberRemove e =>
      exact memberRemove_storeRecord_comm s record e wanted
        (distinct _ _ rfl (List.mem_singleton_self _))
    | memberUpdate e =>
      exact memberUpdate_storeRecord_comm s record e wanted
        (distinct _ _ rfl (List.mem_singleton_self _))
  | partialMember g p u =>
    have apart := distinct g u rfl (List.mem_singleton_self _)
    simp only [MemberOp.apply, InMemoryCache.cacheBorrowedPartialMember_eq,
      InMemoryCache.storeRecord_members_of_ne s record apart]
    split
    · rfl
    · exact InMemoryCache.storeRecord_comm s record (Ne.symm apart) _
  | interactionMember g i =>
    have apart := distinct g i.id rfl (List.mem_singleton_self _)
    simp only [MemberOp.apply, InMemoryCache.cacheBorrowedInteractionMember_eq,
      InMemoryCache.storeRecord_members_of_ne s record apart]
    split
    · rfl
    · exact InMemoryCache.storeRecord_comm s record (Ne.symm apart) _

end Store

theorem storeRecord_guarded_comm {f : InMemoryCache → InMemoryCache} {key : GuildId × UserId}
    (keeps : ∀ s, (f s).members key = s.members key)
    (commutes : ∀ s record, f (s.storeRecord key record) = (f s).storeRecord key record)
    (test : Option CachedMember → Bool) (record : Option CachedMember → CachedMember)
    (s : InMemoryCache) :
    (if test ((f s).members key) then f s else (f s).storeRecord key (record ((f s).members key))) =
      f (if test (s.members key) then s else s.storeRecord key (record (s.members key))) := by
  rw [keeps]
  split
  · rfl
  · exact (commutes s _).symm

/-- An embedded-reference write and any other member call, an event or another embedded
write, that does not name the write's key reach the same cache in either order. -/
theorem embedded_write_comm (s : InMemoryCache) (write op : MemberOp) (key : GuildId × UserId)
    (embedded : write.embeddedKey = some key) (other : ¬(op.guildId = key.1 ∧ key.2 ∈ op.userIds)) :
    write.apply (op.apply s) = op.apply (write.apply s) := by
  have keeps : ∀ s, (op.apply s).members key = s.members key := fun s =>
    op.members_of_not_named s other
  have commutes : ∀ s record, op.apply (s.storeRecord key record) =
      (op.apply s).storeRecord key record := fun s record => op.storeRecord_comm s record other
  cases write with
  | event => cases embedded
  | partialMember g p u =>
    cases embedded
    show (op.apply s).cacheBorrowedPartialMember g p u = op.apply (s.cacheBorrowedPartialMember g p u)
    rw [InMemoryCache.cacheBorrowedPartialMember_eq, InMemoryCache.cacheBorrowedPartialMember_eq]
    exact storeRecord_guarded_comm keeps commutes (·.any (·.eqPartialMember p))
      (fun _ => ⟨some p.deaf, g, p.joinedAt, some p.mute, p.nick, false, none, p.roles, u⟩) s
  | interactionMember g i =>
    cases embedded
    show (op.apply s).cacheBorrowedInteractionMember g i = op.apply (s.cacheBorrowedInteractionMember g i)
    rw [InMemoryCache.cacheBorrowedInteractionMember_eq,
      InMemoryCache.cacheBorrowedInteractionMember_eq]
    exact storeRecord_guarded_comm keeps commutes (·.any (·.eqInteractionMember i))
      (fun found => ⟨found.bind (·.deaf), g, i.joinedAt, found.bind (·.mute), i.nick, false,
        i.premiumSince, i.roles, i.id⟩) s

theorem embedded_write_comm_other_guild :
    let write : MemberOp := .partialMember ⟨1⟩ ⟨true, none, false, none, none, []⟩ ⟨1⟩
    let op : MemberOp :=
      .event (.memberAdd ⟨⟨false, ⟨2⟩, none, false, none, false, none, [], ⟨⟨1⟩, "user", "0001", none⟩⟩⟩)
    let s := InMemoryCache.empty ⟨ResourceType.MEMBER⟩
    (write.embeddedKey = some (⟨1⟩, ⟨1⟩) ∧ ¬(op.guildId = ⟨1⟩ ∧ (⟨1⟩ : UserId) ∈ op.userIds)) ∧
      write.apply (op.apply s) = op.apply (write.apply s) :=
  ⟨⟨rfl, by decide⟩, embedded_write_comm _ _ _ _ rfl (by decide)⟩

end Twilight.Cache
