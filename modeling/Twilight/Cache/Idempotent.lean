import Twilight.Cache.Commute

/-!
Handling a member event a second time leaves the cache as the first time did.
-/

namespace Twilight.Cache

variable (s : InMemoryCache)

/-! ### Remove and update -/

theorem MemberRemove.update_update (event : MemberRemove) :
    event.update (event.update s) = event.update s := by
  by_cases wanted : s.wants ResourceType.MEMBER
  · have again : (event.update s).wants ResourceType.MEMBER :=
      (memberRemove_update_wants s event).trans wanted
    rw [MemberRemove.update_eq event _ again, MemberRemove.update_eq event s wanted]
    by_cases emptied : removeFromEntry s.userGuilds event.user.id event.guildId event.user.id =
      some ∅ <;> simp [emptied]
  · simp [MemberRemove.update, wanted]

theorem MemberUpdate.apply_apply (event : MemberUpdate) (member : CachedMember) :
    event.apply (event.apply member) = event.apply member := by
  have orIdem : ∀ (first second : Option Bool), first.or (first.or second) = first.or second :=
    fun first _ => by cases first <;> rfl
  simp [MemberUpdate.apply, orIdem]

theorem MemberUpdate.update_update (event : MemberUpdate) :
    event.update (event.update s) = event.update s := by
  by_cases wanted : s.wants ResourceType.MEMBER
  · have again : (event.update s).wants ResourceType.MEMBER :=
      (memberUpdate_update_wants s event).trans wanted
    rw [MemberUpdate.update_eq event _ again, MemberUpdate.update_eq event s wanted]
    simp [Option.map_map, Function.comp_def, MemberUpdate.apply_apply]
  · simp [MemberUpdate.update, wanted]

/-! ### Adds at one key -/

theorem CachedMember.eqMember_ofMember (guildId : GuildId) (member : Member) :
    (CachedMember.ofMember guildId member).eqMember member := by
  simp [CachedMember.eqMember, CachedMember.ofMember]

theorem CachedMember.eqMember_of_eqMember {cached : CachedMember} {a : Member}
    (same : cached.eqMember a) (guildId : GuildId) (b : Member) :
    cached.eqMember b = (CachedMember.ofMember guildId a).eqMember b := by
  simp only [CachedMember.eqMember, Bool.and_eq_true, decide_eq_true_eq] at same
  obtain ⟨⟨⟨⟨⟨⟨⟨deaf, joinedAt⟩, mute⟩, nick⟩, pending⟩, premiumSince⟩, roles⟩, userId⟩ := same
  simp [CachedMember.eqMember, CachedMember.ofMember, deaf, joinedAt, mute, nick, pending,
    premiumSince, roles, userId]

theorem MemberAdd.update_guildMembers (e : MemberAdd) (wanted : s.wants ResourceType.MEMBER) :
    (e.update s).guildMembers = addToEntry s.guildMembers e.member.guildId e.member.user.id := by
  rw [MemberAdd.update_eq s e wanted]

section SameKey

variable {s} {a b : MemberAdd}
  (sameKey : a.member.guildId = b.member.guildId ∧ a.member.user.id = b.member.user.id)
include sameKey

theorem cacheMemberUnchecked_cacheMemberUnchecked :
    (s.cacheMemberUnchecked a.member.guildId a.member).cacheMemberUnchecked b.member.guildId
      b.member = s.cacheMemberUnchecked b.member.guildId b.member := by
  obtain ⟨guild, user⟩ := sameKey
  apply InMemoryCache.ext <;> simp [guild, user]

theorem cacheMemberUnchecked_addToEntry :
    { s with guildMembers := addToEntry s.guildMembers a.member.guildId a.member.user.id
      }.cacheMemberUnchecked b.member.guildId b.member =
      s.cacheMemberUnchecked b.member.guildId b.member := by
  obtain ⟨guild, user⟩ := sameKey
  apply InMemoryCache.ext <;> simp [guild, user]

theorem cacheMemberUnchecked_memberAdd (wanted : s.wants ResourceType.MEMBER) :
    (a.update s).cacheMemberUnchecked b.member.guildId b.member =
      s.cacheMemberUnchecked b.member.guildId b.member := by
  rw [MemberAdd.update_eq s a wanted]
  dsimp only
  split
  · exact cacheMemberUnchecked_addToEntry sameKey
  · exact cacheMemberUnchecked_cacheMemberUnchecked sameKey

theorem memberAdd_any_eqMember (wanted : s.wants ResourceType.MEMBER) :
    ((a.update s).members (b.member.guildId, b.member.user.id)).any (·.eqMember b.member) =
      (CachedMember.ofMember a.member.guildId a.member).eqMember b.member := by
  obtain ⟨guild, user⟩ := sameKey
  rw [← guild, ← user, MemberAdd.update_eq s a wanted]
  dsimp only
  split
  next unchanged =>
    cases found : s.members (a.member.guildId, a.member.user.id) with
    | none => simp [found] at unchanged
    | some cached =>
      simpa [found] using
        CachedMember.eqMember_of_eqMember (by simpa [found] using unchanged) _ b.member
  next => simp

theorem memberAdd_memberAdd (wanted : s.wants ResourceType.MEMBER) :
    b.update (a.update s) =
      if (CachedMember.ofMember a.member.guildId a.member).eqMember b.member then a.update s
      else s.cacheMemberUnchecked b.member.guildId b.member := by
  have again : (a.update s).wants ResourceType.MEMBER := (memberAdd_update_wants s a).trans wanted
  rw [MemberAdd.update_eq _ b again]
  dsimp only
  rw [memberAdd_any_eqMember sameKey wanted]
  split
  · obtain ⟨guild, user⟩ := sameKey
    apply InMemoryCache.ext <;> simp [MemberAdd.update_guildMembers s a wanted, guild, user]
  · exact cacheMemberUnchecked_memberAdd sameKey wanted

end SameKey

theorem MemberAdd.update_update (event : MemberAdd) :
    event.update (event.update s) = event.update s := by
  by_cases wanted : s.wants ResourceType.MEMBER
  · rw [@memberAdd_memberAdd s event event ⟨rfl, rfl⟩ wanted,
      if_pos (CachedMember.eqMember_ofMember _ _)]
  · simp [MemberAdd.update, wanted]

/-! ### Runs of adds -/

theorem runAdds_sameKey (first : MemberAdd) (rest : List MemberAdd)
    (sameKey : ∀ b ∈ rest,
      first.member.guildId = b.member.guildId ∧ first.member.user.id = b.member.user.id) :
    (∀ s : InMemoryCache, s.wants ResourceType.MEMBER →
        runAdds (first :: rest) s = first.update s) ∨
      ∃ last ∈ first :: rest, ∀ s : InMemoryCache, s.wants ResourceType.MEMBER →
        runAdds (first :: rest) s = s.cacheMemberUnchecked last.member.guildId last.member := by
  induction rest generalizing first with
  | nil => exact .inl fun _ _ => rfl
  | cons next rest ih =>
    have head := sameKey next (List.mem_cons_self next rest)
    have tail : ∀ b ∈ rest,
        next.member.guildId = b.member.guildId ∧ next.member.user.id = b.member.user.id :=
      fun b mem => by
        have later := sameKey b (List.mem_cons_of_mem next mem)
        exact ⟨head.1.symm.trans later.1, head.2.symm.trans later.2⟩
    have again : ∀ s : InMemoryCache, s.wants ResourceType.MEMBER →
        (first.update s).wants ResourceType.MEMBER :=
      fun s wanted => (memberAdd_update_wants s first).trans wanted
    rcases ih next tail with whole | ⟨last, mem, whole⟩
    · by_cases same : (CachedMember.ofMember first.member.guildId first.member).eqMember next.member
      · refine .inl fun s wanted => ?_
        rw [runAdds_cons, whole _ (again s wanted), memberAdd_memberAdd head wanted, if_pos same]
      · refine .inr ⟨next, List.mem_cons_of_mem _ (List.mem_cons_self _ _), fun s wanted => ?_⟩
        rw [runAdds_cons, whole _ (again s wanted), memberAdd_memberAdd head wanted, if_neg same]
    · have key : first.member.guildId = last.member.guildId ∧
          first.member.user.id = last.member.user.id := by
        rcases List.mem_cons.mp mem with rfl | later
        · exact head
        · exact sameKey last (List.mem_cons_of_mem next later)
      refine .inr ⟨last, List.mem_cons_of_mem _ mem, fun s wanted => ?_⟩
      rw [runAdds_cons, whole _ (again s wanted), cacheMemberUnchecked_memberAdd key wanted]

theorem runAdds_runAdds_sameKey (first : MemberAdd) (rest : List MemberAdd)
    (sameKey : ∀ b ∈ rest,
      first.member.guildId = b.member.guildId ∧ first.member.user.id = b.member.user.id)
    (wanted : s.wants ResourceType.MEMBER) :
    runAdds (first :: rest) (runAdds (first :: rest) s) = runAdds (first :: rest) s := by
  have again := (runAdds_wants s (first :: rest)).trans wanted
  rcases runAdds_sameKey first rest sameKey with whole | ⟨last, -, whole⟩
  · rw [whole _ again, whole s wanted, MemberAdd.update_update]
  · rw [whole _ again, whole s wanted]
    exact @cacheMemberUnchecked_cacheMemberUnchecked s last last ⟨rfl, rfl⟩

theorem runAdds_runAdds (guildId : GuildId) (adds : List MemberAdd)
    (guild : ∀ a ∈ adds, a.member.guildId = guildId) (wanted : s.wants ResourceType.MEMBER) :
    runAdds adds (runAdds adds s) = runAdds adds s := by
  obtain ⟨n, size⟩ : ∃ n, adds.length = n := ⟨_, rfl⟩
  induction n using Nat.strong_induction_on generalizing adds s with
  | _ n ih =>
    cases adds with
    | nil => rfl
    | cons first rest =>
      let mine : MemberAdd → Bool := fun b => decide (b.member.user.id = first.member.user.id)
      have comm : ∀ a ∈ first :: rest, ∀ b ∈ first :: rest, mine a → mine b = false →
          ∀ s : InMemoryCache, b.update (a.update s) = a.update (b.update s) :=
        fun a _ b _ userA userB s => by
          simp only [mine, decide_eq_true_eq, decide_eq_false_iff_not] at userA userB
          exact memberAdd_comm_memberAdd s a b (fun same => userB (by simp_all))
            (fun same => absurd (userA ▸ same).symm userB)
      let others := (first :: rest).filter (!mine ·)
      have shorter : others.length < n := by
        have : others.length ≤ rest.length := by
          simpa [others, mine] using List.length_filter_le _ rest
        simp only [List.length_cons] at size
        omega
      have ownAdds : (first :: rest).filter mine = first :: rest.filter mine := by
        simp [mine]
      have sameKey : ∀ b ∈ rest.filter mine,
          first.member.guildId = b.member.guildId ∧ first.member.user.id = b.member.user.id :=
        fun b mem => by
          obtain ⟨mem, user⟩ := List.mem_filter.mp mem
          exact ⟨(guild first (List.mem_cons_self _ _)).trans
            (guild b (List.mem_cons_of_mem _ mem)).symm, (of_decide_eq_true user).symm⟩
      have split := fun y => runAdds_filter y mine (first :: rest) comm
      have commRuns : ∀ y, runAdds (first :: rest.filter mine) (runAdds others y) =
          runAdds others (runAdds (first :: rest.filter mine) y) := fun y =>
        runAdds_comm y others _ fun a memA b memB s => by
          rw [← ownAdds] at memB
          obtain ⟨memA, otherA⟩ := List.mem_filter.mp memA
          obtain ⟨memB, mineB⟩ := List.mem_filter.mp memB
          exact (comm b memB a memA mineB (by simpa using otherA) s).symm
      have settled := runAdds_runAdds_sameKey s first (rest.filter mine) sameKey wanted
      have settledWanted : (runAdds (first :: rest.filter mine)
          (runAdds (first :: rest.filter mine) s)).wants ResourceType.MEMBER :=
        (runAdds_wants _ _).trans ((runAdds_wants s _).trans wanted)
      calc runAdds (first :: rest) (runAdds (first :: rest) s)
          = runAdds others (runAdds others
              (runAdds (first :: rest.filter mine) (runAdds (first :: rest.filter mine) s))) := by
            rw [split, split, ownAdds, commRuns]
        _ = runAdds others (runAdds (first :: rest.filter mine) s) := by
            rw [ih _ shorter _ others (fun a mem => guild a (List.mem_of_mem_filter mem))
              settledWanted rfl, settled]
        _ = runAdds (first :: rest) s := by rw [split s, ownAdds]

theorem MemberChunk.update_update (event : MemberChunk) :
    event.update (event.update s) = event.update s := by
  by_cases wanted : s.wants ResourceType.MEMBER
  · rw [MemberChunk.update_eq_runAdds, MemberChunk.update_eq_runAdds]
    exact runAdds_runAdds s event.guildId _ (by simp [MemberChunk.memberAdd]) wanted
  · simp [MemberChunk.update, wanted]

/-- Handling any member event a second time leaves the cache as the first time did. -/
theorem event_update_idempotent (event : Event) (s : InMemoryCache) :
    event.update (event.update s) = event.update s := by
  cases event with
  | memberAdd event => exact event.update_update s
  | memberChunk event => exact event.update_update s
  | memberRemove event => exact event.update_update s
  | memberUpdate event => exact event.update_update s

end Twilight.Cache
