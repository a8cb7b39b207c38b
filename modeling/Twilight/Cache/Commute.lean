import Twilight.Cache.Bulk

/-!
Order independence of member events on different keys, and of a chunk's members up to each
user's own order.
-/

namespace Twilight.Cache

variable (s : InMemoryCache)

/-! ### Each single-key event, field by field -/

theorem memberRemove_update_wants (e : MemberRemove) :
    (e.update s).wants ResourceType.MEMBER = s.wants ResourceType.MEMBER := by
  by_cases wanted : s.wants ResourceType.MEMBER
  · rw [MemberRemove.update_eq e s wanted]
    rfl
  · simp [MemberRemove.update, wanted]

theorem memberUpdate_update_wants (e : MemberUpdate) :
    (e.update s).wants ResourceType.MEMBER = s.wants ResourceType.MEMBER := by
  by_cases wanted : s.wants ResourceType.MEMBER
  · rw [MemberUpdate.update_eq e s wanted]
    rfl
  · simp [MemberUpdate.update, wanted]

theorem memberAdd_update_wants (e : MemberAdd) :
    (e.update s).wants ResourceType.MEMBER = s.wants ResourceType.MEMBER := by
  rw [InMemoryCache.wants, memberAdd_update_config]
  rfl

/-! ### Pairs of single-key events -/

theorem update_profiles_comm (users : UserId → Option User) (p q : User)
    (agree : p.id = q.id → p = q) :
    Function.update (Function.update users p.id (some p)) q.id (some q) =
      Function.update (Function.update users q.id (some q)) p.id (some p) := by
  by_cases same : p.id = q.id
  · rw [agree same]
  · exact Function.update_comm same _ _ _

theorem memberAdd_comm_memberAdd (a b : MemberAdd)
    (keys : (a.member.guildId, a.member.user.id) ≠ (b.member.guildId, b.member.user.id))
    (profiles : a.member.user.id = b.member.user.id → a.member.user = b.member.user) :
    b.update (a.update s) = a.update (b.update s) := by
  by_cases wanted : s.wants ResourceType.MEMBER
  · have wantedA : (a.update s).wants ResourceType.MEMBER := by
      rwa [InMemoryCache.wants, memberAdd_update_config]
    have wantedB : (b.update s).wants ResourceType.MEMBER := by
      rwa [InMemoryCache.wants, memberAdd_update_config]
    rw [MemberAdd.update_eq (a.update s) b wantedA, MemberAdd.update_eq (b.update s) a wantedB,
      MemberAdd.update_eq s a wanted, MemberAdd.update_eq s b wanted]
    dsimp only
    have keys' := Ne.symm keys
    by_cases hitA : (s.members (a.member.guildId, a.member.user.id)).any (·.eqMember a.member) <;>
      by_cases hitB : (s.members (b.member.guildId, b.member.user.id)).any (·.eqMember b.member) <;>
      simp only [hitA, hitB, if_true, if_false, Bool.false_eq_true, Function.update_noteq keys,
        Function.update_noteq keys'] <;>
      refine InMemoryCache.ext rfl ?_ (addToEntry_comm _ _ _ _ _) ?_ ?_
    all_goals dsimp only
    all_goals first
      | rfl
      | exact Function.update_comm keys _ _ _
      | exact addToEntry_comm _ _ _ _ _
      | exact update_profiles_comm _ _ _ profiles
  · have unwanted : s.wants ResourceType.MEMBER = false := by simpa using wanted
    simp [memberAdd_update_of_not_wanted _ _ unwanted]

theorem profile_add_remove_comm (users : UserId → Option User)
    (userGuilds : UserId → Option (Finset GuildId)) (user : User) (ga gr : GuildId)
    (ur : UserId) (keys : ga ≠ gr ∨ user.id ≠ ur) :
    (if removeFromEntry (addToEntry userGuilds user.id ga) ur gr ur = some ∅ then
        Function.update (Function.update users user.id (some user)) ur none
      else Function.update users user.id (some user)) =
    Function.update (if removeFromEntry userGuilds ur gr ur = some ∅ then
        Function.update users ur none else users) user.id (some user) := by
  by_cases same : user.id = ur
  · subst same
    have guild : ga ≠ gr := keys.resolve_right (not_not.mpr rfl)
    have kept : removeFromEntry (addToEntry userGuilds user.id ga) user.id gr user.id ≠ some ∅ := by
      simp [removeFromEntry_apply, addToEntry_apply, ← Finset.nonempty_iff_ne_empty,
        Finset.erase_insert_of_ne guild]
    rw [if_neg kept]
    split <;> simp
  · have untouched : removeFromEntry (addToEntry userGuilds user.id ga) ur gr ur =
        removeFromEntry userGuilds ur gr ur := by
      simp [removeFromEntry_apply, addToEntry_apply, Ne.symm same]
    rw [untouched]
    split
    · exact Function.update_comm same _ _ _
    · rfl

theorem memberAdd_comm_memberRemove (a : MemberAdd) (r : MemberRemove)
    (keys : (a.member.guildId, a.member.user.id) ≠ (r.guildId, r.user.id)) :
    r.update (a.update s) = a.update (r.update s) := by
  by_cases wanted : s.wants ResourceType.MEMBER
  · have wantedA : (a.update s).wants ResourceType.MEMBER := by
      rwa [memberAdd_update_wants]
    have wantedR : (r.update s).wants ResourceType.MEMBER := by
      rwa [memberRemove_update_wants]
    rw [MemberRemove.update_eq r (a.update s) wantedA, MemberAdd.update_eq (r.update s) a wantedR,
      MemberAdd.update_eq s a wanted, MemberRemove.update_eq r s wanted]
    dsimp only
    have keys' := Ne.symm keys
    have distinct : a.member.guildId ≠ r.guildId ∨ a.member.user.id ≠ r.user.id := by
      by_contra both
      push_neg at both
      exact keys (Prod.ext both.1 both.2)
    have distinct' : a.member.user.id ≠ r.user.id ∨ a.member.guildId ≠ r.guildId :=
      distinct.symm
    by_cases hitA : (s.members (a.member.guildId, a.member.user.id)).any (·.eqMember a.member) <;>
      simp only [hitA, if_true, if_false, Bool.false_eq_true, Function.update_noteq keys] <;>
      refine InMemoryCache.ext rfl ?_ (addToEntry_removeFromEntry_comm _ _ _ _ _ distinct) ?_ ?_
    all_goals dsimp only
    all_goals first
      | rfl
      | exact Function.update_comm keys _ _ _
      | exact addToEntry_removeFromEntry_comm _ _ _ _ _ distinct'
      | exact profile_add_remove_comm _ _ _ _ _ _ distinct
  · have unwanted : s.wants ResourceType.MEMBER = false := by simpa using wanted
    have idle : r.update s = s := by simp [MemberRemove.update, unwanted]
    have idle' : r.update (a.update s) = a.update s := by
      simp [MemberRemove.update, memberAdd_update_wants, unwanted]
    rw [idle', idle]

theorem profile_remove_remove_comm (users : UserId → Option User)
    (userGuilds : UserId → Option (Finset GuildId)) (g₁ g₂ : GuildId) (u₁ u₂ : UserId) :
    let cascade (userGuilds : UserId → Option (Finset GuildId)) (users : UserId → Option User)
        (g : GuildId) (u : UserId) :=
      if removeFromEntry userGuilds u g u = some ∅ then Function.update users u none else users
    cascade (removeFromEntry userGuilds u₁ g₁) (cascade userGuilds users g₁ u₁) g₂ u₂ =
      cascade (removeFromEntry userGuilds u₂ g₂) (cascade userGuilds users g₂ u₂) g₁ u₁ := by
  intro cascade
  by_cases same : u₁ = u₂
  · subst same
    cases found : userGuilds u₁ with
    | none => simp [cascade, removeFromEntry_apply, found]
    | some set =>
      have swap : (set.erase g₁).erase g₂ = (set.erase g₂).erase g₁ := Finset.erase_right_comm
      simp only [cascade, removeFromEntry_apply, found, if_true, Option.map_some',
        Option.some.injEq]
      split_ifs <;> simp_all
  · have untouched : ∀ (g g' : GuildId) (u u' : UserId), u ≠ u' →
        removeFromEntry (removeFromEntry userGuilds u g) u' g' u' =
          removeFromEntry userGuilds u' g' u' := fun g g' u u' other => by
      simp [removeFromEntry_apply, Ne.symm other]
    simp only [cascade, untouched _ _ _ _ same, untouched _ _ _ _ (Ne.symm same)]
    split_ifs <;> simp [Function.update_comm same]

theorem memberRemove_comm_memberRemove (a b : MemberRemove)
    (keys : (a.guildId, a.user.id) ≠ (b.guildId, b.user.id)) :
    b.update (a.update s) = a.update (b.update s) := by
  by_cases wanted : s.wants ResourceType.MEMBER
  · have wantedA : (a.update s).wants ResourceType.MEMBER := by rwa [memberRemove_update_wants]
    have wantedB : (b.update s).wants ResourceType.MEMBER := by rwa [memberRemove_update_wants]
    rw [MemberRemove.update_eq b (a.update s) wantedA,
      MemberRemove.update_eq a (b.update s) wantedB, MemberRemove.update_eq a s wanted,
      MemberRemove.update_eq b s wanted]
    exact InMemoryCache.ext rfl (Function.update_comm keys _ _ _) (removeFromEntry_comm _ _ _ _ _)
      (removeFromEntry_comm _ _ _ _ _)
      (profile_remove_remove_comm s.users s.userGuilds a.guildId b.guildId a.user.id b.user.id)
  · have unwanted : s.wants ResourceType.MEMBER = false := by simpa using wanted
    have idle : ∀ (r : MemberRemove) (cache : InMemoryCache),
        cache.wants ResourceType.MEMBER = false → r.update cache = cache := fun r cache off => by
      simp [MemberRemove.update, off]
    rw [idle b s unwanted, idle a s unwanted, idle b s unwanted]

theorem memberUpdate_comm_memberAdd (u : MemberUpdate) (a : MemberAdd)
    (keys : (u.guildId, u.user.id) ≠ (a.member.guildId, a.member.user.id)) :
    a.update (u.update s) = u.update (a.update s) := by
  by_cases wanted : s.wants ResourceType.MEMBER
  · have wantedA : (a.update s).wants ResourceType.MEMBER := by rwa [memberAdd_update_wants]
    have wantedU : (u.update s).wants ResourceType.MEMBER := by rwa [memberUpdate_update_wants]
    rw [MemberUpdate.update_eq u (a.update s) wantedA, MemberAdd.update_eq (u.update s) a wantedU,
      MemberAdd.update_eq s a wanted, MemberUpdate.update_eq u s wanted]
    dsimp only
    have keys' := Ne.symm keys
    by_cases hitA : (s.members (a.member.guildId, a.member.user.id)).any (·.eqMember a.member) <;>
      simp only [hitA, if_true, if_false, Bool.false_eq_true, Function.update_noteq keys,
        Function.update_noteq keys']
    exact InMemoryCache.ext rfl (Function.update_comm keys _ _ _) rfl rfl rfl
  · have unwanted : s.wants ResourceType.MEMBER = false := by simpa using wanted
    simp [memberAdd_update_of_not_wanted _ _ unwanted, MemberUpdate.update, unwanted]

theorem memberUpdate_comm_memberRemove (u : MemberUpdate) (r : MemberRemove)
    (keys : (u.guildId, u.user.id) ≠ (r.guildId, r.user.id)) :
    r.update (u.update s) = u.update (r.update s) := by
  by_cases wanted : s.wants ResourceType.MEMBER
  · have wantedR : (r.update s).wants ResourceType.MEMBER := by rwa [memberRemove_update_wants]
    have wantedU : (u.update s).wants ResourceType.MEMBER := by rwa [memberUpdate_update_wants]
    rw [MemberUpdate.update_eq u (r.update s) wantedR,
      MemberRemove.update_eq r (u.update s) wantedU, MemberRemove.update_eq r s wanted,
      MemberUpdate.update_eq u s wanted]
    dsimp only
    simp only [Function.update_noteq keys]
    exact InMemoryCache.ext rfl (Function.update_comm keys _ _ _) rfl rfl rfl
  · have unwanted : s.wants ResourceType.MEMBER = false := by simpa using wanted
    simp [MemberRemove.update, MemberUpdate.update, unwanted]

theorem memberUpdate_comm_memberUpdate (a b : MemberUpdate)
    (keys : (a.guildId, a.user.id) ≠ (b.guildId, b.user.id)) :
    b.update (a.update s) = a.update (b.update s) := by
  by_cases wanted : s.wants ResourceType.MEMBER
  · have wantedA : (a.update s).wants ResourceType.MEMBER := by rwa [memberUpdate_update_wants]
    have wantedB : (b.update s).wants ResourceType.MEMBER := by rwa [memberUpdate_update_wants]
    rw [MemberUpdate.update_eq b (a.update s) wantedA, MemberUpdate.update_eq a (b.update s) wantedB,
      MemberUpdate.update_eq a s wanted, MemberUpdate.update_eq b s wanted]
    dsimp only
    simp only [Function.update_noteq keys, Function.update_noteq (Ne.symm keys)]
    exact InMemoryCache.ext rfl (Function.update_comm keys _ _ _) rfl rfl rfl
  · have unwanted : s.wants ResourceType.MEMBER = false := by simpa using wanted
    simp [MemberUpdate.update, unwanted]

/-! ### Events as runs of single-key events -/

def Event.keys : Event → List (GuildId × UserId)
  | .memberAdd e => [(e.member.guildId, e.member.user.id)]
  | .memberChunk e => e.members.map fun m => (e.guildId, m.user.id)
  | .memberRemove e => [(e.guildId, e.user.id)]
  | .memberUpdate e => [(e.guildId, e.user.id)]

def Event.profiles : Event → List User
  | .memberAdd e => [e.member.user]
  | .memberChunk e => e.members.map (·.user)
  | .memberRemove _ => []
  | .memberUpdate _ => []

/-- Two events on disjoint keys that agree on every profile they both carry. -/
def Independent (a b : Event) : Prop :=
  (∀ k ∈ a.keys, k ∉ b.keys) ∧ ∀ p ∈ a.profiles, ∀ q ∈ b.profiles, p.id = q.id → p = q

instance (a b : Event) : Decidable (Independent a b) :=
  inferInstanceAs (Decidable ((∀ k ∈ a.keys, k ∉ b.keys) ∧
    ∀ p ∈ a.profiles, ∀ q ∈ b.profiles, p.id = q.id → p = q))

def Event.atoms : Event → List Event
  | .memberChunk e => e.members.map fun m => .memberAdd (MemberChunk.memberAdd e.guildId m)
  | e => [e]

theorem Event.update_eq_atoms (e : Event) : e.update s = s.updateAll e.atoms := by
  cases e with
  | memberChunk e =>
    rw [Event.update, Event.atoms, MemberChunk.update_eq_foldl, updateAll_map_memberAdd]
  | _ => rfl

theorem Event.mem_atoms {e a : Event} (atom : a ∈ e.atoms) :
    (∀ c, a ≠ .memberChunk c) ∧ (∀ k ∈ a.keys, k ∈ e.keys) ∧ ∀ p ∈ a.profiles, p ∈ e.profiles := by
  cases e with
  | memberChunk c =>
    simp only [Event.atoms, List.mem_map] at atom
    obtain ⟨m, mem, rfl⟩ := atom
    refine ⟨fun _ => Event.noConfusion, ?_, ?_⟩ <;>
      simp [Event.keys, Event.profiles, MemberChunk.memberAdd] <;> exact ⟨m, mem, rfl⟩
  | _ =>
    simp only [Event.atoms, List.mem_singleton] at atom
    subst atom
    exact ⟨fun _ => Event.noConfusion, fun _ => id, fun _ => id⟩

theorem atom_comm (a b : Event) (singleA : ∀ c, a ≠ .memberChunk c)
    (singleB : ∀ c, b ≠ .memberChunk c) (independent : Independent a b) :
    b.update (a.update s) = a.update (b.update s) := by
  obtain ⟨keys, profiles⟩ := independent
  cases a with
  | memberChunk c => exact absurd rfl (singleA c)
  | memberAdd a =>
    cases b with
    | memberChunk c => exact absurd rfl (singleB c)
    | memberAdd b =>
      exact memberAdd_comm_memberAdd s a b (by simpa [Event.keys] using keys)
        (by simpa [Event.profiles] using profiles)
    | memberRemove r =>
      exact memberAdd_comm_memberRemove s a r (by simpa [Event.keys] using keys)
    | memberUpdate u =>
      exact (memberUpdate_comm_memberAdd s u a (.symm (by simpa [Event.keys] using keys))).symm
  | memberRemove r =>
    cases b with
    | memberChunk c => exact absurd rfl (singleB c)
    | memberAdd a =>
      exact (memberAdd_comm_memberRemove s a r (.symm (by simpa [Event.keys] using keys))).symm
    | memberRemove b =>
      exact memberRemove_comm_memberRemove s r b (by simpa [Event.keys] using keys)
    | memberUpdate u =>
      exact (memberUpdate_comm_memberRemove s u r (.symm (by simpa [Event.keys] using keys))).symm
  | memberUpdate u =>
    cases b with
    | memberChunk c => exact absurd rfl (singleB c)
    | memberAdd a =>
      exact memberUpdate_comm_memberAdd s u a (by simpa [Event.keys] using keys)
    | memberRemove r =>
      exact memberUpdate_comm_memberRemove s u r (by simpa [Event.keys] using keys)
    | memberUpdate b =>
      exact memberUpdate_comm_memberUpdate s u b (by simpa [Event.keys] using keys)

theorem updateAll_comm (as bs : List Event)
    (pairwise : ∀ a ∈ as, ∀ b ∈ bs, ∀ s : InMemoryCache, b.update (a.update s) = a.update (b.update s)) :
    (s.updateAll as).updateAll bs = (s.updateAll bs).updateAll as := by
  have single : ∀ b ∈ bs, ∀ s : InMemoryCache, b.update (s.updateAll as) = (b.update s).updateAll as := by
    intro b mem
    induction as with
    | nil => exact fun _ => rfl
    | cons a as ih =>
      intro s
      rw [InMemoryCache.updateAll, ih (fun a' mem' => pairwise a' (List.mem_cons_of_mem a mem')),
        pairwise a (List.mem_cons_self a as) b mem]
      rfl
  induction bs generalizing s with
  | nil => rfl
  | cons b bs ih =>
    rw [InMemoryCache.updateAll, single b (List.mem_cons_self b bs),
      ih (b.update s) (fun a mem b' mem' => pairwise a mem b' (List.mem_cons_of_mem b mem'))
        (fun b' mem' => single b' (List.mem_cons_of_mem b mem'))]
    rfl

/-- Two member events on disjoint keys, agreeing on the profiles they share, reach the same
cache in either order, from any cache. -/
theorem update_comm_of_independent (a b : Event) (independent : Independent a b) :
    b.update (a.update s) = a.update (b.update s) := by
  rw [Event.update_eq_atoms _ a, Event.update_eq_atoms _ b, Event.update_eq_atoms _ b,
    Event.update_eq_atoms _ a]
  refine updateAll_comm s a.atoms b.atoms fun x memX y memY s => ?_
  obtain ⟨singleX, keysX, profilesX⟩ := Event.mem_atoms memX
  obtain ⟨singleY, keysY, profilesY⟩ := Event.mem_atoms memY
  exact atom_comm s x y singleX singleY ⟨fun k mem own => independent.1 k (keysX k mem) (keysY k own),
    fun p memP q memQ same => independent.2 p (profilesX p memP) q (profilesY q memQ) same⟩

theorem update_comm_remove_add :
    let user : User := ⟨⟨1⟩, "user", "0001", none⟩
    let s := (InMemoryCache.empty ⟨ResourceType.MEMBER⟩).updateAll
      [.memberAdd ⟨⟨false, ⟨1⟩, none, false, none, false, none, [], user⟩⟩]
    let remove : Event := .memberRemove ⟨⟨1⟩, user⟩
    let add : Event := .memberAdd ⟨⟨true, ⟨2⟩, none, false, none, false, none, [], user⟩⟩
    Independent remove add ∧ add.update (remove.update s) = remove.update (add.update s) :=
  ⟨by decide, update_comm_of_independent _ _ _ (by decide)⟩

/-! ### Runs of adds -/

def runAdds (adds : List MemberAdd) (cache : InMemoryCache) : InMemoryCache :=
  adds.foldl (fun cache add => add.update cache) cache

theorem runAdds_cons (add : MemberAdd) (adds : List MemberAdd) :
    runAdds (add :: adds) s = runAdds adds (add.update s) := rfl

theorem runAdds_wants (adds : List MemberAdd) :
    (runAdds adds s).wants ResourceType.MEMBER = s.wants ResourceType.MEMBER := by
  induction adds generalizing s with
  | nil => rfl
  | cons add adds ih => exact (ih _).trans (memberAdd_update_wants s add)

theorem runAdds_eq_updateAll (adds : List MemberAdd) :
    runAdds adds s = s.updateAll (adds.map .memberAdd) :=
  (updateAll_map_memberAdd s adds id).symm

theorem runAdds_comm (first second : List MemberAdd)
    (comm : ∀ a ∈ first, ∀ b ∈ second, ∀ s : InMemoryCache,
      b.update (a.update s) = a.update (b.update s)) :
    runAdds second (runAdds first s) = runAdds first (runAdds second s) := by
  simp only [runAdds_eq_updateAll]
  refine updateAll_comm _ _ _ fun eventA memA eventB memB => ?_
  obtain ⟨a, inFirst, rfl⟩ := List.mem_map.mp memA
  obtain ⟨b, inSecond, rfl⟩ := List.mem_map.mp memB
  exact comm a inFirst b inSecond

theorem runAdds_filter (pick : MemberAdd → Bool) (adds : List MemberAdd)
    (comm : ∀ a ∈ adds, ∀ b ∈ adds, pick a → pick b = false → ∀ s : InMemoryCache,
      b.update (a.update s) = a.update (b.update s)) :
    runAdds adds s = runAdds (adds.filter (!pick ·)) (runAdds (adds.filter pick) s) := by
  induction adds generalizing s with
  | nil => rfl
  | cons add adds ih =>
    have rest := fun s => ih s (fun a memA b memB => comm a (List.mem_cons_of_mem add memA) b
      (List.mem_cons_of_mem add memB))
    cases picked : pick add
    · have past : runAdds (adds.filter pick) (add.update s) =
          add.update (runAdds (adds.filter pick) s) :=
        runAdds_comm s [add] _ fun a memA b memB s => by
          rw [List.mem_singleton.mp memA]
          obtain ⟨memB, pickB⟩ := List.mem_filter.mp memB
          exact (comm b (List.mem_cons_of_mem add memB) add (List.mem_cons_self add adds)
            pickB picked s).symm
      simp only [List.filter_cons, picked, Bool.not_false, if_true, Bool.false_eq_true, if_false]
      rw [runAdds_cons, rest, past]
      rfl
    · simp only [List.filter_cons, picked, Bool.not_true, if_true, Bool.false_eq_true, if_false]
      exact rest _

theorem MemberChunk.update_eq_runAdds (event : MemberChunk) :
    event.update s = runAdds (event.members.map (MemberChunk.memberAdd event.guildId)) s := by
  rw [runAdds, List.foldl_map]
  exact MemberChunk.update_eq_foldl event.guildId event.members s

theorem memberAdd_comm_of_user_ne {a b : MemberAdd} (other : a.member.user.id ≠ b.member.user.id) :
    b.update (a.update s) = a.update (b.update s) :=
  memberAdd_comm_memberAdd s a b (fun keys => other (Prod.mk.inj keys).2) fun same => absurd same other

theorem runAdds_eq_of_filter_user (adds adds' : List MemberAdd)
    (sameOrder : ∀ u, adds.filter (·.member.user.id == u) = adds'.filter (·.member.user.id == u)) :
    runAdds adds s = runAdds adds' s := by
  obtain ⟨n, size⟩ : ∃ n, adds.length = n := ⟨_, rfl⟩
  induction n using Nat.strong_induction_on generalizing adds adds' s with
  | _ n ih =>
    cases adds with
    | nil =>
      cases adds' with
      | nil => rfl
      | cons b rest => simpa using sameOrder b.member.user.id
    | cons first rest =>
      let mine : MemberAdd → Bool := (·.member.user.id == first.member.user.id)
      have comm : ∀ l : List MemberAdd, ∀ a ∈ l, ∀ b ∈ l, mine a → mine b = false →
          ∀ s : InMemoryCache, b.update (a.update s) = a.update (b.update s) :=
        fun _ _ _ _ _ userA userB _ => memberAdd_comm_of_user_ne _ fun same => by
          simp only [mine, beq_iff_eq, beq_eq_false_iff_ne, ne_eq] at userA userB
          exact userB (same ▸ userA)
      have swap : ∀ (l : List MemberAdd) (u : UserId),
          (l.filter (!mine ·)).filter (·.member.user.id == u) =
            (l.filter (·.member.user.id == u)).filter (!mine ·) := fun l u => by
        simp only [List.filter_filter, Bool.and_comm]
      have shorter : ((first :: rest).filter (!mine ·)).length < n := by
        have : ((first :: rest).filter (!mine ·)).length ≤ rest.length := by
          simpa [mine] using List.length_filter_le _ rest
        simp only [List.length_cons] at size
        omega
      have split := fun l => runAdds_filter s mine l (comm l)
      rw [split, split adds', sameOrder first.member.user.id]
      exact ih _ shorter _ _ _ (fun u => by rw [swap, swap, sameOrder u]) rfl

/-- A chunk reaches the same cache for any two member lists that hold, for each user, the
same members in the same order: members of different users may stand in any order. -/
theorem memberChunk_update_perm (s : InMemoryCache) (guildId : GuildId)
    (members members' : List Member)
    (sameOrder : ∀ u, members.filter (·.user.id == u) = members'.filter (·.user.id == u)) :
    (MemberChunk.mk guildId members).update s = (MemberChunk.mk guildId members').update s := by
  rw [MemberChunk.update_eq_runAdds, MemberChunk.update_eq_runAdds]
  refine runAdds_eq_of_filter_user s _ _ fun u => ?_
  simp only [List.filter_map]
  exact congrArg _ (sameOrder u)

theorem memberChunk_update_perm_repeated :
    let a : Member := ⟨false, ⟨1⟩, none, false, none, false, none, [], ⟨⟨1⟩, "a", "0001", none⟩⟩
    let a' : Member := ⟨true, ⟨1⟩, none, false, none, false, none, [], ⟨⟨1⟩, "a2", "0001", none⟩⟩
    let b : Member := ⟨true, ⟨1⟩, none, true, none, false, none, [], ⟨⟨2⟩, "b", "0002", none⟩⟩
    let s := InMemoryCache.empty ⟨ResourceType.MEMBER⟩
    (∀ u, [a, b, a'].filter (·.user.id == u) = [b, a, a'].filter (·.user.id == u)) ∧
      (MemberChunk.mk ⟨1⟩ [a, b, a']).update s = (MemberChunk.mk ⟨1⟩ [b, a, a']).update s :=
  have sameOrder : ∀ u : UserId, _ := fun u => by
    by_cases one : u = ⟨1⟩
    · subst one
      decide
    by_cases two : u = ⟨2⟩
    · subst two
      decide
    simp [List.filter_cons, Ne.symm one, Ne.symm two]
  ⟨sameOrder, memberChunk_update_perm _ _ _ _ sameOrder⟩

end Twilight.Cache
