import Twilight.Cache.Isolation

/-!
Where records and profiles come from over any run of member calls.
-/

namespace Twilight.Cache

def MemberOp.storesRecords : MemberOp → Bool
  | .event (.memberRemove _) | .event (.memberUpdate _) => false
  | _ => true

def MemberOp.storesProfiles : MemberOp → Bool
  | .event (.memberAdd _) | .event (.memberChunk _) => true
  | _ => false

/-! ### One call -/

section Handlers

variable {s : InMemoryCache}

theorem MemberRemove.isSome_members (e : MemberRemove) (wanted : s.wants ResourceType.MEMBER)
    (key : GuildId × UserId) (present : ((e.update s).members key).isSome) :
    (s.members key).isSome := by
  rw [MemberRemove.update_eq e s wanted] at present
  dsimp only at present
  rw [Function.update_apply] at present
  split at present
  · simp at present
  · exact present

theorem MemberRemove.isSome_users (e : MemberRemove) (wanted : s.wants ResourceType.MEMBER)
    (v : UserId) (present : ((e.update s).users v).isSome) : (s.users v).isSome := by
  rw [MemberRemove.update_eq e s wanted] at present
  dsimp only at present
  split at present
  · rw [Function.update_apply] at present
    split at present
    · simp at present
    · exact present
  · exact present

theorem MemberUpdate.isSome_members (e : MemberUpdate) (wanted : s.wants ResourceType.MEMBER)
    (key : GuildId × UserId) (present : ((e.update s).members key).isSome) :
    (s.members key).isSome := by
  rw [MemberUpdate.update_eq e s wanted] at present
  dsimp only at present
  rw [Function.update_apply] at present
  split at present
  next updated =>
    rw [updated]
    simpa using present
  next => exact present

end Handlers

variable {g : GuildId} {u : UserId}

theorem MemberOp.members_of_not_named (op : MemberOp) (s : InMemoryCache)
    (other : ¬(op.guildId = g ∧ u ∈ op.userIds)) :
    (op.apply s).members (g, u) = s.members (g, u) := by
  by_cases guild : op.guildId = g
  · exact congrArg (·.1 g) (op.keeps_userView (fun named => other ⟨guild, named⟩) s)
  · exact congrArg (·.1 u) (op.keeps_guildView guild s)

theorem MemberOp.record_provenance (op : MemberOp) (s : InMemoryCache)
    (present : ((op.apply s).members (g, u)).isSome) :
    (s.members (g, u)).isSome ∨ (op.storesRecords ∧ op.guildId = g ∧ u ∈ op.userIds) := by
  by_cases named : op.guildId = g ∧ u ∈ op.userIds
  swap
  · exact .inl (op.members_of_not_named s named ▸ present)
  cases op with
  | event e =>
    by_cases wanted : s.wants ResourceType.MEMBER
    swap
    · exact .inl (by rwa [MemberOp.apply, e.update_of_not_wanted s (by simpa using wanted)] at present)
    cases e with
    | memberRemove e => exact .inl (MemberRemove.isSome_members e wanted _ present)
    | memberUpdate e => exact .inl (MemberUpdate.isSome_members e wanted _ present)
    | _ => exact .inr ⟨rfl, named⟩
  | _ => exact .inr ⟨rfl, named⟩

theorem MemberOp.profile_provenance (op : MemberOp) (s : InMemoryCache)
    (present : ((op.apply s).users u).isSome) :
    (s.users u).isSome ∨ (op.storesProfiles ∧ u ∈ op.userIds) := by
  by_cases named : u ∈ op.userIds
  swap
  · have kept : (op.apply s).users u = s.users u := congrArg (·.2.2.1) (op.keeps_userView named s)
    exact .inl (kept ▸ present)
  cases op with
  | event e =>
    by_cases wanted : s.wants ResourceType.MEMBER
    swap
    · exact .inl (by rwa [MemberOp.apply, e.update_of_not_wanted s (by simpa using wanted)] at present)
    cases e with
    | memberRemove e => exact .inl (MemberRemove.isSome_users e wanted _ present)
    | memberUpdate e =>
      rw [MemberOp.apply, Event.update, MemberUpdate.update_eq e s wanted] at present
      exact .inl present
    | _ => exact .inr ⟨rfl, named⟩
  | partialMember g' p v =>
    rw [MemberOp.apply, InMemoryCache.cacheBorrowedPartialMember_eq] at present
    split at present <;> exact .inl present
  | interactionMember g' i =>
    rw [MemberOp.apply, InMemoryCache.cacheBorrowedInteractionMember_eq] at present
    split at present <;> exact .inl present

/-! ### Runs -/

theorem applyAll_provenance_of_apply (P : InMemoryCache → Prop) (Q : MemberOp → Prop)
    (each : ∀ op s, P (op.apply s) → P s ∨ Q op) :
    ∀ (ops : List MemberOp) (s : InMemoryCache), P (s.applyAll ops) → P s ∨ ∃ op ∈ ops, Q op
  | [], _, present => .inl present
  | op :: ops, s, present =>
    match applyAll_provenance_of_apply P Q each ops (op.apply s) present with
    | .inl before => (each op s before).imp id fun here => ⟨op, List.mem_cons_self _ _, here⟩
    | .inr ⟨other, mem, here⟩ => .inr ⟨other, List.mem_cons_of_mem _ mem, here⟩

/-- Records and profiles appear only through calls that store them: after any run of member
events and embedded-reference writes, from any state, a record at `(g, u)` that was not
cached was stored by an add or a chunk of guild `g` naming `u` or by an embedded-reference
write for `(g, u)`, and a profile of `u` that was not cached was stored by an add or a chunk
naming `u`. Removes and updates never store either. -/
theorem applyAll_provenance (s : InMemoryCache) (ops : List MemberOp) (g : GuildId)
    (u : UserId) :
    (((s.applyAll ops).members (g, u)).isSome → (s.members (g, u)).isSome ∨
      ∃ op ∈ ops, op.storesRecords ∧ op.guildId = g ∧ u ∈ op.userIds) ∧
    (((s.applyAll ops).users u).isSome → (s.users u).isSome ∨
      ∃ op ∈ ops, op.storesProfiles ∧ u ∈ op.userIds) :=
  ⟨applyAll_provenance_of_apply (fun c => (c.members (g, u)).isSome)
      (fun op => op.storesRecords ∧ op.guildId = g ∧ u ∈ op.userIds)
      (fun op s => op.record_provenance s) ops s,
    applyAll_provenance_of_apply (fun c => (c.users u).isSome)
      (fun op => op.storesProfiles ∧ u ∈ op.userIds) (fun op s => op.profile_provenance s) ops s⟩

end Twilight.Cache
