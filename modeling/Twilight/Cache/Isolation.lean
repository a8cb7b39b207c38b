import Twilight.Cache.Commute

/-!
Isolation of guilds and users over every run of member calls: a view of one owner is kept by
calls about others (`Keeps`) and determined by the view before (`Respects`).
-/

namespace Twilight.Cache

def MemberOp.guildId : MemberOp → GuildId
  | .event (.memberAdd e) => e.member.guildId
  | .event (.memberChunk e) => e.guildId
  | .event (.memberRemove e) => e.guildId
  | .event (.memberUpdate e) => e.guildId
  | .partialMember guildId _ _ => guildId
  | .interactionMember guildId _ => guildId

def MemberOp.userIds : MemberOp → List UserId
  | .event (.memberAdd e) => [e.member.user.id]
  | .event (.memberChunk e) => e.members.map (·.user.id)
  | .event (.memberRemove e) => [e.user.id]
  | .event (.memberUpdate e) => [e.user.id]
  | .partialMember _ _ userId => [userId]
  | .interactionMember _ member => [member.id]

/-- What a guild owns: its records and its roster. -/
def InMemoryCache.guildView (cache : InMemoryCache) (g : GuildId) :
    (UserId → Option CachedMember) × Option (Finset UserId) :=
  (fun u => cache.members (g, u), cache.guildMembers g)

/-- What a user owns: their record in every guild, their membership set, their profile, and
their place in every roster. -/
def InMemoryCache.userView (cache : InMemoryCache) (u : UserId) :
    (GuildId → Option CachedMember) × Option (Finset GuildId) × Option User × (GuildId → Bool) :=
  (fun g => cache.members (g, u), cache.userGuilds u, cache.users u,
    fun g => decide (u ∈ (cache.guildMembers g).getD ∅))

section Views

variable {β : Type} (view : InMemoryCache → β)

/-- A call that leaves the view as it was. -/
def Keeps (f : InMemoryCache → InMemoryCache) : Prop := ∀ s, view (f s) = view s

/-- A call whose effect on the view is decided by the view and the configuration. -/
def Respects (f : InMemoryCache → InMemoryCache) : Prop :=
  ∀ s t, s.config = t.config → view s = view t → view (f s) = view (f t)

end Views

theorem Keeps.respects {β : Type} {view : InMemoryCache → β} {f : InMemoryCache → InMemoryCache}
    (keeps : Keeps view f) : Respects view f :=
  fun s t _ same => (keeps s).trans (same.trans (keeps t).symm)

/-! ### Configuration and the `wants` gate -/

theorem InMemoryCache.cacheMembers_config (s : InMemoryCache) (g : GuildId)
    (members : List Member) : (s.cacheMembers g members).config = s.config := by
  induction members generalizing s with
  | nil => rfl
  | cons m ms ih => simp [InMemoryCache.cacheMembers, ih]

theorem Event.update_config (e : Event) (s : InMemoryCache) : (e.update s).config = s.config := by
  cases e with
  | memberAdd e => exact memberAdd_update_config e s
  | memberChunk e =>
    show (e.update s).config = s.config
    unfold MemberChunk.update
    split
    · rfl
    · split
      · rfl
      · exact InMemoryCache.cacheMembers_config _ _ _
  | memberRemove e =>
    show (e.update s).config = s.config
    unfold MemberRemove.update
    split
    · rfl
    · dsimp only
      split <;> rfl
  | memberUpdate e =>
    show (e.update s).config = s.config
    unfold MemberUpdate.update
    split
    · rfl
    · split <;> rfl

theorem Event.update_of_not_wanted (e : Event) (s : InMemoryCache)
    (unwanted : s.wants ResourceType.MEMBER = false) : e.update s = s := by
  cases e <;> simp [Event.update, MemberAdd.update, MemberChunk.update, MemberRemove.update,
    MemberUpdate.update, unwanted]

section Gate

variable {β : Type} (view : InMemoryCache → β) (e : Event)

theorem Event.keeps_of_wanted
    (body : ∀ s, s.wants ResourceType.MEMBER → view (e.update s) = view s) :
    Keeps view e.update := by
  intro s
  by_cases wanted : s.wants ResourceType.MEMBER
  · exact body s wanted
  · rw [e.update_of_not_wanted s (by simpa using wanted)]

theorem Event.respects_of_wanted
    (body : ∀ s t, s.wants ResourceType.MEMBER → t.wants ResourceType.MEMBER →
      view s = view t → view (e.update s) = view (e.update t)) :
    Respects view e.update := by
  intro s t config same
  have wants : t.wants ResourceType.MEMBER = s.wants ResourceType.MEMBER := by
    simp [InMemoryCache.wants, config]
  by_cases wanted : s.wants ResourceType.MEMBER
  · exact body s t wanted (wants ▸ wanted) same
  · rw [e.update_of_not_wanted s (by simpa using wanted),
      e.update_of_not_wanted t (by simpa [wants] using wanted)]
    exact same

end Gate

/-! ### The embedded-reference helpers, field by field -/

theorem storeRecord_guarded_idem {f : InMemoryCache → InMemoryCache} {key : GuildId × UserId}
    (test : Option CachedMember → Bool) (record : Option CachedMember → CachedMember)
    (spec : ∀ t, f t = if test (t.members key) then t else t.storeRecord key (record (t.members key)))
    (stable : ∀ found, record (some (record found)) = record found) (s : InMemoryCache) :
    f (f s) = f s := by
  rw [spec s]
  split
  next passed => rw [spec s, if_pos passed]
  next =>
    rw [spec, InMemoryCache.storeRecord_members, Function.update_same]
    split
    · rfl
    · rw [stable, InMemoryCache.storeRecord_storeRecord]

/-- Both embedded-reference writes are idempotent: a member carried twice, by a repeated
message or interaction, leaves the cache as one delivery does. -/
theorem embedded_writes_idempotent (s : InMemoryCache) (g : GuildId) (p : PartialMember) (u : UserId)
    (i : InteractionMember) :
    (s.cacheBorrowedPartialMember g p u).cacheBorrowedPartialMember g p u =
        s.cacheBorrowedPartialMember g p u ∧
      (s.cacheBorrowedInteractionMember g i).cacheBorrowedInteractionMember g i =
        s.cacheBorrowedInteractionMember g i :=
  ⟨storeRecord_guarded_idem (·.any (·.eqPartialMember p))
      (fun _ => ⟨some p.deaf, g, p.joinedAt, some p.mute, p.nick, false, none, p.roles, u⟩)
      (fun t => t.cacheBorrowedPartialMember_eq g p u) (fun _ => rfl) s,
    storeRecord_guarded_idem (·.any (·.eqInteractionMember i))
      (fun found => ⟨found.bind (·.deaf), g, i.joinedAt, found.bind (·.mute), i.nick, false,
        i.premiumSince, i.roles, i.id⟩)
      (fun t => t.cacheBorrowedInteractionMember_eq g i) (fun _ => rfl) s⟩

theorem MemberOp.apply_config (op : MemberOp) (s : InMemoryCache) :
    (op.apply s).config = s.config := by
  cases op with
  | event e => exact e.update_config s
  | partialMember g p u =>
    show (s.cacheBorrowedPartialMember g p u).config = _
    rw [InMemoryCache.cacheBorrowedPartialMember_eq]
    split <;> rfl
  | interactionMember g i =>
    show (s.cacheBorrowedInteractionMember g i).config = _
    rw [InMemoryCache.cacheBorrowedInteractionMember_eq]
    split <;> rfl

/-! ### Runs of calls -/

section Folds

variable {β : Type} {view : InMemoryCache → β} {α : Type} {f : α → InMemoryCache → InMemoryCache}

theorem Keeps.foldl (xs : List α) (each : ∀ x ∈ xs, Keeps view (f x)) :
    Keeps view (fun s => xs.foldl (fun c x => f x c) s) := by
  induction xs with
  | nil => exact fun _ => rfl
  | cons x xs ih =>
    intro s
    exact (ih (fun y mem => each y (List.mem_cons_of_mem x mem)) _).trans
      (each x (List.mem_cons_self x xs) s)

theorem Respects.foldl (config : ∀ x s, (f x s).config = s.config) (xs : List α)
    (each : ∀ x ∈ xs, Respects view (f x)) :
    Respects view (fun s => xs.foldl (fun c x => f x c) s) := by
  induction xs with
  | nil => exact fun _ _ _ same => same
  | cons x xs ih =>
    intro s t sameConfig same
    exact ih (fun y mem => each y (List.mem_cons_of_mem x mem)) _ _
      (by rw [config, config, sameConfig]) (each x (List.mem_cons_self x xs) s t sameConfig same)

end Folds

theorem Event.memberChunk_update (e : MemberChunk) :
    (Event.memberChunk e).update =
      fun s => e.members.foldl (fun c m => (MemberChunk.memberAdd e.guildId m).update c) s :=
  funext fun s => MemberChunk.update_eq_foldl e.guildId e.members s

section Unwinding

variable {β : Type} (view : InMemoryCache → β) (concerns : MemberOp → Bool)

theorem applyAll_view_filter
    (keeps : ∀ op : MemberOp, concerns op = false → Keeps view op.apply)
    (respects : ∀ op : MemberOp, Respects view op.apply) :
    ∀ (ops : List MemberOp) (s t : InMemoryCache), s.config = t.config → view s = view t →
      view (s.applyAll ops) = view (t.applyAll (ops.filter concerns))
  | [], _, _, _, same => same
  | op :: ops, s, t, config, same => by
    by_cases concerned : concerns op
    · rw [List.filter_cons_of_pos concerned]
      exact applyAll_view_filter keeps respects ops _ _
        (by rw [MemberOp.apply_config, MemberOp.apply_config, config]) (respects op s t config same)
    · rw [List.filter_cons_of_neg concerned]
      exact applyAll_view_filter keeps respects ops _ _ (by rw [MemberOp.apply_config, config])
        ((keeps op (by simpa using concerned) s).trans same)

end Unwinding

/-! ### Guilds -/

section Guild

variable {g : GuildId}

theorem memberAdd_keeps_guildView (e : MemberAdd) (other : e.member.guildId ≠ g) :
    Keeps (·.guildView g) (Event.memberAdd e).update :=
  Event.keeps_of_wanted _ _ fun s wanted => by
    rw [Event.update, MemberAdd.update_eq s e wanted]
    simp [InMemoryCache.guildView, Function.update_apply, ite_apply, addToEntry_of_ne,
      Ne.symm other]

theorem memberAdd_respects_guildView (e : MemberAdd) (here : e.member.guildId = g) :
    Respects (·.guildView g) (Event.memberAdd e).update :=
  Event.respects_of_wanted _ _ fun s t wantedS wantedT same => by
    subst here
    simp only [InMemoryCache.guildView, Prod.mk.injEq, funext_iff] at same ⊢
    rw [Event.update, MemberAdd.update_eq s e wantedS, MemberAdd.update_eq t e wantedT]
    simp [Function.update_apply, ite_apply, addToEntry_self, same]

theorem MemberOp.keeps_guildView (op : MemberOp) (other : op.guildId ≠ g) :
    Keeps (·.guildView g) op.apply := by
  cases op with
  | event e =>
    cases e with
    | memberAdd e => exact memberAdd_keeps_guildView e other
    | memberChunk e =>
      show Keeps _ (Event.memberChunk e).update
      rw [Event.memberChunk_update]
      exact Keeps.foldl _ fun m _ => memberAdd_keeps_guildView _ other
    | memberRemove e =>
      show Keeps _ (Event.memberRemove e).update
      refine Event.keeps_of_wanted _ _ fun s wanted => ?_
      rw [Event.update, MemberRemove.update_eq e s wanted]
      simp [InMemoryCache.guildView, Function.update_apply, removeFromEntry_of_ne,
        Ne.symm (show e.guildId ≠ g from other)]
    | memberUpdate e =>
      show Keeps _ (Event.memberUpdate e).update
      refine Event.keeps_of_wanted _ _ fun s wanted => ?_
      rw [Event.update, MemberUpdate.update_eq e s wanted]
      simp [InMemoryCache.guildView, Function.update_apply, Ne.symm (show e.guildId ≠ g from other)]
  | partialMember g' p v =>
    have other : g' ≠ g := other
    intro s
    rw [MemberOp.apply, InMemoryCache.cacheBorrowedPartialMember_eq]
    split
    · rfl
    · simp [InMemoryCache.guildView, Function.update_apply, addToEntry_of_ne, Ne.symm other]
  | interactionMember g' i =>
    have other : g' ≠ g := other
    intro s
    rw [MemberOp.apply, InMemoryCache.cacheBorrowedInteractionMember_eq]
    split
    · rfl
    · simp [InMemoryCache.guildView, Function.update_apply, addToEntry_of_ne, Ne.symm other]

theorem MemberOp.respects_guildView (op : MemberOp) : Respects (·.guildView g) op.apply := by
  by_cases here : op.guildId = g
  swap
  · exact (op.keeps_guildView here).respects
  cases op with
  | event e =>
    cases e with
    | memberAdd e => exact memberAdd_respects_guildView e here
    | memberChunk e =>
      show Respects _ (Event.memberChunk e).update
      rw [Event.memberChunk_update]
      exact Respects.foldl (fun _ s => memberAdd_update_config _ s) _
        fun m _ => memberAdd_respects_guildView _ here
    | memberRemove e =>
      show Respects _ (Event.memberRemove e).update
      refine Event.respects_of_wanted _ _ fun s t wantedS wantedT same => ?_
      obtain rfl : e.guildId = g := here
      simp only [InMemoryCache.guildView, Prod.mk.injEq, funext_iff] at same ⊢
      rw [Event.update, MemberRemove.update_eq e s wantedS,
        MemberRemove.update_eq e t wantedT]
      simp [Function.update_apply, removeFromEntry_self, same]
    | memberUpdate e =>
      show Respects _ (Event.memberUpdate e).update
      refine Event.respects_of_wanted _ _ fun s t wantedS wantedT same => ?_
      obtain rfl : e.guildId = g := here
      simp only [InMemoryCache.guildView, Prod.mk.injEq, funext_iff] at same ⊢
      rw [Event.update, MemberUpdate.update_eq e s wantedS, MemberUpdate.update_eq e t wantedT]
      simp [Function.update_apply, same]
  | partialMember g' p v =>
    intro s t _ same
    obtain rfl : g' = g := here
    simp only [InMemoryCache.guildView, Prod.mk.injEq, funext_iff] at same ⊢
    simp only [MemberOp.apply, InMemoryCache.cacheBorrowedPartialMember_eq, same.1]
    split
    · exact same
    · simp [Function.update_apply, addToEntry_self, same]
  | interactionMember g' i =>
    intro s t _ same
    obtain rfl : g' = g := here
    simp only [InMemoryCache.guildView, Prod.mk.injEq, funext_iff] at same ⊢
    simp only [MemberOp.apply, InMemoryCache.cacheBorrowedInteractionMember_eq, same.1]
    split
    · exact same
    · simp [Function.update_apply, addToEntry_self, same]

end Guild

/-- Calls in other guilds never reach a guild's records or roster: after any run of member
events and embedded-reference writes, from any state, guild `g` holds what the run of its
own calls alone leaves. -/
theorem applyAll_guildView_isolated (s : InMemoryCache) (g : GuildId) (ops : List MemberOp) :
    (s.applyAll ops).guildView g = (s.applyAll (ops.filter (·.guildId = g))).guildView g :=
  applyAll_view_filter _ _ (fun op other => op.keeps_guildView (by simpa using other))
    (fun op => op.respects_guildView) ops s s rfl rfl

/-! ### Users -/

section User

variable {u : UserId}

theorem memberAdd_keeps_userView (e : MemberAdd) (other : e.member.user.id ≠ u) :
    Keeps (·.userView u) (Event.memberAdd e).update :=
  Event.keeps_of_wanted _ _ fun s wanted => by
    rw [Event.update, MemberAdd.update_eq s e wanted]
    simp [InMemoryCache.userView, Function.update_apply, ite_apply, addToEntry_of_ne,
      Ne.symm other]

theorem memberAdd_respects_userView (e : MemberAdd) :
    Respects (·.userView u) (Event.memberAdd e).update := by
  by_cases here : e.member.user.id = u
  swap
  · exact (memberAdd_keeps_userView e here).respects
  refine Event.respects_of_wanted _ _ fun s t wantedS wantedT same => ?_
  subst here
  simp only [InMemoryCache.userView, Prod.mk.injEq, funext_iff, decide_eq_decide] at same ⊢
  rw [Event.update, MemberAdd.update_eq s e wantedS, MemberAdd.update_eq t e wantedT]
  simp [Function.update_apply, ite_apply, addToEntry_self, same]

theorem MemberOp.keeps_userView (op : MemberOp) (other : u ∉ op.userIds) :
    Keeps (·.userView u) op.apply := by
  cases op with
  | event e =>
    cases e with
    | memberAdd e =>
      exact memberAdd_keeps_userView e (by simpa [MemberOp.userIds, eq_comm] using other)
    | memberChunk e =>
      show Keeps _ (Event.memberChunk e).update
      rw [Event.memberChunk_update]
      refine Keeps.foldl _ fun m mem => memberAdd_keeps_userView _ fun same => other ?_
      exact List.mem_map.mpr ⟨m, mem, same⟩
    | memberRemove e =>
      have other : e.user.id ≠ u := by simpa [MemberOp.userIds, eq_comm] using other
      show Keeps _ (Event.memberRemove e).update
      refine Event.keeps_of_wanted _ _ fun s wanted => ?_
      rw [Event.update, MemberRemove.update_eq e s wanted]
      simp [InMemoryCache.userView, Function.update_apply, ite_apply, removeFromEntry_of_ne,
        Ne.symm other]
    | memberUpdate e =>
      have other : e.user.id ≠ u := by simpa [MemberOp.userIds, eq_comm] using other
      show Keeps _ (Event.memberUpdate e).update
      refine Event.keeps_of_wanted _ _ fun s wanted => ?_
      rw [Event.update, MemberUpdate.update_eq e s wanted]
      simp [InMemoryCache.userView, Function.update_apply, Ne.symm other]
  | partialMember g' p v =>
    have other : v ≠ u := by simpa [MemberOp.userIds, eq_comm] using other
    intro s
    rw [MemberOp.apply, InMemoryCache.cacheBorrowedPartialMember_eq]
    split
    · rfl
    · simp [InMemoryCache.userView, Function.update_apply, Ne.symm other]
  | interactionMember g' i =>
    have other : i.id ≠ u := by simpa [MemberOp.userIds, eq_comm] using other
    intro s
    rw [MemberOp.apply, InMemoryCache.cacheBorrowedInteractionMember_eq]
    split
    · rfl
    · simp [InMemoryCache.userView, Function.update_apply, Ne.symm other]

theorem MemberOp.respects_userView (op : MemberOp) : Respects (·.userView u) op.apply := by
  by_cases here : u ∈ op.userIds
  swap
  · exact (op.keeps_userView here).respects
  cases op with
  | event e =>
    cases e with
    | memberAdd e => exact memberAdd_respects_userView e
    | memberChunk e =>
      show Respects _ (Event.memberChunk e).update
      rw [Event.memberChunk_update]
      exact Respects.foldl (fun _ s => memberAdd_update_config _ s) _
        fun m _ => memberAdd_respects_userView _
    | memberRemove e =>
      show Respects _ (Event.memberRemove e).update
      refine Event.respects_of_wanted _ _ fun s t wantedS wantedT same => ?_
      obtain rfl : u = e.user.id := List.mem_singleton.mp here
      simp only [InMemoryCache.userView, Prod.mk.injEq, funext_iff, decide_eq_decide] at same ⊢
      rw [Event.update, MemberRemove.update_eq e s wantedS,
        MemberRemove.update_eq e t wantedT]
      simp [Function.update_apply, ite_apply, removeFromEntry_self, same]
    | memberUpdate e =>
      show Respects _ (Event.memberUpdate e).update
      refine Event.respects_of_wanted _ _ fun s t wantedS wantedT same => ?_
      obtain rfl : u = e.user.id := List.mem_singleton.mp here
      simp only [InMemoryCache.userView, Prod.mk.injEq, funext_iff, decide_eq_decide] at same ⊢
      rw [Event.update, MemberUpdate.update_eq e s wantedS, MemberUpdate.update_eq e t wantedT]
      simp [Function.update_apply, same]
  | partialMember g' p v =>
    intro s t _ same
    obtain rfl : u = v := List.mem_singleton.mp here
    simp only [InMemoryCache.userView, Prod.mk.injEq, funext_iff, decide_eq_decide] at same ⊢
    simp only [MemberOp.apply, InMemoryCache.cacheBorrowedPartialMember_eq, same.1]
    split
    · exact same
    · simp [Function.update_apply, same]
  | interactionMember g' i =>
    intro s t _ same
    obtain rfl : u = i.id := List.mem_singleton.mp here
    simp only [InMemoryCache.userView, Prod.mk.injEq, funext_iff, decide_eq_decide] at same ⊢
    simp only [MemberOp.apply, InMemoryCache.cacheBorrowedInteractionMember_eq, same.1]
    split
    · exact same
    · simp [Function.update_apply, same]

end User

/-- Calls that do not name a user never reach that user's records, membership set, profile
or places in the rosters: after any run of member events and embedded-reference writes,
from any state, user `u` holds what the run of the calls naming them alone leaves. -/
theorem applyAll_userView_isolated (s : InMemoryCache) (u : UserId) (ops : List MemberOp) :
    (s.applyAll ops).userView u = (s.applyAll (ops.filter (u ∈ ·.userIds))).userView u :=
  applyAll_view_filter _ _ (fun op other => op.keeps_userView (by simpa using other))
    (fun op => op.respects_userView) ops s s rfl rfl

end Twilight.Cache
