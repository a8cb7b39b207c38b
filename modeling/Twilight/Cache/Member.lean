import Twilight.Cache.Model

/-!
The member handlers of `event/member.rs`: the `cache_member` family and
`UpdateCache::update` for the four member events, each as one function on the cache.
-/

namespace Twilight.Cache

/-- Modelled from the spec: `cache_user` is not under src/. It stores the profile under its
id and, given a guild, adds that guild to the user's membership set. -/
def InMemoryCache.cacheUser (self : InMemoryCache) (user : User) (guildId : Option GuildId) :
    InMemoryCache :=
  let self := { self with users := Function.update self.users user.id (some user) }
  match guildId with
  | some guildId => { self with userGuilds := addToEntry self.userGuilds user.id guildId }
  | none => self

def CachedMember.ofMember (guildId : GuildId) (member : Member) : CachedMember where
  deaf := some member.deaf
  guildId := guildId
  joinedAt := member.joinedAt
  mute := some member.mute
  nick := member.nick
  pending := member.pending
  premiumSince := member.premiumSince
  roles := member.roles
  userId := member.user.id

/-- `cache_member` from line 31 on, that is without the equality check of lines 25-29. -/
def InMemoryCache.cacheMemberUnchecked (self : InMemoryCache) (guildId : GuildId)
    (member : Member) : InMemoryCache :=
  let self := self.cacheUser member.user (some guildId)
  { self with
    members := Function.update self.members (guildId, member.user.id)
      (some (CachedMember.ofMember guildId member))
    guildMembers := addToEntry self.guildMembers guildId member.user.id }

def InMemoryCache.cacheMember (self : InMemoryCache) (guildId : GuildId) (member : Member) :
    InMemoryCache :=
  match self.members (guildId, member.user.id) with
  | some m => if m.eqMember member then self else self.cacheMemberUnchecked guildId member
  | none => self.cacheMemberUnchecked guildId member

section CacheMember

variable (s : InMemoryCache) (g : GuildId) (m : Member)

@[simp] theorem InMemoryCache.cacheMemberUnchecked_config :
    (s.cacheMemberUnchecked g m).config = s.config := rfl

@[simp] theorem InMemoryCache.cacheMemberUnchecked_members :
    (s.cacheMemberUnchecked g m).members =
      Function.update s.members (g, m.user.id) (some (CachedMember.ofMember g m)) := rfl

@[simp] theorem InMemoryCache.cacheMemberUnchecked_guildMembers :
    (s.cacheMemberUnchecked g m).guildMembers = addToEntry s.guildMembers g m.user.id := rfl

@[simp] theorem InMemoryCache.cacheMemberUnchecked_userGuilds :
    (s.cacheMemberUnchecked g m).userGuilds = addToEntry s.userGuilds m.user.id g := rfl

@[simp] theorem InMemoryCache.cacheMemberUnchecked_users :
    (s.cacheMemberUnchecked g m).users = Function.update s.users m.user.id (some m.user) := rfl

theorem InMemoryCache.cacheMember_eq : s.cacheMember g m =
    if (s.members (g, m.user.id)).any (·.eqMember m) then s else s.cacheMemberUnchecked g m := by
  unfold InMemoryCache.cacheMember
  split <;> simp_all

@[simp] theorem InMemoryCache.cacheMember_config : (s.cacheMember g m).config = s.config := by
  rw [InMemoryCache.cacheMember_eq]
  split <;> rfl

theorem InMemoryCache.cacheMember_members_isSome :
    ((s.cacheMember g m).members (g, m.user.id)).isSome := by
  rw [InMemoryCache.cacheMember_eq]
  split
  next unchanged => cases found : s.members (g, m.user.id) <;> simp_all
  next => simp

end CacheMember

def InMemoryCache.cacheMembers (self : InMemoryCache) (guildId : GuildId) :
    List Member → InMemoryCache
  | [] => self
  | member :: members => (self.cacheMember guildId member).cacheMembers guildId members

def InMemoryCache.cacheBorrowedPartialMember (self : InMemoryCache) (guildId : GuildId)
    (member : PartialMember) (userId : UserId) : InMemoryCache :=
  let id := (guildId, userId)
  let cached : CachedMember :=
    { deaf := some member.deaf, guildId, joinedAt := member.joinedAt, mute := some member.mute,
      nick := member.nick, pending := false, premiumSince := none, roles := member.roles,
      userId }
  let store : InMemoryCache :=
    { self with
      guildMembers := addToEntry self.guildMembers guildId userId
      members := Function.update self.members id (some cached) }
  match self.members id with
  | some m => if m.eqPartialMember member then self else store
  | none => store

def InMemoryCache.cacheBorrowedInteractionMember (self : InMemoryCache) (guildId : GuildId)
    (member : InteractionMember) : InMemoryCache :=
  let id := (guildId, member.id)
  let store (deaf mute : Option Bool) : InMemoryCache :=
    { self with
      guildMembers := addToEntry self.guildMembers guildId member.id
      members := Function.update self.members id (some
        { deaf, guildId, joinedAt := member.joinedAt, mute, nick := member.nick,
          pending := false, premiumSince := member.premiumSince, roles := member.roles,
          userId := member.id }) }
  match self.members id with
  | some m => if m.eqInteractionMember member then self else store m.deaf m.mute
  | none => store none none

/-- What both embedded-reference writes do past their early return: the roster insert and
the record store at one key. -/
def InMemoryCache.storeRecord (s : InMemoryCache) (key : GuildId × UserId) (record : CachedMember) :
    InMemoryCache :=
  { s with
    guildMembers := addToEntry s.guildMembers key.1 key.2
    members := Function.update s.members key (some record) }

section StoreRecord

variable (s : InMemoryCache) (key : GuildId × UserId) (record : CachedMember)

@[simp] theorem InMemoryCache.storeRecord_config : (s.storeRecord key record).config = s.config := rfl

@[simp] theorem InMemoryCache.storeRecord_members :
    (s.storeRecord key record).members = Function.update s.members key (some record) := rfl

@[simp] theorem InMemoryCache.storeRecord_guildMembers :
    (s.storeRecord key record).guildMembers = addToEntry s.guildMembers key.1 key.2 := rfl

@[simp] theorem InMemoryCache.storeRecord_userGuilds :
    (s.storeRecord key record).userGuilds = s.userGuilds := rfl

@[simp] theorem InMemoryCache.storeRecord_users : (s.storeRecord key record).users = s.users := rfl

@[simp] theorem InMemoryCache.storeRecord_storeRecord (record' : CachedMember) :
    (s.storeRecord key record).storeRecord key record' = s.storeRecord key record' := by
  simp [InMemoryCache.storeRecord]

end StoreRecord

section Borrowed

variable (s : InMemoryCache) (g : GuildId)

theorem InMemoryCache.cacheBorrowedPartialMember_eq (p : PartialMember) (u : UserId) :
    s.cacheBorrowedPartialMember g p u =
      if (s.members (g, u)).any (·.eqPartialMember p) then s
      else s.storeRecord (g, u)
        { deaf := some p.deaf, guildId := g, joinedAt := p.joinedAt, mute := some p.mute,
          nick := p.nick, pending := false, premiumSince := none, roles := p.roles, userId := u } := by
  unfold InMemoryCache.cacheBorrowedPartialMember
  cases found : s.members (g, u) <;> simp [found, InMemoryCache.storeRecord]

theorem InMemoryCache.cacheBorrowedInteractionMember_eq (i : InteractionMember) :
    s.cacheBorrowedInteractionMember g i =
      if (s.members (g, i.id)).any (·.eqInteractionMember i) then s
      else s.storeRecord (g, i.id)
        { deaf := (s.members (g, i.id)).bind (·.deaf), guildId := g, joinedAt := i.joinedAt,
          mute := (s.members (g, i.id)).bind (·.mute), nick := i.nick, pending := false,
          premiumSince := i.premiumSince, roles := i.roles, userId := i.id } := by
  unfold InMemoryCache.cacheBorrowedInteractionMember
  cases found : s.members (g, i.id) <;> simp [found, InMemoryCache.storeRecord]

end Borrowed

structure MemberAdd where
  member : Member
  deriving DecidableEq, Repr

structure MemberChunk where
  guildId : GuildId
  members : List Member
  deriving DecidableEq, Repr

structure MemberRemove where
  guildId : GuildId
  user : User
  deriving DecidableEq, Repr

structure MemberUpdate where
  deaf : Option Bool
  guildId : GuildId
  joinedAt : String
  mute : Option Bool
  nick : Option String
  pending : Bool
  roles : List RoleId
  user : User
  deriving DecidableEq, Repr

def MemberAdd.update (self : MemberAdd) (cache : InMemoryCache) : InMemoryCache :=
  if !cache.wants ResourceType.MEMBER then cache
  else
    let cache := cache.cacheMember self.member.guildId self.member
    { cache with
      guildMembers := addToEntry cache.guildMembers self.member.guildId self.member.user.id }

theorem MemberAdd.update_eq (s : InMemoryCache) (e : MemberAdd)
    (wanted : s.wants ResourceType.MEMBER) :
    e.update s =
      let g := e.member.guildId
      let u := e.member.user.id
      let unchanged := (s.members (g, u)).any (·.eqMember e.member)
      { s with
        members := if unchanged then s.members
          else Function.update s.members (g, u) (some (CachedMember.ofMember g e.member))
        guildMembers := addToEntry s.guildMembers g u
        userGuilds := if unchanged then s.userGuilds else addToEntry s.userGuilds u g
        users := if unchanged then s.users else Function.update s.users u (some e.member.user) } := by
  rw [MemberAdd.update, if_neg (by simp [wanted]), InMemoryCache.cacheMember_eq]
  dsimp only
  split <;> simp_all

def MemberChunk.update (self : MemberChunk) (cache : InMemoryCache) : InMemoryCache :=
  if !cache.wants ResourceType.MEMBER then cache
  else if self.members.isEmpty then cache
  else
    let cache := cache.cacheMembers self.guildId self.members
    { cache with
      guildMembers :=
        extendEntry cache.guildMembers self.guildId (self.members.map (·.user.id)) }

def MemberRemove.update (self : MemberRemove) (cache : InMemoryCache) : InMemoryCache :=
  if !cache.wants ResourceType.MEMBER then cache
  else
    let cache := { cache with
      members := Function.update cache.members (self.guildId, self.user.id) none }
    let cache := { cache with
      guildMembers := removeFromEntry cache.guildMembers self.guildId self.user.id }
    let cache := { cache with
      userGuilds := removeFromEntry cache.userGuilds self.user.id self.guildId }
    let removeUser := match cache.userGuilds self.user.id with
      | some userGuilds => decide (userGuilds = ∅)
      | none => false
    if removeUser then { cache with users := Function.update cache.users self.user.id none }
    else cache

theorem MemberRemove.update_eq (event : MemberRemove) (s : InMemoryCache)
    (wanted : s.wants ResourceType.MEMBER) :
    event.update s = { s with
      members := Function.update s.members (event.guildId, event.user.id) none
      guildMembers := removeFromEntry s.guildMembers event.guildId event.user.id
      userGuilds := removeFromEntry s.userGuilds event.user.id event.guildId
      users := if removeFromEntry s.userGuilds event.user.id event.guildId event.user.id = some ∅
        then Function.update s.users event.user.id none else s.users } := by
  simp only [MemberRemove.update, wanted, Bool.not_true, Bool.false_eq_true, if_false]
  cases removeFromEntry s.userGuilds event.user.id event.guildId event.user.id with
  | none => simp
  | some userGuilds => by_cases empty : userGuilds = ∅ <;> simp [empty]

def MemberUpdate.apply (self : MemberUpdate) (member : CachedMember) : CachedMember :=
  { member with
    deaf := self.deaf.or member.deaf
    mute := self.mute.or member.mute
    nick := self.nick
    roles := self.roles
    joinedAt := some self.joinedAt
    pending := self.pending }

def MemberUpdate.update (self : MemberUpdate) (cache : InMemoryCache) : InMemoryCache :=
  if !cache.wants ResourceType.MEMBER then cache
  else
    match cache.members (self.guildId, self.user.id) with
    | some member => { cache with
        members := Function.update cache.members (self.guildId, self.user.id)
          (some (self.apply member)) }
    | none => cache

theorem MemberUpdate.update_eq (event : MemberUpdate) (s : InMemoryCache)
    (wanted : s.wants ResourceType.MEMBER) :
    event.update s = { s with
      members := Function.update s.members (event.guildId, event.user.id)
        ((s.members (event.guildId, event.user.id)).map event.apply) } := by
  simp only [MemberUpdate.update, wanted, Bool.not_true, Bool.false_eq_true, if_false]
  split
  next found => simp [found]
  next found =>
    rw [found, Option.map_none', ← found, Function.update_eq_self]

inductive Event where
  | memberAdd (event : MemberAdd)
  | memberChunk (event : MemberChunk)
  | memberRemove (event : MemberRemove)
  | memberUpdate (event : MemberUpdate)
  deriving DecidableEq, Repr

def Event.update : Event → InMemoryCache → InMemoryCache
  | .memberAdd event => event.update
  | .memberChunk event => event.update
  | .memberRemove event => event.update
  | .memberUpdate event => event.update

/-- Every call that writes the member tables: the events, and the two embedded-reference
helpers that other handlers call for members carried inside messages and interactions. -/
inductive MemberOp where
  | event (event : Event)
  | partialMember (guildId : GuildId) (member : PartialMember) (userId : UserId)
  | interactionMember (guildId : GuildId) (member : InteractionMember)
  deriving DecidableEq, Repr

def MemberOp.apply : MemberOp → InMemoryCache → InMemoryCache
  | .event memberEvent, cache => memberEvent.update cache
  | .partialMember guildId member userId, cache =>
      cache.cacheBorrowedPartialMember guildId member userId
  | .interactionMember guildId member, cache => cache.cacheBorrowedInteractionMember guildId member

def InMemoryCache.updateAll (self : InMemoryCache) : List Event → InMemoryCache
  | [] => self
  | event :: events => (event.update self).updateAll events

def InMemoryCache.applyAll (self : InMemoryCache) : List MemberOp → InMemoryCache
  | [] => self
  | op :: ops => (op.apply self).applyAll ops

end Twilight.Cache
