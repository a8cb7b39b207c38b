import Mathlib.Data.Finset.Basic
import Mathlib.Logic.Function.Basic

/-!
The member data of the in-memory cache: ids, payloads, the cached record and the four
concurrent maps, each a function into `Option` so that equal entries make equal caches.
-/

namespace Twilight.Cache

structure GuildId where
  value : UInt64
  deriving DecidableEq, Repr

structure UserId where
  value : UInt64
  deriving DecidableEq, Repr

structure RoleId where
  value : UInt64
  deriving DecidableEq, Repr

structure User where
  id : UserId
  name : String
  discriminator : String
  avatar : Option String
  deriving DecidableEq, Repr

structure Member where
  deaf : Bool
  guildId : GuildId
  joinedAt : Option String
  mute : Bool
  nick : Option String
  pending : Bool
  premiumSince : Option String
  roles : List RoleId
  user : User
  deriving DecidableEq, Repr

structure PartialMember where
  deaf : Bool
  joinedAt : Option String
  mute : Bool
  nick : Option String
  premiumSince : Option String
  roles : List RoleId
  deriving DecidableEq, Repr

structure InteractionMember where
  id : UserId
  joinedAt : Option String
  nick : Option String
  premiumSince : Option String
  roles : List RoleId
  deriving DecidableEq, Repr

structure CachedMember where
  deaf : Option Bool
  guildId : GuildId
  joinedAt : Option String
  mute : Option Bool
  nick : Option String
  pending : Bool
  premiumSince : Option String
  roles : List RoleId
  userId : UserId
  deriving DecidableEq, Repr

/-- Modelled from the spec: `PartialEq<Member> for CachedMember` is not under src/. It
compares every field `cache_member` copies, deaf and mute wrapped in `Some`, and the user
id, but not the embedded profile, which a `CachedMember` does not hold. -/
def CachedMember.eqMember (cached : CachedMember) (member : Member) : Bool :=
  decide (cached.deaf = some member.deaf) && decide (cached.joinedAt = member.joinedAt) &&
    decide (cached.mute = some member.mute) && decide (cached.nick = member.nick) &&
    decide (cached.pending = member.pending) &&
    decide (cached.premiumSince = member.premiumSince) && decide (cached.roles = member.roles) &&
    decide (cached.userId = member.user.id)

/-- Modelled from the spec: `PartialEq<&PartialMember> for CachedMember` is not under src/.
It compares the fields the partial payload carries. -/
def CachedMember.eqPartialMember (cached : CachedMember) (member : PartialMember) : Bool :=
  decide (cached.deaf = some member.deaf) && decide (cached.joinedAt = member.joinedAt) &&
    decide (cached.mute = some member.mute) && decide (cached.nick = member.nick) &&
    decide (cached.premiumSince = member.premiumSince) && decide (cached.roles = member.roles)

/-- Modelled from the spec: `PartialEq<&InteractionMember> for CachedMember` is not under
src/. It compares the fields the interaction payload carries. -/
def CachedMember.eqInteractionMember (cached : CachedMember) (member : InteractionMember) :
    Bool :=
  decide (cached.joinedAt = member.joinedAt) && decide (cached.nick = member.nick) &&
    decide (cached.premiumSince = member.premiumSince) && decide (cached.roles = member.roles)

structure ResourceType where
  bits : UInt64
  deriving DecidableEq, Repr

/-- Modelled from the spec: `ResourceType::MEMBER` is declared outside src/; which bit it
occupies does not matter to the handlers. -/
def ResourceType.MEMBER : ResourceType := ⟨(1 : UInt64) <<< 3⟩

def ResourceType.contains (self other : ResourceType) : Bool :=
  self.bits &&& other.bits == other.bits

structure Config where
  resourceTypes : ResourceType
  deriving DecidableEq, Repr

/-- The member tables of `InMemoryCacheRef`: the member records, the roster index (guild to
user ids), the membership index (user to guild ids) and the user profiles. -/
structure InMemoryCache where
  config : Config
  members : GuildId × UserId → Option CachedMember
  guildMembers : GuildId → Option (Finset UserId)
  userGuilds : UserId → Option (Finset GuildId)
  users : UserId → Option User

def InMemoryCache.empty (config : Config) : InMemoryCache :=
  ⟨config, fun _ => none, fun _ => none, fun _ => none, fun _ => none⟩

/-- Modelled from the spec: `InMemoryCache::wants` is not under src/; a resource is wanted
when its flag is in the configured set. -/
def InMemoryCache.wants (self : InMemoryCache) (resourceType : ResourceType) : Bool :=
  self.config.resourceTypes.contains resourceType

@[ext]
theorem InMemoryCache.ext {a b : InMemoryCache} (config : a.config = b.config)
    (members : a.members = b.members) (guildMembers : a.guildMembers = b.guildMembers)
    (userGuilds : a.userGuilds = b.userGuilds) (users : a.users = b.users) : a = b := by
  cases a
  cases b
  simp_all

section Entry

variable {K V : Type} [DecidableEq K] [DecidableEq V]

/-- `map.entry(key).or_default().insert(value)` on an index. -/
def addToEntry (map : K → Option (Finset V)) (key : K) (value : V) : K → Option (Finset V) :=
  Function.update map key (some (insert value ((map key).getD ∅)))

/-- `if let Some(mut set) = map.get_mut(&key) { set.remove(&value); }` on an index. -/
def removeFromEntry (map : K → Option (Finset V)) (key : K) (value : V) :
    K → Option (Finset V) :=
  Function.update map key ((map key).map (·.erase value))

/-- `map.entry(key).or_default().extend(values)` on an index. -/
def extendEntry (map : K → Option (Finset V)) (key : K) (values : List V) :
    K → Option (Finset V) :=
  Function.update map key (some ((map key).getD ∅ ∪ values.toFinset))

variable (map : K → Option (Finset V)) (key other : K) (value x : V)

theorem addToEntry_apply : addToEntry map key value other =
    if other = key then some (insert value ((map key).getD ∅)) else map other := by
  simp [addToEntry, Function.update_apply]

theorem removeFromEntry_apply : removeFromEntry map key value other =
    if other = key then (map key).map (·.erase value) else map other := by
  simp [removeFromEntry, Function.update_apply]

theorem addToEntry_self : addToEntry map key value key = some (insert value ((map key).getD ∅)) :=
  Function.update_same _ _ _

theorem removeFromEntry_self : removeFromEntry map key value key = (map key).map (·.erase value) :=
  Function.update_same _ _ _

theorem addToEntry_of_ne (distinct : other ≠ key) : addToEntry map key value other = map other :=
  Function.update_noteq distinct _ _

theorem removeFromEntry_of_ne (distinct : other ≠ key) :
    removeFromEntry map key value other = map other :=
  Function.update_noteq distinct _ _

@[simp] theorem mem_addToEntry : x ∈ (addToEntry map key value other).getD ∅ ↔
    (other = key ∧ x = value) ∨ x ∈ (map other).getD ∅ := by
  rw [addToEntry_apply]
  split <;> simp_all [or_comm]

@[simp] theorem mem_removeFromEntry : x ∈ (removeFromEntry map key value other).getD ∅ ↔
    ¬(other = key ∧ x = value) ∧ x ∈ (map other).getD ∅ := by
  rw [removeFromEntry_apply]
  split
  · subst other
    cases map key <;> simp [and_comm]
  · simp_all

@[simp] theorem getD_addToEntry_self :
    (addToEntry map key value key).getD ∅ = insert value ((map key).getD ∅) := by
  simp [addToEntry]

@[simp] theorem getD_addToEntry_of_ne (distinct : other ≠ key) :
    (addToEntry map key value other).getD ∅ = (map other).getD ∅ := by
  simp [addToEntry, distinct]

@[simp] theorem getD_removeFromEntry_self :
    (removeFromEntry map key value key).getD ∅ = ((map key).getD ∅).erase value := by
  cases found : map key <;> simp [removeFromEntry, found]

@[simp] theorem getD_removeFromEntry_of_ne (distinct : other ≠ key) :
    (removeFromEntry map key value other).getD ∅ = (map other).getD ∅ := by
  simp [removeFromEntry, distinct]

@[simp] theorem isSome_addToEntry :
    (addToEntry map key value other).isSome = (decide (other = key) || (map other).isSome) := by
  rw [addToEntry_apply]
  split <;> simp_all

@[simp] theorem isSome_removeFromEntry :
    (removeFromEntry map key value other).isSome = (map other).isSome := by
  rw [removeFromEntry_apply]
  split <;> simp_all

@[simp] theorem addToEntry_idem :
    addToEntry (addToEntry map key value) key value = addToEntry map key value := by
  funext other
  simp only [addToEntry_apply]
  split <;> simp_all

@[simp] theorem removeFromEntry_idem :
    removeFromEntry (removeFromEntry map key value) key value = removeFromEntry map key value := by
  funext other
  simp only [removeFromEntry_apply]
  split <;> simp_all [Function.comp_def]

theorem addToEntry_of_mem (mem : value ∈ (map key).getD ∅) : addToEntry map key value = map := by
  cases found : map key with
  | none => simp [found] at mem
  | some set =>
    simp only [found, Option.getD_some] at mem
    rw [addToEntry, found, Option.getD_some, Finset.insert_eq_of_mem mem, ← found,
      Function.update_eq_self]

theorem addToEntry_comm (key' : K) (value' : V) :
    addToEntry (addToEntry map key value) key' value' =
      addToEntry (addToEntry map key' value') key value := by
  funext other
  simp only [addToEntry_apply]
  by_cases first : other = key <;> by_cases second : other = key' <;> subst_vars <;>
    simp_all [Finset.Insert.comm]

theorem removeFromEntry_comm (key' : K) (value' : V) :
    removeFromEntry (removeFromEntry map key value) key' value' =
      removeFromEntry (removeFromEntry map key' value') key value := by
  funext other
  simp only [removeFromEntry_apply]
  by_cases first : other = key <;> by_cases second : other = key' <;> subst_vars <;>
    simp_all [Function.comp_def, Finset.erase_right_comm]

theorem addToEntry_removeFromEntry_comm (key' : K) (value' : V)
    (distinct : key ≠ key' ∨ value ≠ value') :
    removeFromEntry (addToEntry map key value) key' value' =
      addToEntry (removeFromEntry map key' value') key value := by
  funext other
  simp only [addToEntry_apply, removeFromEntry_apply]
  by_cases first : other = key <;> by_cases second : other = key' <;> subst_vars <;> simp_all
  cases map other <;> simp [Finset.erase_insert_of_ne distinct, Ne.symm distinct]

end Entry

end Twilight.Cache
