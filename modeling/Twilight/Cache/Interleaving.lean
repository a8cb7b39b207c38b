import Twilight.Cache.Member
import Mathlib.Logic.Relation

/-!
The member handlers as chains of single-map steps that other invocations may interleave, what
survives every interleaving at quiescent states, and three races that break the rest.
-/

namespace Twilight.Cache

/-- One map operation of a member handler, with the locals it carries. -/
inductive Step where
  | checkMember (guildId : GuildId) (member : Member)
  | insertUser (guildId : GuildId) (member : Member)
  | insertUserGuild (guildId : GuildId) (member : Member)
  | insertMember (guildId : GuildId) (member : Member)
  | insertRoster (guildId : GuildId) (userId : UserId)
  | extendRoster (guildId : GuildId) (userIds : List UserId)
  | removeMember (guildId : GuildId) (userId : UserId)
  | removeRoster (guildId : GuildId) (userId : UserId)
  | removeUserGuild (guildId : GuildId) (userId : UserId)
  | removeUser (userId : UserId)
  | updateMember (event : MemberUpdate)
  deriving DecidableEq, Repr

/-- Runs one step: the cache after it, and the step its invocation takes next, if any. -/
def Step.run : Step → InMemoryCache → InMemoryCache × List Step
  | .checkMember guildId member, cache =>
    match cache.members (guildId, member.user.id) with
    | some m => if m.eqMember member then (cache, []) else (cache, [.insertUser guildId member])
    | none => (cache, [.insertUser guildId member])
  | .insertUser guildId member, cache =>
    ({ cache with users := Function.update cache.users member.user.id (some member.user) },
      [.insertUserGuild guildId member])
  | .insertUserGuild guildId member, cache =>
    ({ cache with userGuilds := addToEntry cache.userGuilds member.user.id guildId },
      [.insertMember guildId member])
  | .insertMember guildId member, cache =>
    ({ cache with
        members := Function.update cache.members (guildId, member.user.id)
          (some (CachedMember.ofMember guildId member)) },
      [.insertRoster guildId member.user.id])
  | .insertRoster guildId userId, cache =>
    ({ cache with guildMembers := addToEntry cache.guildMembers guildId userId }, [])
  | .extendRoster guildId userIds, cache =>
    ({ cache with guildMembers := extendEntry cache.guildMembers guildId userIds }, [])
  | .removeMember guildId userId, cache =>
    ({ cache with members := Function.update cache.members (guildId, userId) none },
      [.removeRoster guildId userId])
  | .removeRoster guildId userId, cache =>
    ({ cache with guildMembers := removeFromEntry cache.guildMembers guildId userId },
      [.removeUserGuild guildId userId])
  | .removeUserGuild guildId userId, cache =>
    let cache := { cache with userGuilds := removeFromEntry cache.userGuilds userId guildId }
    let removeUser := match cache.userGuilds userId with
      | some userGuilds => decide (userGuilds = ∅)
      | none => false
    (cache, if removeUser then [.removeUser userId] else [])
  | .removeUser userId, cache =>
    ({ cache with users := Function.update cache.users userId none }, [])
  | .updateMember event, cache =>
    (match cache.members (event.guildId, event.user.id) with
      | some member => { cache with
          members := Function.update cache.members (event.guildId, event.user.id)
            (some (event.apply member)) }
      | none => cache, [])

@[simp] theorem Step.run_checkMember_fst (cache : InMemoryCache) (guildId : GuildId)
    (member : Member) : (Step.run (.checkMember guildId member) cache).1 = cache := by
  simp only [Step.run]
  split
  · split <;> rfl
  · rfl

theorem Step.run_updateMember_fst (cache : InMemoryCache) (event : MemberUpdate) :
    (Step.run (.updateMember event) cache).1 = { cache with
      members := Function.update cache.members (event.guildId, event.user.id)
        ((cache.members (event.guildId, event.user.id)).map event.apply) } := by
  simp only [Step.run]
  split
  next found => simp [found]
  next found => rw [found, Option.map_none', ← found, Function.update_eq_self]

theorem Step.run_removeUserGuild (cache : InMemoryCache) (guildId : GuildId) (userId : UserId) :
    Step.run (.removeUserGuild guildId userId) cache =
      let cache := { cache with userGuilds := removeFromEntry cache.userGuilds userId guildId }
      (cache, if cache.userGuilds userId = some ∅ then [.removeUser userId] else []) := by
  simp only [Step.run]
  congr 1
  split <;> rename_i flag <;> split at flag <;> simp_all

@[simp] theorem Step.run_updateMember_isSome (cache : InMemoryCache) (event : MemberUpdate)
    (key : GuildId × UserId) :
    ((Step.run (.updateMember event) cache).1.members key).isSome = (cache.members key).isSome := by
  rw [Step.run_updateMember_fst]
  dsimp only
  rw [Function.update_apply]
  split
  next same => rw [same, Option.isSome_map']
  next => rfl

def Event.steps : Event → List Step
  | .memberAdd event =>
    [.checkMember event.member.guildId event.member,
      .insertRoster event.member.guildId event.member.user.id]
  | .memberChunk event =>
    if event.members.isEmpty then []
    else event.members.map (.checkMember event.guildId) ++
      [.extendRoster event.guildId (event.members.map (·.user.id))]
  | .memberRemove event => [.removeMember event.guildId event.user.id]
  | .memberUpdate event => [.updateMember event]

/-- An invocation as it starts; its gate reads only the configuration, which no step
changes. -/
def Event.program (event : Event) (cache : InMemoryCache) : List Step :=
  if !cache.wants ResourceType.MEMBER then [] else event.steps

/-! ### Interleavings -/

structure World where
  cache : InMemoryCache
  tasks : List (List Step)

def World.pending (w : World) : List Step := w.tasks.flatten

def World.Quiescent (w : World) : Prop := w.pending = []

instance : DecidablePred World.Quiescent := fun w => inferInstanceAs (Decidable (w.pending = []))

/-- One scheduling decision: an event arrives and its handler starts, or some invocation
takes its next step. -/
inductive World.Next : World → World → Prop
  | spawn (cache : InMemoryCache) (tasks : List (List Step)) (event : Event) :
      World.Next ⟨cache, tasks⟩ ⟨cache, event.program cache :: tasks⟩
  | step (cache : InMemoryCache) (before after : List (List Step)) (step : Step)
      (rest : List Step) :
      World.Next ⟨cache, before ++ (step :: rest) :: after⟩
        ⟨(step.run cache).1, before ++ ((step.run cache).2 ++ rest) :: after⟩

def World.initial (config : Config) : World := ⟨InMemoryCache.empty config, []⟩

def Reachable (config : Config) : World → Prop :=
  Relation.ReflTransGen World.Next (World.initial config)

/-! ### One invocation alone is its handler -/

/-- One invocation run to its end with no other step in between. -/
inductive Solo : InMemoryCache → List Step → InMemoryCache → Prop
  | done (cache : InMemoryCache) : Solo cache [] cache
  | step {cache final : InMemoryCache} (step : Step) (rest : List Step) :
      Solo (step.run cache).1 ((step.run cache).2 ++ rest) final → Solo cache (step :: rest) final

theorem Solo.append {cache middle final : InMemoryCache} {first second : List Step}
    (run : Solo cache first middle) (next : Solo middle second final) :
    Solo cache (first ++ second) final := by
  induction run with
  | done => exact next
  | step step rest _ ih => exact Solo.step step (rest ++ second) (List.append_assoc _ _ _ ▸ ih next)

theorem Solo.interleaved {cache final : InMemoryCache} {task : List Step} (run : Solo cache task final)
    (before after : List (List Step)) :
    Relation.ReflTransGen World.Next ⟨cache, before ++ task :: after⟩
      ⟨final, before ++ [] :: after⟩ := by
  induction run with
  | done => exact .refl
  | step step rest _ ih => exact .head (World.Next.step _ before after step rest) ih

theorem solo_cacheMemberUnchecked (cache : InMemoryCache) (guildId : GuildId) (member : Member) :
    Solo cache [.insertUser guildId member] (cache.cacheMemberUnchecked guildId member) :=
  .step _ _ <| .step _ _ <| .step _ _ <| .step _ _ <| .done _

theorem solo_cacheMember (cache : InMemoryCache) (guildId : GuildId) (member : Member) :
    Solo cache [.checkMember guildId member] (cache.cacheMember guildId member) := by
  refine .step _ _ ?_
  cases found : cache.members (guildId, member.user.id) with
  | none =>
    simpa only [Step.run, InMemoryCache.cacheMember, found]
      using solo_cacheMemberUnchecked cache guildId member
  | some cached =>
    by_cases same : cached.eqMember member
    · simpa only [Step.run, InMemoryCache.cacheMember, found, same] using Solo.done cache
    · simpa only [Step.run, InMemoryCache.cacheMember, found, same]
        using solo_cacheMemberUnchecked cache guildId member

theorem solo_cacheMembers (cache : InMemoryCache) (guildId : GuildId) (members : List Member) :
    Solo cache (members.map (.checkMember guildId)) (cache.cacheMembers guildId members) := by
  induction members generalizing cache with
  | nil => exact .done cache
  | cons member members ih => exact (solo_cacheMember cache guildId member).append (ih _)

theorem Event.solo_program (cache : InMemoryCache) (event : Event) :
    Solo cache (event.program cache) (event.update cache) := by
  by_cases wanted : cache.wants ResourceType.MEMBER
  · cases event with
    | memberAdd event =>
      simp only [Event.program, Event.steps, Event.update, MemberAdd.update, wanted]
      exact (solo_cacheMember cache _ _).append (.step _ _ (.done _))
    | memberChunk event =>
      simp only [Event.program, Event.steps, Event.update, MemberChunk.update, wanted,
        Bool.not_true, Bool.false_eq_true, if_false]
      split
      · exact .done cache
      · refine (solo_cacheMembers cache _ _).append ?_
        exact .step _ _ (.done _)
    | memberRemove event =>
      simp only [Event.program, Event.steps, Event.update, MemberRemove.update_eq _ _ wanted,
        wanted, Bool.not_true, Bool.false_eq_true, if_false]
      refine .step _ _ (.step _ _ (.step _ _ ?_))
      rw [Step.run_removeUserGuild]
      dsimp only [Step.run]
      by_cases emptied :
          removeFromEntry cache.userGuilds event.user.id event.guildId event.user.id = some ∅
      · simp only [emptied, if_true]
        exact .step _ _ (.done _)
      · simp only [emptied, if_false]
        exact .done _
    | memberUpdate event =>
      simp only [Event.program, Event.steps, Event.update, MemberUpdate.update, wanted]
      exact .step _ _ (.done _)
  · cases event <;>
      simpa [Event.program, Event.update, MemberAdd.update, MemberChunk.update,
        MemberRemove.update, MemberUpdate.update, wanted] using Solo.done cache

theorem updateAll_interleaved (cache : InMemoryCache) (tasks : List (List Step))
    (events : List Event) :
    Relation.ReflTransGen World.Next ⟨cache, tasks⟩
      ⟨cache.updateAll events, List.replicate events.length [] ++ tasks⟩ := by
  induction events generalizing cache tasks with
  | nil => exact .refl
  | cons event events ih =>
    have whole := ((Event.solo_program cache event).interleaved [] tasks).trans
      (ih (event.update cache) ([] :: tasks))
    rw [List.length_cons, List.replicate_succ', List.append_assoc]
    exact .head (World.Next.spawn cache tasks event) whole

theorem updateAll_reachable (config : Config) (events : List Event) :
    Reachable config ⟨(InMemoryCache.empty config).updateAll events,
      List.replicate events.length []⟩ ∧
    World.Quiescent ⟨(InMemoryCache.empty config).updateAll events,
      List.replicate events.length []⟩ :=
  ⟨by simpa using updateAll_interleaved (InMemoryCache.empty config) [] events,
    List.flatten_replicate_nil⟩

/-! ### What survives every interleaving -/

def Step.profileOwner : Step → Option UserId
  | .insertUserGuild _ member => some member.user.id
  | .removeUser userId => some userId
  | _ => none

def Step.membershipKey : Step → Option (GuildId × UserId)
  | .insertMember guildId member => some (guildId, member.user.id)
  | .removeRoster guildId userId => some (guildId, userId)
  | .removeUserGuild guildId userId => some (guildId, userId)
  | _ => none

theorem Step.profile_cases (step : Step) (cache : InMemoryCache) (u : UserId) :
    ((((step.run cache).1.users u).isSome → (cache.users u).isSome) ∧
        (cache.userGuilds u).getD ∅ ⊆ ((step.run cache).1.userGuilds u).getD ∅ ∧
        step.profileOwner ≠ some u) ∨
      (step.run cache).1.users u = none ∨ (((step.run cache).1.userGuilds u).getD ∅).Nonempty ∨
        ∃ next ∈ (step.run cache).2, next.profileOwner = some u := by
  have otherOwner : ∀ {v : UserId}, u ≠ v → some v ≠ some u :=
    fun other owner => other (Option.some.inj owner).symm
  cases step with
  | insertUser g member =>
    by_cases same : u = member.user.id
    · subst same
      exact .inr (.inr (.inr ⟨_, List.mem_singleton_self _, rfl⟩))
    · refine .inl ⟨fun present => ?_, subset_rfl, nofun⟩
      simpa only [Step.run, Function.update_noteq same] using present
  | insertUserGuild g member =>
    by_cases same : u = member.user.id
    · subst same
      exact .inr (.inr (.inl (by simp [Step.run])))
    · exact .inl ⟨id, by simp only [Step.run, getD_addToEntry_of_ne _ _ _ _ same]; rfl,
        otherOwner same⟩
  | removeUserGuild g v =>
    rw [Step.run_removeUserGuild]
    by_cases same : u = v
    · subst same
      cases found : cache.userGuilds u with
      | none => exact .inl ⟨id, by simp [removeFromEntry, found], nofun⟩
      | some set =>
        by_cases empty : set.erase g = ∅
        · exact .inr (.inr (.inr
            ⟨.removeUser u, by simp [removeFromEntry, found, empty], rfl⟩))
        · exact .inr (.inr (.inl (by
            simpa [removeFromEntry, found, Finset.nonempty_iff_ne_empty] using empty)))
    · exact .inl ⟨id, by simp only [getD_removeFromEntry_of_ne _ _ _ _ same]; rfl, nofun⟩
  | removeUser v =>
    by_cases same : u = v
    · subst same
      exact .inr (.inl (by simp [Step.run]))
    · refine .inl ⟨fun present => ?_, subset_rfl, otherOwner same⟩
      simpa only [Step.run, Function.update_noteq same] using present
  | checkMember | updateMember =>
    exact .inl ⟨by simp [Step.run_updateMember_fst], by simp [Step.run_updateMember_fst], nofun⟩
  | insertMember | insertRoster | extendRoster | removeMember | removeRoster =>
    exact .inl ⟨id, subset_rfl, nofun⟩

theorem Step.membership_cases (step : Step) (cache : InMemoryCache) (g : GuildId) (u : UserId) :
    (((cache.members (g, u)).isSome → ((step.run cache).1.members (g, u)).isSome) ∧
        (g ∈ ((step.run cache).1.userGuilds u).getD ∅ → g ∈ (cache.userGuilds u).getD ∅) ∧
        step.membershipKey ≠ some (g, u)) ∨
      g ∉ ((step.run cache).1.userGuilds u).getD ∅ ∨ ((step.run cache).1.members (g, u)).isSome ∨
        ∃ next ∈ (step.run cache).2, next.membershipKey = some (g, u) := by
  have handOver : ∀ {next : Step}, next.membershipKey = some (g, u) →
      ∃ later ∈ [next], later.membershipKey = some (g, u) :=
    fun key => ⟨_, List.mem_singleton_self _, key⟩
  have otherKey : ∀ {g' : GuildId} {v : UserId}, ¬(g = g' ∧ u = v) →
      some (g', v) ≠ some (g, u) := fun other key => by
    obtain ⟨rfl, rfl⟩ := Prod.mk.inj (Option.some.inj key)
    exact other ⟨rfl, rfl⟩
  cases step with
  | insertUserGuild g' member =>
    by_cases same : g = g' ∧ u = member.user.id
    · obtain ⟨rfl, rfl⟩ := same
      exact .inr (.inr (.inr (handOver rfl)))
    · refine .inl ⟨id, fun mem => ?_, nofun⟩
      simp only [Step.run, mem_addToEntry] at mem
      exact mem.resolve_left fun ⟨user, guild⟩ => same ⟨guild, user⟩
  | insertMember g' member =>
    by_cases same : g = g' ∧ u = member.user.id
    · obtain ⟨rfl, rfl⟩ := same
      exact .inr (.inr (.inl (by simp [Step.run])))
    · refine .inl ⟨fun stored => ?_, id, otherKey same⟩
      simpa only [Step.run, Function.update_noteq fun key => same (Prod.mk.inj key)]
        using stored
  | removeMember g' v =>
    by_cases same : g = g' ∧ u = v
    · obtain ⟨rfl, rfl⟩ := same
      exact .inr (.inr (.inr (handOver rfl)))
    · refine .inl ⟨fun stored => ?_, id, nofun⟩
      simpa only [Step.run, Function.update_noteq fun key => same (Prod.mk.inj key)]
        using stored
  | removeRoster g' v =>
    by_cases same : g = g' ∧ u = v
    · obtain ⟨rfl, rfl⟩ := same
      exact .inr (.inr (.inr (handOver rfl)))
    · exact .inl ⟨id, id, otherKey same⟩
  | removeUserGuild g' v =>
    rw [Step.run_removeUserGuild]
    by_cases same : g = g' ∧ u = v
    · obtain ⟨rfl, rfl⟩ := same
      exact .inr (.inl (by simp))
    · refine .inl ⟨id, fun mem => ?_, otherKey same⟩
      simp only [mem_removeFromEntry] at mem
      exact mem.2
  | checkMember => exact .inl ⟨by simp, by simp, nofun⟩
  | updateMember => exact .inl ⟨by simp, by simp [Step.run_updateMember_fst], nofun⟩
  | insertUser | insertRoster | extendRoster | removeUser => exact .inl ⟨id, id, nofun⟩

/-- The two cross-index facts that survive interleaving, each up to a step still pending. -/
structure Settling (w : World) : Prop where
  profile : ∀ u, (w.cache.users u).isSome →
    ((w.cache.userGuilds u).getD ∅).Nonempty ∨ ∃ step ∈ w.pending, step.profileOwner = some u
  membership : ∀ g u, g ∈ (w.cache.userGuilds u).getD ∅ →
    (w.cache.members (g, u)).isSome ∨ ∃ step ∈ w.pending, step.membershipKey = some (g, u)

theorem settling_initial (config : Config) : Settling (World.initial config) :=
  ⟨fun _ present => by simp [World.initial, InMemoryCache.empty] at present,
    fun _ _ linked => by simp [World.initial, InMemoryCache.empty] at linked⟩

section PendingStep

variable {before after : List (List Step)} {step x : Step} {rest next : List Step}

theorem mem_pending_of_ne (mem : x ∈ (before ++ (step :: rest) :: after).flatten)
    (other : x ≠ step) : x ∈ (before ++ (next ++ rest) :: after).flatten := by
  simp only [List.flatten_append, List.flatten_cons, List.mem_append, List.mem_cons] at mem ⊢
  tauto

theorem mem_pending_of_next (mem : x ∈ next) : x ∈ (before ++ (next ++ rest) :: after).flatten := by
  simp [mem]

end PendingStep

theorem Settling.next {w w' : World} (settling : Settling w) (next : World.Next w w') :
    Settling w' := by
  cases next with
  | spawn cache tasks event =>
    exact ⟨fun u present => (settling.profile u present).imp_right
        fun ⟨x, mem, owner⟩ => ⟨x, List.mem_append_right _ mem, owner⟩,
      fun g u linked => (settling.membership g u linked).imp_right
        fun ⟨x, mem, key⟩ => ⟨x, List.mem_append_right _ mem, key⟩⟩
  | step cache before after step rest =>
    constructor
    · intro u present
      rcases step.profile_cases cache u with ⟨shrinks, grows, notOwner⟩ | absent | nonempty |
        ⟨x, mem, owner⟩
      · rcases settling.profile u (shrinks present) with nonempty | ⟨x, mem, owner⟩
        · exact .inl (nonempty.mono grows)
        · exact .inr ⟨x, mem_pending_of_ne mem (by rintro rfl; exact notOwner owner), owner⟩
      · simp [absent] at present
      · exact .inl nonempty
      · exact .inr ⟨x, mem_pending_of_next mem, owner⟩
    · intro g u linked
      rcases step.membership_cases cache g u with ⟨keeps, noNew, notKey⟩ | unlinked | stored |
        ⟨x, mem, key⟩
      · rcases settling.membership g u (noNew linked) with stored | ⟨x, mem, key⟩
        · exact .inl (keeps stored)
        · exact .inr ⟨x, mem_pending_of_ne mem (by rintro rfl; exact notKey key), key⟩
      · exact absurd linked unlinked
      · exact .inl stored
      · exact .inr ⟨x, mem_pending_of_next mem, key⟩

theorem Reachable.settling {config : Config} {w : World} (reachable : Reachable config w) :
    Settling w := by
  induction reachable with
  | refl => exact settling_initial config
  | tail _ next ih => exact ih.next next

/-- At every quiescent state that an interleaving of member handlers reaches, a stored
profile has a non-empty membership set, and every membership has its record. -/
theorem quiescent_profile_and_membership (config : Config) (w : World)
    (reachable : Reachable config w) (quiescent : w.Quiescent) :
    (∀ u, (w.cache.users u).isSome → ((w.cache.userGuilds u).getD ∅).Nonempty) ∧
      ∀ g u, g ∈ (w.cache.userGuilds u).getD ∅ → (w.cache.members (g, u)).isSome := by
  have settling := reachable.settling
  rw [World.Quiescent] at quiescent
  refine ⟨fun u present => ?_, fun g u linked => ?_⟩
  · simpa [quiescent] using settling.profile u present
  · simpa [quiescent] using settling.membership g u linked

/-! ### Races on one user -/

def memberConfig : Config := ⟨ResourceType.MEMBER⟩

def raceUser : User := ⟨⟨1⟩, "user", "0001", none⟩

def raceAdd (guildId : UInt64) : Event :=
  .memberAdd ⟨⟨false, ⟨guildId⟩, none, false, none, false, none, [], raceUser⟩⟩

def raceRemove (guildId : UInt64) : Event := .memberRemove ⟨⟨guildId⟩, raceUser⟩

theorem quiescent_profile_and_membership_after_add :
    let w : World := ⟨(InMemoryCache.empty memberConfig).updateAll [raceAdd 1], [[]]⟩
    (Reachable memberConfig w ∧ w.Quiescent) ∧
      (∀ u, (w.cache.users u).isSome → ((w.cache.userGuilds u).getD ∅).Nonempty) ∧
        ∀ g u, g ∈ (w.cache.userGuilds u).getD ∅ → (w.cache.members (g, u)).isSome :=
  let reachable := updateAll_reachable memberConfig [raceAdd 1]
  ⟨reachable, quiescent_profile_and_membership _ _ reachable.1 reachable.2⟩

inductive Choice where
  | spawn (event : Event)
  | step (task : Nat)

def World.exec (w : World) : Choice → Option World
  | .spawn event => some ⟨w.cache, event.program w.cache :: w.tasks⟩
  | .step i =>
    match w.tasks.drop i with
    | (step :: rest) :: after =>
      some ⟨(step.run w.cache).1, w.tasks.take i ++ ((step.run w.cache).2 ++ rest) :: after⟩
    | _ => none

def World.execAll (w : World) : List Choice → Option World
  | [] => some w
  | choice :: choices => (w.exec choice).bind (·.execAll choices)

theorem World.next_of_exec {w w' : World} {choice : Choice} (run : w.exec choice = some w') :
    World.Next w w' := by
  rcases w with ⟨cache, tasks⟩
  cases choice with
  | spawn event =>
    cases run
    exact .spawn cache tasks event
  | step i =>
    simp only [World.exec] at run
    split at run
    next step rest after split =>
      cases run
      have next := World.Next.step cache (tasks.take i) after step rest
      rwa [← split, List.take_append_drop] at next
    next => cases run

theorem Reachable.execAll {config : Config} {w w' : World} {choices : List Choice}
    (reachable : Reachable config w) (run : w.execAll choices = some w') :
    Reachable config w' := by
  induction choices generalizing w with
  | nil =>
    cases run
    exact reachable
  | cons choice choices ih =>
    cases found : w.exec choice with
    | none => simp [World.execAll, found] at run
    | some next =>
      exact ih (reachable.tail (World.next_of_exec found)) (by simpa [World.execAll, found] using run)

theorem exists_of_execAll (config : Config) (choices : List Choice) (p : World → Prop)
    [DecidablePred p] (holds : ((World.initial config).execAll choices).any (decide <| p ·)) :
    ∃ w, Reachable config w ∧ p w := by
  cases found : (World.initial config).execAll choices with
  | none => simp [found] at holds
  | some w =>
    simp only [found, Option.any_some, decide_eq_true_eq] at holds
    exact ⟨w, Reachable.execAll .refl found, holds⟩

/-- A remove finds the user in no guild; an add for another guild runs to its end; only
then does the remove drop the profile. -/
def profileRace : List Choice :=
  .spawn (raceAdd 1) :: List.replicate 6 (.step 0) ++ .spawn (raceRemove 1) ::
    List.replicate 3 (.step 0) ++ .spawn (raceAdd 2) :: List.replicate 6 (.step 0) ++ [.step 1]

/-- A remove runs whole between an add's record write and its second roster insert. -/
def rosterInsertRace : List Choice :=
  .spawn (raceAdd 1) :: List.replicate 5 (.step 0) ++ .spawn (raceRemove 1) ::
    List.replicate 4 (.step 0) ++ [.step 1]

/-- An add runs whole between a remove's record removal and its roster removal. -/
def rosterRemoveRace : List Choice :=
  [.spawn (raceRemove 1), .step 0, .spawn (raceAdd 1)] ++ List.replicate 6 (.step 0) ++
    List.replicate 3 (.step 1)

/-- Three races between an add and a remove for one user end quiescent with a membership
and no profile, a roster entry and no record, and a record and no roster entry. -/
theorem member_races_break_roster_and_profile :
    (∃ w, Reachable memberConfig w ∧ w.Quiescent ∧
      ∃ u, ((w.cache.userGuilds u).getD ∅).Nonempty ∧ w.cache.users u = none) ∧
    (∃ w, Reachable memberConfig w ∧ w.Quiescent ∧
      ∃ g u, u ∈ (w.cache.guildMembers g).getD ∅ ∧ w.cache.members (g, u) = none) ∧
    (∃ w, Reachable memberConfig w ∧ w.Quiescent ∧
      ∃ g u, (w.cache.members (g, u)).isSome ∧ u ∉ (w.cache.guildMembers g).getD ∅) := by
  refine ⟨?_, ?_, ?_⟩
  · obtain ⟨w, reachable, quiescent, nonempty, absent⟩ := exists_of_execAll memberConfig profileRace
      (fun w => w.Quiescent ∧ ((w.cache.userGuilds ⟨1⟩).getD ∅).Nonempty ∧
        w.cache.users ⟨1⟩ = none) (by decide)
    exact ⟨w, reachable, quiescent, ⟨1⟩, nonempty, absent⟩
  · obtain ⟨w, reachable, quiescent, listed, absent⟩ := exists_of_execAll memberConfig
      rosterInsertRace (fun w => w.Quiescent ∧
        (⟨1⟩ : UserId) ∈ (w.cache.guildMembers ⟨1⟩).getD ∅ ∧ w.cache.members (⟨1⟩, ⟨1⟩) = none)
      (by decide)
    exact ⟨w, reachable, quiescent, ⟨1⟩, ⟨1⟩, listed, absent⟩
  · obtain ⟨w, reachable, quiescent, stored, unlisted⟩ := exists_of_execAll memberConfig
      rosterRemoveRace (fun w => w.Quiescent ∧
        (w.cache.members (⟨1⟩, ⟨1⟩)).isSome ∧ (⟨1⟩ : UserId) ∉ (w.cache.guildMembers ⟨1⟩).getD ∅)
      (by decide)
    exact ⟨w, reachable, quiescent, ⟨1⟩, ⟨1⟩, stored, unlisted⟩

end Twilight.Cache
