import Twilight.Cache.Isolation
import Twilight.Cache.Invariant
import Twilight.Cache.Interleaving

/-!
Serializability of interleavings in which no two running invocations name one user.
-/
namespace Twilight.Cache

/-! ### Steps, user by user -/

def Step.userIds : Step → List UserId
  | .checkMember _ member | .insertUser _ member | .insertUserGuild _ member
    | .insertMember _ member => [member.user.id]
  | .insertRoster _ userId | .removeMember _ userId | .removeRoster _ userId
    | .removeUserGuild _ userId | .removeUser userId => [userId]
  | .extendRoster _ userIds => userIds
  | .updateMember event => [event.user.id]

theorem Step.run_config (step : Step) (cache : InMemoryCache) :
    (step.run cache).1.config = cache.config := by
  cases step with
  | checkMember => simp
  | updateMember => rw [Step.run_updateMember_fst]
  | removeUserGuild => rw [Step.run_removeUserGuild]
  | _ => rfl

theorem Step.userIds_run (step : Step) (cache : InMemoryCache) :
    ∀ next ∈ (step.run cache).2, next.userIds = step.userIds := by
  cases step with
  | checkMember g member =>
    simp only [Step.run]
    split
    · split <;> simp [Step.userIds]
    · simp [Step.userIds]
  | removeUserGuild g u =>
    rw [Step.run_removeUserGuild]
    dsimp only
    split <;> simp [Step.userIds]
  | _ => simp [Step.run, Step.userIds]

theorem mem_extendEntry {K V : Type} [DecidableEq K] [DecidableEq V] (map : K → Option (Finset V))
    (key other : K) (values : List V) (x : V) :
    x ∈ (extendEntry map key values other).getD ∅ ↔
      (other = key ∧ x ∈ values) ∨ x ∈ (map other).getD ∅ := by
  simp only [extendEntry, Function.update_apply]
  split
  · subst other
    simp [or_comm]
  · simp_all

variable {u : UserId}

theorem Step.keeps_userView (step : Step) (other : u ∉ step.userIds) (cache : InMemoryCache) :
    (step.run cache).1.userView u = cache.userView u := by
  cases step with
  | checkMember => simp
  | updateMember e =>
    have other : e.user.id ≠ u := by simpa [Step.userIds, eq_comm] using other
    rw [Step.run_updateMember_fst]
    simp [InMemoryCache.userView, Function.update_apply, Ne.symm other]
  | removeUserGuild g v =>
    have other : v ≠ u := by simpa [Step.userIds, eq_comm] using other
    rw [Step.run_removeUserGuild]
    simp [InMemoryCache.userView, removeFromEntry_of_ne, Ne.symm other]
  | extendRoster g ids =>
    have other : u ∉ ids := other
    simp [Step.run, InMemoryCache.userView, mem_extendEntry, other]
  | _ =>
    simp_all [Step.run, Step.userIds, InMemoryCache.userView, Function.update_apply,
      addToEntry_of_ne, removeFromEntry_of_ne, eq_comm]

theorem Step.respects_userView (step : Step) {s t : InMemoryCache}
    (same : s.userView u = t.userView u) :
    (step.run s).1.userView u = (step.run t).1.userView u := by
  by_cases here : u ∈ step.userIds
  swap
  · rw [step.keeps_userView here, step.keeps_userView here, same]
  simp only [InMemoryCache.userView, Prod.mk.injEq, funext_iff, decide_eq_decide] at same ⊢
  cases step with
  | checkMember => simp [same]
  | updateMember e =>
    obtain rfl : u = e.user.id := List.mem_singleton.mp here
    rw [Step.run_updateMember_fst, Step.run_updateMember_fst]
    simp [Function.update_apply, same]
  | removeUserGuild g v =>
    obtain rfl : u = v := List.mem_singleton.mp here
    rw [Step.run_removeUserGuild, Step.run_removeUserGuild]
    simp [removeFromEntry_self, same]
  | extendRoster g ids =>
    simp [Step.run, mem_extendEntry, same]
  | _ =>
    obtain rfl := List.mem_singleton.mp here
    simp [Step.run, Function.update_apply, addToEntry_self, removeFromEntry_self, same]

theorem Step.run_snd_congr (step : Step) (here : u ∈ step.userIds) {s t : InMemoryCache}
    (same : s.userView u = t.userView u) : (step.run s).2 = (step.run t).2 := by
  simp only [InMemoryCache.userView, Prod.mk.injEq, funext_iff] at same
  cases step with
  | checkMember g member =>
    obtain rfl : u = member.user.id := List.mem_singleton.mp here
    simp only [Step.run, same.1]
    split
    · split <;> rfl
    · rfl
  | removeUserGuild g v =>
    obtain rfl : u = v := List.mem_singleton.mp here
    rw [Step.run_removeUserGuild, Step.run_removeUserGuild]
    simp [removeFromEntry_self, same.2.1]
  | _ => rfl

/-! ### One invocation, as one user sees it -/

def Step.about (u : UserId) (steps : List Step) : List Step := steps.filter (u ∈ ·.userIds)

theorem Step.about_run_of_mem (step : Step) (here : u ∈ step.userIds) (cache : InMemoryCache)
    (rest : List Step) :
    Step.about u ((step.run cache).2 ++ rest) = (step.run cache).2 ++ Step.about u rest := by
  rw [Step.about, List.filter_append, List.filter_eq_self.mpr fun next mem => by
    simpa [step.userIds_run cache next mem] using here]
  rfl

theorem Step.about_run_of_not_mem (step : Step) (other : u ∉ step.userIds)
    (cache : InMemoryCache) (rest : List Step) :
    Step.about u ((step.run cache).2 ++ rest) = Step.about u rest := by
  rw [Step.about, List.filter_append, List.filter_eq_nil_iff.mpr fun next mem => by
    simpa [step.userIds_run cache next mem] using other]
  rfl

theorem Step.about_cons_of_mem {step : Step} (here : u ∈ step.userIds) (rest : List Step) :
    Step.about u (step :: rest) = step :: Step.about u rest :=
  List.filter_cons_of_pos (by simpa using here)

theorem Step.about_cons_of_not_mem {step : Step} (other : u ∉ step.userIds) (rest : List Step) :
    Step.about u (step :: rest) = Step.about u rest :=
  List.filter_cons_of_neg (by simpa using other)

theorem Solo.eq_of_nil {cache final : InMemoryCache} (run : Solo cache [] final) :
    final = cache := by
  cases run
  rfl

theorem Solo.tail {cache final : InMemoryCache} {step : Step} {rest : List Step}
    (run : Solo cache (step :: rest) final) :
    Solo (step.run cache).1 ((step.run cache).2 ++ rest) final := by
  cases run with
  | step _ _ tail => exact tail

theorem Solo.about {cache final : InMemoryCache} {task : List Step} (run : Solo cache task final)
    {shadow : InMemoryCache} (same : shadow.userView u = cache.userView u) :
    ∃ shadowFinal, Solo shadow (Step.about u task) shadowFinal ∧
      shadowFinal.userView u = final.userView u := by
  induction run generalizing shadow with
  | done => exact ⟨shadow, .done _, same⟩
  | @step cache final step rest _ ih =>
    by_cases here : u ∈ step.userIds
    · obtain ⟨shadowFinal, shadowRun, seen⟩ := ih (step.respects_userView same)
      refine ⟨shadowFinal, ?_, seen⟩
      rw [Step.about_cons_of_mem here]
      refine .step step _ ?_
      rw [step.run_snd_congr here same, ← step.about_run_of_mem here cache rest]
      exact shadowRun
    · rw [Step.about_cons_of_not_mem here, ← step.about_run_of_not_mem here cache rest]
      exact ih (same.trans (step.keeps_userView here cache).symm)

/-! ### Helpers on steps about a user -/

theorem Event.userIds_program (event : Event) (cache : InMemoryCache) :
    ∀ step ∈ event.program cache, ∀ u ∈ step.userIds, u ∈ (MemberOp.event event).userIds := by
  unfold Event.program
  split
  · simp
  · cases event with
    | memberChunk e =>
      simp only [Event.steps]
      split
      · simp
      · simp only [List.mem_append, List.mem_map, List.mem_singleton]
        rintro step (⟨m, mem, rfl⟩ | rfl) u named
        · simp only [Step.userIds, List.mem_singleton] at named
          exact List.mem_map.mpr ⟨m, mem, named.symm⟩
        · exact named
    | _ => simp [Event.steps, Step.userIds, MemberOp.userIds]

theorem Event.program_congr (event : Event) {s t : InMemoryCache} (config : s.config = t.config) :
    event.program s = event.program t := by
  simp [Event.program, InMemoryCache.wants, config]

theorem Event.update_userView_of_silent (event : Event) (cache : InMemoryCache)
    (silent : Step.about u (event.program cache) = []) :
    (event.update cache).userView u = cache.userView u := by
  obtain ⟨final, run, seen⟩ := (Event.solo_program cache event).about (rfl : cache.userView u = _)
  rw [silent] at run
  rw [← seen, run.eq_of_nil]

theorem InMemoryCache.updateAll_append (s : InMemoryCache) (first second : List Event) :
    s.updateAll (first ++ second) = (s.updateAll first).updateAll second := by
  induction first generalizing s with
  | nil => rfl
  | cons event events ih => exact ih _

theorem InMemoryCache.updateAll_config (s : InMemoryCache) (events : List Event) :
    (s.updateAll events).config = s.config := by
  induction events generalizing s with
  | nil => rfl
  | cons event events ih => exact (ih _).trans (event.update_config s)

theorem Step.about_append (first second : List Step) :
    Step.about u (first ++ second) = Step.about u first ++ Step.about u second :=
  List.filter_append _ _

theorem Step.about_flatten (tasks : List (List Step)) :
    Step.about u tasks.flatten = (tasks.map (Step.about u)).flatten :=
  List.filter_flatten _ _

theorem about_eq_nil_of_free {tasks : List (List Step)}
    (free : ∀ step ∈ tasks.flatten, u ∉ step.userIds) :
    ∀ task ∈ tasks, Step.about u task = [] := fun task mem =>
  List.filter_eq_nil_iff.mpr fun step inTask => by
    simpa using free step (List.mem_flatten.mpr ⟨task, mem, inTask⟩)

theorem filter_named_eq_nil {tasks : List (List Step)}
    (quiet : ∀ task ∈ tasks, Step.about u task = []) :
    tasks.filter (Step.about u · ≠ []) = [] :=
  List.filter_eq_nil_iff.mpr fun task mem => by simpa using quiet task mem

theorem silent_of_single {before after : List (List Step)} {task : List Step}
    (single : ((before ++ task :: after).filter (Step.about u · ≠ [])).length ≤ 1)
    (named : Step.about u task ≠ []) : ∀ other ∈ before ++ after, Step.about u other = [] := by
  rw [List.filter_append, List.filter_cons_of_pos (by simpa using named)] at single
  simp only [List.length_append, List.length_cons] at single
  intro other mem
  have empty : (before.filter (Step.about u · ≠ [])).length = 0 ∧
      (after.filter (Step.about u · ≠ [])).length = 0 := by omega
  simp only [List.length_eq_zero, List.filter_eq_nil_iff, decide_eq_true_eq, not_not] at empty
  rcases List.mem_append.mp mem with mem | mem
  · exact empty.1 other mem
  · exact empty.2 other mem

theorem about_pending_of_silent {before after : List (List Step)} (task : List Step)
    (silent : ∀ other ∈ before ++ after, Step.about u other = []) :
    Step.about u (before ++ task :: after).flatten = Step.about u task := by
  have quiet : ∀ tasks : List (List Step), (∀ other ∈ tasks, Step.about u other = []) →
      (tasks.map (Step.about u)).flatten = [] := fun tasks quiet => by
    simpa [List.flatten_eq_nil_iff] using quiet
  rw [Step.about_flatten, List.map_append, List.map_cons, List.flatten_append, List.flatten_cons,
    quiet before fun other mem => silent other (List.mem_append_left _ mem),
    quiet after fun other mem => silent other (List.mem_append_right _ mem)]
  simp

theorem about_pending_congr {before after : List (List Step)} {task task' : List Step}
    (same : Step.about u task' = Step.about u task) :
    Step.about u (before ++ task' :: after).flatten = Step.about u (before ++ task :: after).flatten ∧
      ((before ++ task' :: after).filter (Step.about u · ≠ [])).length =
        ((before ++ task :: after).filter (Step.about u · ≠ [])).length := by
  refine ⟨by rw [Step.about_flatten, Step.about_flatten]; simp [same], ?_⟩
  simp only [List.filter_append, List.filter_cons, same, List.length_append]
  split <;> rfl

/-! ### Schedules with one invocation per user -/

/-- No pending step names a user the event names. -/
def Event.Exclusive (event : Event) (tasks : List (List Step)) : Prop :=
  ∀ u ∈ (MemberOp.event event).userIds, ∀ step ∈ tasks.flatten, u ∉ step.userIds

inductive World.NextExclusive : World → World → Prop
  | spawn (cache : InMemoryCache) (tasks : List (List Step)) (event : Event)
      (free : event.Exclusive tasks) :
      World.NextExclusive ⟨cache, tasks⟩ ⟨cache, event.program cache :: tasks⟩
  | step (cache : InMemoryCache) (before after : List (List Step)) (step : Step)
      (rest : List Step) :
      World.NextExclusive ⟨cache, before ++ (step :: rest) :: after⟩
        ⟨(step.run cache).1, before ++ ((step.run cache).2 ++ rest) :: after⟩

theorem World.NextExclusive.next {w w' : World} (next : World.NextExclusive w w') :
    World.Next w w' := by
  cases next with
  | spawn cache tasks event => exact .spawn cache tasks event
  | step cache before after step rest => exact .step cache before after step rest

/-- An exclusive schedule from the empty cache, with the events whose handlers it started,
oldest first. -/
inductive ExclusiveRun (config : Config) : List Event → World → Prop
  | initial : ExclusiveRun config [] (World.initial config)
  | spawn {events : List Event} {cache : InMemoryCache} {tasks : List (List Step)}
      (run : ExclusiveRun config events ⟨cache, tasks⟩) (event : Event)
      (free : event.Exclusive tasks) :
      ExclusiveRun config (events ++ [event]) ⟨cache, event.program cache :: tasks⟩
  | step {events : List Event} {cache : InMemoryCache} {before after : List (List Step)}
      {step : Step} {rest : List Step}
      (run : ExclusiveRun config events ⟨cache, before ++ (step :: rest) :: after⟩) :
      ExclusiveRun config events
        ⟨(step.run cache).1, before ++ ((step.run cache).2 ++ rest) :: after⟩

theorem ExclusiveRun.reachable {config : Config} {events : List Event} {w : World}
    (run : ExclusiveRun config events w) :
    Relation.ReflTransGen World.NextExclusive (World.initial config) w := by
  induction run with
  | initial => exact .refl
  | spawn _ event free ih => exact ih.tail (.spawn _ _ event free)
  | step _ ih => exact ih.tail (.step _ _ _ _ _)

theorem exists_exclusiveRun {config : Config} {w : World}
    (reachable : Relation.ReflTransGen World.NextExclusive (World.initial config) w) :
    ∃ events, ExclusiveRun config events w := by
  induction reachable with
  | refl => exact ⟨[], .initial⟩
  | tail _ next ih =>
    obtain ⟨events, run⟩ := ih
    cases next with
    | spawn cache tasks event free => exact ⟨events ++ [event], run.spawn event free⟩
    | step => exact ⟨events, run.step⟩

theorem ExclusiveRun.solo (before after : List (List Step)) {config : Config}
    {events : List Event} {cache final : InMemoryCache} {task : List Step}
    (run : ExclusiveRun config events ⟨cache, before ++ task :: after⟩)
    (solo : Solo cache task final) : ExclusiveRun config events ⟨final, before ++ [] :: after⟩ := by
  induction solo with
  | done => exact run
  | step step rest _ ih => exact ih run.step

/-! ### Serializability -/

/-- What every exclusive run keeps: at most one invocation names a user, and the steps still to
run that name a user, run alone from a cache with the user's view, leave the user the view
that handling the started events one after another gives. -/
structure ExclusiveInv (config : Config) (events : List Event) (w : World) : Prop where
  configured : w.cache.config = config
  single : ∀ u, (w.tasks.filter (Step.about u · ≠ [])).length ≤ 1
  shadow : ∀ u, ∃ shadow final, shadow.config = config ∧ shadow.userView u = w.cache.userView u ∧
    Solo shadow (Step.about u w.pending) final ∧
    final.userView u = ((InMemoryCache.empty config).updateAll events).userView u

theorem exclusiveInv_initial (config : Config) : ExclusiveInv config [] (World.initial config) where
  configured := rfl
  single _ := by simp [World.initial]
  shadow _ := ⟨_, _, rfl, rfl, .done _, rfl⟩

section Preservation

variable {config : Config} {events : List Event} {cache : InMemoryCache}

theorem ExclusiveInv.spawn {tasks : List (List Step)} (inv : ExclusiveInv config events ⟨cache, tasks⟩)
    (event : Event) (free : event.Exclusive tasks) :
    ExclusiveInv config (events ++ [event]) ⟨cache, event.program cache :: tasks⟩ := by
  have started : ∀ u, Step.about u (event.program cache) ≠ [] →
      ∀ task ∈ tasks, Step.about u task = [] := fun u named => by
    obtain ⟨step, mem⟩ := List.exists_mem_of_ne_nil _ named
    obtain ⟨inProgram, here⟩ := List.mem_filter.mp mem
    exact about_eq_nil_of_free
      (free u (event.userIds_program cache step inProgram u (by simpa using here)))
  refine ⟨inv.configured, fun u => ?_, fun u => ?_⟩
  · by_cases quiet : Step.about u (event.program cache) = []
    · simpa [List.filter_cons, quiet] using inv.single u
    · rw [List.filter_cons_of_pos (by simpa using quiet), filter_named_eq_nil (started u quiet)]
      simp
  · obtain ⟨shadow, final, shadowConfig, same, run, seen⟩ := inv.shadow u
    set serial := (InMemoryCache.empty config).updateAll events
    have sameConfig : cache.config = serial.config := by
      rw [inv.configured, InMemoryCache.updateAll_config]
      rfl
    have last : serial.updateAll [event] = event.update serial := rfl
    simp only [World.pending] at run ⊢
    rw [List.flatten_cons, Step.about_append, InMemoryCache.updateAll_append, last]
    by_cases quiet : Step.about u (event.program cache) = []
    · rw [quiet, List.nil_append, event.update_userView_of_silent serial
        (by rwa [← event.program_congr sameConfig])]
      exact ⟨shadow, final, shadowConfig, same, run, seen⟩
    · have nothingPending : Step.about u tasks.flatten = [] := by
        simpa [Step.about_flatten, List.flatten_eq_nil_iff] using started u quiet
      rw [nothingPending] at run ⊢
      rw [run.eq_of_nil, same] at seen
      obtain ⟨final', run', seen'⟩ :=
        (Event.solo_program cache event).about (rfl : cache.userView u = _)
      exact ⟨cache, final', inv.configured, rfl, by simpa using run',
        seen'.trans ((MemberOp.event event).respects_userView cache serial sameConfig seen)⟩

theorem ExclusiveInv.silent {before after : List (List Step)} {step : Step} {rest : List Step}
    (inv : ExclusiveInv config events ⟨cache, before ++ (step :: rest) :: after⟩)
    (here : u ∈ step.userIds) : ∀ other ∈ before ++ after, Step.about u other = [] :=
  silent_of_single (inv.single u) (by simp [Step.about_cons_of_mem here])

theorem ExclusiveInv.step {before after : List (List Step)} {step : Step} {rest : List Step}
    (inv : ExclusiveInv config events ⟨cache, before ++ (step :: rest) :: after⟩) :
    ExclusiveInv config events
      ⟨(step.run cache).1, before ++ ((step.run cache).2 ++ rest) :: after⟩ := by
  refine ⟨(step.run_config cache).trans inv.configured, fun u => ?_, fun u => ?_⟩
  · by_cases here : u ∈ step.userIds
    · have silent := inv.silent here
      rw [List.filter_append, List.filter_cons,
        filter_named_eq_nil fun other mem => silent other (List.mem_append_left _ mem),
        filter_named_eq_nil fun other mem => silent other (List.mem_append_right _ mem)]
      split <;> simp
    · rw [(about_pending_congr ((step.about_run_of_not_mem here cache rest).trans
        (Step.about_cons_of_not_mem here rest).symm)).2]
      exact inv.single u
  · obtain ⟨shadow, final, shadowConfig, same, run, seen⟩ := inv.shadow u
    simp only [World.pending] at run ⊢
    by_cases here : u ∈ step.userIds
    · have silent := inv.silent here
      rw [about_pending_of_silent _ silent, Step.about_cons_of_mem here] at run
      rw [about_pending_of_silent _ silent, step.about_run_of_mem here cache rest,
        ← step.run_snd_congr here same]
      exact ⟨(step.run shadow).1, final, (step.run_config shadow).trans shadowConfig,
        step.respects_userView same, run.tail, seen⟩
    · rw [(about_pending_congr ((step.about_run_of_not_mem here cache rest).trans
        (Step.about_cons_of_not_mem here rest).symm)).1]
      exact ⟨shadow, final, shadowConfig, same.trans (step.keeps_userView here cache).symm, run,
        seen⟩

end Preservation

theorem ExclusiveRun.inv {config : Config} {events : List Event} {w : World}
    (run : ExclusiveRun config events w) : ExclusiveInv config events w := by
  induction run with
  | initial => exact exclusiveInv_initial config
  | spawn _ event free ih => exact ih.spawn event free
  | step _ ih => exact ih.step

theorem ExclusiveRun.userView_of_quiescent {config : Config} {events : List Event} {w : World}
    (run : ExclusiveRun config events w) (quiescent : w.Quiescent) (u : UserId) :
    w.cache.userView u = ((InMemoryCache.empty config).updateAll events).userView u := by
  obtain ⟨shadow, final, _, same, solo, seen⟩ := run.inv.shadow u
  have silent : Step.about u w.pending = [] := by rw [show w.pending = [] from quiescent]; rfl
  rw [silent] at solo
  rw [← seen, solo.eq_of_nil, same]

/-! ### Roster entries -/

def Step.rosterGuild : Step → Option GuildId
  | .checkMember g _ | .insertUser g _ | .insertUserGuild g _ | .insertMember g _
    | .insertRoster g _ | .extendRoster g _ => some g
  | _ => none

def Step.createsRoster (g : GuildId) : Step → Bool
  | .insertRoster g' _ | .extendRoster g' _ => decide (g' = g)
  | _ => false

section Rosters

variable {g : GuildId}

theorem Step.rosterGuild_of_createsRoster {step : Step} (creates : step.createsRoster g) :
    step.rosterGuild = some g := by
  cases step <;> simp_all [Step.createsRoster, Step.rosterGuild]

theorem Step.rosterGuild_run (step : Step) (cache : InMemoryCache) :
    ∀ next ∈ (step.run cache).2, next.rosterGuild = step.rosterGuild := by
  cases step with
  | checkMember g member =>
    simp only [Step.run]
    split
    · split <;> simp [Step.rosterGuild]
    · simp [Step.rosterGuild]
  | removeUserGuild g u =>
    rw [Step.run_removeUserGuild]
    dsimp only
    split <;> simp [Step.rosterGuild]
  | _ => simp [Step.run, Step.rosterGuild]

theorem Step.isSome_guildMembers_run (step : Step) (cache : InMemoryCache) (g : GuildId) :
    ((step.run cache).1.guildMembers g).isSome =
      ((cache.guildMembers g).isSome || step.createsRoster g) := by
  cases step with
  | checkMember => simp [Step.createsRoster]
  | updateMember => simp [Step.run_updateMember_fst, Step.createsRoster]
  | removeUserGuild => simp [Step.run_removeUserGuild, Step.createsRoster]
  | insertRoster g' u => simp [Step.run, Step.createsRoster, eq_comm, Bool.or_comm]
  | extendRoster g' ids =>
    simp only [Step.run, extendEntry, Function.update_apply, Step.createsRoster]
    split <;> simp_all [eq_comm]
  | _ => simp [Step.run, Step.createsRoster]

theorem Solo.isSome_guildMembers {cache final : InMemoryCache} {task : List Step}
    (run : Solo cache task final) (g : GuildId)
    (before : (cache.guildMembers g).isSome ∨ ∃ step ∈ task, step.createsRoster g) :
    (final.guildMembers g).isSome := by
  induction run with
  | done => simpa using before
  | step step rest _ ih =>
    apply ih
    rcases before with present | ⟨x, mem, creates⟩
    · exact .inl (by simp [Step.isSome_guildMembers_run, present])
    · rcases List.mem_cons.mp mem with rfl | mem
      · exact .inl (by simp [Step.isSome_guildMembers_run, creates])
      · exact .inr ⟨x, List.mem_append_right _ mem, creates⟩

theorem Solo.rosterGuild_of_isSome {cache final : InMemoryCache} {task : List Step}
    (run : Solo cache task final) (g : GuildId) (present : (final.guildMembers g).isSome) :
    (cache.guildMembers g).isSome ∨ ∃ step ∈ task, step.rosterGuild = some g := by
  induction run with
  | done => exact .inl present
  | step step rest _ ih =>
    rcases ih present with after | ⟨x, mem, chain⟩
    · rw [Step.isSome_guildMembers_run, Bool.or_eq_true] at after
      exact after.imp_right fun creates =>
        ⟨step, List.mem_cons_self _ _, Step.rosterGuild_of_createsRoster creates⟩
    · rcases List.mem_append.mp mem with handed | later
      · exact .inr ⟨step, List.mem_cons_self _ _, (step.rosterGuild_run _ x handed).symm.trans chain⟩
      · exact .inr ⟨x, List.mem_cons_of_mem _ later, chain⟩

theorem Event.createsRoster_of_rosterGuild (event : Event) (cache : InMemoryCache)
    (chain : ∃ step ∈ event.program cache, step.rosterGuild = some g) :
    ∃ step ∈ event.program cache, step.createsRoster g := by
  obtain ⟨step, mem, chain⟩ := chain
  unfold Event.program at mem ⊢
  split
  · simp_all
  · simp only [*, Bool.not_true, Bool.false_eq_true, if_false] at mem
    cases event with
    | memberAdd e =>
      simp only [Event.steps, List.mem_cons, List.not_mem_nil, or_false] at mem
      have guild : e.member.guildId = g := by
        rcases mem with rfl | rfl <;> simpa [Step.rosterGuild] using chain
      exact ⟨.insertRoster e.member.guildId e.member.user.id, by simp [Event.steps],
        by simp [Step.createsRoster, guild]⟩
    | memberChunk e =>
      simp only [Event.steps] at mem ⊢
      split at mem
      · simp at mem
      · rw [if_neg ‹_›]
        have guild : e.guildId = g := by
          simp only [List.mem_append, List.mem_map, List.mem_singleton] at mem
          rcases mem with ⟨m, _, rfl⟩ | rfl <;> simpa [Step.rosterGuild] using chain
        exact ⟨.extendRoster e.guildId (e.members.map (·.user.id)), by simp,
          by simp [Step.createsRoster, guild]⟩
    | _ => simp_all [Event.steps, Step.rosterGuild]

theorem Event.isSome_guildMembers_update (event : Event) (cache : InMemoryCache) (g : GuildId) :
    ((event.update cache).guildMembers g).isSome ↔
      (cache.guildMembers g).isSome ∨ ∃ step ∈ event.program cache, step.createsRoster g :=
  ⟨fun present => ((Event.solo_program cache event).rosterGuild_of_isSome g present).imp_right
      (event.createsRoster_of_rosterGuild cache),
    (Event.solo_program cache event).isSome_guildMembers g⟩

theorem mem_pending_cases {before after : List (List Step)} {step x : Step} {rest next : List Step}
    (mem : x ∈ (before ++ (next ++ rest) :: after).flatten) :
    x ∈ next ∨ x ∈ (before ++ (step :: rest) :: after).flatten := by
  simp only [List.flatten_append, List.flatten_cons, List.mem_append, List.mem_cons] at mem ⊢
  tauto

end Rosters

/-- Which roster entries a run holds once its invocations end: those of the sequential run of
its events. An entry is there, or a step on its way to it is pending, only if the sequential
run has it; and the sequential run has it only if it is there or a pending insert creates
it. -/
structure RostersTracked (config : Config) (events : List Event) (w : World) : Prop where
  sound : ∀ g, ((w.cache.guildMembers g).isSome ∨ ∃ step ∈ w.pending, step.rosterGuild = some g) →
    (((InMemoryCache.empty config).updateAll events).guildMembers g).isSome
  complete : ∀ g, (((InMemoryCache.empty config).updateAll events).guildMembers g).isSome →
    (w.cache.guildMembers g).isSome ∨ ∃ step ∈ w.pending, step.createsRoster g

section Tracking

variable {config : Config} {events : List Event} {cache : InMemoryCache}

theorem RostersTracked.spawn {tasks : List (List Step)}
    (tracked : RostersTracked config events ⟨cache, tasks⟩) (event : Event)
    (configured : cache.config = config) :
    RostersTracked config (events ++ [event]) ⟨cache, event.program cache :: tasks⟩ := by
  set serial := (InMemoryCache.empty config).updateAll events
  have sameConfig : cache.config = serial.config := by
    rw [configured, InMemoryCache.updateAll_config]
    rfl
  have grows : ∀ g, ((event.update serial).guildMembers g).isSome ↔
      (serial.guildMembers g).isSome ∨ ∃ step ∈ event.program cache, step.createsRoster g :=
    fun g => by
      rw [event.program_congr sameConfig]
      exact event.isSome_guildMembers_update serial g
  have last : (InMemoryCache.empty config).updateAll (events ++ [event]) = event.update serial := by
    rw [InMemoryCache.updateAll_append]
    rfl
  constructor
  · intro g known
    simp only [World.pending, List.flatten_cons, List.mem_append] at known
    rw [last, grows]
    rcases known with present | ⟨x, mem | mem, chain⟩
    · exact .inl (tracked.sound g (.inl present))
    · exact .inr (event.createsRoster_of_rosterGuild cache ⟨x, mem, chain⟩)
    · exact .inl (tracked.sound g (.inr ⟨x, mem, chain⟩))
  · intro g present
    rw [last, grows] at present
    simp only [World.pending, List.flatten_cons, List.mem_append]
    rcases present with old | ⟨x, mem, creates⟩
    · exact (tracked.complete g old).imp_right fun ⟨x, mem, creates⟩ => ⟨x, .inr mem, creates⟩
    · exact .inr ⟨x, .inl mem, creates⟩

theorem RostersTracked.step {before after : List (List Step)} {step : Step} {rest : List Step}
    (tracked : RostersTracked config events ⟨cache, before ++ (step :: rest) :: after⟩) :
    RostersTracked config events
      ⟨(step.run cache).1, before ++ ((step.run cache).2 ++ rest) :: after⟩ := by
  have ran : step ∈ (before ++ (step :: rest) :: after).flatten := by simp
  refine ⟨fun g known => tracked.sound g ?_, fun g present => ?_⟩
  · rcases known with present | ⟨x, mem, chain⟩
    · rw [Step.isSome_guildMembers_run, Bool.or_eq_true] at present
      exact present.imp_right fun creates => ⟨step, ran, Step.rosterGuild_of_createsRoster creates⟩
    · rcases mem_pending_cases mem with handed | old
      · exact .inr ⟨step, ran, (step.rosterGuild_run _ x handed).symm.trans chain⟩
      · exact .inr ⟨x, old, chain⟩
  · rcases tracked.complete g present with stored | ⟨x, mem, creates⟩
    · exact .inl (by simp [Step.isSome_guildMembers_run, stored])
    · by_cases same : x = step
      · subst same
        exact .inl (by simp [Step.isSome_guildMembers_run, creates])
      · exact .inr ⟨x, mem_pending_of_ne mem same, creates⟩

end Tracking

theorem ExclusiveRun.rosters {config : Config} {events : List Event} {w : World}
    (run : ExclusiveRun config events w) : RostersTracked config events w := by
  induction run with
  | initial =>
    exact ⟨fun _ known => by simp [World.initial, World.pending, InMemoryCache.empty] at known,
      fun _ present => by simp [InMemoryCache.updateAll, InMemoryCache.empty] at present⟩
  | spawn run event _ ih => exact ih.spawn event run.inv.configured
  | step _ ih => exact ih.step

theorem entry_eq_of_mem_iff {α : Type} {a b : Option (Finset α)} (present : a.isSome = b.isSome)
    (mem : ∀ x, x ∈ a.getD ∅ ↔ x ∈ b.getD ∅) : a = b := by
  cases a <;> cases b <;> simp_all [Finset.ext_iff]

theorem ExclusiveRun.eq_serial_of_quiescent {config : Config} {events : List Event} {w : World}
    (run : ExclusiveRun config events w) (quiescent : w.Quiescent) :
    w.cache = (InMemoryCache.empty config).updateAll events := by
  have view := run.userView_of_quiescent quiescent
  simp only [InMemoryCache.userView, Prod.mk.injEq, funext_iff, decide_eq_decide] at view
  have tracked := run.rosters
  have silent : w.pending = [] := quiescent
  refine InMemoryCache.ext ?_ (funext fun key => (view key.2).1 key.1) (funext fun g => ?_)
    (funext fun u => (view u).2.1) (funext fun u => (view u).2.2.1)
  · rw [run.inv.configured, InMemoryCache.updateAll_config]
    rfl
  · refine entry_eq_of_mem_iff ?_ fun u => (view u).2.2.2 g
    rw [Bool.eq_iff_iff]
    exact ⟨fun present => tracked.sound g (.inl present),
      fun present => (tracked.complete g present).resolve_right (by simp [silent])⟩

/-- Exclusive schedules are serializable: every quiescent state of one is the state that
handling the started events one after another, in the order they started, leaves. -/
theorem exclusive_quiescent_serializable {config : Config} {events : List Event} {w : World}
    (run : ExclusiveRun config events w) (quiescent : w.Quiescent) :
    w.cache = (InMemoryCache.empty config).updateAll events :=
  run.eq_serial_of_quiescent quiescent

/-- Under per-user exclusion, every quiescent state an interleaving of member handlers
reaches from the empty cache satisfies the invariants of the sequential cache in full: the
roster agrees with the records, every record sits under its own ids, a profile is cached
exactly while its membership set is non-empty, and the membership index and the records
agree. -/
theorem exclusive_quiescent_consistent (config : Config) (w : World)
    (reachable : Relation.ReflTransGen World.NextExclusive (World.initial config) w)
    (quiescent : w.Quiescent) : Consistent w.cache ∧ Linked w.cache := by
  obtain ⟨events, run⟩ := exists_exclusiveRun reachable
  rw [run.eq_serial_of_quiescent quiescent]
  exact updateAll_invariant config events

def guildJoin (userId : UInt64) : Event :=
  .memberAdd ⟨⟨false, ⟨1⟩, none, false, none, false, none, [], ⟨⟨userId⟩, "user", "0001", none⟩⟩⟩

theorem guildJoins_started :
    ExclusiveRun memberConfig [guildJoin 1, guildJoin 2]
      ⟨InMemoryCache.empty memberConfig, [(guildJoin 2).program (InMemoryCache.empty memberConfig),
        (guildJoin 1).program (InMemoryCache.empty memberConfig)]⟩ :=
  ((ExclusiveRun.initial : ExclusiveRun memberConfig [] _).spawn (guildJoin 1)
    (by simp [Event.Exclusive])).spawn (guildJoin 2) (by unfold Event.Exclusive; decide)

theorem guildJoins_reversed :
    ExclusiveRun memberConfig [guildJoin 1, guildJoin 2]
      ⟨(guildJoin 1).update ((guildJoin 2).update (InMemoryCache.empty memberConfig)), [[], []]⟩ := by
  have second := ExclusiveRun.solo [] _ guildJoins_started (Event.solo_program _ _)
  have first := Event.solo_program ((guildJoin 2).update (InMemoryCache.empty memberConfig))
    (guildJoin 1)
  rw [(guildJoin 1).program_congr ((guildJoin 2).update_config _)] at first
  exact ExclusiveRun.solo [[]] [] second first

theorem exclusive_quiescent_serializable_joins :
    let w : World :=
      ⟨(guildJoin 1).update ((guildJoin 2).update (InMemoryCache.empty memberConfig)), [[], []]⟩
    (ExclusiveRun memberConfig [guildJoin 1, guildJoin 2] w ∧ w.Quiescent) ∧
      w.cache = (InMemoryCache.empty memberConfig).updateAll [guildJoin 1, guildJoin 2] :=
  ⟨⟨guildJoins_reversed, rfl⟩, exclusive_quiescent_serializable guildJoins_reversed rfl⟩

theorem exclusive_quiescent_consistent_joins :
    let w : World :=
      ⟨(guildJoin 1).update ((guildJoin 2).update (InMemoryCache.empty memberConfig)), [[], []]⟩
    (Relation.ReflTransGen World.NextExclusive (World.initial memberConfig) w ∧ w.Quiescent) ∧
      Consistent w.cache ∧ Linked w.cache :=
  ⟨⟨guildJoins_reversed.reachable, rfl⟩,
    exclusive_quiescent_consistent memberConfig _ guildJoins_reversed.reachable rfl⟩

end Twilight.Cache
