import Twilight.Cache.Interleaving
import Twilight.Cache.Entries

/-!
Facts over every schedule of handler steps, from any world: index entries stay, and records
stay under their own keys.
-/

namespace Twilight.Cache

/-! ### Index entries -/

theorem Step.keepsEntries (step : Step) (cache : InMemoryCache) :
    KeepsEntries cache (step.run cache).1 := by
  cases step with
  | checkMember => simpa using KeepsEntries.refl cache
  | updateMember =>
    rw [Step.run_updateMember_fst]
    exact ⟨fun _ => id, fun _ => id⟩
  | insertUserGuild | removeUserGuild =>
    exact ⟨fun _ => id, fun _ present => by simp [Step.run, present]⟩
  | insertRoster | removeRoster =>
    exact ⟨fun _ present => by simp [Step.run, present], fun _ => id⟩
  | extendRoster g ids =>
    refine ⟨fun g' present => ?_, fun _ => id⟩
    simp only [Step.run, extendEntry, Function.update_apply]
    split <;> simp [present]
  | insertUser | insertMember | removeMember | removeUser => exact ⟨fun _ => id, fun _ => id⟩

theorem World.Next.keepsEntries {w w' : World} (next : World.Next w w') :
    KeepsEntries w.cache w'.cache := by
  cases next with
  | spawn cache => exact KeepsEntries.refl cache
  | step cache _ _ step => exact step.keepsEntries cache

/-- No schedule of member handlers, from any world, drops a roster or membership entry. -/
theorem schedule_keeps_index_entries {w w' : World} (run : Relation.ReflTransGen World.Next w w') :
    KeepsEntries w.cache w'.cache := by
  induction run with
  | refl => exact KeepsEntries.refl _
  | tail _ next ih => exact ih.trans next.keepsEntries

theorem schedule_keeps_index_entries_remove :
    let added := (InMemoryCache.empty memberConfig).updateAll [raceAdd 1]
    KeepsEntries added (added.updateAll [raceRemove 1]) :=
  schedule_keeps_index_entries (updateAll_interleaved _ [] [raceRemove 1])

/-! ### Records under their own ids -/

/-- Every record sits under its own guild and user ids. -/
def RecordsKeyed (cache : InMemoryCache) : Prop :=
  ∀ g u cached, cache.members (g, u) = some cached → cached.guildId = g ∧ cached.userId = u

theorem Step.run_recordsKeyed (step : Step) {cache : InMemoryCache} (keyed : RecordsKeyed cache) :
    RecordsKeyed (step.run cache).1 := by
  intro g u cached found
  cases step with
  | checkMember => exact keyed g u cached (by simpa using found)
  | insertMember g' member =>
    simp only [Step.run, Function.update_apply, Prod.mk.injEq] at found
    split at found
    next same =>
      obtain ⟨rfl, rfl⟩ := same
      cases found
      exact ⟨rfl, rfl⟩
    next => exact keyed g u cached found
  | removeMember g' v =>
    simp only [Step.run, Function.update_apply] at found
    split at found
    · cases found
    · exact keyed g u cached found
  | updateMember event =>
    simp only [Step.run_updateMember_fst, Function.update_apply] at found
    split at found
    next same =>
      rw [← same] at found
      obtain ⟨old, stored, rfl⟩ := Option.map_eq_some'.mp found
      exact keyed g u old stored
    next => exact keyed g u cached found
  | insertUser | insertUserGuild | insertRoster | extendRoster | removeRoster | removeUserGuild
    | removeUser =>
    exact keyed g u cached (by simpa [Step.run, Step.run_removeUserGuild] using found)

/-- At every world an interleaving of member handlers reaches, each record sits under its
own guild and user ids. -/
theorem reachable_records_keyed {config : Config} {w : World} (reachable : Reachable config w) :
    RecordsKeyed w.cache := by
  induction reachable with
  | refl => intro g u cached found; simp [World.initial, InMemoryCache.empty] at found
  | tail _ next ih =>
    cases next with
    | spawn => exact ih
    | step _ _ _ step => exact step.run_recordsKeyed ih

theorem reachable_records_keyed_two_adds :
    RecordsKeyed ((InMemoryCache.empty memberConfig).updateAll [raceAdd 1, raceAdd 2]) :=
  reachable_records_keyed (updateAll_reachable memberConfig [raceAdd 1, raceAdd 2]).1

end Twilight.Cache
