import Lifespan.Proofs.Ledger
import Lifespan.Proofs.Recipe

-- Resolving one key of a dependency graph: the thread searches the graph depth first, and comes back with the
-- instance, or with the way down to the first key that needs itself.
namespace Lifespan
variable {C : Client}

namespace Recipes
open Lifespan.System
variable {plan : Recipes C} {keys : Finset String} {me : ThreadId} {path : List (String × GateRef)} {stored tried : List String}
  {cell : Scope C} {key : String} {system : System C} {frames base : List (Frame C)} {next : Reply C → Code C}
  {made called : List String} {broken : Option (List String × String)}

theorem path_fits {names : List String} (once : names.Nodup) (known : ∀ key ∈ names, key ∈ keys) : names.length ≤ keys.card := by
  rw [← List.toFinset_card_of_nodup once]
  exact Finset.card_le_card fun key member => known key (List.mem_toFinset.mp member)

theorem asks_below (here : plan.Stands keys me path stored tried ⟨.run (.resolve (plan.request key) (plan.job key).factory next), frames⟩ system)
    (inside : key ∈ keys) (missing : key ∉ stored) (fresh : key ∉ path.map Prod.fst) (low : Deep base keys.card frames)
    (high : ∀ gate, Deep base keys.card (.factory (plan.job key) gate :: .user next :: frames))
    (below : ∀ gate first, plan.Stands keys me ((key, gate) :: path) stored (tried ++ [key])
        ⟨.run (plan.code key (plan.needs key)), .factory (plan.job key) gate :: .user next :: frames⟩ first →
      ∃ last, Stretch me (Thread.Nested base keys.card) first last ∧
        plan.Stands keys me ((key, gate) :: path) (stored ++ made) (tried ++ [key] ++ called)
          ⟨.run (plan.outcome key broken), .factory (plan.job key) gate :: .user next :: frames⟩ last)
    (unmade : key ∉ stored ++ made) :
    ∃ last, Stretch me (Thread.Nested base keys.card) system last ∧
      match broken with
      | none => ∃ object, plan.Stands keys me path (stored ++ made ++ [key]) (tried ++ [key] ++ called)
          ⟨.back (.object object), .user next :: frames⟩ last
      | some (down, final) => plan.Stands keys me path (stored ++ made) (tried ++ [key] ++ called)
          ⟨.back (.fault (blame plan.scope.id (key :: down) final)), .user next :: frames⟩ last := by
  obtain ⟨first, tries, gate, here⟩ := resolves_fresh here inside high low missing fresh
  obtain ⟨second, goes, here⟩ := below gate first here
  cases broken with
  | none =>
    obtain ⟨last, builds, object, here⟩ := resolves_built here (high gate) (low.more rfl) unmade fresh
    exact ⟨last, tries.trans (goes.trans builds), object, here⟩
  | some broken =>
    obtain ⟨last, fails, here⟩ := resolves_failed here (high gate) (low.more rfl) fresh
    exact ⟨last, tries.trans (goes.trans fails), here⟩

-- A key whose factory has run to its end is made, or is one more on the way to where the search was broken off.
theorem recipe_runs {names todo : List String} (search : Search plan.needs names stored todo made called broken)
    (closed : ∀ key ∈ keys, ∀ need ∈ plan.needs key, need ∈ keys) (same : path.map Prod.fst = names) (once : names.Nodup)
    (known : ∀ key ∈ names, key ∈ keys) (inside : ∀ key ∈ todo, key ∈ keys) (deep : Deep base names.length frames)
    (here : plan.Stands keys me path stored tried ⟨.run (plan.code key todo), frames⟩ system) :
    ∃ last, Stretch me (Thread.Nested base keys.card) system last ∧
      plan.Stands keys me path (stored ++ made) (tried ++ called) ⟨.run (plan.outcome key broken), frames⟩ last := by
  induction search generalizing path frames key tried system with
  | nil =>
    rw [List.append_nil, List.append_nil]
    exact ⟨system, .refl _, here⟩
  | known there _ ih =>
    have low := deep.mono (path_fits once known)
    obtain ⟨first, found, object, here⟩ := resolves_known here (inside _ (List.mem_cons_self ..)) low there
    obtain ⟨second, back, here⟩ := resumes here low
    obtain ⟨last, rest, here⟩ := ih same once known (fun key member => inside key (List.mem_cons_of_mem _ member)) deep here
    exact ⟨last, found.trans (back.trans rest), here⟩
  | cyclic missing again =>
    have low := deep.mono (path_fits once known)
    obtain ⟨first, refused, here⟩ := resolves_cyclic here low missing (same ▸ again)
    obtain ⟨last, back, here⟩ := resumes here low
    rw [List.append_nil, List.append_nil]
    exact ⟨last, refused.trans back, here⟩
  | @fails need _ _ names stored _ made called missing fresh below ih =>
    have low := deep.mono (path_fits once known)
    have wanted : need ∈ keys := inside need (List.mem_cons_self ..)
    have twice : (need :: names).Nodup := List.nodup_cons.mpr ⟨fresh, once⟩
    have within : ∀ key ∈ need :: names, key ∈ keys := List.forall_mem_cons.mpr ⟨wanted, known⟩
    obtain ⟨first, fails, here⟩ := asks_below here wanted missing (same ▸ fresh) low
      (fun gate => (deep.more rfl).making.mono (path_fits twice within))
      (fun gate _ here => ih (congrArg (need :: ·) same) twice within (closed need wanted) (deep.more rfl).making here)
      (below.unmade missing)
    obtain ⟨last, back, here⟩ := resumes here low
    rw [List.append_assoc] at here
    exact ⟨last, fails.trans back, here⟩
  | @makes need broken names stored _ made called _ _ missing fresh below more inner outer =>
    have low := deep.mono (path_fits once known)
    have wanted : need ∈ keys := inside need (List.mem_cons_self ..)
    have twice : (need :: names).Nodup := List.nodup_cons.mpr ⟨fresh, once⟩
    have within : ∀ key ∈ need :: names, key ∈ keys := List.forall_mem_cons.mpr ⟨wanted, known⟩
    obtain ⟨first, builds, object, here⟩ := asks_below here wanted missing (same ▸ fresh) low
      (fun gate => (deep.more rfl).making.mono (path_fits twice within))
      (fun gate _ here => inner (congrArg (need :: ·) same) twice within (closed need wanted) (deep.more rfl).making here)
      (below.unmade missing)
    obtain ⟨second, back, here⟩ := resumes here low
    obtain ⟨last, rest, here⟩ := outer same once known (fun key member => inside key (List.mem_cons_of_mem _ member)) deep here
    exact ⟨last, builds.trans (back.trans rest), by simpa using here⟩

variable {program : C.Label → Code C} {memory : C.Memory} {code : Code C}

theorem idle_midway (reached : Runs (initial program memory code) system) (found : system.world.scope? plan.scope = some cell)
    (active : cell.state = .active) (unshared : cell.sharing = [])
    (typed : ∀ key ∈ keys, ∀ entry, cell.store.get? key = some entry → entry.type = plan.type key) :
    plan.Midway keys me [] cell.store.keys cell := by
  have lived := runs_lived reached plan.scope
  have ledger := runs_ledger reached plan.scope
  have same : (system.life plan.scope).cell = cell := cell_found found
  have alone : ∀ thread, (system.life plan.scope).grips thread = [] := fun thread => by
    have count := lived.accounts.shares thread
    rw [same, unshared, List.count_nil] at count
    exact List.length_eq_zero_iff.mp count.symm
  have gated := lived.gated
  have open_ : ¬(system.life plan.scope).Emptied := fun emptied => emptied.1 (by rw [same]; exact active)
  have lists := lived.content.full open_
  have turns := lived.accounts.turns
  have orderly := lived.orderly
  rw [same] at gated lists
  refine ⟨active, ?_, gated, fun key => ?_, nofun, fun key gate placed => ?_, rfl, fun key => ?_, typed⟩
  · have mine : Life.EndedBy _ me := orderly.anyone (by rw [same]; exact active)
    have mine := mine.exclusive
    rw [same, orderly.quiet (by rw [same]; exact active)] at mine
    exact mine
  · have owners := fun thread => ledger.owners key thread
    simp only [same, alone, List.filterMap_nil, List.not_mem_nil, iff_false] at owners
    cases owned : cell.gates.owners.get? key with
    | none => rfl
    | some thread => exact absurd owned (owners thread)
  · have inside := gated.known key gate placed
    rw [List.getElem?_eq_getElem inside]
    cases turn : cell.turns[gate] with
    | none => rfl
    | some thread =>
      have count := turns thread gate
      rw [same, alone, List.getElem?_eq_getElem inside, turn] at count
      simp at count
  · constructor
    · exact lists.known key
    · intro member
      rw [show cell.store.keys = cell.store.order from rfl, lists.order] at member
      obtain ⟨⟨name, object⟩, there, rfl⟩ := List.mem_map.mp member
      obtain ⟨type, stands⟩ := lists.found name object there
      rw [stands]
      rfl

-- What a resolve is answered with, and what is left of the search it stood for.
def Answers (plan : Recipes C) (stored : List String) (key : String) (made tried : List String) (reply : Reply C) :
    Option (List String × String) → Prop
  | none => (∃ object, reply = .object object) ∧ Completed plan.needs stored key made tried
  | some (down, last) => reply = .fault (blame plan.scope.id down last) ∧ BrokenOff plan.needs stored key made tried down last

theorem one_key (search : Search plan.needs [] stored [key] made called broken)
    (closed : ∀ key ∈ keys, ∀ need ∈ plan.needs key, need ∈ keys) (inside : key ∈ keys)
    (here : plan.Stands keys me [] stored tried ⟨.run (.resolve (plan.request key) (plan.job key).factory next), base⟩ system) :
    ∃ last reply, Stretch me (Thread.Nested base keys.card) system last ∧ plan.Answers stored key made called reply broken ∧
      plan.Stands keys me [] (stored ++ made) (tried ++ called) ⟨.back reply, .user next :: base⟩ last := by
  have flat : Deep base 0 base := ⟨[], rfl, Nat.le_refl _⟩
  have low : Deep base keys.card base := flat.mono (Nat.zero_le _)
  have single : [key].Nodup := List.nodup_singleton key
  have within : ∀ other ∈ [key], other ∈ keys := by simpa using inside
  have whole := search
  cases search with
  | known there more =>
    cases more
    obtain ⟨last, found, object, here⟩ := resolves_known here inside low there
    rw [List.append_nil, List.append_nil]
    exact ⟨last, _, found, ⟨⟨object, rfl⟩, whole.completed⟩, here⟩
  | cyclic _ again => cases again
  | fails missing fresh below =>
    obtain ⟨last, fails, here⟩ := asks_below here inside missing fresh low
      (fun gate => (flat.more rfl).making.mono (path_fits single within))
      (fun gate _ here => recipe_runs below closed rfl single within (closed key inside) (flat.more rfl).making here)
      (below.unmade missing)
    exact ⟨last, _, fails, ⟨rfl, whole.brokenOff⟩, by simpa using here⟩
  | makes missing fresh below more =>
    cases more
    obtain ⟨last, builds, object, here⟩ := asks_below here inside missing fresh low
      (fun gate => (flat.more rfl).making.mono (path_fits single within))
      (fun gate _ here => recipe_runs below closed rfl single within (closed key inside) (flat.more rfl).making here)
      (below.unmade missing)
    exact ⟨last, _, builds, ⟨⟨object, rfl⟩, whole.completed⟩, by simpa using here⟩

-- Resolving one key of a dependency graph searches the graph depth first below it, and always comes back. It
-- succeeds just if no circle can be reached over missing keys; then what can be reached is made, each key once and
-- after all that it needs. If not, the constructions on the way down are blamed one within the other for the first
-- key that was met again, and all other keys whose factories were called are made.
theorem graph_resolved (reached : Runs (initial program memory code) system)
    (calls : system.threads[me]? = some ⟨.run (.resolve (plan.request key) (plan.job key).factory next), base⟩)
    (found : system.world.scope? plan.scope = some cell) (active : cell.state = .active) (unshared : cell.sharing = [])
    (typed : ∀ key ∈ keys, ∀ entry, cell.store.get? key = some entry → entry.type = plan.type key)
    (closed : ∀ key ∈ keys, ∀ need ∈ plan.needs key, need ∈ keys) (inside : key ∈ keys)
    (recipes : ∀ key ∈ keys, system.world.program (plan.label key) = plan.code key (plan.needs key))
    (quiet : ∀ registry listener event, system.world.registries[plan.scope.registry]? = some registry →
      registry.listener = some listener → listener event = .done) :
    ∃ answered later reply made tried broken,
      Search plan.needs [] cell.store.keys [key] made tried broken ∧
      Stretch me (Thread.Nested base keys.card) system answered ∧
      answered.threads[me]? = some ⟨.back reply, .user next :: base⟩ ∧
      plan.Answers cell.store.keys key made tried reply broken ∧
      ((∃ object, reply = .object object) ↔ ¬Circular plan.needs cell.store.keys key) ∧
      answered.world.scope? plan.scope = some later ∧
      later.store.keys = cell.store.keys ++ made ∧
      answered.world.tried plan.scope = system.world.tried plan.scope ++ tried ∧
      (∀ key, later.gates.owners.get? key = none) ∧
      (system.threads.length = 1 → ∀ other, Runs system other →
        Stretch me (Thread.Nested base keys.card) other answered ∨ Runs answered other) := by
  obtain ⟨made, tried, broken, search⟩ := search_total keys closed [] cell.store.keys [key] (by simpa using inside)
  have known : plan.scope.registry < system.world.registries.length := registry_known reached (by rw [found]; rfl)
  have here : plan.Stands keys me [] cell.store.keys (system.world.tried plan.scope)
      ⟨.run (.resolve (plan.request key) (plan.job key).factory next), base⟩ system := by
    refine ⟨cell, ⟨calls, found, recipes, ⟨_, List.getElem?_eq_getElem known, fun listener listens event => ?_⟩, rfl⟩,
      idle_midway reached found active unshared typed⟩
    exact quiet _ listener event (List.getElem?_eq_getElem known) listens
  obtain ⟨answered, reply, stretch, answers, later, there, midway⟩ := one_key search closed inside here
  refine ⟨answered, later, reply, made, tried, broken, search, stretch, there.running, answers, ?_, there.found, midway.order,
    there.tried, midway.owners, fun single other path => (stretch.all_runs single path).imp_left And.right⟩
  cases broken with
  | none =>
    obtain ⟨object, completed⟩ := answers
    exact iff_of_true object completed.open_
  | some broken =>
    obtain ⟨rfl, brokenOff⟩ := answers
    exact iff_of_false nofun (not_not.mpr brokenOff.circular)

def eachOther : Recipes ⟨Unit, Unit, Unit, String⟩ where
  scope := ⟨0, ⟨.session, "a"⟩, 0⟩
  needs key := if key = "one" then ["two"] else if key = "two" then ["one"] else []
  type _ := "Thing"
  label key := key
  datum _ := ()

def needingEachOther : System ⟨Unit, Unit, Unit, String⟩ :=
  initial (fun key => eachOther.code key (eachOther.needs key)) () <| .call (.establish {}) fun _ => .call (.begin 0 ⟨.session, "a"⟩) fun _ =>
    .resolve (eachOther.request "one") (eachOther.job "one").factory fun _ => .done

theorem each_other_refused : ∃ answered reply later, Runs (run 7 needingEachOther) answered ∧
    answered.threads[0]? = some ⟨.back reply, [.user fun _ => .done]⟩ ∧ (¬∃ object, reply = .object object) ∧
    answered.world.scope? eachOther.scope = some later ∧ (∀ key, later.gates.owners.get? key = none) := by
  have calls : (run 7 needingEachOther).threads[0]? =
      some ⟨.run (.resolve (eachOther.request "one") (eachOther.job "one").factory fun _ => .done), []⟩ := rfl
  have found : (run 7 needingEachOther).world.scope? eachOther.scope = some .fresh := rfl
  have deaf : ∃ registry, (run 7 needingEachOther).world.registries[0]? = some registry ∧ registry.listener = none := ⟨_, rfl, rfl⟩
  have closed : ∀ key ∈ ({"one", "two"} : Finset String), ∀ need ∈ eachOther.needs key, need ∈ ({"one", "two"} : Finset String) := by decide
  have recipes : ∀ key ∈ ({"one", "two"} : Finset String),
      (run 7 needingEachOther).world.program (eachOther.label key) = eachOther.code key (eachOther.needs key) := fun _ _ => rfl
  obtain ⟨answered, later, reply, _, _, _, _, stretch, running, _, whether, there, _, _, unowned, _⟩ :=
    graph_resolved (run_runs 7 needingEachOther) calls found rfl rfl (fun _ _ _ => nofun) closed (by decide) recipes
      fun registry listener event there listens => by
        obtain ⟨other, here, deaf⟩ := deaf
        cases here.symm.trans there
        cases deaf.symm.trans listens
  have circle : Circular eachOther.needs [] "one" := by
    have down : Lacks eachOther.needs [] "one" "two" := ⟨by decide, nofun⟩
    have up : Lacks eachOther.needs [] "two" "one" := ⟨by decide, nofun⟩
    exact ⟨"one", ⟨nofun, .refl⟩, .tail (.single down) up⟩
  exact ⟨answered, reply, later, stretch.runs, running, fun built => whether.mp built circle, there, unowned⟩

end Recipes
end Lifespan
