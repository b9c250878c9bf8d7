import Lifespan.Proofs.Origin
import Lifespan.Proofs.Views

-- Whether a singleton is there, as it is told to whoever asks. One question looks only at the key, the others also at
-- the type of what stands under it; they part where an instance of another type has taken the key.
namespace Lifespan
variable {C : Client}

namespace World

-- An active scope lets everyone in, one that is being ended only whoever makes something there.
def lets (world : World C) (me : ThreadId) (scope : ScopeRef) : Bool :=
  match (world.cell scope).state with
  | .active => true
  | .destructionPending => (world.cell scope).gates.isBuilding me
  | _ => false

def entry? (world : World C) (me : ThreadId) (scope : ScopeRef) (key : String) : Option Entry :=
  if world.lets me scope then (world.cell scope).store.get? key else none

def finds? (world : World C) (me : ThreadId) (scope : ScopeRef) (key type : String) : Option InstanceRef :=
  (world.entry? me scope key).bind (·.downcast type)

def present (world : World C) (me : ThreadId) (registry : RegistryRef) (context : Context) (kind : Kind) (type : String) :
    Option InstanceRef :=
  (world.current registry context kind).bind fun scope => world.finds? me scope type type

end World

section
variable {one two world : World C} {me : ThreadId} {scope : ScopeRef} {key name type : String} {entry : Entry} {cell : Scope C}
  {made : Instance C}

theorem same_entry (same : one.scopes = two.scopes) : one.entry? me scope key = two.entry? me scope key := by
  have cell : one.cell scope = two.cell scope := by simp only [World.cell, World.scope?, same]
  unfold World.entry? World.lets
  rw [cell]

theorem downcast_isSome : (entry.downcast type).isSome = true ↔ entry.type = type := by
  unfold Entry.downcast
  split <;> simp_all

theorem kept_either (stands : (cell.kept scope key made).store.get? name = some entry) :
    cell.store.get? name = some entry ∨ entry = ⟨.kept scope cell.instances.length, made.type⟩ := by
  rw [kept_get?, Option.or_eq_some_iff] at stands
  rcases stands with old | ⟨_, new⟩
  · exact .inl old
  · split at new
    · exact .inr (Option.some.inj new).symm
    · cases new

end

namespace Life
variable {life before after : Life C} {shaken aided : Prop} {scope : ScopeRef}

def Typed (scope : ScopeRef) (life : Life C) : Prop := ∀ key entry, life.cell.store.get? key = some entry →
  ∃ index made, entry.object = .kept scope index ∧ life.cell.instances[index]? = some made ∧ made.type = entry.type

theorem Typed.keep (typed : before.Typed scope) (store : after.cell.store = before.cell.store)
    (instances : after.cell.instances = before.cell.instances) : after.Typed scope := by
  intro key entry stands
  rw [instances]
  exact typed key entry (store ▸ stands)

theorem preserves_typed (typed : before.Typed scope) (step : Step shaken aided scope before after) : after.Typed scope := by
  cases step with
  | idle cell =>
    obtain ⟨attributes, cell⟩ := cell
    exact typed.keep (by rw [cell]) (by rw [cell])
  | build me rest build cell =>
    rcases build.stores with ⟨_, _, store, instances⟩ | ⟨key, gate, made, _, _, rfl, _⟩
    · exact typed.keep (by rw [cell, store]) (by rw [cell, instances])
    · intro name entry stands
      rw [cell] at stands ⊢
      rcases kept_either stands with old | rfl
      · obtain ⟨index, known, object, there, same⟩ := typed name entry old
        exact ⟨index, known, object, List.getElem?_append_left (List.getElem?_eq_some_iff.mp there).1 ▸ there, same⟩
      · exact ⟨_, made, rfl, List.getElem?_concat_length, rfl⟩
  | @close _ effect _ _ me rest close cell =>
    by_cases empties : effect = .empty scope
    · intro key entry stands
      rw [cell, empties] at stands
      cases stands
    · exact typed.keep (by rw [cell, (close.contents me empties).1]) (by rw [cell, (close.contents me empties).2])

theorem Lived.typed (lived : Lived shaken aided scope life) : life.Typed scope := by
  induction lived with
  | untouched untouched =>
    intro key entry stands
    rw [untouched.cell] at stands
    cases stands
  | step _ next ih => exact preserves_typed ih next

end Life

namespace System
variable {system : System C} {program : C.Label → Code C} {memory : C.Memory} {code : Code C} {me : ThreadId} {thread : Thread C}
  {scope : ScopeRef} {key type : String} {frames : List (Frame C)} {focus : Focus C} {sight : Sight C} {op : Op C} {reply : Reply C}
  {entry : Entry}

theorem runs_typed (path : Runs (initial program memory code) system)
    (stands : (system.world.cell scope).store.get? key = some entry) :
    ∃ made, system.world.instance? entry.object = some made ∧ made.type = entry.type := by
  obtain ⟨index, made, object, there, same⟩ := (runs_lived path scope).typed key entry stands
  refine ⟨made, ?_, same⟩
  cases found : system.world.scope? scope with
  | none => simp [life, World.cell, found, Scope.fresh_eq] at there
  | some cell => simpa [World.instance?, object, found, life, World.cell] using there

def Gives (system : System C) (me : ThreadId) (op : Op C) (reply : Reply C) : Prop :=
  ∀ next frames, system.threads[me]? = some ⟨.run (.call op next), frames⟩ →
    ∃ after, Stretch me (fun _ => True) system after ∧ after.world.scopes = system.world.scopes ∧
      after.world.registries = system.world.registries ∧ after.threads[me]? = some ⟨.back reply, .user next :: frames⟩

theorem Stretch.silently (running : system.threads[me]? = some thread) (busy : thread.focus.rests = false)
    (next : thread.next system.world me = some (.silent focus frames)) :
    ∃ after, Stretch me (fun _ => True) system after ∧ after.world = system.world ∧ after.threads[me]? = some ⟨focus, frames⟩ :=
  ⟨_, .once running busy next, rfl, List.getElem?_set_self (List.getElem?_eq_some_iff.mp running).1⟩

theorem Stretch.called {next : Reply C → Code C} {waiting : List (Frame C)}
    (running : system.threads[me]? = some ⟨.run (.call op next), frames⟩)
    (calls : Move.call system.world op (.user next :: frames) = some (.silent focus waiting)) :
    ∃ after, Stretch me (fun _ => True) system after ∧ after.world = record system.world me [.called op] ∧
      after.threads[me]? = some ⟨focus, waiting⟩ :=
  ⟨_, .step running trivial rfl (call_advances running calls) (.refl _), rfl,
    List.getElem?_set_self (List.getElem?_eq_some_iff.mp running).1⟩

theorem check_admits (known : (system.world.scope? sight.scope).isSome)
    (running : system.threads[me]? = some ⟨.check (.sight sight), frames⟩) :
    ∃ after, Stretch me (fun _ => True) system after ∧ after.world = system.world ∧
      after.threads[me]? = some ⟨if system.world.lets me sight.scope then .look sight
        else (Point.sight sight).refused (.inactive sight.scope.id), frames⟩ := by
  obtain ⟨cell, found⟩ := Option.isSome_iff_exists.mp known
  have here := cell_found found
  cases state : cell.state with
  | active =>
    refine Stretch.silently running rfl ?_
    simp [Thread.next, Move.check, Point.scope, found, state, World.lets, here, Point.admitted]
  | destructionPending =>
    obtain ⟨vouching, comes, same, vouches⟩ := Stretch.silently running rfl
      (show Move.check system.world _ frames = some (.silent (.vouch (.sight sight)) frames) by simp [Move.check, Point.scope, found, state])
    have next : Move.vouch vouching.world me (.sight sight) frames = some (.silent
        (if system.world.lets me sight.scope then .look sight else (Point.sight sight).refused (.inactive sight.scope.id)) frames) := by
      rw [same]
      simp only [Move.vouch, Point.scope, found, Option.map_some, World.lets, here, state, Point.admitted]
      split <;> rfl
    obtain ⟨after, goes, still, looks⟩ := Stretch.silently vouches rfl next
    exact ⟨after, comes.trans goes, still.trans same, looks⟩
  | created | destroyed =>
    refine Stretch.silently running rfl ?_
    simp [Thread.next, Move.check, Point.scope, found, state, World.lets, here]

theorem look_gives (sight : Sight C)
    (searches : ∀ frames, Move.call system.world op frames = some (.silent (.check (.sight sight)) frames))
    (known : (system.world.scope? sight.scope).isSome)
    (refused : system.world.lets me sight.scope = false → (Point.sight sight).refused (.inactive sight.scope.id) = .back reply)
    (looks : ∀ world frames, system.world.lets me sight.scope = true → world.scopes = system.world.scopes →
      Move.look world sight frames = some (.silent (.back reply) frames)) : system.Gives me op reply := by
  intro next frames running
  obtain ⟨asking, calls, called, checks⟩ := Stretch.called running (searches _)
  obtain ⟨looking, comes, same, stands⟩ := check_admits (by rw [called]; exact known) checks
  have scopes : looking.world.scopes = system.world.scopes := by
    rw [same, called]
    rfl
  have registries : looking.world.registries = system.world.registries := by
    rw [same, called]
    rfl
  have lets : asking.world.lets me sight.scope = system.world.lets me sight.scope := by
    rw [called]
    rfl
  rw [lets] at stands
  cases welcome : system.world.lets me sight.scope with
  | false =>
    rw [welcome, if_neg Bool.false_ne_true, refused welcome] at stands
    exact ⟨looking, calls.trans comes, scopes, registries, stands⟩
  | true =>
    rw [welcome, if_pos rfl] at stands
    obtain ⟨after, goes, still, answers⟩ := Stretch.silently stands rfl (looks _ _ welcome scopes)
    exact ⟨after, (calls.trans comes).trans goes, by rw [still, scopes], by rw [still, registries], answers⟩

theorem look_found {world : World C} (same : world.scopes = system.world.scopes) (known : (system.world.scope? scope).isSome) :
    world.scope? scope = some (system.world.cell scope) := by
  obtain ⟨cell, found⟩ := Option.isSome_iff_exists.mp known
  rw [cell_found found, World.scope?, same]
  exact found

theorem holds_gives (known : (system.world.scope? scope).isSome) :
    system.Gives me (.holds scope key) (.flag (system.world.entry? me scope key).isSome) := by
  refine look_gives (.holds scope key) (fun _ => rfl) known ?_ ?_
  · intro barred
    simp [World.entry?, show system.world.lets me scope = false from barred, Point.refused]
  · intro world frames welcome same
    simp only [Move.look, Sight.scope, look_found same known, Option.map_some, World.entry?,
      show system.world.lets me scope = true from welcome, if_true]
    rfl

theorem peek_gives (known : (system.world.scope? scope).isSome) :
    system.Gives me (.peek scope key type) ((system.world.finds? me scope key type).elim .nothing .object) := by
  refine look_gives (.peek ⟨scope, key, type⟩) (fun _ => rfl) known ?_ ?_
  · intro barred
    simp [World.finds?, World.entry?, show system.world.lets me scope = false from barred, Point.refused]
  · intro world frames welcome same
    simp only [Move.look, Sight.scope, look_found same known, Option.map_some, World.finds?, World.entry?,
      show system.world.lets me scope = true from welcome, if_true, Move.sighted]
    cases stands : (system.world.cell scope).store.get? key with
    | none => rfl
    | some entry =>
      simp only [Option.map_some, Option.bind_some]
      cases entry.downcast type <;> rfl

theorem presence_agrees (path : Runs (initial program memory code) system) :
    (system.world.entry? me scope key).isSome = (system.world.finds? me scope key type).isSome ↔
      ∀ entry made, system.world.entry? me scope key = some entry → system.world.instance? entry.object = some made →
        made.type = type := by
  cases stands : system.world.entry? me scope key with
  | none => simp [World.finds?, stands]
  | some entry =>
    have there : (system.world.cell scope).store.get? key = some entry := by
      unfold World.entry? at stands
      split at stands
      · exact stands
      · cases stands
    obtain ⟨made, object, same⟩ := runs_typed path there
    rw [World.finds?, stands, Option.bind_some, Option.isSome_some, eq_comm, downcast_isSome]
    constructor
    · intro typed other seen stored there
      cases stored
      cases object.symm.trans there
      exact same.trans typed
    · exact fun typed => same.symm.trans (typed entry made rfl object)

end System

namespace System
variable {system : System C} {me : ThreadId} {registry : RegistryRef} {context : Context} {kind : Kind} {type : String}
  {frames : List (Frame C)} {code last : Code C} {op : Op C} {reply : Reply C} {next : Reply C → Code C} {declared : Declared C}

theorem ComesTo.goes (comes : system.ComesTo me frames code)
    (onward : ∀ after : System C, after.world.scopes = system.world.scopes → after.threads[me]? = some ⟨.run code, frames⟩ →
      after.ComesTo me frames last) : system.ComesTo me frames last := by
  obtain ⟨middle, first, scopes, registries, runs⟩ := comes
  obtain ⟨after, second, still, kept, ends⟩ := onward middle scopes runs
  exact ⟨after, first.trans second, still.trans scopes, kept.trans registries, ends⟩

theorem ComesTo.given (running : system.threads[me]? = some ⟨.run (.call op next), frames⟩) (gives : system.Gives me op reply) :
    system.ComesTo me frames (next reply) := by
  obtain ⟨answered, calls, scopes, registries, answers⟩ := gives next frames running
  obtain ⟨after, goes, same, runs⟩ := Stretch.silently answers rfl rfl
  exact ⟨after, calls.trans goes, by rw [same, scopes], by rw [same, registries], runs⟩

theorem singletonIf_present
    (running : system.threads[me]? = some ⟨.run (.singletonIf registry context kind type next), frames⟩) :
    system.ComesTo me frames (next ((system.world.present me registry context kind type).elim .nothing .object)) := by
  have comes := singletonIf_comes running
  rw [World.present]
  cases current : system.world.current registry context kind with
  | none => simpa [current] using comes
  | some scope =>
    rw [current] at comes
    refine comes.goes fun after same runs => ?_
    have there : (after.world.scope? scope).isSome := by
      rw [World.scope?, same]
      exact (active_iff.mp (current_active current)).1
    have given := ComesTo.given runs (peek_gives there)
    have finds : after.world.finds? me scope type type = system.world.finds? me scope type type := by
      rw [World.finds?, World.finds?, same_entry same]
    rw [finds] at given
    exact given

theorem instantiated_present
    (running : system.threads[me]? = some ⟨.run (declared.isInstantiated registry context next), frames⟩) :
    system.ComesTo me frames (next (.flag (system.world.present me registry context declared.kind declared.type).isSome)) := by
  have comes := singletonIf_present running
  cases found : system.world.present me registry context declared.kind declared.type <;> simpa [found] using comes

structure Declares (system : System C) (me : ThreadId) (registry : RegistryRef) (context : Context) (declared : Declared C) : Prop where
  getIf : ∀ next frames, system.threads[me]? = some ⟨.run (declared.getIf registry context next), frames⟩ →
    system.ComesTo me frames
      (next ((system.world.present me registry context declared.kind declared.type).elim .nothing .object))
  isInstantiated : ∀ next frames, system.threads[me]? = some ⟨.run (declared.isInstantiated registry context next), frames⟩ →
    system.ComesTo me frames (next (.flag (system.world.present me registry context declared.kind declared.type).isSome))
  singletonIf : ∀ next frames,
    system.threads[me]? = some ⟨.run (.singletonIf registry context declared.kind declared.type next), frames⟩ →
    system.ComesTo me frames
      (next ((system.world.present me registry context declared.kind declared.type).elim .nothing .object))

end System

def Scenario.present (world : World Scenario.client) (me : ThreadId) (place : RegistryRef) (context : String) (kind : Kind)
    (species : Scenario.Species) : Option InstanceRef :=
  world.present me place (world.memory.context context) kind species.name

namespace System
open Scenario (play present answerObject)
variable {system : System C} {program : C.Label → Code C} {memory : C.Memory} {code : Code C}

structure Accessors (lines : System Scenario.client) (me : ThreadId) (registry context : String) (kind : Kind)
    (species : Scenario.Species) (place : RegistryRef) : Prop where
  declaredIf : ∀ scene binds quiet next frames,
    lines.threads[me]? = some ⟨.run (play scene binds quiet (.declaredIf registry context species kind) next), frames⟩ →
    lines.ComesTo me frames
      (answerObject quiet species next ((present lines.world me place context kind species).elim .nothing .object))
  declared : ∀ scene binds quiet next frames,
    lines.threads[me]? = some ⟨.run (play scene binds quiet (.declaredIsInstantiated registry context species kind) next), frames⟩ →
    lines.ComesTo me frames (next (.fine (.flag (present lines.world me place context kind species).isSome)))
  singletonIf : ∀ scene binds quiet next frames,
    lines.threads[me]? = some ⟨.run (play scene binds quiet (.singletonIf registry context kind species) next), frames⟩ →
    lines.ComesTo me frames
      (answerObject quiet species next ((present lines.world me place context kind species).elim .nothing .object))

theorem lines_present {lines : System Scenario.client} {me : ThreadId} {registry context : String} {kind : Kind}
    {species : Scenario.Species} {place : RegistryRef} (known : lines.world.memory.registries.get? registry = some place) :
    lines.Accessors me registry context kind species place := by
  refine ⟨?_, ?_, ?_⟩
  · intro scene binds quiet next frames running
    simp only [play] at running
    refine Scenario.enters running known fun after same runs => ?_
    have comes := singletonIf_present runs
    rw [same] at comes
    exact comes
  · intro scene binds quiet next frames running
    simp only [play] at running
    refine Scenario.enters running known fun after same runs => ?_
    have comes := instantiated_present runs
    rw [same] at comes
    exact comes
  · intro scene binds quiet next frames running
    simp only [play] at running
    refine Scenario.enters running known fun after same runs => ?_
    have comes := singletonIf_present runs
    rw [same] at comes
    exact comes

-- In every reachable state a thread that is let in is told that a singleton is there if its key is taken, and is given
-- it if what has taken the key is of its type; so the two agree if and only if nothing of another type has. The
-- accessors declared for a singleton answer, both of them, as the current scope gives it.
theorem presence_told (path : Runs (initial program memory code) system) :
    (∀ me scope, (system.world.scope? scope).isSome →
      (∀ key, system.Gives me (.holds scope key) (.flag (system.world.entry? me scope key).isSome)) ∧
      (∀ key type, system.Gives me (.peek scope key type) ((system.world.finds? me scope key type).elim .nothing .object)) ∧
      ∀ type, (system.world.entry? me scope type).isSome = (system.world.finds? me scope type type).isSome ↔
        ∀ entry made, system.world.entry? me scope type = some entry → system.world.instance? entry.object = some made →
          made.type = type) ∧
    (∀ me registry context declared, system.Declares me registry context declared) ∧
    ∀ (lines : System Scenario.client) me registry context kind species place,
      lines.world.memory.registries.get? registry = some place → lines.Accessors me registry context kind species place := by
  refine ⟨?_, ?_, ?_⟩
  · intro me scope known
    exact ⟨fun _ => holds_gives known, fun _ _ => peek_gives known, fun _ => presence_agrees path⟩
  · exact fun _ _ _ _ => ⟨fun _ _ => singletonIf_present, fun _ _ => instantiated_present, fun _ _ => singletonIf_present⟩
  · exact fun _ _ _ _ _ _ _ known => lines_present known

def takenKey : System ⟨Unit, Unit, Unit, Unit⟩ :=
  initial (fun _ => .done) () <| .call (.establish {}) fun _ => .call (.begin 0 ⟨.session, "a"⟩) fun _ =>
    .resolve ⟨⟨0, ⟨.session, "a"⟩, 0⟩, "Only", "Other"⟩ (fun _ => .built () ⟨fun _ => .done, fun _ => .done, .done⟩) fun _ =>
    .call (.holds ⟨0, ⟨.session, "a"⟩, 0⟩ "Only") fun _ => .call (.peek ⟨0, ⟨.session, "a"⟩, 0⟩ "Only" "Only") fun _ => .done

-- The scope says that the singleton is there, and in the same state it gives none.
theorem taken_unseen : (∃ next, (run 30 takenKey).threads[0]? = some ⟨.back (.flag true), [.user next]⟩) ∧
    (∃ next, (run 34 takenKey).threads[0]? = some ⟨.back .nothing, [.user next]⟩) ∧
    (run 34 takenKey).world.scopes = (run 30 takenKey).world.scopes :=
  ⟨⟨_, rfl⟩, ⟨_, rfl⟩, rfl⟩

theorem other_type : (run 27 takenKey).Gives 0 (.holds ⟨0, ⟨.session, "a"⟩, 0⟩ "Only") (.flag true) ∧
    (run 27 takenKey).Gives 0 (.peek ⟨0, ⟨.session, "a"⟩, 0⟩ "Only" "Only") .nothing ∧
    (run 27 takenKey).Gives 0 (.peek ⟨0, ⟨.session, "a"⟩, 0⟩ "Only" "Other") (.object (.kept ⟨0, ⟨.session, "a"⟩, 0⟩ 0)) := by
  have told := (presence_told (run_runs 27 takenKey)).1 0 ⟨0, ⟨.session, "a"⟩, 0⟩ (by decide)
  exact ⟨told.1 "Only", told.2.1 "Only" "Only", told.2.1 "Only" "Other"⟩

end System
end Lifespan
