import Lifespan.Proofs.Attributes
import Lifespan.Proofs.Contest

-- An identity that is used again. Registries go by identity, while handles, contexts and unfinished ends go by the scope
-- itself: the new scope starts with nothing and keeps its place whatever is left of the old one, and of the old one
-- nothing is found any more.
namespace Lifespan
variable {C : Client}

namespace System
variable {system before after start : System C} {program : C.Label → Code C} {memory : C.Memory} {code : Code C}
  {scope old one two : ScopeRef} {registry : RegistryRef} {id : ScopeId} {context : Context} {kind : Kind} {me : ThreadId}
  {thread : Thread C} {base : List (Frame C)} {object : InstanceRef} {key : String}

-- The scope has just been begun: nobody has known it before, it holds nothing, it is the one that is found, and all
-- earlier ones of its identity have been destroyed.
structure Begun (before after : System C) (registry : RegistryRef) (id : ScopeId) (scope : ScopeRef) : Prop where
  named : scope.registry = registry ∧ scope.id = id
  unknown : before.world.scope? scope = none
  empty : after.world.scope? scope = some .fresh
  found : after.world.lookup registry id = some scope
  others : ∀ other ≠ scope, after.world.scope? other = before.world.scope? other
  earlier : ∀ old, (before.world.scope? old).isSome → old.registry = registry → old.id = id →
    (after.world.cell old).state = .destroyed

theorem begin_fresh (path : Runs (initial program memory code) system) {next : Reply C → Code C} {frames : List (Frame C)}
    (running : system.threads[me]? = some ⟨.run (.call (.begin registry id) next), frames⟩)
    (known : registry < system.world.registries.length)
    (vacant : (system.world.occupant registry id).any system.world.isAlive = false) :
    ∃ after, system.advance me = some after ∧ Begun system after registry id (system.world.nextScope registry id) ∧
      ∀ later reply, Awaits me (.user next :: frames) after later →
        later.threads[me]? = some ⟨.back reply, .user next :: frames⟩ → reply = .scope (system.world.nextScope registry id) := by
  obtain ⟨after, moved, active, answers⟩ := begin_admitted running known vacant
  have registers := moved.symm.trans (begin_registers running known vacant)
  have found : after.world.lookup registry id = some (system.world.nextScope registry id) :=
    (lookup_iff (.step path (.thread me moved))).mpr ⟨active, rfl, rfl⟩
  cases registers
  refine ⟨_, moved, ⟨⟨rfl, rfl⟩, (runs_grounded path).numbered.fresh, ?_, found, ?_, ?_⟩, answers⟩
  · rw [perform, record_scope?, register_scope?, if_pos rfl]
  · intro other apart
    rw [perform, record_scope?, register_scope?, if_neg apart]
  · intro old there here same
    rw [perform, record_cell, register_cell (runs_grounded path).numbered.fresh]
    by_contra lives
    have alive := alive_iff.mpr ⟨there, lives⟩
    have taken := (runs_filed path).present old alive
    rw [here, same] at taken
    rw [taken, Option.any_some, alive] at vacant
    cases vacant

-- What is left to be told of a scope that has been destroyed, through the scope and through a context that is still
-- bound to it. Whoever asks changes no scope.
structure Departed (system : System C) (scope : ScopeRef) : Prop where
  state : system.Answers (.state scope) (.state .destroyed)
  keys : system.Answers (.keys scope) (.names [])
  count : system.Answers (.count scope) (.number 0)
  holds : ∀ me key, system.Gives me (.holds scope key) (.flag false)
  peek : ∀ me key type, system.Gives me (.peek scope key type) .nothing
  resolves : ∀ me key type factory next frames,
    system.threads[me]? = some ⟨.run (.resolve ⟨scope, key, type⟩ factory next), frames⟩ →
    ∃ after, Stretch me (fun _ => True) system after ∧ after.world = system.world ∧
      after.threads[me]? = some ⟨.back (.fault (.inactive scope.id)), .user next :: frames⟩
  sets : ∀ name value, system.Answers (.setAttribute scope name value) (.fault (.inactive scope.id))
  attributes : system.Attributed scope fun _ => none
  current : ∀ registry (context : Context) kind, context.bound kind = some scope →
    system.Answers (.current registry context kind) .nothing ∧
    system.Answers (.requireCurrent registry context kind) (.fault (.unknown ⟨kind, scope.id.id⟩))

theorem resolve_refused {request : Request} {factory : ScopeRef → Code C} {next : Reply C → Code C} {frames : List (Frame C)}
    (known : (system.world.scope? request.scope).isSome) (barred : system.world.lets me request.scope = false)
    (running : system.threads[me]? = some ⟨.run (.resolve request factory next), frames⟩) :
    ∃ after, Stretch me (fun _ => True) system after ∧ after.world = system.world ∧
      after.threads[me]? = some ⟨.back (.fault (.inactive request.scope.id)), .user next :: frames⟩ := by
  obtain ⟨asking, comes, same, checks⟩ := Stretch.silently running rfl rfl
  obtain ⟨after, goes, still, refused⟩ := check_admits (by rw [same]; exact known) checks
  refine ⟨after, comes.trans goes, still.trans same, ?_⟩
  have lets : asking.world.lets me request.scope = false := by rw [same]; exact barred
  rw [show (Sight.first ⟨request, factory⟩ : Sight C).scope = request.scope from rfl, lets] at refused
  exact refused

theorem destroyed_departed (path : Runs (initial program memory code) system) (single : system.threads.length = 1)
    (destroyed : (system.world.cell scope).state = .destroyed) : system.Departed scope := by
  have inactive : (system.world.cell scope).state ≠ .active := by rw [destroyed]; nofun
  have known := inactive_known inactive
  obtain ⟨cell, found⟩ := Option.isSome_iff_exists.mp known
  have reads := emptied_reads path ((runs_lived path scope).orderly.past destroyed)
  have barred : ∀ me, system.world.lets me scope = false := by
    intro me
    unfold World.lets
    rw [destroyed]
  have cleared : (system.world.cell scope).attributes = .empty := (runs_clean path single).empty scope (.inl destroyed)
  have idle : system.world.isActive scope = false := Bool.eq_false_iff.mpr fun active => inactive (active_iff.mp active).2
  refine ⟨read_answers ?_, read_answers reads.1, read_answers reads.2, ?_, ?_, ?_, ?_, ?_, ?_⟩
  · simp only [World.read, found, Option.map_some, ← destroyed, cell_found found]
  · intro me key
    have gives : system.Gives me (.holds scope key) _ := holds_gives known
    rwa [World.entry?, barred] at gives
  · intro me key type
    have gives : system.Gives me (.peek scope key type) _ := peek_gives known
    rwa [World.finds?, World.entry?, barred] at gives
  · exact fun me key type factory next frames running => resolve_refused known (barred me) running
  · exact fun name value => inactive_refuses inactive
  · have told := known_told known
    rwa [cleared] at told
  · intro registry context kind bound
    have current : system.world.current registry context kind = none := by rw [current_bound bound, idle]; rfl
    refine ⟨read_answers ?_, read_answers ?_⟩
    · rw [World.read, current]
      rfl
    · rw [World.read, current, Context.wanted, bound]
      rfl

theorem active_remains (path : Runs (initial program memory code) start) (active : start.world.isActive scope = true)
    (onward : Runs start system) :
    (system.world.isActive scope = true ∧ system.world.lookup scope.registry scope.id = some scope) ∨
      ∃ (taking : System C) (me : ThreadId) (place : RegistryRef) (frames : List (Frame C)), Runs start taking ∧
        Runs taking system ∧ taking.world.isActive scope = true ∧
        taking.threads[me]? = some ⟨.retire scope, .ended place scope :: frames⟩ := by
  induction onward with
  | refl => exact .inl ⟨active, (lookup_iff path).mpr ⟨active, rfl, rfl⟩⟩
  | @step before after onward next ih =>
    rcases ih with ⟨still, _⟩ | ⟨taking, me, place, frames, first, then_, was, takes⟩
    · cases later : after.world.isActive scope with
      | true => exact .inl ⟨rfl, (lookup_iff (.step (path.trans onward) next)).mpr ⟨later, rfl, rfl⟩⟩
      | false =>
        cases next with
        | thread me moved =>
          obtain ⟨⟨focus, frames⟩, running, _⟩ := advance_moved moved
          cases (advance_retires (path.trans onward) running moved still later : focus = .retire scope)
          have sound := runs_sound (path.trans onward) _ (List.mem_of_getElem? running)
          obtain ⟨place, rest, rfl⟩ := ending_below (sound.borne _ rfl)
          exact .inr ⟨before, me, place, rest, onward, .step (.refl _) (.thread me moved), still, running⟩
        | time => cases still.symm.trans later
    · exact .inr ⟨taking, me, place, frames, first, .step then_ next, was, takes⟩

-- What the end of a scope does on its own leaves another scope as it is, active and found.
theorem end_spares (path : Runs (initial program memory code) system) (running : system.threads[me]? = some thread)
    (atEnd : thread.AtEnd registry old base) (moved : system.advance me = some after) (apart : scope ≠ old)
    (active : system.world.isActive scope = true) : after.world.cell scope = system.world.cell scope ∧
      after.world.isActive scope = true ∧ after.world.lookup scope.registry scope.id = some scope := by
  obtain ⟨same, _⟩ := end_touches path running atEnd moved apart
  obtain ⟨known, state⟩ := active_iff.mp active
  have stays := runs_known (.step (.refl _) (.thread me moved)) known
  have later : after.world.isActive scope = true := active_iff.mpr ⟨stays, by rw [same, state]⟩
  exact ⟨same, later, (lookup_iff (.step path (.thread me moved))).mpr ⟨later, rfl, rfl⟩⟩

-- The scope has to do with an instance: it has stored it, gives it to somebody, or is about to call a hook of it.
inductive Deals (program : C.Label → Code C) (memory : C.Memory) (code : Code C) (scope : ScopeRef) (object : InstanceRef) : Prop
  | stores {system : System C} {key : String} (path : Runs (initial program memory code) system)
      (stored : (key, object) ∈ system.world.stored scope)
  | gives {start system : System C} {me : ThreadId} {asked : Code C} {request : Request} {next : Reply C → Code C}
      {frames : List (Frame C)} (path : Runs (initial program memory code) start)
      (asks : asked.accessor? = some (request, next)) (mine : request.scope = scope)
      (calls : start.threads[me]? = some ⟨.run asked, frames⟩) (waits : Awaits me (.user next :: frames) start system)
      (given : system.threads[me]? = some ⟨.back (.object object), .user next :: frames⟩)
  | destroys {system : System C} {me : ThreadId} {teardown : Teardown} {key : String} {entry : Entry}
      {rest : List (String × Entry)} {frames : List (Frame C)} (path : Runs (initial program memory code) system)
      (tears : system.threads[me]? = some ⟨.tear teardown, .torn scope :: frames⟩)
      (next : teardown.rest = (key, entry) :: rest) (same : entry.object = object)

theorem Deals.kept (deals : Deals program memory code scope object) : ∃ index, object = .kept scope index := by
  cases deals with
  | stores path stored => exact (runs_lived path scope).content.kept stored
  | gives path asks mine calls waits given =>
    have stored := answers_stored path asks calls waits given
    exact mine ▸ (runs_lived (path.trans waits.runs) _).content.kept stored
  | @destroys system me teardown key entry rest frames path tears next same =>
    have member : .tearing teardown ∈ (system.life scope).ends me := by
      refine life_stage ?_
      rw [posture_found tears]
      exact List.mem_cons_self ..
    exact same ▸ (runs_lived path scope).owned me _ member key entry (by simp [Stage.next?, next])

theorem deals_once (first : Deals program memory code one object) (second : Deals program memory code two object) : one = two := by
  obtain ⟨index, rfl⟩ := first.kept
  obtain ⟨_, same⟩ := second.kept
  cases same
  rfl

end System

namespace System
open Scenario (play unknownCurrent)
variable {system : System C} {program : C.Label → Code C} {memory : C.Memory} {code : Code C}

-- Whoever works with the current scope of a kind, in a context that is still bound to a scope which has ended, works
-- with none.
structure Estranged (lines : System Scenario.client) (me : ThreadId) (registry context : String) (kind : Kind) : Prop where
  required : ∀ scene binds quiet next frames,
    lines.threads[me]? = some ⟨.run (play scene binds quiet (.requireCurrent registry context kind) next), frames⟩ →
    lines.ComesTo me frames (next (unknownCurrent (lines.world.memory.context context) kind))
  singleton : ∀ scene binds quiet making next frames,
    lines.threads[me]? = some ⟨.run (play scene binds quiet (.singleton registry context kind making) next), frames⟩ →
    lines.ComesTo me frames (next (unknownCurrent (lines.world.memory.context context) kind))
  declared : ∀ scene binds quiet species next frames,
    lines.threads[me]? = some ⟨.run (play scene binds quiet (.declared registry context species kind) next), frames⟩ →
    lines.ComesTo me frames (next (unknownCurrent (lines.world.memory.context context) kind))
  current : ∀ scene binds quiet next frames,
    lines.threads[me]? = some ⟨.run (play scene binds quiet (.current registry context kind) next), frames⟩ →
    lines.ComesTo me frames (next (.fine .nothing))
  singletonIf : ∀ scene binds quiet species next frames,
    lines.threads[me]? = some ⟨.run (play scene binds quiet (.singletonIf registry context kind species) next), frames⟩ →
    lines.ComesTo me frames (next (.fine .nothing))
  declaredIf : ∀ scene binds quiet species next frames,
    lines.threads[me]? = some ⟨.run (play scene binds quiet (.declaredIf registry context species kind) next), frames⟩ →
    lines.ComesTo me frames (next (.fine .nothing))
  declaredIsInstantiated : ∀ scene binds quiet species next frames,
    lines.threads[me]? = some ⟨.run (play scene binds quiet (.declaredIsInstantiated registry context species kind) next), frames⟩ →
    lines.ComesTo me frames (next (.fine (.flag false)))

theorem lines_estranged {lines : System Scenario.client} {me : ThreadId} {registry context : String} {kind : Kind}
    {place : RegistryRef} {old : ScopeRef} (known : lines.world.memory.registries.get? registry = some place)
    (bound : (lines.world.memory.context context).bound kind = some old) (idle : lines.world.isActive old = false) :
    lines.Estranged me registry context kind := by
  have none {after : System Scenario.client} (same : after.world = lines.world) :
      after.world.current place (lines.world.memory.context context) kind = none := by
    rw [same, current_bound bound, idle]
    rfl
  have requires {after : System Scenario.client} {type factory next frames} (same : after.world = lines.world)
      (running : after.threads[me]? = some ⟨.run (.singleton place (lines.world.memory.context context) kind type factory next), frames⟩) :
      after.ComesTo me frames (next (.fault (.unknown ((lines.world.memory.context context).wanted kind)))) := by
    have comes := singleton_comes running
    rwa [none same] at comes
  have asks {after : System Scenario.client} {type next frames} (same : after.world = lines.world)
      (running : after.threads[me]? = some ⟨.run (.singletonIf place (lines.world.memory.context context) kind type next), frames⟩) :
      after.ComesTo me frames (next .nothing) := by
    have comes := singletonIf_comes running
    rwa [none same] at comes
  refine ⟨?_, ?_, ?_, ?_, ?_, ?_, ?_⟩
  · intro scene binds quiet next frames running
    simp only [play] at running
    refine Scenario.enters running known fun after same runs => ?_
    have asked := ComesTo.asks runs rfl
    simpa [none same, Scenario.answerScope, unknownCurrent] using asked
  · intro scene binds quiet making next frames running
    simp only [play] at running
    exact Scenario.enters running known fun after same runs => requires same runs
  · intro scene binds quiet species next frames running
    simp only [play] at running
    exact Scenario.enters running known fun after same runs => requires same runs
  · intro scene binds quiet next frames running
    simp only [play] at running
    refine Scenario.enters running known fun after same runs => ?_
    have asked := ComesTo.asks runs rfl
    simpa [none same, Scenario.answerScope] using asked
  · intro scene binds quiet species next frames running
    simp only [play] at running
    exact Scenario.enters running known fun after same runs => asks same runs
  · intro scene binds quiet species next frames running
    simp only [play] at running
    exact Scenario.enters running known fun after same runs => asks same runs
  · intro scene binds quiet species next frames running
    simp only [play] at running
    exact Scenario.enters running known fun after same runs => asks same runs

-- An identity can be used again as often as its scopes have been destroyed. Each time the new scope starts with nothing
-- and is the one that is found. Nothing more comes of an old one, and a context that is bound to it does not lead to the
-- new one. What is left of the end of the old one touches no other scope, so a scope remains in its place until an end of
-- its own takes it. No instance ever has to do with two scopes.
theorem reuse_starts_afresh (path : Runs (initial program memory code) system) (single : system.threads.length = 1) :
    (∀ me registry id next frames, system.threads[me]? = some ⟨.run (.call (.begin registry id) next), frames⟩ →
      registry < system.world.registries.length → (system.world.occupant registry id).any system.world.isAlive = false →
      ∃ after, system.advance me = some after ∧ Begun system after registry id (system.world.nextScope registry id) ∧
        ∀ later reply, Awaits me (.user next :: frames) after later →
          later.threads[me]? = some ⟨.back reply, .user next :: frames⟩ → reply = .scope (system.world.nextScope registry id)) ∧
    (∀ old, (system.world.cell old).state = .destroyed → system.Departed old ∧
      ∀ later, Runs system later → (later.world.cell old).state = .destroyed) ∧
    (∀ registry (context : Context) kind old scope, context.bound kind = some old →
      system.world.current registry context kind = some scope → scope = old) ∧
    (∀ me thread registry old base after new, system.threads[me]? = some thread → thread.AtEnd registry old base →
      system.advance me = some after → new ≠ old → system.world.isActive new = true →
      after.world.cell new = system.world.cell new ∧ after.world.isActive new = true ∧
        after.world.lookup new.registry new.id = some new) ∧
    (∀ new later, system.world.isActive new = true → Runs system later →
      (later.world.isActive new = true ∧ later.world.lookup new.registry new.id = some new) ∨
      ∃ (taking : System C) (me : ThreadId) (place : RegistryRef) (frames : List (Frame C)), Runs system taking ∧
        Runs taking later ∧ taking.world.isActive new = true ∧
        taking.threads[me]? = some ⟨.retire new, .ended place new :: frames⟩) ∧
    (∀ one two object, Deals program memory code one object → Deals program memory code two object → one = two) ∧
    ∀ (lines : System Scenario.client) me registry context kind place old,
      lines.world.memory.registries.get? registry = some place →
      (lines.world.memory.context context).bound kind = some old → lines.world.isActive old = false →
      lines.Estranged me registry context kind := by
  refine ⟨?_, ?_, ?_, ?_, ?_, ?_, ?_⟩
  · exact fun me registry id next frames running known vacant => begin_fresh path running known vacant
  · intro old destroyed
    exact ⟨destroyed_departed path single destroyed, fun later onward => runs_destroyed path onward destroyed⟩
  · intro registry context kind old scope bound found
    rw [current_bound bound] at found
    split at found
    · exact (Option.some.inj found).symm
    · cases found
  · exact fun me thread registry old base after new running atEnd moved apart active =>
      end_spares path running atEnd moved apart active
  · exact fun new later active onward => active_remains path active onward
  · exact fun one two object first second => deals_once first second
  · exact fun lines me registry context kind place old known bound idle => lines_estranged known bound idle

def reusedAtEnd : System ⟨Unit, Unit, Unit, Unit⟩ :=
  let again : Event → Code ⟨Unit, Unit, Unit, Unit⟩ := fun event =>
    match event with
    | .ended _ _ => .call (.begin 0 ⟨.session, "a"⟩) fun _ => .done
    | _ => .done
  initial (fun _ => .done) () <| .call (.establish {}) fun _ => .listen 0 again <| .call (.begin 0 ⟨.session, "a"⟩) fun _ =>
    .call (.finish 0 ⟨.session, "a"⟩) fun _ => .done

-- The new session has nothing of the old one, and is still found when the end of the old one lets go of it at last.
theorem again_found : (∃ after, (run 23 reusedAtEnd).advance 0 = some after ∧
      Begun (run 23 reusedAtEnd) after 0 ⟨.session, "a"⟩ ⟨0, ⟨.session, "a"⟩, 1⟩) ∧
    (run 35 reusedAtEnd).Departed ⟨0, ⟨.session, "a"⟩, 0⟩ ∧
    ∃ after, (run 35 reusedAtEnd).advance 0 = some after ∧
      after.world.lookup 0 ⟨.session, "a"⟩ = some ⟨0, ⟨.session, "a"⟩, 1⟩ := by
  obtain ⟨begun, moved, fresh, _⟩ := (reuse_starts_afresh (run_runs 23 reusedAtEnd) rfl).1 0 0 ⟨.session, "a"⟩ _ _ rfl
    (by decide) (by decide)
  have reuse := reuse_starts_afresh (run_runs 35 reusedAtEnd) rfl
  have departed := (reuse.2.1 ⟨0, ⟨.session, "a"⟩, 0⟩ (by decide)).1
  have forgets := reuse.2.2.2.1 0 _ 0 ⟨0, ⟨.session, "a"⟩, 0⟩ _ _ ⟨0, ⟨.session, "a"⟩, 1⟩ rfl (.inr ⟨_, rfl⟩) rfl (by decide)
    (by decide)
  exact ⟨⟨begun, moved, fresh⟩, departed, _, rfl, forgets.2.2⟩

end System
end Lifespan
