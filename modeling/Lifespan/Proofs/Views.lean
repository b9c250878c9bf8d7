import Lifespan.Proofs.Interrupted
import Lifespan.Proofs.Sealed
import Lifespan.Proofs.Solo
import Lifespan.Proofs.Sweep
import Lifespan.Scenario.Play

-- What a registry shows of its scopes. It lists those that are alive, finds those that are active, and tells which
-- scope is current; all of it goes by where the scopes stand, so it agrees after every history.
namespace Lifespan

inductive Context.Made : Context → Prop
  | empty : Made .empty
  | bind (made : Made context) (scope : ScopeRef) : Made (context.bind scope)
  | clear (made : Made context) (kind : Kind) : Made (context.clear kind)

theorem Context.Made.kind {context : Context} {kind : Kind} {scope : ScopeRef} (made : context.Made)
    (bound : context.bound kind = some scope) : scope.id.kind = kind := by
  induction made with
  | empty => cases bound
  | bind _ other ih =>
    simp only [Context.bind] at bound
    split at bound
    · rename_i same
      cases bound
      exact same.symm
    · exact ih bound
  | clear _ other ih =>
    simp only [Context.clear] at bound
    split at bound
    · cases bound
    · exact ih bound

variable {C : Client}

namespace System
variable {system : System C} {program : C.Label → Code C} {memory : C.Memory} {code : Code C} {registry : RegistryRef}
  {scope bound : ScopeRef} {kind : Kind} {id : ScopeId} {context : Context}

def Answers (system : System C) (op : Op C) (reply : Reply C) : Prop :=
  ∀ me next frames, system.threads[me]? = some ⟨.run (.call op next), frames⟩ →
    system.advance me = some ⟨record system.world me [.called op], system.threads.set me ⟨.back reply, .user next :: frames⟩⟩

theorem read_answers {op : Op C} {reply : Reply C} (reads : system.world.read op = some reply) : system.Answers op reply :=
  fun _ _ _ running => call_advances running (read_call reads _)

theorem lookup_iff (path : Runs (initial program memory code) system) : system.world.lookup registry id = some scope ↔
    system.world.isActive scope = true ∧ scope.registry = registry ∧ scope.id = id := by
  rw [World.lookup, Option.filter_eq_some_iff]
  constructor
  · rintro ⟨registered, active⟩
    obtain ⟨here, same, _⟩ := registered_own path registered
    exact ⟨active, here, same⟩
  · rintro ⟨active, rfl, rfl⟩
    exact ⟨(runs_filed path).registered (active_alive active), active⟩

theorem current_bound (binds : context.bound kind = some bound) : system.world.current registry context kind =
    if system.world.isActive bound then some bound else none := by
  rw [World.current, binds]

theorem current_unbound (path : Runs (initial program memory code) system) (free : context.bound kind = none) :
    system.world.current registry context kind = some scope ↔
      kind.isSingleSlot = true ∧ system.world.isActive scope = true ∧ scope.registry = registry ∧ scope.id.kind = kind := by
  have filed := runs_filed path
  rw [World.current, free]
  cases single : kind.isSingleSlot with
  | false => simp
  | true =>
    simp only [if_true, Option.filter_eq_some_iff, true_and]
    constructor
    · rintro ⟨holds, active⟩
      obtain ⟨here, shares, _⟩ := filed.own _ _ _ holds
      exact ⟨active, here, shares.1⟩
    · rintro ⟨active, rfl, rfl⟩
      -- whatever the id, a scope of such a kind stands in the one place of the kind
      have place : scope.id.SharesPlace ⟨scope.id.kind, ""⟩ := ⟨rfl, .inl single⟩
      exact ⟨(shared_occupant place).symm.trans (filed.present scope (active_alive active)), active⟩

theorem current_active (found : system.world.current registry context kind = some scope) : system.world.isActive scope = true := by
  have reads : system.world.read (.current registry context kind) = some (.scope scope) := by
    rw [World.read, found]
    rfl
  exact read_active reads

theorem current_kind (path : Runs (initial program memory code) system) (made : context.Made)
    (found : system.world.current registry context kind = some scope) : scope.id.kind = kind := by
  cases binds : context.bound kind with
  | none => exact ((current_unbound path binds).mp found).2.2.2
  | some bound =>
    rw [current_bound binds] at found
    split at found
    · cases found
      exact made.kind binds
    · cases found

theorem Stretch.once {me : ThreadId} {thread : Thread C} {move : Move C} (running : system.threads[me]? = some thread)
    (busy : thread.focus.rests = false) (next : thread.next system.world me = some move) :
    Stretch me (fun _ => True) system (system.perform me move) := by
  refine .step running trivial busy ?_ (.refl _)
  rw [advance_next running busy, next]
  rfl

section
variable {me : ThreadId} {frames : List (Frame C)} {op : Op C} {reply : Reply C} {next : Reply C → Code C} {type : String} {factory : Code C}

def ComesTo (system : System C) (me : ThreadId) (frames : List (Frame C)) (code : Code C) : Prop :=
  ∃ after, Stretch me (fun _ => True) system after ∧ after.world.scopes = system.world.scopes ∧
    after.world.registries = system.world.registries ∧ after.threads[me]? = some ⟨.run code, frames⟩

theorem ComesTo.asks (running : system.threads[me]? = some ⟨.run (.call op next), frames⟩) (reads : system.world.read op = some reply) :
    system.ComesTo me frames (next reply) := by
  have inside := (List.getElem?_eq_some_iff.mp running).1
  have moved := read_answers reads _ _ _ running
  refine ⟨_, .step running trivial rfl moved (Stretch.once (List.getElem?_set_self inside) rfl rfl), rfl, rfl, ?_⟩
  exact List.getElem?_set_self (by simpa using inside)

theorem singleton_comes
    (running : system.threads[me]? = some ⟨.run (.singleton registry context kind type factory next), frames⟩) :
    system.ComesTo me frames ((system.world.current registry context kind).elim (next (.fault (.unknown (context.wanted kind))))
      fun scope => .resolve ⟨scope, type, type⟩ (fun _ => factory) next) := by
  have asks := ComesTo.asks running rfl
  cases current : system.world.current registry context kind <;> simpa [current] using asks

theorem singletonIf_comes (running : system.threads[me]? = some ⟨.run (.singletonIf registry context kind type next), frames⟩) :
    system.ComesTo me frames ((system.world.current registry context kind).elim (next .nothing)
      fun scope => .call (.peek scope type type) next) := by
  have asks := ComesTo.asks running rfl
  cases current : system.world.current registry context kind <;> simpa [current] using asks

end

end System

namespace Scenario
open Lifespan.System
variable {system : System client} {me : ThreadId} {registry context : String} {place : RegistryRef} {frames : List (Frame client)}
  {code : Script}

def unknownCurrent (context : Context) (kind : Kind) : Outcome :=
  .answered (.fault (.unknown (context.wanted kind))) (some (.fault (.unknown (context.wanted kind))))

def currentFor (world : World client) (place : RegistryRef) (context : String) (kind : Kind) : Option ScopeRef :=
  world.current place (world.memory.context context) kind

theorem looks {reads : Memory → Script} (running : system.threads[me]? = some ⟨.run (.access id reads), frames⟩)
    (onward : ∀ after : System client, after.world = system.world → after.threads[me]? = some ⟨.run (reads system.world.memory), frames⟩ →
      after.ComesTo me frames code) : system.ComesTo me frames code := by
  have inside := (List.getElem?_eq_some_iff.mp running).1
  have looked : Stretch me (fun _ => True) system
      ⟨system.world, system.threads.set me ⟨.run (reads system.world.memory), frames⟩⟩ := Stretch.once running rfl rfl
  obtain ⟨last, goes, scopes, registries, runs⟩ :=
    onward ⟨system.world, system.threads.set me ⟨.run (reads system.world.memory), frames⟩⟩ rfl (List.getElem?_set_self inside)
  exact ⟨last, looked.trans goes, scopes, registries, runs⟩

theorem enters {use : RegistryRef → Context → Script}
    (running : system.threads[me]? = some ⟨.run (withContext registry context use), frames⟩)
    (known : system.world.memory.registries.get? registry = some place)
    (onward : ∀ after : System client, after.world = system.world →
      after.threads[me]? = some ⟨.run (use place (system.world.memory.context context)), frames⟩ → after.ComesTo me frames code) :
    system.ComesTo me frames code := by
  refine looks running fun first same runs => looks runs fun after still runs => onward after (still.trans same) ?_
  rw [runs, same, known]

end Scenario

namespace System
open Scenario (play currentFor unknownCurrent)
variable {system : System C} {program : C.Label → Code C} {memory : C.Memory} {code : Code C}

structure Shows (system : System C) (registry : RegistryRef) (kind : Kind) : Prop where
  ascends : (system.world.ids registry kind).Pairwise (· < ·)
  lists : ∀ name, name ∈ system.world.ids registry kind ↔
    ∃ scope, system.world.isAlive scope = true ∧ scope.registry = registry ∧ scope.id = ⟨kind, name⟩
  counts : system.world.activeCount registry kind = (system.world.ids registry kind).length
  finds : ∀ name scope, system.world.lookup registry ⟨kind, name⟩ = some scope ↔
    system.world.isActive scope = true ∧ scope.registry = registry ∧ scope.id = ⟨kind, name⟩
  -- what is listed and not found is being destroyed
  leaves : ∀ name ∈ system.world.ids registry kind, system.world.lookup registry ⟨kind, name⟩ = none →
    ∃ scope : ScopeRef, scope.registry = registry ∧ scope.id = ⟨kind, name⟩ ∧
      (system.world.cell scope).state = .destructionPending ∧
      ((∃ me, (system.life scope).ends me ≠ []) ∨ system.world.interrupted 0 scope)
  active : ∀ context scope, system.world.current registry context kind = some scope → system.world.isActive scope = true
  placed : ∀ context : Context, context.Made → ∀ scope, system.world.current registry context kind = some scope →
    scope.id.kind = kind
  bound : ∀ (context : Context) bound, context.bound kind = some bound →
    system.world.current registry context kind = if system.world.isActive bound then some bound else none
  unbound : ∀ context : Context, context.bound kind = none → ∀ scope,
    system.world.current registry context kind = some scope ↔
      kind.isSingleSlot = true ∧ system.world.isActive scope = true ∧ scope.registry = registry ∧ scope.id.kind = kind

structure Tells (system : System C) (registry : RegistryRef) (kind : Kind) : Prop where
  ids : system.Answers (.ids registry kind) (.names (system.world.ids registry kind))
  count : system.Answers (.activeCount registry kind) (.number (system.world.ids registry kind).length)
  lookup : ∀ name, system.Answers (.lookup registry ⟨kind, name⟩)
    ((system.world.lookup registry ⟨kind, name⟩).elim .nothing .scope)
  require : ∀ name, system.Answers (.require registry ⟨kind, name⟩)
    ((system.world.lookup registry ⟨kind, name⟩).elim (.fault (.unknown ⟨kind, name⟩)) .scope)
  current : ∀ context, system.Answers (.current registry context kind)
    ((system.world.current registry context kind).elim .nothing .scope)
  requireCurrent : ∀ context, system.Answers (.requireCurrent registry context kind)
    ((system.world.current registry context kind).elim (.fault (.unknown (context.wanted kind))) .scope)

structure Accesses (system : System C) (registry : RegistryRef) (kind : Kind) : Prop where
  singleton : ∀ me context type factory next frames,
    system.threads[me]? = some ⟨.run (.singleton registry context kind type factory next), frames⟩ →
    system.ComesTo me frames ((system.world.current registry context kind).elim (next (.fault (.unknown (context.wanted kind))))
      fun scope => .resolve ⟨scope, type, type⟩ (fun _ => factory) next)
  singletonIf : ∀ me context type next frames,
    system.threads[me]? = some ⟨.run (.singletonIf registry context kind type next), frames⟩ →
    system.ComesTo me frames ((system.world.current registry context kind).elim (next .nothing)
      fun scope => .call (.peek scope type type) next)

structure Uses (lines : System Scenario.client) (me : ThreadId) (registry context : String) (kind : Kind) (place : RegistryRef) :
    Prop where
  required : ∀ scene binds quiet next frames,
    lines.threads[me]? = some ⟨.run (play scene binds quiet (.requireCurrent registry context kind) next), frames⟩ →
    lines.ComesTo me frames ((currentFor lines.world place context kind).elim
      (next (unknownCurrent (lines.world.memory.context context) kind)) fun scope => Scenario.answerScope binds next (.scope scope))
  singleton : ∀ scene binds quiet making next frames,
    lines.threads[me]? = some ⟨.run (play scene binds quiet (.singleton registry context kind making) next), frames⟩ →
    ∃ factory onReply, lines.ComesTo me frames ((currentFor lines.world place context kind).elim
      (next (unknownCurrent (lines.world.memory.context context) kind))
      fun scope => .resolve ⟨scope, making.species.name, making.species.name⟩ factory onReply)
  singletonIf : ∀ scene binds quiet species next frames,
    lines.threads[me]? = some ⟨.run (play scene binds quiet (.singletonIf registry context kind species) next), frames⟩ →
    ∃ onReply, lines.ComesTo me frames ((currentFor lines.world place context kind).elim
      (next (.fine .nothing)) fun scope => .call (.peek scope species.name species.name) onReply)

theorem runs_shows (path : Runs (initial program memory code) system) (registry : RegistryRef) (kind : Kind) :
    system.Shows registry kind := by
  have filed := runs_filed path
  refine ⟨Text.sorted_ascends filed.living_ids, fun _ => filed.mem_ids, ?_, fun _ _ => lookup_iff path, ?_,
    fun _ _ => current_active, fun _ made _ => current_kind path made, fun _ _ => current_bound,
    fun _ free _ => current_unbound path free⟩
  · rw [World.activeCount, World.ids, Text.sorted, List.length_mergeSort, List.length_map]
  · intro name listed missing
    obtain ⟨scope, alive, here, same⟩ := filed.mem_ids.mp listed
    have inactive : system.world.isActive scope = false := by
      refine Bool.eq_false_iff.mpr fun active => ?_
      cases missing.symm.trans ((lookup_iff path).mpr ⟨active, here, same⟩)
    have pending := inactive_pending path alive inactive
    exact ⟨scope, here, same, pending, pending_interrupted path pending⟩

theorem shows_tells {registry : RegistryRef} {kind : Kind} (shows : system.Shows registry kind) : system.Tells registry kind where
  ids := read_answers rfl
  count := shows.counts ▸ read_answers rfl
  lookup _ := read_answers rfl
  require _ := read_answers rfl
  current _ := read_answers rfl
  requireCurrent _ := read_answers rfl

theorem lines_use {lines : System Scenario.client} {me : ThreadId} {registry context : String} {kind : Kind} {place : RegistryRef}
    (known : lines.world.memory.registries.get? registry = some place) : lines.Uses me registry context kind place where
  required scene binds quiet next frames running := by
    simp only [play] at running
    refine Scenario.enters running known fun after same runs => ?_
    have asks := ComesTo.asks runs rfl
    rw [same] at asks
    rw [currentFor]
    cases current : lines.world.current place (lines.world.memory.context context) kind <;>
      simpa [current, Scenario.answerScope, unknownCurrent] using asks
  singleton scene binds quiet making next frames running := by
    simp only [play] at running
    refine ⟨fun _ => Scenario.playFactory none false (Scenario.playHooks making) making,
      Scenario.answerObject quiet making.species next, Scenario.enters running known fun after same runs => ?_⟩
    have comes := singleton_comes runs
    rw [same] at comes
    exact comes
  singletonIf scene binds quiet species next frames running := by
    simp only [play] at running
    refine ⟨Scenario.answerObject quiet species next, Scenario.enters running known fun after same runs => ?_⟩
    have comes := singletonIf_comes runs
    rw [same] at comes
    exact comes

-- In every reachable state the views of a registry agree. What is listed and not found is being destroyed by
-- some thread, or that has been broken off by a panic of the listener when it was told of an instance of the scope.
theorem views_agree (path : Runs (initial program memory code) system) :
    (∀ registry kind, system.Shows registry kind ∧ system.Tells registry kind ∧ system.Accesses registry kind) ∧
    ∀ (lines : System Scenario.client) me registry context kind place,
      lines.world.memory.registries.get? registry = some place → lines.Uses me registry context kind place := by
  refine ⟨fun registry kind => ?_, fun _ _ _ _ _ _ known => lines_use known⟩
  have shows := runs_shows path registry kind
  exact ⟨shows, shows_tells shows, fun _ _ _ _ _ _ => singleton_comes, fun _ _ _ _ _ => singletonIf_comes⟩

def endingLoudly : System ⟨Unit, Unit, Unit, Unit⟩ :=
  initial (fun _ => .done) () <| .call (.establish {}) fun _ =>
    .listen 0 (fun event => match event with | .destroyed _ _ => .panic ⟨"no"⟩ | _ => .done) <|
    .call (.begin 0 ⟨.session, "a"⟩) fun _ =>
    .resolve ⟨⟨0, ⟨.session, "a"⟩, 0⟩, "only", "Only"⟩ (fun _ => .built () ⟨fun _ => .done, fun _ => .done, .done⟩) fun _ =>
    .call (.finish 0 ⟨.session, "a"⟩) fun _ => .done

-- In the middle of the end the session is listed and not found, and a thread is at it.
theorem listed_ending : "a" ∈ (run 40 endingLoudly).world.ids 0 .session ∧
    (run 40 endingLoudly).world.lookup 0 ⟨.session, "a"⟩ = none ∧
    ∃ scope me, scope.id = ⟨.session, "a"⟩ ∧ ((run 40 endingLoudly).life scope).ends me ≠ [] := by
  have path := run_runs 40 endingLoudly
  have shows := ((views_agree path).1 0 .session).1
  have listed : "a" ∈ (run 40 endingLoudly).world.ids 0 .session :=
    (shows.lists "a").mpr ⟨⟨0, ⟨.session, "a"⟩, 0⟩, by decide, rfl, rfl⟩
  have missing : (run 40 endingLoudly).world.lookup 0 ⟨.session, "a"⟩ = none := by decide
  obtain ⟨scope, _, same, _, running⟩ := shows.leaves "a" listed missing
  have calm : ¬(run 40 endingLoudly).world.shaken := by decide
  obtain ⟨me, ends⟩ := running.resolve_right fun interrupted => calm interrupted.shaken
  exact ⟨listed, missing, scope, me, same, ends⟩

-- When the panic has come out of the end the session is still listed and not found, and nobody ends it.
theorem listed_unfinished : ∃ system, Runs endingLoudly system ∧ "a" ∈ system.world.ids 0 .session ∧
    system.world.lookup 0 ⟨.session, "a"⟩ = none ∧ ∀ scope me, (system.life scope).ends me = [] := by
  have path := run_runs 55 endingLoudly
  have listed : "a" ∈ (run 55 endingLoudly).world.ids 0 .session :=
    (runs_filed path).mem_ids.mpr ⟨⟨0, ⟨.session, "a"⟩, 0⟩, by decide, rfl, rfl⟩
  exact ⟨_, path, listed, by decide, fun _ => finished_over (by decide)⟩

end System
end Lifespan
