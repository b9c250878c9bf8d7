import Lifespan.Proofs.Recipe
import Lifespan.Proofs.Succession

-- A key that nobody has and nobody is making. Whoever resolves it in an active scope waits for nobody: its own
-- factory is called, and what that makes is given to it.
namespace Lifespan
variable {C : Client}

structure Scope.Vacant (cell : Scope C) (key : String) : Prop where
  absent : cell.store.get? key = none
  unowned : cell.gates.owners.get? key = none
  free : ∀ gate, cell.gates.gates.get? key = some gate → cell.turns[gate]? = some none

section
variable {cell : Scope C} {key : String} {me : ThreadId}

theorem Scope.Vacant.waitsOn (vacant : cell.Vacant key) : cell.gates.waitsOn key me = false := by
  rw [Gates.waitsOn, vacant.unowned]
  rfl

theorem unseen_sighted {request : Request} (absent : cell.store.get? request.key = none) : Move.sighted cell request = none := by
  rw [Move.sighted, absent]
  rfl

theorem Scope.Vacant.first (vacant : cell.Vacant key) :
    (cell.queued key me).turns[(cell.gates.queue key me cell.turns.length).1]? = some none := by
  obtain ⟨gate, there, same⟩ | ⟨missing, same⟩ := queued_cases cell key me
  · rw [same, Gates.queue, there]
    exact vacant.free gate there
  · rw [same, Gates.queue, missing]
    simp

theorem Scope.Vacant.queued {name : String} (vacant : cell.Vacant key) (gated : cell.Gated) : (cell.queued name me).Vacant key := by
  obtain ⟨_, _, same⟩ | ⟨missing, same⟩ := queued_cases cell name me
  · rw [same]
    exact ⟨vacant.absent, vacant.unowned, vacant.free⟩
  · rw [same]
    refine ⟨vacant.absent, vacant.unowned, fun gate there => ?_⟩
    simp only [Table.get?_put] at there
    split at there
    · cases there
      simp
    · exact List.getElem?_append_left (gated.known key gate there) ▸ vacant.free gate there

theorem kept_found {scope : ScopeRef} {made : Instance C} (absent : cell.store.get? key = none) :
    (cell.kept scope key made).store.get? key = some ⟨.kept scope cell.instances.length, made.type⟩ := by
  rw [kept_get?, absent, Option.none_or, if_pos rfl]

end

namespace Life
variable {before after : Life C} {shaken aided : Prop} {scope : ScopeRef} {key : String}

-- In this step a thread that waited for the key comes to its turn.
def Claims (before after : Life C) (key : String) : Prop :=
  ∃ me gate rest, before.grips me = .waiting key gate :: rest ∧ after.grips me = .called key gate :: rest

theorem Step.vacant (step : Step shaken aided scope before after) (gated : before.cell.Gated) (accounts : before.Accounts)
    (vacant : before.cell.Vacant key) : after.cell.Vacant key ∨ before.Claims after key := by
  cases step with
  | idle cell =>
    obtain ⟨attributes, cell⟩ := cell
    rw [cell]
    exact .inl ⟨vacant.absent, vacant.unowned, vacant.free⟩
  | @close _ effect _ _ me rest close cell =>
    rw [cell]
    cases close with
    | empty => exact .inl ⟨rfl, vacant.unowned, vacant.free⟩
    | clear => exact .inl ⟨vacant.absent, rfl, nofun⟩
    | _ => exact .inl ⟨vacant.absent, vacant.unowned, vacant.free⟩
  | build me rest build cell held holds =>
    rw [cell]
    -- whoever has its turn has it for another key
    have apart : ∀ {grip : Grip} {name gate}, grip ∈ before.grips me → grip.gate? = some (name, gate) → grip.turn? = some gate → key ≠ name := by
      rintro grip name gate member seeks turn rfl
      cases (vacant.free gate (accounts.gates me grip member _ _ seeks)).symm.trans (accounts.mine member turn)
    have mine : ∀ {grip : Grip}, grip :: rest = before.grips me → grip ∈ before.grips me := fun same => same ▸ List.mem_cons_self
    cases build with
    | queue => exact .inl (vacant.queued gated)
    | @seize gate name =>
      by_cases own : name = key
      · subst own
        exact .inr ⟨me, gate, rest, held, holds⟩
      · refine .inl ⟨vacant.absent, vacant.unowned, fun place there => ?_⟩
        have seeks := accounts.gates me _ (mine held.symm) name gate rfl
        have other : gate ≠ place := by
          rintro rfl
          exact own (gated.apart name key gate seeks there)
        simp only [Effect.change, List.getElem?_set_ne other]
        exact vacant.free place there
    | @start name gate =>
      refine .inl ⟨vacant.absent, ?_, vacant.free⟩
      have other := apart (mine held.symm) rfl rfl
      simp [Effect.change, Gates.start, Table.get?_put, other, vacant.unowned]
    | finish =>
      refine .inl ⟨vacant.absent, ?_, vacant.free⟩
      simp only [Effect.change, Gates.finish, Table.get?_erase]
      split
      · rfl
      · exact vacant.unowned
    | @keep name gate made =>
      refine .inl ⟨?_, vacant.unowned, vacant.free⟩
      have other := apart (mine held.symm) rfl rfl
      rw [Effect.change, kept_get?, vacant.absent, Option.none_or, if_neg other]
    | yield =>
      refine .inl ⟨vacant.absent, vacant.unowned, fun place there => ?_⟩
      simp only [Effect.change, List.getElem?_set]
      have free := vacant.free place there
      split
      · subst_vars
        rw [if_pos (List.getElem?_eq_some_iff.mp free).1]
      · exact free
    | _ => exact .inl ⟨vacant.absent, vacant.unowned, vacant.free⟩

end Life

namespace System
variable {system : System C} {me : ThreadId} {scope : ScopeRef} {cell : Scope C} {registry : Registry C} {thread : Thread C}
  {focus other : Focus C} {frames later : List (Frame C)} {effect : Effect C} {items : List (Item C)} {request : Request}
  {factory : ScopeRef → Code C} {next : Reply C → Code C} {Q : System C → Prop} {job : Job C}

structure Stands (me : ThreadId) (scope : ScopeRef) (cell : Scope C) (registry : Registry C) (thread : Thread C)
    (system : System C) : Prop where
  running : system.threads[me]? = some thread
  found : system.world.scope? scope = some cell
  listed : system.world.registries[scope.registry]? = some registry

theorem Stands.step (here : system.Stands me scope cell registry ⟨focus, frames⟩) (busy : focus.rests = false)
    (moves : Thread.next system.world me ⟨focus, frames⟩ = some ⟨effect, items, other, later⟩)
    (near : effect = .still ∨ effect.target? = some scope)
    (onward : ∀ after : System C, after.Stands me scope (effect.change me cell) registry ⟨other, later⟩ →
      ∃ last, Stretch me (fun _ => True) after last ∧ Q last) :
    ∃ last, Stretch me (fun _ => True) system last ∧ Q last := by
  have moved : system.advance me = some (system.perform me ⟨effect, items, other, later⟩) := by
    rw [advance_next here.running busy, moves]
    rfl
  have found : (effect.apply me system.world).scope? scope = some (effect.change me cell) := by
    rcases near with rfl | target
    · exact here.found
    · cases effect <;> cases target <;> exact onScope_scope?.trans ((if_pos rfl).trans (by rw [here.found]; rfl))
  have listed : (effect.apply me system.world).registries[scope.registry]? = some registry := by
    rcases near with rfl | target
    · exact here.listed
    · cases effect <;> cases target <;> exact here.listed
  obtain ⟨last, stretch, holds⟩ := onward (system.perform me ⟨effect, items, other, later⟩)
    ⟨List.getElem?_set_self (List.getElem?_eq_some_iff.mp here.running).1, found, listed⟩
  exact ⟨last, .step here.running trivial busy moved stretch, holds⟩

theorem Stands.go (here : system.Stands me scope cell registry ⟨focus, frames⟩) (busy : focus.rests = false)
    (moves : Thread.next system.world me ⟨focus, frames⟩ = some ⟨.still, items, other, later⟩)
    (onward : ∀ after : System C, after.Stands me scope cell registry ⟨other, later⟩ →
      ∃ last, Stretch me (fun _ => True) after last ∧ Q last) :
    ∃ last, Stretch me (fun _ => True) system last ∧ Q last := here.step busy moves (.inl rfl) onward

theorem Stands.does (here : system.Stands me scope cell registry ⟨focus, frames⟩) (busy : focus.rests = false)
    (moves : Thread.next system.world me ⟨focus, frames⟩ = some ⟨effect, items, other, later⟩) (target : effect.target? = some scope)
    (onward : ∀ after : System C, after.Stands me scope (effect.change me cell) registry ⟨other, later⟩ →
      ∃ last, Stretch me (fun _ => True) after last ∧ Q last) :
    ∃ last, Stretch me (fun _ => True) system last ∧ Q last := here.step busy moves (.inr target) onward

-- Up to the first thing that the factory does, from where a thread waits for its turn.
theorem free_makes {gate : GateRef} (absent : cell.store.get? request.key = none) (free : cell.turns[gate]? = some none)
    (active : cell.state = .active) (here : system.Stands me request.scope cell registry ⟨.turn ⟨request, factory⟩ gate, frames⟩) :
    ∃ last, Stretch me (fun _ => True) system last ∧ ∃ later : Scope C, later.store.get? request.key = none ∧
      last.Stands me request.scope later registry ⟨.run (factory request.scope), .factory ⟨request, factory⟩ gate :: frames⟩ := by
  refine here.does rfl (seizes_moves here.found free) rfl fun _ here => ?_
  refine here.does rfl rfl rfl fun _ here => ?_
  refine here.go rfl (check_moves here.found ?_) fun _ here => ?_
  · exact active
  refine here.go rfl (makes_moves here.found ?_) fun last here => ?_
  · exact unseen_sighted absent
  refine ⟨last, .refl _, _, ?_, here⟩
  exact absent

theorem vacant_makes (vacant : cell.Vacant request.key) (active : cell.state = .active) (unended : cell.exclusive = none)
    (here : system.Stands me request.scope cell registry ⟨.run (.resolve request factory next), frames⟩) :
    ∃ last, Stretch me (fun _ => True) system last ∧ ∃ gate, ∃ later : Scope C, later.store.get? request.key = none ∧
      last.Stands me request.scope later registry
        ⟨.run (factory request.scope), .factory ⟨request, factory⟩ gate :: .user next :: frames⟩ := by
  refine here.go rfl rfl fun _ here => ?_
  refine here.go rfl (check_moves here.found active) fun _ here => ?_
  refine here.go rfl (misses_moves here.found (unseen_sighted vacant.absent)) fun _ here => ?_
  refine here.does rfl (shares_moves here.found unended) rfl fun _ here => ?_
  have vacant : ((Effect.share request.scope).change me cell).Vacant request.key := ⟨vacant.absent, vacant.unowned, vacant.free⟩
  have active : ((Effect.share request.scope).change me cell).state = .active := active
  change Stands me request.scope ((Effect.share request.scope).change me cell) _ _ _ at here
  generalize (Effect.share request.scope).change me cell = shared at vacant active here
  refine here.go rfl (check_moves here.found active) fun _ here => ?_
  refine here.does rfl (queues_moves here.found vacant.waitsOn) rfl fun after here => ?_
  have absent : (shared.queued request.key me).store.get? request.key = none := vacant.absent
  obtain ⟨last, stretch, later, absent, here⟩ := free_makes absent vacant.first active here
  exact ⟨last, stretch, _, later, absent, here⟩

theorem told_quietly {event : Event} (quiet : ∀ listener, registry.listener = some listener → ∀ event, listener event = .done)
    (here : system.Stands me scope cell registry ⟨.emit scope.registry event, frames⟩)
    (onward : ∀ after : System C, after.Stands me scope cell registry ⟨.back .done, frames⟩ →
      ∃ last, Stretch me (fun _ => True) after last ∧ Q last) :
    ∃ last, Stretch me (fun _ => True) system last ∧ Q last := by
  have emits : Thread.next system.world me ⟨.emit scope.registry event, frames⟩ =
      some ⟨.still, [.emitted scope.registry event, .logged (.ofEvent registry.settings event)],
        .deliver scope.registry event, frames⟩ := by
    simp only [Thread.next, Move.emit, here.listed, Option.map_some]
  refine here.go rfl emits fun after here => ?_
  cases heard : registry.listener with
  | none =>
    have unheard : Thread.next after.world me ⟨.deliver scope.registry event, frames⟩ = some (.silent (.back .done) frames) := by
      simp only [Thread.next, Move.deliver, here.listed, Option.map_some, heard]
    exact here.go rfl unheard onward
  | some listener =>
    have hears : Thread.next after.world me ⟨.deliver scope.registry event, frames⟩ =
        some ⟨.still, [.delivered scope.registry event], .run .done, .delivering scope.registry event :: frames⟩ := by
      simp only [Thread.next, Move.deliver, here.listed, Option.map_some, heard, quiet listener heard event]
    refine here.go rfl hears fun _ here => ?_
    refine here.go rfl rfl fun _ here => ?_
    exact here.go rfl rfl onward

theorem built_gives {gate : GateRef} {datum : C.Datum} {hooks : Hooks (Code C)} (absent : cell.store.get? job.request.key = none)
    (welcome : hooks.after job.request.scope = .done) (quiet : ∀ listener, registry.listener = some listener → ∀ event, listener event = .done)
    (here : system.Stands me job.request.scope cell registry ⟨.run (.built datum hooks), .factory job gate :: frames⟩) :
    ∃ last, Stretch me (fun _ => True) system last ∧ ∃ object later, later.store.get? job.request.key = some ⟨object, job.request.type⟩ ∧
      last.Stands me job.request.scope later registry ⟨.back (.object object), frames⟩ := by
  have nextInstance : system.world.nextInstance job.request.scope = .kept job.request.scope cell.instances.length := by
    rw [World.nextInstance, here.found]
    rfl
  have keeps : Thread.next system.world me ⟨.run (.built datum hooks), .factory job gate :: frames⟩ =
      some (Move.keep system.world job gate datum hooks frames) := rfl
  rw [Move.keep, nextInstance] at keeps
  refine here.does rfl keeps rfl fun _ here => ?_
  have stands : ((Effect.keep job.request.scope job.request.key ⟨job.request.type, datum, hooks⟩).change me cell).store.get? job.request.key =
      some ⟨.kept job.request.scope cell.instances.length, job.request.type⟩ := kept_found absent
  have made : ((Effect.keep job.request.scope job.request.key ⟨job.request.type, datum, hooks⟩).change me cell).instances[cell.instances.length]? =
      some ⟨job.request.type, datum, hooks⟩ := by simp [Effect.change, Scope.kept]
  generalize (Effect.keep job.request.scope job.request.key ⟨job.request.type, datum, hooks⟩).change me cell = filled at here stands made
  refine told_quietly quiet here fun after here => ?_
  have there : after.world.instance? (.kept job.request.scope cell.instances.length) = some ⟨job.request.type, datum, hooks⟩ := by
    rw [World.instance?, here.found]
    exact made
  have hook : Thread.next after.world me ⟨.back .done, .created job gate (.kept job.request.scope cell.instances.length) :: frames⟩ =
      some ⟨.still, [.hook (.after (.kept job.request.scope cell.instances.length) job.request.scope)], .run .done,
        .welcomed job gate (.kept job.request.scope cell.instances.length) :: frames⟩ := by
    have calls : Move.callHook after.world (.after (.kept job.request.scope cell.instances.length) job.request.scope)
        (.welcomed job gate (.kept job.request.scope cell.instances.length) :: frames) = some _ := hook_moves there
    rw [← welcome]
    exact calls
  refine here.go rfl hook fun _ here => ?_
  refine here.go rfl rfl fun _ here => ?_
  refine here.go rfl rfl fun _ here => ?_
  refine here.does rfl rfl rfl fun _ here => ?_
  refine here.does rfl rfl rfl fun _ here => ?_
  refine here.does rfl rfl rfl fun last here => ?_
  refine ⟨last, .refl _, _, _, ?_, here⟩
  exact stands

end System

namespace System
variable {system start : System C} {program : C.Label → Code C} {memory : C.Memory} {code : Code C} {me : ThreadId} {scope : ScopeRef}
  {cell : Scope C} {key : String} {job : Job C} {gate : GateRef} {base : List (Frame C)}

def Claimed (first last : System C) (scope : ScopeRef) (key : String) : Prop :=
  ∃ before after, Runs first before ∧ Step before after ∧ Runs after last ∧ (before.life scope).Claims (after.life scope) key

theorem vacant_lasts (path : Runs (initial program memory code) start) (onward : Runs start system)
    (vacant : (start.world.cell scope).Vacant key) : (system.world.cell scope).Vacant key ∨ Claimed start system scope key := by
  induction onward with
  | refl => exact .inl vacant
  | @step before after onward next ih =>
    rcases ih with vacant | ⟨one, two, first, claims, last, mine⟩
    · have reached := path.trans onward
      have lived := runs_lived reached scope
      rcases (next_life reached next scope).vacant lived.gated lived.accounts vacant with vacant | claims
      · exact .inl vacant
      · exact .inr ⟨before, after, onward, next, .refl _, claims⟩
    · exact .inr ⟨one, two, first, claims, .step last next, mine⟩

-- Without anybody else the thread comes to its own factory, and if that makes an instance that nobody objects to, to
-- an answer with it.
def Makes (system : System C) (me : ThreadId) (job : Job C) (base : List (Frame C)) : Prop :=
  ∃ called gate, Stretch me (fun _ => True) system called ∧
    called.threads[me]? = some ⟨.run (job.factory job.request.scope), .factory job gate :: base⟩ ∧
    ∀ datum hooks, job.factory job.request.scope = .built datum hooks → hooks.after job.request.scope = .done →
      (∀ registry listener, called.world.registries[job.request.scope.registry]? = some registry → registry.listener = some listener →
        ∀ event, listener event = .done) →
      ∃ last object, Stretch me (fun _ => True) called last ∧ last.threads[me]? = some ⟨.back (.object object), base⟩ ∧
        (last.world.cell job.request.scope).store.get? job.request.key = some ⟨object, job.request.type⟩

theorem Stands.makes {registry : Registry C} (absent : cell.store.get? job.request.key = none)
    (here : system.Stands me job.request.scope cell registry ⟨.run (job.factory job.request.scope), .factory job gate :: base⟩) :
    system.Makes me job base := by
  refine ⟨system, gate, .refl _, here.running, fun datum hooks built welcome quiet => ?_⟩
  rw [built] at here
  obtain ⟨last, stretch, object, later, stored, here⟩ := built_gives absent welcome (fun listener => quiet registry listener here.listed) here
  exact ⟨last, object, stretch, here.running, cell_found here.found ▸ stored⟩

theorem Makes.after {between : System C} (stretch : Stretch me (fun _ => True) system between) (makes : between.Makes me job base) :
    system.Makes me job base := by
  obtain ⟨called, gate, more, calls, gives⟩ := makes
  exact ⟨called, gate, stretch.trans more, calls, gives⟩

structure Retries (system : System C) (scope : ScopeRef) (key : String) : Prop where
  asks : ∀ me request factory next frames, request.scope = scope → request.key = key →
    system.threads[me]? = some ⟨.run (.resolve request factory next), frames⟩ → system.Makes me ⟨request, factory⟩ (.user next :: frames)
  waits : ∀ me job gate frames, job.request.scope = scope → job.request.key = key → system.threads[me]? = some ⟨.turn job gate, frames⟩ →
    system.Makes me job frames

theorem vacant_retries (path : Runs (initial program memory code) system) (active : (system.world.cell scope).state = .active)
    (known : (system.world.scope? scope).isSome) (vacant : (system.world.cell scope).Vacant key) : system.Retries scope key := by
  have lived := runs_lived path scope
  have unended : (system.world.cell scope).exclusive = none := by
    have ended : (system.life scope).EndedBy 0 := lived.orderly.anyone active
    have held := ended.exclusive
    rwa [lived.orderly.quiet active 0] at held
  obtain ⟨cell, found⟩ := Option.isSome_iff_exists.mp known
  obtain ⟨registry, listed⟩ : ∃ registry, system.world.registries[scope.registry]? = some registry :=
    ⟨_, List.getElem?_eq_getElem (registry_known path known)⟩
  have same := cell_found found
  rw [same] at active vacant unended
  constructor
  · rintro me request factory next frames rfl rfl running
    obtain ⟨last, stretch, gate, later, absent, here⟩ := vacant_makes vacant active unended ⟨running, found, listed⟩
    exact Makes.after stretch (here.makes absent)
  · rintro me job gate frames rfl rfl running
    have waiting : Grip.waiting job.request.key gate ∈ (system.life job.request.scope).grips me := by
      simp [life, posture_found running, Posture.part, Thread.posture, Focus.grip?, List.about]
    have placed := lived.accounts.gates me _ waiting _ _ rfl
    have free := vacant.free gate (same ▸ placed)
    obtain ⟨last, stretch, later, absent, here⟩ := free_makes vacant.absent free active ⟨running, found, listed⟩
    exact (here.makes absent).after stretch

end System
end Lifespan
