import Lifespan.Proofs.OwedEvents

-- How an event is told. It is logged at once, and then given to the listener that is there at that
-- moment; nothing else is logged as an event or given to a listener.
namespace Lifespan
variable {C : Client}

def Record.isTold : Record → Bool
  | lifecycle _ _ | destroyFailed _ _ | endedWithFailures _ _ => true
  | _ => false

def Item.tells : Item C → Bool
  | emitted _ _ | delivered _ _ => true
  | logged record => record.isTold
  | _ => false

structure Telling where
  registry : RegistryRef
  event : Event
  settings : Settings
  heard : Bool

def Telling.items (telling : Telling) : List (Item C) :=
  [.emitted telling.registry telling.event, .logged (.ofEvent telling.settings telling.event)] ++
    if telling.heard then [.delivered telling.registry telling.event] else []

def Focus.delivering? : Focus C → Option (RegistryRef × Event)
  | .deliver registry event => some (registry, event)
  | _ => none

inductive Tells (world : World C) : Focus C → Move C → Prop
  | silent (untold : move.items.filter Item.tells = []) (other : move.focus.delivering? = none) : Tells world focus move
  | logs (found : world.registries[registry]? = some cell) : Tells world (.emit registry event)
      ⟨effect, [.emitted registry event, .logged (.ofEvent cell.settings event)], .deliver registry event, frames⟩
  | gives : Tells world (.deliver registry event) ⟨effect, [.delivered registry event], .run code, frames⟩

section
variable {world : World C} {me : ThreadId} {thread : Thread C} {move : Move C} {effect : Effect C}

theorem ofEvent_told (settings : Settings) (event : Event) : (Record.ofEvent settings event).isTold = true := by
  unfold Record.ofEvent
  split <;> rfl

theorem note_untold {item : Item C} (note : item.isNote = true) : item.tells = false := by
  cases item <;> first | rfl | cases note

theorem passed_delivers {focus : Focus C} (passed : focus.isPassed = true) : focus.delivering? = none := by
  cases focus <;> first | rfl | cases passed

theorem hooked_untold {teardown : Teardown} {key : String} {exit : Exit C} {frames : List (Frame C)} :
    (Move.hooked teardown key exit frames).items.filter Item.tells = [] := by
  unfold Move.hooked
  cases teardown.phase <;> simp [Item.tells, Record.isTold]

theorem turn_tells (turn : Turn world me thread move) : Tells world thread.focus move := by
  cases turn with
  | emits found => exact .logs found
  | hears => exact .gives
  | goOn _ _ noted =>
    refine .silent (List.filter_eq_nil_iff.mpr fun item member => ?_) rfl
    simp [note_untold (noted item member)]
  | gathers logged =>
    refine .silent (List.filter_eq_nil_iff.mpr fun item member => ?_) rfl
    obtain ⟨id, rfl⟩ := logged item member
    simp [Item.tells, Record.isTold]
  | calls starts => exact .silent rfl (passed_delivers (starts_passed starts))
  | admits | vouches => exact .silent rfl (passed_delivers (admitted_passed _))
  | refuses | disowns => exact .silent rfl (passed_delivers (refused_passed _ _))
  | leaves | reopens => exact .silent rfl (passed_delivers (exit_passed _))
  | backHooked | unwindHooked => exact .silent hooked_untold (passed_delivers hooked_passed)
  | backDropped => exact .silent (by unfold Move.dropped; split <;> rfl) (by rw [dropped_focus]; rfl)
  | backReleased => exact .silent (by unfold Move.released; split <;> rfl) (by rw [released_focus]; rfl)
  | _ => exact .silent rfl rfl

theorem registry_kept (effect : Effect C) (me : ThreadId) {registry : RegistryRef} {cell : Registry C} (found : world.registries[registry]? = some cell) :
    ∃ later, (effect.apply me world).registries[registry]? = some later ∧ later.settings = cell.settings := by
  have inside := (List.getElem?_eq_some_iff.mp found).1
  cases effect with
  | establish => exact ⟨cell, (List.getElem?_append_left inside).trans found, rfl⟩
  | listen | forget | register =>
    simp only [Effect.apply, World.onRegistry, List.getElem?_modify, found, Option.map_eq_map, Option.map_some]
    refine ⟨_, rfl, ?_⟩
    split <;> rfl
  | _ => exact ⟨cell, found, rfl⟩

theorem registries_grow (effect : Effect C) (me : ThreadId) : world.registries.length ≤ (effect.apply me world).registries.length := by
  cases effect <;> simp [Effect.apply, World.onRegistry, World.onScope]

end

namespace System
variable {before after system : System C} {program : C.Label → Code C} {memory : C.Memory} {code : Code C}
  {registry : RegistryRef} {event : Event} {frames : List (Frame C)} {me : ThreadId}

theorem runs_sole {P : World C → Thread C → Prop} (path : Runs (initial program memory code) system)
    (single : system.threads.length = 1) (starts : P (.initial program memory) (.ofCode code))
    (refocus : ∀ world focus other frames, focus.activity? = some .code → other.activity? = some .code →
      P world ⟨focus, frames⟩ → P world ⟨other, frames⟩)
    (turns : ∀ world thread move, Runs (initial program memory code) ⟨world, [thread]⟩ → Turn world 0 thread move →
      Step ⟨world, [thread]⟩ (perform ⟨world, [thread]⟩ 0 move) → P world thread →
      P (record (move.effect.apply 0 world) 0 move.items) ⟨move.focus, move.frames⟩) :
    ∃ thread, system.threads = [thread] ∧ P system.world thread := by
  induction path with
  | refl => exact ⟨_, rfl, starts⟩
  | @step before after path next ih =>
    obtain ⟨thread, alone, holds⟩ := ih (alone_before path (.step (.refl _) next) single)
    obtain ⟨world, threads⟩ := before
    cases (show threads = [thread] from alone)
    rcases step_sole next single with ⟨move, turn, rfl⟩ | rfl | ⟨_, _, _, rfl, was, now, rfl⟩
    · exact ⟨_, rfl, turns world thread move path turn next holds⟩
    · exact ⟨_, rfl, holds⟩
    · exact ⟨_, rfl, refocus _ _ _ _ was now holds⟩

-- The history holds nothing of events but these tellings, one after another.
structure Told (world : World C) (told : List Telling) : Prop where
  items : world.chronicle.filter Item.tells = told.flatMap Telling.items
  settings : ∀ one ∈ told, ∃ cell, world.registries[one.registry]? = some cell ∧ cell.settings = one.settings

section
variable {world : World C} {told : List Telling} {effect : Effect C} {items : List (Item C)}

theorem Told.more {later : List Telling} (was : Told world told)
    (same : told.flatMap Telling.items ++ items.filter Item.tells = later.flatMap Telling.items)
    (settings : ∀ one ∈ later, ∃ cell, world.registries[one.registry]? = some cell ∧ cell.settings = one.settings) :
    Told (record (effect.apply me world) me items) later := by
  constructor
  · rw [record_chronicle, apply_chronicle, List.filter_append, was.items, same]
  · intro one member
    obtain ⟨cell, found, same⟩ := settings one member
    obtain ⟨later, still, kept⟩ := registry_kept effect me found
    exact ⟨later, still, kept.trans same⟩

end

theorem runs_told (path : Runs (initial program memory code) system) (single : system.threads.length = 1) :
    ∃ thread, system.threads = [thread] ∧ ∃ told, Told system.world told ∧
      ∀ registry event, thread.focus.delivering? = some (registry, event) →
        ∃ earlier settings, told = earlier ++ [⟨registry, event, settings, false⟩] := by
  refine runs_sole (P := fun world thread => ∃ told, Told world told ∧
    ∀ registry event, thread.focus.delivering? = some (registry, event) →
      ∃ earlier settings, told = earlier ++ [⟨registry, event, settings, false⟩]) path single ?_ ?_ ?_
  · exact ⟨[], ⟨rfl, by simp⟩, nofun⟩
  · rintro world focus other frames _ does ⟨told, holds, _⟩
    refine ⟨told, holds, fun registry event gives => ?_⟩
    cases other <;> first | cases does; done | cases gives
  · rintro world ⟨focus, frames⟩ move _ turn _ ⟨told, holds, last⟩
    cases turn_tells turn with
    | silent untold other =>
      refine ⟨told, holds.more (by rw [untold, List.append_nil]) holds.settings, fun registry event gives => ?_⟩
      cases other.symm.trans gives
    | @logs registry cell event _ _ found =>
      have logged : [Item.emitted registry event, .logged (.ofEvent cell.settings event)].filter Item.tells =
          (⟨registry, event, cell.settings, false⟩ : Telling).items (C := C) := by
        simp [Item.tells, ofEvent_told, Telling.items]
      refine ⟨told ++ [⟨registry, event, cell.settings, false⟩], holds.more ?_ ?_, ?_⟩
      · rw [List.flatMap_append, logged]
        simp
      · intro one member
        rcases List.mem_append.mp member with old | new
        · exact holds.settings one old
        · cases List.mem_singleton.mp new
          exact ⟨cell, found, rfl⟩
      · rintro place other ⟨⟩
        exact ⟨told, cell.settings, rfl⟩
    | @gives registry event _ _ _ =>
      obtain ⟨earlier, settings, rfl⟩ := last registry event rfl
      refine ⟨earlier ++ [⟨registry, event, settings, true⟩], holds.more ?_ ?_, nofun⟩
      · simp [Telling.items, Item.tells]
      · intro one member
        rcases List.mem_append.mp member with old | new
        · exact holds.settings one (List.mem_append_left _ old)
        · cases List.mem_singleton.mp new
          exact holds.settings ⟨registry, event, settings, false⟩ (List.mem_append_right _ (List.mem_singleton.mpr rfl))

def Announces (system : System C) : Prop :=
  ∀ thread ∈ system.threads, ∀ registry event,
    (registry, event) ∈ thread.announcing ∨ thread.focus.delivering? = some (registry, event) →
    registry < system.world.registries.length

theorem tale_known {thread : Thread C} {move : Move C} (path : Runs (initial program memory code) before)
    (running : before.threads[me]? = some thread) (deeds : Deeds before after me move.effect move.items)
    (tale : Tale before.world thread.debts move.effect spoken owed) :
    ∀ one ∈ spoken, one.1 < before.world.registries.length := by
  intro one member
  generalize same : thread.debts = was at tale
  generalize isEffect : move.effect = effect at tale deeds
  cases tale with
  | quiet | empties => cases member
  | sums known | begins _ known => cases List.mem_singleton.mp member; exact known
  | keeps =>
    cases List.mem_singleton.mp member
    obtain ⟨gate, held, _⟩ := deeds_keeps deeds
    exact registry_known path ((runs_grounded path).grips me _ _ held)
  | pays | marks =>
    cases List.mem_singleton.mp member
    exact registry_known path (debts_pending path running (same ▸ List.mem_cons_self ..)).1

theorem turn_announces {thread : Thread C} {move : Move C} (path : Runs (initial program memory code) before)
    (unhanded : ¬before.world.handed) (running : before.threads[me]? = some thread) (turn : Turn before.world me thread move)
    (was : ∀ registry event, (registry, event) ∈ thread.announcing → registry < before.world.registries.length) :
    ∀ registry event, (registry, event) ∈ (Thread.mk move.focus move.frames).announcing ∨
      move.focus.delivering? = some (registry, event) → registry < before.world.registries.length := by
  intro registry event tells
  have sound : thread.Sound False before.world.shaken :=
    (runs_upright path thread (List.mem_of_getElem? running)).mono (absurd · unhanded) id
  rcases tells with announces | gives
  · obtain ⟨spoken, same, tale⟩ := turn_tale turn sound
    have there : (registry, event) ∈ thread.announcing ++ spoken := same ▸ List.mem_append_right _ announces
    rcases List.mem_append.mp there with old | new
    · exact was registry event old
    · exact tale_known path running (turn_deeds running turn (runs_sound path)) tale _ new
  · obtain ⟨focus, frames⟩ := thread
    cases turn_tells turn with
    | silent _ other => cases other.symm.trans gives
    | logs found => cases gives; exact (List.getElem?_eq_some_iff.mp found).1
    | gives => cases gives

theorem runs_announces (path : Runs (initial program memory code) system) (unhanded : ¬system.world.handed) :
    system.Announces := by
  induction path with
  | refl =>
    intro thread member registry event tells
    cases List.mem_singleton.mp member
    rcases tells with announces | gives <;> contradiction
  | @step before after path next ih =>
    have was : ¬before.world.handed := fun handed => unhanded (runs_handed (.step (.refl _) next) handed)
    intro thread member registry event tells
    have change := step_change next
    cases change with
    | @turn me old move running turn =>
      refine Nat.lt_of_lt_of_le ?_ (registries_grow move.effect me)
      rcases List.mem_or_eq_of_mem_set member with same | rfl
      · exact ih was thread same registry event tells
      · refine turn_announces path was running turn ?_ registry event tells
        exact fun registry event announces => ih was old (List.mem_of_getElem? running) registry event (.inl announces)
    | fork running =>
      rcases List.mem_append.mp member with old | new
      · rcases List.mem_or_eq_of_mem_set old with same | rfl
        · exact ih was thread same registry event tells
        · rcases tells with announces | gives <;> contradiction
      · obtain ⟨index, _, rfl⟩ := List.mem_map.mp new
        rcases tells with announces | gives <;> contradiction
    | join running =>
      rcases List.mem_or_eq_of_mem_set member with same | rfl
      · exact ih was thread same registry event tells
      · rcases tells with announces | gives <;> contradiction
    | @time passed =>
      obtain ⟨old, there, rfl⟩ := List.mem_map.mp member
      refine ih was old there registry event ?_
      rcases waited_cases passed old with same | ⟨left, next, frames, rfl, same⟩
      · rwa [same] at tells
      · rw [same] at tells
        rcases tells with announces | gives <;> contradiction

theorem emit_advances (running : system.threads[me]? = some ⟨.emit registry event, frames⟩)
    (known : registry < system.world.registries.length) :
    ∃ cell, system.world.registries[registry]? = some cell ∧
      system.advance me = some ⟨record system.world me [.emitted registry event, .logged (.ofEvent cell.settings event)],
        system.threads.set me ⟨.deliver registry event, frames⟩⟩ := by
  have found := List.getElem?_eq_getElem known
  refine ⟨_, found, ?_⟩
  rw [advance_next running rfl]
  simp only [Thread.next, Move.emit, found, Option.map_some]
  rfl

theorem deliver_advances (running : system.threads[me]? = some ⟨.deliver registry event, frames⟩)
    (known : registry < system.world.registries.length) :
    ∃ cell, system.world.registries[registry]? = some cell ∧
      (cell.listener = none → system.advance me = some ⟨system.world, system.threads.set me ⟨.back .done, frames⟩⟩) ∧
      ∀ listener, cell.listener = some listener →
        system.advance me = some ⟨record system.world me [.delivered registry event],
          system.threads.set me ⟨.run (listener event), .delivering registry event :: frames⟩⟩ := by
  have found := List.getElem?_eq_getElem known
  refine ⟨_, found, fun deaf => ?_, fun listener listens => ?_⟩
  · rw [advance_next running rfl]
    simp only [Thread.next, Move.deliver, found, Option.map_some, deaf]
    rfl
  · rw [advance_next running rfl]
    simp only [Thread.next, Move.deliver, found, Option.map_some, listens]
    rfl

end System
end Lifespan
