import Lifespan.Proofs.Telling
import Lifespan.Proofs.Uniqueness

-- Where the contents of a scope come from. What stands in it stays until it is emptied; what is new in it has been
-- made by a factory that came to an instance; only what was stored is told as created, and only that has hooks.
namespace Lifespan
variable {C : Client}

theorem kept_stays {cell : Scope C} {scope : ScopeRef} {key name : String} {made : Instance C} {entry : Entry}
    (there : cell.store.get? name = some entry) : (cell.kept scope key made).store.get? name = some entry := by
  rw [kept_get?, there, Option.some_or]

namespace Life
variable {before after : Life C} {shaken aided : Prop} {scope : ScopeRef} {name : String} {entry : Entry}

theorem Step.keeps (step : Step shaken aided scope before after) (orderly : before.Orderly) (unemptied : ¬after.Emptied)
    (there : before.cell.store.get? name = some entry) : after.cell.store.get? name = some entry := by
  have later := preserves_orderly orderly step
  cases step with
  | idle cell =>
    obtain ⟨attributes, cell⟩ := cell
    rw [cell]
    exact there
  | build me rest build cell =>
    rw [cell]
    rcases build.stores with ⟨_, _, same, _⟩ | ⟨key, gate, made, _, _, rfl, _⟩
    · rw [same]
      exact there
    · exact kept_stays there
  | @close _ effect _ _ me rest close cell stood stands others grips stored calls =>
    by_cases empties : effect = .empty scope
    · subst empties
      cases close
      exact absurd (later.emptied stands rfl) unemptied
    · rw [cell, (close.contents me empties).1]
      exact there

theorem Step.instances (step : Step shaken aided scope before after) : before.cell.instances <+: after.cell.instances := by
  have unchanged (same : after.cell.instances = before.cell.instances) : before.cell.instances <+: after.cell.instances :=
    same ▸ List.prefix_rfl
  cases step with
  | idle cell =>
    obtain ⟨attributes, cell⟩ := cell
    exact unchanged (by rw [cell])
  | build me rest build cell =>
    rcases build.stores with ⟨_, _, _, same⟩ | ⟨key, gate, made, _, _, rfl, _⟩
    · exact unchanged (by rw [cell, same])
    · rw [cell]
      exact List.prefix_append _ _
  | @close _ effect _ _ me rest close cell =>
    by_cases empties : effect = .empty scope
    · exact unchanged (by rw [cell, empties]; rfl)
    · exact unchanged (by rw [cell, (close.contents me empties).2])

end Life

namespace System
variable {before after since system : System C} {program : C.Label → Code C} {memory : C.Memory} {code : Code C}
  {scope : ScopeRef} {key name : String} {object : InstanceRef} {entry : Entry} {thread : Thread C} {me : ThreadId}
  {world : World C} {move : Move C} {call : HookCall}

theorem entries_stay (path : Runs (initial program memory code) since) (onward : Runs since system)
    (unemptied : ¬(system.life scope).Emptied) (there : (since.world.cell scope).store.get? name = some entry) :
    (system.world.cell scope).store.get? name = some entry := by
  induction onward with
  | refl => exact there
  | step onward next ih =>
    have step := next_life (path.trans onward) next scope
    have before := ih fun emptied => unemptied (Life.preserves_emptied emptied step)
    exact step.keeps (runs_lived (path.trans onward) scope).orderly unemptied before

theorem apply_loose {effect : Effect C} : world.loose <+: (effect.apply me world).loose := by
  cases effect <;> first | exact List.prefix_rfl | exact List.prefix_append _ _

theorem instance_stays {made : Instance C} (path : Runs (initial program memory code) before) (next : Step before after)
    (found : before.world.instance? object = some made) : after.world.instance? object = some made := by
  have prefixed {old new : List (Instance C)} {index : Nat} (grows : old <+: new) (there : old[index]? = some made) :
      new[index]? = some made := by
    obtain ⟨rest, rfl⟩ := grows
    exact (List.getElem?_append_left (List.getElem?_eq_some_iff.mp there).1).trans there
  cases object with
  | kept scope index =>
    obtain ⟨cell, known, there⟩ := Option.bind_eq_some_iff.mp found
    obtain ⟨later, stays⟩ := Option.isSome_iff_exists.mp (known_stays (step_change next) (Option.isSome_of_eq_some known))
    have grows := (next_life path next scope).instances
    simp only [life, cell_found known, cell_found stays] at grows
    simp only [World.instance?, stays, Option.bind_some]
    exact prefixed grows there
  | loose index =>
    refine prefixed ?_ found
    cases step_change next with
    | turn => exact apply_loose
    | _ => exact List.prefix_rfl

theorem runs_instance {made : Instance C} (path : Runs (initial program memory code) since) (onward : Runs since system)
    (found : since.world.instance? object = some made) : system.world.instance? object = some made := by
  induction onward with
  | refl => exact found
  | step onward next ih => exact instance_stays (path.trans onward) next ih

theorem stored_instance (path : Runs (initial program memory code) system) (stored : (key, object) ∈ system.world.stored scope) :
    (system.world.instance? object).isSome := by
  have objects : (system.world.stored scope).map Prod.snd = (List.range (system.world.cell scope).instances.length).map (.kept scope) :=
    (runs_lived path scope).content.objects
  have there := List.mem_map_of_mem (f := Prod.snd) stored
  rw [objects] at there
  obtain ⟨index, inside, rfl⟩ := List.mem_map.mp there
  have inside := List.mem_range.mp inside
  cases found : system.world.scope? scope with
  | none => simp [World.cell, found, Scope.fresh_eq] at inside
  | some cell =>
    rw [cell_found found] at inside
    simp [World.instance?, found, inside]

-- The factory of this key has come to an instance, which is stored in the next step.
def Produces (system : System C) (me : ThreadId) (scope : ScopeRef) (key : String) : Prop :=
  ∃ datum hooks job gate frames, system.threads[me]? = some ⟨.run (.built datum hooks), .factory job gate :: frames⟩ ∧
    job.request.scope = scope ∧ job.request.key = key

def Completes (first last : System C) (me : ThreadId) (scope : ScopeRef) (key : String) : Prop :=
  ∃ before after, Runs first before ∧ before.Produces me scope key ∧ before.advance me = some after ∧ Runs after last

theorem turn_stores (turn : Turn world me thread move) (stores : .stored scope key object ∈ move.items) :
    ∃ datum hooks job gate frames, thread = ⟨.run (.built datum hooks), .factory job gate :: frames⟩ ∧
      job.request.scope = scope ∧ job.request.key = key := by
  cases turn with
  | builds =>
    cases List.mem_singleton.mp stores
    exact ⟨_, _, _, _, _, rfl, rfl, rfl⟩
  | goOn _ _ noted => cases noted _ stores
  | gathers logged =>
    obtain ⟨_, same⟩ := logged _ stores
    cases same
  | backHooked | unwindHooked => cases hooked_items _ stores
  | backDropped => cases dropped_items _ stores
  | backReleased => cases released_items _ stores
  | _ => simp [Move.giveUp] at stores

theorem mem_stored : (key, object) ∈ world.stored scope ↔ .stored scope key object ∈ world.chronicle := by
  rw [World.stored, List.mem_filterMap]
  constructor
  · rintro ⟨item, member, same⟩
    cases item with
    | stored place name made =>
      simp only [Item.stored?, Option.ite_none_right_eq_some, Option.some.injEq, Prod.mk.injEq] at same
      obtain ⟨rfl, rfl, rfl⟩ := same
      exact member
    | _ => cases same
  · exact fun member => ⟨_, member, by simp [Item.stored?]⟩

theorem step_item {item : Item C} (next : Step before after) (there : item ∈ after.world.chronicle) : item ∈ before.world.chronicle ∨
    ∃ me thread move, before.threads[me]? = some thread ∧ thread.next before.world me = some move ∧ item ∈ move.items ∧
      before.advance me = some after := by
  cases next with
  | time => exact .inl there
  | thread me moved =>
    obtain ⟨thread, running, ⟨move, moves, rfl⟩ | ⟨_, _, _, _, _, _, rfl⟩ | ⟨_, _, _, _, _, rfl⟩⟩ := advance_moved moved
    · rw [perform, record_chronicle, apply_chronicle, List.mem_append] at there
      exact there.imp_right fun new => ⟨me, thread, move, running, moves, new, moved⟩
    · exact .inl there
    · exact .inl there

theorem step_origin (next : Step before after) (stored : (key, object) ∈ after.world.stored scope) :
    (key, object) ∈ before.world.stored scope ∨ ∃ me, before.Produces me scope key ∧ before.advance me = some after := by
  rw [mem_stored] at stored ⊢
  refine (step_item next stored).imp_right ?_
  rintro ⟨me, thread, move, running, moves, new, moved⟩
  obtain ⟨datum, hooks, job, gate, frames, rfl, here, same⟩ := turn_stores (next_turn moves) new
  exact ⟨me, ⟨datum, hooks, job, gate, frames, running, here, same⟩, moved⟩

theorem runs_origin (onward : Runs since system) (stored : (key, object) ∈ system.world.stored scope) :
    (key, object) ∈ since.world.stored scope ∨ ∃ me, Completes since system me scope key := by
  induction onward with
  | refl => exact .inl stored
  | step onward next ih =>
    rcases step_origin next stored with old | ⟨me, builds, moved⟩
    · exact (ih old).imp_right fun ⟨me, one, two, first, builds, moved, last⟩ =>
        ⟨me, one, two, first, builds, moved, .step last next⟩
    · exact .inr ⟨me, _, _, onward, builds, moved, .refl _⟩

def Creating (thread : Thread C) : Prop :=
  ∀ registry id key, thread.focus = .emit registry (.created id key) → ∃ job gate object rest,
    thread.frames = .created job gate object :: rest ∧ job.request.scope.registry = registry ∧ job.request.scope.id = id ∧
      job.request.key = key

theorem Creating.idle (other : ∀ registry id key, thread.focus ≠ .emit registry (.created id key)) : Creating thread :=
  fun registry id key same => absurd same (other registry id key)

theorem exit_creating (exit : Exit C) (frames : List (Frame C)) : Creating ⟨exit.focus, frames⟩ := by
  cases exit <;> exact .idle nofun

theorem hooked_creating {teardown : Teardown} (exit : Exit C) (frames : List (Frame C)) :
    Creating ⟨(Move.hooked teardown key exit frames).focus, (Move.hooked teardown key exit frames).frames⟩ := by
  unfold Move.hooked
  cases teardown.phase with
  | beforeDestroy => exact .idle nofun
  | destroy =>
    refine .idle fun registry id name same => ?_
    have fated := (Focus.emit.inj same).2
    unfold Teardown.outcome at fated
    split at fated <;> cases fated

theorem admitted_creating (point : Point C) (frames : List (Frame C)) : Creating ⟨point.admitted, frames⟩ := by
  cases point <;> exact .idle nofun

theorem refused_creating (point : Point C) (fault : Fault) (frames : List (Frame C)) : Creating ⟨point.refused fault, frames⟩ := by
  cases point with
  | shared => exact .idle nofun
  | sight place => cases place <;> exact .idle nofun

theorem starts_creating {op : Op C} {focus : Focus C} {waiting frames : List (Frame C)} (starts : op.starts? = some (focus, waiting)) :
    Creating ⟨focus, frames⟩ := by
  cases op <;> cases starts <;> exact .idle nofun

theorem turn_creating (turn : Turn world me thread move) : Creating ⟨move.focus, move.frames⟩ := by
  cases turn with
  | builds =>
    intro registry id key same
    cases same
    exact ⟨_, _, _, _, rfl, rfl, rfl, rfl⟩
  | admits | vouches => exact admitted_creating _ _
  | refuses | disowns => exact refused_creating _ _ _
  | leaves | reopens => exact exit_creating _ _
  | backHooked => exact hooked_creating (.back _) _
  | unwindHooked => exact hooked_creating (.unwind _) _
  | backDropped => exact .idle (by rw [dropped_focus]; exact nofun)
  | backReleased => exact .idle (by rw [released_focus]; exact nofun)
  | calls starts => exact starts_creating starts
  | _ => exact .idle nofun

theorem runs_creating (path : Runs (initial program memory code) system) : ∀ thread ∈ system.threads, Creating thread := by
  induction path with
  | refl =>
    intro thread member
    cases List.mem_singleton.mp member
    exact .idle nofun
  | step _ next ih =>
    refine (step_change next).carry (P := fun _ => Creating) ih ?_ ?_ ?_ ?_ ?_
    · exact fun _ _ => .idle nofun
    · exact fun _ _ _ _ _ => .idle nofun
    · exact fun _ _ _ _ _ => ⟨fun _ => .idle nofun, fun _ => .idle nofun⟩
    · exact fun _ _ _ turn _ => turn_creating turn
    · exact fun _ _ _ _ _ creating => creating

theorem turn_emits {registry : RegistryRef} {event : Event} (turn : Turn world me thread move) (emits : .emitted registry event ∈ move.items) :
    thread.focus = .emit registry event := by
  have tells := turn_tells turn
  generalize thread.focus = focus at tells
  cases tells with
  | silent untold => exact absurd (List.mem_filter.mpr ⟨emits, rfl⟩) (by rw [untold]; exact List.not_mem_nil)
  | logs => simp only [List.mem_cons, Item.emitted.injEq, List.not_mem_nil, or_false, reduceCtorEq] at emits; rw [emits.1, emits.2]
  | gives => simp at emits

-- Whatever is told as created stands in a scope that is alive.
theorem telling_stored {registry : RegistryRef} {id : ScopeId} (path : Runs (initial program memory code) system)
    (running : system.threads[me]? = some thread) (tells : thread.focus = .emit registry (.created id key)) :
    ∃ scope, scope.registry = registry ∧ scope.id = id ∧ system.world.isAlive scope = true ∧
      key ∈ (system.world.stored scope).map Prod.fst := by
  obtain ⟨job, gate, object, rest, frames, here, same, rfl⟩ := runs_creating path thread (List.mem_of_getElem? running) _ _ _ tells
  have member : Frame.created job gate object ∈ thread.frames := by
    rw [frames]
    exact List.mem_cons_self
  refine ⟨job.request.scope, here, same, alive_iff.mpr ⟨?_, ?_⟩, List.mem_map_of_mem (runs_made path running member rfl)⟩
  · have held : (job.request.scope, Grip.made job.request.key gate object) ∈ (system.posture me).grips := by
      rw [posture_found running]
      exact List.mem_append_right _ (List.mem_filterMap.mpr ⟨_, member, rfl⟩)
    exact (runs_grounded path).grips me _ _ held
  · rcases (runs_building path running member rfl).1 with state | state <;> rw [state] <;> exact nofun

theorem created_stored (path : Runs (initial program memory code) since) (known : (since.world.scope? scope).isSome) (onward : Runs since system)
    (alive : system.world.isAlive scope = true) : ∃ news, system.world.chronicle = since.world.chronicle ++ news ∧
      ∀ key, .emitted scope.registry (.created scope.id key) ∈ news → key ∈ (system.world.stored scope).map Prod.fst := by
  induction onward with
  | refl => exact ⟨[], (List.append_nil _).symm, nofun⟩
  | @step before after onward next ih =>
    have reached := path.trans onward
    have there : (before.world.scope? scope).isSome := runs_known onward known
    obtain ⟨_, _, _, deeds⟩ := change_deeds (step_change next) (runs_sound reached)
    have lives := deeds_alive reached deeds there alive
    obtain ⟨news, same, told⟩ := ih lives
    have grows : ∀ key, key ∈ (before.world.stored scope).map Prod.fst → key ∈ (after.world.stored scope).map Prod.fst := by
      intro key member
      obtain ⟨one, stored, rfl⟩ := List.mem_map.mp member
      exact List.mem_map_of_mem (stored_grows (step_change next) scope one stored)
    cases step_change next with
    | @turn me thread move running turn =>
      refine ⟨news ++ move.items, by simp [perform, same], fun key member => grows key ?_⟩
      rcases List.mem_append.mp member with old | new
      · exact told key old
      · obtain ⟨other, here, shares, lively, stored⟩ := telling_stored reached running (turn_emits turn new)
        have own : other = scope := (runs_filed reached).one lively lives here (shares ▸ ScopeId.sharesPlace_refl _)
        exact own ▸ stored
    | _ => exact ⟨news, same, fun key member => grows key (told key member)⟩

theorem hooked_records {teardown : Teardown} {exit : Exit C} {frames : List (Frame C)} : (Move.hooked teardown key exit frames).items =
    (Move.hookCause? teardown.phase exit).toList.map fun cause =>
      .logged (.hookFailed (.hook teardown.scope.id key teardown.phase cause)) := by
  unfold Move.hooked
  cases teardown.phase <;> simp [Function.comp_def]

theorem turn_hooks (turn : Turn world me thread move) (calls : .hook call ∈ move.items) : ∃ made front,
    world.instance? call.object = some made ∧ move.items = front ++ [.hook call] ∧ .hook call ∉ front ∧
      move.focus = .run (made.hooks.code call) := by
  cases turn with
  | invokes found =>
    simp only [List.mem_cons, Item.hook.injEq, List.not_mem_nil, or_false, reduceCtorEq, false_or] at calls
    subst calls
    exact ⟨_, [_], found, rfl, by simp, rfl⟩
  | backCreated found | warns _ _ found | destroys _ _ found =>
    cases List.mem_singleton.mp calls
    exact ⟨_, [], found, rfl, List.not_mem_nil, rfl⟩
  | goOn _ _ noted => cases noted _ calls
  | gathers logged =>
    obtain ⟨_, same⟩ := logged _ calls
    cases same
  | backHooked | unwindHooked => simp [hooked_records] at calls
  | backDropped => unfold Move.dropped at calls; split at calls <;> simp [Move.silent] at calls
  | backReleased => unfold Move.released at calls; split at calls <;> simp [Move.silent] at calls
  | _ => simp [Move.giveUp, Move.keep] at calls

def Enters (before after : System C) (call : HookCall) : Prop :=
  ∃ me made frames, before.advance me = some after ∧ before.world.instance? call.object = some made ∧
    after.threads[me]? = some ⟨.run (made.hooks.code call), frames⟩

theorem step_enters {items : List (Item C)} (next : Step before after)
    (grown : after.world.chronicle = before.world.chronicle ++ items) (calls : .hook call ∈ items) :
    before.Enters after call ∧ ∃ front, items = front ++ [.hook call] ∧ .hook call ∉ front := by
  have grows : items ≠ [] := List.ne_nil_of_mem calls
  cases next with
  | time => exact absurd (List.self_eq_append_right.mp grown) grows
  | thread me moved =>
    obtain ⟨thread, running, ⟨move, moves, rfl⟩ | ⟨_, _, _, _, _, _, rfl⟩ | ⟨_, _, _, _, _, rfl⟩⟩ := advance_moved moved
    · rw [perform, record_chronicle, apply_chronicle, List.append_cancel_left_eq] at grown
      subst grown
      obtain ⟨made, front, found, last, first, runs⟩ := turn_hooks (next_turn moves) calls
      refine ⟨⟨me, made, move.frames, moved, found, ?_⟩, front, last, first⟩
      rw [← runs]
      exact List.getElem?_set_self (List.getElem?_eq_some_iff.mp running).1
    · exact absurd (List.self_eq_append_right.mp grown) grows
    · exact absurd (List.self_eq_append_right.mp grown) grows

theorem last_once {front more rest : List (Item C)} {item : Item C} (same : front ++ [item] = more ++ item :: rest)
    (new : item ∉ front) : front = more ∧ rest = [] := by
  rcases List.append_eq_append_iff.mp same with ⟨between, rfl, last⟩ | ⟨between, rfl, last⟩
  · cases between with
    | nil => exact ⟨(List.append_nil _).symm, (List.cons.inj last).2.symm⟩
    | cons head tail => simp at last
  · cases between with
    | nil => exact ⟨List.append_nil _, (List.cons.inj last).2⟩
    | cons head tail => exact absurd (by simp [(List.cons.inj last).1]) new

-- Each entry of a hook in the history was left by a step of its own, which came to run the hook.
theorem runs_enters {done rest : List (Item C)} (path : Runs (initial program memory code) system)
    (entry : system.world.chronicle = done ++ .hook call :: rest) : ∃ before after,
      Runs (initial program memory code) before ∧ before.Enters after call ∧ after.world.chronicle = done ++ [.hook call] ∧
        Runs after system := by
  induction path generalizing rest with
  | refl => cases done <;> cases entry
  | @step before after path next ih =>
    obtain ⟨items, grown⟩ := change_chronicle (step_change next)
    -- the entry is one of this step, or it was there before
    have new_or_old : (∃ more, done = before.world.chronicle ++ more ∧ items = more ++ .hook call :: rest) ∨
        ∃ old, before.world.chronicle = done ++ .hook call :: old := by
      rcases List.append_eq_append_iff.mp (grown.symm.trans entry) with new | ⟨_ | ⟨first, old⟩, upTo, mine⟩
      · exact .inl new
      · exact .inl ⟨[], by simpa using upTo.symm, mine.symm⟩
      · exact .inr ⟨old, (List.cons.inj mine).1 ▸ upTo⟩
    rcases new_or_old with ⟨more, upTo, mine⟩ | ⟨old, upTo⟩
    · obtain ⟨enters, front, last, first⟩ := step_enters next grown (mine ▸ List.mem_append_right _ (List.mem_cons_self ..))
      obtain ⟨rfl, rfl⟩ := last_once (last.symm.trans mine) first
      exact ⟨before, after, path, enters, by rw [grown, last, upTo, List.append_assoc], .refl after⟩
    · obtain ⟨one, two, reached, enters, told, onward⟩ := ih upTo
      exact ⟨one, two, reached, enters, told, .step onward next⟩

theorem hooked_stored (path : Runs (initial program memory code) system) {index : Nat} (called : .hook call ∈ system.world.chronicle)
    (kept : call.object = .kept scope index) : ∃ key, (key, .kept scope index) ∈ system.world.stored scope := by
  induction path with
  | refl => cases called
  | @step before after path next ih =>
    have grows : (∃ key, (key, .kept scope index) ∈ before.world.stored scope) →
        ∃ key, (key, .kept scope index) ∈ after.world.stored scope :=
      Exists.imp fun key => stored_grows (step_change next) scope _
    rcases step_item next called with old | ⟨me, thread, move, running, moves, new, _⟩
    · exact grows (ih old)
    · refine grows ?_
      obtain ⟨made, _, there, _⟩ := turn_hooks (next_turn moves) new
      rw [kept] at there
      obtain ⟨cell, found, there⟩ := Option.bind_eq_some_iff.mp there
      have objects : (before.world.stored scope).map Prod.snd = (List.range (before.world.cell scope).instances.length).map (.kept scope) :=
        (runs_lived path scope).content.objects
      rw [cell_found found] at objects
      have member : InstanceRef.kept scope index ∈ (before.world.stored scope).map Prod.snd := by
        rw [objects]
        exact List.mem_map_of_mem (List.mem_range.mpr (List.getElem?_eq_some_iff.mp there).1)
      obtain ⟨⟨key, object⟩, stored, rfl⟩ := List.mem_map.mp member
      exact ⟨key, stored⟩

end System
end Lifespan
