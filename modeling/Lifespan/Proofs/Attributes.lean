import Lifespan.Proofs.Presence

-- The attributes of a scope, as a program of one thread finds them. While the scope is active they are what its calls
-- have made of them; once its end has begun none is taken on any more, yet those that are there can still be seen and
-- taken away, until they are cleared when all hooks have run.
namespace Lifespan
variable {C : Client}

def Item.named? (scope : ScopeRef) (name : String) : Item C → Option (Option (Attribute C))
  | called (.setAttribute place other value) => if place = scope ∧ other = name then some (some value) else none
  | called (.removeAttribute place other) => if place = scope ∧ other = name then some none else none
  | _ => none

def World.lastSet (world : World C) (scope : ScopeRef) (name : String) : Option (Attribute C) :=
  (world.chronicle.filterMap (Item.named? scope name)).getLast?.join

def Focus.setting? (scope : ScopeRef) (name : String) : Focus C → Option (Attribute C)
  | assign place other value => if place = scope ∧ other = name then some value else none
  | _ => none

def Focus.names : Focus C → Bool
  | run (.call (.setAttribute _ _ _) _) | run (.call (.removeAttribute _ _) _) | assign _ _ _ => true
  | _ => false

def Effect.names : Effect C → Bool
  | setAttribute _ _ _ | removeAttribute _ _ => true
  | _ => false

section
variable {world : World C} {me : ThreadId} {thread : Thread C} {move : Move C} {effect : Effect C} {scope : ScopeRef}
  {name : String} {items : List (Item C)} {op : Op C} {frames : List (Frame C)}

theorem names_cases {focus : Focus C} (names : focus.names = true) :
    (∃ scope name value next, focus = .run (.call (.setAttribute scope name value) next)) ∨
    (∃ scope name next, focus = .run (.call (.removeAttribute scope name) next)) ∨
    ∃ scope name value, focus = .assign scope name value := by
  cases focus with
  | run code =>
    cases code with
    | call op =>
      cases op with
      | setAttribute => exact .inl ⟨_, _, _, _, rfl⟩
      | removeAttribute => exact .inr (.inl ⟨_, _, _, rfl⟩)
      | _ => cases names
    | _ => cases names
  | assign => exact .inr (.inr ⟨_, _, _, rfl⟩)
  | _ => cases names

theorem lastSet_quiet (quiet : ∀ item ∈ items, item.named? scope name = none) :
    (System.record (effect.apply me world) me items).lastSet scope name = world.lastSet scope name := by
  rw [World.lastSet, record_chronicle, apply_chronicle, List.filterMap_append, List.filterMap_eq_nil_iff.mpr quiet,
    List.append_nil]
  rfl

theorem lastSet_latest {item : Item C} {latest : Option (Attribute C)} (made : item.named? scope name = some latest) :
    (System.record (effect.apply me world) me [item]).lastSet scope name = latest := by
  rw [World.lastSet, record_chronicle, apply_chronicle, List.filterMap_append, List.filterMap_cons_some made,
    List.filterMap_nil, List.getLast?_concat, Option.join_some]

theorem turn_called (turn : Turn world me thread move) (calls : .called op ∈ move.items) :
    ∃ next, thread.focus = .run (.call op next) := by
  cases turn with
  | answers | begins | calls | drops | assigns =>
    cases List.mem_singleton.mp calls
    exact ⟨_, rfl⟩
  | invokes =>
    simp only [List.mem_cons, Item.called.injEq, reduceCtorEq, List.not_mem_nil, or_false] at calls
    exact ⟨_, by rw [calls]⟩
  | goOn _ _ noted => cases noted _ calls
  | gathers logged =>
    obtain ⟨_, same⟩ := logged _ calls
    cases same
  | backHooked | unwindHooked => simp [System.hooked_records] at calls
  | backDropped => unfold Move.dropped at calls; split at calls <;> simp [Move.silent] at calls
  | backReleased => unfold Move.released at calls; split at calls <;> simp [Move.silent] at calls
  | _ => simp [Move.giveUp, Move.keep] at calls

theorem Turn.unnamed (turn : Turn world me thread move) (apart : thread.focus.names = false) :
    ∀ item ∈ move.items, item.named? scope name = none := by
  intro item member
  cases item with
  | called op =>
    obtain ⟨next, calls⟩ := turn_called turn member
    rw [calls] at apart
    cases op <;> first | rfl | cases apart
  | _ => rfl

theorem call_apart (moved : Move.call world op frames = some move)
    (sets : ∀ scope name value, op ≠ .setAttribute scope name value)
    (removes : ∀ scope name, op ≠ .removeAttribute scope name) : move.effect.names = false := by
  cases op with
  | begin =>
    obtain ⟨cell, _, same⟩ := Option.map_eq_some_iff.mp moved
    split at same <;> cases same <;> rfl
  | drop =>
    simp only [Move.call] at moved
    split at moved <;> cases moved <;> rfl
  | invoke =>
    obtain ⟨_, _, same⟩ := Option.map_eq_some_iff.mp moved
    cases same
    rfl
  | setAttribute => exact absurd rfl (sets _ _ _)
  | removeAttribute => exact absurd rfl (removes _ _)
  | establish | silence | finish | endGuard | dropGuard | shutdown | peek | holds | destroyAll =>
    cases moved
    rfl
  | _ =>
    simp only [Move.call, Option.map_eq_some_iff] at moved
    obtain ⟨reply, _, rfl⟩ := moved
    rfl

theorem run_apart (moved : Move.run world code frames = some move) (apart : (Focus.run code).names = false) :
    move.effect.names = false := by
  cases code with
  | await | pause =>
    simp only [Move.run] at moved
    split at moved <;> cases moved
    rfl
  | awaitState =>
    obtain ⟨_, _, moved⟩ := Option.bind_eq_some_iff.mp moved
    split at moved <;> cases moved
    rfl
  | built datum hooks =>
    simp only [Move.run] at moved
    split at moved <;> cases moved <;> rfl
  | call op =>
    obtain ⟨called, calls, rfl⟩ := Option.map_eq_some_iff.mp moved
    have sets : ∀ scope name value, op ≠ .setAttribute scope name value := by
      rintro scope name value rfl
      cases apart
    have removes : ∀ scope name, op ≠ .removeAttribute scope name := by
      rintro scope name rfl
      cases apart
    exact show called.effect.names = false from call_apart calls sets removes
  | fork => cases moved
  | _ =>
    cases moved
    rfl

theorem next_apart (moves : thread.next world me = some move) (apart : thread.focus.names = false) :
    move.effect.names = false := by
  obtain ⟨focus, frames⟩ := thread
  cases focus with
  | run code => exact run_apart moves apart
  | assign => cases apart
  | _ => cases next_turn moves <;> first | rfl | simp [Effect.names]

theorem Turn.clearer (turn : Turn world me thread move) (clears : move.effect = .clearAttributes scope) :
    ∃ failures, thread.focus = .settle scope failures := by
  cases turn with
  | settles => cases clears; exact ⟨_, rfl⟩
  | goOn _ own | answers own => simp only at clears; subst clears; cases own
  | backHooked | unwindHooked | backDropped | backReleased => simp at clears
  | _ => cases clears

theorem apart_attributes (numbered : world.Numbered) (apart : effect.names = false)
    (clears : effect = .clearAttributes scope → (world.cell scope).state ≠ .active)
    (active : ((effect.apply me world).cell scope).state = .active) :
    (world.cell scope).state = .active ∧ ((effect.apply me world).cell scope).attributes = (world.cell scope).attributes := by
  rcases apply_cell effect me world scope with same | ⟨target, changed⟩ | ⟨registry, id, _, rfl, new⟩
  · rw [same] at active ⊢
    exact ⟨active, rfl⟩
  · rw [changed] at active ⊢
    cases effect with
    | setAttribute | removeAttribute => cases apart
    | clearAttributes =>
      cases target
      exact absurd active (clears rfl)
    | retire | mark => cases active
    | _ => exact ⟨active, rfl⟩
  · rw [new]
    simp [World.cell, numbered.fresh, Scope.fresh_eq]

theorem apart_setting {focus : Focus C} (apart : focus.names = false) : focus.setting? scope name = none := by
  cases focus <;> first | rfl | cases apart

end

-- The attributes of an active scope are those on record, with the one that the thread is about to set.
def World.Recalls (world : World C) (focus : Focus C) : Prop := ∀ scope name, (world.cell scope).state = .active →
  world.lastSet scope name = (focus.setting? scope name).or ((world.cell scope).attributes.get? name)

section
variable {world : World C} {me : ThreadId} {thread : Thread C} {move : Move C} {scope : ScopeRef} {name : String}
  {frames : List (Frame C)} {value : Attribute C} {next : Reply C → Code C}

theorem apart_recalls (recalls : world.Recalls thread.focus) (numbered : world.Numbered)
    (settling : ∀ scope failures, thread.focus = .settle scope failures → (world.cell scope).state ≠ .active)
    (moves : thread.next world me = some move) (apart : thread.focus.names = false) :
    (System.record (move.effect.apply me world) me move.items).Recalls move.focus := by
  intro scope name active
  have turn := next_turn moves
  rw [record_cell] at active
  have clears : move.effect = .clearAttributes scope → (world.cell scope).state ≠ .active := by
    intro clears
    obtain ⟨failures, settles⟩ := turn.clearer clears
    exact settling scope failures settles
  obtain ⟨was, same⟩ := apart_attributes numbered (next_apart moves apart) clears active
  have idle : move.focus.setting? scope name = none := by
    cases assigns : move.focus with
    | assign =>
      obtain ⟨_, _, onward, asks⟩ := turn.assigner assigns
      rw [asks] at apart
      cases apart
    | _ => rfl
  rw [lastSet_quiet (turn.unnamed apart), record_cell, same, recalls scope name was, apart_setting apart, idle]

-- A call that is let in is on record from there on, and one that is not concerns no active scope.
theorem set_recalls (recalls : world.Recalls (.run (.call (.setAttribute scope name value) next)))
    (moves : Thread.next world me ⟨.run (.call (.setAttribute scope name value) next), frames⟩ = some move) :
    (System.record (move.effect.apply me world) me move.items).Recalls move.focus := by
  simp only [Thread.next, Move.run, Move.call, Option.map_map, Option.map_eq_some_iff] at moves
  obtain ⟨cell, found, rfl⟩ := moves
  have others : ∀ place other, ¬(scope = place ∧ name = other) → (world.cell place).state = .active →
      (System.record (Effect.still.apply me world) me [.called (.setAttribute scope name value)]).lastSet place other =
        (world.cell place).attributes.get? other := by
    intro place other apart active
    rw [lastSet_quiet (by simp [Item.named?, apart]), recalls place other active]
    rfl
  intro place other active
  by_cases same : scope = place ∧ name = other
  · obtain ⟨rfl, rfl⟩ := same
    cases welcome : cell.isActive with
    | true =>
      simp only [Function.comp_apply, welcome, if_true, Move.also, Move.silent]
      have made : (Item.called (.setAttribute scope name value)).named? scope name = some (some value) := by
        simp [Item.named?]
      rw [lastSet_latest made]
      simp [Focus.setting?]
    | false =>
      simp only [Function.comp_apply, welcome, Bool.false_eq_true, if_false] at active
      rw [record_cell] at active
      cases welcome.symm.trans (decide_eq_true (cell_found found ▸ active))
  · cases welcome : cell.isActive with
    | true =>
      simp only [Function.comp_apply, welcome, if_true, Move.also, Move.silent, Focus.setting?, if_neg same] at active ⊢
      exact others place other same active
    | false =>
      simp only [Function.comp_apply, welcome, Bool.false_eq_true, if_false] at active ⊢
      exact others place other same active

theorem remove_recalls (recalls : world.Recalls (.run (.call (.removeAttribute scope name) next)))
    (moves : Thread.next world me ⟨.run (.call (.removeAttribute scope name) next), frames⟩ = some move) :
    (System.record (move.effect.apply me world) me move.items).Recalls move.focus := by
  simp only [Thread.next, Move.run, Move.call, Option.map_map, Option.map_eq_some_iff] at moves
  obtain ⟨cell, found, rfl⟩ := moves
  intro place other active
  simp only [Function.comp_apply, Move.also, Move.changing, record_cell] at active ⊢
  rw [target_cell rfl (by rw [found]; rfl)] at active ⊢
  by_cases same : scope = place ∧ name = other
  · obtain ⟨rfl, rfl⟩ := same
    have made : (Item.called (.removeAttribute scope name) : Item C).named? scope name = some none := by simp [Item.named?]
    rw [lastSet_latest made]
    simp [Focus.setting?, Effect.change, Table.get?_erase]
  · rw [lastSet_quiet (by simp [Item.named?, same])]
    by_cases mine : place = scope
    · subst mine
      have apart : other ≠ name := fun equal => same ⟨rfl, equal.symm⟩
      simp only [if_true, Effect.change, Table.get?_erase, if_neg apart] at active ⊢
      exact recalls place other active
    · rw [if_neg mine] at active ⊢
      exact recalls place other active

theorem assign_recalls (recalls : world.Recalls (.assign scope name value)) (known : (world.scope? scope).isSome) :
    (System.record ((Effect.setAttribute scope name value).apply me world) me []).Recalls (.back .done) := by
  intro place other active
  rw [record_cell, target_cell rfl known] at active ⊢
  rw [lastSet_quiet (by simp)]
  by_cases mine : place = scope
  · subst mine
    simp only [if_true, Effect.change, Table.get?_put] at active ⊢
    rw [recalls place other active]
    by_cases same : other = name
    · simp [Focus.setting?, same]
    · simp [Focus.setting?, same, Ne.symm same]
  · rw [if_neg mine] at active ⊢
    rw [recalls place other active]
    simp [Focus.setting?, Ne.symm mine]

theorem move_recalls (recalls : world.Recalls thread.focus) (numbered : world.Numbered)
    (settling : ∀ scope failures, thread.focus = .settle scope failures → (world.cell scope).state ≠ .active)
    (assigning : ∀ scope name value, thread.focus = .assign scope name value → (world.scope? scope).isSome)
    (moves : thread.next world me = some move) :
    (System.record (move.effect.apply me world) me move.items).Recalls move.focus := by
  obtain ⟨focus, frames⟩ := thread
  cases apart : focus.names with
  | false => exact apart_recalls recalls numbered settling moves apart
  | true =>
    rcases names_cases apart with ⟨_, _, _, _, rfl⟩ | ⟨_, _, _, rfl⟩ | ⟨scope, name, value, rfl⟩
    · exact set_recalls recalls moves
    · exact remove_recalls recalls moves
    · cases moves
      exact assign_recalls recalls (assigning scope name value rfl)

theorem removes_called (moves : thread.next world me = some move) :
    move.effect = .removeAttribute scope name ↔ .called (.removeAttribute scope name) ∈ move.items := by
  obtain ⟨focus, frames⟩ := thread
  constructor
  · intro removes
    have named : focus.names = true := by
      by_contra apart
      have none := next_apart moves (Bool.eq_false_iff.mpr apart)
      rw [removes] at none
      cases none
    rcases names_cases named with ⟨_, _, _, _, rfl⟩ | ⟨_, _, _, rfl⟩ | ⟨_, _, _, rfl⟩
    · obtain ⟨called, calls, rfl⟩ := Option.map_eq_some_iff.mp moves
      obtain ⟨cell, _, rfl⟩ := Option.map_eq_some_iff.mp calls
      simp only [Move.also] at removes
      split at removes <;> cases removes
    · obtain ⟨called, calls, rfl⟩ := Option.map_eq_some_iff.mp moves
      obtain ⟨cell, _, rfl⟩ := Option.map_eq_some_iff.mp calls
      cases removes
      exact List.mem_cons_self ..
    · cases moves
      cases removes
  · intro removes
    obtain ⟨next, asks⟩ := turn_called (next_turn moves) removes
    cases asks
    obtain ⟨called, calls, rfl⟩ := Option.map_eq_some_iff.mp moves
    obtain ⟨cell, _, rfl⟩ := Option.map_eq_some_iff.mp calls
    rfl

-- As long as none is set and they are not cleared, an attribute that is there stays until it is taken away.
theorem gone_attributes {effect : Effect C} (sets : ∀ name value, effect ≠ .setAttribute scope name value)
    (clears : effect ≠ .clearAttributes scope) (known : (world.scope? scope).isSome) (numbered : world.Numbered) :
    ((effect.apply me world).cell scope).attributes.get? name = some value ↔
      (world.cell scope).attributes.get? name = some value ∧ effect ≠ .removeAttribute scope name := by
  by_cases removes : effect = .removeAttribute scope name
  · subst removes
    rw [target_cell rfl known, if_pos rfl]
    simp [Effect.change, Table.get?_erase]
  · simp only [ne_eq, removes, not_false_eq_true, and_true]
    rcases apply_cell effect me world scope with same | ⟨target, changed⟩ | ⟨registry, id, _, rfl, _⟩
    · rw [same]
    · rw [changed]
      cases effect with
      | setAttribute => cases target; exact absurd rfl (sets _ _)
      | clearAttributes => cases target; exact absurd rfl clears
      | removeAttribute place other =>
        cases target
        have apart : name ≠ other := fun equal => removes (equal ▸ rfl)
        simp only [Effect.change, Table.get?_erase, if_neg apart]
      | _ => rfl
    · rw [numbered.fresh] at known
      cases known

end

theorem Table.erase_absent {κ α : Type} [DecidableEq κ] {table : Table κ α} {key : κ} (absent : table.get? key = none) :
    table.erase key = table := by
  obtain ⟨entries, distinct⟩ := table
  suffices same : Table.without key entries = entries by simp only [Table.erase, same]
  have missing : Table.found key entries = none := absent
  clear absent distinct
  fun_induction Table.without key entries with
  | case1 => rfl
  | case2 value rest ih => simp [Table.found] at missing
  | case3 known value rest other ih => rw [ih (by simpa [Table.found, other] using missing)]

namespace Life
variable {before after : Life C} {shaken aided : Prop} {scope : ScopeRef}

theorem preserves_bare (bare : before.Bare) (step : Step shaken aided scope before after) : after.Bare := by
  have forward := step.forward
  rcases bare with destroyed | ⟨thread, settled⟩
  · rw [destroyed] at forward
    refine .inl ?_
    cases state : after.cell.state <;> simp [state, State.number] at forward ⊢
  · cases step with
    | idle _ _ ends | build _ _ _ _ _ _ _ ends => exact .inr ⟨thread, ends ▸ settled⟩
    | @close was _ _ now me rest close cell stood stands others =>
      by_cases mine : thread = me
      · subst mine
        rw [stood] at settled
        rcases List.mem_append.mp settled with mine | under
        · cases close with
          | mark => exact .inl (cell ▸ rfl)
          | flee _ ending => rcases ending with rfl | rfl <;> cases List.mem_singleton.mp mine
          | retire => cases mine
          | _ => cases List.mem_singleton.mp mine
        · exact .inr ⟨thread, stands ▸ List.mem_append_right _ under⟩
      · exact .inr ⟨thread, others thread mine ▸ settled⟩

end Life

namespace System
variable {system since before after : System C} {program : C.Label → Code C} {memory : C.Memory} {code : Code C}
  {scope : ScopeRef} {name : String} {value : Attribute C} {me : ThreadId} {thread : Thread C}

theorem runs_assigning (path : Runs (initial program memory code) system) : ∀ thread ∈ system.threads, ∀ scope name value,
    thread.focus = .assign scope name value → (system.world.scope? scope).isSome := by
  induction path with
  | refl =>
    intro thread member scope name value assigns
    cases List.mem_singleton.mp member
    cases assigns
  | @step before after path next ih =>
    refine (step_change next).carry (P := fun world thread => ∀ scope name value, thread.focus = .assign scope name value →
      (world.scope? scope).isSome) ih (fun _ _ => nofun) (fun _ _ _ _ _ => nofun)
      (fun _ _ _ _ _ => ⟨fun _ => nofun, fun _ => nofun⟩) ?_ ?_
    · intro me thread move turn _ scope name value assigns
      exact apply_isSome (active_iff.mp (turn.assigner assigns).1).1
    · exact fun me thread move other _ was scope name value assigns => apply_isSome (was scope name value assigns)

theorem settling_inactive (path : Runs (initial program memory code) system) (running : system.threads[me]? = some thread)
    {failures : List Failure} (settles : thread.focus = .settle scope failures) : (system.world.cell scope).state ≠ .active := by
  intro active
  have torn : .torn ∈ (system.life scope).ends me := life_stage (focus_stage running (by rw [settles]; rfl))
  rw [(runs_lived path scope).orderly.quiet active me] at torn
  cases torn

theorem preserves_recalls (path : Runs (initial program memory code) before) (single : before.threads.length = 1)
    (next : Step before after) (recalls : ∀ thread ∈ before.threads, before.world.Recalls thread.focus) :
    ∀ thread ∈ after.threads, after.world.Recalls thread.focus := by
  intro thread member
  cases next with
  | thread me moved =>
    obtain ⟨acting, running, goes⟩ := advance_moved moved
    have there := List.mem_of_getElem? running
    have was := recalls acting there
    rcases goes with ⟨move, moves, rfl⟩ | ⟨count, body, next, frames, names, rfl, rfl⟩ | ⟨names, next, frames, reply, rfl, rfl⟩
    · simp only [perform, alone_set single running] at member ⊢
      cases List.mem_singleton.mp member
      exact move_recalls was (runs_grounded path).numbered (fun _ _ => settling_inactive path running)
        (runs_assigning path acting there) moves
    -- making threads, waiting for them and the passing of time leave the attributes as they are, and set none
    · rw [alone_set single running] at member
      rcases List.mem_append.mp member with old | new
      · cases List.mem_singleton.mp old
        exact was
      · obtain ⟨index, _, rfl⟩ := List.mem_map.mp new
        exact was
    · simp only [alone_set single running] at member
      cases List.mem_singleton.mp member
      exact was
  | time passed =>
    obtain ⟨old, there, rfl⟩ := List.mem_map.mp member
    have was := recalls old there
    rcases waited_cases passed old with same | ⟨left, next, frames, rfl, same⟩
    · rw [same]
      exact was
    · rw [same]
      exact was

theorem runs_recalls (path : Runs (initial program memory code) system) (single : system.threads.length = 1) :
    ∀ thread ∈ system.threads, system.world.Recalls thread.focus := by
  induction path with
  | refl =>
    intro thread member scope name active
    cases List.mem_singleton.mp member
    rfl
  | @step before after path next ih =>
    have alone := alone_before path (.step (.refl _) next) single
    exact preserves_recalls path alone next (ih alone)

theorem step_remains (name : String) (value : Attribute C) (path : Runs (initial program memory code) before)
    (single : before.threads.length = 1) (inactive : (before.world.cell scope).state ≠ .active) (next : Step before after)
    (full : ¬(after.life scope).Bare) :
    ∃ items, after.world.chronicle = before.world.chronicle ++ items ∧
      ((after.world.cell scope).attributes.get? name = some value ↔
        (before.world.cell scope).attributes.get? name = some value ∧ .called (.removeAttribute scope name) ∉ items) := by
  have still : before.world = after.world → ∃ items, after.world.chronicle = before.world.chronicle ++ items ∧
      ((after.world.cell scope).attributes.get? name = some value ↔
        (before.world.cell scope).attributes.get? name = some value ∧ .called (.removeAttribute scope name) ∉ items) := by
    intro same
    rw [same]
    exact ⟨[], (List.append_nil _).symm, by simp⟩
  cases next with
  | thread me moved =>
    obtain ⟨acting, running, goes⟩ := advance_moved moved
    rcases goes with ⟨move, moves, rfl⟩ | ⟨_, _, _, _, _, _, rfl⟩ | ⟨_, _, _, _, _, rfl⟩
    · have turn := next_turn moves
      have sets : ∀ name value, move.effect ≠ .setAttribute scope name value := by
        intro name value sets
        have there := List.mem_of_getElem? running
        exact inactive ((runs_clean path single).assigning acting there scope name value (turn.setter sets))
      have clears : move.effect ≠ .clearAttributes scope := by
        intro clears
        obtain ⟨failures, settles⟩ := turn.clearer clears
        obtain ⟨focus, frames⟩ := acting
        cases settles
        cases moves
        have now : (before.perform me (Move.settle scope failures frames)).threads[me]? = some ⟨.mark scope failures, frames⟩ :=
          List.getElem?_set_self (List.getElem?_eq_some_iff.mp running).1
        exact full (.inr ⟨me, life_stage (focus_stage now rfl)⟩)
      refine ⟨move.items, by simp [perform], ?_⟩
      rw [perform, record_cell, gone_attributes sets clears (inactive_known inactive) (runs_grounded path).numbered, ne_eq,
        removes_called moves]
    · exact still rfl
    · exact still rfl
  | time => exact still rfl

theorem runs_remains (path : Runs (initial program memory code) since) (inactive : (since.world.cell scope).state ≠ .active)
    (onward : Runs since system) (single : system.threads.length = 1) (full : ¬(system.life scope).Bare) :
    (system.world.cell scope).attributes.get? name = some value ↔ (since.world.cell scope).attributes.get? name = some value ∧
      .called (.removeAttribute scope name) ∉ system.world.chronicle.drop since.world.chronicle.length := by
  induction onward with
  | refl => simp
  | @step before after onward next ih =>
    have alone := alone_before (path.trans onward) (.step (.refl _) next) single
    have step := next_life (path.trans onward) next scope
    have was : ¬(before.life scope).Bare := fun bare => full (Life.preserves_bare bare step)
    have gone := (runs_leads path onward scope).inactive inactive
    obtain ⟨items, chronicle, same⟩ := step_remains name value (path.trans onward) alone gone next full
    rw [same, ih alone was, chronicle, List.drop_append_of_le_length (runs_chronicle onward).length_le, List.mem_append, not_or,
      and_assoc]

theorem leaves_attributes (name : String) (path : Runs (initial program memory code) before) (single : before.threads.length = 1)
    (active : before.world.isActive scope = true) (next : Step before after) (inactive : after.world.isActive scope = false) :
    (after.world.cell scope).state ≠ .active ∧ after.world.chronicle = before.world.chronicle ∧
      (after.world.cell scope).attributes.get? name = before.world.lastSet scope name := by
  obtain ⟨known, state⟩ := active_iff.mp active
  cases next with
  | thread me moved =>
    obtain ⟨thread, running, _⟩ := advance_moved moved
    have retires := advance_retires path running moved active inactive
    obtain ⟨focus, frames⟩ := thread
    cases retires
    obtain ⟨cell, found⟩ := Option.isSome_iff_exists.mp known
    have welcome : cell.isActive = true := decide_eq_true (cell_found found ▸ state)
    have next : Thread.next before.world me ⟨.retire scope, frames⟩ = some (.changing (.retire scope) (.exclude scope) frames) := by
      simp [Thread.next, Move.retire, found, welcome]
    rw [advance_next running rfl, next] at moved
    cases moved
    have changed : ((Effect.retire scope).apply me before.world).cell scope =
        { before.world.cell scope with state := .destructionPending } := by
      rw [target_cell rfl known, if_pos rfl]
      rfl
    have recalls := runs_recalls path single _ (List.mem_of_getElem? running) scope name state
    have left : State.destructionPending ≠ .active := by decide
    simp only [perform, Move.changing, record_cell, record_chronicle, apply_chronicle, List.append_nil, changed, recalls]
    exact ⟨left, trivial, rfl⟩
  | time => cases active.symm.trans inactive

structure Attributed (system : System C) (scope : ScopeRef) (told : String → Option (Attribute C)) : Prop where
  values : ∀ name type, system.Answers (.getAttribute scope name type)
    (((told name).filter fun value => value.type = type).elim .nothing fun value => .contents value.datum)
  names : ∃ names, system.Answers (.attributeNames scope) (.names names) ∧ names.Pairwise (· < ·) ∧
    ∀ name, name ∈ names ↔ (told name).isSome
  removes : ∀ me name next frames, system.threads[me]? = some ⟨.run (.call (.removeAttribute scope name) next), frames⟩ →
    ∃ after, system.advance me = some after ∧
      after.threads[me]? = some ⟨.back (.flag (told name).isSome), .user next :: frames⟩ ∧
      (told name = none → ∀ place, after.world.cell place = system.world.cell place) ∧
      ∀ place, after.world.cell place = if place = scope
        then { system.world.cell place with attributes := (system.world.cell place).attributes.erase name }
        else system.world.cell place

def Sets (system : System C) (scope : ScopeRef) : Prop :=
  ∀ me name value next frames, system.threads[me]? = some ⟨.run (.call (.setAttribute scope name value) next), frames⟩ →
    ∃ after, Stretch me (fun _ => True) system after ∧ after.threads[me]? = some ⟨.back .done, .user next :: frames⟩ ∧
      ∀ place, after.world.cell place = if place = scope
        then { system.world.cell place with attributes := (system.world.cell place).attributes.put name value }
        else system.world.cell place

theorem known_told (known : (system.world.scope? scope).isSome) :
    system.Attributed scope (system.world.cell scope).attributes.get? := by
  obtain ⟨cell, found⟩ := Option.isSome_iff_exists.mp known
  rw [cell_found found]
  refine ⟨fun name type => read_answers ?_, ⟨Text.sorted cell.attributes.keys, read_answers ?_, ?_, ?_⟩, ?_⟩
  · simp only [World.read, found, Option.map_some]
    cases cell.attributes.get? name with
    | none => rfl
    | some value => by_cases same : value.type = type <;> simp [same, Option.filter]
  · simp only [World.read, found, Option.map_some]
  · exact Text.sorted_ascends cell.attributes.distinct
  · exact fun name => Text.mem_sorted.trans Table.mem_keys
  · intro me name next frames running
    have calls : Move.call system.world (.removeAttribute scope name) (.user next :: frames) = some (.changing
        (.removeAttribute scope name) (.back (.flag (cell.attributes.contains name))) (.user next :: frames)) := by
      simp only [Move.call, found, Option.map_some]
    refine ⟨_, call_advances running calls, ?_, ?_, ?_⟩
    · exact List.getElem?_set_self (List.getElem?_eq_some_iff.mp running).1
    · intro absent place
      simp only [perform, Move.also, Move.changing, record_cell]
      rw [target_cell rfl known]
      split
      · rename_i same
        simp only [Effect.change, same, cell_found found, Table.erase_absent absent]
      · rfl
    · intro place
      simp only [perform, Move.also, Move.changing, record_cell]
      rw [target_cell rfl known]
      rfl

theorem active_sets (active : system.world.isActive scope = true) : system.Sets scope := by
  intro me name value next frames running
  obtain ⟨known, state⟩ := active_iff.mp active
  obtain ⟨cell, found⟩ := Option.isSome_iff_exists.mp known
  have welcome : cell.isActive = true := decide_eq_true (cell_found found ▸ state)
  have admits : Move.call system.world (.setAttribute scope name value) (.user next :: frames) =
      some (.silent (.assign scope name value) (.user next :: frames)) := by
    simp only [Move.call, found, Option.map_some, welcome, if_true]
  obtain ⟨assigning, calls, called, assigns⟩ := Stretch.called running admits
  have inside := (List.getElem?_eq_some_iff.mp assigns).1
  refine ⟨_, calls.trans (.once assigns rfl rfl), List.getElem?_set_self inside, fun place => ?_⟩
  simp only [perform, Move.changing, record_cell]
  rw [target_cell rfl (by rw [called]; exact known), called]
  rfl

theorem inactive_refuses (inactive : (system.world.cell scope).state ≠ .active) :
    system.Answers (.setAttribute scope name value) (.fault (.inactive scope.id)) := by
  intro me next frames running
  exact set_refused inactive running

-- While a scope of a program of one thread is active, its attributes are what the last call for each has set and
-- not taken away, and each call is told so. From then on none can be set. What there was when its end began is
-- still told, and can be taken away, until all hooks have run; then there are none, and nothing changes.
theorem attributes_told (path : Runs (initial program memory code) system) (single : system.threads.length = 1)
    (known : (system.world.scope? scope).isSome) :
    ∃ told, system.Attributed scope told ∧
      ((system.world.cell scope).state = .active → system.Sets scope ∧
        ((∀ thread ∈ system.threads, ∀ name value, thread.focus ≠ .assign scope name value) →
          ∀ name, told name = system.world.lastSet scope name)) ∧
      ((system.world.cell scope).state ≠ .active →
        (∀ name value, system.Answers (.setAttribute scope name value) (.fault (.inactive scope.id))) ∧
        ((system.life scope).Bare → ∀ name, told name = none) ∧
        (¬(system.life scope).Bare → ∀ before after, Runs (initial program memory code) before → Step before after →
          before.world.isActive scope = true → after.world.isActive scope = false → Runs after system →
          ∀ name value, told name = some value ↔ before.world.lastSet scope name = some value ∧
            .called (.removeAttribute scope name) ∉ system.world.chronicle.drop before.world.chronicle.length)) := by
  refine ⟨(system.world.cell scope).attributes.get?, known_told known, fun state => ⟨?_, ?_⟩, fun inactive => ⟨?_, ?_, ?_⟩⟩
  · exact active_sets (active_iff.mpr ⟨known, state⟩)
  · intro free name
    obtain ⟨only, same⟩ := List.length_eq_one_iff.mp single
    have member : only ∈ system.threads := same ▸ List.mem_singleton_self only
    have idle : only.focus.setting? scope name = none := by
      cases focus : only.focus with
      | assign place other value =>
        have apart : place ≠ scope := fun equal => free only member other value (equal ▸ focus)
        exact if_neg fun both => apart both.1
      | _ => rfl
    rw [runs_recalls path single only member scope name state, idle, Option.none_or]
  · exact fun name value => inactive_refuses inactive
  · intro bare name
    rw [(runs_clean path single).empty scope bare]
    rfl
  · intro full before after reached next active gone onward name value
    have alone := alone_before reached (.trans (.step (.refl _) next) onward) single
    obtain ⟨left, chronicle, same⟩ := leaves_attributes name reached alone active next gone
    rw [runs_remains (.step reached next) left onward single full, same, chronicle]

def namedHook : System ⟨Unit, Unit, Nat, Unit⟩ :=
  let quiet : Hooks (Code ⟨Unit, Unit, Nat, Unit⟩) := ⟨fun _ => .done, fun _ => .done, .done⟩
  let looks : ScopeRef → Code ⟨Unit, Unit, Nat, Unit⟩ := fun scope => .call (.getAttribute scope "user" "number") fun _ =>
    .call (.attributeNames scope) fun _ => .call (.removeAttribute scope "user") fun _ => .done
  initial (fun _ => .done) () <| .call (.establish {}) fun _ => .call (.begin 0 ⟨.session, "a"⟩) fun _ =>
    .call (.setAttribute ⟨0, ⟨.session, "a"⟩, 0⟩ "user" ⟨"text", 1⟩) fun _ =>
    .call (.setAttribute ⟨0, ⟨.session, "a"⟩, 0⟩ "user" ⟨"number", 2⟩) fun _ =>
    .resolve ⟨⟨0, ⟨.session, "a"⟩, 0⟩, "only", "Only"⟩ (fun _ => .built 0 { quiet with before := looks }) fun _ =>
    .call (.finish 0 ⟨.session, "a"⟩) fun _ => .done

-- While the scope is being ended the hook is given the value, finds the name in the list, and takes the attribute away.
theorem hook_named : ((run 41 namedHook).world.cell ⟨0, ⟨.session, "a"⟩, 0⟩).state = .destructionPending ∧
    (∃ frames, (run 41 namedHook).threads = [⟨.back (.contents 2), frames⟩]) ∧
    (∃ frames, (run 43 namedHook).threads = [⟨.back (.names ["user"]), frames⟩]) ∧
    ∃ frames, (run 45 namedHook).threads = [⟨.back (.flag true), frames⟩] := by
  have sorted : Text.sorted ["user"] = ["user"] := by simp [Text.sorted]
  have listed : ∃ frames, (run 43 namedHook).threads = [⟨.back (.names (Text.sorted ["user"])), frames⟩] := ⟨_, rfl⟩
  exact ⟨by decide, ⟨_, rfl⟩, sorted ▸ listed, ⟨_, rfl⟩⟩

theorem hook_attributes : ∃ told, (run 40 namedHook).Attributed ⟨0, ⟨.session, "a"⟩, 0⟩ told ∧ told "user" = some ⟨"number", 2⟩ := by
  have known : ((run 40 namedHook).world.scope? ⟨0, ⟨.session, "a"⟩, 0⟩).isSome := by decide
  obtain ⟨told, attributed, _, ending⟩ := attributes_told (run_runs 40 namedHook) rfl known
  refine ⟨told, attributed, ?_⟩
  have full : ¬((run 40 namedHook).life ⟨0, ⟨.session, "a"⟩, 0⟩).Bare := by
    intro bare
    have cleared := (runs_clean (run_runs 40 namedHook) rfl).empty _ bare
    cases congrArg (Table.get? · "user") cleared
  have quiet : ((run 40 namedHook).world.chronicle.drop (run 35 namedHook).world.chronicle.length).filterMap
      (Item.named? ⟨0, ⟨.session, "a"⟩, 0⟩ "user") = [] := rfl
  have kept := (ending (by decide)).2.2 full (run 35 namedHook) (run 36 namedHook) (run_runs 35 namedHook) (.thread 0 rfl)
    (by decide) (by decide) (run_runs 4 (run 36 namedHook)) "user" ⟨"number", 2⟩
  refine kept.mpr ⟨rfl, fun removed => ?_⟩
  simpa [Item.named?] using List.filterMap_eq_nil_iff.mp quiet _ removed

end System

end Lifespan
