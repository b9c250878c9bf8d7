import Lifespan.Proofs.Access

-- Who stands where in a registry. A scope holds its place from its beginning until it is destroyed,
-- so no two scopes that are alive take the same place.
namespace Lifespan

def ScopeId.SharesPlace (one two : ScopeId) : Prop := one.kind = two.kind ∧ (one.kind.isSingleSlot = true ∨ one.id = two.id)

instance (one two : ScopeId) : Decidable (one.SharesPlace two) := inferInstanceAs (Decidable (_ ∧ _))

theorem ScopeId.sharesPlace_refl (id : ScopeId) : id.SharesPlace id := ⟨rfl, .inr rfl⟩

namespace Directory
variable {directory : Directory} {one two id : ScopeId} {scope : ScopeRef}

theorem occupant_shared (shares : one.SharesPlace two) : directory.occupant one = directory.occupant two := by
  obtain ⟨kind, single⟩ := shares
  obtain ⟨_, name⟩ := one
  obtain ⟨_, other⟩ := two
  cases kind
  rcases single with single | same
  · rename_i kind
    cases kind <;> first | rfl | cases single
  · cases (show name = other from same)
    rfl

theorem occupant_place : (directory.place scope).occupant id =
    if scope.id.SharesPlace id then some scope else directory.occupant id := by
  obtain ⟨registry, ⟨kind, name⟩, turn⟩ := scope
  obtain ⟨wanted, other⟩ := id
  cases kind <;> cases wanted <;>
    simp [occupant, place, ScopeId.SharesPlace, Kind.isSingleSlot, Table.get?_put, eq_comm]

theorem occupant_vacate : (directory.vacate one).occupant two = if one.SharesPlace two then none else directory.occupant two := by
  obtain ⟨kind, name⟩ := one
  obtain ⟨wanted, other⟩ := two
  cases kind <;> cases wanted <;>
    simp [occupant, vacate, ScopeId.SharesPlace, Kind.isSingleSlot, Table.get?_erase, eq_comm]

theorem occupant_forget : (directory.forget scope).occupant id =
    if directory.occupant scope.id = some scope ∧ scope.id.SharesPlace id then none else directory.occupant id := by
  unfold forget
  by_cases held : directory.occupant scope.id = some scope
  · simp [held, occupant_vacate]
  · simp [held]

end Directory

variable {C : Client}

section
variable {world : World C} {me : ThreadId} {effect : Effect C} {items : List (Item C)} {scope : ScopeRef} {registry place : RegistryRef}
  {id other : ScopeId}

theorem alive_iff : world.isAlive scope = true ↔ (world.scope? scope).isSome ∧ (world.cell scope).state ≠ .destroyed := by
  unfold World.isAlive World.cell Scope.isDestroyed
  cases world.scope? scope <;> simp

@[simp] theorem record_occupant : (System.record world me items).occupant registry id = world.occupant registry id := rfl

theorem onRegistry_occupant {change : Registry C → Registry C} : (world.onRegistry registry change).occupant place id =
    if place = registry then (world.registries[registry]?).bind fun cell => (change cell).directory.occupant id
    else world.occupant place id := by
  simp only [World.occupant, World.onRegistry, List.getElem?_modify]
  by_cases here : registry = place
  · subst here
    cases world.registries[registry]? <;> simp
  · simp [here, Ne.symm here]

theorem register_occupant (known : registry < world.registries.length) :
    ((Effect.register registry id).apply me world).occupant place other =
      if place = registry ∧ id.SharesPlace other then some (world.nextScope registry id) else world.occupant place other := by
  obtain ⟨cell, found⟩ : ∃ cell, world.registries[registry]? = some cell := ⟨_, List.getElem?_eq_getElem known⟩
  refine onRegistry_occupant.trans ?_
  by_cases here : place = registry
  · subst here
    have old : world.occupant place other = cell.directory.occupant other := by simp [World.occupant, found]
    simp [found, old, Directory.occupant_place, World.nextScope]
  · simp [here]

theorem forget_occupant : ((Effect.forget registry scope).apply me world).occupant place id =
    if place = registry ∧ world.occupant registry scope.id = some scope ∧ scope.id.SharesPlace id then none
    else world.occupant place id := by
  refine onRegistry_occupant.trans ?_
  by_cases here : place = registry
  · subst here
    cases found : world.registries[place]? with
    | none => simp [World.occupant, found]
    | some cell => simp [World.occupant, found, Directory.occupant_forget]
  · simp [here]

theorem shared_occupant (shares : id.SharesPlace other) : world.occupant place id = world.occupant place other := by
  unfold World.occupant
  simp only [Directory.occupant_shared shares]

-- Only beginning and forgetting a scope change who stands where.
theorem other_occupant (begins : effect.registered? = none) (forgets : ∀ registry scope, effect ≠ .forget registry scope) :
    (effect.apply me world).occupant place id = world.occupant place id := by
  cases effect with
  | register => cases begins
  | forget => exact absurd rfl (forgets _ _)
  | listen =>
    refine onRegistry_occupant.trans ?_
    split
    · rename_i here; rw [here]; rfl
    · rfl
  | establish =>
    simp only [World.occupant, Effect.apply, List.getElem?_append]
    split
    · rfl
    · rename_i beyond
      rw [List.getElem?_eq_none (Nat.le_of_not_lt beyond)]
      cases found : [(⟨_, .empty, none, .empty⟩ : Registry C)][place - world.registries.length]? with
      | none => rfl
      | some cell =>
        cases List.mem_singleton.mp (List.mem_of_getElem? found)
        obtain ⟨kind, name⟩ := id
        cases kind <;> rfl
  | _ => rfl

end

theorem Life.Step.alive {before after : Life C} {shaken aided : Prop} {scope : ScopeRef}
    (step : Step shaken aided scope before after) (alive : after.cell.state ≠ .destroyed) : before.cell.state ≠ .destroyed := by
  rcases step.state with same | ⟨me, was, now, rest, effect, items, close, cell, _⟩
  · exact same ▸ alive
  · rw [cell] at alive
    cases close with
    | retire active => simp [active]
    | mark => exact absurd rfl alive
    | _ => exact alive

namespace System
variable {before after system start : System C} {program : C.Label → Code C} {memory : C.Memory} {code : Code C}
  {scope : ScopeRef} {registry : RegistryRef}

theorem deeds_registers {id : ScopeId} (deeds : Deeds before after me (.register registry id) items) :
    (before.world.occupant registry id).any before.world.isAlive = false ∧ registry < before.world.registries.length := by
  have deed := deeds.deed
  generalize before.posture me = was at deed
  generalize after.posture me = now at deed
  cases deed with
  | plain own => cases own
  | register vacant known => exact ⟨vacant, known⟩
  | act rest act =>
    cases act with
    | build build => cases build
    | close close => cases close

theorem deeds_forgets (deeds : Deeds before after me (.forget registry scope) items) :
    .answered ∈ (before.life scope).ends me := by
  have deed := deeds.deed
  generalize isWas : before.posture me = was at deed
  generalize after.posture me = now at deed
  cases deed with
  | plain own => cases own
  | act rest act =>
    cases act with
    | build build => cases build
    | close close =>
      cases close
      simp [life, isWas, under_part]

theorem forgotten_destroyed (path : Runs (initial program memory code) before)
    (deeds : Deeds before after me (.forget registry scope) items) : before.world.isAlive scope = false := by
  have orderly := (runs_lived path scope).orderly
  have member := deeds_forgets deeds
  have destroyed := (orderly.owned (orderly.only member)).1.states _ member .destroyed rfl
  refine Bool.eq_false_iff.mpr fun alive => ?_
  exact (alive_iff.mp alive).2 destroyed

-- Each scope that stands in a registry stands at its own place, and none that is alive is missing.
structure Filed (world : World C) : Prop where
  own : ∀ registry id scope, world.occupant registry id = some scope →
    scope.registry = registry ∧ scope.id.SharesPlace id ∧ (world.scope? scope).isSome
  present : ∀ scope, world.isAlive scope = true → world.occupant scope.registry scope.id = some scope

theorem initial_filed (program : C.Label → Code C) (memory : C.Memory) : Filed (World.initial program memory) :=
  ⟨nofun, nofun⟩

theorem deeds_alive (path : Runs (initial program memory code) before) (deeds : Deeds before after me effect items)
    (known : (before.world.scope? scope).isSome) (alive : after.world.isAlive scope = true) :
    before.world.isAlive scope = true :=
  alive_iff.mpr ⟨known, (step_life path deeds scope).alive (alive_iff.mp alive).2⟩

theorem filed_register {id : ScopeId} (path : Runs (initial program memory code) before) (filed : Filed before.world)
    (deeds : Deeds before after me (.register registry id) items) : Filed after.world := by
  obtain ⟨vacant, known⟩ := deeds_registers deeds
  have now : ∀ place other, after.world.occupant place other =
      if place = registry ∧ id.SharesPlace other then some (before.world.nextScope registry id)
      else before.world.occupant place other := by
    intro place other
    rw [deeds.world, record_occupant, register_occupant known]
  have there : ∀ scope, after.world.scope? scope =
      if scope = before.world.nextScope registry id then some .fresh else before.world.scope? scope := by
    intro scope
    rw [deeds.world, record_scope?, register_scope?]
  refine ⟨fun place other scope holds => ?_, fun scope alive => ?_⟩
  · rw [now] at holds
    split at holds
    · rename_i here
      cases holds
      exact ⟨here.1.symm, here.2, by simp [there]⟩
    · obtain ⟨mine, shares, present⟩ := filed.own place other scope holds
      refine ⟨mine, shares, ?_⟩
      rw [there]
      split
      · rfl
      · exact present
  · rw [now]
    by_cases new : scope = before.world.nextScope registry id
    · subst new
      exact if_pos ⟨rfl, ScopeId.sharesPlace_refl _⟩
    · have known : (before.world.scope? scope).isSome := by
        have known := (alive_iff.mp alive).1
        rwa [there, if_neg new] at known
      have was := deeds_alive path deeds known alive
      have holds := filed.present scope was
      -- its place would have been taken
      rw [if_neg, holds]
      rintro ⟨here, shares⟩
      rw [here, ← shared_occupant shares] at holds
      simp [holds, was] at vacant

theorem filed_forget (path : Runs (initial program memory code) before) (filed : Filed before.world)
    (deeds : Deeds before after me (.forget registry scope) items) : Filed after.world := by
  have now : ∀ place id, after.world.occupant place id =
      if place = registry ∧ before.world.occupant registry scope.id = some scope ∧ scope.id.SharesPlace id then none
      else before.world.occupant place id := by
    intro place id
    rw [deeds.world, record_occupant, forget_occupant]
  have there : ∀ scope, after.world.scope? scope = before.world.scope? scope := by
    intro other
    rw [deeds.world]
    rfl
  refine ⟨fun place id other holds => ?_, fun other alive => ?_⟩
  · rw [now] at holds
    split at holds
    · cases holds
    · rw [there]
      exact filed.own place id other holds
  · have was := deeds_alive path deeds (there other ▸ (alive_iff.mp alive).1) alive
    have holds := filed.present other was
    rw [now, if_neg, holds]
    rintro ⟨here, held, shares⟩
    -- it would have been destroyed
    rw [shared_occupant shares, ← here, holds] at held
    cases Option.some.inj held
    rw [forgotten_destroyed path deeds] at was
    cases was

theorem filed_keep (path : Runs (initial program memory code) before) (filed : Filed before.world)
    (deeds : Deeds before after me effect items) (begins : effect.registered? = none)
    (forgets : ∀ registry scope, effect ≠ .forget registry scope) : Filed after.world := by
  have now : ∀ place id, after.world.occupant place id = before.world.occupant place id := by
    intro place id
    rw [deeds.world, record_occupant, other_occupant begins forgets]
  refine ⟨fun place id scope holds => ?_, fun scope alive => ?_⟩
  · rw [now] at holds
    obtain ⟨mine, shares, present⟩ := filed.own place id scope holds
    refine ⟨mine, shares, ?_⟩
    rw [deeds.world]
    exact apply_isSome present
  · have known := (alive_iff.mp alive).1
    rw [deeds.world] at known
    rw [now]
    rcases apply_known known with known | ⟨registry, id, same, _⟩
    · exact filed.present scope (deeds_alive path deeds known alive)
    · cases begins.symm.trans same

theorem preserves_filed (path : Runs (initial program memory code) before) (filed : Filed before.world)
    (deeds : Deeds before after me effect items) : Filed after.world := by
  cases effect with
  | register => exact filed_register path filed deeds
  | forget => exact filed_forget path filed deeds
  | _ => exact filed_keep path filed deeds rfl nofun

theorem runs_filed (path : Runs (initial program memory code) system) : Filed system.world := by
  induction path with
  | refl => exact initial_filed _ _
  | step path next ih =>
    obtain ⟨me, effect, items, deeds⟩ := change_deeds (step_change next) (runs_sound path)
    exact preserves_filed path ih deeds

theorem Filed.one {world : World C} {one two : ScopeRef} (filed : Filed world) (alive : world.isAlive one = true)
    (lives : world.isAlive two = true) (registry : one.registry = two.registry) (shares : one.id.SharesPlace two.id) :
    one = two := by
  have first := filed.present one alive
  have second := filed.present two lives
  rw [registry, shared_occupant shares, second] at first
  exact (Option.some.inj first).symm

theorem Filed.taken {world : World C} {id : ScopeId} (filed : Filed world) :
    (world.occupant registry id).any world.isAlive = true ↔
      ∃ scope, world.isAlive scope = true ∧ scope.registry = registry ∧ scope.id.SharesPlace id := by
  constructor
  · intro taken
    obtain ⟨scope, holds, alive⟩ := (Option.any_eq_true ..).mp taken
    obtain ⟨mine, shares, _⟩ := filed.own registry id scope holds
    exact ⟨scope, alive, mine, shares⟩
  · rintro ⟨scope, alive, rfl, shares⟩
    rw [← shared_occupant shares, filed.present scope alive]
    exact alive

-- From its registration on, the beginning of a scope can only end with that scope or in a panic.
inductive Begins (scope : ScopeRef) (base : List (Frame C)) : Thread C → Prop
  | tells (upper : List (Frame C)) : Begins scope base ⟨focus, upper ++ .begun scope :: base⟩
  | answers : Begins scope base ⟨.back (.scope scope), base⟩
  | panics {panic : Panic} : Begins scope base ⟨.unwind panic, base⟩

theorem Begins.answer {thread : Thread C} {base : List (Frame C)} {reply : Reply C} (begins : Begins scope base thread)
    (answered : thread = ⟨.back reply, base⟩) : reply = .scope scope := by
  cases begins with
  | tells upper =>
    exact absurd (congrArg Thread.frames answered) above_ne
  | answers => cases answered; rfl
  | panics => cases answered

theorem turn_begins {world : World C} {thread : Thread C} {move : Move C} {base : List (Frame C)} (turn : Turn world me thread move)
    (begins : Begins scope base thread) (unanswered : ∀ exit : Exit C, thread ≠ ⟨exit.focus, base⟩) :
    Begins scope base ⟨move.focus, move.frames⟩ := by
  cases begins with
  | answers => exact absurd rfl (unanswered (.back (.scope scope)))
  | @panics panic => exact absurd rfl (unanswered (.unwind panic))
  | tells upper =>
    rcases turn.onto rfl with ⟨more, same⟩ | ⟨rfl, exit, rfl⟩
    · rw [same]
      exact .tells more
    · cases exit with
      | back reply => cases turn; exact .answers
      | unwind panic =>
        cases turn.passes rfl
        exact .panics

theorem awaits_begins {thread : Thread C} {base : List (Frame C)} (running : start.threads[me]? = some thread)
    (begins : Begins scope base thread) (waits : Awaits me base start system) :
    ∃ thread, system.threads[me]? = some thread ∧ Begins scope base thread := by
  refine awaits_keep (P := fun _ => Begins scope base) running begins (fun _ _ _ _ _ was => was) ?_ ?_ waits
  · intro _ focus other frames rests begins
    cases begins with
    | tells upper => exact .tells upper
    | answers | panics => cases rests
  · exact fun _ _ _ _ turn _ begins unanswered => turn_begins turn begins unanswered

theorem call_advances {op : Op C} {next : Reply C → Code C} {frames : List (Frame C)} {move : Move C}
    (running : system.threads[me]? = some ⟨.run (.call op next), frames⟩)
    (calls : Move.call system.world op (.user next :: frames) = some move) :
    system.advance me = some (system.perform me (move.also (.called op))) := by
  simp [advance, running, Thread.next, Move.run, calls]

theorem begin_refused {id : ScopeId} {next : Reply C → Code C} {frames : List (Frame C)}
    (running : system.threads[me]? = some ⟨.run (.call (.begin registry id) next), frames⟩)
    (known : registry < system.world.registries.length)
    (taken : (system.world.occupant registry id).any system.world.isAlive = true) :
    system.advance me = some ⟨record system.world me [.called (.begin registry id)],
      system.threads.set me ⟨.back (.fault (.duplicate id)), .user next :: frames⟩⟩ := by
  obtain ⟨cell, found⟩ : ∃ cell, system.world.registries[registry]? = some cell := ⟨_, List.getElem?_eq_getElem known⟩
  have place : system.world.occupant registry id = cell.directory.occupant id := by simp [World.occupant, found]
  rw [place] at taken
  rw [call_advances running (by simp only [Move.call, Move.begin, found, Option.map_some, taken, if_true]; rfl)]
  rfl

theorem begin_registers {id : ScopeId} {next : Reply C → Code C} {frames : List (Frame C)}
    (running : system.threads[me]? = some ⟨.run (.call (.begin registry id) next), frames⟩)
    (known : registry < system.world.registries.length)
    (vacant : (system.world.occupant registry id).any system.world.isAlive = false) :
    system.advance me = some (system.perform me ⟨.register registry id, [.called (.begin registry id)], .emit registry (.began id),
      .begun (system.world.nextScope registry id) :: .user next :: frames⟩) := by
  obtain ⟨cell, found⟩ : ∃ cell, system.world.registries[registry]? = some cell := ⟨_, List.getElem?_eq_getElem known⟩
  have place : system.world.occupant registry id = cell.directory.occupant id := by simp [World.occupant, found]
  rw [place] at vacant
  rw [call_advances running (by simp only [Move.call, Move.begin, found, Option.map_some, vacant]; rfl)]
  rfl

theorem begin_admitted {id : ScopeId} {next : Reply C → Code C} {frames : List (Frame C)}
    (running : system.threads[me]? = some ⟨.run (.call (.begin registry id) next), frames⟩)
    (known : registry < system.world.registries.length)
    (vacant : (system.world.occupant registry id).any system.world.isAlive = false) :
    ∃ after, system.advance me = some after ∧ after.world.isActive (system.world.nextScope registry id) = true ∧
      ∀ later reply, Awaits me (.user next :: frames) after later →
        later.threads[me]? = some ⟨.back reply, .user next :: frames⟩ → reply = .scope (system.world.nextScope registry id) := by
  refine ⟨_, begin_registers running known vacant, ?_, ?_⟩
  · have there : ((Effect.register registry id).apply me system.world).scope? (system.world.nextScope registry id) =
        some .fresh := register_scope?.trans (if_pos rfl)
    show (World.scope? _ _).any _ = true
    simp only [perform, record_scope?]
    exact (congrArg (Option.any Scope.isActive) there).trans rfl
  · intro later reply waits answered
    have inside := (List.getElem?_eq_some_iff.mp running).1
    obtain ⟨thread, runs, begins⟩ := awaits_begins (List.getElem?_set_self inside) (.tells []) waits
    cases answered.symm.trans runs
    exact begins.answer rfl

-- In every reachable state a registry knows exactly the scopes that are alive, each in its own place,
-- and a begin is refused exactly if its place belongs to a scope that is alive.
theorem registered_exactly (path : Runs (initial program memory code) system) :
    (∀ one two, system.world.isAlive one = true → system.world.isAlive two = true → one.registry = two.registry →
      one.id.kind = two.id.kind → one.id.kind.isSingleSlot = true ∨ one.id.id = two.id.id → one = two) ∧
    (∀ scope, system.world.isAlive scope = true → system.world.occupant scope.registry scope.id = some scope) ∧
    (∀ registry id scope, system.world.occupant registry id = some scope →
      scope.registry = registry ∧ scope.id.kind = id.kind ∧ (id.kind.isSingleSlot = true ∨ scope.id.id = id.id) ∧
        ∃ cell, system.world.scope? scope = some cell ∧ cell.state ≠ .created) ∧
    ∀ me registry id next frames, system.threads[me]? = some ⟨.run (.call (.begin registry id) next), frames⟩ →
      registry < system.world.registries.length →
      ((∃ scope, system.world.isAlive scope = true ∧ scope.registry = registry ∧ scope.id.SharesPlace id) →
        system.advance me = some ⟨record system.world me [.called (.begin registry id)],
          system.threads.set me ⟨.back (.fault (.duplicate id)), .user next :: frames⟩⟩) ∧
      ((¬∃ scope, system.world.isAlive scope = true ∧ scope.registry = registry ∧ scope.id.SharesPlace id) →
        ∃ after, system.advance me = some after ∧
          after.world.isActive (system.world.nextScope registry id) = true ∧
          ∀ later reply, Awaits me (.user next :: frames) after later →
            later.threads[me]? = some ⟨.back reply, .user next :: frames⟩ →
            reply = .scope (system.world.nextScope registry id)) := by
  have filed := runs_filed path
  refine ⟨?_, filed.present, ?_, ?_⟩
  · intro one two alive lives registry kind single
    exact filed.one alive lives registry ⟨kind, single⟩
  · intro registry id scope holds
    obtain ⟨mine, shares, present⟩ := filed.own registry id scope holds
    obtain ⟨cell, found⟩ := Option.isSome_iff_exists.mp present
    obtain ⟨owner, ended⟩ := (runs_lived path scope).orderly
    have begun : (system.world.cell scope).state ≠ .created := ended.begun
    rw [cell_found found] at begun
    exact ⟨mine, shares.1, shares.1 ▸ shares.2, cell, found, begun⟩
  · intro me registry id next frames running known
    rw [← filed.taken]
    refine ⟨begin_refused running known, fun vacant => begin_admitted running known ?_⟩
    exact Bool.eq_false_iff.mpr vacant

def beginningTwice : System ⟨Unit, Unit, Unit, Unit⟩ :=
  initial (fun _ => .done) () <| .call (.establish {}) fun _ =>
    .call (.begin 0 ⟨.session, "a"⟩) fun _ => .call (.begin 0 ⟨.session, "a"⟩) fun _ => .done

theorem begun_twice : (run 7 beginningTwice).world.isAlive ⟨0, ⟨.session, "a"⟩, 0⟩ = true ∧
    ∃ after frames, (run 7 beginningTwice).advance 0 = some after ∧
      after.threads = [⟨.back (.fault (.duplicate ⟨.session, "a"⟩)), frames⟩] := by
  have alive : (run 7 beginningTwice).world.isAlive ⟨0, ⟨.session, "a"⟩, 0⟩ = true := by decide
  have exactly := (registered_exactly (run_runs 7 beginningTwice)).2.2.2 0 0 ⟨.session, "a"⟩ _ _ rfl (by decide)
  exact ⟨alive, _, _, exactly.1 ⟨_, alive, rfl, rfl, .inr rfl⟩, rfl⟩

end System
end Lifespan
