import Lifespan.Proofs.DivisionSteps

-- What one task does to the shared world, no other task can tell; and where the world looks the same to it
-- before, it looks the same afterwards.
namespace Lifespan
variable {C : Client} {division : Division C} {me other : ThreadId} {world one two : World C} {scope : ScopeRef}
  {registry place : RegistryRef} {effect : Effect C} {items : List (Item C)} {change : Scope C → Scope C}

theorem targeted_apply (target : effect.target? = some scope) : effect.apply me world = world.onScope scope (effect.change me) := by
  cases effect <;> cases target <;> rfl

theorem apply_program : (effect.apply me world).program = world.program := by cases effect <;> rfl

theorem onRegistry_same {α : Type} {field : Registry C → α} {change : Registry C → Registry C}
    (kept : ∀ cell, field (change cell) = field cell) :
    ((world.onRegistry registry change).registries[place]?).map field = (world.registries[place]?).map field := by
  simp only [World.onRegistry, List.getElem?_modify]
  cases world.registries[place]? with
  | none => rfl
  | some cell => simp only [Option.map_eq_map, Option.map_some]; split <;> simp [kept]

theorem Effect.Within.target (within : effect.Within division me) (target : effect.target? = some scope) : division.Owns me scope := by
  cases effect with
  | keep => cases target; exact within.1
  | still | remember | establish | listen | register | forget | make => cases target
  | _ => exact within scope target

-- A task changes what stands in a registry, but not how it is set up.
theorem Effect.Within.setting {α : Type} {field : Registry C → α} (within : effect.Within division me)
    (kept : ∀ settings was now listener begun counted, field ⟨settings, was, listener, begun⟩ = field ⟨settings, now, listener, counted⟩) :
    ((effect.apply other world).registries[place]?).map field = (world.registries[place]?).map field := by
  cases effect with
  | register | forget => exact onRegistry_same fun _ => kept _ _ _ _ _ _
  | establish | listen | make => exact within.elim
  | _ => rfl

theorem Divided.known (divided : Divided division world) : division.registry < world.registries.length := by
  obtain ⟨cell, found, _⟩ := divided.registry
  exact (List.getElem?_eq_some_iff.mp found).1

theorem onScope_apart (his : division.Owns other scope) (apart : other ≠ me) : Agrees division me world (world.onScope scope change) where
  program := rfl
  part := rfl
  scopes _ mine := onScope_scope?.trans (if_neg fun same => apart (Division.Owns.alone (same ▸ mine) his))
  occupant _ _ := rfl
  next _ _ := rfl
  settings := rfl
  listener := rfl

theorem register_apart {id : ScopeId} (divided : Divided division world) (his : division.owner id = other) (apart : other ≠ me) :
    Agrees division me world ((Effect.register division.registry id).apply other world) where
  program := rfl
  part := rfl
  scopes one mine := register_scope?.trans (if_neg fun same => apart (by rw [← his, ← mine.2, same]; rfl))
  occupant one mine := by
    rw [register_occupant divided.known]
    exact if_neg fun both => apart (his.symm.trans ((division.places _ _ both.2).trans mine))
  next one mine := by
    rw [register_next divided.known]
    exact if_neg fun both => apart (by rw [← his, ← mine, both.2])
  settings := onRegistry_same fun _ => rfl
  listener := onRegistry_same fun _ => rfl

theorem forget_apart (his : division.Owns other scope) (apart : other ≠ me) :
    Agrees division me world ((Effect.forget division.registry scope).apply other world) where
  program := rfl
  part := rfl
  scopes _ _ := rfl
  occupant one mine := by
    rw [forget_occupant]
    exact if_neg fun all => apart (his.2.symm.trans ((division.places _ _ all.2.2).trans mine))
  next _ _ := ordinary_next rfl
  settings := onRegistry_same fun _ => rfl
  listener := onRegistry_same fun _ => rfl

theorem apply_apart (divided : Divided division world) (within : effect.Within division other) (apart : other ≠ me) :
    Agrees division me world (effect.apply other world) := by
  cases target : effect.target? with
  | some scope =>
    rw [targeted_apply target]
    exact onScope_apart (within.target target) apart
  | none =>
    cases effect with
    | still => exact .refl world
    | remember update => exact { Agrees.refl world with part := within.others me apart.symm _ }
    | register registry id =>
      obtain ⟨rfl, his⟩ := within
      exact register_apart divided his apart
    | forget registry scope =>
      obtain ⟨rfl, his⟩ := within
      exact forget_apart his apart
    | establish | listen | make => exact within.elim
    | _ => cases target

theorem onScope_agrees (agrees : Agrees division me one two) (mine : division.Owns me scope) :
    Agrees division me (one.onScope scope change) (two.onScope scope change) :=
  { agrees with scopes := fun other his => by simp only [onScope_scope?, agrees.scopes scope mine, agrees.scopes other his] }

theorem apply_setting {α : Type} {field : Registry C → α} (effect : Effect C) (within : effect.Within division me)
    (kept : ∀ settings was now listener begun counted, field ⟨settings, was, listener, begun⟩ = field ⟨settings, now, listener, counted⟩)
    (same : (two.registries[place]?).map field = (one.registries[place]?).map field) :
    ((effect.apply me two).registries[place]?).map field = ((effect.apply me one).registries[place]?).map field := by
  rw [within.setting kept, within.setting kept, same]

theorem register_agrees {id : ScopeId} (divided : Divided division one) (too : Divided division two) (agrees : Agrees division me one two)
    (mine : division.owner id = me) : Agrees division me ((Effect.register division.registry id).apply me one)
      ((Effect.register division.registry id).apply me two) where
  program := agrees.program
  part := agrees.part
  scopes other his := by simp only [register_scope?, agrees.next id mine, agrees.scopes other his]
  occupant other his := by
    rw [register_occupant divided.known, register_occupant too.known, agrees.next id mine, agrees.occupant other his]
  next other his := by rw [register_next divided.known, register_next too.known, agrees.next id mine, agrees.next other his]
  settings := apply_setting (.register division.registry id) ⟨rfl, mine⟩ (fun _ _ _ _ _ _ => rfl) agrees.settings
  listener := apply_setting (.register division.registry id) ⟨rfl, mine⟩ (fun _ _ _ _ _ _ => rfl) agrees.listener

theorem forget_agrees (agrees : Agrees division me one two) (mine : division.Owns me scope) :
    Agrees division me ((Effect.forget division.registry scope).apply me one) ((Effect.forget division.registry scope).apply me two) where
  program := agrees.program
  part := agrees.part
  scopes := agrees.scopes
  occupant other his := by rw [forget_occupant, forget_occupant, agrees.occupant _ mine.2, agrees.occupant other his]
  next other his := by
    rw [ordinary_next rfl, ordinary_next rfl]
    exact agrees.next other his
  settings := apply_setting (.forget division.registry scope) ⟨rfl, mine⟩ (fun _ _ _ _ _ _ => rfl) agrees.settings
  listener := apply_setting (.forget division.registry scope) ⟨rfl, mine⟩ (fun _ _ _ _ _ _ => rfl) agrees.listener

theorem apply_agrees (divided : Divided division one) (too : Divided division two) (agrees : Agrees division me one two)
    (within : effect.Within division me) : Agrees division me (effect.apply me one) (effect.apply me two) := by
  cases target : effect.target? with
  | some scope =>
    rw [targeted_apply target, targeted_apply target]
    exact onScope_agrees agrees (within.target target)
  | none =>
    cases effect with
    | still => exact agrees
    | remember update => exact { agrees with part := within.own _ _ agrees.part }
    | register registry id =>
      obtain ⟨rfl, mine⟩ := within
      exact register_agrees divided too agrees mine
    | forget registry scope =>
      obtain ⟨rfl, mine⟩ := within
      exact forget_agrees agrees mine
    | establish | listen | make => exact within.elim
    | _ => cases target

theorem fresh_within : (Scope.fresh : Scope C).Within division me := ⟨nofun, nofun⟩

theorem kept_within {cell : Scope C} {key : String} {made : Instance C} (stored : cell.Within division me) (mine : division.Owns me scope)
    (hooks : made.hooks.Within division me) : (cell.kept scope key made).Within division me where
  hooks := by
    intro any member
    rcases List.mem_append.mp member with old | new
    · exact stored.hooks any old
    · cases List.mem_singleton.mp new
      exact hooks
  entries := by
    intro asked entry found
    rw [kept_get?, Option.or_eq_some_iff] at found
    rcases found with old | ⟨_, new⟩
    · exact stored.entries asked entry old
    · split at new
      · cases new
        exact mine
      · cases new

theorem change_within {cell : Scope C} (stored : cell.Within division me) (within : effect.Within division me) :
    (effect.change me cell).Within division me := by
  cases effect with
  | keep => exact kept_within stored within.1 within.2
  | empty => exact ⟨stored.hooks, nofun⟩
  | _ => exact ⟨stored.hooks, stored.entries⟩

theorem onScope_divided (divided : Divided division world) (mine : division.Owns me scope)
    (within : ∀ cell : Scope C, cell.Within division me → (change cell).Within division me) :
    Divided division (world.onScope scope change) where
  scopes he other cell his found := by
    rw [onScope_scope?] at found
    split at found
    · rename_i same
      subst same
      obtain ⟨old, known, rfl⟩ := Option.map_eq_some_iff.mp found
      cases mine.alone his
      exact within old (divided.scopes _ _ old his known)
    · exact divided.scopes he other cell his found
  occupant := divided.occupant
  program := divided.program
  registry := divided.registry

theorem onRegistry_listens {change : Registry C → Registry C} (divided : Divided division world)
    (kept : ∀ cell, (change cell).listener = cell.listener) :
    ∃ cell, (world.onRegistry registry change).registries[division.registry]? = some cell ∧
      ∀ listener, cell.listener = some listener → ∀ event, division.Hears world.program (listener event) := by
  obtain ⟨cell, found, quiet⟩ := divided.registry
  have same : ((world.onRegistry registry change).registries[division.registry]?).map Registry.listener = _ := onRegistry_same kept
  rw [found] at same
  obtain ⟨now, there, listens⟩ := Option.map_eq_some_iff.mp same
  exact ⟨now, there, fun listener hears => quiet listener (listens ▸ hears)⟩

theorem register_divided {id : ScopeId} (divided : Divided division world) :
    Divided division ((Effect.register division.registry id).apply me world) where
  scopes he other cell his found := by
    rw [register_scope?] at found
    split at found
    · cases found
      exact fresh_within
    · exact divided.scopes he other cell his found
  occupant other scope holds := by
    rw [register_occupant divided.known] at holds
    split at holds
    · rename_i both
      cases holds
      exact ⟨rfl, division.places _ _ both.2⟩
    · exact divided.occupant other scope holds
  program := divided.program
  registry := onRegistry_listens divided fun _ => rfl

theorem forget_divided (divided : Divided division world) : Divided division ((Effect.forget registry scope).apply me world) where
  scopes := divided.scopes
  occupant other one holds := by
    rw [forget_occupant] at holds
    split at holds
    · cases holds
    · exact divided.occupant other one holds
  program := divided.program
  registry := onRegistry_listens divided fun _ => rfl

theorem apply_divided (divided : Divided division world) (within : effect.Within division me) : Divided division (effect.apply me world) := by
  cases target : effect.target? with
  | some scope =>
    rw [targeted_apply target]
    exact onScope_divided divided (within.target target) fun _ stored => change_within stored within
  | none =>
    cases effect with
    | still => exact divided
    | remember => exact ⟨divided.scopes, divided.occupant, divided.program, divided.registry⟩
    | register registry id =>
      obtain ⟨rfl, _⟩ := within
      exact register_divided divided
    | forget => exact forget_divided divided
    | establish | listen | make => exact within.elim
    | _ => cases target

end Lifespan
