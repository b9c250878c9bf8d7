import Lifespan.Proofs.Awaiting

-- The same program with its registries made as loud as one likes. What is tuned is everything that holds
-- settings: the registries themselves, code that is still to establish some, and what has been logged.
namespace Lifespan
variable {C : Client}

theorem Table.same {κ α : Type} {one two : Table κ α} (entries : one.entries = two.entries) : one = two := by
  cases one; cases two; cases entries; rfl

def Table.mapValues {κ α β : Type} (f : α → β) (table : Table κ α) : Table κ β :=
  ⟨table.entries.map fun entry => (entry.1, f entry.2), by
    rw [List.map_map]
    exact table.distinct⟩

section
variable {κ α β : Type} [DecidableEq κ] {table : Table κ α} {key : κ} {value : α} {f : α → β} {change : α → α} {there : β → β}

theorem found_map (entries : List (κ × α)) :
    Table.found key (entries.map fun entry => (entry.1, f entry.2)) = (Table.found key entries).map f := by
  fun_induction Table.found key entries <;> simp_all [Table.found]

theorem placed_map (entries : List (κ × α)) :
    (Table.placed key value entries).map (fun entry => (entry.1, f entry.2)) =
      Table.placed key (f value) (entries.map fun entry => (entry.1, f entry.2)) := by
  fun_induction Table.placed key value entries <;> simp_all [Table.placed]

@[simp] theorem get?_mapValues : (table.mapValues f).get? key = (table.get? key).map f := found_map table.entries

theorem put_mapValues : (table.put key value).mapValues f = (table.mapValues f).put key (f value) :=
  Table.same (placed_map table.entries)

theorem modify_mapValues (same : ∀ value, f (change value) = there (f value)) :
    (table.modify key change).mapValues f = (table.mapValues f).modify key there := by
  unfold Table.modify
  rw [get?_mapValues]
  cases table.get? key with
  | none => rfl
  | some value => exact put_mapValues.trans (by rw [same]; rfl)

end

def Op.tuned (settings : Settings) : Op C → Op C
  | .establish _ => .establish settings
  | op => op

mutual
def Code.tuned (settings : Settings) : Code C → Code C
  | .done => .done
  | .built datum hooks => .built datum (hooks.tuned settings)
  | .fail cause => .fail cause
  | .panic panic => .panic panic
  | .jump label => .jump label
  | .note note next => .note note (next.tuned settings)
  | .access update next => .access update fun memory => (next memory).tuned settings
  | .await ready next => .await ready (next.tuned settings)
  | .awaitState scope state next => .awaitState scope state fun reply => (next reply).tuned settings
  | .pause time next => .pause time (next.tuned settings)
  | .call op next => .call (op.tuned settings) fun reply => (next reply).tuned settings
  | .listen registry listener next =>
    .listen registry (fun event => (listener event).tuned settings) (next.tuned settings)
  | .make type datum hooks next => .make type datum (hooks.tuned settings) fun reply => (next reply).tuned settings
  | .resolve request factory next =>
    .resolve request (fun scope => (factory scope).tuned settings) fun reply => (next reply).tuned settings
  | .fork count body next => .fork count (fun index => (body index).tuned settings) fun reply => (next reply).tuned settings

def Hooks.tuned (settings : Settings) : Hooks (Code C) → Hooks (Code C)
  | ⟨after, before, destroy⟩ =>
    ⟨fun scope => (after scope).tuned settings, fun scope => (before scope).tuned settings, destroy.tuned settings⟩
end

-- What is logged instead under these settings, if anything is: an event that is no failure is as loud as they ask,
-- and what is still alive at a shutdown is named if they want it.
def Record.under (settings : Settings) : Record → Option Record
  | .lifecycle event _ => some (.lifecycle event settings.lifecycleDebugging)
  | .stillAlive scope => if settings.warnOnLeftoverScopes then some (.stillAlive scope) else none
  | record => some record

def Item.under (settings : Settings) : Item C → Option (Item C)
  | .called op => some (.called (op.tuned settings))
  | .logged record => (record.under settings).map .logged
  | item => some item

def Job.tuned (settings : Settings) (job : Job C) : Job C :=
  { job with factory := fun scope => (job.factory scope).tuned settings }

def Sight.tuned (settings : Settings) : Sight C → Sight C
  | .first job => .first (job.tuned settings)
  | .inside job gate => .inside (job.tuned settings) gate
  | .peek request => .peek request
  | .holds scope key => .holds scope key

def Point.tuned (settings : Settings) : Point C → Point C
  | .sight place => .sight (place.tuned settings)
  | .shared job => .shared (job.tuned settings)

def Focus.tuned (settings : Settings) : Focus C → Focus C
  | .run code => .run (code.tuned settings)
  | .check point => .check (point.tuned settings)
  | .vouch point => .vouch (point.tuned settings)
  | .look sight => .look (sight.tuned settings)
  | .share job => .share (job.tuned settings)
  | .queue job => .queue (job.tuned settings)
  | .turn job gate => .turn (job.tuned settings) gate
  | .start job gate => .start (job.tuned settings) gate
  | .join threads next => .join threads fun reply => (next reply).tuned settings
  | focus => focus

def Frame.tuned (settings : Settings) : Frame C → Frame C
  | .user next => .user fun reply => (next reply).tuned settings
  | .factory job gate => .factory (job.tuned settings) gate
  | .created job gate object => .created (job.tuned settings) gate object
  | .welcomed job gate object => .welcomed (job.tuned settings) gate object
  | frame => frame

def Thread.tuned (settings : Settings) (thread : Thread C) : Thread C :=
  ⟨thread.focus.tuned settings, thread.frames.map (Frame.tuned settings)⟩

def Instance.tuned (settings : Settings) (made : Instance C) : Instance C :=
  { made with hooks := made.hooks.tuned settings }

def Scope.tuned (settings : Settings) (cell : Scope C) : Scope C :=
  { cell with instances := cell.instances.map (Instance.tuned settings) }

def Registry.tuned (settings : Settings) (cell : Registry C) : Registry C :=
  { cell with settings, listener := cell.listener.map fun listener event => (listener event).tuned settings }

def World.tuned (settings : Settings) (world : World C) : World C where
  program label := (world.program label).tuned settings
  memory := world.memory
  registries := world.registries.map (Registry.tuned settings)
  scopes := world.scopes.mapValues (Scope.tuned settings)
  loose := world.loose.map (Instance.tuned settings)
  history := world.history.filterMap fun one => (one.2.under settings).map (Prod.mk one.1)

def Effect.tuned (settings : Settings) : Effect C → Effect C
  | .establish _ => .establish settings
  | .listen registry listener => .listen registry (listener.map fun listener event => (listener event).tuned settings)
  | .make made => .make (made.tuned settings)
  | .keep scope key made => .keep scope key (made.tuned settings)
  | effect => effect

def Move.tuned (settings : Settings) (move : Move C) : Move C :=
  ⟨move.effect.tuned settings, move.items.filterMap (Item.under settings), move.focus.tuned settings,
    move.frames.map (Frame.tuned settings)⟩

def System.tuned (settings : Settings) (system : System C) : System C :=
  ⟨system.world.tuned settings, system.threads.map (Thread.tuned settings)⟩

variable {settings : Settings} {world : World C} {me : ThreadId} {frames : List (Frame C)}

@[simp] theorem tuned_registry (registry : RegistryRef) :
    (world.tuned settings).registries[registry]? = (world.registries[registry]?).map (Registry.tuned settings) :=
  List.getElem?_map ..

@[simp] theorem tuned_scope (scope : ScopeRef) :
    (world.tuned settings).scope? scope = (world.scope? scope).map (Scope.tuned settings) := get?_mapValues

@[simp] theorem tuned_instance (object : InstanceRef) :
    (world.tuned settings).instance? object = (world.instance? object).map (Instance.tuned settings) := by
  cases object with
  | kept scope index =>
    simp only [World.instance?, tuned_scope]
    cases world.scope? scope <;> simp [Scope.tuned]
  | loose index => exact List.getElem?_map ..

@[simp] theorem tuned_isAlive : (world.tuned settings).isAlive = world.isAlive := by
  funext scope
  simp only [World.isAlive, tuned_scope]
  cases world.scope? scope <;> rfl

@[simp] theorem tuned_isActive : (world.tuned settings).isActive = world.isActive := by
  funext scope
  simp only [World.isActive, tuned_scope]
  cases world.scope? scope <;> rfl

@[simp] theorem tuned_occupant : (world.tuned settings).occupant = world.occupant := by
  funext registry id
  simp only [World.occupant, tuned_registry]
  cases world.registries[registry]? <;> rfl

@[simp] theorem tuned_registered : (world.tuned settings).registered = world.registered := by
  funext registry id
  simp only [World.registered, tuned_occupant]

@[simp] theorem tuned_lookup : (world.tuned settings).lookup = world.lookup := by
  funext registry id
  simp only [World.lookup, tuned_registered, tuned_isActive]

@[simp] theorem tuned_current : (world.tuned settings).current = world.current := by
  funext registry context kind
  simp only [World.current, tuned_occupant, tuned_isActive]

@[simp] theorem tuned_living : (world.tuned settings).living = world.living := by
  funext registry kind
  simp only [World.living, tuned_registry, tuned_isAlive]
  cases world.registries[registry]? <;> rfl

@[simp] theorem tuned_activeCount : (world.tuned settings).activeCount = world.activeCount := by
  funext registry kind
  simp only [World.activeCount, tuned_living]

@[simp] theorem tuned_ids : (world.tuned settings).ids = world.ids := by
  funext registry kind
  simp only [World.ids, tuned_living]

@[simp] theorem tuned_leftovers : (world.tuned settings).leftovers = world.leftovers := by
  funext registry
  simp only [World.leftovers, tuned_ids]

@[simp] theorem tuned_hasLiving : (world.tuned settings).hasLiving = world.hasLiving := by
  funext registry
  simp only [World.hasLiving, tuned_activeCount]

@[simp] theorem tuned_nextScope : (world.tuned settings).nextScope = world.nextScope := by
  funext registry id
  simp only [World.nextScope, tuned_registry]
  cases world.registries[registry]? <;> rfl

@[simp] theorem tuned_nextInstance : (world.tuned settings).nextInstance = world.nextInstance := by
  funext scope
  simp only [World.nextInstance, tuned_scope]
  cases world.scope? scope <;> simp [Scope.tuned]

theorem tuned_hooks (hooks : Hooks (Code C)) (call : HookCall) : (hooks.tuned settings).code call = (hooks.code call).tuned settings := by
  obtain ⟨after, before, destroy⟩ := hooks
  cases call <;> simp [Hooks.tuned, Hooks.code]

theorem read_tuned {op : Op C} (other : ∀ registry, op ≠ .settings registry) : (world.tuned settings).read op = world.read op := by
  cases op with
  | settings registry => exact absurd rfl (other registry)
  | state scope | keys scope | count scope | attributeNames scope | getAttribute scope =>
    simp only [World.read, tuned_scope, Option.map_map]
    rfl
  | contents object =>
    simp only [World.read, tuned_instance, Option.map_map]
    rfl
  | _ => simp [World.read]

theorem registries_tuned {registry : RegistryRef} {change there : Registry C → Registry C}
    (same : ∀ cell, (change cell).tuned settings = there (cell.tuned settings)) :
    (world.onRegistry registry change).registries.map (Registry.tuned settings) =
      ((world.tuned settings).onRegistry registry there).registries := by
  refine List.ext_getElem? fun index => ?_
  simp only [World.onRegistry, World.tuned, List.getElem?_map, List.getElem?_modify]
  cases world.registries[index]? with
  | none => rfl
  | some cell =>
    by_cases here : registry = index
    · simp [here, same]
    · simp [here]

theorem onRegistry_tuned {registry : RegistryRef} {change there : Registry C → Registry C}
    (same : ∀ cell, (change cell).tuned settings = there (cell.tuned settings)) :
    (world.onRegistry registry change).tuned settings = (world.tuned settings).onRegistry registry there :=
  (World.mk.injEq ..).mpr ⟨rfl, rfl, registries_tuned same, rfl, rfl, rfl⟩

theorem onScope_tuned {scope : ScopeRef} {change there : Scope C → Scope C}
    (same : ∀ cell, (change cell).tuned settings = there (cell.tuned settings)) :
    (world.onScope scope change).tuned settings = (world.tuned settings).onScope scope there := by
  simp only [World.onScope, World.tuned, World.mk.injEq, true_and, and_true]
  exact modify_mapValues same

theorem apply_tuned (effect : Effect C) :
    (effect.apply me world).tuned settings = (effect.tuned settings).apply me (world.tuned settings) := by
  cases effect with
  | still | remember => rfl
  | establish => simp [Effect.apply, Effect.tuned, World.tuned, Registry.tuned]
  | make => simp [Effect.apply, Effect.tuned, World.tuned]
  | listen | forget => exact onRegistry_tuned fun _ => rfl
  | keep => exact onScope_tuned fun cell => by simp [Scope.tuned, Scope.kept, Instance.tuned]
  | register registry id =>
    simp only [Effect.apply, Effect.tuned, tuned_nextScope]
    exact (World.mk.injEq ..).mpr ⟨rfl, rfl, registries_tuned fun _ => rfl, put_mapValues, rfl, rfl⟩
  | _ => exact onScope_tuned fun _ => rfl

end Lifespan
