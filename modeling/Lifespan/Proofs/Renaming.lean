import Mathlib.Data.List.Nodup
import Mathlib.Logic.Equiv.Basic
import Lifespan.Proofs.Tuning

-- The same program with two kinds exchanged. Whatever carries the identity of a scope carries it with the other
-- kind and the same id: references, faults, events, what is logged, and all code with what it is handed and
-- what it gives back.
namespace Lifespan
variable {C : Client}

section
variable (swap : Kind → Kind)

def ScopeId.renamed (id : ScopeId) : ScopeId := { id with kind := swap id.kind }

def ScopeRef.renamed (scope : ScopeRef) : ScopeRef := { scope with id := scope.id.renamed swap }

def InstanceRef.renamed : InstanceRef → InstanceRef
  | kept scope index => kept (scope.renamed swap) index
  | loose index => loose index

mutual
def Fault.renamed : Fault → Fault
  | .duplicate scope => .duplicate (scope.renamed swap)
  | .unknown scope => .unknown (scope.renamed swap)
  | .inactive scope => .inactive (scope.renamed swap)
  | .mismatch scope key expected => .mismatch (scope.renamed swap) key expected
  | .cyclic scope key => .cyclic (scope.renamed swap) key
  | .construction scope key cause => .construction (scope.renamed swap) key cause.renamed
  | .destruction failures => .destruction (renamedAll failures)

def Cause.renamed : Cause → Cause
  | .words message behind => .words message behind
  | .fault fault => .fault fault.renamed
  | .shutdown failures => .shutdown (renamedAll failures)

def Failure.renamed : Failure → Failure
  | .hook scope key phase cause => .hook (scope.renamed swap) key phase cause.renamed

def renamedAll : List Failure → List Failure
  | [] => []
  | failure :: rest => failure.renamed :: renamedAll rest
end

def Event.renamed : Event → Event
  | began scope => began (scope.renamed swap)
  | ended scope failures => ended (scope.renamed swap) failures
  | created scope key => created (scope.renamed swap) key
  | destroyed scope key => destroyed (scope.renamed swap) key
  | destroyFailed scope key => destroyFailed (scope.renamed swap) key
  | shutdown remaining => shutdown remaining

def Record.renamed : Record → Record
  | lifecycle event debugging => lifecycle (event.renamed swap) debugging
  | destroyFailed scope key => destroyFailed (scope.renamed swap) key
  | endedWithFailures scope failures => endedWithFailures (scope.renamed swap) failures
  | hookFailed failure => hookFailed (failure.renamed swap)
  | constructionFailed scope key cause => constructionFailed (scope.renamed swap) key (cause.renamed swap)
  | stillAlive scope => stillAlive (scope.renamed swap)
  | guardFailed scope fault => guardFailed (scope.renamed swap) (fault.renamed swap)
  | dropFailed failures => dropFailed (renamedAll swap failures)

def Entry.renamed (entry : Entry) : Entry := { entry with object := entry.object.renamed swap }

def entriesRenamed (entries : List (String × Entry)) : List (String × Entry) :=
  entries.map fun one => (one.1, one.2.renamed swap)

def Store.renamed (store : Store) : Store := { store with entries := store.entries.mapValues (Entry.renamed swap) }

def Context.renamed (context : Context) : Context := ⟨fun kind => (context.bound (swap kind)).map (ScopeRef.renamed swap)⟩

def Guard.renamed (guard : Guard) : Guard := { guard with scope := guard.scope.renamed swap }

def HookCall.renamed : HookCall → HookCall
  | after object scope => after (object.renamed swap) (scope.renamed swap)
  | before object scope => before (object.renamed swap) (scope.renamed swap)
  | destroy object => destroy (object.renamed swap)

def Ending.renamed : Ending → Ending
  | finished => finished
  | failed cause => failed (cause.renamed swap)
  | panicked panic => panicked panic

def Request.renamed (request : Request) : Request := { request with scope := request.scope.renamed swap }

def Teardown.renamed (teardown : Teardown) : Teardown :=
  ⟨teardown.scope.renamed swap, entriesRenamed swap teardown.entries, teardown.phase, entriesRenamed swap teardown.rest,
    renamedAll swap teardown.failures, teardown.failed⟩

-- Everyone who lives there moves to the place of the new identity.
def Directory.renamed (directory : Directory) : Directory :=
  ((Kind.all.flatMap directory.residents).map (ScopeRef.renamed swap)).foldl .place .empty

end

structure Exchange (C : Client) where
  one : Kind
  two : Kind
  memory : C.Memory → C.Memory
  note : C.Note → C.Note
  datum : C.Datum → C.Datum
  label : C.Label → C.Label
  memory_again : Function.Involutive memory
  datum_again : Function.Involutive datum
  label_again : Function.Involutive label

namespace Exchange

def swap (exchange : Exchange C) : Kind → Kind := Equiv.swap exchange.one exchange.two

def plain (one two : Kind) : Exchange C := ⟨one, two, id, id, id, id, fun _ => rfl, fun _ => rfl, fun _ => rfl⟩

theorem swap_again (exchange : Exchange C) : Function.Involutive exchange.swap := Equiv.swap_apply_self _ _

end Exchange

section
variable (exchange : Exchange C)

def Attribute.renamed (value : Attribute C) : Attribute C := { value with datum := exchange.datum value.datum }

def Op.renamed : Op C → Op C
  | .establish asked => .establish asked
  | .settings registry => .settings registry
  | .silence registry => .silence registry
  | .begin registry scope => .begin registry (scope.renamed exchange.swap)
  | .finish registry scope => .finish registry (scope.renamed exchange.swap)
  | .endGuard guard => .endGuard (guard.renamed exchange.swap)
  | .dropGuard guard => .dropGuard (guard.renamed exchange.swap)
  | .lookup registry scope => .lookup registry (scope.renamed exchange.swap)
  | .require registry scope => .require registry (scope.renamed exchange.swap)
  | .current registry context kind => .current registry (context.renamed exchange.swap) (exchange.swap kind)
  | .requireCurrent registry context kind => .requireCurrent registry (context.renamed exchange.swap) (exchange.swap kind)
  | .activeCount registry kind => .activeCount registry (exchange.swap kind)
  | .ids registry kind => .ids registry (exchange.swap kind)
  | .shutdown registry => .shutdown registry
  | .drop registry => .drop registry
  | .state scope => .state (scope.renamed exchange.swap)
  | .keys scope => .keys (scope.renamed exchange.swap)
  | .count scope => .count (scope.renamed exchange.swap)
  | .peek scope key type => .peek (scope.renamed exchange.swap) key type
  | .holds scope key => .holds (scope.renamed exchange.swap) key
  | .setAttribute scope name value => .setAttribute (scope.renamed exchange.swap) name (value.renamed exchange)
  | .getAttribute scope name type => .getAttribute (scope.renamed exchange.swap) name type
  | .removeAttribute scope name => .removeAttribute (scope.renamed exchange.swap) name
  | .attributeNames scope => .attributeNames (scope.renamed exchange.swap)
  | .contents object => .contents (object.renamed exchange.swap)
  | .destroyAll scope store => .destroyAll (scope.renamed exchange.swap) (store.renamed exchange.swap)
  | .invoke call => .invoke (call.renamed exchange.swap)

def Reply.renamed : Reply C → Reply C
  | .scope handle => .scope (handle.renamed exchange.swap)
  | .object made => .object (made.renamed exchange.swap)
  | .contents datum => .contents (exchange.datum datum)
  | .fault reason => .fault (reason.renamed exchange.swap)
  | .failures list => .failures (renamedAll exchange.swap list)
  | .failed cause => .failed (cause.renamed exchange.swap)
  | .threads endings => .threads (endings.map fun one => (one.1, one.2.renamed exchange.swap))
  | reply => reply

-- Code that is handed something new is asked for what it would do with the old, and does that renamed.
mutual
def Code.renamed : Code C → Code C
  | .done => .done
  | .built datum hooks => .built (exchange.datum datum) hooks.renamed
  | .fail cause => .fail (cause.renamed exchange.swap)
  | .panic panic => .panic panic
  | .jump label => .jump (exchange.label label)
  | .note note next => .note (exchange.note note) next.renamed
  | .access update next =>
    .access (fun memory => exchange.memory (update (exchange.memory memory))) fun memory => (next (exchange.memory memory)).renamed
  | .await ready next => .await (fun memory => ready (exchange.memory memory)) next.renamed
  | .awaitState scope state next =>
    .awaitState (scope.renamed exchange.swap) state fun reply => (next (reply.renamed exchange)).renamed
  | .pause time next => .pause time next.renamed
  | .call op next => .call (op.renamed exchange) fun reply => (next (reply.renamed exchange)).renamed
  | .listen registry listener next =>
    .listen registry (fun event => (listener (event.renamed exchange.swap)).renamed) next.renamed
  | .make type datum hooks next =>
    .make type (exchange.datum datum) hooks.renamed fun reply => (next (reply.renamed exchange)).renamed
  | .resolve request factory next =>
    .resolve (request.renamed exchange.swap) (fun scope => (factory (scope.renamed exchange.swap)).renamed)
      fun reply => (next (reply.renamed exchange)).renamed
  | .fork count body next =>
    .fork count (fun index => (body index).renamed) fun reply => (next (reply.renamed exchange)).renamed

def Hooks.renamed : Hooks (Code C) → Hooks (Code C)
  | ⟨after, before, destroy⟩ =>
    ⟨fun scope => (after (scope.renamed exchange.swap)).renamed, fun scope => (before (scope.renamed exchange.swap)).renamed,
      destroy.renamed⟩
end

def Item.renamed : Item C → Item C
  | .note written => .note (exchange.note written)
  | .called op => .called (op.renamed exchange)
  | .logged record => .logged (record.renamed exchange.swap)
  | .emitted registry event => .emitted registry (event.renamed exchange.swap)
  | .delivered registry event => .delivered registry (event.renamed exchange.swap)
  | .listenerPanicked registry event => .listenerPanicked registry (event.renamed exchange.swap)
  | .factory scope key => .factory (scope.renamed exchange.swap) key
  | .stored scope key object => .stored (scope.renamed exchange.swap) key (object.renamed exchange.swap)
  | .hook call => .hook (call.renamed exchange.swap)

def Job.renamed (job : Job C) : Job C :=
  ⟨job.request.renamed exchange.swap, fun scope => (job.factory (scope.renamed exchange.swap)).renamed exchange⟩

def Sight.renamed : Sight C → Sight C
  | .first job => .first (job.renamed exchange)
  | .inside job gate => .inside (job.renamed exchange) gate
  | .peek request => .peek (request.renamed exchange.swap)
  | .holds scope key => .holds (scope.renamed exchange.swap) key

def Point.renamed : Point C → Point C
  | .sight place => .sight (place.renamed exchange)
  | .shared job => .shared (job.renamed exchange)

def Exit.renamed : Exit C → Exit C
  | .back reply => .back (reply.renamed exchange)
  | .unwind panic => .unwind panic

def Focus.renamed : Focus C → Focus C
  | .run code => .run (code.renamed exchange)
  | .back reply => .back (reply.renamed exchange)
  | .unwind panic => .unwind panic
  | .emit registry event => .emit registry (event.renamed exchange.swap)
  | .deliver registry event => .deliver registry (event.renamed exchange.swap)
  | .check point => .check (point.renamed exchange)
  | .vouch point => .vouch (point.renamed exchange)
  | .look sight => .look (sight.renamed exchange)
  | .share job => .share (job.renamed exchange)
  | .queue job => .queue (job.renamed exchange)
  | .turn job gate => .turn (job.renamed exchange) gate
  | .start job gate => .start (job.renamed exchange) gate
  | .leave scope hold exit => .leave (scope.renamed exchange.swap) hold (exit.renamed exchange)
  | .find registry id => .find registry (id.renamed exchange.swap)
  | .retire scope => .retire (scope.renamed exchange.swap)
  | .exclude scope => .exclude (scope.renamed exchange.swap)
  | .empty scope => .empty (scope.renamed exchange.swap)
  | .clear scope entries => .clear (scope.renamed exchange.swap) (entriesRenamed exchange.swap entries)
  | .tear teardown => .tear (teardown.renamed exchange.swap)
  | .settle scope failures => .settle (scope.renamed exchange.swap) (renamedAll exchange.swap failures)
  | .mark scope failures => .mark (scope.renamed exchange.swap) (renamedAll exchange.swap failures)
  | .reopen scope exit => .reopen (scope.renamed exchange.swap) (exit.renamed exchange)
  | .forget registry scope reply => .forget registry (scope.renamed exchange.swap) (reply.renamed exchange)
  | .gather registry => .gather registry
  | .assign scope name value => .assign (scope.renamed exchange.swap) name (value.renamed exchange)
  | .join threads next => .join threads fun reply => (next (reply.renamed exchange)).renamed exchange

def Frame.renamed : Frame C → Frame C
  | .user next => .user fun reply => (next (reply.renamed exchange)).renamed exchange
  | .delivering registry event => .delivering registry (event.renamed exchange.swap)
  | .begun scope => .begun (scope.renamed exchange.swap)
  | .factory job gate => .factory (job.renamed exchange) gate
  | .created job gate object => .created (job.renamed exchange) gate (object.renamed exchange.swap)
  | .welcomed job gate object => .welcomed (job.renamed exchange) gate (object.renamed exchange.swap)
  | .hooked teardown key => .hooked (teardown.renamed exchange.swap) key
  | .reported teardown => .reported (teardown.renamed exchange.swap)
  | .torn scope => .torn (scope.renamed exchange.swap)
  | .closed scope failures => .closed (scope.renamed exchange.swap) (renamedAll exchange.swap failures)
  | .ended registry scope => .ended registry (scope.renamed exchange.swap)
  | .sweeping registry rest failures =>
    .sweeping registry (rest.map (ScopeId.renamed exchange.swap)) (renamedAll exchange.swap failures)
  | .dropped => .dropped
  | .released guard => .released (guard.renamed exchange.swap)
  | .invoked call => .invoked (call.renamed exchange.swap)

def Thread.renamed (thread : Thread C) : Thread C := ⟨thread.focus.renamed exchange, thread.frames.map (Frame.renamed exchange)⟩

def Instance.renamed (made : Instance C) : Instance C := ⟨made.type, exchange.datum made.datum, made.hooks.renamed exchange⟩

def Scope.renamed (cell : Scope C) : Scope C :=
  { cell with
    store := cell.store.renamed exchange.swap
    attributes := cell.attributes.mapValues (Attribute.renamed exchange)
    instances := cell.instances.map (Instance.renamed exchange) }

end

def Table.mapKeys {κ α : Type} {f : κ → κ} (again : Function.Involutive f) (table : Table κ α) : Table κ α :=
  ⟨table.entries.map fun entry => (f entry.1, entry.2), by
    have keys : (table.entries.map fun entry => (f entry.1, entry.2)).map Prod.fst = (table.entries.map Prod.fst).map f := by
      simp [Function.comp_def]
    rw [keys]
    exact List.Nodup.map again.injective table.distinct⟩

theorem ScopeId.renamed_again {swap : Kind → Kind} (again : Function.Involutive swap) :
    Function.Involutive (ScopeId.renamed swap) := fun id => by simp [ScopeId.renamed, again id.kind]

theorem ScopeRef.renamed_again {swap : Kind → Kind} (again : Function.Involutive swap) :
    Function.Involutive (ScopeRef.renamed swap) := fun scope => by simp [ScopeRef.renamed, ScopeId.renamed_again again scope.id]

section
variable (exchange : Exchange C)

def Registry.renamed (cell : Registry C) : Registry C where
  settings := cell.settings
  directory := cell.directory.renamed exchange.swap
  listener := cell.listener.map fun listener event => (listener (event.renamed exchange.swap)).renamed exchange
  begun := cell.begun.mapKeys (ScopeId.renamed_again exchange.swap_again)

def World.renamed (world : World C) : World C where
  program label := (world.program (exchange.label label)).renamed exchange
  memory := exchange.memory world.memory
  registries := world.registries.map (Registry.renamed exchange)
  scopes := (world.scopes.mapValues (Scope.renamed exchange)).mapKeys (ScopeRef.renamed_again exchange.swap_again)
  loose := world.loose.map (Instance.renamed exchange)
  history := world.history.map fun one => (one.1, one.2.renamed exchange)

def Effect.renamed : Effect C → Effect C
  | .still => .still
  | .remember update => .remember fun memory => exchange.memory (update (exchange.memory memory))
  | .establish asked => .establish asked
  | .listen registry listener =>
    .listen registry (listener.map fun listener event => (listener (event.renamed exchange.swap)).renamed exchange)
  | .register registry id => .register registry (id.renamed exchange.swap)
  | .forget registry scope => .forget registry (scope.renamed exchange.swap)
  | .retire scope => .retire (scope.renamed exchange.swap)
  | .mark scope => .mark (scope.renamed exchange.swap)
  | .share scope => .share (scope.renamed exchange.swap)
  | .unshare scope => .unshare (scope.renamed exchange.swap)
  | .exclude scope => .exclude (scope.renamed exchange.swap)
  | .reopen scope => .reopen (scope.renamed exchange.swap)
  | .empty scope => .empty (scope.renamed exchange.swap)
  | .clearGates scope => .clearGates (scope.renamed exchange.swap)
  | .queue scope key => .queue (scope.renamed exchange.swap) key
  | .seize scope gate => .seize (scope.renamed exchange.swap) gate
  | .yield scope gate => .yield (scope.renamed exchange.swap) gate
  | .start scope key => .start (scope.renamed exchange.swap) key
  | .finish scope key => .finish (scope.renamed exchange.swap) key
  | .make made => .make (made.renamed exchange)
  | .keep scope key made => .keep (scope.renamed exchange.swap) key (made.renamed exchange)
  | .setAttribute scope name value => .setAttribute (scope.renamed exchange.swap) name (value.renamed exchange)
  | .removeAttribute scope name => .removeAttribute (scope.renamed exchange.swap) name
  | .clearAttributes scope => .clearAttributes (scope.renamed exchange.swap)

def Move.renamed (move : Move C) : Move C :=
  ⟨move.effect.renamed exchange, move.items.map (Item.renamed exchange), move.focus.renamed exchange,
    move.frames.map (Frame.renamed exchange)⟩

def System.renamed (system : System C) : System C :=
  ⟨system.world.renamed exchange, system.threads.map (Thread.renamed exchange)⟩

end

mutual
theorem Fault.renamed_again {swap : Kind → Kind} (again : Function.Involutive swap) :
    ∀ fault : Fault, (fault.renamed swap).renamed swap = fault
  | .duplicate scope => congrArg Fault.duplicate (ScopeId.renamed_again again scope)
  | .unknown scope => congrArg Fault.unknown (ScopeId.renamed_again again scope)
  | .inactive scope => congrArg Fault.inactive (ScopeId.renamed_again again scope)
  | .mismatch scope key expected => congrArg (Fault.mismatch · key expected) (ScopeId.renamed_again again scope)
  | .cyclic scope key => congrArg (Fault.cyclic · key) (ScopeId.renamed_again again scope)
  | .construction scope _ cause =>
    (Fault.construction.injEq ..).mpr ⟨ScopeId.renamed_again again scope, rfl, cause.renamed_again again⟩
  | .destruction failures => congrArg Fault.destruction (renamedAll_again again failures)

theorem Cause.renamed_again {swap : Kind → Kind} (again : Function.Involutive swap) :
    ∀ cause : Cause, (cause.renamed swap).renamed swap = cause
  | .words _ _ => rfl
  | .fault fault => congrArg Cause.fault (fault.renamed_again again)
  | .shutdown failures => congrArg Cause.shutdown (renamedAll_again again failures)

theorem Failure.renamed_again {swap : Kind → Kind} (again : Function.Involutive swap) :
    ∀ failure : Failure, (failure.renamed swap).renamed swap = failure
  | .hook scope _ _ cause =>
    (Failure.hook.injEq ..).mpr ⟨ScopeId.renamed_again again scope, rfl, rfl, cause.renamed_again again⟩

theorem renamedAll_again {swap : Kind → Kind} (again : Function.Involutive swap) :
    ∀ failures : List Failure, renamedAll swap (renamedAll swap failures) = failures
  | [] => rfl
  | failure :: rest => (List.cons.injEq ..).mpr ⟨failure.renamed_again again, renamedAll_again again rest⟩
end

theorem renamedAll_map (swap : Kind → Kind) (failures : List Failure) :
    renamedAll swap failures = failures.map (Failure.renamed swap) := by
  induction failures with
  | nil => rfl
  | cons failure rest ih => exact congrArg (failure.renamed swap :: ·) ih

theorem renamedAll_append (swap : Kind → Kind) (one two : List Failure) :
    renamedAll swap (one ++ two) = renamedAll swap one ++ renamedAll swap two := by simp [renamedAll_map]

section
variable {exchange : Exchange C}

@[simp] theorem id_again (id : ScopeId) : (id.renamed exchange.swap).renamed exchange.swap = id :=
  ScopeId.renamed_again exchange.swap_again id

@[simp] theorem scope_again (scope : ScopeRef) : (scope.renamed exchange.swap).renamed exchange.swap = scope :=
  ScopeRef.renamed_again exchange.swap_again scope

@[simp] theorem object_again (object : InstanceRef) : (object.renamed exchange.swap).renamed exchange.swap = object := by
  cases object <;> simp [InstanceRef.renamed]

@[simp] theorem event_again (event : Event) : (event.renamed exchange.swap).renamed exchange.swap = event := by
  cases event <;> simp [Event.renamed]

@[simp] theorem ending_again (ending : Ending) : (ending.renamed exchange.swap).renamed exchange.swap = ending := by
  cases ending <;> simp [Ending.renamed, Cause.renamed_again exchange.swap_again]

@[simp] theorem reply_again (reply : Reply C) : (reply.renamed exchange).renamed exchange = reply := by
  cases reply <;> simp [Reply.renamed, exchange.datum_again _, Fault.renamed_again exchange.swap_again,
    renamedAll_again exchange.swap_again, Cause.renamed_again exchange.swap_again, Function.comp_def]

end

section
variable {κ α : Type} [DecidableEq κ] {f : κ → κ} {again : Function.Involutive f} {table : Table κ α} {key : κ} {value : α}

theorem erase_mapValues {β : Type} (f : α → β) : (table.erase key).mapValues f = (table.mapValues f).erase key := by
  refine Table.same ?_
  show (Table.without key table.entries).map (fun entry => (entry.1, f entry.2)) =
    Table.without key (table.entries.map fun entry => (entry.1, f entry.2))
  fun_induction Table.without key table.entries <;> simp_all [Table.without]

theorem found_rekeyed (again : Function.Involutive f) (entries : List (κ × α)) :
    Table.found (f key) (entries.map fun entry => (f entry.1, entry.2)) = Table.found key entries := by
  fun_induction Table.found key entries <;> simp_all [Table.found, again.injective.eq_iff]

theorem placed_rekeyed (again : Function.Involutive f) (entries : List (κ × α)) :
    (Table.placed key value entries).map (fun entry => (f entry.1, entry.2)) =
      Table.placed (f key) value (entries.map fun entry => (f entry.1, entry.2)) := by
  fun_induction Table.placed key value entries <;> simp_all [Table.placed, again.injective.eq_iff]

@[simp] theorem get?_mapKeys (again : Function.Involutive f) : (table.mapKeys again).get? (f key) = table.get? key :=
  found_rekeyed again table.entries

theorem put_mapKeys : (table.put key value).mapKeys again = (table.mapKeys again).put (f key) value :=
  Table.same (placed_rekeyed again table.entries)

theorem modify_mapKeys {change : α → α} : (table.modify key change).mapKeys again = (table.mapKeys again).modify (f key) change := by
  unfold Table.modify
  rw [get?_mapKeys]
  cases table.get? key with
  | none => rfl
  | some value => exact put_mapKeys

end

def Directory.sole (who : Option ScopeRef) : Directory := who.elim .empty Directory.empty.place

section
variable {who : Option ScopeRef} {scope : ScopeRef} {home : ScopeId}

theorem sole_occupant (own : ∀ scope ∈ who, scope.id = home) : (Directory.sole who).occupant home = who := by
  cases who with
  | none => obtain ⟨kind, id⟩ := home; cases kind <;> rfl
  | some scope =>
    cases own scope rfl
    obtain ⟨registry, ⟨kind, id⟩, turn⟩ := scope
    cases kind <;> simp [Directory.sole, Directory.place, Directory.occupant, Table.get?_put]

theorem sole_occupied {id : ScopeId} (there : (Directory.sole who).occupant id = some scope) : who = some scope := by
  obtain ⟨kind, id⟩ := id
  cases who with
  | none => cases kind <;> cases there
  | some other =>
    obtain ⟨registry, ⟨own, name⟩, turn⟩ := other
    cases own <;> cases kind <;>
      simp_all [Directory.sole, Directory.place, Directory.occupant, Directory.empty, Table.get?_put]

-- Asked for an identity, a slot answers for this one only, like a table.
theorem sole_answers (id : ScopeId) :
    ((Directory.sole who).occupant id).filter (fun scope => !id.kind.isSingleSlot || scope.id.id == id.id) =
      who.filter fun scope => scope.id = id := by
  obtain ⟨kind, id⟩ := id
  cases who with
  | none => cases kind <;> rfl
  | some scope =>
    obtain ⟨registry, ⟨own, name⟩, turn⟩ := scope
    cases own <;> cases kind <;>
      simp [Directory.sole, Directory.place, Directory.occupant, Directory.empty, Table.get?_put, Kind.isSingleSlot,
        Option.filter_some, @eq_comm String id] <;>
      split <;> rfl

theorem sole_residents (kind : Kind) : (Directory.sole who).residents kind = (who.filter fun scope => scope.id.kind = kind).toList := by
  cases who with
  | none => cases kind <;> rfl
  | some scope =>
    obtain ⟨registry, ⟨own, name⟩, turn⟩ := scope
    cases own <;> cases kind <;> rfl

theorem sole_place (own : ∀ other ∈ who, other.id = scope.id) : (Directory.sole who).place scope = .sole (some scope) := by
  cases who with
  | none => rfl
  | some other =>
    obtain ⟨registry, ⟨kind, id⟩, turn⟩ := other
    obtain ⟨other, same, turn⟩ := scope
    cases own _ rfl
    cases kind <;> simp [Directory.sole, Directory.place, Directory.empty, Table.put, Table.placed, Table.empty]

theorem sole_forget (scope : ScopeRef) : (Directory.sole who).forget scope = .sole (if who = some scope then none else who) := by
  unfold Directory.forget
  by_cases here : who = some scope
  · subst here
    rw [if_pos (sole_occupant fun _ own => Option.some.inj own ▸ rfl), if_pos rfl]
    obtain ⟨registry, ⟨kind, id⟩, turn⟩ := scope
    cases kind <;> simp [Directory.sole, Directory.place, Directory.vacate, Directory.empty, Table.put, Table.placed, Table.erase,
      Table.without, Table.empty]
  · rw [if_neg fun there => here (sole_occupied there), if_neg here]

theorem sole_renamed (swap : Kind → Kind) : (Directory.sole who).renamed swap = .sole (who.map (ScopeRef.renamed swap)) := by
  cases who with
  | none => rfl
  | some scope =>
    obtain ⟨registry, ⟨kind, id⟩, turn⟩ := scope
    cases kind <;> rfl

end

-- Every registry holds no scope but one of this identity.
def World.Sole (home : ScopeId) (world : World C) : Prop :=
  ∀ (registry : RegistryRef) (cell : Registry C), world.registries[registry]? = some cell →
    ∃ who, cell.directory = .sole who ∧ ∀ scope ∈ who, scope.id = home

section
variable {exchange : Exchange C} {world : World C} {home : ScopeId} {me : ThreadId}

theorem id_injective : Function.Injective (ScopeId.renamed exchange.swap) := (ScopeId.renamed_again exchange.swap_again).injective

theorem scope_injective : Function.Injective (ScopeRef.renamed exchange.swap) := (ScopeRef.renamed_again exchange.swap_again).injective

@[simp] theorem renamed_kind (swap : Kind → Kind) (id : ScopeId) : (id.renamed swap).kind = swap id.kind := rfl

@[simp] theorem renamed_identity (swap : Kind → Kind) (scope : ScopeRef) : (scope.renamed swap).id = scope.id.renamed swap := rfl

@[simp] theorem renamed_registry (registry : RegistryRef) :
    (world.renamed exchange).registries[registry]? = (world.registries[registry]?).map (Registry.renamed exchange) :=
  List.getElem?_map ..

@[simp] theorem renamed_scope (scope : ScopeRef) :
    (world.renamed exchange).scope? (scope.renamed exchange.swap) = (world.scope? scope).map (Scope.renamed exchange) :=
  (get?_mapKeys (ScopeRef.renamed_again exchange.swap_again)).trans get?_mapValues

@[simp] theorem renamed_instance (object : InstanceRef) :
    (world.renamed exchange).instance? (object.renamed exchange.swap) = (world.instance? object).map (Instance.renamed exchange) := by
  cases object with
  | kept scope index =>
    simp only [World.instance?, InstanceRef.renamed, renamed_scope]
    cases world.scope? scope <;> simp [Scope.renamed]
  | loose index => exact List.getElem?_map ..

@[simp] theorem renamed_isAlive (scope : ScopeRef) :
    (world.renamed exchange).isAlive (scope.renamed exchange.swap) = world.isAlive scope := by
  simp only [World.isAlive, renamed_scope]
  cases world.scope? scope <;> rfl

@[simp] theorem renamed_isActive (scope : ScopeRef) :
    (world.renamed exchange).isActive (scope.renamed exchange.swap) = world.isActive scope := by
  simp only [World.isActive, renamed_scope]
  cases world.scope? scope <;> rfl

@[simp] theorem renamed_nextScope (registry : RegistryRef) (id : ScopeId) :
    (world.renamed exchange).nextScope registry (id.renamed exchange.swap) = (world.nextScope registry id).renamed exchange.swap := by
  simp only [World.nextScope, renamed_registry, ScopeRef.renamed]
  cases world.registries[registry]? with
  | none => rfl
  | some cell => simp [Registry.renamed]

@[simp] theorem renamed_nextInstance (scope : ScopeRef) :
    (world.renamed exchange).nextInstance (scope.renamed exchange.swap) = (world.nextInstance scope).renamed exchange.swap := by
  simp only [World.nextInstance, renamed_scope, InstanceRef.renamed]
  cases world.scope? scope <;> simp [Scope.renamed]

theorem sole_cell (exchange : Exchange C) {registry : RegistryRef} {cell : Registry C} (sole : world.Sole home)
    (found : world.registries[registry]? = some cell) :
    ∃ who, cell.directory = .sole who ∧ (cell.renamed exchange).directory = .sole (who.map (ScopeRef.renamed exchange.swap)) ∧
      (∀ scope ∈ who, scope.id = home) ∧
      ∀ scope ∈ who.map (ScopeRef.renamed exchange.swap), scope.id = home.renamed exchange.swap := by
  obtain ⟨who, here, own⟩ := sole registry cell found
  refine ⟨who, here, (congrArg (Directory.renamed exchange.swap) here).trans (sole_renamed exchange.swap), own, fun scope moved => ?_⟩
  obtain ⟨old, member, rfl⟩ := Option.mem_map.mp moved
  exact congrArg (ScopeId.renamed exchange.swap) (own old member)

theorem renamed_registered (sole : world.Sole home) (registry : RegistryRef) (id : ScopeId) :
    (world.renamed exchange).registered registry (id.renamed exchange.swap) =
      (world.registered registry id).map (ScopeRef.renamed exchange.swap) := by
  unfold World.registered World.occupant
  cases found : world.registries[registry]? with
  | none => simp [found]
  | some cell =>
    obtain ⟨who, here, there, _⟩ := sole_cell exchange sole found
    simp only [renamed_registry, found, Option.map_some, Option.bind_some, here, there, sole_answers]
    cases who with
    | none => rfl
    | some scope => simp [Option.filter_some, ScopeRef.renamed, id_injective.eq_iff]

theorem renamed_lookup (sole : world.Sole home) (registry : RegistryRef) (id : ScopeId) :
    (world.renamed exchange).lookup registry (id.renamed exchange.swap) =
      (world.lookup registry id).map (ScopeRef.renamed exchange.swap) := by
  unfold World.lookup
  rw [renamed_registered sole]
  cases world.registered registry id <;> simp [Option.filter_some]

theorem renamed_living (sole : world.Sole home) (registry : RegistryRef) (kind : Kind) :
    (world.renamed exchange).living registry (exchange.swap kind) =
      (world.living registry kind).map (ScopeRef.renamed exchange.swap) := by
  unfold World.living
  cases found : world.registries[registry]? with
  | none => simp [found]
  | some cell =>
    obtain ⟨who, here, there, _⟩ := sole_cell exchange sole found
    simp only [renamed_registry, found, Option.map_some, Option.elim_some, here, there, sole_residents]
    cases who with
    | none => rfl
    | some scope =>
      by_cases same : scope.id.kind = kind
      · cases alive : world.isAlive scope <;> simp [Option.filter_some, same, alive]
      · simp [Option.filter_some, same, exchange.swap_again.injective.eq_iff]

theorem renamed_activeCount (sole : world.Sole home) (registry : RegistryRef) (kind : Kind) :
    (world.renamed exchange).activeCount registry (exchange.swap kind) = world.activeCount registry kind := by
  simp only [World.activeCount, renamed_living sole, List.length_map]

theorem renamed_ids (sole : world.Sole home) (registry : RegistryRef) (kind : Kind) :
    (world.renamed exchange).ids registry (exchange.swap kind) = world.ids registry kind := by
  simp only [World.ids, renamed_living sole, List.map_map]
  rfl

theorem renamed_hasLiving (sole : world.Sole home) (registry : RegistryRef) :
    (world.renamed exchange).hasLiving registry = world.hasLiving registry := by
  have kinds (kind : Kind) : (world.renamed exchange).activeCount registry kind = world.activeCount registry (exchange.swap kind) := by
    rw [← renamed_activeCount sole, exchange.swap_again]
  rw [Bool.eq_iff_iff]
  simp only [World.hasLiving, kinds, List.any_eq_true]
  constructor
  · rintro ⟨kind, _, lives⟩
    exact ⟨exchange.swap kind, Kind.mem_all _, lives⟩
  · rintro ⟨kind, _, lives⟩
    exact ⟨exchange.swap kind, Kind.mem_all _, by rwa [exchange.swap_again]⟩

theorem sole_leftovers {registry : RegistryRef} {cell : Registry C} {who : Option ScopeRef}
    (found : world.registries[registry]? = some cell) (here : cell.directory = .sole who) :
    world.leftovers registry = ((who.filter world.isAlive).map ScopeRef.id).toList := by
  have living (kind : Kind) : world.living registry kind = (who.filter fun scope => scope.id.kind = kind).toList.filter world.isAlive := by
    simp only [World.living, found, Option.elim_some, here, sole_residents]
  cases who with
  | none => simp [World.leftovers, World.ids, living, Text.sorted]
  | some scope =>
    obtain ⟨registry, ⟨kind, id⟩, turn⟩ := scope
    cases alive : world.isAlive ⟨registry, ⟨kind, id⟩, turn⟩ <;> cases kind <;>
      simp [World.leftovers, World.ids, living, Text.sorted, Kind.all, Option.filter_some, alive]

theorem renamed_leftovers (sole : world.Sole home) (registry : RegistryRef) :
    (world.renamed exchange).leftovers registry = (world.leftovers registry).map (ScopeId.renamed exchange.swap) := by
  cases found : world.registries[registry]? with
  | none => simp [World.leftovers, World.ids, World.living, found, Text.sorted, Kind.all]
  | some cell =>
    obtain ⟨who, here, there, _⟩ := sole_cell exchange sole found
    have beside : (world.renamed exchange).registries[registry]? = some (cell.renamed exchange) := by simp [found]
    rw [sole_leftovers found here, sole_leftovers beside there]
    cases who with
    | none => rfl
    | some scope => cases alive : world.isAlive scope <;> simp [Option.filter_some, alive]

@[simp] theorem renamed_store (cell : Scope C) (key : String) :
    (cell.renamed exchange).store.get? key = (cell.store.get? key).map (Entry.renamed exchange.swap) := get?_mapValues

theorem renamed_insert (store : Store) (key : String) (entry : Entry) :
    (store.renamed exchange.swap).insert key (entry.renamed exchange.swap) =
      (store.insert key entry).map (Store.renamed exchange.swap) := by
  have holds : (store.renamed exchange.swap).contains key = store.contains key := by
    simp [Store.contains, Table.contains, Store.renamed]
  simp only [Store.insert, holds]
  split
  · rfl
  · simp [Store.renamed, put_mapValues]

theorem renamed_kept (cell : Scope C) (scope : ScopeRef) (key : String) (made : Instance C) :
    (cell.kept scope key made).renamed exchange =
      (cell.renamed exchange).kept (scope.renamed exchange.swap) key (made.renamed exchange) := by
  have entry : (⟨.kept (scope.renamed exchange.swap) cell.instances.length, made.type⟩ : Entry) =
      Entry.renamed exchange.swap ⟨.kept scope cell.instances.length, made.type⟩ := rfl
  simp only [Scope.kept, Scope.renamed, Instance.renamed, List.length_map, entry, renamed_insert, List.map_append, List.map_cons,
    List.map_nil]
  cases cell.store.insert key ⟨.kept scope cell.instances.length, made.type⟩ <;> rfl

theorem renamed_forget (who : Option ScopeRef) (scope : ScopeRef) :
    ((Directory.sole who).forget scope).renamed exchange.swap =
      (Directory.sole (who.map (ScopeRef.renamed exchange.swap))).forget (scope.renamed exchange.swap) := by
  rw [sole_forget, sole_forget, sole_renamed]
  cases who with
  | none => rfl
  | some other => simp only [Option.map_some, Option.some.injEq, scope_injective.eq_iff, apply_ite (Option.map _), Option.map_none]

theorem registries_renamed {registry : RegistryRef} {change there : Registry C → Registry C}
    (same : ∀ cell, world.registries[registry]? = some cell → (change cell).renamed exchange = there (cell.renamed exchange)) :
    (world.onRegistry registry change).registries.map (Registry.renamed exchange) =
      ((world.renamed exchange).onRegistry registry there).registries := by
  refine List.ext_getElem? fun index => ?_
  simp only [World.onRegistry, World.renamed, List.getElem?_map, List.getElem?_modify]
  cases found : world.registries[index]? with
  | none => rfl
  | some cell =>
    by_cases here : registry = index
    · simp [here, same cell (here ▸ found)]
    · simp [here]

theorem onRegistry_renamed {registry : RegistryRef} {change there : Registry C → Registry C}
    (same : ∀ cell, world.registries[registry]? = some cell → (change cell).renamed exchange = there (cell.renamed exchange)) :
    (world.onRegistry registry change).renamed exchange = (world.renamed exchange).onRegistry registry there :=
  (World.mk.injEq ..).mpr ⟨rfl, rfl, registries_renamed same, rfl, rfl, rfl⟩

theorem onScope_renamed {scope : ScopeRef} {change there : Scope C → Scope C}
    (same : ∀ cell, (change cell).renamed exchange = there (cell.renamed exchange)) :
    (world.onScope scope change).renamed exchange = (world.renamed exchange).onScope (scope.renamed exchange.swap) there := by
  simp only [World.onScope, World.renamed, World.mk.injEq, true_and, and_true]
  rw [modify_mapValues same]
  exact modify_mapKeys

theorem apply_renamed (sole : world.Sole home) {effect : Effect C}
    (keeps : ∀ registry id, effect.registered? = some (registry, id) → id = home) :
    (effect.apply me world).renamed exchange = (effect.renamed exchange).apply me (world.renamed exchange) := by
  cases effect with
  | still => rfl
  | remember update => simp [Effect.apply, Effect.renamed, World.renamed, exchange.memory_again _]
  | establish =>
    simp only [Effect.apply, Effect.renamed, World.renamed, List.map_append, List.map_cons, List.map_nil]
    rfl
  | make => simp [Effect.apply, Effect.renamed, World.renamed]
  | listen => exact onRegistry_renamed fun _ _ => rfl
  | forget registry scope =>
    refine onRegistry_renamed fun cell found => ?_
    obtain ⟨who, here, there, _⟩ := sole_cell exchange sole found
    exact (Registry.mk.injEq ..).mpr ⟨rfl, by rw [there, here, renamed_forget], rfl, rfl⟩
  | keep scope key made => exact onScope_renamed fun cell => renamed_kept cell scope key made
  | setAttribute => exact onScope_renamed fun _ => by simp only [Scope.renamed, put_mapValues]
  | removeAttribute => exact onScope_renamed fun _ => by simp only [Scope.renamed, erase_mapValues]
  | register registry id =>
    cases keeps registry id rfl
    simp only [Effect.apply, Effect.renamed, renamed_nextScope]
    refine (World.mk.injEq ..).mpr ⟨rfl, rfl, registries_renamed fun cell found => ?_, ?_, rfl, rfl⟩
    · obtain ⟨who, here, there, own, moved⟩ := sole_cell exchange sole found
      have placed : (cell.directory.place (world.nextScope registry home)).renamed exchange.swap =
          (cell.renamed exchange).directory.place ((world.nextScope registry home).renamed exchange.swap) := by
        rw [there, here, sole_place own, sole_renamed, sole_place moved]
        rfl
      exact (Registry.mk.injEq ..).mpr ⟨rfl, placed, rfl, put_mapKeys⟩
    · exact (congrArg (Table.mapKeys _) put_mapValues).trans put_mapKeys
  | _ => exact onScope_renamed fun _ => rfl

theorem sole_registry {registry : RegistryRef} {change : Registry C → Registry C} (sole : world.Sole home)
    (same : ∀ cell who, cell.directory = .sole who → (∀ scope ∈ who, scope.id = home) →
      ∃ now, (change cell).directory = .sole now ∧ ∀ scope ∈ now, scope.id = home) :
    (world.onRegistry registry change).Sole home := by
  intro place cell found
  simp only [World.onRegistry, List.getElem?_modify, Option.map_eq_map, Option.map_eq_some_iff] at found
  obtain ⟨old, there, rfl⟩ := found
  obtain ⟨who, here, own⟩ := sole place old there
  split
  · exact same old who here own
  · exact ⟨who, here, own⟩

theorem apply_sole (sole : world.Sole home) {effect : Effect C}
    (keeps : ∀ registry id, effect.registered? = some (registry, id) → id = home) : (effect.apply me world).Sole home := by
  cases effect with
  | establish settings =>
    intro registry cell found
    rcases List.mem_append.mp (List.mem_of_getElem? found) with old | new
    · obtain ⟨place, there⟩ := List.mem_iff_getElem?.mp old
      exact sole place cell there
    · cases List.mem_singleton.mp new
      exact ⟨none, rfl, nofun⟩
  | listen => exact sole_registry sole fun cell who here own => ⟨who, here, own⟩
  | register registry id =>
    cases keeps registry id rfl
    exact sole_registry sole fun cell who here own =>
      ⟨some (world.nextScope registry home), (congrArg (Directory.place · _) here).trans (sole_place own),
        fun scope member => Option.some.inj member ▸ rfl⟩
  | forget registry scope =>
    refine sole_registry sole fun cell who here own => ⟨_, (congrArg (Directory.forget · scope) here).trans (sole_forget scope), ?_⟩
    split
    · exact nofun
    · exact own
  | _ => exact sole

end
end Lifespan
