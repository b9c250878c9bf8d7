import Lifespan.Proofs.Search
import Lifespan.Proofs.Solo
import Lifespan.Proofs.Uniqueness

-- Factories of one scope that resolve what their keys need, and how a thread goes through them. While it does,
-- the gates of the scope know the keys on its path and nothing else, which is what keeps it from going in circles.
namespace Lifespan
variable {C : Client}

namespace Scope
variable {cell : Scope C} {key : String} {me : ThreadId}

structure Gated (cell : Scope C) : Prop where
  known : ∀ key gate, cell.gates.gates.get? key = some gate → gate < cell.turns.length
  apart : ∀ one two gate, cell.gates.gates.get? one = some gate → cell.gates.gates.get? two = some gate → one = two

theorem queued_cases (cell : Scope C) (key : String) (me : ThreadId) :
    (∃ gate, cell.gates.gates.get? key = some gate ∧
      cell.queued key me = { cell with gates := { cell.gates with waiting := cell.gates.waiting.put me key } }) ∨
    (cell.gates.gates.get? key = none ∧ cell.queued key me =
      { cell with
        gates := { cell.gates with waiting := cell.gates.waiting.put me key, gates := cell.gates.gates.put key cell.turns.length }
        turns := cell.turns ++ [none] }) := by
  cases there : cell.gates.gates.get? key with
  | some gate => exact .inl ⟨gate, rfl, by simp [queued, Gates.queue, Table.contains, there]⟩
  | none => exact .inr ⟨rfl, by simp [queued, Gates.queue, Table.contains, there]⟩

theorem queued_gate : (cell.queued key me).gates.gates.get? key = some (cell.gates.queue key me cell.turns.length).1 := by
  cases there : cell.gates.gates.get? key with
  | some gate => simp [queued, Gates.queue, there]
  | none => simp [queued, Gates.queue, there, Table.get?_put]

theorem Gated.queued (gated : cell.Gated) : (cell.queued key me).Gated := by
  obtain ⟨gate, there, same⟩ | ⟨missing, same⟩ := queued_cases cell key me
  · rw [same]
    exact ⟨gated.known, gated.apart⟩
  · rw [same]
    refine ⟨fun other gate placed => ?_, fun one two gate first second => ?_⟩
    · simp only [Table.get?_put] at placed
      rw [List.length_append]
      split at placed
      · cases placed
        exact Nat.lt_succ_self _
      · exact Nat.lt_succ_of_lt (gated.known other gate placed)
    · simp only [Table.get?_put] at first second
      -- the gates that were there before are older than the new one
      split at first <;> split at second
      · rename_i one two
        exact one.trans two.symm
      · cases first
        exact absurd (gated.known _ _ second) (Nat.lt_irrefl _)
      · cases second
        exact absurd (gated.known _ _ first) (Nat.lt_irrefl _)
      · exact gated.apart one two gate first second

end Scope

theorem preserves_gated {before after : Life C} {shaken aided : Prop} {scope : ScopeRef} (gated : before.cell.Gated)
    (step : Life.Step shaken aided scope before after) : after.cell.Gated := by
  cases step with
  | idle cell =>
    obtain ⟨attributes, cell⟩ := cell
    rw [cell]
    exact ⟨gated.known, gated.apart⟩
  | build me rest build cell =>
    rw [cell]
    cases build with
    | queue => exact gated.queued
    | seize | yield => exact ⟨fun key gate placed => by simpa [Effect.change] using gated.known key gate placed, gated.apart⟩
    | _ => exact ⟨gated.known, gated.apart⟩
  | close me rest close cell =>
    rw [cell]
    cases close with
    | clear => exact ⟨fun _ _ placed => (by cases placed), fun _ _ _ placed => (by cases placed)⟩
    | _ => exact ⟨gated.known, gated.apart⟩

theorem Life.Lived.gated {life : Life C} {shaken aided : Prop} {scope : ScopeRef} (lived : Life.Lived shaken aided scope life) :
    life.cell.Gated := by
  induction lived with
  | untouched untouched =>
    rw [untouched.cell]
    exact ⟨nofun, nofun⟩
  | step _ next ih => exact preserves_gated ih next

structure Recipes (C : Client) where
  scope : ScopeRef
  needs : String → List String
  type : String → String
  label : String → C.Label
  datum : String → C.Datum

namespace Recipes

def request (plan : Recipes C) (key : String) : Request := ⟨plan.scope, key, plan.type key⟩

def job (plan : Recipes C) (key : String) : Job C := ⟨plan.request key, fun _ => .jump (plan.label key)⟩

def idle : Hooks (Code C) := ⟨fun _ => .done, fun _ => .done, .done⟩

-- Resolves one key after the other, fails with the first fault that comes back, and has an instance if none does.
def code (plan : Recipes C) (key : String) : List String → Code C
  | [] => .built (plan.datum key) idle
  | need :: rest => .resolve (plan.request need) (plan.job need).factory fun reply =>
    match reply with
    | .fault fault => .fail (.fault fault)
    | .panicked panic => .panic panic
    | _ => plan.code key rest

end Recipes

def blame (id : ScopeId) (down : List String) (last : String) : Fault :=
  down.foldr (fun key fault => .construction id key (.fault fault)) (.cyclic id last)

def Item.tried? (scope : ScopeRef) : Item C → Option String
  | .factory place key => if place = scope then some key else none
  | _ => none

def World.tried (world : World C) (scope : ScopeRef) : List String := world.chronicle.filterMap (Item.tried? scope)

-- Above these frames so many factories run at most.
def Deep (base : List (Frame C)) (most : Nat) (frames : List (Frame C)) : Prop :=
  ∃ upper, frames = upper ++ base ∧ (upper.filterMap Frame.factory?).length ≤ most

def Thread.Nested (base : List (Frame C)) (most : Nat) (thread : Thread C) : Prop := Deep base most thread.frames

theorem Deep.mono {base frames : List (Frame C)} {few most : Nat} (deep : Deep base few frames) (less : few ≤ most) :
    Deep base most frames := by
  obtain ⟨upper, rfl, fewer⟩ := deep
  exact ⟨upper, rfl, Nat.le_trans fewer less⟩

theorem Deep.making {base frames : List (Frame C)} {most : Nat} {job : Job C} {gate : GateRef} (deep : Deep base most frames) :
    Deep base (most + 1) (.factory job gate :: frames) := by
  obtain ⟨upper, rfl, fewer⟩ := deep
  exact ⟨.factory job gate :: upper, rfl, Nat.succ_le_succ fewer⟩

theorem Deep.more {base frames : List (Frame C)} {most : Nat} {frame : Frame C} (deep : Deep base most frames)
    (other : frame.factory? = none) : Deep base most (frame :: frames) := by
  obtain ⟨upper, rfl, fewer⟩ := deep
  exact ⟨frame :: upper, rfl, by rwa [List.filterMap_cons_none other]⟩

namespace Recipes
variable {plan : Recipes C} {keys : Finset String} {me : ThreadId} {path : List (String × GateRef)} {stored tried : List String}
  {cell : Scope C} {key : String} {gate : GateRef}

-- The scope while this thread makes the keys on its path, each at its gate, and nobody does anything else there.
structure Midway (plan : Recipes C) (keys : Finset String) (me : ThreadId) (path : List (String × GateRef)) (stored : List String)
    (cell : Scope C) : Prop where
  active : cell.state = .active
  free : cell.exclusive = none
  gated : cell.Gated
  owners : ∀ key, cell.gates.owners.get? key = if key ∈ path.map Prod.fst then some me else none
  places : ∀ key gate, (key, gate) ∈ path → cell.gates.gates.get? key = some gate
  turns : ∀ key gate, cell.gates.gates.get? key = some gate →
    cell.turns[gate]? = some (if key ∈ path.map Prod.fst then some me else none)
  order : cell.store.keys = stored
  listed : ∀ key, (cell.store.get? key).isSome ↔ key ∈ stored
  typed : ∀ key ∈ keys, ∀ entry, cell.store.get? key = some entry → entry.type = plan.type key

theorem Midway.resharing (midway : plan.Midway keys me path stored cell) (sharing : List ThreadId) :
    plan.Midway keys me path stored { cell with sharing } :=
  ⟨midway.active, midway.free, ⟨midway.gated.known, midway.gated.apart⟩, midway.owners, midway.places, midway.turns, midway.order,
    midway.listed, midway.typed⟩

theorem Midway.waitsOn (midway : plan.Midway keys me path stored cell) :
    cell.gates.waitsOn key me = decide (key ∈ path.map Prod.fst) := by
  rw [Gates.waitsOn, midway.owners]
  split
  · rename_i there
    simp only [Gates.walk, there, if_true, decide_true]
  · rename_i apart
    simp only [Gates.walk, apart, decide_false]

theorem Midway.queued (midway : plan.Midway keys me path stored cell) (fresh : key ∉ path.map Prod.fst) :
    plan.Midway keys me path stored (cell.queued key me) := by
  have gated := @Scope.Gated.queued _ cell key me midway.gated
  obtain ⟨gate, there, same⟩ | ⟨missing, same⟩ := Scope.queued_cases cell key me
  · rw [same] at gated ⊢
    exact ⟨midway.active, midway.free, gated, midway.owners, midway.places, midway.turns, midway.order, midway.listed, midway.typed⟩
  · rw [same] at gated ⊢
    refine ⟨midway.active, midway.free, gated, midway.owners, fun other gate member => ?_, fun other gate placed => ?_, midway.order,
      midway.listed, midway.typed⟩
    · have apart : other ≠ key := by
        rintro rfl
        exact fresh (List.mem_map.mpr ⟨_, member, rfl⟩)
      simp only [Table.get?_put, apart, if_false]
      exact midway.places other gate member
    · simp only [Table.get?_put] at placed
      split at placed
      · rename_i same
        cases placed
        simp [same, fresh]
      · rw [List.getElem?_append_left (midway.gated.known other gate placed)]
        exact midway.turns other gate placed

theorem Midway.enter (midway : plan.Midway keys me path stored cell) (placed : cell.gates.gates.get? key = some gate) :
    plan.Midway keys me ((key, gate) :: path) stored
      { cell with turns := cell.turns.set gate (some me), gates := cell.gates.start key me } where
  active := midway.active
  free := midway.free
  gated := ⟨fun other place there => by simpa using midway.gated.known other place there, midway.gated.apart⟩
  owners other := by
    simp only [Gates.start, Table.get?_put, midway.owners, List.map_cons, List.mem_cons]
    by_cases same : other = key
    · simp only [same, if_true, true_or]
    · simp only [same, if_false, false_or]
  places other place member := by
    rcases List.mem_cons.mp member with same | old
    · cases same
      exact placed
    · exact midway.places other place old
  turns other place there := by
    have old := midway.turns other place there
    by_cases same : other = key
    · subst same
      cases placed.symm.trans there
      have inside := (List.getElem?_eq_some_iff.mp old).1
      simp [inside]
    · have apart : gate ≠ place := by
        rintro rfl
        exact same (midway.gated.apart other key gate there placed)
      simp only [List.getElem?_set_ne apart, List.map_cons, List.mem_cons, same, false_or]
      exact old
  order := midway.order
  listed := midway.listed
  typed := midway.typed

theorem Midway.left (midway : plan.Midway keys me ((key, gate) :: path) stored cell) (fresh : key ∉ path.map Prod.fst) :
    plan.Midway keys me path stored { cell with gates := cell.gates.finish key me, turns := cell.turns.set gate none } where
  active := midway.active
  free := midway.free
  gated := ⟨fun other place there => by simpa using midway.gated.known other place there, midway.gated.apart⟩
  owners other := by
    simp only [Gates.finish, Table.get?_erase, midway.owners, List.map_cons, List.mem_cons]
    by_cases same : other = key
    · simp only [same, if_true, fresh, if_false]
    · simp only [same, if_false, false_or]
  places other place member := midway.places other place (List.mem_cons_of_mem _ member)
  turns other place there := by
    have mine := midway.places key gate (List.mem_cons_self ..)
    have old := midway.turns other place there
    by_cases same : other = key
    · subst same
      cases mine.symm.trans there
      have inside := (List.getElem?_eq_some_iff.mp old).1
      simp [inside, fresh]
    · have apart : gate ≠ place := by
        rintro rfl
        exact same (midway.gated.apart other key gate there mine)
      simp only [List.map_cons, List.mem_cons, same, false_or] at old
      rw [List.getElem?_set_ne apart]
      exact old
  order := midway.order
  listed := midway.listed
  typed := midway.typed

theorem Midway.kept (midway : plan.Midway keys me path stored cell) (missing : key ∉ stored) (datum : C.Datum) (hooks : Hooks (Code C)) :
    plan.Midway keys me path (stored ++ [key]) (cell.kept plan.scope key ⟨plan.type key, datum, hooks⟩) := by
  have absent : cell.store.get? key = none := Option.not_isSome_iff_eq_none.mp (mt (midway.listed key).mp missing)
  have insert : cell.store.insert key ⟨.kept plan.scope cell.instances.length, plan.type key⟩ =
      some ⟨cell.store.entries.put key ⟨.kept plan.scope cell.instances.length, plan.type key⟩, cell.store.order ++ [key]⟩ :=
    Store.insert_absent absent
  have order : cell.store.order = stored := midway.order
  have listed := midway.listed
  have typed := midway.typed
  refine ⟨midway.active, midway.free, ⟨midway.gated.known, midway.gated.apart⟩, midway.owners, midway.places, midway.turns, ?_,
    fun other => ?_, fun other inside entry there => ?_⟩
  · simp [Scope.kept, insert, Store.keys, order]
  · rw [kept_get?, List.mem_append, List.mem_singleton]
    by_cases same : other = key
    · simp [same]
    · simpa [same] using listed other
  · rw [kept_get?, Option.or_eq_some_iff] at there
    rcases there with old | ⟨_, new⟩
    · exact typed other inside entry old
    · split at new
      · rename_i same
        cases new
        rw [same]
      · cases new

structure At (plan : Recipes C) (keys : Finset String) (me : ThreadId) (system : System C) (cell : Scope C) (tried : List String)
    (thread : Thread C) : Prop where
  running : system.threads[me]? = some thread
  found : system.world.scope? plan.scope = some cell
  program : ∀ key ∈ keys, system.world.program (plan.label key) = plan.code key (plan.needs key)
  quiet : ∃ registry, system.world.registries[plan.scope.registry]? = some registry ∧
    ∀ listener, registry.listener = some listener → ∀ event, listener event = .done
  tried : system.world.tried plan.scope = tried

def Stands (plan : Recipes C) (keys : Finset String) (me : ThreadId) (path : List (String × GateRef)) (stored tried : List String)
    (thread : Thread C) (system : System C) : Prop :=
  ∃ cell, plan.At keys me system cell tried thread ∧ plan.Midway keys me path stored cell

end Recipes

section
variable {world : World C} {cell : Scope C} {me : ThreadId} {job : Job C} {gate : GateRef} {frames : List (Frame C)}

theorem check_moves {point : Point C} (found : world.scope? point.scope = some cell) (active : cell.state = .active) :
    Thread.next world me ⟨.check point, frames⟩ = some (.silent point.admitted frames) := by
  simp only [Thread.next, Move.check, found, Option.map_some, active]

theorem sees_moves {reply : Reply C} (found : world.scope? job.request.scope = some cell) (seen : Move.sighted cell job.request = some reply) :
    Thread.next world me ⟨.look (.first job), frames⟩ = some (.silent (.back reply) frames) := by
  simp only [Thread.next, Move.look, Sight.scope, found, Option.map_some, seen]

theorem misses_moves (found : world.scope? job.request.scope = some cell) (unseen : Move.sighted cell job.request = none) :
    Thread.next world me ⟨.look (.first job), frames⟩ = some (.silent (.share job) frames) := by
  simp only [Thread.next, Move.look, Sight.scope, found, Option.map_some, unseen]

theorem shares_moves (found : world.scope? job.request.scope = some cell) (free : cell.exclusive = none) :
    Thread.next world me ⟨.share job, frames⟩ = some (.changing (.share job.request.scope) (.check (.shared job)) frames) := by
  simp [Thread.next, Move.share, found, free]

theorem balks_moves (found : world.scope? job.request.scope = some cell) (waits : cell.gates.waitsOn job.request.key me = true) :
    Thread.next world me ⟨.queue job, frames⟩ = some (.silent (.leave job.request.scope .lifecycle
      (.back (.fault (.cyclic job.request.scope.id job.request.key)))) frames) := by
  simp only [Thread.next, Move.queue, found, Option.map_some, waits, if_true]

theorem queues_moves (found : world.scope? job.request.scope = some cell) (clear : cell.gates.waitsOn job.request.key me = false) :
    Thread.next world me ⟨.queue job, frames⟩ = some (.changing (.queue job.request.scope job.request.key)
      (.turn job (cell.gates.queue job.request.key me cell.turns.length).1) frames) := by
  simp [Thread.next, Move.queue, found, clear]

theorem seizes_moves (found : world.scope? job.request.scope = some cell) (free : cell.turns[gate]? = some none) :
    Thread.next world me ⟨.turn job gate, frames⟩ = some (.changing (.seize job.request.scope gate) (.start job gate) frames) := by
  simp [Thread.next, Move.turn, found, free]

theorem makes_moves (found : world.scope? job.request.scope = some cell) (unseen : Move.sighted cell job.request = none) :
    Thread.next world me ⟨.look (.inside job gate), frames⟩ = some ⟨.still, [.factory job.request.scope job.request.key],
      .run (job.factory job.request.scope), .factory job gate :: frames⟩ := by
  simp only [Thread.next, Move.look, Sight.scope, found, Option.map_some, unseen]

theorem hook_moves {call : HookCall} {made : Instance C} (found : world.instance? call.object = some made) :
    Move.callHook world call frames = some ⟨.still, [.hook call], .run (made.hooks.code call), frames⟩ := by
  simp only [Move.callHook, found, Option.map_some]

end

namespace Recipes
open Lifespan.System
variable {plan : Recipes C} {keys : Finset String} {me : ThreadId} {path : List (String × GateRef)} {stored tried : List String}
  {cell : Scope C} {key : String} {gate : GateRef} {system : System C} {focus other : Focus C} {frames later base : List (Frame C)}
  {effect : Effect C} {items : List (Item C)} {most : Nat} {next : Reply C → Code C} {Q : System C → Prop}

theorem near_apply {world : World C} (me : ThreadId) (near : effect = .still ∨ effect.target? = some plan.scope)
    (found : world.scope? plan.scope = some cell) :
    (effect.apply me world).scope? plan.scope = some (effect.change me cell) ∧ (effect.apply me world).program = world.program ∧
      (effect.apply me world).registries = world.registries := by
  rcases near with rfl | target
  · exact ⟨found, rfl, rfl⟩
  · refine ⟨?_, by cases effect <;> cases target <;> rfl, by cases effect <;> cases target <;> rfl⟩
    cases effect <;> cases target <;> exact onScope_scope?.trans ((if_pos rfl).trans (by rw [found]; rfl))

theorem At.step (here : plan.At keys me system cell tried ⟨focus, frames⟩) (deep : Deep base most frames)
    (busy : focus.rests = false) (moves : Thread.next system.world me ⟨focus, frames⟩ = some ⟨effect, items, other, later⟩)
    (near : effect = .still ∨ effect.target? = some plan.scope)
    (onward : ∀ after, plan.At keys me after (effect.change me cell) (tried ++ items.filterMap (Item.tried? plan.scope)) ⟨other, later⟩ →
      ∃ last, Stretch me (Thread.Nested base most) after last ∧ Q last) :
    ∃ last, Stretch me (Thread.Nested base most) system last ∧ Q last := by
  obtain ⟨found, program, registries⟩ := near_apply me near here.found
  have moved : system.advance me = some (system.perform me ⟨effect, items, other, later⟩) := by
    rw [advance_next here.running busy, moves]
    rfl
  obtain ⟨last, stretch, holds⟩ := onward (system.perform me ⟨effect, items, other, later⟩)
    { running := List.getElem?_set_self (List.getElem?_eq_some_iff.mp here.running).1
      found := found
      program := fun key inside => (congrFun program _).trans (here.program key inside)
      quiet := by
        obtain ⟨registry, there, silent⟩ := here.quiet
        exact ⟨registry, (congrArg (·[plan.scope.registry]?) registries).trans there, silent⟩
      tried := by
        rw [World.tried, perform, record_chronicle, apply_chronicle, List.filterMap_append, ← here.tried]
        rfl }
  exact ⟨last, .step here.running deep busy moved stretch, holds⟩

theorem At.go (here : plan.At keys me system cell tried ⟨focus, frames⟩) (deep : Deep base most frames)
    (busy : focus.rests = false) (moves : Thread.next system.world me ⟨focus, frames⟩ = some ⟨.still, items, other, later⟩)
    (plain : items.filterMap (Item.tried? plan.scope) = [])
    (onward : ∀ after, plan.At keys me after cell tried ⟨other, later⟩ →
      ∃ last, Stretch me (Thread.Nested base most) after last ∧ Q last) :
    ∃ last, Stretch me (Thread.Nested base most) system last ∧ Q last := by
  refine here.step deep busy moves (.inl rfl) fun after there => onward after ?_
  rwa [plain, List.append_nil] at there

theorem At.does (here : plan.At keys me system cell tried ⟨focus, frames⟩) (deep : Deep base most frames)
    (busy : focus.rests = false) (moves : Thread.next system.world me ⟨focus, frames⟩ = some ⟨effect, items, other, later⟩)
    (target : effect.target? = some plan.scope) (plain : items.filterMap (Item.tried? plan.scope) = [])
    (onward : ∀ after, plan.At keys me after (effect.change me cell) tried ⟨other, later⟩ →
      ∃ last, Stretch me (Thread.Nested base most) after last ∧ Q last) :
    ∃ last, Stretch me (Thread.Nested base most) system last ∧ Q last := by
  refine here.step deep busy moves (.inr target) fun after there => onward after ?_
  rwa [plain, List.append_nil] at there

theorem At.tells {event : Event} (here : plan.At keys me system cell tried ⟨.emit plan.scope.registry event, frames⟩)
    (deep : Deep base most frames)
    (onward : ∀ after, plan.At keys me after cell tried ⟨.back .done, frames⟩ →
      ∃ last, Stretch me (Thread.Nested base most) after last ∧ Q last) :
    ∃ last, Stretch me (Thread.Nested base most) system last ∧ Q last := by
  obtain ⟨registry, there, _⟩ := here.quiet
  have emits : Thread.next system.world me ⟨.emit plan.scope.registry event, frames⟩ =
      some ⟨.still, [.emitted plan.scope.registry event, .logged (.ofEvent registry.settings event)],
        .deliver plan.scope.registry event, frames⟩ := by
    simp only [Thread.next, Move.emit, there, Option.map_some]
  refine here.go deep rfl emits rfl fun after here => ?_
  obtain ⟨registry, there, silent⟩ := here.quiet
  cases heard : registry.listener with
  | none =>
    have unheard : Thread.next after.world me ⟨.deliver plan.scope.registry event, frames⟩ = some (.silent (.back .done) frames) := by
      simp only [Thread.next, Move.deliver, there, Option.map_some, heard]
    exact here.go deep rfl unheard rfl onward
  | some listener =>
    have deeper : Deep base most (.delivering plan.scope.registry event :: frames) := deep.more rfl
    have hears : Thread.next after.world me ⟨.deliver plan.scope.registry event, frames⟩ =
        some ⟨.still, [.delivered plan.scope.registry event], .run .done, .delivering plan.scope.registry event :: frames⟩ := by
      simp only [Thread.next, Move.deliver, there, Option.map_some, heard, silent listener heard event]
    refine here.go deep rfl hears rfl fun after here => ?_
    refine here.go deeper rfl rfl rfl fun after here => ?_
    exact here.go deeper rfl rfl rfl onward

theorem Midway.seen (midway : plan.Midway keys me path stored cell) (inside : key ∈ keys) (there : key ∈ stored) :
    ∃ object, Move.sighted cell (plan.request key) = some (.object object) := by
  obtain ⟨entry, stands⟩ := Option.isSome_iff_exists.mp ((midway.listed key).mpr there)
  have typed : entry.type = plan.type key := midway.typed key inside entry stands
  exact ⟨entry.object, by simp [Move.sighted, request, stands, Entry.downcast, typed]⟩

theorem Midway.unseen (midway : plan.Midway keys me path stored cell) (missing : key ∉ stored) :
    Move.sighted cell (plan.request key) = none := by
  have none := mt (midway.listed key).mp missing
  simpa [Move.sighted, request] using none

theorem resolves_known
    (here : plan.Stands keys me path stored tried ⟨.run (.resolve (plan.request key) (plan.job key).factory next), frames⟩ system)
    (inside : key ∈ keys) (deep : Deep base most frames) (there : key ∈ stored) :
    ∃ last, Stretch me (Thread.Nested base most) system last ∧
      ∃ object, plan.Stands keys me path stored tried ⟨.back (.object object), .user next :: frames⟩ last := by
  obtain ⟨cell, here, midway⟩ := here
  have deeper : Deep base most (.user next :: frames) := deep.more rfl
  obtain ⟨object, seen⟩ := midway.seen inside there
  refine here.go deep rfl rfl rfl fun after here => ?_
  refine here.go deeper rfl (check_moves here.found midway.active) rfl fun after here => ?_
  refine here.go deeper rfl (sees_moves here.found seen) rfl fun after here => ?_
  exact ⟨after, .refl _, object, cell, here, midway⟩

-- A missing key is looked for in vain, and then has to be made or met on the way.
theorem resolves_missing
    (here : plan.Stands keys me path stored tried ⟨.run (.resolve (plan.request key) (plan.job key).factory next), frames⟩ system)
    (deep : Deep base most frames) (missing : key ∉ stored)
    (onward : ∀ after, plan.Stands keys me path stored tried ⟨.queue (plan.job key), .user next :: frames⟩ after →
      ∃ last, Stretch me (Thread.Nested base most) after last ∧ Q last) :
    ∃ last, Stretch me (Thread.Nested base most) system last ∧ Q last := by
  obtain ⟨cell, here, midway⟩ := here
  have deeper : Deep base most (.user next :: frames) := deep.more rfl
  refine here.go deep rfl rfl rfl fun after here => ?_
  refine here.go deeper rfl (check_moves here.found midway.active) rfl fun after here => ?_
  refine here.go deeper rfl (misses_moves here.found (midway.unseen missing)) rfl fun after here => ?_
  refine here.does deeper rfl (shares_moves here.found midway.free) rfl rfl fun after here => ?_
  have midway : plan.Midway keys me path stored ((Effect.share plan.scope).change me cell) := midway.resharing _
  refine here.go deeper rfl (check_moves here.found midway.active) rfl fun after here => ?_
  exact onward after ⟨_, here, midway⟩

theorem resolves_cyclic
    (here : plan.Stands keys me path stored tried ⟨.run (.resolve (plan.request key) (plan.job key).factory next), frames⟩ system)
    (deep : Deep base most frames) (missing : key ∉ stored) (again : key ∈ path.map Prod.fst) :
    ∃ last, Stretch me (Thread.Nested base most) system last ∧
      plan.Stands keys me path stored tried ⟨.back (.fault (.cyclic plan.scope.id key)), .user next :: frames⟩ last := by
  refine resolves_missing here deep missing fun after here => ?_
  obtain ⟨cell, here, midway⟩ := here
  have deeper : Deep base most (.user next :: frames) := deep.more rfl
  have waits : cell.gates.waitsOn key me = true := by rw [midway.waitsOn, decide_eq_true again]
  refine here.go deeper rfl (balks_moves here.found waits) rfl fun after here => ?_
  refine here.does deeper rfl rfl rfl rfl fun after here => ?_
  exact ⟨after, .refl _, _, here, midway.resharing _⟩

theorem resolves_fresh
    (here : plan.Stands keys me path stored tried ⟨.run (.resolve (plan.request key) (plan.job key).factory next), frames⟩ system)
    (inside : key ∈ keys) (deep : ∀ gate, Deep base most (.factory (plan.job key) gate :: .user next :: frames))
    (less : Deep base most frames) (missing : key ∉ stored) (fresh : key ∉ path.map Prod.fst) :
    ∃ last, Stretch me (Thread.Nested base most) system last ∧ ∃ gate,
      plan.Stands keys me ((key, gate) :: path) stored (tried ++ [key])
        ⟨.run (plan.code key (plan.needs key)), .factory (plan.job key) gate :: .user next :: frames⟩ last := by
  refine resolves_missing here less missing fun after here => ?_
  obtain ⟨cell, here, midway⟩ := here
  have deeper : Deep base most (.user next :: frames) := less.more rfl
  have clear : cell.gates.waitsOn key me = false := by rw [midway.waitsOn, decide_eq_false fresh]
  refine here.does deeper rfl (queues_moves here.found clear) rfl rfl fun after here => ?_
  have midway : plan.Midway keys me path stored (cell.queued key me) := midway.queued fresh
  have placed : (cell.queued key me).gates.gates.get? key = _ := Scope.queued_gate
  have here : plan.At keys me after (cell.queued key me) tried
      ⟨.turn (plan.job key) (cell.gates.queue key me cell.turns.length).1, .user next :: frames⟩ := here
  generalize (cell.gates.queue key me cell.turns.length).1 = gate at here placed
  have free : (cell.queued key me).turns[gate]? = some none := (midway.turns key gate placed).trans (by rw [if_neg fresh])
  refine here.does deeper rfl (seizes_moves here.found free) rfl rfl fun after here => ?_
  refine here.does deeper rfl rfl rfl rfl fun after here => ?_
  have midway : plan.Midway keys me ((key, gate) :: path) stored ((Effect.start plan.scope key).change me
      ((Effect.seize plan.scope gate).change me (cell.queued key me))) := midway.enter placed
  refine here.go deeper rfl (check_moves here.found midway.active) rfl fun after here => ?_
  refine here.step deeper rfl (makes_moves here.found (midway.unseen missing)) (.inl rfl) fun after here => ?_
  have jumps : Thread.next after.world me ⟨.run (.jump (plan.label key)), .factory (plan.job key) gate :: .user next :: frames⟩ =
      some (.silent (.run (plan.code key (plan.needs key))) (.factory (plan.job key) gate :: .user next :: frames)) :=
    congrArg (fun code => some (Move.silent (.run code) _)) (here.program key inside)
  refine here.go (deep gate) rfl jumps rfl fun after here => ?_
  have called : [(.factory plan.scope key : Item C)].filterMap (Item.tried? plan.scope) = [key] := by simp [Item.tried?]
  exact ⟨after, .refl _, gate, _, called ▸ here, midway⟩

theorem leaves {exit : Exit C}
    (here : plan.Stands keys me ((key, gate) :: path) stored tried ⟨.leave plan.scope (.building key gate) exit, frames⟩ system)
    (deep : Deep base most frames) (fresh : key ∉ path.map Prod.fst) :
    ∃ last, Stretch me (Thread.Nested base most) system last ∧ plan.Stands keys me path stored tried ⟨exit.focus, frames⟩ last := by
  obtain ⟨cell, here, midway⟩ := here
  refine here.does deep rfl rfl rfl rfl fun after here => ?_
  refine here.does deep rfl rfl rfl rfl fun after here => ?_
  refine here.does deep rfl rfl rfl rfl fun after here => ?_
  exact ⟨after, .refl _, _, here, (midway.left fresh).resharing _⟩

theorem resolves_built
    (here : plan.Stands keys me ((key, gate) :: path) stored tried
      ⟨.run (.built (plan.datum key) idle), .factory (plan.job key) gate :: frames⟩ system)
    (deep : Deep base most (.factory (plan.job key) gate :: frames)) (less : Deep base most frames)
    (missing : key ∉ stored) (fresh : key ∉ path.map Prod.fst) :
    ∃ last, Stretch me (Thread.Nested base most) system last ∧
      ∃ object, plan.Stands keys me path (stored ++ [key]) tried ⟨.back (.object object), frames⟩ last := by
  obtain ⟨cell, here, midway⟩ := here
  have nextInstance : system.world.nextInstance plan.scope = .kept plan.scope cell.instances.length := by
    rw [World.nextInstance, here.found]
    rfl
  have keeps : Thread.next system.world me ⟨.run (.built (plan.datum key) idle), .factory (plan.job key) gate :: frames⟩ =
      some (Move.keep system.world (plan.job key) gate (plan.datum key) idle frames) := rfl
  refine here.does deep rfl keeps rfl rfl fun after here => ?_
  have midway : plan.Midway keys me ((key, gate) :: path) (stored ++ [key])
      (cell.kept plan.scope key ⟨plan.type key, plan.datum key, idle⟩) := midway.kept missing _ _
  rw [show system.world.nextInstance (plan.job key).request.scope = _ from nextInstance] at here
  have more : ∀ frame : Frame C, frame.factory? = none → Deep base most (frame :: frames) := fun frame other => less.more other
  refine here.tells (more _ rfl) fun after here => ?_
  have made : after.world.instance? (.kept plan.scope cell.instances.length) = some ⟨plan.type key, plan.datum key, idle⟩ := by
    rw [World.instance?, here.found]
    simp [Effect.change, Scope.kept, job, request]
  refine here.go (more _ rfl) rfl (hook_moves made) rfl fun after here => ?_
  refine here.go (more _ rfl) rfl rfl rfl fun after here => ?_
  refine here.go (more _ rfl) rfl rfl rfl fun after here => ?_
  obtain ⟨last, stretch, there⟩ := leaves ⟨_, here, midway⟩ less fresh
  exact ⟨last, stretch, _, there⟩

theorem resolves_failed {fault : Fault}
    (here : plan.Stands keys me ((key, gate) :: path) stored tried
      ⟨.run (.fail (.fault fault)), .factory (plan.job key) gate :: frames⟩ system)
    (deep : Deep base most (.factory (plan.job key) gate :: frames)) (less : Deep base most frames)
    (fresh : key ∉ path.map Prod.fst) :
    ∃ last, Stretch me (Thread.Nested base most) system last ∧
      plan.Stands keys me path stored tried ⟨.back (.fault (.construction plan.scope.id key (.fault fault))), frames⟩ last := by
  obtain ⟨cell, here, midway⟩ := here
  refine here.go deep rfl rfl rfl fun after here => ?_
  refine here.go deep rfl rfl rfl fun after here => ?_
  exact leaves ⟨cell, here, midway⟩ less fresh

theorem resumes {reply : Reply C}
    (here : plan.Stands keys me path stored tried ⟨.back reply, .user next :: frames⟩ system) (deep : Deep base most frames) :
    ∃ last, Stretch me (Thread.Nested base most) system last ∧ plan.Stands keys me path stored tried ⟨.run (next reply), frames⟩ last := by
  obtain ⟨cell, here, midway⟩ := here
  refine here.go (deep.more rfl) rfl rfl rfl fun after here => ?_
  exact ⟨after, .refl _, cell, here, midway⟩

def outcome (plan : Recipes C) (key : String) : Option (List String × String) → Code C
  | none => .built (plan.datum key) idle
  | some (down, last) => .fail (.fault (blame plan.scope.id down last))

end Recipes
end Lifespan
