import Lifespan.Proofs.Registered

-- Tasks that share a registry and keep apart: each identity belongs to one of them, and a task, with all the
-- factories and hooks it gives away, asks for nothing that is another's.
namespace Lifespan

structure Division (C : Client) where
  registry : RegistryRef
  owner : ScopeId → ThreadId
  -- what shares a place shares its owner
  places : ∀ one two : ScopeId, one.SharesPlace two → owner one = owner two
  opens : ThreadId → C.Label → Prop
  Part : Type
  part : ThreadId → C.Memory → Part
  aside : C.Note → Bool

variable {C : Client}

namespace Division

def Owns (division : Division C) (me : ThreadId) (scope : ScopeRef) : Prop :=
  scope.registry = division.registry ∧ division.owner scope.id = me

def Names (division : Division C) (me : ThreadId) (registry : RegistryRef) (id : ScopeId) : Prop :=
  registry = division.registry ∧ division.owner id = me

def Tells (division : Division C) (me : ThreadId) (registry : RegistryRef) (event : Event) : Prop :=
  registry = division.registry ∧ ∃ id, event.scope? = some id ∧ division.owner id = me

def Has (division : Division C) (me : ThreadId) : InstanceRef → Prop
  | .kept scope _ => division.Owns me scope
  | .loose _ => False

def Gives (division : Division C) (me : ThreadId) : Reply C → Prop
  | .scope scope => division.Owns me scope
  | .object object => division.Has me object
  | _ => True

def Asks (division : Division C) (me : ThreadId) : Op C → Prop
  | .settings registry => registry = division.registry
  | .begin registry id | .finish registry id | .lookup registry id | .require registry id => division.Names me registry id
  | .endGuard guard | .dropGuard guard => guard.registry = division.registry ∧ division.Owns me guard.scope
  | .current registry context kind | .requireCurrent registry context kind => registry = division.registry ∧
      (∀ scope, context.bound kind = some scope → division.Owns me scope) ∧
      (context.bound kind = none → kind.isSingleSlot = true → division.owner ⟨kind, ""⟩ = me)
  | .state scope | .keys scope | .count scope | .peek scope _ _ | .holds scope _ | .setAttribute scope _ _ | .getAttribute scope _ _
    | .removeAttribute scope _ | .attributeNames scope => division.Owns me scope
  | .contents object => division.Has me object
  | _ => False

-- What the task does to the memory depends on its own part, and changes no other.
structure Keeps (division : Division C) (me : ThreadId) (update : C.Memory → C.Memory) : Prop where
  own : ∀ one two, division.part me one = division.part me two → division.part me (update one) = division.part me (update two)
  others : ∀ other, other ≠ me → ∀ memory, division.part other (update memory) = division.part other memory

-- Code of the task, with whatever it goes on with.
inductive Writes (division : Division C) (me : ThreadId) : Code C → Prop
  | done : Writes division me .done
  | built {datum : C.Datum} {hooks : Hooks (Code C)} (after : ∀ scope, division.Owns me scope → Writes division me (hooks.after scope))
      (before : ∀ scope, division.Owns me scope → Writes division me (hooks.before scope)) (destroy : Writes division me hooks.destroy) :
      Writes division me (.built datum hooks)
  | fail {cause : Cause} : Writes division me (.fail cause)
  | panic {panic : Panic} : Writes division me (.panic panic)
  | jump {label : C.Label} (opened : division.opens me label) : Writes division me (.jump label)
  | note {note : C.Note} {next : Code C} (plain : division.aside note = false) (onward : Writes division me next) :
      Writes division me (.note note next)
  | access {update : C.Memory → C.Memory} {next : C.Memory → Code C} (keeps : division.Keeps me update)
      (same : ∀ one two, division.part me one = division.part me two → next one = next two)
      (onward : ∀ memory, Writes division me (next memory)) : Writes division me (.access update next)
  | await {ready : C.Memory → Bool} {next : Code C}
      (same : ∀ one two, division.part me one = division.part me two → ready one = ready two) (onward : Writes division me next) :
      Writes division me (.await ready next)
  | awaitState {scope : ScopeRef} {state : State} {next : Reply C → Code C} (mine : division.Owns me scope)
      (onward : ∀ reached, Writes division me (next (.state reached))) : Writes division me (.awaitState scope state next)
  | pause {time : Nat} {next : Code C} (onward : Writes division me next) : Writes division me (.pause time next)
  | call {op : Op C} {next : Reply C → Code C} (mine : division.Asks me op)
      (onward : ∀ reply, division.Gives me reply → Writes division me (next reply)) : Writes division me (.call op next)
  | resolve {request : Request} {factory : ScopeRef → Code C} {next : Reply C → Code C} (mine : division.Owns me request.scope)
      (makes : Writes division me (factory request.scope))
      (onward : ∀ reply, division.Gives me reply → Writes division me (next reply)) : Writes division me (.resolve request factory next)

-- A listener comes to its end by itself, whatever the memory holds, and leaves the parts of the tasks alone.
inductive Hears (division : Division C) (program : C.Label → Code C) : Code C → Prop
  | done : Hears division program .done
  | fail {cause : Cause} : Hears division program (.fail cause)
  | jump {label : C.Label} (onward : Hears division program (program label)) : Hears division program (.jump label)
  | note {note : C.Note} {next : Code C} (aside : division.aside note = true) (onward : Hears division program next) :
      Hears division program (.note note next)
  | access {update : C.Memory → C.Memory} {next : C.Memory → Code C}
      (apart : ∀ task memory, division.part task (update memory) = division.part task memory)
      (onward : ∀ memory, Hears division program (next memory)) : Hears division program (.access update next)
  | pause {time : Nat} {next : Code C} (onward : Hears division program next) : Hears division program (.pause time next)

end Division

structure Hooks.Within (division : Division C) (me : ThreadId) (hooks : Hooks (Code C)) : Prop where
  after : ∀ scope, division.Owns me scope → division.Writes me (hooks.after scope)
  before : ∀ scope, division.Owns me scope → division.Writes me (hooks.before scope)
  destroy : division.Writes me hooks.destroy

structure Job.Within (division : Division C) (me : ThreadId) (job : Job C) : Prop where
  mine : division.Owns me job.request.scope
  makes : division.Writes me (job.factory job.request.scope)

structure Teardown.Within (division : Division C) (me : ThreadId) (teardown : Teardown) : Prop where
  mine : division.Owns me teardown.scope
  entries : ∀ one ∈ teardown.entries, division.Has me one.2.object
  rest : ∀ one ∈ teardown.rest, division.Has me one.2.object

def Sight.Within (division : Division C) (me : ThreadId) : Sight C → Prop
  | .first job | .inside job _ => job.Within division me
  | .peek request => division.Owns me request.scope
  | .holds scope _ => division.Owns me scope

def Point.Within (division : Division C) (me : ThreadId) : Point C → Prop
  | .sight place => place.Within division me
  | .shared job => job.Within division me

def Exit.Within (division : Division C) (me : ThreadId) : Exit C → Prop
  | .back reply => division.Gives me reply
  | .unwind _ => True

def Focus.Within (division : Division C) (me : ThreadId) : Focus C → Prop
  | .run code => division.Writes me code
  | .back reply => division.Gives me reply
  | .unwind _ => True
  | .emit registry event | .deliver registry event => division.Tells me registry event
  | .check point | .vouch point => point.Within division me
  | .look sight => sight.Within division me
  | .share job | .queue job | .turn job _ | .start job _ => job.Within division me
  | .leave scope _ exit | .reopen scope exit => division.Owns me scope ∧ exit.Within division me
  | .find registry id => division.Names me registry id
  | .retire scope | .exclude scope | .empty scope | .settle scope _ | .mark scope _ | .assign scope _ _ => division.Owns me scope
  | .clear scope entries => division.Owns me scope ∧ ∀ one ∈ entries, division.Has me one.2.object
  | .tear teardown => teardown.Within division me
  | .forget registry scope reply => registry = division.registry ∧ division.Owns me scope ∧ division.Gives me reply
  | .gather _ | .join _ _ => False

def Frame.Within (division : Division C) (me : ThreadId) : Frame C → Prop
  | .user next => ∀ reply, division.Gives me reply → division.Writes me (next reply)
  | .begun scope | .torn scope | .closed scope _ => division.Owns me scope
  | .factory job _ => job.Within division me
  | .created job _ object | .welcomed job _ object => job.Within division me ∧ division.Has me object
  | .hooked teardown _ | .reported teardown => teardown.Within division me
  | .ended registry scope => registry = division.registry ∧ division.Owns me scope
  | .released _ => True
  | .delivering _ _ | .sweeping _ _ _ | .dropped | .invoked _ => False

def Effect.Within (division : Division C) (me : ThreadId) : Effect C → Prop
  | .still => True
  | .remember update => division.Keeps me update
  | .register registry id => division.Names me registry id
  | .forget registry scope => registry = division.registry ∧ division.Owns me scope
  | .keep scope _ made => division.Owns me scope ∧ made.hooks.Within division me
  | .establish _ | .listen _ _ | .make _ => False
  | effect => ∀ scope, effect.target? = some scope → division.Owns me scope

-- Of the events only those of its own scopes; none of the listener's notes.
def Item.Within (division : Division C) (me : ThreadId) : Item C → Prop
  | .emitted registry event | .delivered registry event => division.Tells me registry event
  | .note written => division.aside written = false
  | _ => True

structure Thread.Within (division : Division C) (me : ThreadId) (thread : Thread C) : Prop where
  acts : thread.focus.Within division me
  waits : ∀ frame ∈ thread.frames, frame.Within division me

inductive Thread.Listens (division : Division C) (program : C.Label → Code C) (event : Event) (frames : List (Frame C)) : Thread C → Prop
  | hears {code : Code C} (quiet : division.Hears program code) :
      Listens division program event frames ⟨.run code, .delivering division.registry event :: frames⟩
  | heard {reply : Reply C} : Listens division program event frames ⟨.back reply, .delivering division.registry event :: frames⟩

-- A task about its own business, or while it lets the listener do its.
inductive Thread.Placed (division : Division C) (me : ThreadId) (program : C.Label → Code C) (thread : Thread C) : Prop
  | own (within : thread.Within division me)
  | listening {event : Event} {frames : List (Frame C)} (hears : thread.Listens division program event frames)
      (waits : ∀ frame ∈ frames, frame.Within division me)

theorem Thread.Placed.doing {division : Division C} {me : ThreadId} {program : C.Label → Code C} {focus : Focus C}
    {frames : List (Frame C)} (acts : focus.Within division me) (waits : ∀ frame ∈ frames, frame.Within division me) :
    Thread.Placed division me program ⟨focus, frames⟩ :=
  .own ⟨acts, waits⟩

structure Move.Within (division : Division C) (me : ThreadId) (program : C.Label → Code C) (move : Move C) : Prop where
  effect : move.effect.Within division me
  items : ∀ item ∈ move.items, item.Within division me
  thread : Thread.Placed division me program ⟨move.focus, move.frames⟩

structure Scope.Within (division : Division C) (me : ThreadId) (cell : Scope C) : Prop where
  hooks : ∀ made ∈ cell.instances, made.hooks.Within division me
  entries : ∀ key entry, cell.store.get? key = some entry → division.Has me entry.object

structure Divided (division : Division C) (world : World C) : Prop where
  scopes : ∀ me scope cell, division.Owns me scope → world.scope? scope = some cell → cell.Within division me
  occupant : ∀ id scope, world.occupant division.registry id = some scope → division.Owns (division.owner id) scope
  program : ∀ me label, division.opens me label → division.Writes me (world.program label)
  registry : ∃ cell, world.registries[division.registry]? = some cell ∧
    ∀ listener, cell.listener = some listener → ∀ event, division.Hears world.program (listener event)

structure Agrees (division : Division C) (me : ThreadId) (one two : World C) : Prop where
  program : two.program = one.program
  part : division.part me two.memory = division.part me one.memory
  scopes : ∀ scope, division.Owns me scope → two.scope? scope = one.scope? scope
  occupant : ∀ id, division.owner id = me → two.occupant division.registry id = one.occupant division.registry id
  next : ∀ id, division.owner id = me → two.nextScope division.registry id = one.nextScope division.registry id
  settings : (two.registries[division.registry]?).map Registry.settings = (one.registries[division.registry]?).map Registry.settings
  listener : (two.registries[division.registry]?).map Registry.listener = (one.registries[division.registry]?).map Registry.listener

section
variable {division : Division C} {me : ThreadId} {world one two three : World C} {scope : ScopeRef} {id : ScopeId} {frames : List (Frame C)}

theorem Division.Owns.alone {other : ThreadId} (mine : division.Owns me scope) (his : division.Owns other scope) : other = me :=
  his.2.symm.trans mine.2

theorem Agrees.refl (world : World C) : Agrees division me world world :=
  ⟨rfl, rfl, fun _ _ => rfl, fun _ _ => rfl, fun _ _ => rfl, rfl, rfl⟩

theorem Agrees.trans (first : Agrees division me one two) (second : Agrees division me two three) : Agrees division me one three where
  program := second.program.trans first.program
  part := second.part.trans first.part
  scopes scope mine := (second.scopes scope mine).trans (first.scopes scope mine)
  occupant id mine := (second.occupant id mine).trans (first.occupant id mine)
  next id mine := (second.next id mine).trans (first.next id mine)
  settings := second.settings.trans first.settings
  listener := second.listener.trans first.listener

theorem Agrees.symm (agrees : Agrees division me one two) : Agrees division me two one where
  program := agrees.program.symm
  part := agrees.part.symm
  scopes scope mine := (agrees.scopes scope mine).symm
  occupant id mine := (agrees.occupant id mine).symm
  next id mine := (agrees.next id mine).symm
  settings := agrees.settings.symm
  listener := agrees.listener.symm

theorem Agrees.isActive (agrees : Agrees division me one two) (mine : division.Owns me scope) : two.isActive scope = one.isActive scope := by
  simp [World.isActive, agrees.scopes scope mine]

theorem Agrees.isAlive (agrees : Agrees division me one two) (mine : division.Owns me scope) : two.isAlive scope = one.isAlive scope := by
  simp [World.isAlive, agrees.scopes scope mine]

theorem Agrees.instance? {object : InstanceRef} (agrees : Agrees division me one two) (has : division.Has me object) :
    two.instance? object = one.instance? object := by
  cases object with
  | kept scope => simp [World.instance?, agrees.scopes scope has]
  | loose => exact has.elim

theorem Divided.hooks {object : InstanceRef} {made : Instance C} (divided : Divided division world) (has : division.Has me object)
    (found : world.instance? object = some made) : made.hooks.Within division me := by
  cases object with
  | loose => exact has.elim
  | kept scope index =>
    obtain ⟨cell, known, there⟩ := Option.bind_eq_some_iff.mp found
    exact (divided.scopes me scope cell has known).hooks made (List.mem_of_getElem? there)

theorem Divided.stands (divided : Divided division world) (mine : division.owner id = me)
    (holds : world.occupant division.registry id = some scope) : division.Owns me scope :=
  mine ▸ divided.occupant id scope holds

theorem Divided.registered (divided : Divided division world) (mine : division.owner id = me)
    (holds : world.registered division.registry id = some scope) : division.Owns me scope :=
  divided.stands mine (Option.filter_eq_some_iff.mp holds).1

theorem Agrees.registered (agrees : Agrees division me one two) (mine : division.owner id = me) :
    two.registered division.registry id = one.registered division.registry id := by
  simp only [World.registered, agrees.occupant id mine]

theorem Agrees.active_only {found : Option ScopeRef} (agrees : Agrees division me one two)
    (mine : ∀ scope, found = some scope → division.Owns me scope) : found.filter two.isActive = found.filter one.isActive := by
  cases found with
  | none => rfl
  | some scope => simp only [Option.filter_some, agrees.isActive (mine scope rfl)]

theorem Agrees.lookup (divided : Divided division one) (agrees : Agrees division me one two) (mine : division.owner id = me) :
    two.lookup division.registry id = one.lookup division.registry id := by
  simp only [World.lookup, agrees.registered mine]
  exact agrees.active_only fun scope holds => divided.registered mine holds

theorem Agrees.current {context : Context} {kind : Kind} (divided : Divided division one) (agrees : Agrees division me one two)
    (asks : division.Asks me (.current division.registry context kind)) :
    two.current division.registry context kind = one.current division.registry context kind := by
  obtain ⟨_, bound, single⟩ := asks
  unfold World.current
  cases found : context.bound kind with
  | some scope => simp only [agrees.isActive (bound scope found)]
  | none =>
    dsimp only
    split
    · rename_i alone
      have mine := single found alone
      rw [agrees.occupant _ mine]
      exact agrees.active_only fun scope holds => divided.stands mine holds
    · rfl

theorem Agrees.read {op : Op C} (divided : Divided division one) (agrees : Agrees division me one two) (asks : division.Asks me op) :
    two.read op = one.read op := by
  cases op with
  | settings registry =>
    cases asks
    have same := congrArg (Option.map (Reply.settings (C := C))) agrees.settings
    rw [Option.map_map, Option.map_map] at same
    exact same
  | lookup registry id | require registry id =>
    obtain ⟨rfl, mine⟩ := asks
    simp only [World.read, agrees.lookup divided mine]
  | current registry context kind | requireCurrent registry context kind =>
    obtain ⟨rfl, bound⟩ := asks
    simp only [World.read, agrees.current divided ⟨rfl, bound⟩]
  | state scope | keys scope | count scope | getAttribute scope | attributeNames scope =>
    simp only [World.read, agrees.scopes scope asks]
  | contents object => simp only [World.read, agrees.instance? asks]
  | activeCount | ids => exact asks.elim
  | _ => rfl

theorem Agrees.begin (divided : Divided division one) (agrees : Agrees division me one two) (mine : division.owner id = me) :
    Move.begin two division.registry id frames = Move.begin one division.registry id frames := by
  obtain ⟨cell, found, _⟩ := divided.registry
  have known := agrees.settings
  rw [found] at known
  obtain ⟨other, there, _⟩ := Option.map_eq_some_iff.mp known
  have occupant := agrees.occupant id mine
  have here : one.occupant division.registry id = cell.directory.occupant id := by simp [World.occupant, found]
  have same : other.directory.occupant id = cell.directory.occupant id := by
    rw [← here, ← occupant]
    simp [World.occupant, there]
  have alive : (cell.directory.occupant id).any two.isAlive = (cell.directory.occupant id).any one.isAlive := by
    cases stands : cell.directory.occupant id with
    | none => rfl
    | some scope => exact agrees.isAlive (divided.stands mine (here.trans stands))
  simp only [Move.begin, found, there, Option.map_some, same, alive, agrees.next id mine]

theorem Agrees.callHook {hook : HookCall} (agrees : Agrees division me one two) (has : division.Has me hook.object) :
    Move.callHook two hook frames = Move.callHook one hook frames := by
  simp only [Move.callHook, agrees.instance? has]

theorem Agrees.call {op : Op C} (divided : Divided division one) (agrees : Agrees division me one two) (asks : division.Asks me op) :
    Move.call two op frames = Move.call one op frames := by
  cases op with
  | begin registry id =>
    obtain ⟨rfl, mine⟩ := asks
    exact agrees.begin divided mine
  | setAttribute scope | removeAttribute scope => simp only [Move.call, agrees.scopes scope asks]
  | finish | endGuard | dropGuard | peek | holds => rfl
  | establish | silence | shutdown | drop | destroyAll | invoke => exact asks.elim
  | _ => simp only [Move.call, agrees.read divided asks]

theorem Agrees.run {code : Code C} (divided : Divided division one) (agrees : Agrees division me one two) (writes : division.Writes me code)
    (waits : ∀ frame ∈ frames, frame.Within division me) : Move.run two code frames = Move.run one code frames := by
  cases writes with
  | built =>
    cases frames with
    | nil => rfl
    | cons frame rest =>
      cases frame with
      | factory job gate =>
        have job : job.Within division me := waits _ List.mem_cons_self
        simp only [Move.run, Move.keep, World.nextInstance, agrees.scopes _ job.mine]
      | _ => rfl
  | jump => simp only [Move.run, agrees.program]
  | access _ same => simp only [Move.run, same _ _ agrees.part]
  | await same => simp only [Move.run, same _ _ agrees.part]
  | awaitState mine => simp only [Move.run, agrees.scopes _ mine]
  | call mine => simp only [Move.run, agrees.call divided mine]
  | _ => rfl

theorem Agrees.back {reply : Reply C} (agrees : Agrees division me one two) (waits : ∀ frame ∈ frames, frame.Within division me) :
    Move.back two reply frames = Move.back one reply frames := by
  unfold Move.back
  split <;> try rfl
  rename_i job gate object rest
  have job : Frame.Within division me (.created job gate object) := waits _ List.mem_cons_self
  exact agrees.callHook job.2

theorem Agrees.tear {teardown : Teardown} (agrees : Agrees division me one two) (within : teardown.Within division me) :
    Move.tear two teardown frames = Move.tear one teardown frames := by
  unfold Move.tear
  split
  · rfl
  · rfl
  · rename_i key entry rest _ left
    exact agrees.callHook (within.rest (key, entry) (by simp [left]))
  · rename_i key entry rest _ left
    exact agrees.callHook (within.rest (key, entry) (by simp [left]))

theorem Sight.Within.mine {sight : Sight C} (within : sight.Within division me) : division.Owns me sight.scope := by
  cases sight with
  | first | inside => exact Job.Within.mine within
  | peek | holds => exact within

theorem Point.Within.mine {point : Point C} (within : point.Within division me) : division.Owns me point.scope := by
  cases point with
  | sight => exact Sight.Within.mine within
  | shared => exact Job.Within.mine within

theorem Agrees.move {focus : Focus C} (divided : Divided division one) (agrees : Agrees division me one two)
    (acts : focus.Within division me) (waits : ∀ frame ∈ frames, frame.Within division me) :
    Thread.next two me ⟨focus, frames⟩ = Thread.next one me ⟨focus, frames⟩ := by
  cases focus with
  | run code => exact agrees.run divided acts waits
  | back reply => exact agrees.back waits
  | emit registry event =>
    cases acts.1
    have same := congrArg (Option.map fun settings => (⟨.still,
      [.emitted division.registry event, .logged (.ofEvent settings event)], .deliver division.registry event, frames⟩ : Move C)) agrees.settings
    rw [Option.map_map, Option.map_map] at same
    exact same
  | deliver registry event =>
    cases acts.1
    have same := agrees.listener
    simp only [Thread.next, Move.deliver]
    generalize one.registries[division.registry]? = here at same ⊢
    generalize two.registries[division.registry]? = there at same ⊢
    cases here <;> cases there <;> simp_all
  | check point => simp only [Thread.next, Move.check, agrees.scopes _ (Point.Within.mine acts)]
  | vouch point => simp only [Thread.next, Move.vouch, agrees.scopes _ (Point.Within.mine acts)]
  | look sight => simp only [Thread.next, Move.look, agrees.scopes _ (Sight.Within.mine acts)]
  | share job => simp only [Thread.next, Move.share, agrees.scopes _ acts.mine]
  | queue job => simp only [Thread.next, Move.queue, agrees.scopes _ acts.mine]
  | turn job => simp only [Thread.next, Move.turn, agrees.scopes _ acts.mine]
  | find registry id =>
    obtain ⟨rfl, mine⟩ := acts
    simp only [Thread.next, Move.find, agrees.registered mine]
  | retire scope => simp only [Thread.next, Move.retire, agrees.scopes scope acts]
  | exclude scope => simp only [Thread.next, Move.exclude, agrees.scopes scope acts]
  | empty scope => simp only [Thread.next, Move.empty, agrees.scopes scope acts]
  | tear teardown => exact agrees.tear acts
  | gather | join => exact acts.elim
  | _ => rfl

end
end Lifespan
