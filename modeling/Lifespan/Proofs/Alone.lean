import Lifespan.Proofs.Parted

-- A task among others and the same task by itself. The one that is by itself stands still while the listener
-- hears an event of the other, and has it heard through when the other goes on.
namespace Lifespan
variable {C : Client} {division : Division C} {me other : ThreadId} {world : World C} {event : Event} {frames : List (Frame C)}
  {program : C.Label → Code C} {move : Move C} {thread later here there any : Thread C} {count : Nat}

def Thread.pause? (thread : Thread C) : Option Nat :=
  match thread.focus with
  | .run (.pause left _) => some left
  | _ => none

namespace System
variable {before middle after system : System C}

def Comes (before after : System C) : Prop := ∃ budget, run budget before = after

theorem run_stuck (stuck : system.move? = none) (budget : Nat) : run budget system = system := by
  cases budget with
  | zero => rfl
  | succ => simp [run, stuck]

theorem run_add (first more : Nat) (system : System C) : run (first + more) system = run more (run first system) := by
  induction first generalizing system with
  | zero => rw [Nat.zero_add]; rfl
  | succ first ih =>
    rw [Nat.succ_add]
    cases moved : system.move? with
    | none => rw [run_stuck moved, run_stuck moved, run_stuck moved]
    | some next => simpa [run, moved] using ih next

theorem Comes.refl (system : System C) : Comes system system := ⟨0, rfl⟩

theorem Comes.trans (first : Comes before middle) (second : Comes middle after) : Comes before after := by
  obtain ⟨budget, rfl⟩ := first
  obtain ⟨more, rfl⟩ := second
  exact ⟨budget + more, run_add ..⟩

theorem Comes.single (moved : before.move? = some after) : Comes before after := ⟨1, by simp [run, moved]⟩

theorem Comes.runs (comes : Comes before after) : Runs before after := by
  obtain ⟨budget, rfl⟩ := comes
  exact run_runs budget before

def lonely (count : Nat) (me : ThreadId) (thread : Thread C) : List (Thread C) := (List.replicate count ⟨.back .done, []⟩).set me thread

theorem lonely_self (inside : me < count) : (lonely count me thread)[me]? = some thread :=
  List.getElem?_set_self (by simpa using inside)

theorem lonely_other (apart : other ≠ me) (running : (lonely count me thread)[other]? = some any) : any = ⟨.back .done, []⟩ := by
  rw [lonely, List.getElem?_set_ne apart.symm] at running
  exact (List.mem_replicate.mp (List.mem_of_getElem? running)).2

theorem lonely_set : (lonely count me thread).set me later = lonely count me later := List.set_set ..

theorem lonely_elapse (passed : Nat) : elapse ⟨world, lonely count me thread⟩ passed = ⟨world, lonely count me (waited passed thread)⟩ := by
  simp [elapse, lonely, List.map_set, waited]

theorem lonely_rests (apart : other ≠ me) : advance ⟨world, lonely count me thread⟩ other = none := by
  cases running : (lonely count me thread)[other]? with
  | none => simp [advance, running]
  | some one =>
    cases lonely_other apart running
    simp [advance, running, Thread.next, Move.back]

theorem lonely_moves (inside : me < count) (moved : advance ⟨world, lonely count me thread⟩ me = some after) :
    move? ⟨world, lonely count me thread⟩ = some after := by
  have known : me < (lonely count me thread).length := by simpa [lonely] using inside
  unfold move?
  cases found : (List.range (lonely count me thread).length).findSome? (advance ⟨world, lonely count me thread⟩) with
  | none =>
    have stuck := List.findSome?_eq_none_iff.mp found me (List.mem_range.mpr known)
    cases moved.symm.trans stuck
  | some next =>
    obtain ⟨acting, _, goes⟩ := List.exists_of_findSome?_eq_some found
    by_cases mine : acting = me
    · subst mine
      exact goes.symm.trans moved
    · cases (lonely_rests mine).symm.trans goes

theorem lonely_pauses (inside : me < count) : (lonely count me thread).filterMap Thread.pause? = thread.pause?.toList := by
  have ended : Thread.pause? (⟨.back .done, []⟩ : Thread C) = none := rfl
  rw [lonely, List.set_eq_take_append_cons_drop, if_pos (by simpa using inside), List.filterMap_append, List.take_replicate,
    List.drop_replicate, List.filterMap_replicate_of_none ended]
  cases pauses : thread.pause? <;> simp [pauses, List.filterMap_replicate_of_none ended]

theorem lonely_stays (inside : me < count) (stuck : advance ⟨world, lonely count me thread⟩ me = none) :
    move? ⟨world, lonely count me thread⟩ = thread.pause?.map (elapse ⟨world, lonely count me thread⟩) := by
  have rests : (List.range (lonely count me thread).length).findSome? (advance ⟨world, lonely count me thread⟩) = none := by
    refine List.findSome?_eq_none_iff.mpr fun acting _ => ?_
    by_cases mine : acting = me
    · exact mine ▸ stuck
    · exact lonely_rests mine
  have pauses : pauses ⟨world, lonely count me thread⟩ = thread.pause?.toList := lonely_pauses inside
  unfold move?
  rw [rests, pauses]
  cases thread.pause? <;> rfl

theorem lonely_step (inside : me < count) (moved : thread.next world me = some move)
    (alone : ∀ count body next, thread.focus ≠ .run (.fork count body next)) (free : ∀ names next, thread.focus ≠ .join names next) :
    Comes ⟨world, lonely count me thread⟩ ⟨record (move.effect.apply me world) me move.items, lonely count me ⟨move.focus, move.frames⟩⟩ := by
  refine .single (lonely_moves inside ?_)
  rw [advance_moves (lonely_self inside) alone free, moved]
  exact congrArg some (congrArg (System.mk _) lonely_set)

theorem lonely_silent {focus next : Focus C} {more : List (Frame C)} (inside : me < count)
    (moved : Thread.next world me ⟨focus, frames⟩ = some (.silent next more))
    (alone : ∀ count body next, focus ≠ .run (.fork count body next)) (free : ∀ names next, focus ≠ .join names next) :
    Comes ⟨world, lonely count me ⟨focus, frames⟩⟩ ⟨world, lonely count me ⟨next, more⟩⟩ :=
  lonely_step inside moved alone free

theorem lonely_pause {left : Nat} {next : Code C} (inside : me < count) :
    Comes ⟨world, lonely count me ⟨.run (.pause left next), frames⟩⟩ ⟨world, lonely count me ⟨.run next, frames⟩⟩ := by
  have goesOn : Comes ⟨world, lonely count me ⟨.run (.pause 0 next), frames⟩⟩ ⟨world, lonely count me ⟨.run next, frames⟩⟩ :=
    lonely_silent inside rfl nofun nofun
  cases left with
  | zero => exact goesOn
  | succ left =>
    have waits : (System.mk world (lonely count me ⟨.run (.pause (left + 1) next), frames⟩)).threads[me]? = some ⟨.run (.pause (left + 1) next), frames⟩ :=
      lonely_self inside
    have stuck := (advance_moves waits nofun nofun).trans rfl
    have passes := (lonely_stays inside stuck).trans (congrArg some (lonely_elapse _))
    refine .trans (.single passes) ?_
    simpa [waited] using goesOn

theorem lonely_hears {code : Code C} (inside : me < count) (quiet : division.Hears program code) (same : world.program = program) :
    ∃ last, Comes ⟨world, lonely count me ⟨.run code, .delivering division.registry event :: frames⟩⟩
        ⟨last, lonely count me ⟨.back .done, frames⟩⟩ ∧ Seems division me world last := by
  have heard (world : World C) (reply : Reply C) : Comes ⟨world, lonely count me ⟨.back reply, .delivering division.registry event :: frames⟩⟩
      ⟨world, lonely count me ⟨.back .done, frames⟩⟩ := lonely_silent inside rfl nofun nofun
  induction quiet generalizing world with
  | done => exact ⟨world, .trans (lonely_silent inside rfl nofun nofun) (heard world .done), .refl world⟩
  | @fail cause => exact ⟨world, .trans (lonely_silent inside rfl nofun nofun) (heard world (.failed cause)), .refl world⟩
  | jump _ ih =>
    obtain ⟨last, comes, seems⟩ := ih same
    subst same
    exact ⟨last, .trans (lonely_silent inside rfl nofun nofun) comes, seems⟩
  | @note note next aside _ ih =>
    obtain ⟨last, comes, seems⟩ := @ih (record world me [.note note]) same
    have hushed : Move.Aside division ⟨.still, [.note note], .run next, .delivering division.registry event :: frames⟩ :=
      ⟨.inl rfl, fun item member => by cases List.mem_singleton.mp member; exact aside⟩
    exact ⟨last, .trans (lonely_step inside rfl nofun nofun) comes, (seems_aside hushed).trans seems⟩
  | @access update next apart _ ih =>
    obtain ⟨last, comes, seems⟩ := @ih world.memory (record ((Effect.remember update).apply me world) me []) same
    have hushed : Move.Aside division (.changing (.remember update) (.run (next world.memory)) (.delivering division.registry event :: frames)) :=
      ⟨.inr ⟨update, rfl, apart⟩, fun _ none => by cases none⟩
    exact ⟨last, .trans (lonely_step inside rfl nofun nofun) comes, (seems_aside hushed).trans seems⟩
  | pause _ ih =>
    obtain ⟨last, comes, seems⟩ := ih same
    exact ⟨last, .trans (lonely_pause inside) comes, seems⟩

inductive Matches (division : Division C) (me : ThreadId) (program : C.Label → Code C) : Thread C → Thread C → Prop
  | same {here : Thread C} (passed : Nat) (within : here.Within division me) : Matches division me program here (waited passed here)
  | listening {here there : Thread C} {event : Event} {frames : List (Frame C)} (hears : here.Listens division program event frames)
      (heard : there.Listens division program event frames) (waits : ∀ frame ∈ frames, frame.Within division me) :
      Matches division me program here there

structure Beside (division : Division C) (count : Nat) (me : ThreadId) (system : System C) (world : World C) (here : Thread C) : Prop where
  parted : Parted division system
  alone : Parted division ⟨world, lonely count me here⟩
  seems : Seems division me world system.world
  thread : ∃ there, system.threads[me]? = some there ∧ Matches division me world.program here there

theorem placed_matches (placed : thread.Placed division me program) : Matches division me program thread thread := by
  cases placed with
  | own within =>
    have still : waited 0 thread = thread := by
      rcases waited_cases 0 thread with same | ⟨left, next, frames, rfl, same⟩
      · exact same
      · exact same
    have matching : Matches division me program thread (waited 0 thread) := .same 0 within
    rwa [still] at matching
  | listening hears waits => exact .listening hears hears waits

theorem beside_own (inside : me < count) (beside : Beside division count me before world here) (within : here.Within division me)
    (running : before.threads[me]? = some here) (moved : before.advance me = some after) :
    ∃ last now, Comes ⟨world, lonely count me here⟩ ⟨last, lonely count me now⟩ ∧ Beside division count me after last now := by
  have placed : Thread.Placed division me world.program here := .own within
  have steps := moved
  rw [placed_advance running placed] at steps
  obtain ⟨move, goes, rfl⟩ := Option.map_eq_some_iff.mp steps
  have same : here.next before.world me = here.next world me :=
    beside.seems.agrees.move beside.alone.world within.acts within.waits
  rw [same] at goes
  have mine := move_within beside.alone.world within.acts within.waits goes
  have comes := lonely_step inside goes (placed_single placed).1 (placed_single placed).2
  refine ⟨_, _, comes, parted_step beside.parted (.thread me moved), parted_runs beside.alone comes.runs,
    seems_own beside.alone.world beside.parted.world beside.seems mine, ⟨move.focus, move.frames⟩,
    List.getElem?_set_self (List.getElem?_eq_some_iff.mp running).1, ?_⟩
  have program : (record (move.effect.apply me world) me move.items).program = world.program := apply_program
  rw [program]
  exact placed_matches mine.thread

-- While the listener hears an event of the task there, the task here stands still; when it has heard it there,
-- it hears it here.
theorem beside_listening (inside : me < count) (beside : Beside division count me before world here)
    (hears : here.Listens division world.program event frames) (heard : there.Listens division world.program event frames)
    (waits : ∀ frame ∈ frames, frame.Within division me) (running : before.threads[me]? = some there)
    (moved : before.advance me = some after) :
    ∃ last now, Comes ⟨world, lonely count me here⟩ ⟨last, lonely count me now⟩ ∧ Beside division count me after last now := by
  have program := beside.seems.agrees.program
  have placed : Thread.Placed division me world.program there := .listening heard waits
  have steps := moved
  rw [placed_advance running placed] at steps
  obtain ⟨move, goes, rfl⟩ := Option.map_eq_some_iff.mp steps
  rw [← program] at heard
  obtain ⟨aside, onward⟩ := listens_moves heard goes
  have parted := parted_step beside.parted (.thread me moved)
  have seems : Seems division me world (before.perform me move).world := beside.seems.trans (seems_aside aside)
  have runs : (before.perform me move).threads[me]? = some ⟨move.focus, move.frames⟩ :=
    List.getElem?_set_self (List.getElem?_eq_some_iff.mp running).1
  rcases onward with still | past
  · rw [program] at still
    exact ⟨world, here, .refl _, parted, beside.alone, seems, _, runs, .listening hears still waits⟩
  · obtain ⟨last, comes, hushed⟩ : ∃ last, Comes ⟨world, lonely count me here⟩ ⟨last, lonely count me ⟨.back .done, frames⟩⟩ ∧
        Seems division me world last := by
      cases hears with
      | hears quiet => exact lonely_hears inside quiet rfl
      | heard => exact ⟨world, lonely_silent inside rfl nofun nofun, .refl world⟩
    have done : Matches division me last.program ⟨.back .done, frames⟩ ⟨.back .done, frames⟩ := placed_matches (.own ⟨trivial, waits⟩)
    rw [past] at runs
    exact ⟨last, _, comes, parted, parted_runs beside.alone comes.runs, hushed.symm.trans seems, _, runs, done⟩

theorem beside_paused {left passed : Nat} {next : Code C} (inside : me < count)
    (beside : Beside division count me before world ⟨.run (.pause left next), frames⟩)
    (within : Thread.Within division me ⟨.run (.pause left next), frames⟩)
    (running : before.threads[me]? = some ⟨.run (.pause (left - passed) next), frames⟩) (moved : before.advance me = some after) :
    ∃ last now, Comes ⟨world, lonely count me ⟨.run (.pause left next), frames⟩⟩ ⟨last, lonely count me now⟩ ∧
      Beside division count me after last now := by
  have steps := moved
  rw [advance_moves running nofun nofun] at steps
  obtain ⟨move, goes, rfl⟩ := Option.map_eq_some_iff.mp steps
  have later : Thread.Within division me ⟨.run next, frames⟩ := by
    obtain ⟨acts, waits⟩ := within
    cases acts with
    | pause onward => exact ⟨onward, waits⟩
  simp only [Thread.next, Move.run] at goes
  split at goes <;> cases goes
  have comes : Comes ⟨world, lonely count me ⟨.run (.pause left next), frames⟩⟩ ⟨world, lonely count me ⟨.run next, frames⟩⟩ :=
    lonely_pause inside
  exact ⟨world, _, comes, parted_step beside.parted (.thread me moved), parted_runs beside.alone comes.runs, beside.seems, _,
    List.getElem?_set_self (List.getElem?_eq_some_iff.mp running).1, placed_matches (.own later)⟩

theorem waited_waited (first more : Nat) (thread : Thread C) : waited more (waited first thread) = waited (first + more) thread := by
  obtain ⟨focus, frames⟩ := thread
  cases focus with
  | run code =>
    cases code with
    | pause left next => simp [waited, Nat.sub_sub]
    | _ => rfl
  | _ => rfl

theorem beside_step (inside : me < count) (beside : Beside division count me before world here) (next : Step before after) :
    ∃ last now, Comes ⟨world, lonely count me here⟩ ⟨last, lonely count me now⟩ ∧ Beside division count me after last now := by
  obtain ⟨there, running, matching⟩ := beside.thread
  cases next with
  | time passed =>
    refine ⟨world, here, .refl _, parted_step beside.parted (.time passed), beside.alone, beside.seems, waited passed there,
      by simp [elapse, running], ?_⟩
    cases matching with
    | same before within => rw [waited_waited]; exact .same _ within
    | listening hears heard waits => exact .listening hears (listens_waited passed heard) waits
  | thread acting moved =>
    by_cases mine : acting = me
    · subst mine
      cases matching with
      | same passed within =>
        rcases waited_cases passed here with same | ⟨left, next, frames, rfl, same⟩
        · exact beside_own inside beside within (same ▸ running) moved
        · exact beside_paused inside beside within (same ▸ running) moved
      | listening hears heard waits => exact beside_listening inside beside hears heard waits running moved
    · have parted := parted_step beside.parted (.thread acting moved)
      obtain ⟨thread, runs, _⟩ := advance_cases moved
      have placed := beside.parted.threads acting thread runs
      have still := advance_other moved mine running
      have steps := moved
      rw [placed_advance runs placed] at steps
      obtain ⟨move, goes, rfl⟩ := Option.map_eq_some_iff.mp steps
      have seems : Seems division me before.world (before.perform acting move).world := by
        rcases placed_moves beside.parted.world placed goes with ⟨_, within⟩ | ⟨_, _, _, _, aside, _⟩
        · exact seems_apart beside.parted.world within mine
        · exact seems_aside aside
      exact ⟨world, here, .refl _, parted, beside.alone, beside.seems.trans seems, there, still, matching⟩

theorem beside_runs (inside : me < count) (path : Runs before system) (beside : Beside division count me before world here) :
    ∃ last now, Comes ⟨world, lonely count me here⟩ ⟨last, lonely count me now⟩ ∧ Beside division count me system last now := by
  induction path with
  | refl => exact ⟨world, here, .refl _, beside⟩
  | step _ next ih =>
    obtain ⟨reached, there, comes, still⟩ := ih
    obtain ⟨last, now, onward, beside⟩ := beside_step inside still next
    exact ⟨last, now, comes.trans onward, beside⟩

-- A task is where it would be by itself: it got the same replies and goes on with the same, its scopes are in the same
-- state, and the same has happened to it and been told of its scopes, in the same order.
structure AsAlone (division : Division C) (me : ThreadId) (together alone : System C) : Prop where
  thread : ∃ here there, alone.threads[me]? = some here ∧ together.threads[me]? = some there ∧
    Matches division me together.world.program here there
  scopes : ∀ scope, division.Owns me scope → together.world.scope? scope = alone.world.scope? scope
  registered : ∀ id, division.owner id = me →
    together.world.occupant division.registry id = alone.world.occupant division.registry id
  doings : together.world.doings division me = alone.world.doings division me
  told : ∀ id, division.owner id = me →
    concerning division.registry id together.world.announced = concerning division.registry id alone.world.announced
  ended : (together.threads[me]?).bind Thread.ending? = (alone.threads[me]?).bind Thread.ending?
  waits : together.advance me = none → (together.threads[me]?).bind Thread.pause? = none → alone.move? = none

theorem listens_on (listens : thread.Listens division program event frames) : thread.ending? = none := by
  cases listens with
  | hears => rfl
  | @heard reply => cases reply <;> rfl

theorem matches_ended (matching : Matches division me program here there) : there.ending? = here.ending? := by
  cases matching with
  | same passed =>
    rcases waited_cases passed here with same | ⟨left, next, frames, rfl, same⟩
    · rw [same]
    · rw [same]
      rfl
  | listening hears heard =>
    rw [listens_on hears, listens_on heard]

theorem listens_goes (listens : thread.Listens division world.program event frames) (busy : thread.pause? = none) :
    (thread.next world me).isSome := by
  cases listens with
  | heard => rfl
  | hears quiet =>
    cases quiet with
    | pause => cases busy
    | _ => rfl

theorem beside_waits (inside : me < count) (beside : Beside division count me system world here) (running : system.threads[me]? = some there)
    (stuck : system.advance me = none) (busy : there.pause? = none) : move? ⟨world, lonely count me here⟩ = none := by
  obtain ⟨_, runs, matching⟩ := beside.thread
  cases running.symm.trans runs
  have placed := beside.parted.threads me there running
  rw [placed_advance running placed, Option.map_eq_none_iff] at stuck
  cases matching with
  | listening _ heard =>
    rw [← beside.seems.agrees.program] at heard
    have goes : (there.next system.world me).isSome := listens_goes heard busy
    rw [stuck] at goes
    cases goes
  | same passed within =>
    rcases waited_cases passed here with same | ⟨left, next, frames, rfl, same⟩
    · rw [same] at stuck busy
      have moves : here.next system.world me = here.next world me :=
        beside.seems.agrees.move beside.alone.world within.acts within.waits
      have rests : advance ⟨world, lonely count me here⟩ me = none := by
        rw [placed_advance (lonely_self inside) (.own within : Thread.Placed division me world.program here), ← moves, stuck]
        rfl
      rw [lonely_stays inside rests, busy]
      rfl
    · rw [same] at busy
      cases busy

theorem beside_alone (inside : me < count) (beside : Beside division count me system world here) :
    AsAlone division me system ⟨world, lonely count me here⟩ := by
  obtain ⟨there, running, matching⟩ := beside.thread
  have program : system.world.program = world.program := beside.seems.agrees.program
  exact {
    thread := ⟨here, there, lonely_self inside, running, by rw [program]; exact matching⟩
    scopes := beside.seems.agrees.scopes
    registered := beside.seems.agrees.occupant
    doings := beside.seems.doings
    told := beside.seems.told
    ended := by simp [running, lonely_self inside, matches_ended matching]
    waits := fun stuck busy => beside_waits inside beside running stuck (by simpa [running] using busy) }

-- Tasks on one registry that share it out between them, so that no identity and no place is addressed by two of them, do not
-- influence each other: in whatever order their steps are taken, each gets at every moment exactly what it gets when it
-- runs by itself on the fresh registry.
theorem tasks_apart {codes : List (Code C)} {code : Code C} {settings : Settings} {listener : Option (Event → Code C)}
    (fresh : world.registries[division.registry]? = some ⟨settings, .empty, listener, .empty⟩)
    (unused : ∀ scope : ScopeRef, scope.registry = division.registry → world.scope? scope = none)
    (text : ∀ me label, division.opens me label → division.Writes me (world.program label))
    (quiet : ∀ hears, listener = some hears → ∀ event, division.Hears world.program (hears event))
    (tasks : ∀ me code, codes[me]? = some code → division.Writes me code)
    (path : Runs ⟨world, codes.map .ofCode⟩ system) (mine : codes[me]? = some code) :
    ∃ budget, AsAlone division me system (run budget ⟨world, lonely codes.length me (.ofCode code)⟩) := by
  have inside : me < codes.length := (List.getElem?_eq_some_iff.mp mine).1
  have divided : Divided division world := by
    refine ⟨fun _ scope _ his found => ?_, fun id scope holds => ?_, text, _, fresh, quiet⟩
    · cases (unused scope his.1).symm.trans found
    · simp only [World.occupant, fresh, Option.bind_some] at holds
      obtain ⟨kind, name⟩ := id
      cases kind <;> cases holds
  have parted : Parted division ⟨world, codes.map .ofCode⟩ := by
    refine ⟨divided, fun he thread running => ?_⟩
    obtain ⟨code, his, rfl⟩ := Option.map_eq_some_iff.mp ((List.getElem?_map ..).symm.trans running)
    exact .own ⟨tasks he code his, List.forall_mem_nil _⟩
  have written : Thread.Within division me (Thread.ofCode code) := ⟨tasks me code mine, List.forall_mem_nil _⟩
  have alone : Parted division ⟨world, lonely codes.length me (.ofCode code)⟩ := by
    refine ⟨divided, fun he thread running => ?_⟩
    by_cases same : he = me
    · subst same
      cases (lonely_self inside).symm.trans running
      exact .own written
    · cases lonely_other same running
      exact .own ⟨trivial, List.forall_mem_nil _⟩
  have start : Beside division codes.length me ⟨world, codes.map .ofCode⟩ world (.ofCode code) :=
    ⟨parted, alone, .refl world, _, by simp [mine], placed_matches (.own written)⟩
  obtain ⟨last, now, ⟨budget, comes⟩, beside⟩ := beside_runs inside path start
  exact ⟨budget, comes ▸ beside_alone inside beside⟩

def bySessions : Division ⟨Unit, Unit, Unit, Unit⟩ where
  registry := 0
  owner id := if id.kind = .session then 0 else 1
  places one two shares := by rw [shares.1]
  opens _ _ := False
  Part := Unit
  part _ memory := memory
  aside _ := true

def visiting (id : ScopeId) : Code ⟨Unit, Unit, Unit, Unit⟩ :=
  .call (.begin 0 id) fun _ => .pause 1 <|
    .resolve ⟨⟨0, id, 0⟩, "k", "T"⟩ (fun _ => .built () ⟨fun _ => .done, fun _ => .done, .done⟩) fun _ =>
      .call (.finish 0 id) fun _ => .done

theorem visiting_writes {me : ThreadId} {id : ScopeId} (mine : bySessions.owner id = me) : bySessions.Writes me (visiting id) :=
  .call ⟨rfl, mine⟩ fun _ _ => .pause <| .resolve ⟨rfl, mine⟩ (.built (fun _ _ => .done) (fun _ _ => .done) .done) fun _ _ =>
    .call ⟨rfl, mine⟩ fun _ _ => .done

def visitors : List (Code ⟨Unit, Unit, Unit, Unit⟩) := [visiting ⟨.session, "a"⟩, visiting ⟨.request, "a"⟩]

def attended : World ⟨Unit, Unit, Unit, Unit⟩ :=
  { World.initial (fun _ => .done) () with registries := [⟨{}, .empty, some fun _ => .note () .done, .empty⟩] }

theorem visited_apart :
    (∃ budget, AsAlone bySessions 1 (run 133 ⟨attended, visitors.map .ofCode⟩)
      (run budget ⟨attended, lonely 2 1 (.ofCode (visiting ⟨.request, "a"⟩))⟩)) ∧
    (run 133 ⟨attended, visitors.map .ofCode⟩).threads.map Thread.ending? = [some .finished, some .finished] ∧
    concerning 0 ⟨.request, "a"⟩ (run 133 ⟨attended, visitors.map .ofCode⟩).world.announced =
      [.began ⟨.request, "a"⟩, .created ⟨.request, "a"⟩ "k", .destroyed ⟨.request, "a"⟩ "k", .ended ⟨.request, "a"⟩ 0] := by
  refine ⟨tasks_apart rfl (fun _ _ => rfl) (fun _ _ opened => False.elim opened) ?_ ?_ (run_runs 133 _) rfl, rfl, by decide⟩
  · intro hears same event
    cases same
    exact .note rfl .done
  · intro me code mine
    match me with
    | 0 => cases mine; exact visiting_writes rfl
    | 1 => cases mine; exact visiting_writes rfl

end System
end Lifespan
