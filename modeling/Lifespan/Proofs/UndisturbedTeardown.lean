import Mathlib.Data.List.Basic
import Mathlib.Logic.Function.Basic
import Lifespan.Proofs.OwedEvents
import Lifespan.Proofs.Undisturbed

-- How the instances of one scope are torn down when nobody interferes.
namespace Lifespan
variable {C : Client} {registry : RegistryRef}

def Phase.call (phase : Phase) (scope : ScopeRef) (object : InstanceRef) : HookCall :=
  match phase with
  | .beforeDestroy => .before object scope
  | .destroy => .destroy object

-- How the hooks of one scope come back, by the keys of its instances: each without a failure, or with its cause.
abbrev Verdict := String → Phase → Option Cause

def failing (scope : ScopeRef) (phase : Phase) (causes : String → Option Cause) (entries : List (String × Entry)) : List Failure :=
  entries.filterMap fun entry => (causes entry.1).map (Failure.hook scope.id entry.1 phase)

def warning (scope : ScopeRef) (entries : List (String × Entry)) : List (Item C) :=
  entries.map fun entry => .hook (.before entry.2.object scope)

def destroying (scope : ScopeRef) (spotless : String → Bool) (entries : List (String × Entry)) : List (Item C) :=
  entries.flatMap fun entry =>
    [.hook (.destroy entry.2.object), .emitted scope.registry (.fate scope.id entry.1 (spotless entry.1))]

namespace Verdict

def failures (verdict : Verdict) (scope : ScopeRef) (entries : List (String × Entry)) : List Failure :=
  failing scope .beforeDestroy (verdict · .beforeDestroy) entries ++ failing scope .destroy (verdict · .destroy) entries

-- An instance is destroyed well if neither of its hooks failed.
def spotless (verdict : Verdict) (key : String) : Bool :=
  (verdict key .beforeDestroy).isNone && (verdict key .destroy).isNone

def teardown (verdict : Verdict) (scope : ScopeRef) (entries : List (String × Entry)) : List (Item C) :=
  warning scope entries ++ destroying scope verdict.spotless entries

end Verdict

theorem failing_update {scope : ScopeRef} {phase : Phase} {causes : String → Option Cause} {cause : Option Cause}
    {rest : List (String × Entry)} (new : key ∉ rest.map Prod.fst) :
    failing scope phase (Function.update causes key cause) rest = failing scope phase causes rest := by
  refine List.filterMap_congr fun entry member => ?_
  have other : entry.1 ≠ key := fun same => new (same ▸ List.mem_map_of_mem member)
  rw [Function.update_of_ne other]

theorem failing_first {scope : ScopeRef} {phase : Phase} {causes : String → Option Cause} {cause : Option Cause}
    {rest : List (String × Entry)} (new : key ∉ rest.map Prod.fst) :
    failing scope phase (Function.update causes key cause) ((key, entry) :: rest) =
      cause.toList.map (Failure.hook scope.id key phase) ++ failing scope phase causes rest := by
  have others : failing scope phase (Function.update causes key cause) rest = failing scope phase causes rest := failing_update new
  rw [← others]
  simp only [failing, List.filterMap_cons, Function.update_self]
  cases cause <;> rfl

theorem destroying_first {scope : ScopeRef} {warned causes : String → Option Cause} {cause : Option Cause}
    {rest : List (String × Entry)} (new : key ∉ rest.map Prod.fst) :
    destroying (C := C) scope (fun name => (warned name).isNone && (Function.update causes key cause name).isNone) ((key, entry) :: rest) =
      [.hook (.destroy entry.object), .emitted scope.registry (.fate scope.id key ((warned key).isNone && cause.isNone))] ++
        destroying scope (fun name => (warned name).isNone && (causes name).isNone) rest := by
  have others : destroying (C := C) scope (fun name => (warned name).isNone && (Function.update causes key cause name).isNone) rest =
      destroying scope (fun name => (warned name).isNone && (causes name).isNone) rest := by
    refine List.flatMap_congr fun other member => ?_
    have apart : other.1 ≠ key := fun same => new (List.mem_map.mpr ⟨other, member, same⟩)
    simp only [Function.update_of_ne apart]
  rw [← others]
  simp only [destroying, List.flatMap_cons, Function.update_self]

def flags (causes : String → Option Cause) (entries : List (String × Entry)) : List Bool :=
  entries.map fun entry => (causes entry.1).isSome

theorem flags_first {causes : String → Option Cause} {cause : Option Cause} {rest : List (String × Entry)} (new : key ∉ rest.map Prod.fst) :
    flags (Function.update causes key cause) ((key, entry) :: rest) = cause.isSome :: flags causes rest := by
  rw [flags, List.map_cons, Function.update_self]
  refine congrArg _ (List.map_congr_left fun other member => ?_)
  have apart : other.1 ≠ key := fun same => new (same ▸ List.mem_map_of_mem member)
  rw [Function.update_of_ne apart]

theorem failed_contains {scope : ScopeRef} {phase : Phase} {causes : String → Option Cause} {entries : List (String × Entry)}
    (member : entry ∈ entries) : (failedKeys (failing scope phase causes entries)).contains entry.1 = (causes entry.1).isSome := by
  rw [Bool.eq_iff_iff, List.contains_iff_mem, failedKeys, failing, List.mem_map]
  constructor
  · rintro ⟨failure, failed, same⟩
    obtain ⟨other, _, fails⟩ := List.mem_filterMap.mp failed
    obtain ⟨cause, found, rfl⟩ := Option.map_eq_some_iff.mp fails
    rw [← same]
    exact Option.isSome_of_eq_some found
  · intro fails
    obtain ⟨cause, found⟩ := Option.isSome_iff_exists.mp fails
    exact ⟨.hook scope.id entry.1 phase cause, List.mem_filterMap.mpr ⟨entry, member, by rw [found]; rfl⟩, rfl⟩

-- A panic is told by its text, and only a destroy hook can refuse.
def Exit.blame? : Phase → Exit C → Option Cause
  | _, .unwind ⟨some text⟩ => some (.words ("hook panicked: " ++ text) [])
  | _, .unwind ⟨none⟩ => some (.words "hook panicked" [])
  | .destroy, .back (.failed cause) => some cause
  | _, .back _ => none

theorem hookCause_blame (phase : Phase) (exit : Exit C) : Move.hookCause? phase exit = exit.blame? phase := by
  cases exit with
  | back reply => cases phase <;> cases reply <;> rfl
  | unwind panic =>
    obtain ⟨message⟩ := panic
    cases message <;> rfl

def complaint (scope : ScopeRef) (phase : Phase) (key : String) (cause : Option Cause) : List (Item C) :=
  cause.toList.map fun cause => .logged (.hookFailed (.hook scope.id key phase cause))

section
variable {scope : ScopeRef} {entries rest : List (String × Entry)} {failures : List Failure} {flags more : List Bool} {flag : Bool}
  {phase : Phase} {cause warned : Option Cause} {exit : Exit C} {below : List (Frame C)}

-- The flag of the instance that has been visited stands where the flags of those before it end.
theorem record_flagged (aligned : flags.length + 1 + rest.length = entries.length) :
    Teardown.record ⟨scope, entries, phase, rest, failures, flags ++ flag :: more⟩ (cause.toList.map (Failure.hook scope.id key phase)) =
      ⟨scope, entries, phase, rest, failures ++ cause.toList.map (Failure.hook scope.id key phase),
        flags ++ (flag || cause.isSome) :: more⟩ := by
  have place : Teardown.place ⟨scope, entries, phase, rest, failures, flags ++ flag :: more⟩ = flags.length := by
    simp only [Teardown.place]
    omega
  cases cause with
  | none => simp [Teardown.record]
  | some cause => simp [Teardown.record, place]

theorem outcome_flagged (aligned : flags.length + 1 + rest.length = entries.length) :
    Teardown.outcome ⟨scope, entries, .destroy, rest, failures, flags ++ (warned.isSome || cause.isSome) :: more⟩ key =
      .fate scope.id key (warned.isNone && cause.isNone) := by
  have place : entries.length - rest.length - 1 = flags.length := by omega
  have flagged : (flags ++ (warned.isSome || cause.isSome) :: more).getD flags.length false = (warned.isSome || cause.isSome) := by simp
  simp only [Teardown.outcome, Teardown.place, place, flagged]
  cases warned <;> cases cause <;> rfl

theorem hooked_warned (aligned : flags.length + 1 + rest.length = entries.length) :
    Move.hooked ⟨scope, entries, .beforeDestroy, rest, failures, flags ++ false :: more⟩ key exit below =
      ⟨.still, complaint scope .beforeDestroy key (exit.blame? .beforeDestroy),
        .tear ⟨scope, entries, .beforeDestroy, rest,
          failures ++ (exit.blame? .beforeDestroy).toList.map (Failure.hook scope.id key .beforeDestroy),
          flags ++ (exit.blame? .beforeDestroy).isSome :: more⟩, below⟩ := by
  simp only [Move.hooked, hookCause_blame, record_flagged aligned, Bool.false_or]
  simp [complaint, Function.comp_def]

theorem hooked_destroyed (aligned : flags.length + 1 + rest.length = entries.length) :
    Move.hooked ⟨scope, entries, .destroy, rest, failures, flags ++ warned.isSome :: more⟩ key exit below =
      ⟨.still, complaint scope .destroy key (exit.blame? .destroy),
        .emit scope.registry (.fate scope.id key (warned.isNone && (exit.blame? .destroy).isNone)),
        .reported ⟨scope, entries, .destroy, rest, failures ++ (exit.blame? .destroy).toList.map (Failure.hook scope.id key .destroy),
          flags ++ (warned.isSome || (exit.blame? .destroy).isSome) :: more⟩ :: below⟩ := by
  simp only [Move.hooked, hookCause_blame, record_flagged aligned, outcome_flagged aligned]
  simp [complaint, Function.comp_def]

theorem complaint_unconcerning : (complaint (C := C) scope phase key cause).filter (Item.concerns registry) = [] := by
  cases cause <;> rfl

end

section
variable {world later : World C} {items told : List (Item C)}

theorem spares_noted : Spares registry [] (items.filter (Item.concerns registry)) world (System.record world 0 items) :=
  still_foreign.spares

theorem Spares.noted (more : Spares registry [] [] (System.record world 0 items) later)
    (concerns : items.filter (Item.concerns registry) = told) : Spares registry [] told world later := by
  have both := spares_noted.trans more
  rwa [concerns, List.append_nil] at both

theorem Spares.hushed {middle : World C} {gone : List ScopeRef} (first : Spares registry gone told world middle)
    (more : Spares registry gone rest (System.record middle 0 items) later) (quiet : items.filter (Item.concerns registry) = []) :
    Spares registry gone (told ++ rest) world later := by
  have both := first.trans ((spares_noted.widen (List.nil_subset _)).trans more)
  rwa [quiet, List.nil_append] at both

end

namespace System
variable {start : System C} {base below : List (Frame C)} {frame : Frame C} {world : World C} {program : C.Label → Code C}
  {memory : C.Memory} {origin : Code C} {event : Event} {scope : ScopeRef}

-- The hook of an instance was called on the way, and came back with this failure or with none.
def CameBack (base : List (Frame C)) (start : System C) (scope : ScopeRef) (one : String × Entry) (phase : Phase) (cause : Option Cause) :
    Prop :=
  ∃ called reached, ∃ exit : Exit C, ∃ made teardown below, base <:+ below ∧ Awaits 0 base start called ∧
    called.world.instance? one.2.object = some made ∧
    called.threads = [⟨.run (made.hooks.code (phase.call scope one.2.object)), .hooked teardown one.1 :: below⟩] ∧
    Awaits 0 (.hooked teardown one.1 :: below) called reached ∧ Awaits 0 base start reached ∧
    reached.threads = [⟨exit.focus, .hooked teardown one.1 :: below⟩] ∧ exit.blame? phase = cause

theorem next_hooked {teardown : Teardown} {exit : Exit C} : Thread.next world me ⟨exit.focus, .hooked teardown key :: below⟩ =
    some (Move.hooked teardown key exit below) := by cases exit <;> rfl

theorem nextCall_call {entries rest : List (String × Entry)} {phase : Phase} {failures : List Failure} {flags : List Bool} :
    Teardown.nextCall ⟨scope, entries, phase, rest, failures, flags⟩ entry = phase.call scope entry.object := by cases phase <;> rfl

theorem next_calls {teardown : Teardown} {made : Instance C} (left : teardown.rest = (key, entry) :: rest)
    (found : world.instance? entry.object = some made) : Thread.next world me ⟨.tear teardown, below⟩ =
      some ⟨.still, [.hook (teardown.nextCall entry)], .run (made.hooks.code (teardown.nextCall entry)),
        .hooked { teardown with rest } key :: below⟩ := by
  obtain ⟨scope, entries, phase, visited, failures, failed⟩ := teardown
  cases (show visited = _ from left)
  cases phase <;> simp [Thread.next, Move.tear, Teardown.nextCall, Move.callHook, HookCall.object, found]

theorem torn_stock {teardown : Teardown} (path : Runs (initial program memory origin) ⟨world, [⟨.tear teardown, .torn scope :: below⟩]⟩) :
    .tearing teardown ∈ (System.life ⟨world, [⟨.tear teardown, .torn scope :: below⟩]⟩ scope).ends 0 ∧
      stock teardown.entries = (world.stored scope).reverse := by
  have member : .tearing teardown ∈ (System.life ⟨world, [⟨.tear teardown, .torn scope :: below⟩]⟩ scope).ends 0 :=
    life_stage (List.mem_cons_self ..)
  exact ⟨member, (runs_lived path scope).content.taken 0 _ member _ rfl⟩

theorem torn_distinct {teardown : Teardown} (path : Runs (initial program memory origin) ⟨world, [⟨.tear teardown, .torn scope :: below⟩]⟩) :
    (teardown.entries.map Prod.fst).Nodup := by
  have keys : teardown.entries.map Prod.fst = ((world.stored scope).map Prod.fst).reverse := by
    rw [← List.map_reverse, ← (torn_stock path).2, stock, List.map_map]
    rfl
  rw [keys]
  exact (List.reverse_perm _).nodup_iff.mpr (runs_lived path scope).content.keys

theorem awaits_made {teardown : Teardown} {rest : List (String × Entry)} (path : Runs (initial program memory origin) start)
    (waits : Awaits 0 base start ⟨world, [⟨.tear teardown, .torn scope :: below⟩]⟩) (left : teardown.rest = (key, entry) :: rest) :
    ∃ index, entry.object = .kept scope index ∧ ∃ made, world.instance? entry.object = some made := by
  have lived := runs_lived (path.trans waits.runs) scope
  obtain ⟨member, taken⟩ := torn_stock (path.trans waits.runs)
  have visited : (key, entry) ∈ teardown.entries := (lived.left 0 teardown member).subset (left ▸ List.mem_cons_self)
  have stocked : (key, entry.object) ∈ stock teardown.entries := List.mem_map.mpr ⟨_, visited, rfl⟩
  rw [taken, List.mem_reverse] at stocked
  have objects : (world.stored scope).map Prod.snd = (List.range (world.cell scope).instances.length).map (InstanceRef.kept scope) :=
    lived.content.objects
  have there := List.mem_map_of_mem (f := Prod.snd) stocked
  rw [objects] at there
  obtain ⟨index, inside, same⟩ := List.mem_map.mp there
  refine ⟨index, same.symm, ?_⟩
  have inside : index < (world.cell scope).instances.length := List.mem_range.mp inside
  have same : InstanceRef.kept scope index = entry.object := same
  rw [← same]
  cases found : world.scope? scope with
  | none => simp [World.cell, found, Scope.fresh_eq] at inside
  | some cell =>
    rw [cell_found found] at inside
    exact ⟨_, by simp only [World.instance?, found, Option.bind_some]; exact List.getElem?_eq_getElem inside⟩

section
variable (path : Runs (initial program memory origin) start) (quiet : Undisturbed registry base start)
  (returning : Returning registry base start)
include path quiet returning

theorem awaits_heard (waits : Awaits 0 base start ⟨world, [⟨.run code, .delivering registry event :: frame :: below⟩]⟩)
    (suffix : base <:+ below) :
    ∃ later, Awaits 0 base start ⟨later, [⟨.back .done, frame :: below⟩]⟩ ∧ Spares registry [] [] world later := by
  have deep : base <:+ frame :: below := suffix.trans (List.suffix_cons _ _)
  obtain ⟨later, exit, back, _, spares⟩ := awaits_attended path quiet returning waits deep (by simp [Frame.attends])
  cases exit with
  | back reply => exact ⟨later, back.onward deep rfl rfl, spares⟩
  | unwind panic =>
    have alarmed := back.onward deep rfl rfl
    exact absurd ⟨registry, event, by simp⟩ (quiet.calm _ alarmed)

theorem awaits_delivered (waits : Awaits 0 base start ⟨world, [⟨.deliver registry event, frame :: below⟩]⟩) (suffix : base <:+ below)
    (known : registry < world.registries.length) :
    ∃ later, Awaits 0 base start ⟨later, [⟨.back .done, frame :: below⟩]⟩ ∧ Spares registry [] [] world later := by
  have found := List.getElem?_eq_getElem known
  generalize world.registries[registry] = cell at found
  cases listens : cell.listener with
  | none =>
    have delivers : Thread.next world 0 ⟨.deliver registry event, frame :: below⟩ = some (.silent (.back .done) (frame :: below)) := by
      simp only [Thread.next, Move.deliver, found, Option.map_some, listens]
    exact ⟨world, waits.onward suffix delivers rfl, .refl world⟩
  | some listener =>
    have delivers : Thread.next world 0 ⟨.deliver registry event, frame :: below⟩ = some ⟨.still, [.delivered registry event],
        .run (listener event), .delivering registry event :: frame :: below⟩ := by
      simp only [Thread.next, Move.deliver, found, Option.map_some, listens]
    obtain ⟨later, back, more⟩ := awaits_heard path quiet returning (waits.onward suffix delivers rfl) suffix
    exact ⟨later, back, spares_noted.trans more⟩

theorem awaits_told (waits : Awaits 0 base start ⟨world, [⟨.emit registry event, frame :: below⟩]⟩) (suffix : base <:+ below)
    (known : registry < world.registries.length) :
    ∃ later, Awaits 0 base start ⟨later, [⟨.back .done, frame :: below⟩]⟩ ∧ Spares registry [] [.emitted registry event] world later := by
  have found := List.getElem?_eq_getElem known
  generalize world.registries[registry] = cell at found
  have emits : Thread.next world 0 ⟨.emit registry event, frame :: below⟩ = some ⟨.still,
      [.emitted registry event, .logged (.ofEvent cell.settings event)], .deliver registry event, frame :: below⟩ := by
    simp only [Thread.next, Move.emit, found, Option.map_some]
  obtain ⟨later, back, more⟩ := awaits_delivered path quiet returning (waits.onward suffix emits rfl) suffix known
  exact ⟨later, back, more.noted (by simp [Item.concerns])⟩

theorem awaits_called {entries rest : List (String × Entry)} {phase : Phase} {failures : List Failure} {flags : List Bool}
    (suffix : base <:+ below) (mine : scope.registry = registry)
    (waits : Awaits 0 base start ⟨world, [⟨.tear ⟨scope, entries, phase, (key, entry) :: rest, failures, flags⟩, .torn scope :: below⟩]⟩) :
    ∃ later, ∃ exit : Exit C,
      Awaits 0 base start ⟨later, [⟨exit.focus, .hooked ⟨scope, entries, phase, rest, failures, flags⟩ key :: .torn scope :: below⟩]⟩ ∧
      Spares registry [] [.hook (phase.call scope entry.object)] world later ∧
      CameBack base start scope (key, entry) phase (exit.blame? phase) := by
  have deep : base <:+ .torn scope :: below := suffix.trans (List.suffix_cons _ _)
  obtain ⟨index, kept, made, found⟩ := awaits_made path waits rfl
  have called := waits.onward suffix (next_calls rfl found) rfl
  rw [nextCall_call] at called
  obtain ⟨later, exit, back, inner, more⟩ := awaits_attended path quiet returning called deep (by simp [Frame.attends, mine])
  refine ⟨later, exit, back, more.noted ?_, _, _, exit, made, _, _, deep, called, found, rfl, inner, back, rfl, rfl⟩
  cases phase <;> simp [Item.concerns, Phase.call, HookCall.object, kept, InstanceRef.registry?, mine]

theorem awaits_warned (suffix : base <:+ below) (mine : scope.registry = registry) {entries rest : List (String × Entry)}
    {failures : List Failure} {known : List Bool} (distinct : (rest.map Prod.fst).Nodup) (aligned : known.length + rest.length = entries.length)
    (waits : Awaits 0 base start ⟨world,
      [⟨.tear ⟨scope, entries, .beforeDestroy, rest, failures, known ++ List.replicate rest.length false⟩, .torn scope :: below⟩]⟩) :
    ∃ causes : String → Option Cause, ∃ later, Awaits 0 base start ⟨later, [⟨.tear ⟨scope, entries, .beforeDestroy, [],
        failures ++ failing scope .beforeDestroy causes rest, known ++ flags causes rest⟩, .torn scope :: below⟩]⟩ ∧
      Spares registry [] (warning scope rest) world later ∧
      ∀ entry ∈ rest, CameBack base start scope entry .beforeDestroy (causes entry.1) := by
  -- on what is left of the pass: what is behind it keeps its flags, what is ahead has none yet
  induction rest generalizing world failures known with
  | nil => exact ⟨fun _ => none, world, by simpa [failing, flags] using waits, .refl world, nofun⟩
  | cons first rest ih =>
    obtain ⟨key, entry⟩ := first
    rw [List.map_cons, List.nodup_cons] at distinct
    have deep : base <:+ .torn scope :: below := suffix.trans (List.suffix_cons _ _)
    obtain ⟨back, exit, came, spares, hook⟩ := awaits_called path quiet returning suffix mine waits
    let cause := exit.blame? .beforeDestroy
    have beside : known.length + 1 + rest.length = entries.length := by rw [← aligned, List.length_cons]; omega
    have moves : Move.hooked ⟨scope, entries, .beforeDestroy, rest, failures, known ++ false :: List.replicate rest.length false⟩ key exit
        (.torn scope :: below) = _ := hooked_warned beside
    have records := came.onward deep (next_hooked.trans (congrArg some moves)) (exit_busy exit)
    have apart : ∀ other ∈ rest, other.1 ≠ key := fun other member same => distinct.1 (List.mem_map.mpr ⟨other, member, same⟩)
    have split {more : List Bool} : known ++ cause.isSome :: more = known ++ [cause.isSome] ++ more := by simp
    rw [split] at records
    obtain ⟨causes, later, last, more, others⟩ := ih distinct.2 (by simpa using beside) records
    refine ⟨Function.update causes key cause, later, ?_, ?_, ?_⟩
    · rw [failing_first distinct.1, flags_first distinct.1, split, ← List.append_assoc]
      exact last
    · exact spares.hushed more complaint_unconcerning
    · rintro other (_ | ⟨_, member⟩)
      · rw [Function.update_self]
        exact hook
      · rw [Function.update_of_ne (apart other member)]
        exact others other member

-- The second pass destroys the instances, one after another, and tells of each how it went with both its hooks.
theorem awaits_destroyed (listed : registry < start.world.registries.length) (suffix : base <:+ below) (mine : scope.registry = registry)
    {entries rest : List (String × Entry)} {failures : List Failure} {known : List Bool} {warned : String → Option Cause}
    (distinct : (rest.map Prod.fst).Nodup) (aligned : known.length + rest.length = entries.length)
    (waits : Awaits 0 base start ⟨world,
      [⟨.tear ⟨scope, entries, .destroy, rest, failures, known ++ flags warned rest⟩, .torn scope :: below⟩]⟩) :
    ∃ causes : String → Option Cause, ∃ failed later, Awaits 0 base start ⟨later, [⟨.tear ⟨scope, entries, .destroy, [],
        failures ++ failing scope .destroy causes rest, failed⟩, .torn scope :: below⟩]⟩ ∧
      Spares registry [] (destroying scope (fun key => (warned key).isNone && (causes key).isNone) rest) world later ∧
      ∀ entry ∈ rest, CameBack base start scope entry .destroy (causes entry.1) := by
  subst mine
  -- the same, but what is ahead has the flags of the first pass
  induction rest generalizing world failures known with
  | nil => exact ⟨fun _ => none, _, world, by simpa [failing] using waits, .refl world, nofun⟩
  | cons first rest ih =>
    obtain ⟨key, entry⟩ := first
    rw [List.map_cons, List.nodup_cons] at distinct
    have deep : base <:+ .torn scope :: below := suffix.trans (List.suffix_cons _ _)
    obtain ⟨back, exit, came, spares, hook⟩ := awaits_called path quiet returning suffix rfl waits
    let cause := exit.blame? .destroy
    have beside : known.length + 1 + rest.length = entries.length := by rw [← aligned, List.length_cons]; omega
    have moves : Move.hooked ⟨scope, entries, .destroy, rest, failures, known ++ (warned key).isSome :: flags warned rest⟩ key exit
        (.torn scope :: below) = _ := hooked_destroyed beside
    have records := came.onward deep (next_hooked.trans (congrArg some moves)) (exit_busy exit)
    obtain ⟨told, tells, telling⟩ := awaits_told path quiet returning records deep (awaits_known listed records)
    have goesOn := tells.onward deep rfl rfl
    have split {more : List Bool} : known ++ ((warned key).isSome || cause.isSome) :: more =
        known ++ [(warned key).isSome || cause.isSome] ++ more := by simp
    rw [split] at goesOn
    have apart : ∀ other ∈ rest, other.1 ≠ key := fun other member same => distinct.1 (List.mem_map.mpr ⟨other, member, same⟩)
    obtain ⟨causes, failed, later, last, onward, ways⟩ := ih distinct.2 (by simpa using beside) goesOn
    refine ⟨Function.update causes key cause, failed, later, ?_, ?_, ?_⟩
    · rw [failing_first distinct.1, ← List.append_assoc]
      exact last
    · rw [destroying_first distinct.1]
      exact (spares.hushed telling complaint_unconcerning).trans onward
    · rintro other (_ | ⟨_, member⟩)
      · rw [Function.update_self]
        exact hook
      · rw [Function.update_of_ne (apart other member)]
        exact ways other member

theorem awaits_torn {entries : List (String × Entry)} (listed : registry < start.world.registries.length) (suffix : base <:+ below)
    (mine : scope.registry = registry)
    (waits : Awaits 0 base start ⟨world, [⟨.tear (.begin scope entries), .torn scope :: below⟩]⟩) :
    ∃ verdict : Verdict, ∃ later,
      Awaits 0 base start ⟨later, [⟨.back (.failures (verdict.failures scope entries)), .torn scope :: below⟩]⟩ ∧
      Spares registry [] (verdict.teardown scope entries) world later ∧
      ∀ entry ∈ entries, ∀ phase, CameBack base start scope entry phase (verdict entry.1 phase) := by
  have distinct : (entries.map Prod.fst).Nodup := torn_distinct (path.trans waits.runs)
  have waits : Awaits 0 base start ⟨world, [⟨.tear ⟨scope, entries, .beforeDestroy, entries, [],
      [] ++ List.replicate entries.length false⟩, .torn scope :: below⟩]⟩ := waits
  obtain ⟨warned, between, first, warnings, came⟩ := awaits_warned path quiet returning suffix mine distinct (Nat.zero_add _) waits
  have turned : Awaits 0 base start ⟨between, [⟨.tear ⟨scope, entries, .destroy, entries,
      failing scope .beforeDestroy warned entries, [] ++ flags warned entries⟩, .torn scope :: below⟩]⟩ := first.onward suffix rfl rfl
  obtain ⟨causes, failed, later, second, deaths, went⟩ :=
    awaits_destroyed path quiet returning listed suffix mine distinct (Nat.zero_add _) turned
  let verdict : Verdict
    | key, .beforeDestroy => warned key
    | key, .destroy => causes key
  have back : Awaits 0 base start ⟨later, [⟨.back (.failures (verdict.failures scope entries)), .torn scope :: below⟩]⟩ :=
    second.onward suffix rfl rfl
  refine ⟨verdict, later, back, warnings.trans deaths, ?_⟩
  rintro entry member (_ | _)
  · exact came entry member
  · exact went entry member

end

end System
end Lifespan
