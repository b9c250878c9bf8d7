import Mathlib.Data.List.Basic
import Lifespan.Proofs.Telling

-- The events of one identity, in the order of their telling. Each scope that was begun under it tells a
-- block of its own: its beginning, the making of its instances, their destruction in the opposite order,
-- and its end. A block is complete before the next one begins.
namespace Lifespan
variable {C : Client}

-- What a scope has told: the keys that were made, oldest first, how the destruction of those that have
-- been destroyed went, newest first, and with how many failures it has ended.
structure Block where
  keys : List String
  fates : List Bool
  ended : Option Nat

namespace Block

def events (id : ScopeId) (block : Block) : List Event :=
  .began id :: (block.keys.map (.created id) ++
    (block.keys.reverse.zip block.fates).map (fun one => .fate id one.1 one.2) ++ block.ended.toList.map (.ended id))

structure Proper (block : Block) : Prop where
  distinct : block.keys.Nodup
  within : block.fates.length ≤ block.keys.length
  whole : block.ended.isSome = true → block.fates.length = block.keys.length

theorem zip_grow {keys left : List String} {fates : List Bool} (next : keys.drop fates.length = key :: left) (fate : Bool) :
    keys.zip (fates ++ [fate]) = keys.zip fates ++ [(key, fate)] := by
  induction fates generalizing keys with
  | nil =>
    rw [List.length_nil, List.drop_zero] at next
    simp [next]
  | cons first rest ih =>
    cases keys with
    | nil => cases next
    | cons name names => simp [ih (by simpa using next)]

theorem zip_longer {keys : List String} {fates more : List Bool} :
    ∃ rest, keys.zip (fates ++ more) = keys.zip fates ++ rest := by
  induction fates generalizing keys with
  | nil => exact ⟨keys.zip more, by rw [List.zip_nil_right]; rfl⟩
  | cons first later ih =>
    cases keys with
    | nil => exact ⟨[], rfl⟩
    | cons key keys =>
      obtain ⟨rest, same⟩ := @ih keys
      exact ⟨rest, congrArg (List.cons (key, first)) same⟩

variable {block : Block} {id : ScopeId} {key : String} {fate : Bool} {event : Event}

theorem events_created (fates : block.fates = []) (ended : block.ended = none) :
    ({ block with keys := block.keys ++ [key] } : Block).events id = block.events id ++ [.created id key] := by
  simp [events, fates, ended]

theorem events_fate (ended : block.ended = none) (next : block.keys.reverse.drop block.fates.length = key :: left) :
    ({ block with fates := block.fates ++ [fate] } : Block).events id = block.events id ++ [.fate id key fate] := by
  simp [events, ended, zip_grow next]

theorem events_ended (ended : block.ended = none) :
    ({ block with ended := some failures } : Block).events id = block.events id ++ [.ended id failures] := by
  simp [events, ended]

theorem Proper.shorter (proper : block.Proper) (same : block.events id = front ++ [event]) :
    front = [] ∨ ∃ shorter : Block, shorter.Proper ∧ shorter.events id = front := by
  obtain ⟨keys, fates, ended⟩ := block
  cases ended with
  | some failures =>
    let shorter : Block := ⟨keys, fates, none⟩
    have last : _ = shorter.events id ++ [.ended id failures] := events_ended rfl
    exact .inr ⟨shorter, ⟨proper.distinct, proper.within, nofun⟩, (List.append_inj' (last.symm.trans same) rfl).1⟩
  | none =>
    rcases List.eq_nil_or_concat' fates with rfl | ⟨fates, fate, rfl⟩
    · rcases List.eq_nil_or_concat' keys with rfl | ⟨keys, key, rfl⟩
      · have only : [] ++ [.began id] = front ++ [event] := same
        exact .inl (List.append_inj' only rfl).1.symm
      · let shorter : Block := ⟨keys, [], none⟩
        have last : _ = shorter.events id ++ [.created id key] := events_created rfl rfl
        refine .inr ⟨shorter, ⟨?_, Nat.zero_le _, nofun⟩, (List.append_inj' (last.symm.trans same) rfl).1⟩
        exact (List.nodup_append.mp proper.distinct).1
    · have within : (fates ++ [fate]).length ≤ keys.length := proper.within
      rw [List.length_append, List.length_singleton] at within
      obtain ⟨key, left, next⟩ : ∃ key left, keys.reverse.drop fates.length = key :: left := by
        refine List.exists_cons_of_length_pos ?_
        rw [List.length_drop, List.length_reverse]
        omega
      let shorter : Block := ⟨keys, fates, none⟩
      have last : _ = shorter.events id ++ [.fate id key fate] := events_fate rfl next
      have fewer : fates.length ≤ keys.length := by omega
      exact .inr ⟨shorter, ⟨proper.distinct, fewer, nofun⟩, (List.append_inj' (last.symm.trans same) rfl).1⟩

theorem Proper.completes (proper : block.Proper) :
    ∃ whole : Block, whole.Proper ∧ whole.ended.isSome = true ∧ ∃ rest, whole.events id = block.events id ++ rest := by
  obtain ⟨keys, fates, ended⟩ := block
  obtain ⟨distinct, within, whole⟩ := proper
  cases ended with
  | some failures => exact ⟨⟨keys, fates, some failures⟩, ⟨distinct, within, whole⟩, rfl, [], (List.append_nil _).symm⟩
  | none =>
    let more : List Bool := List.replicate (keys.length - fates.length) true
    have full : (fates ++ more).length = keys.length := by
      rw [List.length_append, List.length_replicate]
      exact Nat.add_sub_of_le within
    refine ⟨⟨keys, fates ++ more, some 0⟩, ⟨distinct, Nat.le_of_eq full, fun _ => full⟩, rfl, ?_⟩
    obtain ⟨rest, told⟩ : ∃ rest, keys.reverse.zip (fates ++ more) = keys.reverse.zip fates ++ rest := zip_longer
    refine ⟨rest.map (fun one => .fate id one.1 one.2) ++ [.ended id 0], ?_⟩
    simp [events, told]

end Block

structure InBlocks (id : ScopeId) (events : List Event) (blocks : List Block) : Prop where
  told : events = blocks.flatMap (Block.events id)
  proper : ∀ block ∈ blocks, block.Proper
  whole : ∀ block ∈ blocks.dropLast, block.ended.isSome = true

theorem InBlocks.shorter {id : ScopeId} {events : List Event} {blocks : List Block} (form : InBlocks id (events ++ [event]) blocks) :
    ∃ blocks, InBlocks id events blocks := by
  rcases List.eq_nil_or_concat' blocks with rfl | ⟨earlier, last, rfl⟩
  · have none := form.told
    simp at none
  · have told := form.told
    have proper : ∀ block ∈ earlier, block.Proper := fun block member => form.proper block (List.mem_append_left _ member)
    have whole : ∀ block ∈ earlier, block.ended.isSome = true := by
      have whole := form.whole
      rwa [List.dropLast_concat] at whole
    rw [List.flatMap_append, List.flatMap_singleton] at told
    obtain ⟨front, other, same⟩ := (List.eq_nil_or_concat' (last.events id)).resolve_left nofun
    rw [same, ← List.append_assoc] at told
    have front := (List.append_inj' told rfl).1
    rcases (form.proper last (List.mem_append_right _ (List.mem_singleton.mpr rfl))).shorter same with rfl | ⟨shorter, fine, rfl⟩
    · refine ⟨earlier, by rw [front, List.append_nil], proper, fun block member => whole block ((List.dropLast_sublist _).subset member)⟩
    · refine ⟨earlier ++ [shorter], ?_, ?_, ?_⟩
      · rw [front, List.flatMap_append, List.flatMap_singleton]
      · intro block member
        rcases List.mem_append.mp member with old | new
        · exact proper block old
        · cases List.mem_singleton.mp new
          exact fine
      · rw [List.dropLast_concat]
        exact whole

def concerning (registry : RegistryRef) (id : ScopeId) (told : List (RegistryRef × Event)) : List Event :=
  told.filterMap fun one => if one.1 = registry ∧ one.2.scope? = some id then some one.2 else none

def World.announced (world : World C) : List (RegistryRef × Event) := world.chronicle.filterMap Item.announced?

namespace System
variable {before after system : System C} {program : C.Label → Code C} {memory : C.Memory} {code : Code C}
  {registry : RegistryRef} {id : ScopeId} {scope : ScopeRef} {thread later : Thread C} {block : Block} {blocks : List Block}

structure Fits (system : System C) (thread : Thread C) (scope : ScopeRef) (block : Block) : Prop where
  known : (system.world.scope? scope).isSome
  keys : block.keys = (system.world.stored scope).map Prod.fst
  within : block.fates.length ≤ block.keys.length
  whole : block.ended.isSome = true → block.fates.length = block.keys.length
  ended : block.ended.isSome = true ↔ (system.world.cell scope).state = .destroyed
  spared : ¬(system.life scope).Emptied → block.fates = []
  owed : ∀ left, (scope, left) ∈ thread.debts → block.keys.reverse.drop block.fates.length = left

theorem Fits.unended (fits : system.Fits thread scope block) (alive : (system.world.cell scope).state ≠ .destroyed) :
    block.ended = none :=
  Option.not_isSome_iff_eq_none.mp fun ended => alive (fits.ended.mp ended)

structure Recounts (system : System C) (thread : Thread C) (registry : RegistryRef) (id : ScopeId) (blocks : List Block) : Prop where
  told : concerning registry id (system.world.announced ++ thread.announcing) = blocks.flatMap (Block.events id)
  count : blocks.length = (system.world.nextScope registry id).turn
  fits : ∀ index block, blocks[index]? = some block → system.Fits thread ⟨registry, id, index⟩ block

section
variable {effect : Effect C} {items : List (Item C)} {me : ThreadId} {event : Event} {index : Nat}

theorem flatMap_grow {grown : Block} (last : blocks.length = index + 1) (found : blocks[index]? = some block)
    (grows : grown.events id = block.events id ++ [event]) :
    (blocks.set index grown).flatMap (Block.events id) = blocks.flatMap (Block.events id) ++ [event] := by
  rcases List.eq_nil_or_concat' blocks with rfl | ⟨earlier, one, rfl⟩
  · cases last
  · rw [List.length_append, List.length_singleton] at last
    obtain rfl : earlier.length = index := by omega
    rw [List.getElem?_concat_length] at found
    cases Option.some.inj found
    simp [grows]

theorem Recounts.keep (was : before.Recounts thread registry id blocks)
    (told : concerning registry id (after.world.announced ++ later.announcing) =
      concerning registry id (before.world.announced ++ thread.announcing))
    (next : after.world.nextScope registry id = before.world.nextScope registry id)
    (fits : ∀ index block, before.Fits thread ⟨registry, id, index⟩ block → after.Fits later ⟨registry, id, index⟩ block) :
    after.Recounts later registry id blocks where
  told := told.trans was.told
  count := next ▸ was.count
  fits index block found := fits index block (was.fits index block found)

theorem Recounts.grow {grown : Block} (was : before.Recounts thread registry id blocks) (last : blocks.length = index + 1)
    (found : blocks[index]? = some block) (grows : grown.events id = block.events id ++ [event])
    (told : concerning registry id (after.world.announced ++ later.announcing) =
      concerning registry id (before.world.announced ++ thread.announcing) ++ [event])
    (next : after.world.nextScope registry id = before.world.nextScope registry id)
    (fits : after.Fits later ⟨registry, id, index⟩ grown)
    (others : ∀ other block, other ≠ index → before.Fits thread ⟨registry, id, other⟩ block →
      after.Fits later ⟨registry, id, other⟩ block) : after.Recounts later registry id (blocks.set index grown) where
  told := by rw [told, was.told, flatMap_grow last found grows]
  count := by rw [List.length_set, next, was.count]
  fits other block there := by
    by_cases mine : other = index
    · subst mine
      rw [List.getElem?_set_self (by omega)] at there
      exact Option.some.inj there ▸ fits
    · rw [List.getElem?_set_ne (Ne.symm mine)] at there
      exact others other block mine (was.fits other block there)

theorem Recounts.begin (was : before.Recounts thread registry id blocks)
    (told : concerning registry id (after.world.announced ++ later.announcing) =
      concerning registry id (before.world.announced ++ thread.announcing) ++ [.began id])
    (next : (after.world.nextScope registry id).turn = (before.world.nextScope registry id).turn + 1)
    (fits : after.Fits later ⟨registry, id, blocks.length⟩ ⟨[], [], none⟩)
    (others : ∀ index block, before.Fits thread ⟨registry, id, index⟩ block → after.Fits later ⟨registry, id, index⟩ block) :
    after.Recounts later registry id (blocks ++ [⟨[], [], none⟩]) where
  told := by rw [told, was.told, List.flatMap_append]; rfl
  count := by rw [List.length_append, was.count, next]; rfl
  fits index block found := by
    rw [List.getElem?_append] at found
    split at found
    · exact others index block (was.fits index block found)
    · have inside := (List.getElem?_eq_some_iff.mp found).1
      rw [List.length_singleton] at inside
      obtain rfl : index = blocks.length := by omega
      rw [Nat.sub_self] at found
      exact Option.some.inj found ▸ fits

variable (path : Runs (initial program memory code) before) (next : Step before after)
  (deeds : Deeds before after me effect items)
include path next

theorem Fits.keep (fits : before.Fits thread scope block) (stored : after.world.stored scope = before.world.stored scope)
    (destroyed : (after.world.cell scope).state = .destroyed ↔ (before.world.cell scope).state = .destroyed)
    (debts : ∀ left, (scope, left) ∈ later.debts → block.keys.reverse.drop block.fates.length = left) :
    after.Fits later scope block where
  known := known_stays (step_change next) fits.known
  keys := stored ▸ fits.keys
  within := fits.within
  whole := fits.whole
  ended := fits.ended.trans destroyed.symm
  spared open_ := fits.spared fun emptied => open_ (Life.preserves_emptied emptied (next_life path next scope))
  owed := debts

include deeds

theorem Fits.other (fits : before.Fits thread scope block) (unkept : ∀ key made, effect ≠ .keep scope key made)
    (unmarked : effect ≠ .mark scope) (debts : ∀ left, (scope, left) ∈ later.debts → (scope, left) ∈ thread.debts) :
    after.Fits later scope block :=
  fits.keep path next (deeds_unstored deeds unkept) (deeds_destroyed path deeds unmarked) fun left member =>
    fits.owed left (debts left member)

theorem Fits.keeps {made : Instance C} (fits : before.Fits thread scope block) (running : before.threads[me]? = some thread)
    (same : later.debts = thread.debts) (keeps : effect = .keep scope key made) :
    ∃ grown : Block, grown.events scope.id = block.events scope.id ++ [.created scope.id key] ∧ after.Fits later scope grown := by
  subst keeps
  have lasts : (after.world.cell scope).state = .destroyed ↔ _ := deeds_destroyed path deeds nofun
  have open_ := (keeps_open path deeds).2
  obtain ⟨gate, held, rfl⟩ := deeds_keeps deeds
  have fates := fits.spared open_
  have alive : (before.world.cell scope).state ≠ .destroyed := fun destroyed =>
    open_ ((runs_lived path scope).orderly.past destroyed)
  have ended := fits.unended alive
  refine ⟨{ block with keys := block.keys ++ [key] }, Block.events_created fates ended, ?_, ?_, ?_, ?_, ?_, ?_, ?_⟩
  · exact known_stays (step_change next) fits.known
  · have stored : after.world.stored scope = before.world.stored scope ++ _ := deeds_stored deeds
    simp [stored, fits.keys, Item.stored?]
  · simp [fates]
  · simp [ended]
  · exact fits.ended.trans lasts.symm
  · exact fun _ => fates
  · intro left owes
    rw [same] at owes
    exact absurd (debts_pending path running owes).2.2 open_

theorem Fits.pays (fits : before.Fits thread scope block) (running : before.threads[me]? = some thread)
    (was : thread.debts = (scope, key :: left) :: rest) (now : later.debts = (scope, left) :: rest) (pays : effect = .still) (fate : Bool) :
    ∃ grown : Block, grown.events scope.id = block.events scope.id ++ [.fate scope.id key fate] ∧ after.Fits later scope grown := by
  subst pays
  have mine : (scope, key :: left) ∈ thread.debts := was ▸ List.mem_cons_self ..
  obtain ⟨_, pending, emptied⟩ := debts_pending path running mine
  have drop := fits.owed _ mine
  have ended := fits.unended (by simp [pending])
  have less : block.fates.length < block.keys.length := by
    have length := congrArg List.length drop
    rw [List.length_drop, List.length_reverse, List.length_cons] at length
    omega
  refine ⟨{ block with fates := block.fates ++ [fate] }, Block.events_fate ended drop, ?_, ?_, ?_, ?_, ?_, ?_, ?_⟩
  · exact known_stays (step_change next) fits.known
  · exact (deeds_unstored deeds nofun).symm ▸ fits.keys
  · rw [List.length_append, List.length_singleton]
    exact less
  · simp [ended]
  · rw [deeds_destroyed path deeds nofun]
    exact fits.ended
  · exact fun open_ => absurd (Life.preserves_emptied emptied (next_life path next scope)) open_
  · intro other owes
    rw [now] at owes
    rcases List.mem_cons.mp owes with same | below
    · cases same
      show block.keys.reverse.drop (block.fates ++ [fate]).length = left
      rw [List.length_append, List.length_singleton, ← List.drop_drop, drop]
      rfl
    · -- nothing is owed twice
      have once : (thread.debts.map Prod.fst).count scope ≤ 1 := debts_once path running
      have twice : scope ∈ rest.map Prod.fst := List.mem_map_of_mem below
      rw [was, List.map_cons, List.count_cons_self] at once
      have more := List.count_pos_iff.mpr twice
      omega

theorem Fits.marks (fits : before.Fits thread scope block) (running : before.threads[me]? = some thread)
    (was : thread.debts = (scope, []) :: later.debts) (marks : effect = .mark scope) (failures : Nat) :
    ∃ grown : Block, grown.events scope.id = block.events scope.id ++ [.ended scope.id failures] ∧ after.Fits later scope grown := by
  subst marks
  have mine : (scope, []) ∈ thread.debts := was ▸ List.mem_cons_self ..
  obtain ⟨known, pending, emptied⟩ := debts_pending path running mine
  have ended := fits.unended (by simp [pending])
  refine ⟨{ block with ended := some failures }, Block.events_ended ended, ?_, ?_, ?_, ?_, ?_, ?_, ?_⟩
  · exact known_stays (step_change next) fits.known
  · exact (deeds_unstored deeds nofun).symm ▸ fits.keys
  · exact fits.within
  · intro _
    have all := List.drop_eq_nil_iff.mp (fits.owed _ mine)
    rw [List.length_reverse] at all
    exact Nat.le_antisymm fits.within all
  · rw [deeds.world, record_cell, mark_cell known]
    simp
  · exact fun open_ => absurd (Life.preserves_emptied emptied (next_life path next scope)) open_
  · exact fun left owes => fits.owed left (was ▸ List.mem_cons_of_mem _ owes)

theorem Fits.empties {entries : List (String × Entry)} (fits : before.Fits thread scope block)
    (now : later.debts = (scope, entries.map Prod.fst) :: thread.debts) (empties : effect = .empty scope)
    (taken : entries = (before.world.cell scope).store.drainNewestFirst.1) : after.Fits later scope block := by
  subst empties
  subst taken
  obtain ⟨was, is⟩ := deeds_empties deeds
  have early : .alone ∈ (before.life scope).ends me := life_stage was
  have open_ : ¬(before.life scope).Emptied := Life.Orderly.early ((runs_lived path scope).orderly.only early) rfl
  refine fits.keep path next (deeds_unstored deeds nofun) (deeds_destroyed path deeds nofun) fun left owes => ?_
  rw [now] at owes
  rcases List.mem_cons.mp owes with same | below
  · cases same
    have stocked := (runs_lived (.step path next) scope).content.taken me _ (life_stage is) _ rfl
    have stored : (after.life scope).stored = (before.world.stored scope) := deeds_unstored deeds nofun
    rw [stored] at stocked
    have keys := congrArg (List.map Prod.fst) stocked
    simp only [stock, List.map_map, List.map_reverse] at keys
    rw [fits.spared open_, fits.keys]
    exact keys.symm
  · exact fits.owed left below

omit next deeds in
theorem next_fresh (registry : RegistryRef) (id : ScopeId) : before.world.scope? (before.world.nextScope registry id) = none ∧
    before.world.cell (before.world.nextScope registry id) = .fresh ∧
    before.world.stored (before.world.nextScope registry id) = [] := by
  have fresh : before.world.scope? (before.world.nextScope registry id) = none := (runs_grounded path).numbered.fresh
  have untouched : before.world.cell (before.world.nextScope registry id) = .fresh := by simp [World.cell, fresh]
  have objects := (runs_lived path (before.world.nextScope registry id)).content.objects
  simp only [life, untouched, Scope.fresh_eq, List.length_nil, List.range_zero, List.map_nil, List.map_eq_nil_iff] at objects
  exact ⟨fresh, untouched, objects⟩

omit next in
theorem Fits.begins (begins : effect = .register registry id) (running : before.threads[me]? = some thread)
    (same : later.debts = thread.debts) : after.Fits later (before.world.nextScope registry id) ⟨[], [], none⟩ := by
  subst begins
  obtain ⟨fresh, untouched, unstored⟩ := next_fresh path registry id
  refine ⟨?_, ?_, Nat.zero_le _, nofun, ?_, fun _ => rfl, fun left owes => ?_⟩
  · rw [deeds.world, record_scope?, register_scope?, if_pos rfl]
    rfl
  · rw [deeds_unstored deeds nofun, unstored]
    rfl
  · rw [deeds_destroyed path deeds nofun, untouched]
    exact iff_of_false nofun nofun
  · rw [same] at owes
    have known := (debts_pending path running owes).1
    rw [fresh] at known
    cases known

omit next in
-- An event about a living scope goes to the end of the block of that scope.
theorem Recounts.speaks {event : Event} (was : before.Recounts thread registry id blocks)
    (told : concerning registry id (after.world.announced ++ later.announcing) =
      concerning registry id (before.world.announced ++ thread.announcing) ++ concerning registry id [(scope.registry, event)])
    (about : event.scope? = some scope.id) (alive : before.world.isAlive scope = true) (ordinary : effect.registered? = none)
    (others : ∀ other block, other ≠ scope → before.Fits thread other block → after.Fits later other block)
    (mine : ∀ block, before.Fits thread scope block →
      ∃ grown : Block, grown.events scope.id = block.events scope.id ++ [event] ∧ after.Fits later scope grown) :
    ∃ blocks, after.Recounts later registry id blocks := by
  have still : after.world.nextScope registry id = before.world.nextScope registry id := deeds_next deeds ordinary
  by_cases same : scope.registry = registry ∧ scope.id = id
  · obtain ⟨place, own, turn⟩ := scope
    obtain ⟨rfl, rfl⟩ := same
    have newest : (before.world.nextScope place own).turn = turn + 1 := runs_newest path _ alive
    have last : blocks.length = turn + 1 := was.count.trans newest
    obtain ⟨block, found⟩ : ∃ block, blocks[turn]? = some block := ⟨_, List.getElem?_eq_getElem (by omega)⟩
    obtain ⟨grown, grows, fits⟩ := mine block (was.fits turn block found)
    refine ⟨_, was.grow last found grows ?_ still fits fun other block apart => others _ block ?_⟩
    · rw [told]
      simp [concerning, about]
    · exact fun same => apart (ScopeRef.mk.inj same).2.2
  · refine ⟨blocks, was.keep ?_ still fun index block => others _ block ?_⟩
    · rw [told]
      simp [concerning, about, same]
    · rintro rfl
      exact same ⟨rfl, rfl⟩

omit next in
theorem Recounts.begins {place : RegistryRef} {begun : ScopeId} (was : before.Recounts thread registry id blocks)
    (told : concerning registry id (after.world.announced ++ later.announcing) =
      concerning registry id (before.world.announced ++ thread.announcing) ++ concerning registry id [(place, .began begun)])
    (running : before.threads[me]? = some thread) (same : later.debts = thread.debts)
    (known : place < before.world.registries.length) (begins : effect = .register place begun)
    (fits : ∀ scope block, before.Fits thread scope block → after.Fits later scope block) :
    ∃ blocks, after.Recounts later registry id blocks := by
  subst begins
  have turn : ((Effect.register place begun).apply me before.world).nextScope registry id = _ := register_next known
  by_cases mine : place = registry ∧ begun = id
  · obtain ⟨rfl, rfl⟩ := mine
    rw [if_pos ⟨rfl, rfl⟩] at turn
    refine ⟨_, was.begin ?_ ?_ ?_ fun index block => fits _ block⟩
    · rw [told]
      simp [concerning, Event.scope?]
    · rw [deeds.world]
      exact congrArg ScopeRef.turn turn
    · rw [was.count]
      exact Fits.begins path deeds rfl running same
  · rw [if_neg fun other => mine ⟨other.1.symm, other.2.symm⟩] at turn
    refine ⟨blocks, was.keep ?_ ?_ fun index block => fits _ block⟩
    · rw [told]
      simp [concerning, Event.scope?, mine]
    · rw [deeds.world]
      exact turn

theorem turn_recounts (was : before.Recounts thread registry id blocks) (running : before.threads[me]? = some thread)
    (said : after.world.announced ++ later.announcing = before.world.announced ++ thread.announcing ++ spoken)
    (tale : Tale before.world thread.debts effect spoken later.debts) : ∃ blocks, after.Recounts later registry id blocks := by
  have told : concerning registry id (after.world.announced ++ later.announcing) =
      concerning registry id (before.world.announced ++ thread.announcing) ++ concerning registry id spoken := by
    rw [said]
    exact List.filterMap_append
  generalize owed : thread.debts = debts at tale
  generalize owes : later.debts = left at tale
  cases tale with
  | quiet hushed fewer =>
    have still : after.world.nextScope registry id = before.world.nextScope registry id :=
      deeds_next deeds (by cases effect <;> first | rfl | cases hushed)
    refine ⟨blocks, was.keep (told.trans (List.append_nil _)) still fun index block fits => ?_⟩
    refine fits.other path next deeds ?_ ?_ fun left member => owed ▸ fewer.subset (owes ▸ member)
    · rintro key made rfl
      cases hushed
    · rintro rfl
      cases hushed
  | sums =>
    refine ⟨blocks, was.keep ?_ (deeds_next deeds rfl) fun index block fits => ?_⟩
    · rw [told]
      simp [concerning, Event.scope?]
    · exact fits.other path next deeds nofun nofun fun left member => owed ▸ owes ▸ member
  | begins vacant known =>
    exact was.begins path deeds told running (owes.trans owed.symm) known rfl fun scope block fits =>
      fits.other path next deeds nofun nofun fun left member => owed ▸ owes ▸ member
  | @keeps _ scope key made =>
    obtain ⟨known, open_⟩ := keeps_open path deeds
    have alive : (before.world.cell scope).state ≠ .destroyed := fun destroyed =>
      open_ ((runs_lived path scope).orderly.past destroyed)
    refine was.speaks path deeds told rfl (alive_iff.mpr ⟨known, alive⟩) rfl ?_ ?_
    · intro other block apart fits
      exact fits.other path next deeds (fun key made same => apart (Effect.keep.inj same).1.symm) nofun
        fun left member => owed ▸ owes ▸ member
    · exact fun block fits => fits.keeps path next deeds running (owes.trans owed.symm) rfl
  | @empties scope cell _ found =>
    refine ⟨blocks, was.keep (told.trans (List.append_nil _)) (deeds_next deeds rfl) fun index block fits => ?_⟩
    by_cases mine : ⟨registry, id, index⟩ = scope
    · subst mine
      exact fits.empties path next deeds (owed ▸ owes) rfl (cell_found found ▸ rfl)
    · refine fits.other path next deeds nofun nofun fun left member => owed ▸ ?_
      exact List.mem_of_ne_of_mem (fun same => mine (Prod.mk.inj same).1) (owes ▸ member)
  | @pays scope key left rest fate =>
    obtain ⟨known, pending, _⟩ := debts_pending path running (owed ▸ List.mem_cons_self ..)
    refine was.speaks path deeds told (by cases fate <;> rfl) (alive_iff.mpr ⟨known, by simp [pending]⟩) rfl ?_ ?_
    · intro other block apart fits
      refine fits.other path next deeds nofun nofun fun left member => owed ▸ List.mem_cons_of_mem _ ?_
      exact List.mem_of_ne_of_mem (fun same => apart (Prod.mk.inj same).1) (owes ▸ member)
    · exact fun block fits => fits.pays path next deeds running owed owes rfl fate
  | @marks scope rest failures =>
    obtain ⟨known, pending, _⟩ := debts_pending path running (owed ▸ List.mem_cons_self ..)
    refine was.speaks path deeds told rfl (alive_iff.mpr ⟨known, by simp [pending]⟩) rfl ?_ ?_
    · intro other block apart fits
      exact fits.other path next deeds nofun (fun same => apart (Effect.mark.inj same).symm)
        fun left member => owed ▸ List.mem_cons_of_mem _ (owes ▸ member)
    · exact fun block fits => fits.marks path next deeds running (owes ▸ owed) rfl failures

end

theorem initial_recounts :
    (initial program memory code).Recounts (.ofCode code) registry id [] := by
  refine ⟨rfl, ?_, nofun⟩
  simp [World.nextScope, initial, World.initial]

-- It does not matter which user code a thread runs above its frames.
theorem code_same {focus other : Focus C} (frames : List (Frame C)) (does : focus.activity? = some .code)
    (will : other.activity? = some .code) : (Thread.mk other frames).posture = (Thread.mk focus frames).posture ∧
    (Thread.mk other frames).debts = (Thread.mk focus frames).debts ∧
    (Thread.mk other frames).announcing = (Thread.mk focus frames).announcing := by
  cases focus <;> cases does <;> cases other <;> cases will <;> exact ⟨rfl, rfl, rfl⟩

theorem Fits.refocus {world : World C} {focus other : Focus C} {frames : List (Frame C)} (does : focus.activity? = some .code)
    (will : other.activity? = some .code) (fits : Fits ⟨world, [⟨focus, frames⟩]⟩ ⟨focus, frames⟩ scope block) :
    Fits ⟨world, [⟨other, frames⟩]⟩ ⟨other, frames⟩ scope block := by
  obtain ⟨posture, debts, _⟩ := code_same frames does will
  have life : System.life ⟨world, [⟨other, frames⟩]⟩ scope = System.life ⟨world, [⟨focus, frames⟩]⟩ scope := by
    have same : System.posture ⟨world, [⟨other, frames⟩]⟩ = System.posture ⟨world, [⟨focus, frames⟩]⟩ := by
      funext thread
      cases thread with
      | zero => exact posture
      | succ => rfl
    unfold System.life
    rw [same]
  exact ⟨fits.known, fits.keys, fits.within, fits.whole, fits.ended, life ▸ fits.spared, debts ▸ fits.owed⟩

theorem runs_recounts (path : Runs (initial program memory code) system) (single : system.threads.length = 1)
    (unhanded : ¬system.world.handed) :
    ∃ thread, system.threads = [thread] ∧ ∀ registry id, ∃ blocks, system.Recounts thread registry id blocks := by
  suffices holds : ∃ thread, system.threads = [thread] ∧ (¬system.world.handed → ∀ registry id,
      ∃ blocks, Recounts ⟨system.world, [thread]⟩ thread registry id blocks) by
    obtain ⟨thread, alone, recounts⟩ := holds
    refine ⟨thread, alone, ?_⟩
    obtain ⟨world, threads⟩ := system
    cases (show threads = [thread] from alone)
    exact recounts unhanded
  refine runs_sole
    (P := fun world thread => ¬world.handed → ∀ registry id, ∃ blocks, Recounts ⟨world, [thread]⟩ thread registry id blocks)
    path single ?_ ?_ ?_
  · exact fun _ registry id => ⟨[], initial_recounts⟩
  · intro world focus other frames does will holds free registry id
    obtain ⟨blocks, was⟩ := holds free registry id
    refine ⟨blocks, ?_, was.count, fun index block found => (was.fits index block found).refocus does will⟩
    rw [(code_same frames does will).2.2]
    exact was.told
  · intro world thread move path turn next holds free registry id
    have early : ¬world.handed := fun handed => free (runs_handed (.step (.refl _) next) handed)
    obtain ⟨blocks, was⟩ := holds early registry id
    have sound : thread.Sound False world.shaken :=
      (runs_upright path thread (List.mem_singleton.mpr rfl)).mono (absurd · early) fun shaken => shaken
    obtain ⟨spoken, said, tale⟩ := turn_tale turn sound
    have running : (⟨world, [thread]⟩ : System C).threads[0]? = some thread := rfl
    have deeds := turn_deeds running turn (runs_sound path)
    refine turn_recounts path next deeds was running ?_ tale
    show (record (move.effect.apply 0 world) 0 move.items).announced ++ _ = world.announced ++ _ ++ spoken
    simp only [World.announced, record_chronicle, apply_chronicle, List.filterMap_append, List.append_assoc]
    rw [said]

-- What has been told of an identity, with what is about to be told, are blocks, and the blocks are those of
-- its scopes.
theorem Recounts.form (path : Runs (initial program memory code) system)
    (recounts : system.Recounts thread registry id blocks) :
    InBlocks id (concerning registry id (system.world.announced ++ thread.announcing)) blocks := by
  refine ⟨recounts.told, fun block member => ?_, fun block member => ?_⟩
  · obtain ⟨index, found⟩ := List.mem_iff_getElem?.mp member
    have fits := recounts.fits index block found
    refine ⟨?_, fits.within, fits.whole⟩
    rw [fits.keys]
    exact (runs_lived path ⟨registry, id, index⟩).content.keys
  · obtain ⟨index, found⟩ := List.mem_iff_getElem?.mp member
    obtain ⟨inside, there⟩ := List.getElem?_eq_some_iff.mp found
    rw [List.length_dropLast] at inside
    rw [List.getElem_dropLast] at there
    have fits := recounts.fits index block (List.getElem?_eq_some_iff.mpr ⟨by omega, there⟩)
    refine fits.ended.mpr (Decidable.by_contra fun living => ?_)
    -- only the last scope of an identity is alive
    have newest : (system.world.nextScope registry id).turn = index + 1 := runs_newest path _ (alive_iff.mpr ⟨fits.known, living⟩)
    have count := recounts.count
    omega

theorem Recounts.announced (path : Runs (initial program memory code) system)
    (recounts : system.Recounts thread registry id blocks) :
    ∃ blocks, InBlocks id (concerning registry id system.world.announced) blocks := by
  have form := recounts.form path
  have told : concerning registry id (system.world.announced ++ thread.announcing) =
      concerning registry id system.world.announced ++ concerning registry id thread.announcing := List.filterMap_append
  rw [told] at form
  rcases List.eq_nil_or_concat' (concerning registry id thread.announcing) with none | ⟨earlier, event, some⟩
  · rw [none, List.append_nil] at form
    exact ⟨blocks, form⟩
  · have single : (concerning registry id thread.announcing).length ≤ 1 := by
      refine Nat.le_trans (List.length_filterMap_le _ _) ?_
      unfold Thread.announcing
      split <;> simp
    rw [some, List.length_append, List.length_singleton] at single
    obtain rfl : earlier = [] := List.length_eq_zero_iff.mp (by omega)
    rw [some] at form
    exact form.shorter

-- In a run of one thread in which nobody destroys by hand, each event is logged once and then given once to
-- the listener of that moment, and the events of an identity are blocks: one for each scope that was begun
-- under it, which tells of the instances that the scope has stored, and ends if the scope is destroyed.
theorem events_in_blocks (path : Runs (initial program memory code) system) (single : system.threads.length = 1)
    (unhanded : ¬system.world.handed) :
    ∃ thread, system.threads = [thread] ∧ (∃ told, Told system.world told) ∧
    (∀ registry event, thread.focus = .emit registry event → ∃ cell, system.world.registries[registry]? = some cell ∧
      system.advance 0 = some ⟨record system.world 0 [.emitted registry event, .logged (.ofEvent cell.settings event)],
        [⟨.deliver registry event, thread.frames⟩]⟩) ∧
    (∀ registry event, thread.focus = .deliver registry event → ∃ cell, system.world.registries[registry]? = some cell ∧
      (cell.listener = none → system.advance 0 = some ⟨system.world, [⟨.back .done, thread.frames⟩]⟩) ∧
      ∀ listener, cell.listener = some listener →
        system.advance 0 = some ⟨record system.world 0 [.delivered registry event],
          [⟨.run (listener event), .delivering registry event :: thread.frames⟩]⟩) ∧
    ∀ registry id, (∃ blocks, InBlocks id (concerning registry id system.world.announced) blocks) ∧
      ∃ blocks, InBlocks id (concerning registry id (system.world.announced ++ thread.announcing)) blocks ∧
        blocks.length = (system.world.nextScope registry id).turn ∧
        ∀ index block, blocks[index]? = some block →
          block.keys = (system.world.stored ⟨registry, id, index⟩).map Prod.fst ∧
          (block.ended.isSome = true ↔ (system.world.cell ⟨registry, id, index⟩).state = .destroyed) := by
  obtain ⟨⟨focus, frames⟩, alone, recounts⟩ := runs_recounts path single unhanded
  obtain ⟨_, _, told, holds, _⟩ := runs_told path single
  have running : system.threads[0]? = some ⟨focus, frames⟩ := by rw [alone]; rfl
  have known := runs_announces path unhanded _ (List.mem_of_getElem? running)
  refine ⟨_, alone, ⟨told, holds⟩, ?_, ?_, fun registry id => ?_⟩
  · rintro registry event rfl
    obtain ⟨cell, found, emits⟩ := emit_advances running (known registry event (.inl (List.mem_singleton.mpr rfl)))
    exact ⟨cell, found, by rw [emits, alone]; rfl⟩
  · rintro registry event rfl
    obtain ⟨cell, found, deaf, hears⟩ := deliver_advances running (known registry event (.inr rfl))
    refine ⟨cell, found, fun none => ?_, fun listener some => ?_⟩
    · rw [deaf none, alone]; rfl
    · rw [hears listener some, alone]; rfl
  · obtain ⟨blocks, fits⟩ := recounts registry id
    refine ⟨fits.announced path, blocks, fits.form path, fits.count, fun index block found => ?_⟩
    exact ⟨(fits.fits index block found).keys, (fits.fits index block found).ended⟩

-- A listener that hears of the end of a session begins it again. The newer one of its two instances cannot be
-- destroyed.
def begunAgain : System ⟨Unit, Unit, Unit, Unit⟩ :=
  let hooks (destroy : Code ⟨Unit, Unit, Unit, Unit⟩) : Hooks (Code ⟨Unit, Unit, Unit, Unit⟩) :=
    ⟨fun _ => .done, fun _ => .done, destroy⟩
  let again : Event → Code ⟨Unit, Unit, Unit, Unit⟩
    | .ended id _ => .call (.begin 0 id) fun _ => .done
    | _ => .done
  initial (fun _ => .done) () <| .call (.establish {}) fun _ => .listen 0 again <|
    .call (.begin 0 ⟨.session, "a"⟩) fun _ =>
      .resolve ⟨⟨0, ⟨.session, "a"⟩, 0⟩, "One", "One"⟩ (fun _ => .built () (hooks .done)) fun _ =>
      .resolve ⟨⟨0, ⟨.session, "a"⟩, 0⟩, "Two", "Two"⟩ (fun _ => .built () (hooks (.fail default))) fun _ =>
      .call (.finish 0 ⟨.session, "a"⟩) fun _ => .done

theorem told_from_within : (run 100 begunAgain).threads.length = 1 ∧ ¬(run 100 begunAgain).world.handed ∧
    concerning 0 ⟨.session, "a"⟩ (run 100 begunAgain).world.announced = Block.events ⟨.session, "a"⟩
      ⟨["One", "Two"], [false, true], some 1⟩ ++ Block.events ⟨.session, "a"⟩ ⟨[], [], none⟩ ∧
    ∃ blocks, InBlocks ⟨.session, "a"⟩ (concerning 0 ⟨.session, "a"⟩ (run 100 begunAgain).world.announced) blocks := by
  have single : (run 100 begunAgain).threads.length = 1 := rfl
  have unhanded : ¬(run 100 begunAgain).world.handed := by decide
  obtain ⟨_, _, _, _, _, blocks⟩ := events_in_blocks (run_runs 100 begunAgain) single unhanded
  exact ⟨single, unhanded, by decide, (blocks 0 ⟨.session, "a"⟩).1⟩

end System
end Lifespan
