import Lifespan.Proofs.ScopeSteps

-- The life of one scope: its cell, what the threads are to it, what has been stored in it, and
-- which hooks of a teardown its instances have seen. A step of a system either leaves such a life
-- as it is or is an act of one thread in it.
namespace Lifespan
variable {C : Client}

structure Life (C : Client) where
  cell : Scope C
  grips : ThreadId → List Grip
  ends : ThreadId → List Stage
  stored : List (String × InstanceRef)
  calls : List HookCall

def Stage.next? : Stage → Option (String × Entry)
  | tearing teardown => teardown.rest.head?
  | _ => none

def Item.stored? (scope : ScopeRef) : Item C → Option (String × InstanceRef)
  | stored place key object => if place = scope then some (key, object) else none
  | _ => none

def World.stored (world : World C) (scope : ScopeRef) : List (String × InstanceRef) :=
  world.chronicle.filterMap (Item.stored? scope)

def HookCall.tearsDown (scope : ScopeRef) : HookCall → Bool
  | before (.kept place _) _ | destroy (.kept place _) => place = scope
  | _ => false

def Item.call? (scope : ScopeRef) : Item C → Option HookCall
  | hook call => if call.tearsDown scope then some call else none
  | _ => none

def World.calls (world : World C) (scope : ScopeRef) : List HookCall := world.chronicle.filterMap (Item.call? scope)

-- Attributes play no part in it. Hooks that are called by hand come at any time.
inductive Life.Step (shaken aided : Prop) (scope : ScopeRef) (before after : Life C) : Prop
  | idle (cell : ∃ attributes, after.cell = { before.cell with attributes := attributes })
      (grips : after.grips = before.grips) (ends : after.ends = before.ends) (stored : after.stored = before.stored)
      (calls : after.calls = before.calls ∨ aided ∧ ∃ more, after.calls = before.calls ++ more)
  | build (me : ThreadId) (rest : List Grip) (build : Build scope before.cell me was effect items now)
      (cell : after.cell = effect.change me before.cell)
      (held : before.grips me = was ++ rest) (holds : after.grips me = now ++ rest)
      (others : ∀ other, other ≠ me → after.grips other = before.grips other) (ends : after.ends = before.ends)
      (stored : after.stored = before.stored ++ items.filterMap (Item.stored? scope))
      (calls : after.calls = before.calls)
  | close (me : ThreadId) (rest : List Stage) (close : Close shaken scope before.cell was effect items now)
      (cell : after.cell = effect.change me before.cell)
      (stood : before.ends me = was ++ rest) (stands : after.ends me = now ++ rest)
      (others : ∀ other, other ≠ me → after.ends other = before.ends other) (grips : after.grips = before.grips)
      (stored : after.stored = before.stored) (calls : after.calls = before.calls ++ items.filterMap (Item.call? scope))

def Life.Owned (scope : ScopeRef) (life : Life C) : Prop :=
  ∀ thread, ∀ stage ∈ life.ends thread, ∀ key entry, stage.next? = some (key, entry) → ∃ index, entry.object = .kept scope index

structure Life.Untouched (life : Life C) : Prop where
  cell : life.cell = .fresh
  grips : ∀ thread, life.grips thread = []
  ends : ∀ thread, life.ends thread = []
  stored : life.stored = []
  calls : life.calls = []

section
variable {world : World C} {me : ThreadId} {items : List (Item C)} {effect : Effect C} {scope other : ScopeRef}

theorem onRegistry_next {id : ScopeId} {change : Registry C → Registry C} (kept : ∀ cell, (change cell).begun = cell.begun) :
    (world.onRegistry registry change).nextScope place id = world.nextScope place id := by
  simp only [World.nextScope, World.onRegistry, List.getElem?_modify]
  cases world.registries[place]? with
  | none => rfl
  | some cell => simp only [Option.map_eq_map, Option.map_some]; split <;> simp [kept]

theorem establish_next {id : ScopeId} {settings : Settings} :
    ((Effect.establish settings).apply me world).nextScope registry id = world.nextScope registry id := by
  simp only [World.nextScope, Effect.apply, List.getElem?_append]
  split
  · rfl
  · rename_i beyond
    rw [List.getElem?_eq_none (Nat.le_of_not_lt beyond)]
    cases found : [(⟨settings, .empty, none, .empty⟩ : Registry C)][registry - world.registries.length]? with
    | none => rfl
    | some cell => cases List.mem_singleton.mp (List.mem_of_getElem? found); rfl

theorem ordinary_next {id : ScopeId} (ordinary : effect.registered? = none) :
    (effect.apply me world).nextScope registry id = world.nextScope registry id := by
  cases effect with
  | establish => exact establish_next
  | listen | forget => exact onRegistry_next fun _ => rfl
  | register => cases ordinary
  | _ => rfl

theorem register_next {id begun : ScopeId} (known : registry < world.registries.length) :
    ((Effect.register registry begun).apply me world).nextScope place id =
      if place = registry ∧ id = begun then ⟨registry, begun, (world.nextScope registry begun).turn + 1⟩
      else world.nextScope place id := by
  obtain ⟨cell, found⟩ : ∃ cell, world.registries[registry]? = some cell := ⟨_, List.getElem?_eq_getElem known⟩
  simp only [World.nextScope, Effect.apply, World.onRegistry, List.getElem?_modify]
  by_cases here : registry = place
  · subst here
    by_cases same : id = begun <;> simp [found, Table.get?_put, same]
  · have elsewhere : ¬(place = registry ∧ id = begun) := fun both => here both.1.symm
    simp [here, elsewhere]

-- Turns are counted up, so the next scope of an identity is always a new one.
def World.Numbered (world : World C) : Prop :=
  ∀ scope, (world.scope? scope).isSome → scope.turn < (world.nextScope scope.registry scope.id).turn

theorem World.Numbered.fresh {id : ScopeId} (numbered : world.Numbered) : world.scope? (world.nextScope registry id) = none := by
  cases found : world.scope? (world.nextScope registry id) with
  | none => rfl
  | some cell =>
    have less := numbered (world.nextScope registry id) (by rw [found]; rfl)
    exact absurd less (Nat.lt_irrefl _)

theorem initial_numbered (program : C.Label → Code C) (memory : C.Memory) : (World.initial program memory).Numbered := by
  intro scope known
  cases known

theorem preserves_numbered (numbered : world.Numbered)
    (known : ∀ registry id, effect.registered? = some (registry, id) → registry < world.registries.length) :
    (System.record (effect.apply me world) me items).Numbered := by
  intro scope present
  show scope.turn < ((effect.apply me world).nextScope scope.registry scope.id).turn
  cases new : effect.registered? with
  | none =>
    rw [ordinary_next new]
    rcases apply_known present with old | ⟨registry, id, same, _⟩
    · exact numbered scope old
    · cases new.symm.trans same
  | some place =>
    obtain ⟨registry, id⟩ := place
    cases effect <;> cases new
    rw [register_next (known _ _ rfl)]
    have present : (((Effect.register registry id).apply me world).scope? scope).isSome := present
    rw [register_scope?] at present
    split at present
    · rename_i same
      subst same
      simp [World.nextScope]
    · have less := numbered scope present
      split
      · rename_i same
        rw [same.1, same.2] at less
        exact Nat.lt_succ_of_lt less
      · exact less
end

theorem Close.mono {shaken later : Prop} {cell : Scope C} {effect : Effect C} {items : List (Item C)} (grows : shaken → later)
    (close : Close shaken scope cell was effect items now) : Close later scope cell was effect items now := by
  cases close <;> constructor <;> first | assumption | exact grows ‹_›

theorem Life.Step.mono {shaken later aided assisted : Prop} {before after : Life C} (grows : shaken → later)
    (helps : aided → assisted) (step : Step shaken aided scope before after) : Step later assisted scope before after := by
  cases step with
  | idle cell grips ends stored calls => exact .idle cell grips ends stored (calls.imp_right (And.imp_left helps))
  | build me rest build cell held holds others ends stored calls =>
    exact .build me rest build cell held holds others ends stored calls
  | close me rest close cell stood stands others grips stored calls =>
    exact .close me rest (close.mono grows) cell stood stands others grips stored calls

namespace Life

-- What a thread is in the middle of after its step it has just come to, or it was there before.
theorem come_or_kept {before after : ThreadId → List α} {was now rest : List α} (held : before me = was ++ rest)
    (holds : after me = now ++ rest) (others : ∀ other, other ≠ me → after other = before other) (member : one ∈ after thread) :
    thread = me ∧ one ∈ now ∨ one ∈ before thread ∧ (thread = me → one ∈ rest) := by
  by_cases mine : thread = me
  · subst mine
    rw [holds] at member
    rcases List.mem_append.mp member with new | old
    · exact .inl ⟨rfl, new⟩
    · exact .inr ⟨held ▸ List.mem_append_right was old, fun _ => old⟩
  · exact .inr ⟨others thread mine ▸ member, fun same => absurd same mine⟩

inductive Lived (shaken aided : Prop) (scope : ScopeRef) : Life C → Prop
  | untouched (untouched : life.Untouched) : Lived shaken aided scope life
  | step (lived : Lived shaken aided scope before) (next : Step shaken aided scope before after) :
      Lived shaken aided scope after

inductive Leads (shaken aided : Prop) (scope : ScopeRef) : Life C → Life C → Prop
  | refl (life : Life C) : Leads shaken aided scope life life
  | step (path : Leads shaken aided scope before middle) (next : Step shaken aided scope middle after) :
      Leads shaken aided scope before after

theorem Lived.mono {shaken later aided assisted : Prop} {life : Life C} (grows : shaken → later) (helps : aided → assisted)
    (lived : Lived shaken aided scope life) : Lived later assisted scope life := by
  induction lived with
  | untouched untouched => exact .untouched untouched
  | step _ next ih => exact .step ih (next.mono grows helps)

theorem Leads.mono {shaken later aided assisted : Prop} {before after : Life C} (grows : shaken → later)
    (helps : aided → assisted) (path : Leads shaken aided scope before after) : Leads later assisted scope before after := by
  induction path with
  | refl => exact .refl _
  | step _ next ih => exact .step ih (next.mono grows helps)

end Life

section
variable {world : World C} {cell : Scope C} {shaken : Prop} {me : ThreadId} {effect : Effect C} {items : List (Item C)}
  {scope other : ScopeRef}

theorem record_stored : (System.record (effect.apply me world) me items).stored scope =
    world.stored scope ++ items.filterMap (Item.stored? scope) := by simp [World.stored]

theorem record_calls : (System.record (effect.apply me world) me items).calls scope =
    world.calls scope ++ items.filterMap (Item.call? scope) := by simp [World.calls]

theorem plain_calls (ordinary : ∀ item ∈ items, Item.isPlain item = true) : items.filterMap (Item.call? scope) = [] := by
  refine List.filterMap_eq_nil_iff.mpr fun item member => ?_
  have plain := ordinary item member
  cases item with
  | hook call => cases call <;> first | rfl | cases plain
  | _ => rfl

theorem plain_stored (ordinary : ∀ item ∈ items, Item.isPlain item = true) : items.filterMap (Item.stored? scope) = [] := by
  refine List.filterMap_eq_nil_iff.mpr fun item member => ?_
  have plain := ordinary item member
  cases item <;> first | rfl | cases plain

theorem aside_stored (hooks : ∀ item ∈ items, (∃ op, item = .called op) ∨ ∃ call, item = .hook call) :
    items.filterMap (Item.stored? scope) = [] := by
  refine List.filterMap_eq_nil_iff.mpr fun item member => ?_
  rcases hooks item member with ⟨op, rfl⟩ | ⟨call, rfl⟩ <;> rfl

theorem Act.target (act : Act shaken scope cell me was effect items now) :
    effect.target? = some scope ∨ effect.target? = none ∧ effect.registered? = none := by
  cases act with
  | build build => cases build <;> first | exact .inl rfl | exact .inr ⟨rfl, rfl⟩
  | close close => cases close <;> first | exact .inl rfl | exact .inr ⟨rfl, rfl⟩

theorem Act.applied (act : Act shaken scope cell me was effect items now) (known : (world.scope? scope).isSome) :
    (effect.apply me world).cell other = if other = scope then effect.change me (world.cell other) else world.cell other := by
  rcases act.target with target | ⟨target, ordinary⟩
  · exact target_cell target known
  · rw [untargeted_cell target ordinary, untargeted_change target, ite_self]

theorem Close.stores (close : Close shaken scope cell was effect items now) : items.filterMap (Item.stored? other) = [] := by
  cases close with
  | fail _ ordinary => exact plain_stored ordinary
  | _ => rfl

theorem Act.elsewhere (act : Act shaken scope cell me was effect items now) (apart : scope ≠ other) :
    items.filterMap (Item.stored? other) = [] := by
  cases act with
  | close close => exact close.stores
  | build build =>
    cases build with
    | done ordinary => exact plain_stored ordinary
    | keep => simp [Item.stored?, apart]
    | _ => rfl

theorem Build.calls (build : Build scope cell me held effect items holds) : items.filterMap (Item.call? other) = [] := by
  cases build with
  | done ordinary => exact plain_calls ordinary
  | _ => rfl

theorem Close.calls (close : Close shaken scope cell was effect items now) (apart : scope ≠ other)
    (own : ∀ stage ∈ was, ∀ key entry, stage.next? = some (key, entry) → ∃ index, entry.object = .kept scope index) :
    items.filterMap (Item.call? other) = [] := by
  cases close with
  | fail _ ordinary => exact plain_calls ordinary
  | @hook key entry rest teardown mine left =>
    obtain ⟨index, kept⟩ := own _ (List.mem_singleton.mpr rfl) key entry (by simp [Stage.next?, left])
    unfold Teardown.nextCall
    cases teardown.phase <;> simp [Item.call?, HookCall.tearsDown, kept, apart]
  | _ => rfl

theorem Act.calls (act : Act shaken scope cell me was effect items now) (apart : scope ≠ other)
    (own : ∀ stage ∈ was.ends, ∀ key entry, stage.next? = some (key, entry) → ∃ index, entry.object = .kept scope index) :
    items.filterMap (Item.call? other) = [] := by
  cases act with
  | build build => exact build.calls
  | close close => exact close.calls apart own

theorem Deed.registers {was now : Posture} {id : ScopeId} (deed : Deed world me was effect items now)
    (new : effect.registered? = some (registry, id)) : registry < world.registries.length := by
  cases deed with
  | plain own => cases new.symm.trans (plain_registered own)
  | register _ known => cases new; exact known
  | aside => cases new
  | act rest act =>
    rcases act.target with target | ⟨_, ordinary⟩
    · cases effect <;> cases new; cases target
    · cases new.symm.trans ordinary

theorem part_present {rest : Posture} {part : Part}
    (grips : ∀ grip, (scope, grip) ∈ (rest.under scope part).grips → (world.scope? scope).isSome)
    (ends : ∀ stage, (scope, stage) ∈ (rest.under scope part).ends → (world.scope? scope).isSome)
    (known : part = ⟨[], []⟩ → (world.scope? scope).isSome) : (world.scope? scope).isSome := by
  obtain ⟨held, stood⟩ := part
  cases held with
  | cons grip more => exact grips grip (by simp [Posture.under])
  | nil =>
    cases stood with
    | cons stage more => exact ends stage (by simp [Posture.under])
    | nil => exact known rfl

theorem Deed.grounds {was now : Posture} (deed : Deed world me was effect items now)
    (grips : ∀ scope grip, (scope, grip) ∈ was.grips → (world.scope? scope).isSome)
    (ends : ∀ scope stage, (scope, stage) ∈ was.ends → (world.scope? scope).isSome) :
    (∀ scope grip, (scope, grip) ∈ now.grips → (world.scope? scope).isSome) ∧
      ∀ scope stage, (scope, stage) ∈ now.ends → (world.scope? scope).isSome := by
  cases deed with
  | plain | register | aside => exact ⟨grips, ends⟩
  | act rest act known =>
    have present := part_present (grips _) (ends _) known
    constructor
    · intro other grip member
      rcases List.mem_append.mp member with mine | below
      · obtain ⟨_, _, same⟩ := List.mem_map.mp mine
        cases same
        exact present
      · exact grips other grip (List.mem_append_right _ below)
    · intro other stage member
      rcases List.mem_append.mp member with mine | below
      · obtain ⟨_, _, same⟩ := List.mem_map.mp mine
        cases same
        exact present
      · exact ends other stage (List.mem_append_right _ below)

end

namespace System
variable {before after start system : System C} {scope : ScopeRef} {effect : Effect C} {items : List (Item C)}

def posture (system : System C) (thread : ThreadId) : Posture := (system.threads[thread]?).elim ⟨[], []⟩ Thread.posture

def life (system : System C) (scope : ScopeRef) : Life C where
  cell := system.world.cell scope
  grips thread := ((system.posture thread).part scope).grips
  ends thread := ((system.posture thread).part scope).ends
  stored := system.world.stored scope
  calls := system.world.calls scope

structure Deeds (before after : System C) (me : ThreadId) (effect : Effect C) (items : List (Item C)) : Prop where
  deed : Deed before.world me (before.posture me) effect items (after.posture me)
  others : ∀ other, other ≠ me → after.posture other = before.posture other
  world : after.world = record (effect.apply me before.world) me items

theorem posture_found {thread : Thread C} (running : system.threads[me]? = some thread) :
    system.posture me = thread.posture := by simp [posture, running]

theorem set_posture {threads : List (Thread C)} {world : World C} {old new : Thread C} (running : threads[me]? = some old) :
    (System.mk world (threads.set me new)).posture me = new.posture :=
  posture_found (List.getElem?_set_self (List.getElem?_eq_some_iff.mp running).1)

theorem set_others {threads : List (Thread C)} {world later : World C} {new : Thread C} (apart : other ≠ me) :
    (System.mk later (threads.set me new)).posture other = (System.mk world threads).posture other := by
  simp [posture, List.getElem?_set_ne apart.symm]

theorem waited_posture (passed : Nat) (thread : Thread C) : (waited passed thread).posture = thread.posture := by
  rcases waited_cases passed thread with same | ⟨left, next, frames, rfl, same⟩
  · rw [same]
  · rw [same]
    rfl

theorem elapse_posture (passed : Nat) : (system.elapse passed).posture me = system.posture me := by
  simp only [posture, elapse, List.getElem?_map]
  cases system.threads[me]? with
  | none => rfl
  | some thread => exact waited_posture passed thread

theorem made_posture {threads made : List (Thread C)} {world : World C} (idle : ∀ thread ∈ made, thread.posture = ⟨[], []⟩) :
    (System.mk world (threads ++ made)).posture me = (System.mk world threads).posture me := by
  simp only [posture, List.getElem?_append]
  split
  · rfl
  · rename_i beyond
    rw [List.getElem?_eq_none (Nat.le_of_not_lt beyond)]
    cases found : made[me - threads.length]? with
    | none => rfl
    | some thread => exact idle thread (List.mem_of_getElem? found)

theorem turn_deeds {thread : Thread C} {move : Move C} (running : before.threads[me]? = some thread)
    (turn : Turn before.world me thread move) (sound : before.Sound) :
    Deeds before (before.perform me move) me move.effect move.items := by
  refine ⟨?_, fun other apart => set_others apart, rfl⟩
  rw [posture_found running, perform, set_posture running]
  exact turn_deed turn (sound _ (List.mem_of_getElem? running))

-- A step that is nobody's turn is no deed of any concern.
theorem change_deed (change : Change before after) (sound : before.Sound) :
    (∃ me thread move, before.threads[me]? = some thread ∧ Turn before.world me thread move ∧
      Deeds before after me move.effect move.items) ∨ ∃ me, Deeds before after me .still [] := by
  cases change with
  | turn running turn => exact .inl ⟨_, _, _, running, turn, turn_deeds running turn sound⟩
  | @fork me _ _ _ count body running =>
    have idle : ∀ thread ∈ (List.range count).map fun index => Thread.ofCode (body index), thread.posture = ⟨[], []⟩ := by
      intro thread member
      obtain ⟨index, _, rfl⟩ := List.mem_map.mp member
      rfl
    refine .inr ⟨me, ?_, fun other apart => (made_posture idle).trans (set_others apart), rfl⟩
    rw [made_posture idle, set_posture running, posture_found running]
    exact .silent rfl
  | @join me _ _ _ _ running =>
    refine .inr ⟨me, ?_, fun other apart => set_others apart, rfl⟩
    rw [posture_found running, set_posture running]
    exact .silent rfl
  | time => exact .inr ⟨0, .silent (elapse_posture _).symm, fun other _ => elapse_posture _, rfl⟩

theorem change_deeds (change : Change before after) (sound : before.Sound) :
    ∃ me effect items, Deeds before after me effect items := by
  rcases change_deed change sound with ⟨me, _, move, _, _, deeds⟩ | ⟨me, deeds⟩
  · exact ⟨me, _, _, deeds⟩
  · exact ⟨me, _, _, deeds⟩

structure Grounded (system : System C) : Prop where
  numbered : system.world.Numbered
  grips : ∀ thread scope grip, (scope, grip) ∈ (system.posture thread).grips → (system.world.scope? scope).isSome
  ends : ∀ thread scope stage, (scope, stage) ∈ (system.posture thread).ends → (system.world.scope? scope).isSome

theorem initial_grounded (program : C.Label → Code C) (memory : C.Memory) (code : Code C) :
    (initial program memory code).Grounded := by
  have idle : ∀ thread, (initial program memory code).posture thread = ⟨[], []⟩ := by
    intro thread
    cases thread <;> rfl
  exact ⟨initial_numbered _ _, by simp [idle], by simp [idle]⟩

theorem preserves_grounded (grounded : before.Grounded) (deeds : Deeds before after me effect items) : after.Grounded := by
  have touched := deeds.deed.grounds (grounded.grips me) (grounded.ends me)
  have keeps : ∀ scope, (before.world.scope? scope).isSome → (after.world.scope? scope).isSome := by
    intro scope known
    rw [deeds.world, record_scope?]
    exact apply_isSome known
  refine ⟨?_, fun thread scope grip held => ?_, fun thread scope stage stood => ?_⟩
  · rw [deeds.world]
    exact preserves_numbered grounded.numbered fun registry id => deeds.deed.registers
  · by_cases mine : thread = me
    · subst mine; exact keeps scope (touched.1 scope grip held)
    · rw [deeds.others thread mine] at held; exact keeps scope (grounded.grips thread scope grip held)
  · by_cases mine : thread = me
    · subst mine; exact keeps scope (touched.2 scope stage stood)
    · rw [deeds.others thread mine] at stood; exact keeps scope (grounded.ends thread scope stage stood)

theorem same_attributes {one two : Scope C} (same : one = two) :
    ∃ attributes, one = { two with attributes := attributes } := ⟨_, same⟩

section
variable {rest was : Posture} {part : Part}

theorem deeds_others (deeds : Deeds before after me effect items) (apart : other ≠ me) :
    (after.life scope).grips other = (before.life scope).grips other ∧
      (after.life scope).ends other = (before.life scope).ends other := by
  simp [life, deeds.others other apart]

theorem deeds_cell (deeds : Deeds before after me effect items) :
    (after.life scope).cell = (effect.apply me before.world).cell scope := by
  simp [life, deeds.world]

theorem deeds_stored (deeds : Deeds before after me effect items) :
    (after.life scope).stored = (before.life scope).stored ++ items.filterMap (Item.stored? scope) := by
  simp only [life, deeds.world, record_stored]

theorem deeds_calls (deeds : Deeds before after me effect items) :
    (after.life scope).calls = (before.life scope).calls ++ items.filterMap (Item.call? scope) := by
  simp only [life, deeds.world, record_calls]

theorem deeds_idle (deeds : Deeds before after me effect items)
    (same : (after.posture me).part scope = (before.posture me).part scope)
    (cell : ∃ attributes, (effect.apply me before.world).cell scope = { before.world.cell scope with attributes := attributes })
    (stored : items.filterMap (Item.stored? scope) = [])
    (calls : items.filterMap (Item.call? scope) = [] ∨ after.world.aided) :
    Life.Step before.world.shaken after.world.aided scope (before.life scope) (after.life scope) := by
  obtain ⟨attributes, kept⟩ := cell
  refine .idle ⟨attributes, (deeds_cell deeds).trans kept⟩ (funext fun thread => ?_) (funext fun thread => ?_) ?_ ?_
  · by_cases mine : thread = me
    · subst mine; simp [life, same]
    · exact (deeds_others deeds mine).1
  · by_cases mine : thread = me
    · subst mine; simp [life, same]
    · exact (deeds_others deeds mine).2
  · rw [deeds_stored deeds, stored, List.append_nil]
  · rw [deeds_calls deeds]
    exact calls.imp (fun none => by rw [none, List.append_nil]) fun aided => ⟨aided, _, rfl⟩

theorem deeds_act (deeds : Deeds before after me effect items) {was now : Part}
    (isWas : before.posture me = rest.under scope was) (isNow : after.posture me = rest.under scope now)
    (act : Act before.world.shaken scope (before.world.cell scope) me was effect items now)
    (present : (before.world.scope? scope).isSome) :
    Life.Step before.world.shaken after.world.aided scope (before.life scope) (after.life scope) := by
  have changed : (after.life scope).cell = effect.change me (before.life scope).cell := by
    rw [deeds_cell deeds, act.applied present, if_pos rfl]; rfl
  cases act with
  | build build =>
    refine .build me (rest.part scope).grips build changed ?_ ?_ (fun other apart => (deeds_others deeds apart).1) ?_
      (deeds_stored deeds) ?_
    · simp [life, isWas, under_part]
    · simp [life, isNow, under_part]
    · funext thread
      by_cases mine : thread = me
      · subst mine; simp [life, isWas, isNow, under_part]
      · exact (deeds_others deeds mine).2
    · rw [deeds_calls deeds, build.calls, List.append_nil]
  | close close =>
    refine .close me (rest.part scope).ends close changed ?_ ?_ (fun other apart => (deeds_others deeds apart).2) ?_ ?_
      (deeds_calls deeds)
    · simp [life, isWas, under_part]
    · simp [life, isNow, under_part]
    · funext thread
      by_cases mine : thread = me
      · subst mine; simp [life, isWas, isNow, under_part]
      · exact (deeds_others deeds mine).1
    · rw [deeds_stored deeds, close.stores, List.append_nil]
end

theorem deeds_life (grounded : before.Grounded) (own : ∀ place, (before.life place).Owned place)
    (deeds : Deeds before after me effect items) (scope : ScopeRef) :
    Life.Step before.world.shaken after.world.aided scope (before.life scope) (after.life scope) := by
  have deed := deeds.deed
  have grips := grounded.grips me
  have ends := grounded.ends me
  generalize isWas : before.posture me = was at deed grips ends
  generalize isNow : after.posture me = now at deed
  cases deed with
  | plain own ordinary =>
    exact deeds_idle deeds (by rw [isWas, isNow]) (plain_cell own) (plain_stored ordinary) (.inl (plain_calls ordinary))
  | register _ _ ordinary =>
    exact deeds_idle deeds (by rw [isWas, isNow]) (same_attributes (register_cell grounded.numbered.fresh))
      (plain_stored ordinary) (.inl (plain_calls ordinary))
  | aside aided hooks =>
    exact deeds_idle deeds (by rw [isWas, isNow]) (same_attributes rfl) (aside_stored hooks)
      (.inr (by rw [deeds.world]; exact aided))
  | @act place _ _ _ _ rest act known =>
    have present := part_present (grips _) (ends _) known
    by_cases here : place = scope
    · subst here
      exact deeds_act deeds isWas isNow act present
    · refine deeds_idle deeds ?_ (same_attributes ?_) (act.elsewhere here) (.inl (act.calls here fun stage member => ?_))
      · rw [isWas, isNow, under_part, under_part, if_neg here, if_neg here]
      · rw [act.applied present, if_neg (Ne.symm here)]
      · refine own place me stage ?_
        simp only [life, isWas, under_part]
        exact List.mem_append_left _ member

theorem initial_untouched (program : C.Label → Code C) (memory : C.Memory) (code : Code C) (scope : ScopeRef) :
    ((initial program memory code).life scope).Untouched := by
  refine ⟨rfl, fun thread => ?_, fun thread => ?_, rfl, rfl⟩ <;> cases thread <;> rfl

theorem deeds_aided (deeds : Deeds before after me effect items) (aided : before.world.aided) : after.world.aided := by
  rw [deeds.world]
  exact aided_grows aided

theorem deeds_shaken (deeds : Deeds before after me effect items) (shaken : before.world.shaken) : after.world.shaken := by
  rw [deeds.world]
  exact shaken_grows shaken

theorem Runs.trans (first : Runs before start) (second : Runs start after) : Runs before after := by
  induction second with
  | refl => exact first
  | step _ next ih => exact .step ih next

theorem runs_grows (path : Runs before after) :
    (before.world.shaken → after.world.shaken) ∧ (before.world.aided → after.world.aided) := by
  induction path with
  | refl => exact ⟨fun was => was, fun was => was⟩
  | step _ next ih =>
    cases step_change next with
    | turn => exact ⟨fun was => shaken_grows (ih.1 was), fun was => aided_grows (ih.2 was)⟩
    | _ => exact ih

theorem focus_stage {stage : Stage} (running : system.threads[me]? = some thread)
    (stands : thread.focus.stage? = some (scope, stage)) : (scope, stage) ∈ (system.posture me).ends := by
  rw [posture_found running]
  simp [Thread.posture, stands]

theorem life_stage {stage : Stage} (stands : (scope, stage) ∈ (system.posture me).ends) : stage ∈ (system.life scope).ends me :=
  List.mem_filterMap.mpr ⟨_, stands, if_pos rfl⟩

variable {program : C.Label → Code C} {memory : C.Memory} {code : Code C}

theorem runs_grounded (path : Runs (initial program memory code) system) : system.Grounded := by
  induction path with
  | refl => exact initial_grounded _ _ _
  | step path next ih =>
    obtain ⟨me, effect, items, deeds⟩ := change_deeds (step_change next) (runs_sound path)
    exact preserves_grounded ih deeds

theorem registry_known (path : Runs (initial program memory code) system) (known : (system.world.scope? scope).isSome) :
    scope.registry < system.world.registries.length := by
  have numbered := (runs_grounded path).numbered scope known
  cases found : system.world.registries[scope.registry]? with
  | none => simp [World.nextScope, found] at numbered
  | some cell => exact (List.getElem?_eq_some_iff.mp found).1

end System
end Lifespan
