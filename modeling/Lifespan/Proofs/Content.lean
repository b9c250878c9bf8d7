import Lifespan.Proofs.Accounts

-- What a scope holds: as long as its store has not been emptied it holds all that was ever stored,
-- and from then on nothing, with no construction let in any more.
namespace Lifespan

variable {C : Client}

def Stage.entries? : Stage → Option (List (String × Entry))
  | emptied entries => some entries
  | tearing teardown => some teardown.entries
  | _ => none

theorem Close.late {cell : Scope C} {effect : Effect C} {items : List (Item C)}
    (close : Close shaken scope cell was effect items now) (inactive : cell.state ≠ .active)
    (late : ∀ stage ∈ was, stage.isEarly = false) :
    (effect.change me cell).state ≠ .active ∧ ∀ stage ∈ now, stage.isEarly = false := by
  cases close with
  | retire active => exact absurd active inactive
  | exclude => cases late _ (List.mem_singleton.mpr rfl)
  | mark => exact ⟨nofun, fun stage member => by cases List.mem_singleton.mp member; rfl⟩
  | abandon | forget => exact ⟨inactive, nofun⟩
  | _ => exact ⟨inactive, fun stage member => by cases List.mem_singleton.mp member; rfl⟩

namespace Life
variable {life before after : Life C} {me thread : ThreadId} {shaken aided : Prop} {scope : ScopeRef} {stage : Stage}

def Emptied (life : Life C) : Prop :=
  life.cell.state ≠ .active ∧ ∀ thread, ∀ stage ∈ life.ends thread, stage.isEarly = false

theorem Orderly.emptied (orderly : life.Orderly) (stood : life.ends me = stage :: rest) (late : stage.isEarly = false) :
    life.Emptied := by
  obtain ⟨ended, rfl⟩ := orderly.owned stood
  constructor
  · intro active
    have quiet := ended.silent active
    rw [stood] at quiet
    cases quiet
  · intro thread other member
    by_cases mine : thread = me
    · subst mine
      rw [stood] at member
      cases List.mem_singleton.mp member
      exact late
    · rw [ended.others thread mine] at member
      cases member

theorem Orderly.past (orderly : life.Orderly) (destroyed : life.cell.state = .destroyed) : life.Emptied := by
  refine ⟨by simp [destroyed], fun thread stage member => ?_⟩
  have states := (orderly.owned (orderly.only member)).1.states stage member
  cases stage with
  | waiting | alone => cases destroyed.symm.trans (states _ rfl)
  | _ => rfl

theorem Emptied.keep (emptied : before.Emptied) (state : after.cell.state = before.cell.state)
    (ends : after.ends = before.ends) : after.Emptied :=
  ⟨state ▸ emptied.1, ends ▸ emptied.2⟩

theorem keep_emptied (state : after.cell.state = before.cell.state) (ends : after.ends = before.ends) :
    after.Emptied ↔ before.Emptied :=
  ⟨fun emptied => emptied.keep state.symm ends.symm, fun emptied => emptied.keep state ends⟩

theorem preserves_emptied (emptied : before.Emptied) (step : Step shaken aided scope before after) : after.Emptied := by
  cases step with
  | idle cell grips ends stored calls =>
    obtain ⟨attributes, cell⟩ := cell
    exact emptied.keep (by rw [cell]) ends
  | build me rest build cell held holds others ends stored calls => exact emptied.keep (cell ▸ build.cell_ending.1) ends
  | @close was _ _ _ me rest close cell stood stands others grips stored calls =>
    have old : ∀ stage ∈ was, stage.isEarly = false := fun stage member =>
      emptied.2 me stage (stood ▸ List.mem_append_left rest member)
    obtain ⟨inactive, late⟩ := close.late emptied.1 old
    refine ⟨cell ▸ inactive, fun thread stage member => ?_⟩
    rcases come_or_kept stood stands others member with ⟨rfl, new⟩ | ⟨kept, _⟩
    · exact late stage new
    · exact emptied.2 thread stage kept

theorem leads_emptied (emptied : before.Emptied) (path : Leads shaken aided scope before after) : after.Emptied := by
  induction path with
  | refl => exact emptied
  | step _ next ih => exact preserves_emptied ih next

-- Nobody is let in any more.
def Shut (life : Life C) : Prop := life.Emptied → ∀ thread, ∀ grip ∈ life.grips thread, grip = .door

theorem Accounts.builder (accounts : life.Accounts) (building : life.cell.gates.isBuilding me = true) :
    ∃ grip ∈ life.grips me, grip.builds = true := by
  rw [Gates.isBuilding_iff accounts.positive, accounts.depth] at building
  exact List.countP_pos_iff.mp building

theorem preserves_shut (shut : before.Shut) (accounts : before.Accounts) (orderly : before.Orderly)
    (step : Step shaken aided scope before after) : after.Shut := by
  intro emptied thread grip member
  cases step with
  | idle cell grips ends stored calls =>
    obtain ⟨attributes, cell⟩ := cell
    exact shut (emptied.keep (by rw [cell]) ends.symm) thread grip (grips ▸ member)
  | build me rest build cell held holds others ends stored calls =>
    have was := emptied.keep (cell ▸ build.cell_ending.1.symm) ends.symm
    rcases come_or_kept held holds others member with ⟨rfl, new⟩ | ⟨old, _⟩
    · have doors := shut was thread
      rw [held] at doors
      cases build with
      | share => exact List.mem_singleton.mp new
      | enter welcome =>
        rcases welcome with active | building
        · exact absurd active was.1
        · obtain ⟨grip, member, builds⟩ := accounts.builder building
          cases shut was thread grip member
          cases builds
      | balk => exact List.mem_singleton.mp new
      | unshare => cases new
      | done _ built =>
        have door := doors _ (List.mem_cons_self ..)
        rcases built with rfl | rfl | ⟨object, rfl⟩ <;> cases door
      | _ => cases doors _ (List.mem_cons_self ..)
    · exact shut was thread grip old
  | close me rest close cell stood stands others grips stored calls =>
    rw [grips] at member
    cases close with
    | retire =>
      have early := emptied.2 me .waiting (by rw [stands]; exact List.mem_cons_self ..)
      cases early
    | exclude =>
      have early := emptied.2 me .alone (by rw [stands]; exact List.mem_cons_self ..)
      cases early
    | empty =>
      have taken := orderly.taken stood rfl
      rw [accounts.alone orderly (by rw [taken]; rfl)] at member
      cases member
    | flee _ ending => rcases ending with rfl | rfl <;> exact shut (orderly.emptied stood rfl) thread grip member
    | _ => exact shut (orderly.emptied stood rfl) thread grip member

theorem Lived.shut (lived : Lived shaken aided scope life) : life.Shut := by
  induction lived with
  | untouched untouched => intro _ thread grip member; simp [untouched.grips] at member
  | step lived next ih => exact preserves_shut ih lived.accounts lived.orderly next

structure Content (scope : ScopeRef) (life : Life C) : Prop where
  objects : life.stored.map Prod.snd = (List.range life.cell.instances.length).map (InstanceRef.kept scope)
  keys : (life.stored.map Prod.fst).Nodup
  full : ¬life.Emptied → life.cell.store.Lists life.stored
  bare : life.Emptied → life.cell.store = .empty
  making : ∀ thread, ∀ grip ∈ life.grips thread, ∀ key, grip.making? = some key → key ∉ life.stored.map Prod.fst
  made : ∀ thread key gate object, .made key gate object ∈ life.grips thread → (key, object) ∈ life.stored
  taken : ∀ thread, ∀ stage ∈ life.ends thread, ∀ entries, stage.entries? = some entries → stock entries = life.stored.reverse

theorem Untouched.content (untouched : life.Untouched) : life.Content scope := by
  refine ⟨?_, ?_, ?_, ?_, ?_, ?_, ?_⟩
  · rw [untouched.stored, untouched.cell]; rfl
  · rw [untouched.stored]; exact List.nodup_nil
  · rw [untouched.stored, untouched.cell]; exact fun _ => Store.lists_empty
  · exact fun emptied => absurd (by rw [untouched.cell]; rfl) emptied.1
  · simp [untouched.grips]
  · simp [untouched.grips]
  · simp [untouched.ends]

theorem Content.keep (content : before.Content scope) (emptied : after.Emptied ↔ before.Emptied)
    (store : after.cell.store = before.cell.store) (instances : after.cell.instances = before.cell.instances)
    (stored : after.stored = before.stored)
    (making : ∀ thread, ∀ grip ∈ after.grips thread, ∀ key, grip.making? = some key → key ∉ before.stored.map Prod.fst)
    (made : ∀ thread key gate object, .made key gate object ∈ after.grips thread → (key, object) ∈ before.stored)
    (taken : ∀ thread, ∀ stage ∈ after.ends thread, ∀ entries, stage.entries? = some entries →
      stock entries = before.stored.reverse) : after.Content scope where
  objects := by rw [stored, instances]; exact content.objects
  keys := stored ▸ content.keys
  full open_ := by rw [stored, store]; exact content.full fun was => open_ (emptied.mpr was)
  bare now := by rw [store]; exact content.bare (emptied.mp now)
  making := by rw [stored]; exact making
  made := by rw [stored]; exact made
  taken := by rw [stored]; exact taken

end Life

section
variable {cell : Scope C} {effect : Effect C} {items : List (Item C)} {held holds : List Grip} {me : ThreadId}
  {scope : ScopeRef} {grip : Grip}

theorem Build.making (build : Build scope cell me held effect items holds) (member : grip ∈ holds)
    (runs : grip.making? = some key) : cell.store.get? key = none ∧ ∃ gate, held = [.looking key gate] := by
  cases build with
  | make unseen =>
    cases List.mem_singleton.mp member
    cases runs
    exact ⟨unseen, _, rfl⟩
  | unshare => cases member
  | _ => cases List.mem_singleton.mp member; cases runs

theorem Close.entries {shaken : Prop} {was now : List Stage} (close : Close shaken scope cell was effect items now)
    (other : effect ≠ .empty scope) : ∀ stage ∈ now, ∀ entries, stage.entries? = some entries →
      ∃ old ∈ was, old.entries? = some entries := by
  intro stage member entries taken
  cases close with
  | empty => exact absurd rfl other
  | abandon | forget => cases member
  | clear | hook | fail | turnBack =>
    cases List.mem_singleton.mp member
    exact ⟨_, List.mem_singleton.mpr rfl, taken⟩
  | _ => cases List.mem_singleton.mp member; cases taken

theorem Close.left {shaken : Prop} {was now : List Stage} (close : Close shaken scope cell was effect items now)
    (old : ∀ teardown, .tearing teardown ∈ was → teardown.rest <:+ teardown.entries) :
    ∀ teardown, .tearing teardown ∈ now → teardown.rest <:+ teardown.entries := by
  intro teardown member
  cases close with
  | abandon | forget => cases member
  | clear | turnBack => cases List.mem_singleton.mp member; exact List.suffix_refl _
  | @fail _ teardown =>
    cases List.mem_singleton.mp member
    have suffix := old teardown (List.mem_singleton.mpr rfl)
    exact suffix
  | @hook key entry rest teardown mine left =>
    cases List.mem_singleton.mp member
    have suffix := old teardown (List.mem_singleton.mpr rfl)
    rw [left] at suffix
    exact (List.suffix_cons _ _).trans suffix
  | _ => cases List.mem_singleton.mp member

theorem Close.contents {shaken : Prop} {was now : List Stage} (me : ThreadId)
    (close : Close shaken scope cell was effect items now) (other : effect ≠ .empty scope) :
    (effect.change me cell).store = cell.store ∧ (effect.change me cell).instances = cell.instances := by
  cases close with
  | empty => exact absurd rfl other
  | _ => exact ⟨rfl, rfl⟩

theorem Build.stores (build : Build scope cell me held effect items holds) :
    (items.filterMap (Item.stored? scope) = [] ∧ (∀ key gate object, .made key gate object ∉ holds) ∧
        (effect.change me cell).store = cell.store ∧ (effect.change me cell).instances = cell.instances) ∨
      ∃ key gate made, held = [.making key gate] ∧
        holds = [.made key gate (.kept scope cell.instances.length)] ∧ effect = .keep scope key made ∧
        items = [.stored scope key (.kept scope cell.instances.length)] := by
  cases build with
  | keep => exact .inr ⟨_, _, _, rfl, rfl, rfl, rfl⟩
  | done ordinary => exact .inl ⟨plain_stored ordinary, by simp, rfl, rfl⟩
  | _ => exact .inl ⟨rfl, by simp, rfl, rfl⟩

end

namespace Life
variable {life before after : Life C} {me thread : ThreadId} {shaken aided : Prop} {scope : ScopeRef} {stage : Stage}

theorem making_gate {grip : Grip} {key : String} (runs : grip.making? = some key) :
    ∃ gate, grip.gate? = some (key, gate) ∧ grip.turn? = some gate := by
  cases grip with
  | making name gate => cases runs; exact ⟨gate, rfl, rfl⟩
  | _ => cases runs

-- While a factory runs, no other one runs for the same key.
theorem Accounts.lone_maker (accounts : life.Accounts) {grip : Grip} (held : life.grips me = .making key gate :: rest)
    (member : grip ∈ life.grips thread) (other : thread = me → grip ∈ rest) : grip.making? ≠ some key := by
  intro runs
  obtain ⟨turn, seeks, next⟩ := making_gate runs
  have same : me = thread := accounts.one_holder (held ▸ List.mem_cons_self ..) member rfl seeks rfl next
  subst same
  exact accounts.one_turn held (other rfl) rfl seeks rfl next

theorem Content.store (content : before.Content scope) (accounts : before.Accounts) (orderly : before.Orderly) (shut : before.Shut)
    {made : Instance C} (held : before.grips me = .making key gate :: rest)
    (holds : after.grips me = .made key gate (.kept scope before.cell.instances.length) :: rest)
    (cell : after.cell = before.cell.kept scope key made)
    (others : ∀ other, other ≠ me → after.grips other = before.grips other) (ends : after.ends = before.ends)
    (stored : after.stored = before.stored ++ [(key, .kept scope before.cell.instances.length)]) : after.Content scope := by
  have same : after.Emptied ↔ before.Emptied := keep_emptied (by rw [cell]; rfl) ends
  have mine : Grip.making key gate ∈ before.grips me := held ▸ List.mem_cons_self ..
  have open_ : ¬before.Emptied := fun emptied => by cases shut emptied me _ mine
  have absent := content.making me _ mine key rfl
  have came : ∀ grip thread, grip ∈ after.grips thread →
      thread = me ∧ grip = .made key gate (.kept scope before.cell.instances.length) ∨
        grip ∈ before.grips thread ∧ (thread = me → grip ∈ rest) := by
    intro grip thread member
    have mine : after.grips me = [.made key gate (.kept scope before.cell.instances.length)] ++ rest := holds
    have was : before.grips me = [.making key gate] ++ rest := held
    exact (come_or_kept was mine others member).imp_left (And.imp_right List.mem_singleton.mp)
  obtain ⟨later, inserted, lists⟩ :=
    (content.full open_).insert absent (.kept scope before.cell.instances.length) made.type
  refine ⟨?_, ?_, ?_, ?_, ?_, ?_, ?_⟩
  · rw [stored, cell]
    simp [Scope.kept, List.range_succ, content.objects]
  · rw [stored, List.map_append, List.nodup_append]
    refine ⟨content.keys, by simp, fun old member new last => ?_⟩
    cases List.mem_singleton.mp last
    rintro rfl
    exact absent member
  · intro _
    rw [stored, cell]
    simpa [Scope.kept, inserted] using lists
  · exact fun emptied => absurd (same.mp emptied) open_
  · intro thread grip member name runs
    have there : grip ∈ before.grips thread ∧ (thread = me → grip ∈ rest) := by
      rcases came grip thread member with ⟨_, new⟩ | old
      · cases new
        cases runs
      · exact old
    have apart : name ≠ key := by
      rintro rfl
      exact accounts.lone_maker held there.1 there.2 runs
    rw [stored, List.map_append, List.mem_append]
    rintro (old | new)
    · exact content.making thread grip there.1 name runs old
    · exact apart (List.mem_singleton.mp new)
  · intro thread name gate object member
    rw [stored]
    rcases came _ thread member with ⟨_, new⟩ | ⟨old, _⟩
    · cases new
      exact List.mem_append_right _ (List.mem_singleton.mpr rfl)
    · exact List.mem_append_left _ (content.made thread name gate object old)
  · -- nothing has been taken out yet
    intro thread stage member entries taken
    rw [ends] at member
    refine absurd (orderly.emptied (orderly.only member) ?_) open_
    cases stage <;> first | rfl | cases taken

theorem Content.emptying (content : before.Content scope) (orderly : before.Orderly) (early : ¬before.Emptied)
    (emptied : after.Emptied) (cell : after.cell = { before.cell with store := .empty })
    (stood : before.ends me = [.alone]) (stands : after.ends me = [.emptied before.cell.store.drainNewestFirst.1])
    (others : ∀ other, other ≠ me → after.ends other = before.ends other) (grips : after.grips = before.grips)
    (stored : after.stored = before.stored) : after.Content scope where
  objects := by rw [stored, cell]; exact content.objects
  keys := stored ▸ content.keys
  full open_ := absurd emptied open_
  bare _ := by rw [cell]
  making := by rw [grips, stored]; exact content.making
  made := by rw [grips, stored]; exact content.made
  taken thread stage member entries taken := by
    rw [stored]
    by_cases his : thread = me
    · subst his
      rw [stands] at member
      cases List.mem_singleton.mp member
      cases taken
      exact (content.full early).drained content.keys
    · rw [others thread his, (orderly.owned stood).1.others thread his] at member
      cases member

theorem Orderly.early (stood : life.ends me = stage :: rest) (early : stage.isEarly = true) : ¬life.Emptied := by
  intro emptied
  have late := emptied.2 me stage (stood ▸ List.mem_cons_self ..)
  rw [early] at late
  cases late

theorem Content.close {effect : Effect C} {items : List (Item C)} {was now rest : List Stage}
    (content : before.Content scope) (orderly : before.Orderly)
    (close : Close shaken scope before.cell was effect items now) (cell : after.cell = effect.change me before.cell)
    (stood : before.ends me = was ++ rest) (stands : after.ends me = now ++ rest)
    (others : ∀ other, other ≠ me → after.ends other = before.ends other) (grips : after.grips = before.grips)
    (stored : after.stored = before.stored) (step : Step shaken aided scope before after) : after.Content scope := by
  have later := preserves_orderly orderly step
  obtain ⟨_, rfl⟩ := orderly.solo close stood
  have other : effect ≠ .empty scope → (after.Emptied ↔ before.Emptied) → after.Content scope := by
    intro other same
    have ⟨store, instances⟩ := close.contents me other
    refine content.keep same (cell ▸ store) (cell ▸ instances) stored (grips ▸ content.making) (grips ▸ content.made) ?_
    intro thread stage member entries taken
    rcases come_or_kept stood stands others member with ⟨rfl, new⟩ | ⟨kept, _⟩
    · obtain ⟨old, there, same⟩ := close.entries other stage new entries taken
      exact content.taken thread old (stood ▸ List.mem_append_left _ there) entries same
    · exact content.taken thread stage kept entries taken
  cases close with
  | retire active => exact other nofun ⟨fun emptied => absurd emptied (Orderly.early stands rfl), fun was => absurd active was.1⟩
  | exclude =>
    exact other nofun ⟨fun emptied => absurd emptied (Orderly.early stands rfl), fun was => absurd was (Orderly.early stood rfl)⟩
  | empty =>
    exact content.emptying orderly (Orderly.early stood rfl) (later.emptied stands rfl) cell stood stands others grips stored
  | flee _ ending =>
    have was : before.Emptied := by rcases ending with rfl | rfl <;> exact orderly.emptied stood rfl
    exact other nofun (iff_of_true (preserves_emptied was step) was)
  | _ =>
    have was : before.Emptied := orderly.emptied stood rfl
    exact other nofun (iff_of_true (preserves_emptied was step) was)

theorem preserves_content (content : before.Content scope) (accounts : before.Accounts) (orderly : before.Orderly)
    (shut : before.Shut) (step : Step shaken aided scope before after) : after.Content scope := by
  have whole := step
  cases step with
  | idle cell grips ends stored calls =>
    obtain ⟨attributes, cell⟩ := cell
    have same : after.Emptied ↔ before.Emptied := keep_emptied (by rw [cell]) ends
    exact content.keep same (by rw [cell]) (by rw [cell]) stored (grips ▸ content.making) (grips ▸ content.made)
      (ends ▸ content.taken)
  | build me rest build cell held holds others ends stored calls =>
    rcases build.stores with ⟨none, quiet, store, instances⟩ | ⟨key, gate, made, rfl, rfl, rfl, rfl⟩
    · have same : after.Emptied ↔ before.Emptied := keep_emptied (cell ▸ build.cell_ending.1) ends
      refine content.keep same (cell ▸ store) (cell ▸ instances) (by rw [stored, none, List.append_nil]) ?_ ?_
        (ends ▸ content.taken)
      · intro thread grip member key runs
        rcases come_or_kept held holds others member with ⟨rfl, new⟩ | ⟨old, _⟩
        · obtain ⟨unseen, gate, rfl⟩ := build.making new runs
          have open_ : ¬before.Emptied := fun emptied => by
            cases shut emptied thread (.looking key gate) (by rw [held]; exact List.mem_cons_self ..)
          exact (content.full open_).absent.mp unseen
        · exact content.making thread grip old key runs
      · intro thread key gate object member
        rcases come_or_kept held holds others member with ⟨_, new⟩ | ⟨old, _⟩
        · exact absurd new (quiet key gate object)
        · exact content.made thread key gate object old
    · exact content.store accounts orderly shut held holds cell others ends (by simpa [Item.stored?] using stored)
  | close me rest close cell stood stands others grips stored calls =>
    exact content.close orderly close cell stood stands others grips stored whole

theorem Lived.content (lived : Lived shaken aided scope life) : life.Content scope := by
  induction lived with
  | untouched untouched => exact untouched.content
  | step lived next ih => exact preserves_content ih lived.accounts lived.orderly lived.shut next

-- The store has come about by inserts, and by being emptied.
theorem Lived.used (lived : Lived shaken aided scope life) : ∃ uses, life.cell.store = Store.used uses := by
  induction lived with
  | untouched untouched => exact ⟨[], by rw [untouched.cell]; rfl⟩
  | step lived next ih =>
    obtain ⟨uses, same⟩ := ih
    cases next with
    | idle cell grips ends stored calls =>
      obtain ⟨attributes, cell⟩ := cell
      exact ⟨uses, by rw [cell]; exact same⟩
    | build me rest build cell held holds others ends stored calls =>
      rcases build.stores with ⟨_, _, store, _⟩ | ⟨key, gate, made, rfl, rfl, rfl, rfl⟩
      · exact ⟨uses, by rw [cell, store, same]⟩
      · exact ⟨.insert key _ made.type :: uses, by rw [cell, Store.used, ← same]; rfl⟩
    | @close _ effect _ _ me rest close cell stood stands others grips stored calls =>
      by_cases empties : effect = .empty scope
      · exact ⟨[], by rw [cell, empties]; rfl⟩
      · exact ⟨uses, by rw [cell, (close.contents me empties).1, same]⟩

theorem Lived.left (lived : Lived shaken aided scope life) :
    ∀ thread teardown, .tearing teardown ∈ life.ends thread → teardown.rest <:+ teardown.entries := by
  induction lived with
  | untouched untouched => simp [untouched.ends]
  | step lived next ih =>
    intro thread teardown member
    cases next with
    | idle cell grips ends | build me rest build cell held holds others ends => exact ih thread teardown (ends ▸ member)
    | close me rest close cell stood stands others =>
      rcases come_or_kept stood stands others member with ⟨rfl, new⟩ | ⟨kept, _⟩
      · refine close.left (fun old there => ?_) teardown new
        exact ih thread old (stood ▸ List.mem_append_left rest there)
      · exact ih thread teardown kept

theorem Content.holds (content : life.Content scope) {entry : Entry} (stands : life.cell.store.get? key = some entry) :
    (key, entry.object) ∈ life.stored := by
  have open_ : ¬life.Emptied := by
    intro emptied
    rw [content.bare emptied] at stands
    cases stands
  exact (content.full open_).holds stands

theorem Content.kept (content : life.Content scope) (member : (key, object) ∈ life.stored) :
    ∃ index, object = .kept scope index := by
  have there : object ∈ life.stored.map Prod.snd := List.mem_map.mpr ⟨_, member, rfl⟩
  rw [content.objects] at there
  obtain ⟨index, _, rfl⟩ := List.mem_map.mp there
  exact ⟨index, rfl⟩

theorem Lived.owned (lived : Lived shaken aided scope life) : life.Owned scope := by
  intro thread stage member key entry next
  cases stage with
  | tearing teardown =>
    have taken := lived.content.taken thread _ member _ rfl
    have visited : (key, entry) ∈ teardown.entries :=
      (lived.left thread teardown member).subset (List.mem_of_head? next)
    have stocked : (key, entry.object) ∈ stock teardown.entries := List.mem_map.mpr ⟨_, visited, rfl⟩
    rw [taken, List.mem_reverse] at stocked
    exact lived.content.kept stocked
  | _ => cases next

end Life

namespace System
variable {start before system : System C} {program : C.Label → Code C} {memory : C.Memory} {code : Code C}

theorem runs_lived (path : Runs (initial program memory code) system) (scope : ScopeRef) :
    Life.Lived system.world.shaken system.world.aided scope (system.life scope) := by
  suffices all : ∀ scope, Life.Lived system.world.shaken system.world.aided scope (system.life scope) from all scope
  induction path with
  | refl => exact fun scope => .untouched (initial_untouched _ _ _ scope)
  | step path next ih =>
    obtain ⟨me, effect, items, deeds⟩ := change_deeds (step_change next) (runs_sound path)
    intro scope
    have step := deeds_life (runs_grounded path) (fun place => (ih place).owned) deeds scope
    exact .step ((ih scope).mono (deeds_shaken deeds) (deeds_aided deeds)) (step.mono (deeds_shaken deeds) fun aided => aided)

theorem runs_inStep (path : Runs (initial program memory code) system) (scope : ScopeRef) :
    (system.life scope).cell.store.InStep := by
  obtain ⟨uses, same⟩ := (runs_lived path scope).used
  rw [same]
  exact (Store.used_represents uses).inStep

theorem step_life (path : Runs (initial program memory code) before) (deeds : Deeds before after me effect items)
    (scope : ScopeRef) :
    Life.Step before.world.shaken after.world.aided scope (before.life scope) (after.life scope) :=
  deeds_life (runs_grounded path) (fun place => (runs_lived path place).owned) deeds scope

theorem next_life (path : Runs (initial program memory code) before) (next : Step before after) (scope : ScopeRef) :
    Life.Step before.world.shaken after.world.aided scope (before.life scope) (after.life scope) := by
  obtain ⟨me, effect, items, deeds⟩ := change_deeds (step_change next) (runs_sound path)
  exact step_life path deeds scope

theorem runs_leads (path : Runs (initial program memory code) start) (later : Runs start system) (scope : ScopeRef) :
    Life.Leads system.world.shaken system.world.aided scope (start.life scope) (system.life scope) := by
  induction later with
  | refl => exact .refl _
  | step later next ih =>
    have grows := runs_grows (.step (.refl _) next)
    exact .step (ih.mono grows.1 grows.2) ((next_life (path.trans later) next scope).mono grows.1 fun aided => aided)

end System
end Lifespan
