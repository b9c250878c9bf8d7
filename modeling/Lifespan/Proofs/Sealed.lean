import Lifespan.Proofs.Contest
import Lifespan.Proofs.OwedEvents
import Lifespan.Proofs.Dependency

-- The teardown of a scope is closed. From its first hook on nothing comes into the scope any more, whoever
-- asks is refused, and what the hooks and the listener do cannot reach back into it. The states that a scope
-- goes through only follow one another.
namespace Lifespan
variable {C : Client}

namespace Life
variable {life before after : Life C} {me : ThreadId} {shaken aided : Prop} {scope : ScopeRef} {stage : Stage}

def Swept (life : Life C) : Prop := life.Emptied ∧ ∀ thread entries, .emptied entries ∉ life.ends thread

theorem Orderly.swept (orderly : life.Orderly) (member : stage ∈ life.ends me) (late : stage.isEarly = false)
    (past : ∀ entries, stage ≠ .emptied entries) : life.Swept := by
  have stood := orderly.only member
  refine ⟨orderly.emptied stood late, fun thread entries other => ?_⟩
  obtain ⟨ended, _⟩ := orderly.owned stood
  by_cases mine : thread = me
  · subst mine
    rw [stood] at other
    exact past entries (List.mem_singleton.mp other).symm
  · rw [ended.others thread mine] at other
    cases other

theorem Swept.keep (swept : before.Swept) (state : after.cell.state = before.cell.state) (ends : after.ends = before.ends) :
    after.Swept :=
  ⟨swept.1.keep state ends, ends ▸ swept.2⟩

theorem preserves_swept (swept : before.Swept) (step : Step shaken aided scope before after) : after.Swept := by
  refine ⟨preserves_emptied swept.1 step, fun thread entries member => ?_⟩
  cases step with
  | idle cell grips ends => exact swept.2 thread entries (ends ▸ member)
  | build me rest build cell held holds others ends => exact swept.2 thread entries (ends ▸ member)
  | close me rest close cell stood stands others =>
    rcases come_or_kept stood stands others member with ⟨rfl, new⟩ | ⟨kept, _⟩
    · cases close with
      | empty =>
        have early := swept.1.2 thread .alone (stood ▸ List.mem_cons_self ..)
        cases early
      | abandon | forget => cases new
      | _ => cases List.mem_singleton.mp new
    · exact swept.2 thread entries kept

theorem leads_swept (swept : before.Swept) (path : Leads shaken aided scope before after) : after.Swept := by
  induction path with
  | refl => exact swept
  | step _ next ih => exact preserves_swept ih next

-- The gates of a scope are taken away before the first hook, and nobody who could make a new one is let in.
theorem Lived.gateless (lived : Lived shaken aided scope life) (swept : life.Swept) : life.cell.gates = .empty := by
  induction lived with
  | untouched untouched => exact absurd (by rw [untouched.cell]; rfl) swept.1.1
  | @step before after lived next ih =>
    cases next with
    | idle cell grips ends =>
      obtain ⟨attributes, cell⟩ := cell
      rw [cell]
      exact ih (swept.keep (by rw [cell]) ends.symm)
    | build me rest build cell held holds others ends =>
      have was : before.Swept := swept.keep (cell ▸ build.cell_ending.1.symm) ends.symm
      have doors := lived.shut was.1 me
      rw [held] at doors
      rw [cell]
      cases build with
      | share | unshare | enter => exact ih was
      | done _ built =>
        have door := doors _ (List.mem_cons_self ..)
        rcases built with rfl | rfl | ⟨object, rfl⟩ <;> cases door
      | _ => cases doors _ (List.mem_cons_self ..)
    | @close was effect items now me rest close cell stood stands others =>
      rw [cell]
      have mine : ∀ stage ∈ now, stage ∈ after.ends me := fun stage member => stands ▸ List.mem_append_left rest member
      have was : ∀ stage ∈ was, stage.isEarly = false → (∀ entries, stage ≠ .emptied entries) → before.Swept := fun stage member =>
        lived.orderly.swept (stood ▸ List.mem_append_left rest member)
      cases close with
      | clear => rfl
      | retire =>
        have early := swept.1.2 me .waiting (mine _ (List.mem_singleton.mpr rfl))
        cases early
      | exclude =>
        have early := swept.1.2 me .alone (mine _ (List.mem_singleton.mpr rfl))
        cases early
      | empty => exact absurd (mine _ (List.mem_singleton.mpr rfl)) (swept.2 me _)
      | flee _ ending => rcases ending with rfl | rfl <;> exact ih (was _ (List.mem_singleton.mpr rfl) rfl nofun)
      | _ => exact ih (was _ (List.mem_singleton.mpr rfl) rfl nofun)

theorem Step.forward (step : Step shaken aided scope before after) : before.cell.state.number ≤ after.cell.state.number := by
  rcases step.state with same | ⟨me, was, now, rest, effect, items, close, cell, _⟩
  · exact Nat.le_of_eq (by rw [same])
  · rw [cell]
    cases close with
    | retire active =>
      rw [active]
      exact Nat.le_succ 1
    | mark =>
      show before.cell.state.number ≤ 3
      cases before.cell.state <;> decide
    | _ => exact Nat.le_refl _

theorem Leads.forward (path : Leads shaken aided scope before after) : before.cell.state.number ≤ after.cell.state.number := by
  induction path with
  | refl => exact Nat.le_refl _
  | step _ next ih => exact Nat.le_trans ih next.forward

end Life

section
variable {world : World C} {me : ThreadId} {thread : Thread C} {move : Move C} {scope : ScopeRef} {effect : Effect C}

theorem read_active {op : Op C} (reads : world.read op = some (.scope scope)) : world.isActive scope = true := by
  have looked : ∀ registry id, world.lookup registry id = some scope → world.isActive scope = true :=
    fun registry id found => (Option.filter_eq_some_iff.mp found).2
  have present : ∀ registry context kind, world.current registry context kind = some scope → world.isActive scope = true := by
    intro registry context kind found
    unfold World.current at found
    split at found
    · split at found
      · rename_i active
        cases found
        exact active
      · cases found
    · split at found
      · exact (Option.filter_eq_some_iff.mp found).2
      · cases found
  cases op with
  | lookup registry id | require registry id =>
    cases found : world.lookup registry id with
    | none => simp [World.read, found] at reads
    | some other =>
      simp only [World.read, found, Option.elim_some, Option.some.injEq, Reply.scope.injEq] at reads
      exact looked registry id (reads ▸ found)
  | current registry context kind | requireCurrent registry context kind =>
    cases found : world.current registry context kind with
    | none => simp [World.read, found] at reads
    | some other =>
      simp only [World.read, found, Option.elim_some, Option.some.injEq, Reply.scope.injEq] at reads
      exact present registry context kind (reads ▸ found)
  | getAttribute place name type =>
    obtain ⟨cell, _, same⟩ := Option.map_eq_some_iff.mp reads
    split at same
    · split at same <;> cases same
    · cases same
  | settings | state | keys | count | attributeNames | contents =>
    obtain ⟨_, _, same⟩ := Option.map_eq_some_iff.mp reads
    cases same
  | _ => cases reads

theorem read_call {op : Op C} {reply : Reply C} (reads : world.read op = some reply) (frames : List (Frame C)) :
    Move.call world op frames = some (.silent (.back reply) frames) := by
  cases op <;> first | cases reads; done | simp only [Move.call, reads, Option.map_some]

theorem kept_attributes {name : String} {value : Attribute C} (sets : ∀ name value, effect ≠ .setAttribute scope name value)
    (held : ((effect.apply me world).cell scope).attributes.get? name = some value) :
    (world.cell scope).attributes.get? name = some value := by
  rcases apply_cell effect me world scope with same | ⟨target, changed⟩ | ⟨_, _, _, _, fresh⟩
  · rwa [same] at held
  · rw [changed] at held
    cases effect with
    | setAttribute => cases target; exact absurd rfl (sets _ _)
    | removeAttribute place other =>
      simp only [Effect.change, Table.get?_erase, Option.ite_none_left_eq_some] at held
      exact held.2
    | clearAttributes => cases held
    | _ => exact held
  · rw [fresh] at held
    cases held

end

namespace System
variable {system start before after later : System C} {program : C.Label → Code C} {memory : C.Memory} {code : Code C}
  {thread : Thread C} {me you : ThreadId} {scope : ScopeRef} {frames base : List (Frame C)} {teardown : Teardown}

theorem torn_pending (path : Runs (initial program memory code) system) (running : system.threads[me]? = some thread)
    (torn : .torn scope ∈ thread.frames) : (system.world.cell scope).state = .destructionPending := by
  obtain ⟨upper, stands⟩ := torn_stage thread.focus.upper torn
  have member : upper.stage ∈ (system.life scope).ends me :=
    life_stage (posture_found running ▸ List.mem_append_right _ stands)
  have orderly := (runs_lived path scope).orderly
  exact (orderly.owned (orderly.only member)).1.states _ member _ upper.late.2

theorem tears_swept (path : Runs (initial program memory code) start)
    (tears : start.threads[me]? = some ⟨.tear teardown, .torn scope :: frames⟩) : (start.life scope).Swept := by
  have member : .tearing teardown ∈ (start.life scope).ends me := by
    refine life_stage ?_
    rw [posture_found tears]
    exact List.mem_cons_self ..
  exact (runs_lived path scope).orderly.swept member rfl nofun

-- Whoever has got to set an attribute has found the scope active, which nobody does above its teardown.
theorem torn_unassigning (reached : Runs (initial program memory code) start)
    (tears : start.threads[me]? = some ⟨.tear teardown, .torn scope :: frames⟩) (onward : Runs start system) :
    ∃ thread, system.threads[me]? = some thread ∧
      ∀ name value, thread.focus = .assign scope name value → .torn scope ∉ thread.frames := by
  induction onward with
  | refl => exact ⟨_, tears, nofun⟩
  | @step before after onward next ih =>
    obtain ⟨thread, running, holds⟩ := ih
    refine (step_change next).alone (P := fun _ thread => ∀ name value, thread.focus = .assign scope name value →
      .torn scope ∉ thread.frames) running holds (fun was => was) ?_ ?_
    · rintro focus other frames rfl rests does name value rfl
      cases does
    · rintro move turn rfl name value assigns torn
      obtain ⟨active, still, _⟩ := turn.assigner assigns
      have now : (before.perform me move).threads[me]? = some ⟨move.focus, move.frames⟩ :=
        List.getElem?_set_self (List.getElem?_eq_some_iff.mp running).1
      have pending := torn_pending (.step (reached.trans onward) next) now torn
      rw [perform, still] at pending
      cases (active_iff.mp active).2.symm.trans pending

structure Sealed (system : System C) (scope : ScopeRef) : Prop where
  pending : (system.world.cell scope).state = .destructionPending
  keys : system.world.read (.keys scope) = some (.names [])
  count : system.world.read (.count scope) = some (.number 0)
  answers : ∀ me op reply next frames, system.threads[me]? = some ⟨.run (.call op next), frames⟩ →
    system.world.read op = some reply → reply ≠ .scope scope ∧ system.advance me =
      some ⟨record system.world me [.called op], system.threads.set me ⟨.back reply, .user next :: frames⟩⟩
  attributes : ∀ me name value next frames,
    system.threads[me]? = some ⟨.run (.call (.setAttribute scope name value) next), frames⟩ → system.advance me =
      some ⟨record system.world me [.called (.setAttribute scope name value)],
        system.threads.set me ⟨.back (.fault (.inactive scope.id)), .user next :: frames⟩⟩
  searches : ∀ me asked sight next frames, asked.sights? = some (sight, next) → sight.scope = scope →
    system.threads[me]? = some ⟨.run asked, frames⟩ → ∀ later, Awaits me (.user next :: frames) system later →
      ∃ left thread, later.threads[me]? = some thread ∧ Denied asked sight next frames left thread ∧
        (left = 0 ∨ ∃ after items other, later.advance me = some after ∧ after.world = record later.world me items ∧
          (items = [] ∨ items = asked.called) ∧ after.threads[me]? = some other ∧
          ∃ fewer, fewer < left ∧ Denied asked sight next frames fewer other)
  begins : system.Barred scope
  ends : ∀ me base, system.threads[me]? = some ⟨.find scope.registry scope.id, base⟩ →
    ∃ after, system.advance me = some after ∧ after.world = system.world ∧ ∀ later, Awaits me base after later →
      ∃ left thread, later.threads[me]? = some thread ∧ Vain later.world scope.registry scope.id base left thread ∧
        (left = 0 ∨ ∃ onward items other, later.advance me = some onward ∧ onward.world = record later.world me items ∧
          items = [] ∧ onward.threads[me]? = some other ∧
          ∃ fewer, fewer < left ∧ Vain onward.world scope.registry scope.id base fewer other)

theorem swept_found (path : Runs (initial program memory code) system)
    (pending : (system.world.cell scope).state = .destructionPending)
    (finds : system.threads[me]? = some ⟨.find scope.registry scope.id, base⟩) :
    ∃ after, system.advance me = some after ∧ after.world = system.world ∧
      after.threads[me]? = some ⟨.retire scope, .ended scope.registry scope :: base⟩ := by
  have known := inactive_known (by simp [pending] : (system.world.cell scope).state ≠ .active)
  have held := (runs_filed path).present scope (alive_iff.mpr ⟨known, by simp [pending]⟩)
  have registered : system.world.registered scope.registry scope.id = some scope := by
    simp [World.registered, held]
  refine ⟨system.perform me (.silent (.retire scope) (.ended scope.registry scope :: base)), ?_, rfl, ?_⟩
  · rw [advance_next finds rfl]
    simp [Thread.next, Move.find, registered]
  · exact List.getElem?_set_self (List.getElem?_eq_some_iff.mp finds).1

theorem emptied_reads (path : Runs (initial program memory code) system) (emptied : (system.life scope).Emptied) :
    system.world.read (.keys scope) = some (.names []) ∧ system.world.read (.count scope) = some (.number 0) := by
  obtain ⟨cell, found⟩ := Option.isSome_iff_exists.mp (inactive_known emptied.1)
  have store : cell.store = .empty := cell_found found ▸ (runs_lived path scope).content.bare emptied
  simp only [World.read, found, store, Option.map_some]
  exact ⟨rfl, rfl⟩

theorem set_refused {name : String} {value : Attribute C} {next : Reply C → Code C}
    (inactive : (system.world.cell scope).state ≠ .active)
    (running : system.threads[me]? = some ⟨.run (.call (.setAttribute scope name value) next), frames⟩) :
    system.advance me = some ⟨record system.world me [.called (.setAttribute scope name value)],
      system.threads.set me ⟨.back (.fault (.inactive scope.id)), .user next :: frames⟩⟩ := by
  obtain ⟨cell, found⟩ := Option.isSome_iff_exists.mp (inactive_known inactive)
  have idle : cell.isActive = false := decide_eq_false (cell_found found ▸ inactive)
  rw [call_advances running (by simp only [Move.call, found, Option.map_some, idle]; rfl)]
  rfl

theorem swept_sealed (path : Runs (initial program memory code) system) (swept : (system.life scope).Swept)
    (alive : (system.world.cell scope).state ≠ .destroyed) : system.Sealed scope := by
  have lived := runs_lived path scope
  have inactive : (system.world.cell scope).state ≠ .active := swept.1.1
  have reads := emptied_reads path swept.1
  have pending : (system.world.cell scope).state = .destructionPending := by
    obtain ⟨owner, ended⟩ := lived.orderly
    have begun : (system.world.cell scope).state ≠ .created := ended.begun
    cases state : (system.world.cell scope).state <;> simp_all
  refine ⟨pending, reads.1, reads.2, ?_, ?_, ?_, pending_barred path pending, ?_⟩
  · intro me op reply next frames running reads
    refine ⟨?_, call_advances running (read_call reads _)⟩
    rintro rfl
    exact inactive (active_iff.mp (read_active reads)).2
  · exact fun me name value next frames running => set_refused inactive running
  · rintro me asked sight next frames sights rfl running later waits
    refine awaits_denied sights running (fun before left thread waits _ _ => ?_) waits
    have still := Life.leads_swept swept (runs_leads path waits.runs sight.scope)
    have gates : (before.world.cell sight.scope).gates = .empty := (runs_lived (path.trans waits.runs) sight.scope).gateless still
    refine ⟨still.1.1, ?_⟩
    rw [gates]
    rfl
  · intro me base finds
    obtain ⟨after, moved, same, looked⟩ := swept_found path pending finds
    refine ⟨after, moved, same, fun later waits => ?_⟩
    exact awaits_vain (.step path (.thread me moved)) looked (.retires rfl (same ▸ inactive)) waits

theorem torn_attributes {name : String} {value : Attribute C} (reached : Runs (initial program memory code) start)
    (tears : start.threads[me]? = some ⟨.tear teardown, .torn scope :: frames⟩) (onward : Runs start system)
    (running : system.threads[me]? = some thread) (torn : .torn scope ∈ thread.frames) (moved : system.advance me = some after)
    (held : (after.world.cell scope).attributes.get? name = some value) :
    (system.world.cell scope).attributes.get? name = some value := by
  obtain ⟨same, there, unassigning⟩ := torn_unassigning reached tears onward
  cases running.symm.trans there
  obtain ⟨acting, here, ⟨move, turn, rfl⟩ | ⟨_, _, _, _, _, _, rfl⟩ | ⟨_, _, _, _, _, rfl⟩⟩ := advance_cases moved
  · cases running.symm.trans here
    exact kept_attributes (fun name value sets => unassigning name value (turn.setter sets) torn) held
  · exact held
  · exact held

-- The states of a scope only go forward, and none is ever seen before it is active. From the time when the
-- teardown of a scope calls its hooks nothing is stored in the scope, it has no gates, and no hook is called
-- twice. Until it is destroyed whoever asks is refused, and whoever ends it finds nothing to end. What is
-- called from within the teardown does not destroy it either, and gives it no attribute.
theorem teardown_sealed (reached : Runs (initial program memory code) start) (onward : Runs start system) :
    (∀ scope, (start.world.cell scope).state.number ≤ (system.world.cell scope).state.number ∧
      (system.world.cell scope).state ≠ .created) ∧
    ∀ me teardown scope frames, start.threads[me]? = some ⟨.tear teardown, .torn scope :: frames⟩ →
      (system.world.cell scope).store = .empty ∧ (system.world.cell scope).gates = .empty ∧
      system.world.stored scope = start.world.stored scope ∧
      (∃ calls, system.Called scope calls ∧ calls.Nodup) ∧
      ((system.world.cell scope).state ≠ .destroyed → system.Sealed scope) ∧
      ∀ thread, system.threads[me]? = some thread → .torn scope ∈ thread.frames →
        (system.world.cell scope).state ≠ .destroyed ∧
        ∀ after name value, system.advance me = some after →
          (after.world.cell scope).attributes.get? name = some value →
          (system.world.cell scope).attributes.get? name = some value := by
  have path := reached.trans onward
  refine ⟨fun scope => ⟨(runs_leads reached onward scope).forward, ?_⟩, fun me teardown scope frames tears => ?_⟩
  · obtain ⟨owner, ended⟩ := (runs_lived path scope).orderly
    exact ended.begun
  · have leads := runs_leads reached onward scope
    have lived := runs_lived path scope
    have swept := Life.leads_swept (tears_swept reached tears) leads
    refine ⟨lived.content.bare swept.1, lived.gateless swept, ?_, ?_, swept_sealed path swept, ?_⟩
    · have grows := runs_grows onward
      exact leads.stored_same ((runs_lived reached scope).mono grows.1 grows.2) (tears_swept reached tears).1
    · obtain ⟨calls, called⟩ := runs_called path scope
      exact ⟨calls, called, called.within.sublist.nodup (hooks_nodup path)⟩
    · intro thread running torn
      refine ⟨by simp [torn_pending path running torn], fun after name value moved held => ?_⟩
      exact torn_attributes reached tears onward running torn moved held

def endingAsked : System ⟨Unit, Unit, Unit, Unit⟩ :=
  let quiet : Hooks (Code ⟨Unit, Unit, Unit, Unit⟩) := ⟨fun _ => .done, fun _ => .done, .done⟩
  let asks : ScopeRef → Code ⟨Unit, Unit, Unit, Unit⟩ := fun scope =>
    .resolve ⟨scope, "other", "Other"⟩ (fun _ => .built () quiet) fun _ => .done
  initial (fun _ => .done) () <| .call (.establish {}) fun _ => .call (.begin 0 ⟨.session, "a"⟩) fun _ =>
    .resolve ⟨⟨0, ⟨.session, "a"⟩, 0⟩, "only", "Only"⟩ (fun _ => .built () { quiet with before := asks }) fun _ =>
    .call (.finish 0 ⟨.session, "a"⟩) fun _ => .done

theorem asked_within : (run 1 (run 33 endingAsked)).Sealed ⟨0, ⟨.session, "a"⟩, 0⟩ ∧
    ∃ frames, (run 4 (run 33 endingAsked)).threads = [⟨.back (.fault (.inactive ⟨.session, "a"⟩)), frames⟩] := by
  obtain ⟨teardown, frames, tears⟩ : ∃ teardown frames, (run 33 endingAsked).threads[0]? =
      some ⟨.tear teardown, .torn ⟨0, ⟨.session, "a"⟩, 0⟩ :: frames⟩ := ⟨_, _, rfl⟩
  have closed := (teardown_sealed (run_runs 33 endingAsked) (run_runs 1 (run 33 endingAsked))).2 0 teardown _ frames tears
  exact ⟨closed.2.2.2.2.1 (by decide), _, rfl⟩

end System
end Lifespan
