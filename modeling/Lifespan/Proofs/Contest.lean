import Lifespan.Proofs.Guarded
import Lifespan.Proofs.Interrupted

-- Several threads that end scopes of one identity at the same time. Each of them has looked up a scope, and
-- may find that it comes too late: that somebody else has ended the scope in the meantime, and that the
-- identity has been begun again, once or many times.
namespace Lifespan
variable {C : Client}

inductive Vain (world : World C) (registry : RegistryRef) (id : ScopeId) (base : List (Frame C)) : Nat → Thread C → Prop
  | retires (same : scope.id = id) (inactive : (world.cell scope).state ≠ .active) :
      Vain world registry id base 2 ⟨.retire scope, .ended registry scope :: base⟩
  | spared : Vain world registry id base 1 ⟨.back (.fault (.unknown id)), .ended registry scope :: base⟩
  | answered : Vain world registry id base 0 ⟨.back (.fault (.unknown id)), base⟩

def Exit.Reports : Exit C → Prop
  | .back reply => ∃ failures, reply = .ofFailures failures
  | .unwind _ => True

-- The end of a scope that the thread has taken out of its active state, by what stands above its caller.
inductive Concluding (registry : RegistryRef) (scope : ScopeRef) (base : List (Frame C)) : Thread C → Prop
  | waits : Concluding registry scope base ⟨.exclude scope, .ended registry scope :: base⟩
  | empties : Concluding registry scope base ⟨.empty scope, .ended registry scope :: base⟩
  | clears : Concluding registry scope base ⟨.clear scope entries, .ended registry scope :: base⟩
  | tears (upper : List (Frame C)) :
      Concluding registry scope base ⟨focus, upper ++ .torn scope :: .ended registry scope :: base⟩
  | settles : Concluding registry scope base ⟨.settle scope failures, .ended registry scope :: base⟩
  | marks : Concluding registry scope base ⟨.mark scope failures, .ended registry scope :: base⟩
  | tells (upper : List (Frame C)) :
      Concluding registry scope base ⟨focus, upper ++ .closed scope failures :: .ended registry scope :: base⟩
  | reopens (exit : Exit C) (reports : exit.Reports) :
      Concluding registry scope base ⟨.reopen scope exit, .ended registry scope :: base⟩
  | came (exit : Exit C) (reports : exit.Reports) : Concluding registry scope base ⟨exit.focus, .ended registry scope :: base⟩
  | forgets : Concluding registry scope base ⟨.forget registry scope (.ofFailures failures), base⟩
  | leaves (exit : Exit C) (reports : exit.Reports) : Concluding registry scope base ⟨exit.focus, base⟩

def Activity.Within (scope : ScopeRef) : Activity → Prop
  | code | telling | tearing _ => True
  | ending other => other = scope
  | finding | sweeping | calling => False

-- The thread is at an end that has looked up the scope, and neither in a hook nor in a listener.
def Thread.AtEnd (registry : RegistryRef) (scope : ScopeRef) (base : List (Frame C)) (thread : Thread C) : Prop :=
  (∃ upper, thread.frames = upper ++ .ended registry scope :: base ∧ (∀ next, .user next ∉ upper) ∧
    thread.focus.activity? ≠ some .code) ∨
  ∃ reply, thread = ⟨.forget registry scope reply, base⟩

section
variable {world : World C} {me : ThreadId} {thread : Thread C} {move : Move C} {registry : RegistryRef} {scope : ScopeRef}
  {id : ScopeId} {base : List (Frame C)} {left : Nat} {aided : Prop}

theorem Vain.turn (vain : Vain world registry id base (left + 1) thread) (turn : Turn world me thread move) :
    move.effect = .still ∧ move.items = [] ∧ Vain world registry id base left ⟨move.focus, move.frames⟩ := by
  cases vain with
  | retires same inactive =>
    cases turn with
    | retires found active => exact absurd (cell_found found ▸ active) inactive
    | spares =>
      rw [same]
      exact ⟨rfl, rfl, .spared⟩
  | spared =>
    cases turn with
    | backEndedUnknown => exact ⟨rfl, rfl, .answered⟩
    | backEnded refused => exact absurd rfl (refused id)

theorem Vain.moves (vain : Vain world registry id base (left + 1) thread) (me : ThreadId) :
    ∃ move, thread.next world me = some move := by
  cases vain with
  | retires _ inactive =>
    obtain ⟨cell, found⟩ := Option.isSome_iff_exists.mp (inactive_known inactive)
    exact ⟨_, Option.map_eq_some_iff.mpr ⟨cell, found, rfl⟩⟩
  | spared => exact ⟨_, rfl⟩

theorem Vain.busy (vain : Vain world registry id base left thread) : thread.focus.rests = false := by
  cases vain <;> rfl

theorem Vain.mono {later : World C} (vain : Vain world registry id base left thread)
    (stays : ∀ scope, (world.cell scope).state ≠ .active → (later.cell scope).state ≠ .active) :
    Vain later registry id base left thread := by
  cases vain with
  | retires same inactive => exact .retires same (stays _ inactive)
  | spared => exact .spared
  | answered => exact .answered

theorem Turn.finder (turn : Turn world me thread move) (comes : move.focus = .retire scope) :
    ∃ registry id, world.registered registry id = some scope := by
  have named : move.focus.isPassed = false := by rw [comes]; rfl
  cases turn with
  | finds registered => cases comes; exact ⟨_, _, registered⟩
  | calls starts => cases named.symm.trans (starts_passed starts)
  | admits | vouches => cases named.symm.trans (admitted_passed _)
  | refuses | disowns => cases named.symm.trans (refused_passed _ _)
  | leaves | reopens => cases named.symm.trans (exit_passed _)
  | backHooked | unwindHooked => cases named.symm.trans hooked_passed
  | backDropped | backReleased => simp at comes
  | _ => cases comes

theorem Turn.concluding (turn : Turn world me thread move) (concluding : Concluding registry scope base thread)
    (unanswered : ∀ exit : Exit C, thread ≠ ⟨exit.focus, base⟩) :
    Concluding registry scope base ⟨move.focus, move.frames⟩ := by
  cases concluding with
  | waits => cases turn; exact .empties
  | empties => cases turn; exact .clears
  | clears => cases turn; exact .tears []
  | tears upper =>
    rcases turn.onto rfl with ⟨more, same⟩ | ⟨rfl, exit, rfl⟩
    · rw [same]
      exact .tears more
    · cases exit with
      | back reply => cases turn; exact .settles
      | unwind panic =>
        cases turn.flees rfl
        exact .reopens (.unwind panic) trivial
  | settles => cases turn; exact .marks
  | marks => cases turn; exact .tells []
  | @tells _ failures upper =>
    rcases turn.onto rfl with ⟨more, same⟩ | ⟨rfl, exit, rfl⟩
    · rw [same]
      exact .tells more
    · cases exit with
      | back reply => cases turn; exact .reopens (.back _) ⟨failures, rfl⟩
      | unwind panic =>
        cases turn.flees rfl
        exact .reopens (.unwind panic) trivial
  | reopens exit reports => cases turn; exact .came exit reports
  | came exit reports =>
    cases exit with
    | back reply =>
      obtain ⟨failures, rfl⟩ := reports
      generalize isReply : Reply.ofFailures failures = reply at turn
      cases turn with
      | @backEndedUnknown _ _ _ id => exact absurd isReply (ofFailures_proper failures id)
      | backEnded =>
        rw [← isReply]
        exact .forgets
    | unwind panic =>
      cases turn.passes rfl
      exact .leaves (.unwind panic) trivial
  | @forgets failures => cases turn; exact .leaves (.back _) ⟨failures, rfl⟩
  | leaves exit => exact absurd rfl (unanswered exit)

theorem Concluding.refocus {focus other : Focus C} {frames : List (Frame C)} (rests : focus.rests = true)
    (concluding : Concluding registry scope base ⟨focus, frames⟩) : Concluding registry scope base ⟨other, frames⟩ := by
  cases concluding with
  | tears upper => exact .tears upper
  | tells upper => exact .tells upper
  | came exit | leaves exit => cases exit <;> cases rests
  | _ => cases rests

theorem Concluding.above (concluding : Concluding registry scope base thread) :
    (∃ more, thread.frames = more ++ .ended registry scope :: base) ∨ (∃ reply, thread = ⟨.forget registry scope reply, base⟩) ∨
      ∃ exit : Exit C, exit.Reports ∧ thread = ⟨exit.focus, base⟩ := by
  cases concluding with
  | waits | empties | clears | settles | marks | reopens | came => exact .inl ⟨[], rfl⟩
  | tears upper => exact .inl ⟨upper ++ [_], (List.append_assoc upper [_] _).symm⟩
  | tells upper => exact .inl ⟨upper ++ [_], (List.append_assoc upper [_] _).symm⟩
  | forgets => exact .inr (.inl ⟨_, rfl⟩)
  | leaves exit reports => exact .inr (.inr ⟨exit, reports, rfl⟩)

theorem Concluding.answer {exit : Exit C} (concluding : Concluding registry scope base ⟨exit.focus, base⟩) : exit.Reports := by
  rcases concluding.above with ⟨more, same⟩ | ⟨reply, same⟩ | ⟨other, reports, same⟩
  · exact absurd same.symm above_ne
  · cases exit <;> cases same
  · exact exit_injective (congrArg Thread.focus same) ▸ reports

theorem apart_cell {effect : Effect C} {other : ScopeRef} (target : effect.target? = some scope) (apart : other ≠ scope) :
    (effect.apply me world).cell other = world.cell other := by
  rcases apply_cell effect me world other with same | ⟨mine, _⟩ | ⟨registry, id, rfl, _⟩
  · exact same
  · exact absurd (Option.some.inj (mine.symm.trans target)) apart
  · cases target

theorem target_occupant {effect : Effect C} (target : effect.target? = some scope) :
    (effect.apply me world).occupant registry id = world.occupant registry id := by
  cases effect <;> cases target <;> rfl

theorem forget_kept {other : ScopeRef} {place : RegistryRef} (apart : other ≠ scope) :
    ((Effect.forget registry scope).apply me world).occupant place id = some other ↔ world.occupant place id = some other := by
  rw [forget_occupant]
  split
  · rename_i held
    obtain ⟨rfl, mine, shares⟩ := held
    rw [shared_occupant shares] at mine
    rw [mine]
    exact iff_of_false nofun fun same => apart (Option.some.inj same).symm
  · exact Iff.rfl

-- Between an end and the user code that it comes to run there is nothing but the work on its own scope.
theorem Stacked.within {upper : List (Frame C)} {activity : Activity}
    (stacked : Stacked aided (upper ++ .ended registry scope :: base)) (alone : ∀ next, .user next ∉ upper)
    (borne : Borne aided activity (upper ++ .ended registry scope :: base)) : activity.Within scope := by
  induction upper generalizing activity with
  | nil => cases activity <;> first | exact borne | exact False.elim borne
  | cons frame rest ih =>
    have below : frame.activity.Within scope :=
      ih stacked.2 (fun next member => alone next (List.mem_cons_of_mem _ member)) stacked.1
    cases frame with
    | user next => exact absurd (List.mem_cons_self ..) (alone next)
    | _ => cases activity <;> trivial

theorem Turn.within (turn : Turn world me thread move) (uncoded : thread.focus.activity? ≠ some .code)
    (within : ∀ activity, thread.focus.activity? = some activity → activity.Within scope) :
    move.effect = .still ∨ move.effect.target? = some scope := by
  cases turn with
  | retires | excludes | empties | clears | settles | marks | reopens => exact .inr (congrArg some (within _ rfl))
  | backHooked | unwindHooked => exact .inl hooked_effect
  | backDropped => exact .inl dropped_effect
  | backReleased => exact .inl released_effect
  | _ => first | exact .inl rfl | exact absurd rfl uncoded | exact (within _ rfl).elim

end

namespace System
variable {system start before after : System C} {program : C.Label → Code C} {memory : C.Memory} {code : Code C}
  {thread : Thread C} {me you : ThreadId} {registry : RegistryRef} {scope : ScopeRef} {base : List (Frame C)}

theorem awaits_vain {left : Nat} {id : ScopeId} (reached : Runs (initial program memory code) start)
    (running : start.threads[me]? = some thread) (vain : Vain start.world registry id base left thread)
    (waits : Awaits me base start system) :
    ∃ left thread, system.threads[me]? = some thread ∧ Vain system.world registry id base left thread ∧
      (left = 0 ∨ ∃ after items other, system.advance me = some after ∧ after.world = record system.world me items ∧
        items = [] ∧ after.threads[me]? = some other ∧ ∃ fewer, fewer < left ∧ Vain after.world registry id base fewer other) := by
  refine awaits_countdown (P := fun world => Vain world registry id base) (R := (· = [])) running vain (fun _ _ _ => Vain.busy) ?_ ?_ ?_ ?_ waits
  · intro world thread done
    cases done
    exact ⟨.back _, rfl⟩
  · intro before after left thread waits next vain
    exact vain.mono fun scope => (next_life (reached.trans waits.runs) next scope).inactive
  · exact fun before left thread waits _ vain => vain.moves me
  · intro before left thread move waits _ vain turn
    obtain ⟨still, silent, vain⟩ := vain.turn turn
    refine ⟨still, silent, left, Nat.le_refl _, vain.mono fun scope inactive => ?_⟩
    rw [perform, still]
    exact inactive

theorem awaits_concluding (ends : start.threads[me]? = some ⟨.exclude scope, .ended registry scope :: base⟩)
    (waits : Awaits me base start system) :
    ∃ thread, system.threads[me]? = some thread ∧ Concluding registry scope base thread :=
  awaits_keep (P := fun _ => Concluding registry scope base) ends .waits (fun _ _ _ _ _ was => was)
    (fun _ _ _ _ rests concluding => concluding.refocus rests)
    (fun _ _ _ _ turn _ concluding unanswered => turn.concluding concluding unanswered) waits

theorem deeds_called {effect : Effect C} {items : List (Item C)} (path : Runs (initial program memory code) before)
    (deeds : Deeds before after me effect items) (unaided : ¬after.world.aided)
    (called : items.filterMap (Item.call? scope) ≠ []) : (before.life scope).ends me ≠ [] := by
  have deed := deeds.deed
  generalize isWas : before.posture me = was at deed
  generalize after.posture me = now at deed
  cases deed with
  | plain _ ordinary | register _ _ ordinary => exact absurd (plain_calls ordinary) called
  | aside aided =>
    refine absurd ?_ unaided
    rw [deeds.world]
    exact aided
  | @act place _ _ _ _ rest act =>
    by_cases here : place = scope
    · subst here
      cases act with
      | build build => exact absurd build.calls called
      | close close =>
        simp only [life, isWas, under_part, if_pos]
        intro none
        obtain ⟨rfl, _⟩ := List.append_eq_nil_iff.mp none
        cases close
        exact called rfl
    · refine absurd (act.calls here fun stage member => ?_) called
      refine (runs_lived path place).owned me stage ?_
      simp only [life, isWas, under_part]
      exact List.mem_append_left _ member

-- From the taking of a scope on, only the thread that has taken it calls hooks of its teardown, and only
-- before it leaves the end.
theorem hooks_mine (reached : Runs (initial program memory code) start)
    (ends : start.threads[me]? = some ⟨.exclude scope, .ended registry scope :: base⟩) (onward : Runs start before)
    (moved : before.advance you = some after) (unaided : ¬after.world.aided)
    (called : after.world.calls scope ≠ before.world.calls scope) : you = me ∧ Awaits me base start before := by
  have path := reached.trans onward
  have there : (before.life scope).ends you ≠ [] := by
    obtain ⟨thread, running, ⟨move, turn, rfl⟩ | ⟨_, _, _, _, _, _, rfl⟩ | ⟨_, _, _, _, _, rfl⟩⟩ := advance_cases moved
    · have deeds := turn_deeds running turn (runs_sound path)
      refine deeds_called path deeds unaided fun none => called ?_
      have grown : (before.perform you move).world.calls scope = before.world.calls scope ++ _ := deeds_calls deeds
      rw [grown, none, List.append_nil]
    · exact absurd rfl called
    · exact absurd rfl called
  have member : .waiting ∈ (start.life scope).ends me := life_stage (focus_stage ends rfl)
  have orderly := (runs_lived reached scope).orderly
  have others := (orderly.owned (orderly.only member)).1.others
  have inactive := taken_inactive reached ends
  have mine : you = me := Decidable.byContradiction fun apart => there (runs_left reached onward inactive (others you apart))
  refine ⟨mine, ?_⟩
  rcases runs_awaits onward me base with waits | ⟨answered, waits, ⟨exit, left⟩, later⟩
  · exact waits
  · -- who has left the end never comes back to it
    have gone := left_over reached ends waits.runs left you
    have still := (runs_leads reached waits.runs scope).inactive inactive
    exact absurd (runs_left (reached.trans waits.runs) later still gone) there

theorem end_touches (path : Runs (initial program memory code) before) (running : before.threads[me]? = some thread)
    (atEnd : thread.AtEnd registry scope base) (moved : before.advance me = some after) {other : ScopeRef} (apart : other ≠ scope) :
    after.world.cell other = before.world.cell other ∧
      ∀ place id, after.world.occupant place id = some other ↔ before.world.occupant place id = some other := by
  obtain ⟨acting, here, ⟨move, turn, rfl⟩ | ⟨_, _, _, _, _, rfl, rfl⟩ | ⟨_, _, _, _, rfl, rfl⟩⟩ := advance_cases moved
  · cases running.symm.trans here
    rcases atEnd with ⟨upper, below, alone, uncoded⟩ | ⟨reply, rfl⟩
    · have sound := runs_sound path thread (List.mem_of_getElem? running)
      have stacked := sound.stacked
      rw [below] at stacked
      rcases turn.within uncoded fun activity does => stacked.within alone (below ▸ sound.borne activity does) with still | target
      · simp only [perform, still, record_cell, record_occupant]
        exact ⟨rfl, fun _ _ => Iff.rfl⟩
      · simp only [perform, record_cell, record_occupant]
        exact ⟨apart_cell target apart, fun place id => by rw [target_occupant target]⟩
    · cases turn
      simp only [perform, record_cell, record_occupant]
      exact ⟨untargeted_cell rfl rfl, fun place id => forget_kept apart⟩
  · exact ⟨rfl, fun _ _ => Iff.rfl⟩
  · exact ⟨rfl, fun _ _ => Iff.rfl⟩

theorem runs_looked (path : Runs (initial program memory code) system) : ∀ thread ∈ system.threads, ∀ scope,
    thread.focus = .retire scope → (system.world.scope? scope).isSome := by
  induction path with
  | refl =>
    intro thread member scope looked
    cases List.mem_singleton.mp member
    cases looked
  | @step before after path next ih =>
    refine (step_change next).carry (P := fun world thread => ∀ scope, thread.focus = .retire scope →
      (world.scope? scope).isSome) ih (fun _ _ => nofun) (fun _ _ _ _ _ => nofun) (fun _ _ _ _ _ => ⟨fun _ => nofun, fun _ => nofun⟩) ?_ ?_
    · intro me thread move turn _ scope comes
      obtain ⟨registry, id, registered⟩ := turn.finder comes
      exact apply_isSome (registered_own path registered).2.2
    · exact fun me thread move other _ was scope looked => apply_isSome (was scope looked)

theorem retire_advances (path : Runs (initial program memory code) start)
    (looked : start.threads[me]? = some ⟨.retire scope, .ended registry scope :: base⟩)
    (active : (start.world.cell scope).state = .active) : ∃ after, start.advance me = some after ∧
      (after.world.cell scope).state = .destructionPending ∧
      after.threads[me]? = some ⟨.exclude scope, .ended registry scope :: base⟩ := by
  have known := runs_looked path _ (List.mem_of_getElem? looked) scope rfl
  obtain ⟨cell, found⟩ := Option.isSome_iff_exists.mp known
  have is : cell.isActive = true := decide_eq_true (cell_found found ▸ active)
  refine ⟨start.perform me (.changing (.retire scope) (.exclude scope) (.ended registry scope :: base)), ?_, ?_, ?_⟩
  · rw [advance_next looked rfl]
    simp [Thread.next, Move.retire, found, is]
  · have cell : ((Effect.retire scope).apply me start.world).cell scope = _ := target_cell rfl known
    simp only [perform, Move.changing, record_cell, cell, if_pos]
    rfl
  · exact List.getElem?_set_self (List.getElem?_eq_some_iff.mp looked).1

-- A thread has looked up a scope to end it. If nobody has taken the scope out of its active state by then, the
-- thread takes it for ever, it alone calls the hooks of the teardown, and it is told what has failed.
-- Otherwise there is nothing to end, and it does nothing. Whatever it does itself leaves the other scopes
-- as they are, and in their places, also when it comes late to let its own scope go.
theorem one_end_takes (reached : Runs (initial program memory code) start)
    (looked : start.threads[me]? = some ⟨.retire scope, .ended registry scope :: base⟩) :
    ((start.world.cell scope).state = .active →
      (¬start.world.aided → start.world.calls scope = []) ∧
      ∃ taken, start.advance me = some taken ∧ (taken.world.cell scope).state = .destructionPending ∧
        taken.threads[me]? = some ⟨.exclude scope, .ended registry scope :: base⟩ ∧
        (∀ later, Runs taken later → (later.world.cell scope).state ≠ .active) ∧
        (∀ before after you, Runs taken before → before.advance you = some after → ¬after.world.aided →
          after.world.calls scope ≠ before.world.calls scope → you = me ∧ Awaits me base taken before) ∧
        ∀ answered reply, Awaits me base taken answered → answered.threads[me]? = some ⟨.back reply, base⟩ →
          ∃ failures, reply = .ofFailures failures) ∧
    ((start.world.cell scope).state ≠ .active → ∀ later, Awaits me base start later →
      ∃ left thread, later.threads[me]? = some thread ∧ Vain later.world registry scope.id base left thread ∧
        (left = 0 ∨ ∃ after items other, later.advance me = some after ∧ after.world = record later.world me items ∧
          items = [] ∧ after.threads[me]? = some other ∧
          ∃ fewer, fewer < left ∧ Vain after.world registry scope.id base fewer other)) ∧
    (∀ before after thread other, Runs start before → before.threads[me]? = some thread →
      thread.AtEnd registry scope base → before.advance me = some after → other ≠ scope →
      after.world.cell other = before.world.cell other ∧
        ∀ place id, after.world.occupant place id = some other ↔ before.world.occupant place id = some other) ∧
    ∀ before after you, Runs start before → before.advance you = some after → before.world.isActive scope = true →
      after.world.isActive scope = false →
      ∃ place frames, before.threads[you]? = some ⟨.retire scope, .ended place scope :: frames⟩ := by
  refine ⟨fun active => ⟨fun unaided => ((runs_lived reached scope).due.quiet active).2 unaided, ?_⟩, ?_, ?_, ?_⟩
  · obtain ⟨taken, moved, pending, ends⟩ := retire_advances reached looked active
    have path : Runs (initial program memory code) taken := .step reached (.thread me moved)
    refine ⟨taken, moved, pending, ends, fun later onward => ?_, ?_, fun answered reply waits comes => ?_⟩
    · exact (runs_leads path onward scope).inactive (taken_inactive path ends)
    · exact fun before after you onward moved => hooks_mine path ends onward moved
    · obtain ⟨thread, running, concluding⟩ := awaits_concluding ends waits
      cases comes.symm.trans running
      have reports : (Exit.back reply).Reports := concluding.answer
      exact reports
  · exact fun inactive later waits => awaits_vain reached looked (.retires rfl inactive) waits
  · exact fun before after thread other onward running atEnd moved apart =>
      end_touches (reached.trans onward) running atEnd moved apart
  · intro before after you onward moved active inactive
    have path := reached.trans onward
    obtain ⟨⟨focus, frames⟩, running, _⟩ := advance_cases moved
    cases (advance_retires path running moved active inactive : focus = .retire scope)
    obtain ⟨place, rest, rfl⟩ := ending_below ((runs_sound path _ (List.mem_of_getElem? running)).borne _ rfl)
    exact ⟨place, rest, running⟩

def endingBoth : System ⟨Unit, Unit, Unit, Unit⟩ :=
  initial (fun _ => .done) () <| .call (.establish {}) fun _ => .call (.begin 0 ⟨.session, "a"⟩) fun _ =>
    .fork 3
      (fun index => .call (if index = 2 then .begin 0 ⟨.session, "a"⟩ else .finish 0 ⟨.session, "a"⟩) fun _ => .done)
      fun _ => .done

-- Both have looked up the session when the first one takes it, and the second one is told that there is nothing
-- to end. The session is begun again before the first one lets the old one go, and keeps its place.
theorem one_of_two : ∃ taken, (follow [1, 1, 2, 2] (run 8 endingBoth)).advance 1 = some taken ∧
    (taken.world.cell ⟨0, ⟨.session, "a"⟩, 0⟩).state = .destructionPending ∧
    (follow [1, 2, 2] (follow [1, 1, 2, 2] (run 8 endingBoth))).threads[2]? =
      some ⟨.back (.fault (.unknown ⟨.session, "a"⟩)), [.user fun _ => .done]⟩ ∧
    (follow (List.replicate 14 1 ++ [3, 1]) (follow [1, 1, 2, 2] (run 8 endingBoth))).world.registered 0 ⟨.session, "a"⟩ =
      some ⟨0, ⟨.session, "a"⟩, 1⟩ := by
  have looked : (follow [1, 1, 2, 2] (run 8 endingBoth)).threads[1]? = some
      ⟨.retire ⟨0, ⟨.session, "a"⟩, 0⟩, [.ended 0 ⟨0, ⟨.session, "a"⟩, 0⟩, .user fun _ => .done]⟩ := rfl
  have reached := (run_runs 8 endingBoth).trans (follow_runs [1, 1, 2, 2] (run 8 endingBoth))
  obtain ⟨_, taken, moved, pending, _⟩ := (one_end_takes reached looked).1 (by decide)
  exact ⟨taken, moved, pending, rfl, by decide⟩

end System
end Lifespan
