import Lifespan.Proofs.Succession

-- What finishing a guard does. A guard is made with one scope, but it ends whatever is registered under
-- the identity of that scope. As long as nobody has begun the identity again this is the same; afterwards
-- it is the newer scope that is ended.
namespace Lifespan
variable {C : Client}

def Op.finishes? : Op C → Option (Guard × List (Frame C))
  | endGuard guard => some (guard, [])
  | dropGuard guard => some (guard, [.released guard])
  | _ => none

def Op.tooLate : Op C → Reply C
  | endGuard guard => .fault (.unknown guard.scope.id)
  | _ => .done

inductive Finishing (guard : Guard) (op : Op C) (next : Reply C → Code C) (waiting frames : List (Frame C)) : Thread C → Prop
  | asks : Finishing guard op next waiting frames ⟨.run (.call op next), frames⟩
  | finds : Finishing guard op next waiting frames
      ⟨.find guard.registry guard.scope.id, waiting ++ .user next :: frames⟩
  | ends (here : scope.registry = guard.registry) (same : scope.id = guard.scope.id) (upper : List (Frame C)) :
      Finishing guard op next waiting frames ⟨focus, upper ++ .ended guard.registry scope :: (waiting ++ .user next :: frames)⟩
  | forgets : Finishing guard op next waiting frames ⟨.forget registry scope reply, waiting ++ .user next :: frames⟩
  | came (exit : Exit C) : Finishing guard op next waiting frames ⟨exit.focus, waiting ++ .user next :: frames⟩
  | answers (exit : Exit C) : Finishing guard op next waiting frames ⟨exit.focus, .user next :: frames⟩

-- How many steps of its own are left to a call that finishes a guard too late, at most.
inductive Late (world : World C) (guard : Guard) (op : Op C) (next : Reply C → Code C) (waiting frames : List (Frame C)) :
    Nat → Thread C → Prop
  | asks : Late world guard op next waiting frames 5 ⟨.run (.call op next), frames⟩
  | finds : Late world guard op next waiting frames 4
      ⟨.find guard.registry guard.scope.id, waiting ++ .user next :: frames⟩
  | retires (here : scope.registry = guard.registry) (same : scope.id = guard.scope.id)
      (known : (world.scope? scope).isSome) : Late world guard op next waiting frames 3
        ⟨.retire scope, .ended guard.registry scope :: (waiting ++ .user next :: frames)⟩
  | spared : Late world guard op next waiting frames 2
      ⟨.back (.fault (.unknown guard.scope.id)), .ended guard.registry scope :: (waiting ++ .user next :: frames)⟩
  | released (answer : op.tooLate = .done) : Late world guard op next waiting frames 1
      ⟨.back (.fault (.unknown guard.scope.id)), .released guard :: .user next :: frames⟩
  | answered : Late world guard op next waiting frames 0 ⟨.back op.tooLate, .user next :: frames⟩

section
variable {world : World C} {me : ThreadId} {thread : Thread C} {move : Move C} {guard : Guard} {op : Op C}
  {next : Reply C → Code C} {waiting frames : List (Frame C)} {left : Nat} {scope : ScopeRef}

theorem finishes_cases (finishes : op.finishes? = some (guard, waiting)) :
    op = .endGuard guard ∧ waiting = [] ∨ op = .dropGuard guard ∧ waiting = [.released guard] := by
  cases op <;> cases finishes
  · exact .inl ⟨rfl, rfl⟩
  · exact .inr ⟨rfl, rfl⟩

theorem Turn.finished (turn : Turn world me ⟨.run (.call op next), frames⟩ move)
    (finishes : op.finishes? = some (guard, waiting)) :
    move.effect = .still ∧ move.items = [.called op] ∧
      move.focus = .find guard.registry guard.scope.id ∧ move.frames = waiting ++ .user next :: frames := by
  rcases finishes_cases finishes with ⟨rfl, rfl⟩ | ⟨rfl, rfl⟩ <;>
    cases turn with
    | calls starts => cases starts; exact ⟨rfl, rfl, rfl, rfl⟩
    | goOn alone | ends alone | panics alone => cases alone
    | answers _ immediate => cases immediate

theorem Turn.finishing (turn : Turn world me thread move) (finishing : Finishing guard op next waiting frames thread)
    (finishes : op.finishes? = some (guard, waiting))
    (own : ∀ scope, world.registered guard.registry guard.scope.id = some scope →
      scope.registry = guard.registry ∧ scope.id = guard.scope.id)
    (unanswered : ∀ exit : Exit C, thread ≠ ⟨exit.focus, .user next :: frames⟩) :
    Finishing guard op next waiting frames ⟨move.focus, move.frames⟩ := by
  cases finishing with
  | asks =>
    obtain ⟨_, _, focus, above⟩ := turn.finished finishes
    rw [focus, above]
    exact .finds
  | finds =>
    cases turn with
    | overlooks => exact .came (.back _)
    | finds registered =>
      obtain ⟨here, same⟩ := own _ registered
      exact .ends here same []
  | ends here same upper =>
    rcases turn.onto rfl with ⟨more, still⟩ | ⟨rfl, exit, rfl⟩
    · rw [still]
      exact .ends here same more
    · cases exit with
      | back reply =>
        cases turn with
        | backEndedUnknown => exact .came (.back _)
        | backEnded => exact .forgets
      | unwind panic =>
        cases turn.passes rfl
        exact .came (.unwind panic)
  | forgets => cases turn; exact .came (.back _)
  | came exit =>
    rcases finishes_cases finishes with ⟨_, rfl⟩ | ⟨_, rfl⟩
    · exact absurd rfl (unanswered exit)
    · cases exit with
      | back reply =>
        cases turn
        rw [released_focus, released_frames]
        exact .answers (.back .done)
      | unwind panic =>
        cases turn.passes rfl
        exact .answers (.unwind panic)
  | answers exit => exact absurd rfl (unanswered exit)

theorem Late.mono {later : World C} (grows : ∀ scope, (world.scope? scope).isSome → (later.scope? scope).isSome)
    (late : Late world guard op next waiting frames left thread) : Late later guard op next waiting frames left thread := by
  cases late with
  | asks => exact .asks
  | finds => exact .finds
  | retires here same known => exact .retires here same (grows _ known)
  | spared => exact .spared
  | released answer => exact .released answer
  | answered => exact .answered

theorem late_back (finishes : op.finishes? = some (guard, waiting)) : ∃ fewer, fewer ≤ 1 ∧
    Late world guard op next waiting frames fewer ⟨.back (.fault (.unknown guard.scope.id)), waiting ++ .user next :: frames⟩ := by
  rcases finishes_cases finishes with ⟨rfl, rfl⟩ | ⟨rfl, rfl⟩
  · exact ⟨0, Nat.zero_le _, .answered⟩
  · exact ⟨1, Nat.le_refl _, .released rfl⟩

theorem Late.turn (late : Late world guard op next waiting frames (left + 1) thread) (turn : Turn world me thread move)
    (finishes : op.finishes? = some (guard, waiting))
    (own : ∀ scope, world.registered guard.registry guard.scope.id = some scope →
      scope.registry = guard.registry ∧ scope.id = guard.scope.id ∧ (world.scope? scope).isSome)
    (idle : ∀ scope, scope.registry = guard.registry → scope.id = guard.scope.id → world.isActive scope = false) :
    move.effect = .still ∧ ∃ fewer, fewer ≤ left ∧ Late world guard op next waiting frames fewer ⟨move.focus, move.frames⟩ := by
  have back : ∃ fewer, fewer ≤ 1 ∧ Late world guard op next waiting frames fewer
      ⟨.back (.fault (.unknown guard.scope.id)), waiting ++ .user next :: frames⟩ := late_back finishes
  cases late with
  | asks =>
    obtain ⟨still, _, focus, above⟩ := turn.finished finishes
    rw [focus, above]
    exact ⟨still, 4, Nat.le_refl _, .finds⟩
  | finds =>
    cases turn with
    | overlooks =>
      obtain ⟨fewer, less, late⟩ := back
      exact ⟨rfl, fewer, Nat.le_trans less (by omega), late⟩
    | finds registered =>
      obtain ⟨here, same, known⟩ := own _ registered
      exact ⟨rfl, 3, Nat.le_refl _, .retires here same known⟩
  | retires here same =>
    cases turn with
    | retires found active =>
      have active : world.isActive _ = true := active_iff.mpr ⟨by rw [found]; rfl, cell_found found ▸ active⟩
      cases active.symm.trans (idle _ here same)
    | spares =>
      rw [same]
      exact ⟨rfl, 2, Nat.le_refl _, .spared⟩
  | spared =>
    cases turn with
    | backEndedUnknown =>
      obtain ⟨fewer, less, late⟩ := back
      exact ⟨rfl, fewer, less, late⟩
    | backEnded refused => exact absurd rfl (refused guard.scope.id)
  | released answer =>
    cases turn
    rw [released_effect, released_focus, released_frames, ← answer]
    exact ⟨rfl, 0, Nat.le_refl _, .answered⟩

theorem Late.moves (late : Late world guard op next waiting frames (left + 1) thread)
    (finishes : op.finishes? = some (guard, waiting)) (me : ThreadId) : ∃ move, thread.next world me = some move := by
  cases late with
  | asks => rcases finishes_cases finishes with ⟨rfl, _⟩ | ⟨rfl, _⟩ <;> exact ⟨_, rfl⟩
  | finds => exact ⟨_, rfl⟩
  | retires _ _ known =>
    obtain ⟨cell, found⟩ := Option.isSome_iff_exists.mp known
    exact ⟨_, Option.map_eq_some_iff.mpr ⟨cell, found, rfl⟩⟩
  | spared => exact ⟨_, rfl⟩
  | released => exact ⟨_, rfl⟩

theorem Late.busy (late : Late world guard op next waiting frames left thread) : thread.focus.rests = false := by
  cases late <;> rfl

theorem Finishing.refocus {focus other : Focus C} (rests : focus.rests = true)
    (finishing : Finishing guard op next waiting frames ⟨focus, above⟩) :
    Finishing guard op next waiting frames ⟨other, above⟩ := by
  cases finishing with
  | ends here same upper => exact .ends here same upper
  | came exit | answers exit => cases exit <;> cases rests
  | _ => cases rests

end

namespace System
variable {system start before after : System C} {program : C.Label → Code C} {memory : C.Memory} {code : Code C}
  {thread : Thread C} {me : ThreadId} {guard : Guard} {op : Op C} {next : Reply C → Code C}
  {waiting frames : List (Frame C)} {scope : ScopeRef} {registry : RegistryRef} {id : ScopeId}

theorem awaits_finishing (reached : Runs (initial program memory code) start)
    (calls : start.threads[me]? = some ⟨.run (.call op next), frames⟩) (finishes : op.finishes? = some (guard, waiting))
    (waits : Awaits me (.user next :: frames) start system) :
    ∃ thread, system.threads[me]? = some thread ∧ Finishing guard op next waiting frames thread := by
  refine awaits_keep (P := fun _ => Finishing guard op next waiting frames) calls .asks (fun _ _ _ _ _ was => was) ?_ ?_ waits
  · exact fun _ _ _ _ rests finishing => finishing.refocus rests
  · intro before thread move waits turn _ finishing unanswered
    refine turn.finishing finishing finishes (fun scope registered => ?_) unanswered
    obtain ⟨here, same, _⟩ := registered_own (reached.trans waits.runs) registered
    exact ⟨here, same⟩

theorem retires_own {upper : List (Frame C)} (path : Runs (initial program memory code) system)
    (running : system.threads[me]? = some ⟨.retire scope, upper ++ (waiting ++ .user next :: frames)⟩)
    (alone : ∀ next, .user next ∉ upper)
    (finishing : Finishing guard op next waiting frames ⟨.retire scope, upper ++ (waiting ++ .user next :: frames)⟩) :
    scope.registry = guard.registry ∧ scope.id = guard.scope.id := by
  have sound := runs_sound path _ (List.mem_of_getElem? running)
  obtain ⟨registry, rest, top⟩ := ending_below (sound.borne _ rfl)
  have stacked := sound.stacked
  generalize isThread : Thread.mk (.retire scope) (upper ++ (waiting ++ .user next :: frames)) = thread at finishing
  cases finishing with
  | @ends _ ended here same above =>
    have whole := congrArg Thread.frames isThread
    have whole : upper ++ (waiting ++ .user next :: frames) =
        (above ++ [.ended guard.registry ended]) ++ (waiting ++ .user next :: frames) := by
      rw [List.append_assoc]; exact whole
    cases List.append_cancel_right whole
    cases above with
    | nil =>
      cases (List.cons.inj top).1
      exact ⟨here, same⟩
    | cons first above =>
      cases (List.cons.inj top).1
      rw [List.cons_append, List.cons_append, List.append_assoc] at stacked
      obtain ⟨next, member⟩ := stacked.between rfl
      exact absurd (List.mem_cons_of_mem _ (List.mem_append_left _ member)) (alone next)
  | came exit | answers exit => cases exit <;> cases isThread
  | _ => cases isThread

-- Each step of a finish that comes too late is one towards its answer.
theorem late_step {left : Nat} {move : Move C} (path : Runs (initial program memory code) system)
    (late : Late system.world guard op next waiting frames (left + 1) thread) (turn : Turn system.world me thread move)
    (finishes : op.finishes? = some (guard, waiting)) (here : guard.scope.registry = guard.registry)
    (inactive : (system.world.cell guard.scope).state ≠ .active) (newest : system.world.Newest guard.scope) :
    move.effect = .still ∧ ∃ fewer, fewer ≤ left ∧
      Late (system.perform me move).world guard op next waiting frames fewer ⟨move.focus, move.frames⟩ := by
  obtain ⟨still, fewer, less, after⟩ := late.turn turn finishes (fun scope registered => registered_own path registered)
    fun scope mine same => newest_idle path newest inactive (mine.trans here.symm) same
  exact ⟨still, fewer, less, after.mono fun scope present => apply_isSome present⟩

theorem awaits_late (reached : Runs (initial program memory code) start)
    (calls : start.threads[me]? = some ⟨.run (.call op next), frames⟩) (finishes : op.finishes? = some (guard, waiting))
    (here : guard.scope.registry = guard.registry) (inactive : (start.world.cell guard.scope).state ≠ .active)
    (waits : Awaits me (.user next :: frames) start system) (newest : system.world.Newest guard.scope) :
    ∃ thread, system.threads[me]? = some thread ∧ ∃ left, Late system.world guard op next waiting frames left thread := by
  have still : ∀ later, Runs start later → (later.world.cell guard.scope).state ≠ .active :=
    fun later onward => (runs_leads reached onward guard.scope).inactive inactive
  have last : ∀ before after, Runs start before → Step before after → after.world.Newest guard.scope →
      before.world.Newest guard.scope := by
    intro before after onward step
    exact newest_before (.step (.refl _) step) (reached.trans onward) (inactive_known (still before onward))
  have kept : ∃ thread, system.threads[me]? = some thread ∧
      (system.world.Newest guard.scope → ∃ left, Late system.world guard op next waiting frames left thread) := by
    refine awaits_keep (P := fun world thread => world.Newest guard.scope →
      ∃ left, Late world guard op next waiting frames left thread) calls (fun _ => ⟨5, .asks⟩) ?_ ?_ ?_ waits
    · intro before after thread waits step late newest
      obtain ⟨left, late⟩ := late (last before after waits.runs step newest)
      exact ⟨left, late.mono fun scope => known_stays (step_change step)⟩
    · intro world focus other above rests late newest
      obtain ⟨left, late⟩ := late newest
      cases late.busy.symm.trans rests
    · intro before thread move waits turn step late unanswered newest
      have newest := last before _ waits.runs step newest
      obtain ⟨left, late⟩ := late newest
      cases left with
      | zero => cases late; exact absurd rfl (unanswered (.back op.tooLate))
      | succ left =>
        obtain ⟨_, fewer, _, after⟩ :=
          late_step (reached.trans waits.runs) late turn finishes here (still before waits.runs) newest
        exact ⟨fewer, after⟩
  obtain ⟨thread, running, late⟩ := kept
  exact ⟨thread, running, late newest⟩

theorem late_advances {left : Nat} (path : Runs (initial program memory code) system)
    (running : system.threads[me]? = some thread)
    (late : Late system.world guard op next waiting frames (left + 1) thread)
    (finishes : op.finishes? = some (guard, waiting)) (here : guard.scope.registry = guard.registry)
    (inactive : (system.world.cell guard.scope).state ≠ .active) (newest : system.world.Newest guard.scope) :
    ∃ after items, system.advance me = some after ∧ after.world = record system.world me items ∧
      ∃ fewer thread, fewer ≤ left ∧ after.threads[me]? = some thread ∧
        Late after.world guard op next waiting frames fewer thread := by
  obtain ⟨move, moves⟩ := late.moves finishes me
  obtain ⟨still, fewer, less, after⟩ := late_step path late (next_turn moves) finishes here inactive newest
  have moved : system.advance me = some (system.perform me move) := by rw [advance_next running late.busy, moves]; rfl
  refine ⟨system.perform me move, move.items, moved, ?_, fewer, _, less, ?_, after⟩
  · rw [perform, still]
    rfl
  · exact List.getElem?_set_self (List.getElem?_eq_some_iff.mp running).1

-- Finishing a guard takes a scope out of its active state only if it is the one that the guard was made with,
-- or, when that one is destroyed, a later one of its identity; what the hooks and listeners do aside. If the scope
-- of the guard is not active any more and no other one has been begun under its identity, the finish changes
-- nothing, and comes after a few steps to the answer that there is nothing to end.
theorem guard_ends_newest (reached : Runs (initial program memory code) start)
    (calls : start.threads[me]? = some ⟨.run (.call op next), frames⟩) (finishes : op.finishes? = some (guard, waiting))
    (here : guard.scope.registry = guard.registry) (known : (start.world.scope? guard.scope).isSome) :
    (∀ before after focus upper taken, Awaits me (.user next :: frames) start before →
      before.threads[me]? = some ⟨focus, upper ++ (waiting ++ .user next :: frames)⟩ → (∀ asked, .user asked ∉ upper) →
      before.advance me = some after → before.world.isActive taken = true → after.world.isActive taken = false →
      taken = guard.scope ∨
        taken.registry = guard.scope.registry ∧ taken.id = guard.scope.id ∧ guard.scope.turn < taken.turn ∧
          (before.world.cell guard.scope).state = .destroyed) ∧
    ((start.world.cell guard.scope).state ≠ .active →
      ∀ later, Awaits me (.user next :: frames) start later → later.world.Newest guard.scope →
        ∃ thread, later.threads[me]? = some thread ∧ ∃ left, Late later.world guard op next waiting frames left thread ∧
          (thread = ⟨.back op.tooLate, .user next :: frames⟩ ∨
            ∃ after items, later.advance me = some after ∧ after.world = record later.world me items ∧
              ∃ fewer thread, fewer < left ∧ after.threads[me]? = some thread ∧
                Late after.world guard op next waiting frames fewer thread)) := by
  constructor
  · intro before after focus upper taken waits running alone moved active inactive
    have path := reached.trans waits.runs
    cases (advance_retires path running moved active inactive : focus = .retire taken)
    obtain ⟨thread, again, finishing⟩ := awaits_finishing reached calls finishes waits
    cases running.symm.trans again
    obtain ⟨mine, same⟩ := retires_own path running alone finishing
    obtain ⟨present, state⟩ := active_iff.mp active
    have alive : before.world.isAlive taken = true := alive_iff.mpr ⟨present, by simp [state]⟩
    have known := runs_known waits.runs known
    exact (alive_since path alive (mine.trans here.symm) same known).imp_right fun later => ⟨mine.trans here.symm, same, later⟩
  · intro inactive later waits newest
    have path := reached.trans waits.runs
    have still := (runs_leads reached waits.runs guard.scope).inactive inactive
    obtain ⟨thread, running, left, late⟩ := awaits_late reached calls finishes here inactive waits newest
    refine ⟨thread, running, left, late, ?_⟩
    cases left with
    | zero => cases late; exact .inl rfl
    | succ left =>
      obtain ⟨after, items, moved, same, fewer, thread, less, onward⟩ := late_advances path running late finishes here still newest
      exact .inr ⟨after, items, moved, same, fewer, thread, Nat.lt_succ_of_le less, onward⟩

def guardKept (again : Bool) : System ⟨Unit, Unit, Unit, Unit⟩ :=
  let drop : Code ⟨Unit, Unit, Unit, Unit⟩ := .call (.dropGuard ⟨0, ⟨0, ⟨.session, "a"⟩, 0⟩⟩) fun _ => .done
  initial (fun _ => .done) () <| .call (.establish {}) fun _ => .call (.begin 0 ⟨.session, "a"⟩) fun _ =>
    .call (.finish 0 ⟨.session, "a"⟩) fun _ => if again then .call (.begin 0 ⟨.session, "a"⟩) fun _ => drop else drop

theorem dropped_late : ((run 25 (guardKept false)).world.cell ⟨0, ⟨.session, "a"⟩, 0⟩).state ≠ .active ∧
    ∃ after items, (run 25 (guardKept false)).advance 0 = some after ∧
      after.world = record (run 25 (guardKept false)).world 0 items := by
  have inactive : ((run 25 (guardKept false)).world.cell ⟨0, ⟨.session, "a"⟩, 0⟩).state ≠ .active := by decide
  have newest : (run 25 (guardKept false)).world.Newest ⟨0, ⟨.session, "a"⟩, 0⟩ := rfl
  have calls : (run 25 (guardKept false)).threads[0]? =
      some ⟨.run (.call (.dropGuard ⟨0, ⟨0, ⟨.session, "a"⟩, 0⟩⟩) fun _ => .done), []⟩ := rfl
  have late := (guard_ends_newest (run_runs 25 (guardKept false)) calls rfl rfl (by decide)).2 inactive _ .refl newest
  obtain ⟨thread, running, left, _, rfl | ⟨after, items, moved, same, _⟩⟩ := late
  · cases running
  · exact ⟨inactive, after, items, moved, same⟩

-- The session that the guard was made with is destroyed, and dropping the guard takes the next one out of its
-- active state.
theorem next_retired : ∃ start before after next, Runs (guardKept true) start ∧
    start.threads[0]? = some ⟨.run (.call (.dropGuard ⟨0, ⟨0, ⟨.session, "a"⟩, 0⟩⟩) next), []⟩ ∧
    (start.world.cell ⟨0, ⟨.session, "a"⟩, 0⟩).state = .destroyed ∧ Awaits 0 [.user next] start before ∧
    before.threads[0]? = some ⟨.retire ⟨0, ⟨.session, "a"⟩, 1⟩,
      [.ended 0 ⟨0, ⟨.session, "a"⟩, 1⟩, .released ⟨0, ⟨0, ⟨.session, "a"⟩, 0⟩⟩, .user next]⟩ ∧
    before.advance 0 = some after ∧ before.world.isActive ⟨0, ⟨.session, "a"⟩, 1⟩ = true ∧
    after.world.isActive ⟨0, ⟨.session, "a"⟩, 1⟩ = false := by
  refine ⟨run 30 (guardKept true), run 2 (run 30 (guardKept true)), run 3 (run 30 (guardKept true)), _,
    run_runs 30 (guardKept true), rfl, by decide, awaits_run 2 1 rfl (by decide), rfl, rfl, by decide, by decide⟩

end System
end Lifespan
