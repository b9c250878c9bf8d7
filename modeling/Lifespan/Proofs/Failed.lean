import Lifespan.Proofs.Ledger
import Lifespan.Proofs.Origin
import Lifespan.Proofs.Straight
import Lifespan.Proofs.Vacant

-- A construction whose factory has failed, from there to its caller. It gives back all that it holds, and of its key
-- nothing is left.
namespace Lifespan
variable {C : Client}

namespace Life
variable {life before after : Life C} {me : ThreadId} {gate : GateRef} {key : String} {grip : Grip} {shaken aided : Prop}
  {scope : ScopeRef}

structure Barred (life : Life C) (key : String) (gate : GateRef) : Prop where
  unstored : key ∉ life.stored.map Prod.fst
  placed : life.cell.gates.gates.get? key = some gate

theorem Barred.apart (barred : before.Barred key gate) (accounts : before.Accounts) (orderly : before.Orderly)
    (member : grip ∈ before.grips me) (turn : grip.turn? = some gate) (same : after.grips me = before.grips me)
    (step : Step shaken aided scope before after) : after.Barred key gate := by
  cases step with
  | idle cell _ _ stored =>
    obtain ⟨attributes, cell⟩ := cell
    exact ⟨stored ▸ barred.unstored, by rw [cell]; exact barred.placed⟩
  | build actor rest build cell held holds others ends stored =>
    refine ⟨?_, cell ▸ build.gates_kept barred.placed⟩
    rcases build.stores with ⟨none, _⟩ | ⟨name, place, made, rfl, rfl, _, rfl⟩
    · rw [stored, none, List.append_nil]
      exact barred.unstored
    · have his : Grip.making name place ∈ before.grips actor := held ▸ List.mem_cons_self
      have apart : name ≠ key := by
        rintro rfl
        cases (accounts.gates actor _ his name place rfl).symm.trans barred.placed
        have both := (accounts.mine his rfl).symm.trans (accounts.mine member turn)
        cases Option.some.inj (Option.some.inj both)
        have changed := held.symm.trans (same.symm.trans holds)
        cases (List.append_cancel_right changed)
      rw [stored]
      simp [Item.stored?, barred.unstored, apart.symm]
  | close actor rest close cell stood stands others grips stored =>
    refine ⟨stored ▸ barred.unstored, ?_⟩
    cases close with
    | clear =>
      have taken := orderly.taken stood rfl
      rw [accounts.alone orderly (by rw [taken]; rfl)] at member
      cases member
    | _ =>
      rw [cell]
      exact barred.placed

-- As long as a construction is in flight, its scope is not emptied.
theorem stays_open (accounts : before.Accounts) (orderly : before.Orderly) (inside : before.grips me ≠ [])
    (unemptied : ¬before.Emptied) (step : Step shaken aided scope before after) : ¬after.Emptied := by
  intro emptied
  cases step with
  | idle cell _ ends =>
    obtain ⟨attributes, cell⟩ := cell
    exact unemptied (emptied.keep (by rw [cell]) ends.symm)
  | build actor rest build cell _ _ _ ends => exact unemptied (emptied.keep (cell ▸ build.cell_ending.1.symm) ends.symm)
  | close actor rest close cell stood stands =>
    have late := emptied.2 actor
    rw [stands] at late
    cases close with
    | retire | exclude => cases late _ List.mem_cons_self
    | empty =>
      have taken := orderly.taken stood rfl
      exact inside (accounts.alone orderly (by rw [taken]; rfl) me)
    | flee _ ending => rcases ending with rfl | rfl <;> exact unemptied (orderly.emptied stood rfl)
    | _ => exact unemptied (orderly.emptied stood rfl)

theorem Barred.unowned (barred : life.Barred key gate) (accounts : life.Accounts) (ledger : life.Ledger)
    (held : life.grips me = .parting gate :: rest) : life.cell.gates.owners.get? key = none := by
  cases owned : life.cell.gates.owners.get? key with
  | none => rfl
  | some other =>
    obtain ⟨grip, his, builds⟩ := List.mem_filterMap.mp ((ledger.owners key other).mp owned)
    obtain ⟨place, seeks, next⟩ := Grip.building_turn builds
    cases (accounts.gates other grip his key place seeks).symm.trans barred.placed
    have mine : Grip.parting gate ∈ life.grips me := held ▸ List.mem_cons_self
    have both := (accounts.mine his next).symm.trans (accounts.mine mine rfl)
    cases Option.some.inj (Option.some.inj both)
    -- nobody has the turn at a gate twice
    have count := accounts.turns me gate
    rw [held] at his count
    have below : grip ∈ rest := by
      rcases List.mem_cons.mp his with rfl | below
      · cases builds
      · exact below
    have found : 0 < rest.countP (·.turn? = some gate) := List.countP_pos_iff.mpr ⟨grip, below, by simpa using next⟩
    rw [List.countP_cons_of_pos (by simp [Grip.turn?])] at count
    split at count <;> omega

end Life

def Reply.reason : Reply C → Cause
  | failed cause => cause
  | _ => .words "nothing was built" []

namespace Job

def fault (job : Job C) (cause : Cause) : Fault := .construction job.request.scope.id job.request.key cause

def outcome (job : Job C) : Exit C → Exit C
  | .back reply => .back (.fault (job.fault reply.reason))
  | .unwind panic => .unwind panic

def records (job : Job C) : Exit C → List (Item C)
  | .back reply => [.logged (.constructionFailed job.request.scope.id job.request.key reply.reason)]
  | .unwind _ => []

def retreat (job : Job C) (gate : GateRef) (exit : Exit C) (base : List (Frame C)) : List (Move C) :=
  [⟨.still, job.records exit, .leave job.request.scope (.building job.request.key gate) (job.outcome exit), base⟩,
    Move.leave job.request.scope (.building job.request.key gate) (job.outcome exit) base,
    Move.leave job.request.scope (.turn gate) (job.outcome exit) base, Move.leave job.request.scope .lifecycle (job.outcome exit) base]

end Job

mutual
def Fault.constructions : Fault → List (ScopeId × String)
  | .construction id key cause => (id, key) :: cause.constructions
  | _ => []

def Cause.constructions : Cause → List (ScopeId × String)
  | .fault fault => fault.constructions
  | _ => []
end

-- What constructions fail with, one within the other, if the first of them fails for this cause and each
-- passes on what it is given. The last one is what comes out.
def faults (cause : Cause) : List (Job C) → List Fault
  | [] => []
  | job :: rest => job.fault cause :: faults (.fault (job.fault cause)) rest

def outermost (cause : Cause) (job : Job C) : List (Job C) → Fault
  | [] => job.fault cause
  | next :: rest => outermost (.fault (job.fault cause)) next rest

def failures (cause : Cause) : List (Job C) → List (Item C)
  | [] => []
  | job :: rest => .logged (.constructionFailed job.request.scope.id job.request.key cause) :: failures (.fault (job.fault cause)) rest

section
variable {cause : Cause} {job : Job C} {rest : List (Job C)}

theorem outermost_constructions : (outermost cause job rest).constructions =
    ((job :: rest).map fun one => (one.request.scope.id, one.request.key)).reverse ++ cause.constructions := by
  induction rest generalizing cause job with
  | nil => rfl
  | cons next rest ih =>
    rw [outermost, ih]
    simp [Job.fault, Cause.constructions, Fault.constructions]

theorem outermost_chain : (outermost cause job rest).message :: (outermost cause job rest).chain =
    ((faults cause (job :: rest)).map Fault.message).reverse ++ cause.message :: cause.chain := by
  induction rest generalizing cause job with
  | nil => simp [outermost, faults, Job.fault, Fault.chain]
  | cons next rest ih =>
    rw [outermost, ih]
    simp [faults, Job.fault, Cause.message, Cause.chain, Fault.chain]

theorem failures_length {jobs : List (Job C)} : (failures cause jobs).length = jobs.length := by
  induction jobs generalizing cause with
  | nil => rfl
  | cons job rest ih => exact congrArg Nat.succ ih

end

structure Encloser (C : Client) where
  next : Reply C → Code C
  job : Job C
  gate : GateRef

-- A factory that fails with the fault it is given.
def Encloser.Passes (encloser : Encloser C) : Prop := ∀ fault, encloser.next (.fault fault) = .fail (.fault fault)

def enclosing (around : List (Encloser C)) : List (Frame C) :=
  around.flatMap fun one => [.user one.next, .factory one.job one.gate]

-- A thread on its way back from a factory that has failed. It has its turn until it gives it up.
inductive Retreats (job : Job C) (gate : GateRef) (base : List (Frame C)) (outcome : Exit C) : Bool → Thread C → Prop
  | fails (exit : Exit C) (same : job.outcome exit = outcome) : Retreats job gate base outcome true ⟨exit.focus, .factory job gate :: base⟩
  | finishes : Retreats job gate base outcome true ⟨.leave job.request.scope (.building job.request.key gate) outcome, base⟩
  | yields : Retreats job gate base outcome true ⟨.leave job.request.scope (.turn gate) outcome, base⟩
  | leaves : Retreats job gate base outcome false ⟨.leave job.request.scope .lifecycle outcome, base⟩
  | answers : Retreats job gate base outcome false ⟨outcome.focus, base⟩

section
variable {world : World C} {me : ThreadId} {job : Job C} {gate : GateRef} {base below : List (Frame C)} {exit outcome answer : Exit C}
  {moves : List (Move C)} {frame : Frame C} {thread : Thread C} {turn : Bool}

theorem exit_next : Thread.next world me ⟨exit.focus, .factory job gate :: base⟩ =
    some ⟨.still, job.records exit, .leave job.request.scope (.building job.request.key gate) (job.outcome exit), base⟩ := by
  cases exit with
  | back reply => cases reply <;> rfl
  | unwind panic => rfl

theorem leave_away {scope : ScopeRef} {hold : Hold} (other : Exit C) : Thread.mk (.leave scope hold outcome) below ≠ ⟨other.focus, base⟩ := by
  intro same
  cases other <;> cases same

theorem retreat_straight (suffix : base <:+ below) (onward : Straight me base answer ⟨(job.outcome exit).focus, below⟩ moves) :
    Straight me base answer ⟨exit.focus, .factory job gate :: below⟩ (job.retreat gate exit below ++ moves) := by
  refine .step (fun _ same => suffix_ne suffix (congrArg Thread.frames same)) (exit_busy exit) (fun _ => exit_next) ?_
  refine .step leave_away rfl (fun _ => rfl) ?_
  refine .step leave_away rfl (fun _ => rfl) ?_
  exact .step leave_away rfl (fun _ => rfl) onward

theorem told_retreat : told (job.retreat gate exit base) = job.records exit := by
  simp [told, Job.retreat, Move.leave, Move.changing]

theorem told_append (some more : List (Move C)) : told (some ++ more) = told some ++ told more := List.flatMap_append

theorem enclosed_straight {around : List (Encloser C)} {reply : Reply C} (passes : ∀ one ∈ around, one.Passes) :
    ∃ moves, Straight me base (.back (.fault (outermost reply.reason job (around.map Encloser.job))))
        ⟨.back reply, .factory job gate :: (enclosing around ++ base)⟩ moves ∧
      told moves = failures reply.reason (job :: around.map Encloser.job) := by
  induction around generalizing job gate reply with
  | nil =>
    have retreat : Straight me base (job.outcome (.back reply)) ⟨.back reply, .factory job gate :: base⟩ _ :=
      retreat_straight (List.suffix_refl _) .arrives
    exact ⟨_, retreat, by rw [told_append, told_retreat]; rfl⟩
  | cons one rest ih =>
    obtain ⟨passes, others⟩ := List.forall_mem_cons.mp passes
    let fault := job.fault reply.reason
    obtain ⟨moves, onward, tells⟩ : ∃ moves, Straight me base _
        ⟨.back (.failed (.fault fault)), .factory one.job one.gate :: (enclosing rest ++ base)⟩ moves ∧ _ := ih others
    have below : base <:+ enclosing rest ++ base := List.suffix_append _ _
    have deep : base <:+ enclosing (one :: rest) ++ base := List.suffix_append _ _
    have fails : Straight me base _ ⟨.run (.fail (.fault fault)), .factory one.job one.gate :: (enclosing rest ++ base)⟩ _ :=
      .step (fun _ same => suffix_ne below (congrArg Thread.frames same)) rfl (fun _ => rfl) onward
    have gets : Straight me base _ ⟨(job.outcome (.back reply)).focus, enclosing (one :: rest) ++ base⟩ _ :=
      .step (fun _ same => suffix_ne (below.trans (List.suffix_cons _ _)) (congrArg Thread.frames same)) rfl
        (fun _ => congrArg (fun code => some (Move.silent (.run code) _)) (passes fault)) fails
    have retreat : Straight me base _ ⟨.back reply, .factory job gate :: (enclosing (one :: rest) ++ base)⟩ _ := retreat_straight deep gets
    refine ⟨_, retreat, ?_⟩
    rw [told_append, told_retreat]
    exact congrArg _ tells

theorem failed_grips : (Thread.mk exit.focus (.factory job gate :: base)).posture.grips =
    (job.request.scope, .making job.request.key gate) :: base.filterMap Frame.grip? := by
  cases exit <;> rfl

theorem Retreats.held (retreats : Retreats job gate base outcome turn thread) (unanswered : ∀ exit : Exit C, thread ≠ ⟨exit.focus, base⟩) :
    ∃ grip, thread.posture.grips = (job.request.scope, grip) :: base.filterMap Frame.grip? ∧ (turn = true → grip.turn? = some gate) := by
  cases retreats with
  | fails exit => exact ⟨.making job.request.key gate, failed_grips, fun _ => rfl⟩
  | finishes => exact ⟨.done job.request.key gate, rfl, fun _ => rfl⟩
  | yields => exact ⟨.parting gate, rfl, fun _ => rfl⟩
  | leaves => exact ⟨.door, rfl, nofun⟩
  | answers => exact absurd rfl (unanswered outcome)

theorem Retreats.busy (retreats : Retreats job gate base outcome turn thread) : thread.focus.rests = false := by
  cases retreats with
  | fails exit => exact exit_busy exit
  | answers => exact exit_busy outcome
  | _ => rfl

theorem Retreats.given (retreats : Retreats job gate base outcome turn ⟨exit.focus, base⟩) : turn = false := by
  cases turn with
  | false => rfl
  | true =>
    generalize there : Thread.mk exit.focus base = thread at retreats
    cases retreats with
    | fails => exact absurd (congrArg Thread.frames there).symm (List.cons_ne_self _ _)
    | finishes | yields => exact absurd there.symm (leave_away exit)

theorem Retreats.idle {code : Code C} {frames : List (Frame C)} : ¬Retreats job gate base outcome turn ⟨.run code, frames⟩ := by
  generalize there : Thread.mk (.run code) frames = thread
  intro retreats
  cases retreats with
  | fails exit => cases exit <;> cases there
  | answers => cases outcome <;> cases there
  | _ => cases there

end

namespace System
variable {first failing before after system : System C} {program : C.Label → Code C} {memory : C.Memory} {code : Code C}
  {me : ThreadId} {job : Job C} {gate : GateRef} {base : List (Frame C)} {outcome exit : Exit C} {thread : Thread C} {turn : Bool}
  {scope : ScopeRef} {key : String} {grip : Grip}

theorem Completes.later (completes : Completes first before me scope key) (next : Step before after) :
    Completes first after me scope key := by
  obtain ⟨one, two, start, builds, moved, last⟩ := completes
  exact ⟨one, two, start, builds, moved, .step last next⟩

-- The key has been given up by a thread, and whatever stands under it now has been made by another one since.
def GaveUp (failing system : System C) (me : ThreadId) (scope : ScopeRef) (key : String) : Prop :=
  ∃ released, Runs failing released ∧ Runs released system ∧ ¬(released.life scope).Emptied ∧ (released.world.cell scope).Vacant key ∧
    ∀ object, (key, object) ∈ system.world.stored scope → ∃ other, other ≠ me ∧ Completes released system other scope key

theorem GaveUp.later (gave : GaveUp failing before me scope key) (idle : ¬before.Produces me scope key) (next : Step before after) :
    GaveUp failing after me scope key := by
  obtain ⟨released, first, later, unemptied, vacant, others⟩ := gave
  refine ⟨released, first, .step later next, unemptied, vacant, fun object stored => ?_⟩
  rcases step_origin next stored with old | ⟨other, builds, moved⟩
  · obtain ⟨other, apart, completes⟩ := others object old
    exact ⟨other, apart, completes.later next⟩
  · refine ⟨other, ?_, _, _, later, builds, moved, .refl _⟩
    rintro rfl
    exact idle builds

structure Retreating (failing : System C) (me : ThreadId) (job : Job C) (gate : GateRef) (base : List (Frame C)) (outcome : Exit C)
    (system : System C) (turn : Bool) (thread : Thread C) : Prop where
  running : system.threads[me]? = some thread
  retreats : Retreats job gate base outcome turn thread
  unemptied : ¬(system.life job.request.scope).Emptied
  barred : turn = true → (system.life job.request.scope).Barred job.request.key gate
  given : turn = false → GaveUp failing system me job.request.scope job.request.key

theorem Retreating.unbuilding (here : Retreating failing me job gate base outcome system turn thread) :
    ¬system.Produces me scope key := by
  rintro ⟨_, _, _, _, _, running, _⟩
  cases here.running.symm.trans running
  exact Retreats.idle here.retreats

theorem held_grips {rest : List (ScopeRef × Grip)} (running : system.threads[me]? = some thread)
    (held : thread.posture.grips = (scope, grip) :: rest) : (system.life scope).grips me = grip :: List.about scope rest := by
  simp [life, posture_found running, Posture.part, held, List.about]

theorem held_known {rest : List (ScopeRef × Grip)} (path : Runs (initial program memory code) system)
    (running : system.threads[me]? = some thread) (held : thread.posture.grips = (scope, grip) :: rest) :
    (system.world.scope? scope).isSome := by
  refine (runs_grounded path).grips me scope grip ?_
  rw [posture_found running, held]
  exact List.mem_cons_self

theorem Retreating.starts (path : Runs (initial program memory code) failing)
    (fails : failing.threads[me]? = some ⟨exit.focus, .factory job gate :: base⟩) :
    Retreating failing me job gate base (job.outcome exit) failing true ⟨exit.focus, .factory job gate :: base⟩ := by
  have lived := runs_lived path job.request.scope
  have making : Grip.making job.request.key gate ∈ (failing.life job.request.scope).grips me :=
    frame_grip fails List.mem_cons_self rfl
  refine ⟨fails, .fails exit rfl, fun emptied => ?_, fun _ => ⟨?_, ?_⟩, nofun⟩
  · cases lived.shut emptied me _ making
  · exact lived.content.making me _ making _ rfl
  · exact lived.accounts.gates me _ making _ _ rfl

theorem near_cell {world : World C} {effect : Effect C} {items : List (Item C)} (known : (world.scope? scope).isSome)
    (near : effect = .still ∨ effect.target? = some scope) :
    (record (effect.apply me world) me items).cell scope = effect.change me (world.cell scope) := by
  rw [record_cell]
  rcases near with rfl | target
  · rfl
  · exact (target_cell target known).trans (if_pos rfl)

theorem moved_cell {world : World C} {moves : List (Move C)} (known : (world.scope? scope).isSome)
    (near : ∀ move ∈ moves, move.effect = .still ∨ move.effect.target? = some scope) :
    (world.moved me moves).cell scope = moves.foldl (fun cell move => move.effect.change me cell) (world.cell scope) := by
  induction moves generalizing world with
  | nil => rfl
  | cons move rest ih =>
    obtain ⟨first, others⟩ := List.forall_mem_cons.mp near
    have there : (record (move.effect.apply me world) me move.items).cell scope = move.effect.change me (world.cell scope) :=
      near_cell known first
    rw [List.foldl_cons, ← there]
    exact ih (apply_isSome known) others

theorem Retreating.frees (path : Runs (initial program memory code) before) (barred : (before.life job.request.scope).Barred job.request.key gate)
    (unemptied : ¬(before.life job.request.scope).Emptied)
    (running : before.threads[me]? = some ⟨.leave job.request.scope (.turn gate) outcome, base⟩) :
    ((before.perform me (Move.leave job.request.scope (.turn gate) outcome base)).world.cell job.request.scope).Vacant job.request.key := by
  have lived := runs_lived path job.request.scope
  have held := held_grips running rfl
  have changed : (before.perform me (Move.leave job.request.scope (.turn gate) outcome base)).world.cell job.request.scope =
      { before.world.cell job.request.scope with turns := (before.world.cell job.request.scope).turns.set gate none } :=
    near_cell (held_known path running rfl) (.inr rfl)
  rw [changed]
  refine ⟨(lived.content.full unemptied).absent.mpr barred.unstored,
    barred.unowned lived.accounts (runs_ledger path job.request.scope) held, fun place there => ?_⟩
  cases barred.placed.symm.trans there
  have mine : (before.world.cell job.request.scope).turns[gate]? = some (some me) :=
    lived.accounts.mine (held ▸ List.mem_cons_self) rfl
  exact List.getElem?_set_self (List.getElem?_eq_some_iff.mp mine).1

theorem Retreating.keeps {move : Move C} (known : (before.world.scope? job.request.scope).isSome)
    (barred : (before.life job.request.scope).Barred job.request.key gate) (quiet : ∀ item ∈ move.items, Item.isPlain item = true)
    (near : move.effect = .still ∨ move.effect.target? = some job.request.scope)
    (gates : ∀ cell, (move.effect.change me cell).gates.gates = cell.gates.gates) :
    ((before.perform me move).life job.request.scope).Barred job.request.key gate := by
  constructor
  · have stored : (before.perform me move).world.stored job.request.scope = before.world.stored job.request.scope := by
      rw [perform, record_stored, plain_stored quiet, List.append_nil]
    rw [life, stored]
    exact barred.unstored
  · have changed : (before.perform me move).world.cell job.request.scope = move.effect.change me (before.world.cell job.request.scope) :=
      near_cell known near
    rw [life, changed, gates]
    exact barred.placed

theorem records_plain : ∀ item ∈ job.records exit, Item.isPlain item = true := by
  cases exit <;> simp [Job.records, Item.isPlain]

theorem Retreating.step (path : Runs (initial program memory code) before) (onward : Runs failing before)
    (here : Retreating failing me job gate base outcome before turn thread) (unanswered : ¬before.Answered me base)
    (next : Step before after) : ∃ turn thread, Retreating failing me job gate base outcome after turn thread := by
  have lived := runs_lived path job.request.scope
  have away : ∀ exit : Exit C, thread ≠ ⟨exit.focus, base⟩ := by
    rintro exit rfl
    exact unanswered ⟨exit, here.running⟩
  obtain ⟨grip, held, turns⟩ := here.retreats.held away
  have mine := held_grips here.running held
  have inside : (before.life job.request.scope).grips me ≠ [] := by
    rw [mine]
    exact List.cons_ne_nil _ _
  have unemptied := Life.stays_open lived.accounts lived.orderly inside here.unemptied (next_life path next job.request.scope)
  rcases step_apart next here.running here.retreats.busy with moved | ⟨still, _⟩
  · have placed (move : Move C) : (before.perform me move).threads[me]? = some ⟨move.focus, move.frames⟩ :=
      List.getElem?_set_self (List.getElem?_eq_some_iff.mp here.running).1
    have known := held_known path here.running held
    have retreats := here.retreats
    cases retreats with
    | fails exit same =>
      subst same
      cases (straight_advances here.running (exit_busy exit) fun _ => exit_next).symm.trans moved
      exact ⟨true, _, placed _, .finishes, unemptied, fun _ =>
        Retreating.keeps known (here.barred rfl) records_plain (.inl rfl) fun _ => rfl, nofun⟩
    | finishes =>
      cases (straight_advances here.running rfl fun _ => rfl).symm.trans moved
      exact ⟨true, _, placed _, .yields, unemptied, fun _ =>
        Retreating.keeps known (here.barred rfl) (List.forall_mem_nil _) (.inr rfl) fun _ => rfl, nofun⟩
    | yields =>
      cases (straight_advances here.running rfl fun _ => rfl).symm.trans moved
      refine ⟨false, _, placed _, .leaves, unemptied, nofun, fun _ => ?_⟩
      refine ⟨_, .step onward next, .refl _, unemptied, Retreating.frees path (here.barred rfl) here.unemptied here.running, fun object stored => ?_⟩
      have kept : ((before.perform me (Move.leave job.request.scope (.turn gate) outcome base)).life job.request.scope).Barred
          job.request.key gate := Retreating.keeps known (here.barred rfl) (List.forall_mem_nil _) (.inr rfl) fun _ => rfl
      exact absurd (List.mem_map_of_mem stored) kept.unstored
    | leaves =>
      cases (straight_advances here.running rfl fun _ => rfl).symm.trans moved
      exact ⟨false, _, placed _, .answers, unemptied, nofun, fun _ => (here.given rfl).later here.unbuilding next⟩
    | answers => exact absurd rfl (away outcome)
  · refine ⟨turn, thread, still, here.retreats, unemptied, fun firm => ?_, fun past => (here.given past).later here.unbuilding next⟩
    refine (here.barred firm).apart lived.accounts lived.orderly (mine ▸ List.mem_cons_self) (turns firm) ?_ (next_life path next _)
    exact (held_grips still held).trans mine.symm

theorem awaits_retreating (path : Runs (initial program memory code) failing)
    (fails : failing.threads[me]? = some ⟨exit.focus, .factory job gate :: base⟩) (waits : Awaits me base failing system) :
    ∃ turn thread, Retreating failing me job gate base (job.outcome exit) system turn thread := by
  induction waits with
  | refl => exact ⟨true, _, .starts path fails⟩
  | step waits unanswered next ih =>
    obtain ⟨turn, thread, here⟩ := ih
    exact here.step (path.trans waits.runs) waits.runs unanswered next

theorem straight_origin {moves : List (Move C)} {answer : Exit C} {object : InstanceRef} (running : failing.threads[me]? = some thread)
    (straight : Straight me base answer thread moves) (unstoring : ∀ item ∈ told moves, ∀ scope key object, item ≠ .stored scope key object)
    (waits : Awaits me base failing system) (stored : (key, object) ∈ system.world.stored scope) :
    (key, object) ∈ failing.world.stored scope ∨ ∃ other, other ≠ me ∧ Completes failing system other scope key := by
  induction waits with
  | refl => exact .inl stored
  | @step before after waits unanswered next ih =>
    rcases step_origin next stored with old | ⟨other, builds, moved⟩
    · exact (ih old).imp_right fun ⟨other, apart, completes⟩ => ⟨other, apart, completes.later next⟩
    · refine .inr ⟨other, ?_, _, _, waits.runs, builds, moved, .refl _⟩
      rintro rfl
      obtain ⟨datum, hooks, one, gate, frames, acts, _⟩ := builds
      obtain ⟨thread, done, left, there, onward, rfl, _⟩ := awaits_straight running straight waits
      cases acts.symm.trans there
      generalize same : Thread.mk (.run (.built datum hooks)) (.factory one gate :: frames) = thread at onward
      cases onward with
      | arrives => cases answer <;> cases same
      | step _ _ sure =>
        subst same
        cases sure before.world
        exact unstoring (.stored one.request.scope one.request.key (before.world.nextInstance one.request.scope))
          (by simp [told, Move.keep]) _ _ _ rfl

structure Unmade (first system : System C) (scope : ScopeRef) (key : String) : Prop where
  vacant : (system.world.cell scope).Vacant key
  unstored : key ∉ (system.world.stored scope).map Prod.fst
  untold : ∀ since, Runs first since → Runs since system → (since.world.scope? scope).isSome →
    ∃ news, system.world.chronicle = since.world.chronicle ++ news ∧ .emitted scope.registry (.created scope.id key) ∉ news
  unhooked : ∀ call index, .hook call ∈ system.world.chronicle → call.object = .kept scope index →
    ∃ other, other ≠ key ∧ (other, .kept scope index) ∈ system.world.stored scope

theorem vacant_unmade (path : Runs (initial program memory code) system) (known : (system.world.scope? scope).isSome)
    (unemptied : ¬(system.life scope).Emptied) (vacant : (system.world.cell scope).Vacant key) :
    Unmade (initial program memory code) system scope key := by
  have lived := runs_lived path scope
  have unstored : key ∉ (system.world.stored scope).map Prod.fst := (lived.content.full unemptied).absent.mp vacant.absent
  have alive : system.world.isAlive scope = true := alive_iff.mpr ⟨known, fun destroyed => unemptied (lived.orderly.past destroyed)⟩
  refine ⟨vacant, unstored, fun since reached onward there => ?_, fun call index called kept => ?_⟩
  · obtain ⟨news, same, told⟩ := created_stored reached there onward alive
    exact ⟨news, same, fun created => unstored (told key created)⟩
  · obtain ⟨other, stored⟩ := hooked_stored path called kept
    refine ⟨other, ?_, stored⟩
    rintro rfl
    exact unstored (List.mem_map_of_mem stored)

-- Where a thread has given a key up. Only another one may have made something of it since, and as long as no other has come to its
-- turn whoever resolves it is the next to make it.
structure Released (first released system : System C) (me : ThreadId) (scope : ScopeRef) (key : String) : Prop where
  onward : Runs released system
  unmade : Unmade first released scope key
  others : ∀ object, (key, object) ∈ system.world.stored scope → ∃ other, other ≠ me ∧ Completes released system other scope key
  retries : ∀ later, Runs released later → (later.world.cell scope).state = .active →
    later.Retries scope key ∨ Claimed released later scope key

structure Traceless (first failing : System C) (me : ThreadId) (job : Job C) (exit : Exit C) (base : List (Frame C)) : Prop where
  -- it goes back to its caller, and nothing that the others do holds it up
  caller : ∃ next frames, base = .user next :: frames
  onward : ∀ system, Awaits me base failing system → ¬system.Answered me base → ∃ after, system.advance me = some after
  answer : ∀ system answer, Awaits me base failing system → system.threads[me]? = some ⟨Exit.focus answer, base⟩ →
    answer = job.outcome exit ∧ system.world.doneBy me = failing.world.doneBy me ++ job.records exit
  -- when it is back, the key has been given up
  released : ∀ system, Awaits me base failing system → system.Answered me base →
    ∃ released, Runs failing released ∧ Released first released system me job.request.scope job.request.key
  alone : ∃ last, Stretch me (fun _ => True) failing last ∧ last.threads[me]? = some ⟨(job.outcome exit).focus, base⟩ ∧
    Unmade first last job.request.scope job.request.key
  -- what was stored before stays, and what is new has been completed meanwhile
  stays : ∀ since system name entry, Runs first since → Runs since failing → Awaits me base failing system →
    (since.world.cell job.request.scope).store.get? name = some entry →
      (system.world.cell job.request.scope).store.get? name = some entry
  origin : ∀ since system name object, Runs since failing → Awaits me base failing system →
    (name, object) ∈ system.world.stored job.request.scope →
      (name, object) ∈ since.world.stored job.request.scope ∨ ∃ other, Completes since system other job.request.scope name

structure PassedOn (failing : System C) (me : ThreadId) (cause : Cause) (job : Job C) (around : List (Job C)) (outer : List (Frame C)) :
    Prop where
  onward : ∀ system, Awaits me outer failing system → ¬system.Answered me outer → ∃ after, system.advance me = some after
  answer : ∀ system answer, Awaits me outer failing system → system.threads[me]? = some ⟨Exit.focus answer, outer⟩ →
    answer = .back (.fault (outermost cause job around)) ∧
      system.world.doneBy me = failing.world.doneBy me ++ failures cause (job :: around)
  constructions : (outermost cause job around).constructions =
    ((job :: around).map fun one => (one.request.scope.id, one.request.key)).reverse ++ cause.constructions
  chain : (outermost cause job around).message :: (outermost cause job around).chain =
    ((faults cause (job :: around)).map Fault.message).reverse ++ cause.message :: cause.chain
  records : (failures cause (job :: around)).length = around.length + 1
  unstored : ∀ one ∈ job :: around, one.request.key ∉ (failing.world.stored one.request.scope).map Prod.fst
  others : ∀ system, Awaits me outer failing system → ∀ one ∈ job :: around, ∀ object,
    (one.request.key, object) ∈ system.world.stored one.request.scope →
      ∃ other, other ≠ me ∧ Completes failing system other one.request.scope one.request.key
  alone : ∃ last, Stretch me (fun _ => True) failing last ∧ last.threads[me]? = some ⟨.back (.fault (outermost cause job around)), outer⟩ ∧
    ∀ one ∈ job :: around, one.request.key ∉ (last.world.stored one.request.scope).map Prod.fst

theorem retreat_cell {world : World C} (known : (world.scope? job.request.scope).isSome) :
    (world.moved me (job.retreat gate exit base)).cell job.request.scope =
      { world.cell job.request.scope with
        gates := (world.cell job.request.scope).gates.finish job.request.key me
        turns := (world.cell job.request.scope).turns.set gate none
        sharing := (world.cell job.request.scope).sharing.erase me } := by
  rw [moved_cell known]
  · rfl
  · simp [Job.retreat, Move.leave, Move.changing, Effect.target?]

theorem retreat_vacant (path : Runs (initial program memory code) failing)
    (fails : failing.threads[me]? = some ⟨exit.focus, .factory job gate :: base⟩) :
    ((failing.world.moved me (job.retreat gate exit base)).cell job.request.scope).Vacant job.request.key := by
  have here := Retreating.starts path fails
  have barred := here.barred rfl
  have lived := runs_lived path job.request.scope
  have held := held_grips fails failed_grips
  have mine : (failing.world.cell job.request.scope).turns[gate]? = some (some me) :=
    lived.accounts.mine (held ▸ List.mem_cons_self) rfl
  rw [retreat_cell (held_known path fails failed_grips)]
  refine ⟨(lived.content.full here.unemptied).absent.mpr barred.unstored, ?_, fun place there => ?_⟩
  · simp [Gates.finish, Table.get?_erase]
  · cases barred.placed.symm.trans there
    exact List.getElem?_set_self (List.getElem?_eq_some_iff.mp mine).1

theorem factory_caller (path : Runs (initial program memory code) failing)
    (fails : failing.threads[me]? = some ⟨exit.focus, .factory job gate :: base⟩) : ∃ next frames, base = .user next :: frames := by
  have borne := (runs_sound path _ (List.mem_of_getElem? fails)).stacked.1
  cases base with
  | nil => cases borne
  | cons frame frames =>
    cases frame with
    | user next => exact ⟨next, frames, rfl⟩
    | _ => cases borne

theorem failed_traceless (path : Runs (initial program memory code) failing)
    (fails : failing.threads[me]? = some ⟨exit.focus, .factory job gate :: base⟩) :
    Traceless (initial program memory code) failing me job exit base := by
  have straight : Straight me base (job.outcome exit) ⟨exit.focus, .factory job gate :: base⟩ _ :=
    retreat_straight (List.suffix_refl _) .arrives
  have tells : told (job.retreat gate exit base ++ []) = job.records exit := by rw [List.append_nil, told_retreat]
  have known := held_known path fails failed_grips
  have unmade {system : System C} (onward : Runs failing system) := @vacant_unmade _ system _ _ _ job.request.scope job.request.key
    (path.trans onward) (runs_known onward known)
  refine ⟨factory_caller path fails, fun _ => straight_onward fails straight, fun _ _ waits there => ?_, fun system waits answered => ?_,
    ?_, fun since system name entry reached onward waits there => ?_, fun since system name object onward waits stored => ?_⟩
  · rw [← tells]
    exact straight_answers fails straight waits there
  · obtain ⟨turn, thread, here⟩ := awaits_retreating path fails waits
    obtain ⟨other, answers⟩ := answered
    have retreats := here.retreats
    cases here.running.symm.trans answers
    obtain ⟨released, first, later, unemptied, vacant, others⟩ := here.given retreats.given
    refine ⟨released, first, later, unmade first unemptied vacant, others, fun after onward active => ?_⟩
    refine (vacant_lasts (path.trans first) onward vacant).imp_left fun vacant => ?_
    exact vacant_retries ((path.trans first).trans onward) active (runs_known (first.trans onward) known) vacant
  · obtain ⟨last, stretch, waits, answers, world⟩ := straight_stretch fails straight
    obtain ⟨turn, thread, here⟩ := awaits_retreating path fails waits
    refine ⟨last, stretch, answers, unmade waits.runs here.unemptied ?_⟩
    rw [world, List.append_nil]
    exact retreat_vacant path fails
  · obtain ⟨turn, thread, here⟩ := awaits_retreating path fails waits
    exact entries_stay reached (onward.trans waits.runs) here.unemptied there
  · exact runs_origin (onward.trans waits.runs) stored

theorem moved_stored {world : World C} {moves : List (Move C)} (plain : ∀ item ∈ told moves, Item.isPlain item = true) :
    (world.moved me moves).stored scope = world.stored scope := by
  induction moves generalizing world with
  | nil => rfl
  | cons move rest ih =>
    obtain ⟨first, others⟩ := List.forall_mem_append.mp plain
    exact (ih others).trans (by rw [record_stored, plain_stored first, List.append_nil])

theorem failures_plain {cause : Cause} {jobs : List (Job C)} : ∀ item ∈ failures cause jobs, Item.isPlain item = true := by
  induction jobs generalizing cause with
  | nil => exact List.forall_mem_nil _
  | cons job rest ih => exact List.forall_mem_cons.mpr ⟨rfl, ih⟩

theorem enclosed_factory {around : List (Encloser C)} {one : Job C} (member : one ∈ job :: around.map Encloser.job) :
    ∃ place, Frame.factory one place ∈ .factory job gate :: (enclosing around ++ base) := by
  rcases List.mem_cons.mp member with rfl | below
  · exact ⟨gate, List.mem_cons_self⟩
  · obtain ⟨encloser, there, rfl⟩ := List.mem_map.mp below
    refine ⟨encloser.gate, List.mem_cons_of_mem _ (List.mem_append_left _ ?_)⟩
    exact List.mem_flatMap.mpr ⟨encloser, there, List.mem_cons_of_mem _ List.mem_cons_self⟩

theorem enclosed_passedOn {around : List (Encloser C)} {reply : Reply C} (path : Runs (initial program memory code) failing)
    (fails : failing.threads[me]? = some ⟨.back reply, .factory job gate :: (enclosing around ++ base)⟩)
    (passes : ∀ one ∈ around, one.Passes) :
    PassedOn failing me reply.reason job (around.map Encloser.job) base := by
  obtain ⟨moves, straight, tells⟩ : ∃ moves, Straight me base _ ⟨.back reply, .factory job gate :: (enclosing around ++ base)⟩ moves ∧ _ :=
    enclosed_straight passes
  have plain : ∀ item ∈ told moves, Item.isPlain item = true := tells ▸ failures_plain
  have unstored : ∀ one ∈ job :: around.map Encloser.job, one.request.key ∉ (failing.world.stored one.request.scope).map Prod.fst := by
    intro one member
    obtain ⟨_, there⟩ := enclosed_factory member
    exact factory_unstored path fails there rfl
  refine ⟨fun _ => straight_onward fails straight, fun _ _ waits there => ?_, outermost_constructions, outermost_chain, ?_, unstored,
    fun system waits one member object stored => ?_, ?_⟩
  · rw [← tells]
    exact straight_answers fails straight waits there
  · rw [failures_length, List.length_cons, List.length_map]
  · refine (straight_origin fails straight ?_ waits stored).resolve_left fun old => unstored one member (List.mem_map_of_mem old)
    rintro item told scope key object rfl
    cases plain _ told
  · obtain ⟨last, stretch, _, answers, world⟩ := straight_stretch fails straight
    refine ⟨last, stretch, answers, fun one member => ?_⟩
    rw [world, moved_stored plain]
    exact unstored one member

-- A factory that comes back without an instance, with an error or with a panic, leaves nothing behind: the key is
-- unregistered and its gate free, nothing has been told of it and no hook called for it, and of what else the scope stores nothing
-- is lost and nothing new but what others completed. An error goes from caller to caller as long as each passes it on.
theorem failed_construction_leaves_no_trace (path : Runs (initial program memory code) failing)
    (fails : failing.threads[me]? = some ⟨exit.focus, .factory job gate :: base⟩) :
    Traceless (initial program memory code) failing me job exit base ∧
    ∀ reply around outer, exit = .back reply → base = enclosing around ++ outer → (∀ one ∈ around, one.Passes) →
      PassedOn failing me reply.reason job (around.map Encloser.job) outer := by
  refine ⟨failed_traceless path fails, ?_⟩
  rintro reply around outer rfl rfl passes
  exact enclosed_passedOn path fails passes

def passedOn : Reply ⟨Unit, Unit, Unit, Unit⟩ → Code ⟨Unit, Unit, Unit, Unit⟩
  | .fault fault => .fail (.fault fault)
  | _ => .done

def innerJob : Job ⟨Unit, Unit, Unit, Unit⟩ :=
  ⟨⟨⟨0, ⟨.session, "a"⟩, 0⟩, "inner", "Inner"⟩, fun _ => .fail (.words "no" [])⟩

def outerJob : Job ⟨Unit, Unit, Unit, Unit⟩ :=
  ⟨⟨⟨0, ⟨.session, "a"⟩, 0⟩, "outer", "Outer"⟩, fun _ => .resolve innerJob.request innerJob.factory passedOn⟩

def failingPair : System ⟨Unit, Unit, Unit, Unit⟩ :=
  initial (fun _ => .done) () <| .call (.establish {}) fun _ => .call (.begin 0 ⟨.session, "a"⟩) fun _ =>
    .resolve outerJob.request outerJob.factory fun _ => .done

theorem inner_fails :
    Traceless failingPair (run 28 failingPair) 0 innerJob (.back (.failed (.words "no" [])))
      (enclosing [⟨passedOn, outerJob, 0⟩] ++ [.user fun _ => .done]) ∧
    PassedOn (run 28 failingPair) 0 (.words "no" []) innerJob [outerJob] [.user fun _ => .done] := by
  have fails : (run 28 failingPair).threads[0]? = some ⟨(Exit.back (.failed (.words "no" []))).focus,
      .factory innerJob 1 :: (enclosing [⟨passedOn, outerJob, 0⟩] ++ [.user fun _ => .done])⟩ := rfl
  have left := failed_construction_leaves_no_trace (run_runs 28 failingPair) fails
  refine ⟨left.1, left.2 _ [⟨passedOn, outerJob, 0⟩] _ rfl rfl fun one member fault => ?_⟩
  cases List.mem_singleton.mp member
  rfl

end System
end Lifespan
