import Lifespan.Proofs.Access
import Lifespan.Proofs.Ledger

-- Who waits for whom at the gates of one scope. No thread ever waits for itself there, as whoever
-- would come to do so is refused at the check before the line, and nobody else is.
namespace Lifespan
open Relation

variable {C : Client}

namespace System

def Waits (system : System C) (scope : ScopeRef) (key : String) (thread : ThreadId) : Prop :=
  ∃ job gate frames, system.threads[thread]? = some ⟨.turn job gate, frames⟩ ∧
    job.request.scope = scope ∧ job.request.key = key

-- The thread is named as the builder of the key, and has not given that up yet.
def Builds (system : System C) (scope : ScopeRef) (key : String) (thread : ThreadId) : Prop :=
  ∃ grip, (scope, grip) ∈ (system.posture thread).grips ∧ grip.building? = some key

def Blocks (system : System C) (scope : ScopeRef) (waiter builder : ThreadId) : Prop :=
  ∃ key, system.Waits scope key waiter ∧ system.Builds scope key builder

def Cyclic (system : System C) (scope : ScopeRef) (key : String) (me : ThreadId) : Prop :=
  ∃ builder, system.Builds scope key builder ∧ ReflTransGen (system.Blocks scope) builder me

end System

section
variable {scope : ScopeRef} {key : String} {gate : GateRef}

theorem waiting_focus {focus : Focus C} (acts : focus.grip? = some (scope, .waiting key gate)) :
    ∃ job, focus = .turn job gate ∧ job.request.scope = scope ∧ job.request.key = key := by
  cases focus with
  | turn job => cases acts; exact ⟨job, rfl, rfl, rfl⟩
  | check point | vouch point => cases point with
    | shared => cases acts
    | sight place => cases place <;> cases acts
  | look sight => cases sight <;> cases acts
  | leave _ hold => cases hold <;> cases acts
  | _ => cases acts

end

namespace Life
variable {life : Life C} {me : ThreadId}

theorem called_alone (accounts : life.Accounts) (nested : life.Nested) (called : .called key gate ∈ life.grips me)
    (thread : ThreadId) : key ∉ (life.grips thread).filterMap Grip.building? := by
  cases held : life.grips me with
  | nil => rw [held] at called; cases called
  | cons first rest =>
    rw [held] at called
    rcases List.mem_cons.mp called with rfl | below
    · have alone := lone_builder accounts held rfl rfl
      by_cases mine : thread = me
      · subst mine
        rw [held, List.filterMap_cons_none rfl]
        exact alone.1
      · exact alone.2 thread mine
    · cases nested me _ (by rw [held]; exact below)

end Life

namespace System
variable {system start before after check : System C} {program : C.Label → Code C} {memory : C.Memory} {code : Code C}
  {scope : ScopeRef} {key : String} {me waiter builder : ThreadId} {thread : Thread C} {job : Job C}
  {base frames : List (Frame C)}

theorem life_grip {grip : Grip} : grip ∈ (system.life scope).grips me ↔ (scope, grip) ∈ (system.posture me).grips := by
  constructor
  · intro member
    obtain ⟨⟨place, other⟩, there, same⟩ := List.mem_filterMap.mp member
    simp only [Option.ite_none_right_eq_some, Option.some.injEq] at same
    obtain ⟨rfl, rfl⟩ := same
    exact there
  · exact fun member => List.mem_filterMap.mpr ⟨_, member, if_pos rfl⟩

theorem waits_iff : system.Waits scope key me ↔ ∃ gate, (scope, .waiting key gate) ∈ (system.posture me).grips := by
  constructor
  · rintro ⟨job, gate, frames, running, rfl, rfl⟩
    rw [posture_found running]
    exact ⟨gate, List.mem_cons_self ..⟩
  · rintro ⟨gate, member⟩
    cases running : system.threads[me]? with
    | none => simp [posture, running] at member
    | some thread =>
      rw [posture_found running] at member
      rcases List.mem_append.mp member with acts | below
      · obtain ⟨job, same, here, wanted⟩ := waiting_focus (Option.mem_toList.mp acts)
        obtain ⟨focus, frames⟩ := thread
        exact ⟨job, gate, frames, by rw [← same]; exact running, here, wanted⟩
      · obtain ⟨frame, _, holds⟩ := List.mem_filterMap.mp below
        cases frame_idle holds

theorem builds_entry : system.Builds scope key me ↔ key ∈ ((system.life scope).grips me).filterMap Grip.building? := by
  simp only [Builds, List.mem_filterMap, life_grip]

-- What the gates say about waiting and building is what the threads do.
theorem runs_builds (path : Runs (initial program memory code) system) :
    system.Builds scope key builder ↔ (system.world.cell scope).gates.owners.get? key = some builder :=
  builds_entry.trans ((runs_ledger path scope).owners key builder).symm

theorem runs_blocks (path : Runs (initial program memory code) system) :
    system.Blocks scope waiter builder ↔ (system.world.cell scope).gates.Follows waiter builder := by
  have ledger := runs_ledger path scope
  rw [Gates.follows_iff]
  constructor
  · rintro ⟨key, waits, builds⟩
    obtain ⟨gate, member⟩ := waits_iff.mp waits
    have entered := (ledger.waiting waiter key).mpr (List.mem_filterMap.mpr ⟨_, life_grip.mpr member, rfl⟩)
    exact ⟨key, entered, (runs_builds path).mp builds⟩
  · rintro ⟨key, waits, owns⟩
    refine ⟨key, ?_, (runs_builds path).mpr owns⟩
    obtain ⟨grip, held, awaited⟩ := List.mem_filterMap.mp ((ledger.waiting waiter key).mp waits)
    cases grip with
    | waiting => cases awaited; exact waits_iff.mpr ⟨_, life_grip.mp held⟩
    | called =>
      cases awaited
      exact absurd ((ledger.owners key builder).mp owns)
        (Life.called_alone (runs_lived path scope).accounts (life_nested _ _) held builder)
    | _ => cases awaited

theorem same_blocks (path : Runs (initial program memory code) system) (scope : ScopeRef) :
    system.Blocks scope = (system.world.cell scope).gates.Follows :=
  funext fun _ => funext fun _ => propext (runs_blocks path)

theorem runs_acyclic (path : Runs (initial program memory code) system) (scope : ScopeRef) (thread : ThreadId) :
    ¬TransGen (system.Blocks scope) thread thread := by
  rw [same_blocks path]
  exact (runs_ledger path scope).acyclic thread

theorem runs_cyclic (path : Runs (initial program memory code) system) :
    system.Cyclic scope key me ↔ (system.world.cell scope).gates.waitsOn key me = true := by
  unfold Cyclic
  simp only [Gates.closes_iff, Gates.Closes, same_blocks path, runs_builds path]

theorem queue_decides (path : Runs (initial program memory code) system)
    (running : system.threads[me]? = some ⟨.queue job, frames⟩) :
    (system.Cyclic job.request.scope job.request.key me →
      system.advance me = some ⟨system.world, system.threads.set me ⟨.leave job.request.scope .lifecycle
        (.back (.fault (.cyclic job.request.scope.id job.request.key))), frames⟩⟩) ∧
    (¬system.Cyclic job.request.scope job.request.key me → ∃ gate,
      system.advance me = some ⟨(Effect.queue job.request.scope job.request.key).apply me system.world,
        system.threads.set me ⟨.turn job gate, frames⟩⟩) := by
  have member : (job.request.scope, .line) ∈ (system.posture me).grips := by
    rw [posture_found running]
    exact List.mem_cons_self ..
  obtain ⟨cell, found⟩ := Option.isSome_iff_exists.mp ((runs_grounded path).grips me _ _ member)
  have next : system.advance me = (Move.queue system.world me job frames).map (system.perform me) := advance_next running rfl
  rw [runs_cyclic path, cell_found found, next]
  constructor
  · intro cyclic
    simp only [Move.queue, found, Option.map_some, cyclic, if_true]
    rfl
  · intro clear
    simp only [Move.queue, found, Option.map_some, clear]
    exact ⟨_, rfl⟩

end System

def Effect.isOutside : Effect C → Bool
  | still | share _ | unshare _ => true
  | _ => false

def Job.refusal (job : Job C) : Exit C := .back (.fault (.cyclic job.request.scope.id job.request.key))

inductive Approaches (job : Job C) : List (Frame C) → Thread C → Prop
  | asks : Approaches job (.user next :: frames) ⟨.run (.resolve job.request job.factory next), frames⟩
  | checks (early : point = .sight (.first job) ∨ point = .shared job) : Approaches job base ⟨.check point, base⟩
  | vouches (early : point = .sight (.first job) ∨ point = .shared job) : Approaches job base ⟨.vouch point, base⟩
  | looks : Approaches job base ⟨.look (.first job), base⟩
  | shares : Approaches job base ⟨.share job, base⟩
  | queues : Approaches job base ⟨.queue job, base⟩
  | leaves (other : exit ≠ job.refusal) : Approaches job base ⟨.leave job.request.scope .lifecycle exit, base⟩
  | answers (exit : Exit C) (other : exit ≠ job.refusal) : Approaches job base ⟨exit.focus, base⟩

inductive Refused (job : Job C) (base : List (Frame C)) : Thread C → Prop
  | leaves : Refused job base ⟨.leave job.request.scope .lifecycle job.refusal, base⟩
  | answers : Refused job base ⟨job.refusal.focus, base⟩

inductive Admitted (job : Job C) (base : List (Frame C)) : Thread C → Prop
  | waits : Admitted job base ⟨.turn job gate, base⟩
  | starts : Admitted job base ⟨.start job gate, base⟩
  | checks : Admitted job base ⟨.check (.sight (.inside job gate)), base⟩
  | vouches : Admitted job base ⟨.vouch (.sight (.inside job gate)), base⟩
  | looks : Admitted job base ⟨.look (.inside job gate), base⟩
  | makes (upper : List (Frame C)) {frame : Frame C} (building : frame.building? = some (job, gate)) :
      Admitted job base ⟨focus, upper ++ frame :: base⟩
  | leaves (other : exit ≠ job.refusal) : Admitted job base ⟨.leave job.request.scope hold exit, base⟩
  | answers (exit : Exit C) (other : exit ≠ job.refusal) : Admitted job base ⟨exit.focus, base⟩

section
variable {world : World C} {me : ThreadId} {effect : Effect C} {scope : ScopeRef} {job : Job C} {base : List (Frame C)}
  {thread : Thread C} {move : Move C} {cell : Scope C}

theorem outside_gates (outside : effect.isOutside = true) :
    ((effect.apply me world).cell scope).gates = (world.cell scope).gates := by
  cases target : effect.target? with
  | none => cases effect <;> cases outside <;> first | rfl | cases target
  | some place =>
    cases found : world.scope? place with
    | none => rw [unknown_apply target found]
    | some cell =>
      rw [target_cell target (by rw [found]; rfl)]
      split
      · cases effect <;> cases outside <;> rfl
      · rfl

theorem sighted_other (sighted : Move.sighted cell job.request = some reply) : .back reply ≠ job.refusal := by
  obtain ⟨entry, _, given⟩ := Option.map_eq_some_iff.mp sighted
  split at given <;> cases given <;> exact nofun

theorem Turn.approaches (turn : Turn world me thread move) (approaches : Approaches job base thread)
    (unanswered : ∀ exit : Exit C, thread ≠ ⟨exit.focus, base⟩) :
    move.effect.isOutside = true ∧ Approaches job base ⟨move.focus, move.frames⟩ ∨ thread = ⟨.queue job, base⟩ := by
  cases approaches with
  | asks =>
    cases turn with
    | resolves => exact .inl ⟨rfl, .checks (.inl rfl)⟩
    | goOn alone | ends alone | panics alone => cases alone
  | checks early =>
    rcases early with rfl | rfl
    · cases turn with
      | admits => exact .inl ⟨rfl, .looks⟩
      | doubts => exact .inl ⟨rfl, .vouches (.inl rfl)⟩
      | refuses => exact .inl ⟨rfl, .answers (.back (.fault (.inactive _))) nofun⟩
    · cases turn with
      | admits => exact .inl ⟨rfl, .queues⟩
      | doubts => exact .inl ⟨rfl, .vouches (.inr rfl)⟩
      | refuses => exact .inl ⟨rfl, .leaves nofun⟩
  | vouches early =>
    rcases early with rfl | rfl
    · cases turn with
      | vouches => exact .inl ⟨rfl, .looks⟩
      | disowns => exact .inl ⟨rfl, .answers (.back (.fault (.inactive _))) nofun⟩
    · cases turn with
      | vouches => exact .inl ⟨rfl, .queues⟩
      | disowns => exact .inl ⟨rfl, .leaves nofun⟩
  | looks =>
    cases turn with
    | sees found sighted => exact .inl ⟨rfl, .answers (.back _) (sighted_other sighted)⟩
    | misses => exact .inl ⟨rfl, .shares⟩
  | shares => cases turn; exact .inl ⟨rfl, .checks (.inr rfl)⟩
  | queues => exact .inr rfl
  | leaves other => cases turn; exact .inl ⟨rfl, .answers _ other⟩
  | answers exit => exact absurd rfl (unanswered exit)

theorem Turn.queued (turn : Turn world me ⟨.queue job, base⟩ move) :
    Refused job base ⟨move.focus, move.frames⟩ ∨ Admitted job base ⟨move.focus, move.frames⟩ := by
  cases turn with
  | balks => exact .inl .leaves
  | queues => exact .inr .waits

theorem Turn.refused (turn : Turn world me thread move) (refused : Refused job base thread)
    (unanswered : ∀ exit : Exit C, thread ≠ ⟨exit.focus, base⟩) :
    move.effect.isOutside = true ∧ Refused job base ⟨move.focus, move.frames⟩ := by
  cases refused with
  | leaves => cases turn; exact ⟨rfl, .answers⟩
  | answers => exact absurd rfl (unanswered job.refusal)

theorem Turn.admitted (turn : Turn world me thread move) (admitted : Admitted job base thread)
    (unanswered : ∀ exit : Exit C, thread ≠ ⟨exit.focus, base⟩) : Admitted job base ⟨move.focus, move.frames⟩ := by
  cases admitted with
  | waits => cases turn; exact .starts
  | starts => cases turn; exact .checks
  | checks =>
    cases turn with
    | admits => exact .looks
    | doubts => exact .vouches
    | refuses => exact .leaves nofun
  | vouches =>
    cases turn with
    | vouches => exact .looks
    | disowns => exact .leaves nofun
  | looks =>
    cases turn with
    | seesInside found sighted => exact .leaves (sighted_other sighted)
    | makes => exact .makes [] rfl
  | makes upper building =>
    rcases turn.building building with ⟨more, still, building, same⟩ | ⟨exit, leaves, same, outcome⟩
    · rw [same]
      exact .makes more building
    · rw [leaves, same]
      rcases outcome with ⟨cause, rfl⟩ | ⟨object, _, rfl⟩ | ⟨panic, rfl⟩ <;> exact .leaves nofun
  | leaves other =>
    cases turn with
    | finishes | yields => exact .leaves other
    | leaves => exact .answers _ other
  | answers exit => exact absurd rfl (unanswered exit)

theorem Refused.answer {exit : Exit C} (refused : Refused job base ⟨exit.focus, base⟩) : exit = job.refusal := by
  generalize same : Thread.mk exit.focus base = thread at refused
  cases refused with
  | leaves => cases exit <;> cases same
  | answers => exact exit_injective (congrArg Thread.focus same)

theorem Admitted.answer {exit : Exit C} (admitted : Admitted job base ⟨exit.focus, base⟩) : exit ≠ job.refusal := by
  generalize same : Thread.mk exit.focus base = thread at admitted
  cases admitted with
  | makes => exact absurd (congrArg Thread.frames same).symm above_ne
  | answers other aside => exact exit_injective (congrArg Thread.focus same) ▸ aside
  | _ => cases exit <;> cases same

theorem Admitted.refocus {focus other : Focus C} {frames : List (Frame C)} (rests : focus.rests = true)
    (admitted : Admitted job base ⟨focus, frames⟩) : Admitted job base ⟨other, frames⟩ := by
  cases admitted with
  | makes upper building => exact .makes upper building
  | answers exit => cases exit <;> cases rests
  | _ => cases rests

theorem Approaches.answer {exit : Exit C} (approaches : Approaches job base ⟨exit.focus, base⟩) : exit ≠ job.refusal := by
  generalize same : Thread.mk exit.focus base = thread at approaches
  cases approaches with
  | answers other aside => exact exit_injective (congrArg Thread.focus same) ▸ aside
  | _ => cases exit <;> cases same

theorem Approaches.busy (approaches : Approaches job base thread) : thread.focus.rests = false := by
  cases approaches with
  | answers exit => cases exit <;> rfl
  | _ => rfl

theorem Refused.busy (refused : Refused job base thread) : thread.focus.rests = false := by cases refused <;> rfl

end

namespace System
variable {system start before after check : System C} {program : C.Label → Code C} {memory : C.Memory} {code : Code C}
  {me other : ThreadId} {thread : Thread C} {job : Job C} {base : List (Frame C)} {exit : Exit C}

-- A resolve comes to its check, takes its step there, and goes on.
structure Decides (me : ThreadId) (job : Job C) (base : List (Frame C)) (start check after system : System C) : Prop where
  comes : Awaits me base start check
  stands : check.threads[me]? = some ⟨.queue job, base⟩
  moves : check.advance me = some after
  onward : Awaits me base after system

theorem awaits_refused (running : start.threads[me]? = some thread) (refused : Refused job base thread)
    (waits : Awaits me base start system) : ∃ thread, system.threads[me]? = some thread ∧ Refused job base thread := by
  refine awaits_keep (P := fun _ => Refused job base) running refused (fun _ _ _ _ _ was => was) ?_ ?_ waits
  · intro _ focus other frames rests refused
    cases refused <;> cases rests
  · exact fun _ _ _ _ turn _ refused unanswered => (turn.refused refused unanswered).2

theorem awaits_admitted (running : start.threads[me]? = some thread) (admitted : Admitted job base thread)
    (waits : Awaits me base start system) (answered : system.threads[me]? = some ⟨exit.focus, base⟩) : exit ≠ job.refusal := by
  have kept : ∃ thread, system.threads[me]? = some thread ∧ Admitted job base thread := by
    refine awaits_keep (P := fun _ => Admitted job base) running admitted (fun _ _ _ _ _ was => was) ?_ ?_ waits
    · exact fun _ _ _ _ rests admitted => admitted.refocus rests
    · exact fun _ _ _ _ turn _ admitted unanswered => turn.admitted admitted unanswered
  obtain ⟨_, still, admitted⟩ := kept
  cases answered.symm.trans still
  exact admitted.answer

theorem awaits_approaches (calls : start.threads[me]? = some thread) (asks : Approaches job base thread)
    (waits : Awaits me base start system) :
    (∃ thread, system.threads[me]? = some thread ∧ Approaches job base thread) ∨
      ∃ check after, Decides me job base start check after system := by
  induction waits with
  | refl => exact .inl ⟨thread, calls, asks⟩
  | @step before after waits unanswered next ih =>
    rcases ih with ⟨thread, running, approaches⟩ | ⟨check, passed, decides⟩
    · rcases step_busy next running approaches.busy with moved | still
      · obtain ⟨move, turn, rfl⟩ := advance_turn running approaches.busy moved
        rcases turn.approaches approaches fun exit same => unanswered ⟨exit, same ▸ running⟩ with ⟨_, later⟩ | rfl
        · exact .inl ⟨_, List.getElem?_set_self (List.getElem?_eq_some_iff.mp running).1, later⟩
        · exact .inr ⟨before, _, waits, running, moved, .refl⟩
      · exact .inl ⟨thread, still, approaches⟩
    · exact .inr ⟨check, passed, { decides with onward := .step decides.onward unanswered next }⟩

theorem Decides.passed (decides : Decides me job base start check after system) :
    ∃ thread, after.threads[me]? = some thread ∧ (Refused job base thread ∨ Admitted job base thread) := by
  obtain ⟨move, turn, rfl⟩ := advance_turn decides.stands rfl decides.moves
  exact ⟨_, List.getElem?_set_self (List.getElem?_eq_some_iff.mp decides.stands).1, turn.queued⟩

theorem Decides.answer (reached : Runs (initial program memory code) start)
    (decides : Decides me job base start check after system)
    (answered : system.threads[me]? = some ⟨exit.focus, base⟩) :
    exit = job.refusal ↔ check.Cyclic job.request.scope job.request.key me := by
  have inside := (List.getElem?_eq_some_iff.mp decides.stands).1
  have step := queue_decides (reached.trans decides.comes.runs) decides.stands
  by_cases cyclic : check.Cyclic job.request.scope job.request.key me
  · cases decides.moves.symm.trans (step.1 cyclic)
    obtain ⟨_, still, refused⟩ := awaits_refused (List.getElem?_set_self inside) .leaves decides.onward
    cases answered.symm.trans still
    exact iff_of_true refused.answer cyclic
  · obtain ⟨gate, moved⟩ := step.2 cyclic
    cases decides.moves.symm.trans moved
    exact iff_of_false (awaits_admitted (List.getElem?_set_self inside) .waits decides.onward answered) cyclic

theorem refused_gates (calls : start.threads[me]? = some thread) (asks : Approaches job base thread)
    (waits : Awaits me base start before) (unanswered : ¬before.Answered me base) (moved : before.advance me = some after)
    (onward : Awaits me base after system) (answered : system.threads[me]? = some ⟨job.refusal.focus, base⟩)
    (scope : ScopeRef) : (after.world.cell scope).gates = (before.world.cell scope).gates := by
  have aside : ∀ thread, before.threads[me]? = some thread → ∀ exit : Exit C, thread ≠ ⟨exit.focus, base⟩ :=
    fun thread running exit same => unanswered ⟨exit, same ▸ running⟩
  rcases awaits_approaches calls asks waits with ⟨thread, running, approaches⟩ | ⟨check, passed, decides⟩
  · obtain ⟨move, turn, rfl⟩ := advance_turn running approaches.busy moved
    rcases turn.approaches approaches (aside thread running) with ⟨outside, _⟩ | rfl
    · exact outside_gates outside
    · cases turn with
      | balks => rfl
      | queues =>
        have inside := (List.getElem?_eq_some_iff.mp running).1
        exact absurd rfl (awaits_admitted (List.getElem?_set_self inside) .waits onward answered)
  · obtain ⟨thread, running, refused | admitted⟩ := decides.passed
    · obtain ⟨thread, running, refused⟩ := awaits_refused running refused decides.onward
      obtain ⟨move, turn, rfl⟩ := advance_turn running refused.busy moved
      exact outside_gates (turn.refused refused (aside thread running)).1
    · have whole := (Awaits.step decides.onward unanswered (.thread me moved)).trans onward
      exact absurd rfl (awaits_admitted running admitted whole answered)

theorem refused_answers (running : system.threads[me]? = some thread) (refused : Refused job base thread) :
    thread = ⟨job.refusal.focus, base⟩ ∨
      ∃ after, system.advance me = some after ∧ after.threads[me]? = some ⟨job.refusal.focus, base⟩ := by
  cases refused with
  | leaves =>
    refine .inr ⟨_, advance_next running rfl, ?_⟩
    exact List.getElem?_set_self (List.getElem?_eq_some_iff.mp running).1
  | answers => exact .inl rfl

-- At the gates of a scope no thread ever waits for itself, over however many others. A resolve is refused
-- if and only if, at its check, whoever builds the wanted key is its own thread or waits for it, and such a
-- resolve touches no gates.
theorem cycles_refused (path : Runs (initial program memory code) system) :
    (∀ scope thread, ¬TransGen (system.Blocks scope) thread thread) ∧
    (∀ me job base, system.threads[me]? = some ⟨.queue job, base⟩ →
      (system.Cyclic job.request.scope job.request.key me →
        ∃ after, system.advance me = some after ∧ after.world = system.world ∧
          ∀ later, Awaits me base after later →
            later.threads[me]? = some ⟨job.refusal.focus, base⟩ ∨
              ∃ answered, later.advance me = some answered ∧ answered.threads[me]? = some ⟨job.refusal.focus, base⟩) ∧
      (¬system.Cyclic job.request.scope job.request.key me →
        ∃ after gate, system.advance me = some after ∧ after.threads[me]? = some ⟨.turn job gate, base⟩)) ∧
    ∀ me job next frames, system.threads[me]? = some ⟨.run (.resolve job.request job.factory next), frames⟩ →
      ∀ later exit, Awaits me (.user next :: frames) system later →
        later.threads[me]? = some ⟨exit.focus, .user next :: frames⟩ →
        (∀ check after, Decides me job (.user next :: frames) system check after later →
          (exit = job.refusal ↔ check.Cyclic job.request.scope job.request.key me)) ∧
        (exit = job.refusal →
          (∃ check after, Decides me job (.user next :: frames) system check after later) ∧
          ∀ before after, Awaits me (.user next :: frames) system before → ¬before.Answered me (.user next :: frames) →
            before.advance me = some after → Awaits me (.user next :: frames) after later →
            ∀ scope, (after.world.cell scope).gates = (before.world.cell scope).gates) := by
  refine ⟨runs_acyclic path, ?_, ?_⟩
  · intro me job base running
    have inside := (List.getElem?_eq_some_iff.mp running).1
    have step := queue_decides path running
    constructor
    · intro cyclic
      refine ⟨_, step.1 cyclic, rfl, fun later waits => ?_⟩
      obtain ⟨thread, still, refused⟩ := awaits_refused (List.getElem?_set_self inside) .leaves waits
      rcases refused_answers still refused with rfl | answers
      · exact .inl still
      · exact .inr answers
    · intro clear
      obtain ⟨gate, moved⟩ := step.2 clear
      exact ⟨_, gate, moved, List.getElem?_set_self inside⟩
  · intro me job next frames calls later exit waits answered
    refine ⟨fun check after decides => decides.answer path answered, ?_⟩
    rintro rfl
    constructor
    · rcases awaits_approaches calls .asks waits with ⟨thread, running, approaches⟩ | decided
      · cases answered.symm.trans running
        exact absurd rfl approaches.answer
      · exact decided
    · intro before after waits unanswered moved onward
      exact refused_gates calls .asks waits unanswered moved onward answered

def buildingPair : System ⟨Nat, Unit, Unit, Unit⟩ :=
  let scope : ScopeRef := ⟨0, ⟨.session, "a"⟩, 0⟩
  let hooks : Hooks (Code ⟨Nat, Unit, Unit, Unit⟩) := ⟨fun _ => .done, fun _ => .done, .done⟩
  let make (mine his : String) : Code ⟨Nat, Unit, Unit, Unit⟩ :=
    .resolve ⟨scope, mine, "One"⟩
      (fun _ => .access (· + 1) fun _ => .await (2 ≤ ·) <|
        .resolve ⟨scope, his, "One"⟩ (fun _ => .built () hooks) fun _ => .built () hooks)
      fun _ => .done
  initial (fun _ => .done) 0 <| .call (.establish {}) fun _ => .call (.begin 0 ⟨.session, "a"⟩) fun _ =>
    .fork 2 (fun index => if index = 0 then make "left" "right" else make "right" "left") fun _ => .done

theorem second_refused : (run 43 buildingPair).Cyclic ⟨0, ⟨.session, "a"⟩, 0⟩ "left" 2 ∧
    ∃ after, (run 43 buildingPair).advance 2 = some after ∧ after.world = (run 43 buildingPair).world := by
  have waits : (run 43 buildingPair).Blocks ⟨0, ⟨.session, "a"⟩, 0⟩ 1 2 :=
    ⟨"right", ⟨_, _, _, rfl, rfl, rfl⟩, .making "right" 1, by decide, rfl⟩
  have cyclic : (run 43 buildingPair).Cyclic ⟨0, ⟨.session, "a"⟩, 0⟩ "left" 2 :=
    ⟨1, ⟨.making "left" 0, by decide, rfl⟩, .single waits⟩
  obtain ⟨after, moved, same, _⟩ := ((cycles_refused (run_runs 43 buildingPair)).2.1 2 _ _ rfl).1 cyclic
  exact ⟨cyclic, after, moved, same⟩

end System
end Lifespan
