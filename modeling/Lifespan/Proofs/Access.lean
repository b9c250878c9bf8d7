import Lifespan.Proofs.Awaiting
import Lifespan.Proofs.Content

-- A call that looks for a singleton, from its beginning to its answer. What it answers with has
-- been stored under the key, and it does not refuse whoever builds something in the scope.
namespace Lifespan
variable {C : Client}

namespace System
variable {system start before after : System C} {program : C.Label → Code C} {memory : C.Memory} {code : Code C}
  {thread : Thread C} {frame : Frame C} {scope : ScopeRef} {grip : Grip} {cell : Scope C} {request : Request}

theorem frame_grip (running : system.threads[me]? = some thread) (member : frame ∈ thread.frames)
    (holds : frame.grip? = some (scope, grip)) : grip ∈ (system.life scope).grips me := by
  have held : (scope, grip) ∈ (system.posture me).grips := by
    rw [posture_found running]
    exact List.mem_append_right _ (List.mem_filterMap.mpr ⟨frame, member, holds⟩)
  exact List.mem_filterMap.mpr ⟨_, held, if_pos rfl⟩

theorem frame_builds (holds : frame.grip? = some (scope, grip)) : grip.builds = true := by
  cases frame <;> cases holds <;> rfl

theorem runs_building (path : Runs (initial program memory code) system) (running : system.threads[me]? = some thread)
    (member : frame ∈ thread.frames) (holds : frame.grip? = some (scope, grip)) :
    ((system.world.cell scope).state = .active ∨ (system.world.cell scope).state = .destructionPending) ∧
      (system.world.cell scope).gates.isBuilding me = true := by
  have lived := runs_lived path scope
  have held := frame_grip running member holds
  have builds := frame_builds holds
  have accounts := lived.accounts
  constructor
  · obtain ⟨owner, ended⟩ := lived.orderly
    cases state : (system.world.cell scope).state with
    | active => exact .inl rfl
    | destructionPending => exact .inr rfl
    | created => exact absurd state ended.begun
    | destroyed =>
      cases lived.shut (lived.orderly.past state) me grip held
      cases builds
  · refine (Gates.isBuilding_iff accounts.positive).mpr ?_
    rw [accounts.depth]
    exact List.countP_pos_iff.mpr ⟨grip, held, builds⟩

theorem runs_seen (path : Runs (initial program memory code) system) (found : system.world.scope? request.scope = some cell)
    (seen : Move.sighted cell request = some (.object object)) : (request.key, object) ∈ system.world.stored request.scope := by
  have lived := runs_lived path request.scope
  have here : (system.life request.scope).cell = cell := cell_found found
  obtain ⟨entry, there, given⟩ := Option.map_eq_some_iff.mp seen
  have same : entry.object = object := by
    split at given
    · rename_i downcast
      cases given
      rw [Entry.downcast_iff.mp downcast]
    · cases given
  exact same ▸ lived.content.holds (here ▸ there)

theorem runs_made {me : ThreadId} (path : Runs (initial program memory code) system) (running : system.threads[me]? = some thread)
    (member : frame ∈ thread.frames) (holds : frame.grip? = some (scope, .made key gate object)) :
    (key, object) ∈ system.world.stored scope :=
  (runs_lived path scope).content.made me key gate object (frame_grip running member holds)

end System

def Sight.job? : Sight C → Option (Job C)
  | first job | inside job _ => some job
  | _ => none

def Point.job? : Point C → Option (Job C)
  | sight place => place.job?
  | shared job => some job

-- An instance has been stored under the key; and nobody who builds something in the scope is refused.
def Exit.Rightful (world : World C) (request : Request) (base : List (Frame C)) : Exit C → Prop
  | .back (.object object) => (request.key, object) ∈ world.stored request.scope
  | .back (.fault (.inactive _)) => ∀ frame ∈ base, ∀ grip, frame.grip? ≠ some (request.scope, grip)
  | _ => True

-- How far the search for an instance or its making has come above these frames.
inductive Seeks (world : World C) (job : Job C) (base : List (Frame C)) : Thread C → Prop
  | checks (mine : point.job? = some job) : Seeks world job base ⟨.check point, base⟩
  | vouches (mine : point.job? = some job) : Seeks world job base ⟨.vouch point, base⟩
  | looks (mine : sight.job? = some job) : Seeks world job base ⟨.look sight, base⟩
  | shares : Seeks world job base ⟨.share job, base⟩
  | queues : Seeks world job base ⟨.queue job, base⟩
  | waits : Seeks world job base ⟨.turn job gate, base⟩
  | starts : Seeks world job base ⟨.start job gate, base⟩
  | makes (upper : List (Frame C)) {frame : Frame C} (building : frame.building? = some (job, gate)) :
      Seeks world job base ⟨focus, upper ++ frame :: base⟩
  | leaves (exit : Exit C) (rightful : exit.Rightful world job.request base) :
      Seeks world job base ⟨.leave job.request.scope hold exit, base⟩
  | answers (exit : Exit C) (rightful : exit.Rightful world job.request base) : Seeks world job base ⟨exit.focus, base⟩

section
variable {world later : World C} {me : ThreadId} {job : Job C} {base : List (Frame C)} {thread : Thread C} {move : Move C}
  {exit : Exit C} {point : Point C}

theorem Exit.Rightful.mono (grows : ∀ one ∈ world.stored request.scope, one ∈ later.stored request.scope)
    (rightful : exit.Rightful world request base) : exit.Rightful later request base := by
  unfold Exit.Rightful at *
  split
  · exact grows _ rightful
  · exact rightful
  · trivial

theorem Seeks.mono (grows : ∀ one ∈ world.stored job.request.scope, one ∈ later.stored job.request.scope)
    (seeks : Seeks world job base thread) : Seeks later job base thread := by
  cases seeks with
  | checks mine => exact .checks mine
  | vouches mine => exact .vouches mine
  | looks mine => exact .looks mine
  | shares => exact .shares
  | queues => exact .queues
  | waits => exact .waits
  | starts => exact .starts
  | makes upper building => exact .makes upper building
  | leaves exit rightful => exact .leaves exit (rightful.mono grows)
  | answers exit rightful => exact .answers exit (rightful.mono grows)

theorem job_scope (mine : point.job? = some job) : point.scope = job.request.scope := by
  cases point with
  | shared => cases mine; rfl
  | sight place => cases place <;> cases mine <;> rfl

theorem admitted_seeks (mine : point.job? = some job) : Seeks world job base ⟨point.admitted, base⟩ := by
  cases point with
  | shared => cases mine; exact .queues
  | sight place => exact .looks mine

theorem refused_seeks {id : ScopeId} (mine : point.job? = some job)
    (outside : ∀ frame ∈ base, ∀ grip, frame.grip? ≠ some (job.request.scope, grip)) :
    Seeks world job base ⟨point.refused (.inactive id), base⟩ := by
  cases point with
  | shared => cases mine; exact .leaves (.back (.fault (.inactive id))) outside
  | sight place =>
    cases place with
    | first => cases mine; exact .answers (.back (.fault (.inactive id))) outside
    | inside => cases mine; exact .leaves (.back (.fault (.inactive id))) outside
    | peek | holds => cases mine

theorem sighted_rightful {cell : Scope C} {reply : Reply C} (sighted : Move.sighted cell job.request = some reply)
    (seen : ∀ object, Move.sighted cell job.request = some (.object object) →
      (job.request.key, object) ∈ world.stored job.request.scope) :
    (Exit.back reply).Rightful world job.request base := by
  obtain ⟨entry, there, given⟩ := Option.map_eq_some_iff.mp sighted
  split at given
  · cases given; exact seen _ sighted
  · cases given; trivial

-- The making of an instance is gone on with once what runs above it is over, until it has come to
-- its instance, has failed, or is left by a panic.
theorem Turn.building {frame : Frame C} {upper : List (Frame C)} (turn : Turn world me ⟨focus, upper ++ frame :: base⟩ move)
    (building : frame.building? = some (job, gate)) :
    (∃ more still, Frame.building? still = some (job, gate) ∧ move.frames = more ++ still :: base) ∨
      ∃ exit : Exit C, move.focus = .leave job.request.scope (.building job.request.key gate) exit ∧ move.frames = base ∧
        ((∃ cause, exit = .back (.fault (.construction job.request.scope.id job.request.key cause))) ∨
          (∃ object, frame = .welcomed job gate object ∧ exit = .back (.object object)) ∨ ∃ panic, exit = .unwind panic) := by
  rcases turn.above with ⟨more, same⟩ | ⟨rfl, past⟩
  · exact .inl ⟨more, frame, building, same⟩
  cases focus with
  | back reply =>
    cases frame with
    | factory => cases building; cases turn; exact .inr ⟨_, rfl, rfl, .inl ⟨_, rfl⟩⟩
    | created => cases building; cases turn; exact .inl ⟨[], .welcomed job gate _, rfl, rfl⟩
    | welcomed => cases building; cases turn; exact .inr ⟨_, rfl, rfl, .inr (.inl ⟨_, rfl, rfl⟩)⟩
    | _ => cases building
  | unwind panic =>
    cases turn with
    | unwindBuilding same =>
      cases building.symm.trans same
      exact .inr ⟨_, rfl, rfl, .inr (.inr ⟨panic, rfl⟩)⟩
    | @unwindEnding _ _ _ frame ending => cases frame <;> first | cases building; done | cases ending
    | @unwindOther _ _ frame passive => cases frame <;> first | cases building; done | cases passive
    | _ => cases building
  | run code =>
    cases code with
    | built =>
      cases frame with
      | factory =>
        cases building
        cases turn with
        | builds => exact .inl ⟨[], .created job gate _, rfl, rfl⟩
        | goOn | ends | panics => exact .inl ⟨[], .factory job gate, rfl, rfl⟩
      | _ => exact False.elim past
    | _ => exact False.elim past
  | _ => exact False.elim past

theorem building_seeks {frame : Frame C} {upper : List (Frame C)} (turn : Turn world me ⟨focus, upper ++ frame :: base⟩ move)
    (building : frame.building? = some (job, gate))
    (made : ∀ object, frame = .welcomed job gate object → (job.request.key, object) ∈ world.stored job.request.scope) :
    Seeks world job base ⟨move.focus, move.frames⟩ := by
  rcases turn.building building with ⟨more, still, building, same⟩ | ⟨exit, leaves, same, outcome⟩
  · rw [same]
    exact .makes more building
  · rw [leaves, same]
    refine .leaves exit ?_
    rcases outcome with ⟨cause, rfl⟩ | ⟨object, rfl, rfl⟩ | ⟨panic, rfl⟩
    · trivial
    · exact made object rfl
    · trivial

theorem Turn.seeks (turn : Turn world me thread move) (seeks : Seeks world job base thread)
    (unanswered : ∀ exit : Exit C, thread ≠ ⟨exit.focus, base⟩)
    (seen : ∀ cell object, world.scope? job.request.scope = some cell →
      Move.sighted cell job.request = some (.object object) → (job.request.key, object) ∈ world.stored job.request.scope)
    (outside : ∀ cell, world.scope? job.request.scope = some cell →
      cell.state ≠ .active ∧ cell.state ≠ .destructionPending ∨ cell.gates.isBuilding me = false →
      ∀ frame ∈ base, ∀ grip, frame.grip? ≠ some (job.request.scope, grip))
    (made : ∀ gate object, .welcomed job gate object ∈ thread.frames →
      (job.request.key, object) ∈ world.stored job.request.scope) :
    Seeks world job base ⟨move.focus, move.frames⟩ := by
  cases seeks with
  | checks mine =>
    cases turn with
    | admits => exact admitted_seeks mine
    | doubts => exact .vouches mine
    | refuses found inactive past => exact refused_seeks mine (outside _ (job_scope mine ▸ found) (.inl ⟨inactive, past⟩))
  | vouches mine =>
    cases turn with
    | vouches => exact admitted_seeks mine
    | disowns found idle => exact refused_seeks mine (outside _ (job_scope mine ▸ found) (.inr idle))
  | looks mine =>
    cases turn with
    | sees found sighted => cases mine; exact .answers (.back _) (sighted_rightful sighted fun object => seen _ object found)
    | misses => cases mine; exact .shares
    | seesInside found sighted =>
      cases mine; exact .leaves (.back _) (sighted_rightful sighted fun object => seen _ object found)
    | makes => cases mine; exact .makes [] rfl
    | peeks | holds => cases mine
  | shares => cases turn; exact .checks rfl
  | queues =>
    cases turn with
    | balks => exact .leaves (.back (.fault (.cyclic ..))) trivial
    | queues => exact .waits
  | waits => cases turn; exact .starts
  | starts => cases turn; exact .checks rfl
  | leaves exit rightful =>
    cases turn with
    | finishes | yields => exact .leaves exit rightful
    | leaves => exact .answers exit rightful
  | answers exit => exact absurd rfl (unanswered exit)
  | makes upper building =>
    refine building_seeks turn building ?_
    rintro object rfl
    cases building
    exact made _ object (List.mem_append_right _ (List.mem_cons_self ..))

theorem Seeks.frames (seeks : Seeks world job base thread) : ∃ upper, thread.frames = upper ++ base := by
  cases seeks with
  | makes upper => exact ⟨upper ++ [_], (List.append_assoc _ [_] _).symm⟩
  | _ => exact ⟨[], rfl⟩

theorem Seeks.answer (seeks : Seeks world job base thread) (exit : Exit C) (answered : thread = ⟨exit.focus, base⟩) :
    exit.Rightful world job.request base := by
  cases seeks with
  | makes upper =>
    exact absurd (congrArg Thread.frames answered) above_ne
  | answers other rightful => cases other <;> cases exit <;> cases answered <;> exact rightful
  | _ => cases exit <;> cases answered

theorem Seeks.refocus {focus other : Focus C} {frames : List (Frame C)} (rests : focus.rests = true)
    (seeks : Seeks world job base ⟨focus, frames⟩) : Seeks world job base ⟨other, frames⟩ := by
  cases seeks with
  | makes upper building => exact .makes upper building
  | answers exit => cases exit <;> cases rests
  | _ => cases rests

end

namespace System
variable {system start before after : System C} {program : C.Label → Code C} {memory : C.Memory} {code : Code C}
  {thread : Thread C} {job : Job C} {base : List (Frame C)} {me : ThreadId}

theorem stored_grows (change : Change before after) (scope : ScopeRef) :
    ∀ one ∈ before.world.stored scope, one ∈ after.world.stored scope := by
  obtain ⟨items, same⟩ := change_chronicle change
  intro one member
  rw [World.stored, same, List.filterMap_append]
  exact List.mem_append_left _ member

theorem stored_extends (path : Runs before after) (scope : ScopeRef) :
    before.world.stored scope <+: after.world.stored scope :=
  (runs_chronicle path).filterMap _

theorem runs_stored (path : Runs before after) (scope : ScopeRef) :
    ∀ one ∈ before.world.stored scope, one ∈ after.world.stored scope :=
  fun _ member => (stored_extends path scope).subset member

theorem change_seeks (path : Runs (initial program memory code) before) (change : Change before after)
    (running : before.threads[me]? = some thread) (seeks : Seeks before.world job base thread)
    (unanswered : ¬before.Answered me base) :
    ∃ thread, after.threads[me]? = some thread ∧ Seeks after.world job base thread := by
  have grows := stored_grows change job.request.scope
  refine change.alone (P := fun world => Seeks world job base) running seeks (Seeks.mono grows) ?_ ?_
  · rintro focus other frames rfl rests _
    exact (seeks.mono grows).refocus rests
  · intro move turn _
    refine Seeks.mono grows (turn.seeks seeks ?_ ?_ ?_ ?_)
    · exact fun exit same => unanswered ⟨exit, same ▸ running⟩
    · exact fun cell object there sighted => runs_seen path there sighted
    · intro cell there refused frame member grip holds
      obtain ⟨upper, same⟩ := seeks.frames
      have building := runs_building path running (same ▸ List.mem_append_right upper member) holds
      rw [cell_found there] at building
      rcases refused with ⟨inactive, past⟩ | idle
      · exact building.1.elim inactive past
      · cases idle.symm.trans building.2
    · exact fun gate object member => runs_made path running member rfl

inductive Peeks (world : World C) (request : Request) (base : List (Frame C)) : Thread C → Prop
  | checks : Peeks world request base ⟨.check (.sight (.peek request)), base⟩
  | vouches : Peeks world request base ⟨.vouch (.sight (.peek request)), base⟩
  | looks : Peeks world request base ⟨.look (.peek request), base⟩
  | answers (rightful : ∀ object, reply = .object object → (request.key, object) ∈ world.stored request.scope) :
      Peeks world request base ⟨.back reply, base⟩

variable {request : Request} {move : Move C} {world : World C}

theorem Peeks.answer (peeks : Peeks world request base thread) (answered : thread = ⟨.back (.object object), base⟩) :
    (request.key, object) ∈ world.stored request.scope := by
  cases peeks <;> cases answered
  rename_i rightful
  exact rightful object rfl

theorem turn_peeks (turn : Turn world me thread move) (peeks : Peeks world request base thread)
    (unanswered : ∀ exit : Exit C, thread ≠ ⟨exit.focus, base⟩)
    (seen : ∀ cell object, world.scope? request.scope = some cell →
      Move.sighted cell request = some (.object object) → (request.key, object) ∈ world.stored request.scope) :
    Peeks world request base ⟨move.focus, move.frames⟩ := by
  cases peeks with
  | checks =>
    cases turn with
    | admits => exact .looks
    | doubts => exact .vouches
    | refuses => exact .answers nofun
  | vouches =>
    cases turn with
    | vouches => exact .looks
    | disowns => exact .answers nofun
  | looks =>
    cases turn with
    | peeks found sighted => exact .answers fun object same => seen _ object found (sighted object same)
  | @answers reply => exact absurd rfl (unanswered (.back reply))

theorem change_peeks (path : Runs (initial program memory code) before) (change : Change before after)
    (running : before.threads[me]? = some thread) (peeks : Peeks before.world request base thread)
    (unanswered : ¬before.Answered me base) :
    ∃ thread, after.threads[me]? = some thread ∧ Peeks after.world request base thread := by
  have grows := stored_grows change request.scope
  have mono : ∀ thread, Peeks before.world request base thread → Peeks after.world request base thread := by
    intro thread peeks
    cases peeks with
    | checks => exact .checks
    | vouches => exact .vouches
    | looks => exact .looks
    | answers rightful => exact .answers fun object same => grows _ (rightful object same)
  refine change.alone (P := fun world => Peeks world request base) running peeks (mono thread) ?_ ?_
  · rintro focus other frames rfl rests _
    cases peeks <;> cases rests
  · intro move turn _
    refine mono _ (turn_peeks turn peeks ?_ ?_)
    · exact fun exit same => unanswered ⟨exit, same ▸ running⟩
    · exact fun cell object there sighted => runs_seen path there sighted

theorem awaits_seeks (job : Job C) {next : Reply C → Code C} {frames : List (Frame C)} (reached : Runs (initial program memory code) start)
    (calls : start.threads[me]? = some ⟨.run (.resolve job.request job.factory next), frames⟩)
    (waits : Awaits me (.user next :: frames) start system) :
    ∃ thread, system.threads[me]? = some thread ∧
      (thread = ⟨.run (.resolve job.request job.factory next), frames⟩ ∨
        Seeks system.world job (.user next :: frames) thread) := by
  refine awaits_carry (P := fun world => Seeks world job (.user next :: frames)) rfl calls ?_ ?_ waits
  · intro world later move turn
    cases turn with
    | resolves => exact .checks rfl
    | goOn alone | ends alone | panics alone => cases alone
  · exact fun before after thread path change running => change_seeks (reached.trans path) change running

theorem awaits_peeks (request : Request) {next : Reply C → Code C} {frames : List (Frame C)} (reached : Runs (initial program memory code) start)
    (calls : start.threads[me]? = some ⟨.run (.call (.peek request.scope request.key request.type) next), frames⟩)
    (waits : Awaits me (.user next :: frames) start system) :
    ∃ thread, system.threads[me]? = some thread ∧
      (thread = ⟨.run (.call (.peek request.scope request.key request.type) next), frames⟩ ∨
        Peeks system.world request (.user next :: frames) thread) := by
  refine awaits_carry (P := fun world => Peeks world request (.user next :: frames)) rfl calls ?_ ?_ waits
  · intro world later move turn
    cases turn with
    | calls starts => cases starts; exact .checks
    | answers _ immediate => cases immediate
    | goOn alone | ends alone | panics alone => cases alone
  · exact fun before after thread path change running => change_peeks (reached.trans path) change running

end System
end Lifespan
