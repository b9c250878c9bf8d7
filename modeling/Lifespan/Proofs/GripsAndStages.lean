import Lifespan.Proofs.Cell
import Lifespan.Proofs.Stack

-- What a thread means to the scopes, whatever user code it runs: the constructions it is in the
-- middle of, and the scopes that it is ending.
namespace Lifespan

inductive Grip
  -- shares the lifecycle, and is not let in yet or already out again
  | door
  -- let in, about to stand in line
  | line
  | waiting (key : String) (gate : GateRef)
  -- has its turn, and is not yet known as the builder
  | called (key : String) (gate : GateRef)
  | looking (key : String) (gate : GateRef)
  | making (key : String) (gate : GateRef)
  | made (key : String) (gate : GateRef) (object : InstanceRef)
  | done (key : String) (gate : GateRef)
  -- no longer known as the builder, still has its turn
  | parting (gate : GateRef)
deriving DecidableEq

namespace Grip

def gate? : Grip → Option (String × GateRef)
  | waiting key gate | called key gate | looking key gate | making key gate | made key gate _ | done key gate =>
    some (key, gate)
  | door | line | parting _ => none

def turn? : Grip → Option GateRef
  | called _ gate | looking _ gate | making _ gate | made _ gate _ | done _ gate | parting gate => some gate
  | door | line | waiting _ _ => none

def builds : Grip → Bool
  | looking _ _ | making _ _ | made _ _ _ | done _ _ => true
  | _ => false

def making? : Grip → Option String
  | making key _ => some key
  | _ => none

end Grip

inductive Stage
  | waiting
  | alone
  | emptied (entries : List (String × Entry))
  | tearing (teardown : Teardown)
  -- all hooks have run
  | torn
  -- a panic came out of the teardown
  | cut
  | settled
  -- marked as destroyed, the end is being told
  | told
  | leaving (whole : Bool)
  | answered

structure Part where
  grips : List Grip
  ends : List Stage

-- What a thread means to all scopes, most recent first.
structure Posture where
  grips : List (ScopeRef × Grip)
  ends : List (ScopeRef × Stage)

def List.about (scope : ScopeRef) (all : List (ScopeRef × α)) : List α :=
  all.filterMap fun one => if one.1 = scope then some one.2 else none

namespace Posture

def part (posture : Posture) (scope : ScopeRef) : Part := ⟨List.about scope posture.grips, List.about scope posture.ends⟩

def under (rest : Posture) (scope : ScopeRef) (part : Part) : Posture :=
  ⟨part.grips.map (Prod.mk scope) ++ rest.grips, part.ends.map (Prod.mk scope) ++ rest.ends⟩

end Posture

variable {C : Client}

def Point.grip? : Point C → Option (ScopeRef × Grip)
  | .shared job => some (job.request.scope, .door)
  | .sight (.inside job gate) => some (job.request.scope, .looking job.request.key gate)
  | _ => none

def Focus.grip? : Focus C → Option (ScopeRef × Grip)
  | .check point | .vouch point => point.grip?
  | .look sight => (Point.sight sight).grip?
  | .queue job => some (job.request.scope, .line)
  | .turn job gate => some (job.request.scope, .waiting job.request.key gate)
  | .start job gate => some (job.request.scope, .called job.request.key gate)
  | .leave scope (.building key gate) _ => some (scope, .done key gate)
  | .leave scope (.turn gate) _ => some (scope, .parting gate)
  | .leave scope .lifecycle _ => some (scope, .door)
  | _ => none

def Frame.grip? : Frame C → Option (ScopeRef × Grip)
  | .factory job gate => some (job.request.scope, .making job.request.key gate)
  | .created job gate object | .welcomed job gate object =>
    some (job.request.scope, .made job.request.key gate object)
  | _ => none

-- What stands directly above a frame, as far as the ending of scopes goes.
inductive Upper
  | under (teardown : Teardown)
  | reply (refused : Bool)
  | other

def Reply.isRefusal : Reply C → Bool
  | .fault (.unknown _) => true
  | _ => false

def Focus.upper : Focus C → Upper
  | .tear teardown => .under teardown
  | .back reply => .reply reply.isRefusal
  | _ => .other

def Frame.upper : Frame C → Upper
  | .hooked teardown _ | .reported teardown => .under teardown
  | _ => .other

def Upper.stage : Upper → Stage
  | under teardown => .tearing teardown
  | reply _ => .torn
  | other => .cut

def Frame.stage? (upper : Upper) : Frame C → Option (ScopeRef × Stage)
  | .torn scope => some (scope, upper.stage)
  | .closed scope _ => some (scope, .told)
  | .ended _ scope =>
    match upper with
    | .reply false => some (scope, .answered)
    | _ => none
  | _ => none

def Exit.isReply : Exit C → Bool
  | .back _ => true
  | .unwind _ => false

def Focus.stage? : Focus C → Option (ScopeRef × Stage)
  | .exclude scope => some (scope, .waiting)
  | .empty scope => some (scope, .alone)
  | .clear scope entries => some (scope, .emptied entries)
  | .settle scope _ => some (scope, .torn)
  | .mark scope _ => some (scope, .settled)
  | .reopen scope exit => some (scope, .leaving exit.isReply)
  | .forget _ scope _ => some (scope, .answered)
  | _ => none

def stages (upper : Upper) : List (Frame C) → List (ScopeRef × Stage)
  | [] => []
  | frame :: rest => (frame.stage? upper).toList ++ stages frame.upper rest

def Thread.posture (thread : Thread C) : Posture :=
  ⟨thread.focus.grip?.toList ++ thread.frames.filterMap Frame.grip?,
    thread.focus.stage?.toList ++ stages thread.focus.upper thread.frames⟩

def background (frames : List (Frame C)) : Posture := ⟨frames.filterMap Frame.grip?, stages .other frames⟩

def Activity.isOrdinary : Activity → Bool
  | tearing _ | ending _ => false
  | _ => true

section
variable {aided : Prop} {activity : Activity} {frames : List (Frame C)} {scope other : ScopeRef} {upper : Upper}

theorem ordinary_stages (borne : Borne aided activity frames) (ordinary : activity.isOrdinary = true) :
    stages upper frames = stages .other frames := by
  cases frames with
  | nil => rfl
  | cons frame rest =>
    cases frame with
    | torn | ended => cases activity <;> first | exact False.elim borne | cases ordinary
    | _ => rfl

theorem back_posture {reply : Reply C} (borne : Borne aided activity frames) (ordinary : activity.isOrdinary = true) :
    (Thread.mk (.back reply) frames).posture = background frames := by
  simp only [Thread.posture, background, Focus.grip?, Focus.stage?, Option.toList_none, List.nil_append, Posture.mk.injEq,
    true_and]
  exact ordinary_stages borne ordinary

theorem exit_posture {exit : Exit C} (borne : Borne aided activity frames) (ordinary : activity.isOrdinary = true) :
    (Thread.mk exit.focus frames).posture = background frames := by
  cases exit with
  | back => exact back_posture borne ordinary
  | unwind => rfl

theorem tearing_below (borne : Borne aided (.tearing scope) frames) :
    (∃ rest, frames = .torn scope :: rest) ∨ aided ∧ ∃ next rest, frames = .user next :: rest := by
  cases frames with
  | nil => cases borne
  | cons frame rest =>
    cases frame with
    | torn => cases (show scope = _ from borne); exact .inl ⟨rest, rfl⟩
    | user next => exact .inr ⟨borne, next, rest, rfl⟩
    | _ => cases borne

theorem ending_below (borne : Borne aided (.ending scope) frames) : ∃ registry rest, frames = .ended registry scope :: rest := by
  cases frames with
  | nil => cases borne
  | cons frame rest =>
    cases frame with
    | ended registry => cases (show scope = _ from borne); exact ⟨registry, rest, rfl⟩
    | _ => cases borne

theorem torn_stage (above : Upper) (member : .torn scope ∈ frames) : ∃ upper : Upper, (scope, upper.stage) ∈ stages above frames := by
  induction frames generalizing above with
  | nil => cases member
  | cons frame rest ih =>
    rcases List.mem_cons.mp member with rfl | below
    · exact ⟨above, List.mem_append_left _ (List.mem_singleton.mpr rfl)⟩
    · obtain ⟨upper, stands⟩ := ih frame.upper below
      exact ⟨upper, List.mem_append_right _ stands⟩

theorem about_append (first second : List (ScopeRef × α)) :
    List.about scope (first ++ second) = List.about scope first ++ List.about scope second :=
  List.filterMap_append

theorem about_map (all : List α) : List.about scope (all.map (Prod.mk other)) = if other = scope then all else [] := by
  unfold List.about
  rw [List.filterMap_map]
  by_cases same : other = scope
  · simp only [Function.comp_def, same, if_true, List.filterMap_some]
  · rw [if_neg same]
    exact List.filterMap_eq_nil_iff.mpr fun _ _ => if_neg same

theorem under_part (rest : Posture) (part : Part) : (rest.under scope part).part other =
    if scope = other then ⟨part.grips ++ (rest.part other).grips, part.ends ++ (rest.part other).ends⟩ else rest.part other := by
  unfold Posture.under Posture.part
  simp only [about_append, about_map]
  split <;> simp

end
end Lifespan
