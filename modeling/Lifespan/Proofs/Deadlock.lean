import Lifespan.Proofs.Cyclic

-- Waits that lead through several scopes. Every scope looks at its own gates only, so a circle that
-- leads out of one scope and back into it is seen by none of them. No such circle comes about as long
-- as the factories of a scope ask only for singletons of that scope and of scopes below it in some order.
namespace Lifespan
open Relation

variable {C : Client}

def Grip.isWaiting : Grip → Bool
  | waiting _ _ => true
  | _ => false

namespace System

def Blocked (system : System C) (waiter builder : ThreadId) : Prop := ∃ scope, system.Blocks scope waiter builder

-- Whoever is in the middle of a construction waits only in its scope or in one of lower rank.
def Layered (system : System C) (rank : ScopeRef → Nat) : Prop :=
  ∀ thread inner wanted outer built, system.Waits inner wanted thread → system.Builds outer built thread →
    inner = outer ∨ rank inner < rank outer

variable {system : System C} {program : C.Label → Code C} {memory : C.Memory} {code : Code C}
  {rank : ScopeRef → Nat} {one two thread : ThreadId} {first last : ScopeRef} {key wanted : String}

theorem waits_once (waits : system.Waits first key thread) (also_ : system.Waits last wanted thread) : first = last := by
  obtain ⟨job, gate, frames, running, rfl, _⟩ := waits
  obtain ⟨job, gate, frames, again, rfl, _⟩ := also_
  cases running.symm.trans again
  rfl

-- Along the waits one comes to scopes of lower and lower rank, or stays in one scope.
theorem Layered.descends (layered : system.Layered rank) (path : TransGen system.Blocked one two)
    (waits : system.Waits first key one) :
    ∀ last wanted, system.Waits last wanted two → last = first ∧ TransGen (system.Blocks first) one two ∨ rank last < rank first := by
  induction path with
  | single edge =>
    intro last wanted onward
    obtain ⟨scope, edge⟩ := edge
    obtain ⟨built, here, builds⟩ := edge
    obtain rfl := waits_once waits here
    exact (layered _ _ _ _ _ onward builds).imp_left fun same => ⟨same, .single ⟨built, here, builds⟩⟩
  | tail _ edge ih =>
    intro last wanted onward
    obtain ⟨scope, edge⟩ := edge
    obtain ⟨built, here, builds⟩ := edge
    rcases ih scope built here with ⟨rfl, path⟩ | lower
    · exact (layered _ _ _ _ _ onward builds).imp_left fun same => ⟨same, path.tail ⟨built, here, builds⟩⟩
    · rcases layered _ _ _ _ _ onward builds with rfl | less
      · exact .inr lower
      · exact .inr (Nat.lt_trans less lower)

theorem no_layered_deadlock (path : Runs (initial program memory code) system) (rank : ScopeRef → Nat)
    (layered : system.Layered rank) (thread : ThreadId) : ¬TransGen system.Blocked thread thread := by
  intro circle
  -- a circle stays in one scope, where there is none, or comes down to a rank below its own
  obtain ⟨next, ⟨scope, key, waits, _⟩, _⟩ := TransGen.head'_iff.mp circle
  rcases layered.descends circle waits scope key waits with ⟨_, circle⟩ | less
  · exact runs_acyclic path scope thread circle
  · exact Nat.lt_irrefl _ less

theorem layered_iff : system.Layered rank ↔
    ∀ thread ∈ system.threads, ∀ inner ∈ thread.posture.grips, ∀ outer ∈ thread.posture.grips,
      inner.2.isWaiting = true → outer.2.building?.isSome → inner.1 = outer.1 ∨ rank inner.1 < rank outer.1 := by
  constructor
  · intro layered thread member inner waits outer builds waiting known
    obtain ⟨me, running⟩ := List.mem_iff_getElem?.mp member
    obtain ⟨built, building⟩ := Option.isSome_iff_exists.mp known
    obtain ⟨place, grip⟩ := inner
    cases grip with
    | waiting key gate =>
      refine layered me place key outer.1 built (waits_iff.mpr ⟨gate, ?_⟩) ⟨outer.2, ?_, building⟩
      · rw [posture_found running]; exact waits
      · rw [posture_found running]; exact builds
    | _ => cases waiting
  · intro layered me inner wanted outer built waits builds
    obtain ⟨gate, waits⟩ := waits_iff.mp waits
    obtain ⟨grip, builds, building⟩ := builds
    cases running : system.threads[me]? with
    | none => simp [posture, running] at waits
    | some thread =>
      rw [posture_found running] at waits builds
      exact layered thread (List.mem_of_getElem? running) _ waits _ builds rfl (by rw [building]; rfl)

instance : Decidable (system.Layered rank) := decidable_of_iff _ layered_iff.symm

-- One thread makes a singleton of a request, and once both are at it asks for a singleton of a session. The
-- other thread makes that one, and may ask back for the first.
def crossingPair (back : Bool) : System ⟨Nat, Unit, Unit, Unit⟩ :=
  let session : ScopeRef := ⟨0, ⟨.session, "a"⟩, 0⟩
  let request : ScopeRef := ⟨0, ⟨.request, "b"⟩, 0⟩
  let hooks : Hooks (Code ⟨Nat, Unit, Unit, Unit⟩) := ⟨fun _ => .done, fun _ => .done, .done⟩
  let make (mine his : ScopeRef) (asks : Bool) : Code ⟨Nat, Unit, Unit, Unit⟩ :=
    .resolve ⟨mine, "one", "One"⟩
      (fun _ => .access (· + 1) fun _ => .await (2 ≤ ·) <|
        if asks then .resolve ⟨his, "one", "One"⟩ (fun _ => .built () hooks) fun _ => .built () hooks else .built () hooks)
      fun _ => .done
  initial (fun _ => .done) 0 <| .call (.establish {}) fun _ => .call (.begin 0 ⟨.session, "a"⟩) fun _ =>
    .call (.begin 0 ⟨.request, "b"⟩) fun _ =>
    .fork 2 (fun index => if index = 0 then make request session true else make session request back) fun _ => .done

theorem request_waits : (run 43 (crossingPair false)).Waits ⟨0, ⟨.session, "a"⟩, 0⟩ "one" 1 ∧
    (run 43 (crossingPair false)).Layered (·.id.kind.position) ∧ ¬TransGen (run 43 (crossingPair false)).Blocked 1 1 := by
  have layered : (run 43 (crossingPair false)).Layered (·.id.kind.position) := by decide
  exact ⟨⟨_, _, _, rfl, rfl, rfl⟩, layered, no_layered_deadlock (run_runs 43 (crossingPair false)) _ layered 1⟩

-- Where the second thread asks back, the two wait for each other, and nothing moves any more.
theorem session_crosses : ∃ system, Runs (crossingPair true) system ∧ TransGen system.Blocked 1 1 ∧
    system.move?.isNone = true := by
  have request : (run 49 (crossingPair true)).Blocked 1 2 :=
    ⟨⟨0, ⟨.session, "a"⟩, 0⟩, "one", ⟨_, _, _, rfl, rfl, rfl⟩, .making "one" 0, by decide, rfl⟩
  have session : (run 49 (crossingPair true)).Blocked 2 1 :=
    ⟨⟨0, ⟨.request, "b"⟩, 0⟩, "one", ⟨_, _, _, rfl, rfl, rfl⟩, .making "one" 0, by decide, rfl⟩
  exact ⟨_, run_runs 49 (crossingPair true), (TransGen.single request).tail session, by decide⟩

end System
end Lifespan
