import Lifespan.Proofs.Chain
import Lifespan.Proofs.Content

-- The ledger of a scope: whom its gates name as the builder of a key is building it, and whom they
-- name as waiting for one stands in line for it or has just been called. An entry is never ahead of
-- its thread, only behind: a thread has its turn before it is named, and is no longer named when it
-- gives its turn up.
namespace Lifespan
variable {C : Client}

namespace Grip

def building? : Grip → Option String
  | looking key _ | making key _ | made key _ _ | done key _ => some key
  | _ => none

def awaited? : Grip → Option String
  | waiting key _ | called key _ => some key
  | _ => none

theorem building_turn {grip : Grip} (builds : grip.building? = some key) :
    ∃ gate, grip.gate? = some (key, gate) ∧ grip.turn? = some gate := by
  cases grip <;> cases builds <;> exact ⟨_, rfl, rfl⟩

end Grip

theorem frame_idle {frame : Frame C} (holds : frame.grip? = some (scope, grip)) : grip.awaited? = none := by
  cases frame <;> cases holds <;> rfl

-- Only what a thread is about to do is a wait; what it is in the middle of is below it.
theorem posture_nested (thread : Thread C) (scope : ScopeRef) :
    ∀ grip ∈ (thread.posture.part scope).grips.tail, grip.awaited? = none := by
  have below : ∀ grip ∈ List.about scope (thread.frames.filterMap Frame.grip?), grip.awaited? = none := by
    intro grip member
    obtain ⟨⟨place, held⟩, there, same⟩ := List.mem_filterMap.mp member
    obtain ⟨frame, _, holds⟩ := List.mem_filterMap.mp there
    split at same
    · cases same
      exact frame_idle holds
    · cases same
  intro grip member
  simp only [Posture.part, Thread.posture, about_append] at member
  cases acts : thread.focus.grip? with
  | none =>
    rw [acts] at member
    exact below grip (List.mem_of_mem_tail member)
  | some one =>
    by_cases here : one.1 = scope
    · rw [acts, show List.about scope (some one).toList = [one.2] by simp [List.about, here]] at member
      exact below grip member
    · rw [acts, show List.about scope (some one).toList = [] by simp [List.about, here]] at member
      exact below grip (List.mem_of_mem_tail member)

namespace Life
variable {life before after : Life C} {me : ThreadId} {shaken aided : Prop} {scope : ScopeRef} {was now rest : List Grip}

def Nested (life : Life C) : Prop := ∀ thread, ∀ grip ∈ (life.grips thread).tail, grip.awaited? = none

structure Ledger (life : Life C) : Prop where
  owners : ∀ key thread, life.cell.gates.owners.get? key = some thread ↔
    key ∈ (life.grips thread).filterMap Grip.building?
  waiting : ∀ thread key, life.cell.gates.waiting.get? thread = some key ↔
    key ∈ (life.grips thread).filterMap Grip.awaited?
  acyclic : life.cell.gates.Acyclic

theorem Untouched.ledger (untouched : life.Untouched) : life.Ledger := by
  refine ⟨fun key thread => ?_, fun thread key => ?_, ?_⟩
  · simp [untouched.cell, untouched.grips, Scope.fresh_eq, Gates.empty]
  · simp [untouched.cell, untouched.grips, Scope.fresh_eq, Gates.empty]
  · rw [untouched.cell]
    exact Gates.empty_acyclic

theorem Ledger.keep (ledger : before.Ledger) (gates : after.cell.gates = before.cell.gates)
    (building : ∀ thread, (after.grips thread).filterMap Grip.building? = (before.grips thread).filterMap Grip.building?)
    (awaited : ∀ thread, (after.grips thread).filterMap Grip.awaited? = (before.grips thread).filterMap Grip.awaited?) :
    after.Ledger where
  owners key thread := by rw [gates, building]; exact ledger.owners key thread
  waiting thread key := by rw [gates, awaited]; exact ledger.waiting thread key
  acyclic := gates ▸ ledger.acyclic

theorem same_entries (was now : List Grip) (entry : Grip → Option String) (held : before.grips me = was ++ rest)
    (holds : after.grips me = now ++ rest) (others : ∀ other, other ≠ me → after.grips other = before.grips other)
    (same : now.filterMap entry = was.filterMap entry) (thread : ThreadId) :
    (after.grips thread).filterMap entry = (before.grips thread).filterMap entry := by
  by_cases mine : thread = me
  · subst mine
    rw [held, holds, List.filterMap_append, List.filterMap_append, same]
  · rw [others thread mine]

theorem lone_builder {grip : Grip} (accounts : life.Accounts) (held : life.grips me = grip :: rest)
    (wants : grip.gate? = some (key, gate)) (turn : grip.turn? = some gate) :
    key ∉ rest.filterMap Grip.building? ∧
      ∀ other, other ≠ me → key ∉ (life.grips other).filterMap Grip.building? := by
  constructor
  · intro builds
    obtain ⟨other, again, builds⟩ := List.mem_filterMap.mp builds
    obtain ⟨place, seeks, next⟩ := Grip.building_turn builds
    exact accounts.one_turn held again wants seeks turn next
  · intro thread apart builds
    obtain ⟨other, his, builds⟩ := List.mem_filterMap.mp builds
    obtain ⟨place, seeks, next⟩ := Grip.building_turn builds
    exact apart (accounts.one_holder (held ▸ List.mem_cons_self ..) his wants seeks turn next).symm

theorem Ledger.queue (ledger : before.Ledger) (held : before.grips me = .line :: rest)
    (holds : after.grips me = .waiting key gate :: rest)
    (others : ∀ other, other ≠ me → after.grips other = before.grips other)
    (gates : after.cell.gates = (before.cell.gates.queue key me fresh).2)
    (clear : before.cell.gates.waitsOn key me = false) (idle : rest.filterMap Grip.awaited? = []) : after.Ledger where
  owners wanted thread := by
    rw [gates, Gates.queue_owners, same_entries [_] [_] _ held holds others rfl]
    exact ledger.owners wanted thread
  waiting thread wanted := by
    rw [gates, Gates.queue_waiting, Table.get?_put]
    by_cases mine : thread = me
    · subst mine
      rw [holds, List.filterMap_cons_some (show Grip.awaited? _ = some key from rfl), idle]
      simp [eq_comm]
    · rw [if_neg mine, others thread mine]
      exact ledger.waiting thread wanted
  acyclic := gates ▸ Gates.queue_acyclic ledger.acyclic clear

theorem Ledger.start (ledger : before.Ledger) (accounts : before.Accounts)
    (held : before.grips me = .called key gate :: rest) (holds : after.grips me = .looking key gate :: rest)
    (others : ∀ other, other ≠ me → after.grips other = before.grips other)
    (gates : after.cell.gates = before.cell.gates.start key me) (idle : rest.filterMap Grip.awaited? = []) :
    after.Ledger where
  owners wanted thread := by
    have old := ledger.owners wanted thread
    have alone := (lone_builder accounts held rfl rfl).2 thread
    rw [gates, Gates.start, Table.get?_put]
    by_cases mine : thread = me
    · subst mine
      rw [held] at old
      rw [holds]
      by_cases same : wanted = key
      · simp [Grip.building?, same]
      · simpa [Grip.building?, same] using old
    · rw [others thread mine]
      by_cases same : wanted = key
      · subst same
        simp [Ne.symm mine, alone mine]
      · simpa [same] using old
  waiting thread wanted := by
    rw [gates, Gates.start, Table.get?_erase]
    by_cases mine : thread = me
    · subst mine
      rw [holds, List.filterMap_cons_none rfl, idle]
      simp
    · rw [if_neg mine, others thread mine]
      exact ledger.waiting thread wanted
  acyclic := gates ▸ Gates.start_acyclic ledger.acyclic

theorem Ledger.finish (ledger : before.Ledger) (accounts : before.Accounts)
    (held : before.grips me = .done key gate :: rest) (holds : after.grips me = .parting gate :: rest)
    (others : ∀ other, other ≠ me → after.grips other = before.grips other)
    (gates : after.cell.gates = before.cell.gates.finish key me) : after.Ledger where
  owners wanted thread := by
    have old := ledger.owners wanted thread
    have alone := lone_builder accounts held rfl rfl
    rw [gates, Gates.finish, Table.get?_erase]
    by_cases mine : thread = me
    · subst mine
      rw [held] at old
      rw [holds]
      by_cases same : wanted = key
      · subst same
        simpa [Grip.building?] using alone.1
      · simpa [Grip.building?, same] using old
    · rw [others thread mine]
      by_cases same : wanted = key
      · subst same
        simpa using alone.2 thread mine
      · simpa [same] using old
  waiting thread wanted := by
    rw [gates, same_entries [_] [_] _ held holds others rfl]
    exact ledger.waiting thread wanted
  acyclic := gates ▸ Gates.finish_acyclic ledger.acyclic

theorem Nested.below (nested : life.Nested) (held : life.grips me = grip :: rest) : rest.filterMap Grip.awaited? = [] :=
  List.filterMap_eq_nil_iff.mpr fun one member => nested me one (by rw [held]; exact member)

theorem Ledger.build (ledger : before.Ledger) (accounts : before.Accounts) (nested : before.Nested)
    {effect : Effect C} {items : List (Item C)} (build : Build scope before.cell me was effect items now)
    (cell : after.cell = effect.change me before.cell) (held : before.grips me = was ++ rest)
    (holds : after.grips me = now ++ rest) (others : ∀ other, other ≠ me → after.grips other = before.grips other) :
    after.Ledger := by
  have same := fun entry => same_entries was now entry held holds others
  cases build with
  | queue acyclic => exact ledger.queue held holds others (by rw [cell]; rfl) acyclic (nested.below held)
  | start => exact ledger.start accounts held holds others (by rw [cell]; rfl) (nested.below held)
  | finish => exact ledger.finish accounts held holds others (by rw [cell]; rfl)
  | done _ built =>
    refine ledger.keep (by rw [cell]; rfl) (same _ ?_) (same _ ?_) <;>
      rcases built with rfl | rfl | ⟨object, rfl⟩ <;> rfl
  | _ => exact ledger.keep (by rw [cell]; rfl) (same _ rfl) (same _ rfl)

theorem preserves_ledger (ledger : before.Ledger) (accounts : before.Accounts) (orderly : before.Orderly)
    (nested : before.Nested) (step : Step shaken aided scope before after) : after.Ledger := by
  cases step with
  | idle cell grips ends stored calls =>
    obtain ⟨attributes, cell⟩ := cell
    exact ledger.keep (by rw [cell]) (fun _ => by rw [grips]) (fun _ => by rw [grips])
  | build me rest build cell held holds others ends stored calls =>
    exact ledger.build accounts nested build cell held holds others
  | close me rest close cell stood stands others grips stored calls =>
    cases close with
    | clear =>
      -- nobody is at the gates that are forgotten
      have taken := orderly.taken stood rfl
      have alone := accounts.alone orderly (by rw [taken]; rfl)
      have gates : after.cell.gates = .empty := by rw [cell]; rfl
      refine ⟨fun key thread => ?_, fun thread key => ?_, gates ▸ Gates.empty_acyclic⟩
      · simp [gates, grips, alone, Gates.empty]
      · simp [gates, grips, alone, Gates.empty]
    | _ => exact ledger.keep (by rw [cell]; rfl) (fun _ => by rw [grips]) (fun _ => by rw [grips])

end Life

namespace System
variable {system : System C} {program : C.Label → Code C} {memory : C.Memory} {code : Code C}

theorem life_nested (system : System C) (scope : ScopeRef) : (system.life scope).Nested := by
  intro me grip member
  cases running : system.threads[me]? with
  | none => simp [life, posture, running, Posture.part, List.about] at member
  | some thread =>
    simp only [life, posture_found running] at member
    exact posture_nested thread scope grip member

theorem runs_ledger (path : Runs (initial program memory code) system) (scope : ScopeRef) :
    (system.life scope).Ledger := by
  induction path with
  | refl => exact (initial_untouched _ _ _ scope).ledger
  | step path next ih =>
    have lived := runs_lived path scope
    exact Life.preserves_ledger ih lived.accounts lived.orderly (life_nested _ scope) (next_life path next scope)

end System
end Lifespan
