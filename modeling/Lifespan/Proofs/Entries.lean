import Lifespan.Proofs.Cyclic
import Lifespan.Proofs.Uniqueness

-- What the gates of a scope know of a thread: the constructions that it is in the middle of there, no
-- more and no fewer. A resolve that has come back has left nothing of its own behind.
namespace Lifespan
variable {C : Client}

-- The keys whose instances a thread is making in a scope, latest first. A construction counts from the step
-- that names its builder up to the one that takes the name back.
def System.constructions (system : System C) (scope : ScopeRef) (me : ThreadId) : List String :=
  ((system.life scope).grips me).filterMap Grip.building?

structure Gates.Exact (gates : Gates) (me : ThreadId) (keys : List String) : Prop where
  building : gates.building.get? me = if keys = [] then none else some keys.length
  owners : ∀ key, gates.owners.get? key = some me ↔ key ∈ keys

structure Gates.Same (before after : Gates) (me : ThreadId) : Prop where
  building : after.building.get? me = before.building.get? me
  owners : ∀ key, after.owners.get? key = some me ↔ before.owners.get? key = some me
  waiting : after.waiting.get? me = before.waiting.get? me

section
variable {grip : Grip} {focus : Focus C} {scope : ScopeRef} {key : String} {gate : GateRef}

theorem builds_building : grip.builds = grip.building?.isSome := by cases grip <;> rfl

theorem called_focus (acts : focus.grip? = some (scope, .called key gate)) :
    ∃ job, focus = .start job gate ∧ job.request.scope = scope ∧ job.request.key = key := by
  cases focus with
  | start job => cases acts; exact ⟨job, rfl, rfl, rfl⟩
  | check point | vouch point => cases point with
    | shared => cases acts
    | sight place => cases place <;> cases acts
  | look sight => cases sight <;> cases acts
  | leave _ hold => cases hold <;> cases acts
  | _ => cases acts

theorem done_focus (acts : focus.grip? = some (scope, .done key gate)) : ∃ exit, focus = .leave scope (.building key gate) exit := by
  cases focus with
  | leave place hold exit => cases hold <;> cases acts; exact ⟨exit, rfl⟩
  | check point | vouch point => cases point with
    | shared => cases acts
    | sight place => cases place <;> cases acts
  | look sight => cases sight <;> cases acts
  | _ => cases acts

end

namespace Life
variable {life before after : Life C} {me : ThreadId} {key : String} {shaken aided : Prop} {scope : ScopeRef}

theorem Accounts.lone_construction (accounts : life.Accounts) (me : ThreadId) (key : String) :
    (life.grips me).countP (·.building? = some key) ≤ 1 :=
  accounts.lone fun _ builds => Grip.building_turn (of_decide_eq_true builds)

theorem Accounts.distinct (accounts : life.Accounts) : ((life.grips me).filterMap Grip.building?).Nodup := by
  rw [List.nodup_iff_count]
  intro key
  rw [List.count_filterMap]
  refine Nat.le_trans (List.countP_mono_left fun grip _ builds => ?_) (accounts.lone_construction me key)
  simpa using builds

theorem Accounts.exact (accounts : life.Accounts) (ledger : life.Ledger) :
    life.cell.gates.Exact me ((life.grips me).filterMap Grip.building?) := by
  refine ⟨?_, fun key => ledger.owners key me⟩
  have depth := accounts.depth me
  have positive := accounts.positive me
  have same : (life.grips me).countP Grip.builds = ((life.grips me).filterMap Grip.building?).length := by
    rw [List.length_filterMap_eq_countP]
    exact List.countP_congr fun grip _ => by rw [builds_building]
  rw [same, Gates.depth] at depth
  cases found : life.cell.gates.building.get? me with
  | none =>
    rw [found] at depth
    rw [if_pos (List.length_eq_zero_iff.mp depth.symm)]
  | some count =>
    rw [found] at depth positive
    have some : (life.grips me).filterMap Grip.building? ≠ [] := by
      intro none
      rw [none] at depth
      exact positive (congrArg Option.some depth)
    rw [if_neg some, ← depth]
    rfl

theorem Step.constructions (step : Step shaken aided scope before after) (thread : ThreadId) :
    (after.grips thread).filterMap Grip.building? = (before.grips thread).filterMap Grip.building? ∨
      (∃ key gate rest, before.grips thread = .called key gate :: rest ∧ after.grips thread = .looking key gate :: rest) ∨
      ∃ key gate rest, before.grips thread = .done key gate :: rest ∧ after.grips thread = .parting gate :: rest := by
  cases step with
  | idle _ grips => rw [grips]; exact .inl rfl
  | close _ _ _ _ _ _ _ grips => rw [grips]; exact .inl rfl
  | build me rest build _ held holds others =>
    by_cases mine : thread = me
    · subst mine
      cases build with
      | start => exact .inr (.inl ⟨_, _, rest, held, holds⟩)
      | finish => exact .inr (.inr ⟨_, _, rest, held, holds⟩)
      | done _ built =>
        rw [held, holds]
        rcases built with rfl | rfl | ⟨object, rfl⟩ <;> exact .inl rfl
      | _ => rw [held, holds]; exact .inl rfl
    · rw [others thread mine]
      exact .inl rfl

end Life

namespace System
variable {system start before after : System C} {program : C.Label → Code C} {memory : C.Memory} {code : Code C}
  {scope : ScopeRef} {key : String} {gate : GateRef} {me : ThreadId} {thread : Thread C} {focus other : Focus C}
  {frames base : List (Frame C)} {grip : Grip} {exit : Exit C}

theorem runs_exact (path : Runs (initial program memory code) system) (scope : ScopeRef) (me : ThreadId) :
    (system.world.cell scope).gates.Exact me (system.constructions scope me) :=
  (runs_lived path scope).accounts.exact (runs_ledger path scope)

theorem grip_focus (running : system.threads[me]? = some ⟨focus, frames⟩) (held : grip ∈ (system.life scope).grips me)
    (outside : ∀ frame : Frame C, frame.grip? ≠ some (scope, grip)) : focus.grip? = some (scope, grip) := by
  have member := life_grip.mp held
  rw [posture_found running] at member
  rcases List.mem_append.mp member with acts | below
  · exact Option.mem_toList.mp acts
  · obtain ⟨frame, _, holds⟩ := List.mem_filterMap.mp below
    exact absurd holds (outside frame)

theorem held_running (held : grip ∈ (system.life scope).grips me) : ∃ thread, system.threads[me]? = some thread := by
  cases running : system.threads[me]? with
  | none => simp [life, posture, running, Posture.part, List.about] at held
  | some thread => exact ⟨thread, rfl⟩

theorem constructions_change (path : Runs (initial program memory code) before) (next : Step before after)
    (scope : ScopeRef) (me : ThreadId) :
    after.constructions scope me = before.constructions scope me ∨
      (∃ job gate frames, before.threads[me]? = some ⟨.start job gate, frames⟩ ∧ job.request.scope = scope ∧
        after.constructions scope me = job.request.key :: before.constructions scope me) ∨
      ∃ key gate exit frames, before.threads[me]? = some ⟨.leave scope (.building key gate) exit, frames⟩ ∧
        before.constructions scope me = key :: after.constructions scope me := by
  unfold constructions
  rcases (next_life path next scope).constructions me with same | ⟨key, gate, rest, held, holds⟩ | ⟨key, gate, rest, held, holds⟩
  · exact .inl same
  · have member : .called key gate ∈ (before.life scope).grips me := held ▸ List.mem_cons_self
    obtain ⟨⟨focus, frames⟩, running⟩ := held_running member
    have acts := grip_focus running member fun frame holds => by cases frame <;> cases holds
    obtain ⟨job, rfl, here, wanted⟩ := called_focus acts
    refine .inr (.inl ⟨job, gate, frames, running, here, ?_⟩)
    rw [held, holds, wanted]
    rfl
  · have member : .done key gate ∈ (before.life scope).grips me := held ▸ List.mem_cons_self
    obtain ⟨⟨focus, frames⟩, running⟩ := held_running member
    have acts := grip_focus running member fun frame holds => by cases frame <;> cases holds
    obtain ⟨exit, rfl⟩ := done_focus acts
    refine .inr (.inr ⟨key, gate, exit, frames, running, ?_⟩)
    rw [held, holds]
    rfl

theorem running_constructions (running : system.threads[me]? = some ⟨focus, frames⟩) :
    system.constructions scope me = (List.about scope focus.grip?.toList).filterMap Grip.building? ++
      (List.about scope (frames.filterMap Frame.grip?)).filterMap Grip.building? := by
  simp only [constructions, life, posture_found running, Thread.posture, Posture.part, about_append, List.filterMap_append]

theorem idle_constructions (running : system.threads[me]? = some ⟨focus, frames⟩) (idle : focus.grip? = none) :
    system.constructions scope me = (List.about scope (frames.filterMap Frame.grip?)).filterMap Grip.building? := by
  rw [running_constructions running, idle]
  rfl

-- The step that takes the name back counts down from the number of constructions, which is never zero there.
theorem finish_counts (path : Runs (initial program memory code) system)
    (running : system.threads[me]? = some ⟨.leave scope (.building key gate) exit, frames⟩) :
    ∃ after, system.advance me = some after ∧ system.constructions scope me = key :: after.constructions scope me ∧
      (system.world.cell scope).gates.building.get? me = some ((after.constructions scope me).length + 1) ∧
      (system.world.cell scope).gates.owners.get? key = some me := by
  have inside := (List.getElem?_eq_some_iff.mp running).1
  have kept : system.constructions scope me =
      key :: (system.perform me (Move.leave scope (.building key gate) exit frames)).constructions scope me := by
    rw [running_constructions running, running_constructions (List.getElem?_set_self inside)]
    simp [Move.leave, Move.changing, Focus.grip?, List.about, Grip.building?]
  have exactly := runs_exact path scope me
  refine ⟨_, advance_next running rfl, kept, ?_, (exactly.owners key).mpr (kept ▸ List.mem_cons_self)⟩
  rw [exactly.building, kept]
  rfl

theorem idle_waiting (path : Runs (initial program memory code) system) (scope : ScopeRef)
    (running : system.threads[me]? = some ⟨focus, frames⟩) (idle : focus.grip? = none) :
    (system.world.cell scope).gates.waiting.get? me = none := by
  cases waits : (system.world.cell scope).gates.waiting.get? me with
  | none => rfl
  | some key =>
    obtain ⟨grip, held, awaited⟩ := List.mem_filterMap.mp (((runs_ledger path scope).waiting me key).mp waits)
    have acts := grip_focus running held fun frame holds => by cases (frame_idle holds).symm.trans awaited
    cases idle.symm.trans acts

theorem idle_same (path : Runs (initial program memory code) before) (later : Runs before after)
    (stood : before.threads[me]? = some ⟨focus, frames⟩) (stands : after.threads[me]? = some ⟨other, base⟩)
    (idle : focus.grip? = none) (still : other.grip? = none) (same : base.filterMap Frame.grip? = frames.filterMap Frame.grip?)
    (scope : ScopeRef) : (before.world.cell scope).gates.Same (after.world.cell scope).gates me := by
  have was := runs_exact path scope me
  have now := runs_exact (path.trans later) scope me
  rw [idle_constructions stood idle] at was
  rw [idle_constructions stands still, same] at now
  refine ⟨now.building.trans was.building.symm, fun key => (now.owners key).trans (was.owners key).symm, ?_⟩
  rw [idle_waiting path scope stood idle, idle_waiting (path.trans later) scope stands still]

-- In every reachable state a thread is entered as building if and only if it is in the middle of a construction
-- in the scope, with the number of these, and as the builder of exactly their keys, which are all different.
-- Such constructions begin and end by the steps that enter them and take them out, where the number is never
-- zero; and a resolve that has come back or panicked has left the entries of its thread as they were.
theorem gates_exact (path : Runs (initial program memory code) system) (scope : ScopeRef) (me : ThreadId) :
    (system.world.cell scope).gates.Exact me (system.constructions scope me) ∧ (system.constructions scope me).Nodup ∧
    (∀ after, Step system after →
      after.constructions scope me = system.constructions scope me ∨
        (∃ job gate frames, system.threads[me]? = some ⟨.start job gate, frames⟩ ∧ job.request.scope = scope ∧
          after.constructions scope me = job.request.key :: system.constructions scope me) ∨
        ∃ key gate exit frames, system.threads[me]? = some ⟨.leave scope (.building key gate) exit, frames⟩ ∧
          system.constructions scope me = key :: after.constructions scope me) ∧
    (∀ key gate exit frames, system.threads[me]? = some ⟨.leave scope (.building key gate) exit, frames⟩ →
      ∃ after, system.advance me = some after ∧ system.constructions scope me = key :: after.constructions scope me ∧
        (system.world.cell scope).gates.building.get? me = some ((after.constructions scope me).length + 1) ∧
        (system.world.cell scope).gates.owners.get? key = some me) ∧
    ∀ request factory next frames, system.threads[me]? = some ⟨.run (.resolve request factory next), frames⟩ →
      ∀ later (exit : Exit C), Awaits me (.user next :: frames) system later →
        later.threads[me]? = some ⟨exit.focus, .user next :: frames⟩ →
        (system.world.cell scope).gates.Same (later.world.cell scope).gates me := by
  refine ⟨runs_exact path scope me, (runs_lived path scope).accounts.distinct, ?_, ?_, ?_⟩
  · exact fun after next => constructions_change path next scope me
  · exact fun key gate exit frames running => finish_counts path running
  · intro request factory next frames calls later exit waits answered
    have still : exit.focus.grip? = none := by cases exit <;> rfl
    exact idle_same path waits.runs calls answered rfl still rfl scope

theorem pair_entered : (run 27 resolvingPair).constructions ⟨0, ⟨.session, "a"⟩, 0⟩ 0 = ["inner", "outer"] ∧
    ((run 27 resolvingPair).world.cell ⟨0, ⟨.session, "a"⟩, 0⟩).gates.building.get? 0 = some 2 ∧
    ((run 19 (run 17 resolvingPair)).world.cell ⟨0, ⟨.session, "a"⟩, 0⟩).gates.building.get? 0 = some 1 := by
  have both := (gates_exact (run_runs 27 resolvingPair) ⟨0, ⟨.session, "a"⟩, 0⟩ 0).1
  have back := (gates_exact (run_runs 17 resolvingPair) ⟨0, ⟨.session, "a"⟩, 0⟩ 0).2.2.2.2 _ _ _ _ rfl (run 19 (run 17 resolvingPair))
    (.back (.object (.kept ⟨0, ⟨.session, "a"⟩, 0⟩ 0))) (awaits_run 19 3 rfl (by decide)) rfl
  refine ⟨by decide, ?_, ?_⟩
  · rw [both.building, if_neg (by decide)]
    rfl
  · rw [back.building]
    rfl

end System
end Lifespan
