import Lifespan.Move.Calling

-- Threads over one world. Any thread that can make its next step may make it; time passes
-- only for threads that pause.
namespace Lifespan

structure System (C : Client) where
  world : World C
  threads : List (Thread C)

namespace System
variable {C : Client}

def initial (program : C.Label → Code C) (memory : C.Memory) (code : Code C) : System C :=
  ⟨.initial program memory, [.ofCode code]⟩

def record (world : World C) (me : ThreadId) (items : List (Item C)) : World C :=
  { world with history := (items.map (Prod.mk me)).reverse ++ world.history }

def endings (system : System C) (threads : List ThreadId) : Option (List (ThreadId × Ending)) :=
  threads.mapM fun thread => do
    let running ← system.threads[thread]?
    let ending ← running.ending?
    pure (thread, ending)

def perform (system : System C) (me : ThreadId) (move : Move C) : System C :=
  ⟨record (move.effect.apply me system.world) me move.items, system.threads.set me ⟨move.focus, move.frames⟩⟩

-- One step of one thread. Threads are made and waited for here, as a thread alone knows
-- nothing of the others.
def advance (system : System C) (me : ThreadId) : Option (System C) := do
  let thread ← system.threads[me]?
  match thread.focus with
  | .run (.fork count body next) =>
    let made := (List.range count).map fun index => Thread.ofCode (body index)
    let names := (List.range count).map (· + system.threads.length)
    some { system with threads := system.threads.set me ⟨.join names next, thread.frames⟩ ++ made }
  | .join names next =>
    let endings ← system.endings names
    some { system with threads := system.threads.set me ⟨.run (next (.threads endings)), thread.frames⟩ }
  | _ => (thread.next system.world me).map (system.perform me)

def waited (time : Nat) (thread : Thread C) : Thread C :=
  match thread.focus with
  | .run (.pause left next) => { thread with focus := .run (.pause (left - time) next) }
  | _ => thread

def elapse (system : System C) (time : Nat) : System C :=
  { system with threads := system.threads.map (waited time) }

inductive Step : System C → System C → Prop
  | thread (me : ThreadId) (moved : before.advance me = some after) : Step before after
  | time (passed : Nat) : Step before (before.elapse passed)

inductive Runs : System C → System C → Prop
  | refl (system : System C) : Runs system system
  | step (path : Runs before middle) (next : Step middle after) : Runs before after

-- One fair order of the steps: the first thread that can go on does, and time passes when
-- none can.
def pauses (system : System C) : List Nat :=
  system.threads.filterMap fun thread =>
    match thread.focus with
    | .run (.pause left _) => some left
    | _ => none

def move? (system : System C) : Option (System C) :=
  match (List.range system.threads.length).findSome? system.advance with
  | some next => some next
  | none => system.pauses.min?.map system.elapse

def run : Nat → System C → System C
  | 0, system => system
  | budget + 1, system =>
    match system.move? with
    | none => system
    | some next => run budget next

theorem move?_step {system next : System C} (moved : system.move? = some next) : Step system next := by
  unfold move? at moved
  split at moved
  · rename_i found
    cases Option.some.inj moved
    obtain ⟨me, _, advanced⟩ := List.exists_of_findSome?_eq_some found
    exact .thread me advanced
  · obtain ⟨time, _, same⟩ := Option.map_eq_some_iff.mp moved
    exact same ▸ .time time

theorem run_runs (budget : Nat) (system : System C) : Runs system (run budget system) := by
  suffices all : ∀ start, Runs start system → Runs start (run budget system) from all system (.refl system)
  induction budget generalizing system with
  | zero => exact fun _ path => path
  | succ budget ih =>
    intro start path
    unfold run
    split
    · exact path
    · rename_i next moved
      exact ih next start (.step path (move?_step moved))

end System
end Lifespan
