import Lifespan.Scenario.Play
import Lifespan.System

-- What a scenario came to, read out of the history of its run.
namespace Lifespan.Scenario

inductive Trace
  | note (note : Note)
  | log (record : Record)

def traced (log : Bool) (thread : ThreadId) : ThreadId × Item client → Option Trace
  | (on, .note note) => if on = thread then some (.note note) else none
  | (on, .logged record) => if log && on = thread then some (.log record) else none
  | _ => none

structure Transcript where
  log : Bool
  history : List (ThreadId × Item client)

namespace Transcript

def trace (transcript : Transcript) (thread : ThreadId) : List Trace :=
  transcript.history.filterMap (traced transcript.log thread)

def answered : List Trace → List Trace → List (Answer × List Trace)
  | _, [] => []
  | since, .note (.answered answer) :: rest => (answer, since.reverse) :: answered [] rest
  | since, trace :: rest => answered (trace :: since) rest

def answers (transcript : Transcript) : List (Answer × List Trace) := answered [] (transcript.trace 0)

end Transcript

def script (lines : List Line) : Script := playLines ⟨none, true⟩ lines fun _ => .done

-- Plays the lines in a world of their own, for at most so many steps. A scenario whose threads wait for each
-- other for ever comes to nothing.
def transcript? (log : Bool) (budget : Nat) (lines : List Line) : Option Transcript :=
  let last := System.run budget (.initial (C := client) nofun .empty (script lines))
  if last.threads.head?.any (·.ending?.isSome) then some ⟨log, last.world.history.reverse⟩ else none

end Lifespan.Scenario
