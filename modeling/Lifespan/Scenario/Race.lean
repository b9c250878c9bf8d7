import Lifespan.Scenario.Script

-- Many threads that do the same at once, and what they came to together.
namespace Lifespan.Scenario

def tally (results : List (Option Fault)) : Tally :=
  let names := results.map (·.elim "ok" Fault.title)
  names.eraseDups.map fun name => (name, names.count name)

-- A refused cycle is told by the text of the fault, also when it stands behind another.
def tellsOfCycle (result : Option Fault) : Bool :=
  result.any fun fault => decide (1 < (fault.message.splitOn "waits on itself").length)

def withRound (next : Nat → Script) : Script :=
  .access (fun memory => { memory with rounds := memory.rounds ++ [.empty] }) fun memory => next memory.rounds.length

def Round.count (round : Round) : Reply client → Round
  | .panicked _ => { round with panicked := round.panicked + 1 }
  | .fault fault => { round with results := round.results ++ [some fault] }
  | .object object => { round with results := round.results ++ [none], objects := round.objects ++ [object] }
  | _ => { round with results := round.results ++ [none] }

def race (threads : Nat) (body : Nat → Nat → (Reply client → Script) → Script) (next : Round → Script) : Script :=
  withRound fun round =>
    .fork threads (fun index => body round index fun reply => .access (·.onRound round (·.count reply)) fun _ => .done)
      fun _ => .access id fun memory => next (memory.round round)

def raceCall (threads : Nat) (op : RegistryRef → Op client) (next : Outcome → Script) : Script :=
  withRegistry "main" fun registry =>
    race threads (fun _ _ => .call (op registry)) fun round => next (.fine (.tally (tally round.results)))

def raceFactory (round failing : Nat) (panics : Bool) (built : Script) : Script :=
  .access (·.onRound round fun shared => { shared with calls := shared.calls + 1 }) fun memory =>
    if (memory.round round).calls < failing then
      if panics then .panic ⟨some "early"⟩ else .fail (.words "early" [])
    else built

def raceGet (scope : ScopeRef) (key : String) (threads failing : Nat) (panics : Bool) (species : Species)
    (built : Script) (next : Outcome → Script) : Script :=
  race threads
    (fun round _ => .resolve ⟨scope, key, species.name⟩ fun _ => raceFactory round failing panics built)
    fun round =>
      let answer (value : Option Document) : Outcome :=
        .fine (.race ⟨round.calls, tally round.results, round.panicked, round.objects.eraseDups.length ≤ 1, value⟩)
      match round.objects with
      | [] => next (answer none)
      | object :: _ =>
        .call (.contents object) fun
          | .contents value => next (answer (some value))
          | _ => next (answer none)

def ringKey (index : Nat) : String := "ring" ++ toString index

def meetAll (round threads : Nat) (next : Script) : Script :=
  .access (·.onRound round fun shared => { shared with arrived := shared.arrived + 1 }) fun _ =>
    .await (fun memory => decide (threads ≤ (memory.round round).arrived)) next

-- Each thread constructs its own key and, in the middle of it, asks for its neighbour's.
def ring (scope : ScopeRef) (threads : Nat) (species : Species) (built : Script) (next : Outcome → Script) : Script :=
  race threads
    (fun round index =>
      .resolve ⟨scope, ringKey index, species.name⟩ fun scope =>
        meetAll round threads
          (.resolve ⟨scope, ringKey ((index + 1) % threads), species.name⟩ (fun _ => built) fun
            | .fault fault => .fail (.fault fault)
            | .panicked panic => .panic panic
            | _ => built))
    fun round =>
      .call (.keys scope) fun
        | .names keys =>
          next (.fine (.ring (tally round.results) (round.results.countP tellsOfCycle) (Text.sorted keys)))
        | _ => next (.fine .nothing)

end Lifespan.Scenario
