import Lifespan.Effect
import Lifespan.Thread

-- One step of one thread: how it changes what is shared, what it leaves in the history, and
-- what the thread is about to do afterwards. Each activity has functions from what the thread
-- is about to do to its move; no move means that the thread has to wait.
namespace Lifespan

structure Move (C : Client) where
  effect : Effect C
  items : List (Item C)
  focus : Focus C
  frames : List (Frame C)

namespace Move
variable {C : Client}

def silent (focus : Focus C) (frames : List (Frame C)) : Move C := ⟨.still, [], focus, frames⟩

def also (item : Item C) (move : Move C) : Move C := { move with items := item :: move.items }

def changing (effect : Effect C) (focus : Focus C) (frames : List (Frame C)) : Move C := ⟨effect, [], focus, frames⟩

def emit (world : World C) (registry : RegistryRef) (event : Event) (frames : List (Frame C)) : Option (Move C) :=
  (world.registries[registry]?).map fun cell =>
    ⟨.still, [.emitted registry event, .logged (.ofEvent cell.settings event)], .deliver registry event, frames⟩

def deliver (world : World C) (registry : RegistryRef) (event : Event) (frames : List (Frame C)) : Option (Move C) :=
  (world.registries[registry]?).map fun cell =>
    match cell.listener with
    | none => silent (.back .done) frames
    | some listener =>
      ⟨.still, [.delivered registry event], .run (listener event), .delivering registry event :: frames⟩

def callHook (world : World C) (call : HookCall) (frames : List (Frame C)) : Option (Move C) :=
  (world.instance? call.object).map fun made => ⟨.still, [.hook call], .run (made.hooks.code call), frames⟩

end Move
end Lifespan
