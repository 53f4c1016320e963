import ProxyKeeper.Program
import ProxyKeeper.Text.Uuid

/-!
# Worlds in memory

A world that answers programs out of a tree of files in memory. What nginx replies is given with
it. Requests for the lock need no waiting here, for a single program has no rivals.

## Main Definitions

* `World`: the state of a world.
* `World.answer`: what a request is answered with.
* `Program.runIn`: a program by itself in a world.
-/

namespace ProxyKeeper

/-- The state of a world. -/
structure World where
  tree : Tree
  /-- How many fresh names were given out. -/
  freshNames : Nat := 0
  phase : Phase := .idle
  metrics : Metrics := []
  tallies : Tallies := {}
deriving Inhabited

/-- What nginx replies, and what it leaves behind. -/
abbrev NginxModel := Nginx.Call → World → Nginx.Reply × World

namespace World

/-- The name of a file that was given out as the number `count`. -/
def freshName (count : Nat) : String :=
  Text.Uuid.write count

/-- What a request is answered with, and the world after it. -/
def answer (nginx : NginxModel) (request : Request) (world : World) : request.Answer × World :=
  match request with
  | .file call =>
    let (given, tree) := world.tree.perform call
    (given, { world with tree := tree })
  | .nginx call => nginx call world
  | .freshName =>
    (freshName world.freshNames, { world with freshNames := world.freshNames + 1 })
  | .acquire => ((), world)
  | .release => ((), world)
  | .publish phase => ((), { world with phase := phase })
  | .count event tally =>
    ((), { world with
      metrics := world.metrics ++ [event]
      tallies := world.tallies.up? tally })

/-- A world without nginx. -/
def withoutNginx : NginxModel :=
  fun _ world => (.notStarted "", world)

end World

/-- Runs a program by itself in a world. -/
def Program.runIn (nginx : NginxModel) (program : Program α) (world : World) : α × World :=
  program.run (World.answer nginx) world

end ProxyKeeper
