import ProxyKeeper.Host.Machine
import ProxyKeeper.World

/-!
# Hosts

A host in memory: the programs that a command line can name there are a small shell and the
utilities. It gives nginx to worlds that have no other, by running the commands of its calls.

## Main Definitions

* `Host.spawn`: a command line, run to its end.
* `Host.nginx`: the calls of nginx as command lines.
-/

namespace ProxyKeeper.Host

open Shell

/-- What comes of a command line. -/
structure Run where
  reply : Nginx.Reply
  tree : Tree

/-- The outcome of a program that ended with a status. -/
def outcome (status : Nat) (stdout stderr : ByteArray) : Nginx.Output :=
  .ofStatus (256 * (status : Int)) stdout stderr

/-- What comes of a shell that has run its script. -/
def ofMachine (machine : Machine) : Run where
  tree := machine.tree
  reply :=
    if machine.overdue then .timedOut
    else match machine.ended with
      | none => .finished (outcome machine.status machine.stdout machine.stderr)
      | some (.exit status) => .finished (outcome status machine.stdout machine.stderr)
      | some (.signal number) => .finished (.ofStatus number machine.stdout machine.stderr)

/-- Runs a shell with its arguments. -/
def shell (tree : Tree) (program : String) (limit : Nat) : List String → Run
  | "-c" :: script :: rest =>
    ofMachine
      (Machine.runScript
        { tree := tree, name := rest.headD program, args := rest.drop 1, left := limit } script)
  | ["-v"] => ofMachine { tree := tree, name := program, args := [], left := limit }
  | file :: args =>
    let machine : Machine := { tree := tree, name := program, args := args, left := limit }
    if file.toList.head? = some '-' then
      ofMachine
        { machine with
          status := 2, stderr := (program ++ ": 0: Illegal option " ++ file ++ "\n").toUTF8 }
    else match tree.read ⟨file⟩ with
      | .ok content =>
        ofMachine ({ machine with name := file }.runScript (Text.Utf8.lossy content))
      | .error _ =>
        ofMachine
          { machine with
            status := 2
            stderr := (program ++ ": 0: cannot open " ++ file ++ ": No such file\n").toUTF8 }
  | [] => ofMachine { tree := tree, name := program, args := [], left := limit }

/-- The directories in which programs are looked for. -/
def programDirectories : List String :=
  ["/bin/", "/usr/bin/"]

/-- The name of the program that a command means. -/
def programName (command : String) : String :=
  match programDirectories.findSome? fun directory =>
    Text.stripLead? directory.toList command.toList with
  | some rest => String.ofList rest
  | none => command

/-- Why a command that no program answers to cannot be started. -/
def startFault (tree : Tree) (command : String) : IoFault :=
  if command.toList.contains '/' then
    match tree.entryAt ⟨command⟩ with
    | .ok _ => .permissionDenied
    | .error fault => fault
  else .notFound

/-- What is said when a command cannot be started. -/
def notStarted (command : String) (fault : IoFault) : Nginx.Reply :=
  .notStarted ("failed to run '" ++ command ++ "': " ++ fault.message)

/-- Runs a command line with a limit on its time, in milliseconds. -/
def spawn (tree : Tree) (limit : Nat) : List String → Run
  | [] => ⟨.notStarted "empty command line", tree⟩
  | command :: args =>
    if (command :: args).any fun word => word.toList.contains '\x00' then
      ⟨notStarted command (.other "nul byte found in provided data"), tree⟩
    else
      let name := programName command
      if name = "sh" || name = "dash" then shell tree command limit args
      else match Utility.run? tree false name args with
        | some effect =>
          ⟨if limit < effect.delay then .timedOut
           else .finished (outcome effect.status effect.stdout effect.stderr), tree⟩
        | none => ⟨notStarted command (startFault tree command), tree⟩

/-- nginx as the command that its calls name. -/
def nginx : NginxModel := fun call world =>
  let run := spawn world.tree (1000 * call.limit.toNat) call.command
  (run.reply, { world with tree := run.tree })

end ProxyKeeper.Host
