import ProxyKeeper.Cli.Execution
import ProxyKeeper.Host.Basic
import ProxyKeeper.Text.Uuid

/-!
# The program

The command line on real files. What a command asks for is answered here and nothing is decided.

Calls of the file system go to the file system. The commands of nginx are run by the host in
memory, on a copy of the working directory; the files they leave are written back.
-/

namespace ProxyKeeper.Main

/-- The fault with a number, which some calls give with its sign turned. -/
def numbered (number : UInt32) : IoFault :=
  .os (if number.toNat < 0x80000000 then number.toNat else 0x100000000 - number.toNat)

/-- The fault of a call that failed. -/
def faultOf : IO.Error → IoFault
  | .alreadyExists _ number _ => numbered number
  | .otherError number _ => numbered number
  | .resourceBusy number _ => numbered number
  | .resourceVanished number _ => numbered number
  | .unsupportedOperation number _ => numbered number
  | .hardwareFault number _ => numbered number
  | .unsatisfiedConstraints number _ => numbered number
  | .illegalOperation number _ => numbered number
  | .protocolError number _ => numbered number
  | .timeExpired number _ => numbered number
  | .interrupted _ number _ => numbered number
  | .noFileOrDirectory _ number _ => numbered number
  | .invalidArgument _ number _ => numbered number
  | .permissionDenied _ number _ => numbered number
  | .resourceExhausted _ number _ => numbered number
  | .inappropriateType _ number _ => numbered number
  | .noSuchThing _ number _ => numbered number
  | .unexpectedEof => .other "unexpected end of file"
  | .userError text => .other text

/-- What a call gives, or its fault. -/
def attempt (call : IO α) : IO (Except IoFault α) := do
  try
    return .ok (← call)
  catch error =>
    return .error (faultOf error)

/-- The status of a file. -/
def statusOf (data : IO.FS.Metadata) : FileStatus :=
  ⟨data.type == .file, data.byteSize.toNat⟩

/-- Answers a call of the file system. -/
def answerFile : (call : FileCall) → IO call.Answer
  | .createDirectories path => attempt do
    if !path.text.isEmpty then IO.FS.createDirAll path.text
  | .write path content => attempt (IO.FS.writeBinFile path.text content)
  | .rename source target => attempt (IO.FS.rename source.text target.text)
  | .remove path => attempt (IO.FS.removeFile path.text)
  | .read path => attempt (IO.FS.readBinFile path.text)
  | .list path => attempt do
    let entries ← (← IO.FS.realPath path.text).readDir
    return entries.toList.map (·.fileName)
  | .status path => attempt do
    return statusOf (← (← IO.FS.realPath path.text).metadata)
  | .canonical path => attempt do
    return ⟨(← IO.FS.realPath path.text).toString⟩

/-- The entries at and below a location. -/
partial def entriesAt (location : Location) : IO (List (Location × Entry)) := do
  let place ← IO.FS.realPath location.path.text
  if ← place.isDir then
    let names := (← place.readDir).toList.map (·.fileName)
    let below ← names.mapM fun name => do
      try entriesAt (location ++ [name]) catch _ => return []
    return (location, .directory) :: below.flatten
  else return [(location, .file (← IO.FS.readBinFile place))]

/-- The working directory and what is below it. -/
def workingTree : IO Tree := do
  let here : Path := ⟨(← IO.currentDir).toString⟩
  let location := here.pieces.filter (· != "")
  let above := (List.range location.length).drop 1 |>.map fun n =>
    (location.take n, Entry.directory)
  return { entries := above ++ (← entriesAt location), workingDirectory := location }

/-- Writes the files in which a tree differs from the one before. -/
def writeBack (before after : Tree) : IO Unit := do
  for (location, entry) in after.entries do
    if before.entry? location != some entry then
      match entry with
      | .file content => IO.FS.writeBinFile location.path.text content
      | _ => pure ()

/-- Answers a call of nginx. -/
def answerNginx (call : Nginx.Call) : IO Nginx.Reply := do
  let tree ← workingTree
  let run := Host.spawn tree (1000 * call.limit.toNat) call.command
  writeBack tree run.tree
  return run.reply

/-- The number that some bytes write. -/
def numberOf (bytes : ByteArray) : Nat :=
  bytes.toList.foldl (fun n byte => 256 * n + byte.toNat) 0

/-- Answers a request. -/
def answer : (request : Request) → IO request.Answer
  | .file call => answerFile call
  | .nginx call => answerNginx call
  | .freshName => do
    let name : String := Text.Uuid.write (numberOf (← IO.getRandomBytes 16))
    return name
  | .acquire => pure ()
  | .release => pure ()
  | .publish _ => pure ()
  | .count _ _ => pure ()

/-- Runs a program on what is there. -/
def perform : Program α → IO α
  | .done a => pure a
  | .ask request next => do perform (next (← answer request))

/-- The variables that give settings. -/
def settingVariables : List String :=
  ["DOCKGATE_GENERAL_LOG_LEVEL", "DOCKGATE_GENERAL_LOG_FORMAT"] ++
    NginxSettings.fieldNames.map fun name => "DOCKGATE_NGINX_" ++ name.toUpper

/-- The variables of the environment. -/
def environment : IO Environment := do
  let found ← settingVariables.filterMapM fun name => do
    return (← IO.getEnv name).map fun value => (name, value.toUTF8)
  return fun name => found.lookup name

/-- Styles are for terminals. -/
def palette : IO Cli.Palette := do
  return if ← (← IO.getStdout).isTty then .colored else .plain

/-- Carries out a command line. -/
def run (words : List String) : IO UInt32 := do
  match Cli.Invocation.read words with
  | .error fault =>
    let stream ← if fault.exitCode = 0 then IO.getStdout else IO.getStderr
    stream.putStrLn fault.message
    return fault.exitCode.toUInt32
  | .ok invocation =>
    let palette ← palette
    let answer ← perform (invocation.run .standard (← environment) .epoch palette)
    IO.print answer.stdout
    if let some error := answer.failure then
      IO.eprintln (palette.paint .boldRed "error:" ++ " " ++ error.message)
    return answer.exitCode.toUInt32

end ProxyKeeper.Main

/-- The program. -/
def main (words : List String) : IO UInt32 :=
  ProxyKeeper.Main.run words
