import VoiceRelay.Server.Launch

/-!
# The command line

Takes the variables of the environment and the files that a launch looks at, launches, and writes
the log to the standard output and the report of a fault to the standard error.

**Host.** This layer opens no streams: whatever is dialled cannot be reached.
-/

namespace VoiceRelay
namespace CommandLine

/-- Takes a path of the disk into a tree. What is there and cannot be read as a file is a folder. -/
def take (base : Disk.Place) (d : Disk.Tree) (path : String) : IO Disk.Tree := do
  try
    return d.write base path (← IO.FS.readBinFile path).toList
  catch
    | .noFileOrDirectory _ _ _ => return d
    | _ => return d.makeFolder base path

/-- The files that a launch looks at: the settings, and the files that they name. -/
def snapshot (base : Disk.Place) (path : String) : IO Disk.Tree := do
  let d ← take base (Disk.Tree.bare.makeFolder [] ("/".intercalate base)) path
  match SettingsFile.load d base path with
  | .ok (s, _) => [s.motto.file, s.web.requestLog, s.messages.journal].foldlM (take base) d
  | .error _ => return d

/-- What is said of a document that cannot be read. -/
def unreadable : String := "TOML parse error"

/-- Launches the program and gives its code. -/
def run : IO UInt32 := do
  let names := [Launch.pathVariable, Launch.levelVariable, Launch.formatVariable]
  let found ← names.mapM fun n => return (n, ← IO.getEnv n)
  let lookup (n : String) : Option String := (found.lookup n).join
  let base := Disk.Tree.names (← IO.currentDir).toString
  let disk ← snapshot base ((lookup Launch.pathVariable).getD Launch.standardPath)
  let outcome := Launch.run lookup ⟨disk, base, [], .stream .unreachable, Address.refusal⟩
  for l in outcome.log do
    IO.println (Launch.shown outcome.format l)
  match outcome.fault with
  | some f =>
    IO.eprint (Launch.report (f.chain unreadable))
    return 1
  | none => return 0

end CommandLine
end VoiceRelay

/-- Launches the program. -/
def main : IO UInt32 := VoiceRelay.CommandLine.run
