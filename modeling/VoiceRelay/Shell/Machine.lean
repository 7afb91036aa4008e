import VoiceRelay.Shell.Syntax
import VoiceRelay.Shell.Tools

/-!
# The state of a shell

What a script can change while it runs: parameters, functions, files and folders, where its numbered
channels lead to, what is left of its input, and the time that has passed. What is written goes to
streams in pieces, each with its time and the job that wrote it, so that jobs in the background can
write in between.

**Results.**

- `Machine.piecesOf_emit`: what is written to a stream is kept in front of what was written before.
-/

namespace VoiceRelay
namespace Shell

/-- Where a channel leads to. -/
inductive Channel
  | stream (k : Nat)
  | file (name : Octets)
  | nothing
  deriving DecidableEq, Repr

/-- A piece of a stream. -/
structure Written where
  time : Nat
  job : Nat
  text : Octets
  deriving DecidableEq, Repr

/-- A job in the background: its number, when it ends, whether the output stays open for it, and its
status. -/
structure Job where
  number : Nat
  ends : Nat
  holds : Bool
  status : Nat
  deriving DecidableEq, Repr

/-- The state of a shell. `exported` names the parameters that programs get, `captured` is the
status of the last command whose output was put in, `loops` counts the loops around a command, and
`made` holds the folders that were made. The pieces of a stream are kept newest first. -/
structure Machine where
  parameters : List (Octets × Octets)
  exported : List Octets
  arguments : List Octets
  zeroth : Octets
  functions : List (Octets × Command)
  locals : List (List (Octets × Option Octets))
  status : Nat
  captured : Nat
  loops : Nat
  clock : Nat
  stopOnFailure : Bool
  stopOnUnset : Bool
  onlyReads : Bool
  files : List (Octets × Octets)
  made : List Octets
  channels : List (Nat × Channel)
  input : Octets
  streams : List (Nat × List Written)
  fresh : Nat
  job : Nat
  jobs : List Job
  farewell : Option Octets

/-- How a command leaves the script: it goes on, all ends, a function ends, loops end or begin their
next turn, or no time is left. -/
inductive Flow
  | on
  | leave
  | back
  | breaks (loops : Nat)
  | again (loops : Nat)
  | spent
  deriving DecidableEq, Repr

namespace Machine

section Streams

/-- The stream of what is shown, and the channels for output and complaints. -/
def shown : Nat := 0
def outChannel : Nat := 1
def errorChannel : Nat := 2

/-- A shell that has just begun. -/
def begun (zeroth : Octets) (arguments : List Octets) : Machine where
  parameters := [("IFS".toList, [' ', '\t', '\n'])]
  exported := []
  arguments := arguments
  zeroth := zeroth
  functions := []
  locals := []
  status := 0
  captured := 0
  loops := 0
  clock := 0
  stopOnFailure := false
  stopOnUnset := false
  onlyReads := false
  files := []
  made := []
  channels := [(outChannel, .stream shown), (errorChannel, .nothing)]
  input := []
  streams := []
  fresh := 1
  job := 0
  jobs := []
  farewell := none

/-- The pieces of a stream. -/
def piecesOf (m : Machine) (k : Nat) : List Written := (m.streams.lookup k).getD []

/-- The text of pieces, in the order of their times. -/
def textOf (ps : List Written) : Octets :=
  (ps.reverse.mergeSort fun a b => a.time ≤ b.time).flatMap Written.text

/-- Puts a value to a key. -/
def put {α β : Type} [BEq α] (key : α) (value : β) (l : List (α × β)) : List (α × β) :=
  (key, value) :: l.filter (·.1 != key)

/-- Writes to a channel. -/
def emit (m : Machine) (number : Nat) (text : Octets) : Machine :=
  if text.isEmpty then m
  else
    match m.channels.lookup number with
    | some (.stream k) =>
      { m with streams := put k (⟨m.clock, m.job, text⟩ :: m.piecesOf k) m.streams }
    | some (.file name) =>
      { m with files := put name ((m.files.lookup name).getD [] ++ text) m.files }
    | _ => m

/-- Writes output and complaints of a program, and takes its status. -/
def took (m : Machine) (o : Tools.Outcome) : Machine :=
  { (m.emit outChannel o.out).emit errorChannel o.complaints with status := o.status }

/-- Ends with a status. -/
def ended (m : Machine) (status : Nat) : Machine := { m with status := status }

/-- A complaint of the shell itself. -/
def complain (m : Machine) (what : Octets) : Machine :=
  m.emit errorChannel (m.zeroth ++ ": 1: ".toList ++ what ++ ['\n'])

/-- Takes over from a part that ran on its own what lasts beyond it. -/
def rejoin (m part : Machine) : Machine :=
  { m with
    status := part.status
    clock := part.clock
    files := part.files
    made := part.made
    input := part.input
    streams := part.streams
    fresh := part.fresh
    jobs := part.jobs }

/-- When the last job ends that keeps the output open. -/
def held (m : Machine) : Nat := ((m.jobs.filter Job.holds).map Job.ends).foldl max m.clock

/-- The value of a parameter. -/
def value (m : Machine) (name : Octets) : Option Octets :=
  match String.ofList name with
  | "#" => some (Decimal.digits m.arguments.length)
  | "?" => some (Decimal.digits m.status)
  | "$" => some ['7']
  | "-" => some (if m.stopOnFailure then ['e'] else [])
  | "!" => m.jobs.head?.map fun j => Decimal.digits j.number
  | _ =>
    if name.all Char.isDigit then
      match Decimal.value name with
      | 0 => some m.zeroth
      | k + 1 => m.arguments[k]?
    else m.parameters.lookup name

/-- The same shell with a parameter set. -/
def set (m : Machine) (name value : Octets) : Machine :=
  { m with parameters := put name value m.parameters }

/-- The same shell with a parameter as it was. -/
def restore (m : Machine) (old : Octets × Option Octets) : Machine :=
  match old.2 with
  | some v => m.set old.1 v
  | none => { m with parameters := m.parameters.filter (·.1 != old.1) }

/-- The characters that separate fields. -/
def separators (m : Machine) : Octets := (m.parameters.lookup "IFS".toList).getD [' ', '\t', '\n']

/-- The folders that are known to be there. -/
def folders : List String :=
  ["/", "/bin", "/sbin", "/usr", "/usr/bin", "/usr/sbin", "/usr/local", "/usr/local/bin", "/etc",
    "/tmp", "/var", "/var/tmp", "/home", "/root", "/dev", "/dev/shm", "/proc", "/lib", "/usr/lib",
    "/opt", "/run", "/sys", ".", ".."]

/-- The devices that are known to be there. -/
def devices : List String :=
  ["/dev/null", "/dev/stdin", "/dev/stdout", "/dev/stderr", "/dev/full", "/dev/zero", "/dev/tty"]

/-- The files that are known to be there, whatever is in them. -/
def knownFiles : List String :=
  ["/etc/passwd", "/etc/group", "/etc/hosts", "/etc/hostname", "/bin/sh", "/bin/cat", "/bin/printf",
    "/usr/bin/printf", "/usr/bin/env", "/bin/true", "/bin/echo"]

/-- A name without the dots in front that lead nowhere. -/
def shortName : Octets → Octets
  | '.' :: '/' :: r => shortName r
  | name => name

/-- How much of a device without an end is read at most. -/
def readLimit : Nat := 1000000

/-- The content of a file. -/
def file? (m : Machine) (name : Octets) : Option Octets :=
  match String.ofList name with
  | "/dev/null" => some []
  | "/dev/zero" => some (List.replicate readLimit '\x00')
  | "/dev/stdin" | "/dev/fd/0" | "/proc/self/fd/0" => some m.input
  | _ => m.files.lookup (shortName name)

/-- What is known of a path. -/
def kind? (m : Machine) (name : Octets) : Option Tools.Kind :=
  let path := String.ofList name
  if folders.contains path ∨ m.made.contains (shortName name) then some .folder
  else if devices.contains path then some .device
  else if knownFiles.contains path then some (.file false)
  else (m.file? name).map fun c => .file c.isEmpty

/-- The folder that a path leads into, with a slash at its end; empty for a bare name. -/
def folderOf (name : Octets) : Octets := (name.reverse.dropWhile (· != '/')).reverse

/-- Whether a file can be made at a path. -/
def canWrite (m : Machine) (name : Octets) : Bool :=
  let folder := folderOf (shortName name)
  let common := ["/tmp/", "/var/tmp/", "/dev/shm/"].contains (String.ofList folder)
  !name.isEmpty && m.kind? name != some .folder &&
    (folder.isEmpty || m.made.contains folder.dropLast || common)

end Streams

section Laws

theorem piecesOf_put (m : Machine) (k : Nat) (ps : List Written) :
    ({ m with streams := put k ps m.streams } : Machine).piecesOf k = ps := by
  simp [piecesOf, put]

/-- What is written to a stream is kept in front of what was written before. -/
theorem piecesOf_emit (m : Machine) {number k : Nat} {text : Octets} (ht : text ≠ [])
    (hc : m.channels.lookup number = some (.stream k)) :
    (m.emit number text).piecesOf k = ⟨m.clock, m.job, text⟩ :: m.piecesOf k := by
  simp [emit, ht, hc, piecesOf_put]

end Laws

end Machine
end Shell
end VoiceRelay
