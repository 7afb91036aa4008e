import VoiceRelay.Shell.Expansion
import VoiceRelay.Shell.Reader

/-!
# Running scripts

Commands change the state of the shell and say how the script goes on. Parts in brackets, the stages
of pipelines and jobs in the background run on copies of the state, of which only files, streams and
the time last; jobs in the background begin at the same time as what follows them.

**Time.** Only waiting takes time. A script whose time is spent, or that goes on in loops without an
end, is over.

**Depth.** Commands within commands, and functions within functions, run to a fixed depth; a script
that goes deeper breaks down.
-/

namespace VoiceRelay
namespace Shell
namespace Run

/-- Runs a command. Whether its status is tested decides whether a failure may end the script. -/
abbrev Exec := (tested : Bool) → Command → Machine → Machine × Flow

section Limits

/-- The milliseconds after which a script is over. -/
def timeLimit : Nat := 10000

/-- How often a loop turns at most. -/
def turnLimit : Nat := 100000

end Limits

section Parts

/-- What a part on a copy of the state leaves: nothing of how it ended but that time was spent. -/
def apart (m : Machine) (r : Machine × Flow) : Machine × Flow :=
  (m.rejoin r.1, if r.2 = .spent then .spent else .on)

/-- Runs the lines of a script, at most so many, read to some depth. -/
def script (exec : Exec) (depth : Nat) : Nat → Octets → Machine → Machine × Flow
  | 0, _, m => (m, .on)
  | n + 1, text, m =>
    match Reader.front depth text with
    | .nothing => (m, .on)
    | .mistake => ((m.complain "Syntax error".toList).ended 2, .leave)
    | .line c rest =>
      match exec false c m with
      | (m, .on) => script exec depth n rest m
      | r => r

/-- Runs a script whose text is at hand. -/
def text (exec : Exec) (cs : Octets) (m : Machine) : Machine × Flow :=
  script exec (Reader.depth cs) (cs.length + 1) cs m

/-- Ends a shell: what it promised to do at its end is done. -/
def depart (exec : Exec) (r : Machine × Flow) : Machine × Flow :=
  match r with
  | (m, .spent) => (m, .spent)
  | (m, f) =>
    match m.farewell with
    | none => (m, f)
    | some cs =>
      let (m', f') := text exec cs { m with farewell := none }
      (m'.ended m.status, if f' = .spent then .spent else f)

/-- Runs a command on a copy of the state. -/
def subshell (exec : Exec) (tested : Bool) (c : Command) (m : Machine) : Machine × Flow :=
  apart m (depart exec (exec tested c { m with farewell := none }))

/-- Runs something with its output in a stream of its own, and gives what was written there. -/
def collect (f : Machine → Machine × Flow) (m : Machine) : Octets × (Machine × Flow) :=
  let k := m.fresh
  let channels := Machine.put Machine.outChannel (.stream k) m.channels
  let (m', flow) := f { m with channels := channels, fresh := k + 1 }
  (Machine.textOf (m'.piecesOf k), { m' with channels := m.channels }, flow)

/-- What a command prints, on a copy of the state. -/
def capture (exec : Exec) : Expansion.Capture := fun c m =>
  let (cs, m', _) := collect (subshell exec false c) m
  (cs, { m' with status := m.status, captured := m'.status })

/-- Runs the stages of a pipeline, each with the output of the one before as its input. -/
def stages (exec : Exec) (tested : Bool) : List Command → Machine → Machine × Flow
  | [], m => (m, .on)
  | [c], m => subshell exec tested c m
  | c :: d :: r, m =>
    match collect (subshell exec true c) m with
    | (cs, m', .on) =>
      let (m'', flow) := stages exec tested (d :: r) { m' with input := cs }
      ({ m'' with input := m'.input }, flow)
    | (_, r) => r

/-- Whether a command keeps the output open while it runs. -/
def holdsOutput (m : Machine) (c : Command) : Bool :=
  let led : Redirect → Bool
    | .mk number direction _ => number == Machine.outChannel && direction != .duplicate
  let away := match c with
    | .simple _ _ rs => rs.any led
    | _ => false
  !away && m.channels.any fun ch => ch.2 == .stream Machine.shown

/-- Starts a job in the background. -/
def background (exec : Exec) (c : Command) (m : Machine) : Machine × Flow :=
  let number := 1000 + m.jobs.length
  let part := { m with input := [], job := number, jobs := [], farewell := none }
  let (m', flow) := depart exec (exec false c part)
  let ends := if flow = .spent then max timeLimit m'.held else m'.held
  let job : Job := ⟨number, ends, holdsOutput m c || m'.jobs.any Job.holds, m'.status⟩
  ({ m with
      status := 0
      files := m'.files
      made := m'.made
      streams := m'.streams
      fresh := m'.fresh
      jobs := job :: m.jobs }, .on)

/-- A failure that nobody tests may end the script. -/
def checked (tested : Bool) (r : Machine × Flow) : Machine × Flow :=
  if r.1.stopOnFailure ∧ !tested ∧ r.1.status ≠ 0 ∧ r.2 = .on then (r.1, .leave) else r

/-- What a loop makes of how a turn of it ended: it goes on, or it is over. -/
def turned : Flow → Option Flow
  | .on => none
  | .again 0 => none
  | .again (n + 1) => some (.again n)
  | .breaks 0 => some .on
  | .breaks (n + 1) => some (.breaks n)
  | f => some f

/-- Repeats while a test holds, at most so many times. -/
def repeated (test body : Machine → Machine × Flow) (whileTrue : Bool) :
    Nat → (last : Nat) → Machine → Machine × Flow
  | 0, _, m => (m, .spent)
  | n + 1, last, m =>
    match test m with
    | (m, .on) =>
      if (m.status == 0) = whileTrue then
        let (m, f) := body m
        match turned f with
        | none => repeated test body whileTrue n m.status m
        | some f => (m, f)
      else (m.ended last, .on)
    | (m, f) => (m, (turned f).getD .on)

/-- Runs something as a loop. -/
def looped (m : Machine) (f : Machine → Machine × Flow) : Machine × Flow :=
  let r := f { m with loops := m.loops + 1 }
  ({ r.1 with loops := m.loops }, r.2)

/-- Repeats for each of some values of a parameter. -/
def forEach (name : Octets) (body : Machine → Machine × Flow) :
    List Octets → Machine → Machine × Flow
  | [], m => (m, .on)
  | v :: vs, m =>
    let (m, f) := body (m.set name v)
    match turned f with
    | none => forEach name body vs m
    | some f => (m, f)

end Parts

section Redirections

/-- Leads a channel to a file, which is emptied unless it is written behind its end. -/
def openFile (m : Machine) (number : Nat) (name : Octets) (behind : Bool) : Option Machine :=
  let lead (ch : Channel) : Machine := { m with channels := Machine.put number ch m.channels }
  match String.ofList name with
  | "/dev/null" | "/dev/full" | "/dev/tty" => some (lead .nothing)
  | "/dev/stdout" | "/dev/fd/1" =>
    some (lead ((m.channels.lookup Machine.outChannel).getD .nothing))
  | "/dev/stderr" | "/dev/fd/2" =>
    some (lead ((m.channels.lookup Machine.errorChannel).getD .nothing))
  | _ =>
    if m.canWrite name then
      let key := Machine.shortName name
      let old := (m.files.lookup key).getD []
      let files := Machine.put key (if behind then old else []) m.files
      some { lead (.file key) with files := files }
    else none

/-- Carries a redirection out; `none` if that is not possible. -/
def redirect (capture : Expansion.Capture) (r : Redirect) (m : Machine) :
    Option Unit × Machine :=
  match r with
  | .mk number direction target =>
    match Expansion.text capture target m with
    | (.error e, m) => (none, m.complain e)
    | (.ok t, m) =>
      let lead (ch : Channel) : Machine :=
        { m with channels := Machine.put number ch m.channels }
      match direction with
      | .document => (some (), if number = 0 then { m with input := t } else m)
      | .read =>
        match m.file? t with
        | some cs => (some (), if number = 0 then { m with input := cs } else m)
        | none => (none, m.complain ("cannot open ".toList ++ t ++ ": No such file".toList))
      | .write | .append =>
        match openFile m number t (direction == .append) with
        | some m => (some (), m)
        | none =>
          (none, m.complain ("cannot create ".toList ++ t ++ ": Directory nonexistent".toList))
      | .duplicate =>
        if t = ['-'] then
          (some (), if number = 0 then { m with input := [] } else lead .nothing)
        else if t.all Char.isDigit ∧ !t.isEmpty then
          match m.channels.lookup (Decimal.value t) with
          | some ch => (some (), lead ch)
          | none =>
            if Decimal.value t = 0 then (some (), m)
            else (none, m.complain (t ++ ": Bad file descriptor".toList))
        else (none, m.complain ("Bad fd number".toList))

/-- Carries redirections out, from the left; `none` as soon as one is not possible. -/
def redirectAll (capture : Expansion.Capture) (rs : List Redirect) (m : Machine) :
    Option Unit × Machine :=
  rs.foldl (fun s r =>
    match s with
    | (some (), m) => redirect capture r m
    | s => s) (some (), m)

/-- Runs something with redirections, and leads the channels back. -/
def redirected (capture : Expansion.Capture) (rs : List Redirect)
    (f : Machine → Machine × Flow) (m : Machine) : Machine × Flow :=
  let reads := rs.any fun
    | .mk number direction _ =>
      number == 0 && (direction == .read || direction == .document || direction == .duplicate)
  match redirectAll capture rs m with
  | (none, m') => ({ m' with channels := m.channels, input := m.input }.ended 2, .on)
  | (some (), m') =>
    let (m'', flow) := f m'
    ({ m'' with channels := m.channels, input := if reads then m.input else m''.input }, flow)

end Redirections

section Builtins

/-- The settings in front of a command, carried out. -/
def assign (capture : Expansion.Capture) (ss : List (Octets × Word)) (m : Machine) :
    Except Octets Unit × Machine :=
  ss.foldl (fun r s =>
    match r with
    | (.error e, m) => (.error e, m)
    | (.ok (), m) =>
      match Expansion.text capture s.2 m with
      | (.ok v, m) => (.ok (), m.set s.1 v)
      | (.error e, m) => (.error e, m)) (.ok (), m)

/-- A number that a command of the shell takes. -/
def number (standard : Nat) (args : List Octets) : Nat :=
  match args with
  | a :: _ => if !a.isEmpty ∧ a.all Char.isDigit then Decimal.value a else standard
  | [] => standard

/-- A switch of the shell, turned on or off. -/
def option (on : Bool) (m : Machine) (c : Char) : Machine :=
  match c with
  | 'e' => { m with stopOnFailure := on }
  | 'u' => { m with stopOnUnset := on }
  | 'n' => { m with onlyReads := on }
  | _ => m

/-- A switch of the shell by its long name, turned on or off. -/
def longOption (on : Bool) (m : Machine) (name : Octets) : Machine :=
  match String.ofList name with
  | "errexit" => option on m 'e'
  | "nounset" => option on m 'u'
  | "noexec" => option on m 'n'
  | _ => m

/-- Turns switches and puts new arguments. -/
def set : List Octets → Machine → Machine
  | ['-', 'o'] :: name :: r, m => set r (longOption true m name)
  | ['+', 'o'] :: name :: r, m => set r (longOption false m name)
  | ['-', '-'] :: r, m => { m with arguments := r }
  | ['-'] :: r, m => set r m
  | ('-' :: c :: cs) :: r, m => set r ((c :: cs).foldl (option true) m)
  | ('+' :: c :: cs) :: r, m => set r ((c :: cs).foldl (option false) m)
  | [], m => m
  | args, m => { m with arguments := args }

/-- Puts the values of names with equals signs. -/
def declare (args : List Octets) (m : Machine) : Machine :=
  args.foldl (fun m a =>
    match Text.splitOnce (· == '=') a with
    | some (name, v) => m.set name v
    | none => m) m

/-- Names parameters that programs get, and puts values of some. -/
def giveAway (args : List Octets) (m : Machine) : Machine :=
  let m := declare args m
  { m with exported := args.map (·.takeWhile (· != '=')) ++ m.exported }

/-- Keeps the values of names for when the function ends, and puts new ones. -/
def keepLocal (args : List Octets) (m : Machine) : Machine :=
  args.foldl (fun m a =>
    let name := a.takeWhile (· != '=')
    let m := match m.locals with
      | frame :: r => { m with locals := ((name, m.parameters.lookup name) :: frame) :: r }
      | [] => m
    declare [a] m) m

/-- A line of the input, and what is left; whether its end was there. -/
def inputLine (raw : Bool) : Nat → Octets → List (Char × Bool) × Octets × Bool
  | 0, cs => ([], cs, false)
  | _ + 1, [] => ([], [], false)
  | _ + 1, '\n' :: r => ([], r, true)
  | n + 1, c :: r =>
    if c = '\\' ∧ !raw then
      match r with
      | '\n' :: r => inputLine raw n r
      | d :: r =>
        let (line, rest, ended) := inputLine raw n r
        ((d, true) :: line, rest, ended)
      | [] => ([], [], false)
    else
      let (line, rest, ended) := inputLine raw n r
      ((c, false) :: line, rest, ended)

/-- Takes the values of names out of a line; the last one gets all that is left. -/
def share (separators : Octets) : List Octets → List (Char × Bool) → List (Octets × Octets)
  | [], _ => []
  | name :: names, line =>
    let blank (p : Char × Bool) : Bool :=
      !p.2 && separators.contains p.1 && (p.1 == ' ' || p.1 == '\t' || p.1 == '\n')
    let separator (p : Char × Bool) : Bool := !p.2 && separators.contains p.1
    let line := line.dropWhile blank
    let trimmed (l : List (Char × Bool)) : List (Char × Bool) := (l.reverse.dropWhile blank).reverse
    if names.isEmpty then
      let last := trimmed line
      let alone := last.getLast?.any separator && !last.dropLast.any separator
      [(name, (if alone then trimmed last.dropLast else last).map Prod.fst)]
    else
      let field := line.takeWhile fun p => !separator p
      let rest := (line.drop field.length).dropWhile blank
      let rest := if rest.head?.any separator then rest.tail else rest
      (name, field.map Prod.fst) :: share separators names rest

/-- Reads a line of the input into parameters. -/
def read (args : List Octets) (m : Machine) : Machine :=
  let raw := args.head? == some ['-', 'r']
  let names := if raw then args.tail else args
  let (line, rest, ended) := inputLine raw (m.input.length + 1) m.input
  let m := (share m.separators names line).foldl (fun m p => m.set p.1 p.2) { m with input := rest }
  m.ended (if ended then 0 else 1)

/-- The milliseconds of a time with a unit; `none` if it is none. -/
def duration? (cs : Octets) : Option Nat :=
  let unit := match cs.getLast? with
    | some 's' => 1
    | some 'm' => 60
    | some 'h' => 3600
    | some 'd' => 86400
    | _ => 0
  let digits := if unit = 0 then cs else cs.dropLast
  if "infinity".toList = cs ∨ "inf".toList = cs then some timeLimit
  else
    match Tools.decimal? digits with
    | some (n, places) =>
      if n < 0 then none else some (n.toNat * 1000 * max unit 1 / Decimal.tenTo places)
    | none => none

/-- Waits for the sum of some times. -/
def sleep (args : List Octets) (m : Machine) : Machine × Flow :=
  match args.mapM duration? with
  | some ts =>
    if ts.isEmpty then (m.ended 1, .on)
    else
      let clock := m.clock + ts.foldl (· + ·) 0
      ({ m with clock := clock }.ended 0, if timeLimit ≤ clock then .spent else .on)
  | none => (m.ended 1, .on)

/-- Waits for jobs in the background. -/
def wait (args : List Octets) (m : Machine) : Machine × Flow :=
  let named := m.jobs.filter fun j => args.contains (Decimal.digits j.number)
  let jobs := if args.isEmpty then m.jobs else named
  let clock := (jobs.map Job.ends).foldl max m.clock
  let status := if args.isEmpty then 0 else ((jobs.head?.map Job.status).getD 127)
  ({ m with clock := clock }.ended status, if timeLimit ≤ clock then .spent else .on)

/-- Ends a job in the background at once: what it would have written later is not written. -/
def killJob (number : Nat) (m : Machine) : Machine :=
  let late (w : Written) : Bool := w.job == number && m.clock < w.time
  { m with
    streams := m.streams.map fun s => (s.1, s.2.filter fun w => !late w)
    jobs := m.jobs.map fun j =>
      if j.number = number then { j with ends := min j.ends m.clock, status := 143 } else j }

/-- Ends jobs, or the shell itself. -/
def kill (args : List Octets) (m : Machine) : Machine × Flow :=
  let targets := (args.filter fun a => a.head? != some '-').map Decimal.value
  if args.contains ['-', '0'] then (m.ended 0, .on)
  else
    let m := targets.foldl (fun m k => killJob k m) m
    if args.contains ['7'] then ({ m with farewell := none }.ended 137, .leave)
    else (m.ended 0, .on)

/-- Promises to do something at the end. -/
def trap (args : List Octets) (m : Machine) : Machine :=
  match args with
  | action :: names =>
    if names.any fun n => n == "EXIT".toList || n == ['0'] then
      { m with farewell := if action = ['-'] ∨ action.isEmpty then none else some action }
    else m
  | [] => m

/-- Whether one of the shell's own commands ends the script when it is misused. -/
def isSpecial (name : String) : Bool :=
  [":", ".", "eval", "exec", "exit", "export", "readonly", "return", "set", "shift", "trap",
    "unset", "break", "continue", "times"].contains name

/-- Calls a function. -/
def call (exec : Exec) (tested : Bool) (body : Command) (args : List Octets) (m : Machine) :
    Machine × Flow :=
  let inside := { m with arguments := args, locals := [] :: m.locals, loops := 0 }
  let (m', f) := exec tested body inside
  let frame := m'.locals.headD []
  let m' := frame.foldl Machine.restore m'
  ({ m' with arguments := m.arguments, locals := m.locals, loops := m.loops },
    match f with
    | .back | .breaks _ | .again _ => .on
    | f => f)

end Builtins

section Programs

/-- The parts of a path, with dots resolved; `none` if a folder on the way is not known. -/
def resolve (parts : List Octets) : Option (List Octets) :=
  parts.foldl (fun r p =>
    match r with
    | none => none
    | some l =>
      if !Machine.folders.contains (.ofList ('/' :: Text.join ['/'] l)) then none
      else if p.isEmpty ∨ p = ['.'] then some l
      else if p = ['.', '.'] then some l.dropLast
      else some (l ++ [p])) (some [])

/-- Whether bare names are looked up where the programs are. -/
def knowsPrograms (m : Machine) : Bool :=
  match m.parameters.lookup "PATH".toList with
  | some path =>
    (Text.pieces (· == ':') path).any fun f => f == "/bin".toList || f == "/usr/bin".toList
  | none => true

/-- The name of the program at a path, or of a bare name; `none` if a path leads elsewhere. -/
def programName? (m : Machine) (name : Octets) : Option String :=
  if !name.contains '/' then if knowsPrograms m then some (.ofList name) else none
  else if name.head? ≠ some '/' then none
  else
    match resolve (Text.pieces (· == '/') name).tail with
    | some l =>
      let base := l.getLastD []
      let folder := '/' :: Text.join ['/'] l.dropLast
      if name.getLast? ≠ some '/' ∧ (folder = "/bin".toList ∨ folder = "/usr/bin".toList) then
        some (.ofList base)
      else none
    | none => none

/-- The words of a text. -/
def wordsOf (cs : Octets) : List Octets :=
  (Text.pieces Numeral.isSpace cs).filter fun w => !w.isEmpty

/-- A text in groups of so many words. -/
def groups (size : Nat) : Nat → List Octets → List (List Octets)
  | 0, _ => []
  | n + 1, ws => if ws.isEmpty then [] else ws.take size :: groups size n (ws.drop size)

/-- A shell within the shell, started by some name: its switches, then the text of a script or the
name of a file. -/
def innerShell (exec : Exec) (name : Octets) (args : List Octets) (m : Machine) :
    Machine × Flow :=
  let flags := args.takeWhile fun a => Tools.isSwitch a
  let letters := flags.flatMap List.tail
  let rest := args.drop flags.length
  let start (text : Octets) (zeroth : Octets) (arguments : List Octets) : Machine × Flow :=
    let given := m.parameters.filter fun p => m.exported.contains p.1
    let inner := { Machine.begun zeroth arguments with
      parameters := given ++ (Machine.begun [] []).parameters
      exported := m.exported
      stopOnFailure := letters.contains 'e'
      stopOnUnset := letters.contains 'u'
      onlyReads := letters.contains 'n'
      clock := m.clock
      files := m.files
      made := m.made
      channels := m.channels
      input := m.input
      streams := m.streams
      fresh := m.fresh
      job := m.job
      jobs := m.jobs }
    apart m (depart exec (Run.text exec text inner))
  if letters.contains 'c' then
    match rest with
    | text :: more => start text (more.headD name) more.tail
    | [] => (m.ended 2, .on)
  else
    match rest with
    | [] => start m.input name []
    | file :: more =>
      match m.file? file with
      | some text => start text file more
      | none => (m.ended 2, .on)

/-- Runs a program of the host with its arguments; `none` if it is not there. Programs that run
others go to some depth. -/
def program (exec : Exec) : Nat → Octets → List Octets → Machine → Option (Machine × Flow)
  | 0, _, _, _ => none
  | n + 1, path, args, m =>
    let name := (programName? m path).getD ""
    let start (args : List Octets) (m : Machine) : Machine × Flow :=
      match args with
      | [] => (m.ended 0, .on)
      | inner :: rest =>
        (program exec n inner rest m).getD (m.ended 127, .on)
    match name with
    | "true" => some (m.ended 0, .on)
    | "false" => some (m.ended 1, .on)
    | "printf" =>
      let p := printf .program args
      some ((m.emit Machine.outChannel p.out).ended p.status, .on)
    | "echo" => some ((m.emit Machine.outChannel (echo .program args)).ended 0, .on)
    | "sleep" => some (sleep args m)
    | "kill" => some (kill args m)
    | "test" | "[" =>
      let args := if name = "[" then args.dropLast else args
      match Tools.test? m.kind? (args.length + 1) args with
      | some b => some (m.ended (if b then 0 else 1), .on)
      | none => some (m.ended 2, .on)
    | "sh" | "dash" => some (innerShell exec path args m)
    | "env" =>
      let args :=
        if args.head? = some ['-', 'u'] then args.drop 2 else args.dropWhile Tools.isSwitch
      let settings := args.takeWhile (·.contains '=')
      let (m', f) := start (args.drop settings.length) (giveAway settings m)
      some ({ m' with parameters := m.parameters, exported := m.exported }, f)
    | "nice" | "nohup" | "setsid" | "stdbuf" =>
      some (start (args.dropWhile fun a => Tools.isSwitch a) m)
    | "timeout" =>
      match (args.dropWhile fun a => Tools.isSwitch a) with
      | limit :: rest =>
        let (m', f) := start rest m
        let last := m.clock + (duration? limit).getD timeLimit
        if last < m'.clock ∧ last < timeLimit then
          some ({ m' with
            clock := last
            status := 124
            streams := m'.streams.map fun s => (s.1, s.2.filter fun w => w.time ≤ last) }, .on)
        else some (m', f)
      | [] => some (m.ended 125, .on)
    | "xargs" =>
      let (size, rest) : Nat × List Octets := match args with
        | ['-', 'n'] :: k :: r => (max 1 (Decimal.value k), r)
        | ('-' :: 'n' :: k) :: r => (max 1 (Decimal.value k), r)
        | r => (m.input.length + 1, r)
      let ws := wordsOf m.input
      let gs := if ws.isEmpty then [[]] else groups size ws.length ws
      let command := if rest.isEmpty then ["echo".toList] else rest
      some (gs.foldl (fun r g =>
        match r with
        | (m, .on) => start (command ++ g) m
        | r => r) ({ m with input := [] }, .on))
    | "tee" =>
      let (letters, names) := Tools.switches args
      let behind := letters.contains 'a'
      let files := ((names.filter m.canWrite).map Machine.shortName).foldl (fun fs name =>
        let old := if behind then (fs.lookup name).getD [] else []
        Machine.put name (old ++ m.input) fs) m.files
      some (({ m with files := files, input := [] }.emit Machine.outChannel m.input).ended 0, .on)
    | "yes" =>
      let line := (if args.isEmpty then ['y'] else Text.join [' '] args) ++ ['\n']
      if m.channels.lookup Machine.outChannel = some (.stream Machine.shown) then some (m, .spent)
      else
        some ((m.emit Machine.outChannel (List.replicate 10000 line).flatten).ended 0, .on)
    | "rm" =>
      let names := (Tools.switches args).2.map Machine.shortName
      some ({ m with files := m.files.filter fun f => !names.contains f.1 }.ended 0, .on)
    | "touch" =>
      let names := ((Tools.switches args).2.filter fun f => m.canWrite f && (m.file? f).isNone)
      some ({ m with files := names.map (Machine.shortName ·, []) ++ m.files }.ended 0, .on)
    | "mkdir" =>
      let names := (Tools.switches args).2.map Machine.shortName
      some ({ m with made := names ++ m.made }.ended 0, .on)
    | "chmod" => some (m.ended 0, .on)
    | _ =>
      (Tools.run? name m.file? args m.input).map fun o =>
        let writesOnly := ["seq", "expr", "basename", "dirname"].contains name
        (({ m with input := if writesOnly then m.input else [] }).took o, .on)

/-- How deep programs run programs. -/
def programDepth : Nat := 16

/-- The names of the shell's own commands. -/
def builtins : List String :=
  [":", ".", "[", "alias", "bg", "break", "cd", "command", "continue", "echo", "eval", "exec",
    "exit", "export", "false", "fg", "getopts", "hash", "jobs", "kill", "local", "printf", "pwd",
    "read", "readonly", "return", "set", "shift", "test", "times", "trap", "true", "type",
    "ulimit", "umask", "unalias", "unset", "wait"]

/-- Runs one of the shell's own commands; `none` if it is not one of them. -/
def builtin? (exec : Exec) (name : String) (args : List Octets) (m : Machine) :
    Option (Machine × Flow) :=
  let well (m : Machine) : Option (Machine × Flow) := some (m.ended 0, .on)
  match name with
  | ":" | "true" => well m
  | "times" | "alias" | "unalias" | "hash" | "jobs" | "fg" | "bg" | "ulimit" => well m
  | "umask" => well (if args.isEmpty then m.emit Machine.outChannel "0022\n".toList else m)
  | "false" => some (m.ended 1, .on)
  | "exit" => some (m.ended (number m.status args % 256), .leave)
  | "return" => some (m.ended (number m.status args % 256), .back)
  | "break" =>
    some (m.ended 0, if m.loops = 0 then .on else .breaks (min (number 1 args) m.loops - 1))
  | "continue" =>
    some (m.ended 0, if m.loops = 0 then .on else .again (min (number 1 args) m.loops - 1))
  | "set" => well (set args m)
  | "shift" =>
    let k := number 1 args
    if m.arguments.length < k then
      some ((m.complain "shift: can't shift that many".toList).ended 2, .leave)
    else well { m with arguments := m.arguments.drop k }
  | "unset" =>
    let names := (args.filter fun a => !Tools.isSwitch a)
    let ofFunctions := args.contains ['-', 'f']
    well (if ofFunctions then
        { m with functions := m.functions.filter fun f => !names.contains f.1 }
      else { m with parameters := m.parameters.filter fun p => !names.contains p.1 })
  | "export" => well (giveAway (args.filter fun a => !Tools.isSwitch a) m)
  | "readonly" => well (declare (args.filter fun a => !Tools.isSwitch a) m)
  | "local" =>
    if m.locals.isEmpty then some ((m.complain "local: not in a function".toList).ended 2, .leave)
    else well (keepLocal args m)
  | "eval" =>
    match Run.text exec (Text.join [' '] args) (m.ended 0) with
    | r => some r
  | "." =>
    match m.file? (args.headD []) with
    | some cs =>
      match Run.text exec cs m with
      | (m, .back) => some (m, .on)
      | r => some r
    | none =>
      some ((m.complain (".: ".toList ++ args.headD [] ++ ": not found".toList)).ended 2, .leave)
  | "trap" => well (trap args m)
  | "type" =>
    let kinds := args.map fun a =>
      if (m.functions.lookup a).isSome then (a ++ " is a shell function".toList, true)
      else if builtins.contains (.ofList a) then (a ++ " is a shell builtin".toList, true)
      else if (program exec programDepth a [] { m with input := [] }).isSome then
        (a ++ " is /usr/bin/".toList ++ a, true)
      else (a ++ ": not found".toList, false)
    some ((m.emit Machine.outChannel (Tools.joinLines (kinds.map Prod.fst))).ended
      (if kinds.all Prod.snd then 0 else 127), .on)
  | "wait" => some (wait args m)
  | "kill" => some (kill args m)
  | "read" => some (if args.isEmpty then m.ended 2 else read args m, .on)
  | "cd" =>
    let target := args.headD ['/']
    if m.kind? target = some .folder then
      let place := (resolve (Text.pieces (· == '/') target).tail).getD []
      well (m.set "PWD".toList (if target.head? = some '/' then '/' :: Text.join ['/'] place
        else target))
    else some ((m.complain ("cd: can't cd to ".toList ++ target)).ended 2, .on)
  | "pwd" =>
    let place := (m.parameters.lookup "PWD".toList).getD ['/']
    well (m.emit Machine.outChannel (place ++ ['\n']))
  | "test" | "[" =>
    if name = "[" ∧ args.getLast? ≠ some [']'] then
      some ((m.complain "[: missing ]".toList).ended 2, .on)
    else
      let args := if name = "[" then args.dropLast else args
      match Tools.test? m.kind? (args.length + 1) args with
      | some b => some (m.ended (if b then 0 else 1), .on)
      | none => some (m.ended 2, .on)
  | "printf" =>
    let p := printf .shell args
    some ((m.emit Machine.outChannel p.out).ended p.status, .on)
  | "echo" => well (m.emit Machine.outChannel (echo .shell args))
  | _ => none

/-- Runs a command by its name: one of the shell's own, a function, or a program. -/
def named (exec : Exec) (tested : Bool) : Nat → Octets → List Octets → Machine → Machine × Flow
  | 0, _, _, m => (m, .on)
  | n + 1, name, args, m =>
    let unknown : Machine × Flow := ((m.complain (name ++ ": not found".toList)).ended 127, .on)
    let own := String.ofList name
    match m.functions.lookup name, own with
    | none, "command" =>
      match args with
      | ['-', 'v'] :: inner :: _ =>
        let inner' := String.ofList inner
        if builtins.contains inner' ∨ (m.functions.lookup inner).isSome then
          ((m.emit Machine.outChannel (inner ++ ['\n'])).ended 0, .on)
        else if (program exec programDepth inner [] { m with input := [] }).isSome then
          ((m.emit Machine.outChannel ("/usr/bin/".toList ++ inner ++ ['\n'])).ended 0, .on)
        else (m.ended 127, .on)
      | inner :: rest => named exec tested n inner rest { m with functions := [] } |> fun r =>
        ({ r.1 with functions := m.functions }, r.2)
      | [] => (m.ended 0, .on)
    | none, "exec" =>
      match args with
      | [] => (m.ended 0, .on)
      | inner :: rest =>
        match program exec programDepth inner rest m with
        | some (m, .on) => ({ m with farewell := none }, .leave)
        | some r => r
        | none =>
          ((m.complain ("exec: ".toList ++ inner ++ ": not found".toList)).ended 127, .leave)
    | f, _ =>
      if isSpecial own then (builtin? exec own args m).getD unknown
      else
        match f with
        | some body => call exec tested body args m
        | none =>
          match builtin? exec own args m with
          | some r => r
          | none =>
            (program exec programDepth name args m).getD unknown

/-- Runs a simple command. -/
def simple (exec : Exec) (tested : Bool) (ss : List (Octets × Word)) (ws : List Word)
    (rs : List Redirect) (m : Machine) : Machine × Flow :=
  let capture := capture exec
  let failed (e : Octets) (m : Machine) : Machine × Flow := ((m.complain e).ended 2, .leave)
  match Expansion.fields capture ws { m with captured := 0 } with
  | (.error e, m) => failed e m
  | (.ok [], m) =>
    match assign capture ss m with
    | (.error e, m) => failed e m
    | (.ok (), m) => redirected capture rs (fun m => (m, .on)) (m.ended m.captured)
  | (.ok (name :: args), m) =>
    let own := String.ofList name
    let old := ss.map fun s => (s.1, m.parameters.lookup s.1)
    let act (m : Machine) : Machine × Flow :=
      match assign capture ss m with
      | (.error e, m) => failed e m
      | (.ok (), m) =>
        let exported := m.exported
        let (m, f) := named exec tested 8 name args
          { m with exported := ss.map Prod.fst ++ exported }
        if isSpecial own then (m, f)
        else ({ old.foldl Machine.restore m with exported := exported }, f)
    if own = "exec" ∧ args.isEmpty then
      match redirectAll capture rs m with
      | (some (), m) => (m.ended 0, .on)
      | (none, m) => (m.ended 2, .leave)
    else
      match redirected capture rs act m with
      | (m', .on) =>
        if isSpecial own ∧ m'.status = 2 ∧ !rs.isEmpty then (m', .leave) else (m', .on)
      | r => r

end Programs

section Commands

/-- The first arm of a selection that fits a text, and the state after its patterns. -/
def chosen (capture : Expansion.Capture) (text : Octets) :
    List (List Word × Command) → Machine → Option Command × Machine
  | [], m => (none, m)
  | (ps, c) :: arms, m =>
    let (hit, m) := ps.foldl (fun (s : Bool × Machine) p =>
      if s.1 then s
      else
        match Expansion.items capture Expansion.depth p s.2 with
        | (.ok is, m) => (Glob.fits (Glob.ofMarked (Expansion.markedOf is)) text, m)
        | (.error _, m) => (false, m)) (false, m)
    if hit then (some c, m) else chosen capture text arms m

/-- Runs a command whose parts are run by `exec`. -/
def step (exec : Exec) : Exec := fun tested c m =>
  if timeLimit ≤ m.clock then (m, .spent)
  else if m.onlyReads then (m, .on)
  else
    match c with
    | .skip => (m.ended 0, .on)
    | .simple ss ws rs => checked tested (simple exec tested ss ws rs m)
    | .redirected c rs => redirected (capture exec) rs (exec tested c) m
    | .subshell c => checked tested (subshell exec tested c m)
    | .sequence a b =>
      match exec tested a m with
      | (m, .on) => exec tested b m
      | r => r
    | .also a b =>
      match exec true a m with
      | (m, .on) => if m.status = 0 then exec tested b m else (m, .on)
      | r => r
    | .otherwise a b =>
      match exec true a m with
      | (m, .on) => if m.status = 0 then (m, .on) else exec tested b m
      | r => r
    | .negated c =>
      match exec true c m with
      | (m, .on) => (m.ended (if m.status = 0 then 1 else 0), .on)
      | r => r
    | .pipeline c cs =>
      let (m', f) := stages exec tested (c :: cs) m
      checked tested ({ m' with channels := m.channels }, f)
    | .background c => background exec c m
    | .choice test yes no =>
      match exec true test m with
      | (m, .on) => if m.status = 0 then exec tested yes m else exec tested no m
      | r => r
    | .loop whileTrue test body =>
      looped m (repeated (exec true test) (exec tested body) whileTrue turnLimit 0)
    | .each name words body =>
      match words with
      | none => looped (m.ended 0) (forEach name (exec tested body) m.arguments)
      | some ws =>
        match Expansion.fields (capture exec) ws m with
        | (.ok vs, m) => looped (m.ended 0) (forEach name (exec tested body) vs)
        | (.error e, m) => ((m.complain e).ended 2, .leave)
    | .select word arms =>
      match Expansion.text (capture exec) word m with
      | (.error e, m) => ((m.complain e).ended 2, .leave)
      | (.ok t, m) =>
        match chosen (capture exec) t arms m with
        | (some c, m) => exec tested c m
        | (none, m) => (m.ended 0, .on)
    | .define name body =>
      ({ m with functions := Machine.put name body m.functions }.ended 0, .on)

/-- Runs a command to some depth; a script that goes deeper breaks down. -/
def run : Nat → Exec
  | 0, _, _, m => ({ m with farewell := none }.ended 139, .leave)
  | n + 1, tested, c, m => step (run n) tested c m

end Commands

section Whole

/-- How deep commands run. -/
def depth : Nat := 3000

/-- What a program prints, if it is over in time: `none` if it is not. -/
def shown (r : Machine × Flow) : Option Octets :=
  if r.2 = .spent ∨ timeLimit ≤ r.1.held then none
  else some (Machine.textOf (r.1.piecesOf Machine.shown))

/-- Runs a program of the host by its name or path, with nothing to read. -/
def start (name : Octets) (args : List Octets) : Option (Machine × Flow) :=
  program (run depth) programDepth name args (.begun [] [])

end Whole

end Run
end Shell
end VoiceRelay
