import VoiceRelay.Shell.Syntax
import VoiceRelay.Text.Blank

/-!
# Reading scripts

A script is read one complete command line at a time, so that what stands before a mistake has run
when the mistake is met. A number sign at the start of a word begins a comment, a backslash before
the end of a line joins it with the next, and the text of a here-document is taken out of the script
where its redirection stands.

**Turns.** Every reader has a bound on how deep it goes, which follows from the length of the
script. What was read comes with what follows it; there is none where the script has a mistake.
-/

namespace VoiceRelay
namespace Shell
namespace Reader

section Tokens

/-- Passes over blanks, joined lines and comments, and over ends of lines if that is asked for. -/
def skip (acrossLines inComment : Bool) : Octets → Octets
  | [] => []
  | '\\' :: '\n' :: r =>
    if inComment then if acrossLines then skip true false r else '\n' :: r
    else skip acrossLines false r
  | c :: r =>
    if c = '\n' then if acrossLines then skip true false r else c :: r
    else if inComment ∨ c = ' ' ∨ c = '\t' then skip acrossLines inComment r
    else if c = '#' then skip acrossLines true r
    else c :: r

/-- What follows blanks. -/
def blanks (cs : Octets) : Octets := skip false false cs

/-- What follows blanks and ends of lines. -/
def lines (cs : Octets) : Octets := skip true false cs

/-- Whether a character stands for itself in a word without quotes. -/
def isOrdinary (c : Char) : Bool := !isMeta c && !"'\"\\$\x60".toList.contains c

/-- The word at the front, if nothing in it is quoted or expanded. -/
def plainWord (cs : Octets) : Octets :=
  match cs.dropWhile isOrdinary with
  | [] => cs
  | c :: _ => if isMeta c then cs.takeWhile isOrdinary else []

/-- What follows a reserved word, if it is at the front. -/
def keyword? (w : String) (cs : Octets) : Option Octets :=
  let cs := blanks cs
  if plainWord cs = w.toList then some (cs.drop w.length) else none

/-- The words that can only end a part of a command. -/
def closing : List String := ["then", "else", "elif", "fi", "do", "done", "esac", "\x7d"]

/-- Whether a list of commands ends here. -/
def atEnd (cs : Octets) : Bool :=
  cs.isEmpty || cs.head? == some ')' || (Text.dropLead? [';', ';'] cs).isSome ||
    closing.contains (.ofList (plainWord cs))

/-- Adds a character to the front of a word. -/
def addChar (quoted : Bool) (c : Char) : Word → Word
  | .text q cs :: w =>
    if q = quoted ∧ !cs.isEmpty then .text q (c :: cs) :: w
    else .text quoted [c] :: .text q cs :: w
  | w => .text quoted [c] :: w

end Tokens

section Documents

/-- The lines of a here-document up to its mark, and what follows them. -/
def documentLines (mark : Octets) (dropTabs : Bool) : Nat → Octets → Octets × Octets
  | 0, cs => ([], cs)
  | n + 1, cs =>
    if cs.isEmpty then ([], [])
    else
      let line := cs.takeWhile (· != '\n')
      let rest := cs.drop (line.length + 1)
      let line := if dropTabs then line.dropWhile (· == '\t') else line
      if line = mark then ([], rest)
      else
        let (body, rest) := documentLines mark dropTabs n rest
        (line ++ (if cs.contains '\n' then '\n' :: body else []), rest)

/-- The text of a here-document that begins on the next line, and the script without it. -/
def cutDocument (mark : Octets) (dropTabs : Bool) (cs : Octets) : Octets × Octets :=
  let line := cs.takeWhile (· != '\n')
  let after := cs.drop (line.length + 1)
  let (body, rest) := documentLines mark dropTabs (after.length + 1) after
  (body, line ++ '\n' :: rest)

/-- The text of a word, and whether any of it is quoted. -/
def unquoted (w : Word) : Octets × Bool :=
  w.foldl (fun a p =>
    match p with
    | .text q cs => (a.1 ++ cs, a.2 || q)
    | _ => a) ([], false)

/-- A script within backquotes, and what follows them; `none` if they are not closed. -/
def backquoted? : Octets → Option (Octets × Octets)
  | [] => none
  | '\x60' :: r => some ([], r)
  | '\\' :: c :: r =>
    (backquoted? r).map fun p =>
      ((if c = '\x60' ∨ c = '\\' ∨ c = '$' then [c] else ['\\', c]) ++ p.1, p.2)
  | c :: r => (backquoted? r).map fun p => (c :: p.1, p.2)

end Documents

section Words

/-- Where a word is being read. -/
inductive Mode
  | bare
  | quoted
  | brace (quoted : Bool)
  | document
  | sum (depth : Nat)
  deriving DecidableEq, Repr

/-- Whether text is quoted as it stands. -/
def Mode.isQuoted : Mode → Bool
  | .bare => false
  | .brace q => q
  | _ => true

/-- Whether quotes begin where they stand. -/
def Mode.knowsQuotes : Mode → Bool
  | .bare => true
  | .brace q => !q
  | _ => false

/-- Whether a backslash quotes a character. -/
def Mode.escapes (m : Mode) (c : Char) : Bool :=
  m.knowsQuotes || c == '$' || c == '\x60' || c == '\\' || (c == '"' && m != .document) ||
    (c == '}' && m == .brace true)

/-- The names of one character of parameters. -/
def isSpecial (c : Char) : Bool := "@*#?-$!".toList.contains c || c.isDigit

/-- The name of a parameter at the front, within braces. -/
def parameterName (cs : Octets) : Octets :=
  match cs with
  | c :: _ =>
    if c.isDigit then cs.takeWhile Char.isDigit
    else if isSpecial c then [c]
    else cs.takeWhile isNameChar
  | [] => []

/-- How the value of a parameter is taken, from what follows its name within braces. -/
def taking? : Octets → Option (Taking × Octets)
  | '}' :: r => some (.plain, '}' :: r)
  | ':' :: '-' :: r => some (.default true, r)
  | '-' :: r => some (.default false, r)
  | ':' :: '=' :: r => some (.assign true, r)
  | '=' :: r => some (.assign false, r)
  | ':' :: '?' :: r => some (.complain true, r)
  | '?' :: r => some (.complain false, r)
  | ':' :: '+' :: r => some (.instead true, r)
  | '+' :: r => some (.instead false, r)
  | '#' :: '#' :: r => some (.dropFront true, r)
  | '#' :: r => some (.dropFront false, r)
  | '%' :: '%' :: r => some (.dropBack true, r)
  | '%' :: r => some (.dropBack false, r)
  | _ => none

/-- Whether a parameter is taken with a pattern. -/
def Taking.hasPattern : Taking → Bool
  | .dropFront _ | .dropBack _ => true
  | _ => false

end Words

/-- How the parts of an and-or list go together. -/
inductive Junction
  | also
  | otherwise
  deriving DecidableEq, Repr

/-- The junction at the front. -/
def junction? : Octets → Option (Junction × Octets)
  | '&' :: '&' :: r => some (.also, r)
  | '|' :: '|' :: r => some (.otherwise, r)
  | _ => none

mutual

/-- The pieces of a word up to its end, which is passed over unless the word is bare. -/
def pieces : Nat → Mode → Octets → Option (Word × Octets)
  | 0, _, _ => none
  | _ + 1, .bare, [] => some ([], [])
  | _ + 1, .document, [] => some ([], [])
  | _ + 1, _, [] => none
  | n + 1, mode, c :: r =>
    let q := mode.isQuoted
    let more (word : Word) (rest : Octets) : Option (Word × Octets) :=
      (pieces n mode rest).map fun p => (word ++ p.1, p.2)
    let plain (quoted : Bool) (c : Char) (rest : Octets) : Option (Word × Octets) :=
      (pieces n mode rest).map fun p => (addChar quoted c p.1, p.2)
    if mode = .bare ∧ isMeta c then some ([], c :: r)
    else if mode = .quoted ∧ c = '"' then some ([], r)
    else if (mode = .brace true ∨ mode = .brace false) ∧ c = '}' then some ([], r)
    else if c = '\\' then
      match r with
      | [] => plain q '\\' []
      | '\n' :: r => pieces n mode r
      | d :: r => if mode.escapes d then plain true d r else plain q '\\' (d :: r)
    else if c = '\'' ∧ mode.knowsQuotes then
      let text := r.takeWhile (· != '\'')
      if text.length = r.length then none else more [.text true text] (r.drop (text.length + 1))
    else if c = '"' ∧ (mode.knowsQuotes ∨ mode = .brace true) then
      match pieces n .quoted r with
      | some (w, rest) => more (if w.isEmpty then [.text true []] else w) rest
      | none => none
    else if c = '\x60' then
      match backquoted? r with
      | some (inner, rest) =>
        match list n true true inner with
        | some (c, _) => more [.output q c] rest
        | none => none
      | none => none
    else if c = '$' then
      match dollar n q r with
      | some (w, rest) => more w rest
      | none => none
    else
      match mode with
      | .sum depth =>
        if c = ')' ∧ depth = 0 then
          if r.head? = some ')' then some ([], r.tail) else none
        else
          let inner := if c = '(' then depth + 1 else if c = ')' then depth - 1 else depth
          (pieces n (.sum inner) r).map fun p => (addChar true c p.1, p.2)
      | _ => plain q c r

/-- What a dollar sign stands for. -/
def dollar : Nat → Bool → Octets → Option (Word × Octets)
  | 0, _, _ => none
  | n + 1, q, '(' :: '(' :: r => (pieces n (.sum 0) r).map fun p => ([.sum q p.1], p.2)
  | n + 1, q, '(' :: r =>
    match list n true true r with
    | some (c, rest) =>
      match lines rest with
      | ')' :: rest => some ([.output q c], rest)
      | _ => none
    | none => none
  | n + 1, q, '{' :: r => (braced n q r).map fun p => ([p.1], p.2)
  | _ + 1, q, c :: r =>
    if isSpecial c then some ([.parameter q [c] .plain []], r)
    else
      let name := (c :: r).takeWhile isNameChar
      if name.isEmpty then some ([.text q ['$']], c :: r)
      else some ([.parameter q name .plain []], (c :: r).drop name.length)
  | _ + 1, q, [] => some ([.text q ['$']], [])

/-- A parameter within braces. -/
def braced : Nat → Bool → Octets → Option (Piece × Octets)
  | 0, _, _ => none
  | n + 1, q, cs =>
    let counted := cs.tail
    let name := parameterName counted
    if cs.head? = some '#' ∧ !name.isEmpty ∧ (counted.drop name.length).head? = some '}' then
      some (.parameter q name .length [], counted.drop (name.length + 1))
    else
      let name := parameterName cs
      if name.isEmpty then none
      else
        match taking? (cs.drop name.length) with
        | some (t, rest) =>
          (pieces n (.brace (q && !Taking.hasPattern t)) rest).map fun p =>
            (.parameter q name t p.1, p.2)
        | none => none

/-- A list of commands, up to the end of a part or, unless it goes on there, of the line. An empty
list may be a mistake. -/
def list : Nat → (acrossLines mayBeEmpty : Bool) → Octets → Option (Command × Octets)
  | 0, _, _, _ => none
  | n + 1, acrossLines, mayBeEmpty, cs =>
    let cs := if acrossLines then lines cs else blanks cs
    if atEnd cs then if mayBeEmpty then some (.skip, cs) else none
    else
      match andOr n cs with
      | none => none
      | some (c, rest) =>
        let goOn (c : Command) (rest : Octets) : Option (Command × Octets) :=
          let rest := if acrossLines then lines rest else blanks rest
          if atEnd rest ∨ rest.head? = some '\n' then some (c, rest)
          else (list n acrossLines true rest).map fun p => (.sequence c p.1, p.2)
        match blanks rest with
        | ';' :: ';' :: r => some (c, ';' :: ';' :: r)
        | ';' :: r => goOn c r
        | '&' :: r => goOn (.background c) r
        | '\n' :: r => if acrossLines then goOn c r else some (c, '\n' :: r)
        | r => some (c, r)

/-- Pipelines that run by how the ones before them ended. -/
def andOr : Nat → Octets → Option (Command × Octets)
  | 0, _ => none
  | n + 1, cs =>
    match pipeline n cs with
    | none => none
    | some (c, rest) => junctions n c rest

/-- What is joined to a command by junctions. -/
def junctions : Nat → Command → Octets → Option (Command × Octets)
  | 0, _, _ => none
  | n + 1, c, cs =>
    match junction? (blanks cs) with
    | none => some (c, cs)
    | some (j, rest) =>
      match pipeline n (lines rest) with
      | none => none
      | some (d, rest) => junctions n (if j = .also then .also c d else .otherwise c d) rest

/-- A pipeline. -/
def pipeline : Nat → Octets → Option (Command × Octets)
  | 0, _ => none
  | n + 1, cs =>
    match keyword? "!" cs with
    | some rest => (pipeline n rest).map fun p => (.negated p.1, p.2)
    | none =>
      match command n cs with
      | none => none
      | some (c, rest) =>
        match stages n rest with
        | none => none
        | some ([], rest) => some (c, rest)
        | some (ds, rest) => some (.pipeline c ds, rest)

/-- The commands that a pipeline goes on with. -/
def stages : Nat → Octets → Option (List Command × Octets)
  | 0, _ => none
  | n + 1, cs =>
    match blanks cs with
    | '|' :: '|' :: r => some ([], '|' :: '|' :: r)
    | '|' :: r =>
      match command n (lines r) with
      | none => none
      | some (c, rest) => (stages n rest).map fun p => (c :: p.1, p.2)
    | r => some ([], r)

/-- A command with its redirections. -/
def command : Nat → Octets → Option (Command × Octets)
  | 0, _ => none
  | n + 1, cs =>
    let cs := blanks cs
    let finish (s : Option (Command × Octets)) : Option (Command × Octets) :=
      match s with
      | none => none
      | some (c, rest) =>
        match redirects n rest with
        | none => none
        | some ([], rest) => some (c, rest)
        | some (rs, rest) => some (.redirected c rs, rest)
    let word := plainWord cs
    let rest := cs.drop word.length
    match String.ofList word with
    | "if" => finish (choice n rest)
    | "while" => finish (loop n true rest)
    | "until" => finish (loop n false rest)
    | "for" => finish (each n rest)
    | "case" => finish (select n rest)
    | "\x7b" =>
      finish (match list n true false rest with
        | some (c, rest) => (keyword? "\x7d" rest).map fun rest => (c, rest)
        | none => none)
    | w =>
      if closing.contains w then none
      else
        match cs with
        | '(' :: r =>
          finish (match list n true false r with
            | some (c, ')' :: rest) => some (.subshell c, rest)
            | _ => none)
        | _ =>
          match isName word, blanks rest with
          | true, '(' :: r =>
            match blanks r with
            | ')' :: r => (command n (lines r)).map fun p => (.define word p.1, p.2)
            | _ => none
          | _, _ =>
            match simple n false cs with
            | some (([], [], []), _) => none
            | some ((settings, words, rs), rest) => some (.simple settings words rs, rest)
            | none => none

/-- A choice, after the word that begins it. -/
def choice : Nat → Octets → Option (Command × Octets)
  | 0, _ => none
  | n + 1, cs => do
    let (test, rest) ← list n true false cs
    let rest ← keyword? "then" rest
    let (yes, rest) ← list n true false rest
    match keyword? "elif" rest with
    | some rest => (choice n rest).map fun p => (.choice test yes p.1, p.2)
    | none =>
      match keyword? "else" rest with
      | some rest =>
        let (no, rest) ← list n true false rest
        let rest ← keyword? "fi" rest
        return (.choice test yes no, rest)
      | none =>
        let rest ← keyword? "fi" rest
        return (.choice test yes .skip, rest)

/-- The part of a loop that is repeated. -/
def body : Nat → Octets → Option (Command × Octets)
  | 0, _ => none
  | n + 1, cs => do
    let rest ← keyword? "do" (lines cs)
    let (c, rest) ← list n true false rest
    let rest ← keyword? "done" rest
    return (c, rest)

/-- A loop, after the word that begins it. -/
def loop : Nat → Bool → Octets → Option (Command × Octets)
  | 0, _, _ => none
  | n + 1, whileTrue, cs => do
    let (test, rest) ← list n true false cs
    let (c, rest) ← body n rest
    return (.loop whileTrue test c, rest)

/-- A loop over words, after the word that begins it. -/
def each : Nat → Octets → Option (Command × Octets)
  | 0, _ => none
  | n + 1, cs => do
    let cs := blanks cs
    let name := plainWord cs
    if !isName name then none
    else
      let rest := lines (cs.drop name.length)
      match keyword? "in" rest with
      | some rest =>
        let ((_, words, _), rest) ← simple n true rest
        let rest := if rest.head? = some ';' then rest.tail else rest
        let (c, rest) ← body n rest
        return (.each name (some words) c, rest)
      | none =>
        let rest := if rest.head? = some ';' then rest.tail else rest
        let (c, rest) ← body n rest
        return (.each name none c, rest)

/-- A selection, after the word that begins it. -/
def select : Nat → Octets → Option (Command × Octets)
  | 0, _ => none
  | n + 1, cs => do
    let (word, rest) ← pieces n .bare (blanks cs)
    let rest ← keyword? "in" (lines rest)
    let (as, rest) ← arms n rest
    return (.select word as, rest)

/-- The arms of a selection, up to its end. -/
def arms : Nat → Octets → Option ((List (List Word × Command)) × Octets)
  | 0, _ => none
  | n + 1, cs => do
    let cs := lines cs
    match keyword? "esac" cs with
    | some rest => return ([], rest)
    | none =>
      let cs := if cs.head? = some '(' then cs.tail else cs
      let (ps, rest) ← patterns n cs
      let (c, rest) ← list n true true rest
      let rest := lines rest
      match rest with
      | ';' :: ';' :: rest =>
        let (as, rest) ← arms n rest
        return ((ps, c) :: as, rest)
      | _ =>
        let rest ← keyword? "esac" rest
        return ([(ps, c)], rest)

/-- The patterns of an arm, up to the bracket behind them. -/
def patterns : Nat → Octets → Option (List Word × Octets)
  | 0, _ => none
  | n + 1, cs => do
    let (w, rest) ← pieces n .bare (blanks cs)
    if w.isEmpty then none
    else
      match blanks rest with
      | ')' :: rest => return ([w], rest)
      | '|' :: rest =>
        let (ws, rest) ← patterns n rest
        return (w :: ws, rest)
      | _ => none

/-- The settings, words and redirections of a simple command; for the list of a loop there are words
only. -/
def simple : Nat → (wordsOnly : Bool) → Octets →
    Option ((List (Octets × Word) × List Word × List Redirect) × Octets)
  | 0, _, _ => none
  | n + 1, wordsOnly, cs =>
    let cs := blanks cs
    let number := cs.takeWhile Char.isDigit
    let mark := (cs.drop number.length).head?
    if mark = some '<' ∨ mark = some '>' then
      if wordsOnly then none
      else do
        let (r, rest) ← redirect n cs
        let ((ss, ws, rs), rest) ← simple n wordsOnly rest
        return ((ss, ws, r :: rs), rest)
    else
      match cs with
      | [] => some (([], [], []), [])
      | c :: _ =>
        if isMeta c then some (([], [], []), cs)
        else
          let name := cs.takeWhile isNameChar
          let isSetting := !wordsOnly && isName name && (cs.drop name.length).head? == some '='
          if isSetting then do
            let (w, rest) ← pieces n .bare (cs.drop (name.length + 1))
            let ((ss, ws, rs), rest) ← simple n wordsOnly rest
            return (((name, w) :: ss, ws, rs), rest)
          else do
            let (w, rest) ← pieces n .bare cs
            let ((ws, rs), rest) ← arguments n wordsOnly rest
            return (([], w :: ws, rs), rest)

/-- The words and redirections that follow the first word of a simple command. -/
def arguments : Nat → (wordsOnly : Bool) → Octets → Option ((List Word × List Redirect) × Octets)
  | 0, _, _ => none
  | n + 1, wordsOnly, cs =>
    let cs := blanks cs
    let number := cs.takeWhile Char.isDigit
    let mark := (cs.drop number.length).head?
    if mark = some '<' ∨ mark = some '>' then
      if wordsOnly then none
      else do
        let (r, rest) ← redirect n cs
        let ((ws, rs), rest) ← arguments n wordsOnly rest
        return ((ws, r :: rs), rest)
    else
      match cs with
      | [] => some (([], []), [])
      | c :: _ =>
        if c = '(' then none
        else if isMeta c then some (([], []), cs)
        else do
          let (w, rest) ← pieces n .bare cs
          let ((ws, rs), rest) ← arguments n wordsOnly rest
          return ((w :: ws, rs), rest)

/-- The redirections at the front. -/
def redirects : Nat → Octets → Option (List Redirect × Octets)
  | 0, _ => none
  | n + 1, cs =>
    let front := blanks cs
    let number := front.takeWhile Char.isDigit
    let mark := (front.drop number.length).head?
    if mark = some '<' ∨ mark = some '>' then do
      let (r, rest) ← redirect n front
      let (rs, rest) ← redirects n rest
      return (r :: rs, rest)
    else some ([], cs)

/-- A redirection, with its number in front or without. -/
def redirect : Nat → Octets → Option (Redirect × Octets)
  | 0, _ => none
  | n + 1, cs =>
    let digits := cs.takeWhile Char.isDigit
    let number (standard : Nat) : Nat :=
      if digits.isEmpty then standard else digits.foldl (fun k d => k * 10 + (d.toNat - 48)) 0
    let target (standard : Nat) (direction : Direction) (rest : Octets) :
        Option (Redirect × Octets) := do
      let (w, rest) ← pieces n .bare (blanks rest)
      if w.isEmpty then none else some (.mk (number standard) direction w, rest)
    let document (dropTabs : Bool) (rest : Octets) : Option (Redirect × Octets) := do
      let (w, rest) ← pieces n .bare (blanks rest)
      if w.isEmpty then none
      else
        let (mark, quoted) := unquoted w
        let (text, rest) := cutDocument mark dropTabs rest
        if quoted then some (.mk (number 0) .document [.text true text], rest)
        else do
          let (w, _) ← pieces n .document text
          return (.mk (number 0) .document w, rest)
    match cs.drop digits.length with
    | '<' :: '<' :: '-' :: r => document true r
    | '<' :: '<' :: r => document false r
    | '<' :: '&' :: r => target 0 .duplicate r
    | '<' :: '>' :: r => target 0 .read r
    | '<' :: r => target 0 .read r
    | '>' :: '>' :: r => target 1 .append r
    | '>' :: '&' :: r => target 1 .duplicate r
    | '>' :: '|' :: r => target 1 .write r
    | '>' :: r => target 1 .write r
    | _ => none

end

/-- How deep readers go in a script. -/
def depth (script : Octets) : Nat := 6 * script.length + 64

/-- What is at the front of a script. -/
inductive Front
  | nothing
  | line (c : Command) (rest : Octets)
  | mistake

/-- The first complete line of a script, read to some depth. -/
def front (depth : Nat) (script : Octets) : Front :=
  let cs := lines script
  if cs.isEmpty then .nothing
  else
    match list depth false false cs with
    | some (c, []) => .line c []
    | some (c, '\n' :: rest) => .line c rest
    | _ => .mistake

end Reader
end Shell
end VoiceRelay
