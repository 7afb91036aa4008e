import VoiceRelay.Shell.Numeral
import VoiceRelay.Text.Fraction

/-!
# Formats

What `printf` and `echo` print. A format is text with escapes after backslashes and directives after
percent signs; each directive takes the next argument, or an empty one if none is left, and the
format is passed over again until no argument is left.

**Manners.** There is a program `printf`, and the shell has one of its own; so with `echo`. They
differ in the escapes that they know, in the letters between a directive's size and its conversion,
and in what they do with a directive that makes no sense: the program ends, the shell's own refuses
the command.

**Numbers.** A whole number may be written in hexadecimal or octal, or as the octet after a quote.
Other numbers have 64 binary digits in the program and 53 in the shell.
-/

namespace VoiceRelay
namespace Shell

/-- Whose `printf` or `echo` it is. -/
inductive Manner
  | program
  | shell
  deriving DecidableEq, Repr

/-- The status of a `printf` that was misused. -/
def Manner.misuse : Manner → Nat
  | .program => 1
  | .shell => 2

/-- What was printed, and the status at the end. -/
structure Printed where
  out : Octets
  status : Nat
  deriving DecidableEq, Repr

namespace Format

section Escapes

/-- What an escape stands for, and what follows it; or that all output ends; or that it makes no
sense. -/
inductive Escape
  | octets (cs rest : Octets)
  | stop
  | senseless
  deriving DecidableEq, Repr

/-- The octet with a number. -/
def octet (n : Nat) : Char := Char.ofNat (n % 256)

/-- The octet of an escape by a letter that all know. -/
def letter? : Char → Option Char
  | 'a' => some '\x07'
  | 'b' => some '\x08'
  | 'e' => some '\x1b'
  | 'f' => some '\x0c'
  | 'n' => some '\n'
  | 'r' => some '\r'
  | 't' => some '\t'
  | 'v' => some '\x0b'
  | '\\' => some '\\'
  | _ => none

/-- The octet of up to three octal digits. -/
def octal (cs : Octets) : Escape :=
  let ds := (cs.take 3).takeWhile Numeral.isOctal
  .octets [octet (Numeral.valueOf 8 ds)] (cs.drop ds.length)

/-- The octet of one or two hexadecimal digits. -/
def hexadecimal (cs : Octets) : Escape :=
  let ds := (cs.take 2).takeWhile Numeral.isHex
  if ds.isEmpty then .senseless
  else .octets [octet (Numeral.valueOf 16 ds)] (cs.drop ds.length)

/-- A digit of a base up to sixteen. -/
def digit (upper : Bool) (n : Nat) : Char :=
  if n < 10 then Decimal.digit n else Char.ofNat ((if upper then 'A' else 'a').toNat + (n - 10))

/-- The digits of a number in a base. -/
def digits (base : Nat) (upper : Bool) : Nat → Nat → List Char
  | 0, _ => []
  | turns + 1, n =>
    if n < base then [digit upper n]
    else digits base upper turns (n / base) ++ [digit upper (n % base)]

/-- Digits of a number below the bound of 64 bits, with zeros in front up to a width. -/
def based (base : Nat) (upper : Bool) (width n : Nat) : List Char :=
  let ds := digits base upper 65 n
  List.replicate (width - ds.length) '0' ++ ds

/-- A character by its number of so many digits; beyond ASCII it stays an escape. -/
def character (size : Nat) (cs : Octets) : Escape :=
  let ds := (cs.take size).takeWhile Numeral.isHex
  let n := Numeral.valueOf 16 ds
  if ds.length < size ∨ (0xD800 ≤ n ∧ n < 0xE000) then .senseless
  else if n < 0x80 then .octets [Char.ofNat n] (cs.drop size)
  else if n < 0x10000 then .octets ('\\' :: 'u' :: based 16 true 4 n) (cs.drop size)
  else .octets ('\\' :: 'U' :: based 16 true 8 n) (cs.drop size)

/-- What follows a backslash in a format of the program; `inArgument` if it stands in an argument,
where one more zero may stand before octal digits. -/
def programEscape (inArgument : Bool) : Octets → Escape
  | [] => .octets ['\\'] []
  | 'x' :: r => hexadecimal r
  | 'u' :: r => character 4 r
  | 'U' :: r => character 8 r
  | 'c' :: _ => .stop
  | '"' :: r => .octets ['"'] r
  | c :: r =>
    if Numeral.isOctal c then octal (if inArgument ∧ c = '0' then r else c :: r)
    else
      match letter? c with
      | some o => .octets [o] r
      | none => .octets ['\\', c] r

/-- What follows a backslash in a format of the shell's own; in an argument all output may end
there, and one more zero may stand before octal digits. -/
def shellEscape (inArgument : Bool) : Octets → Escape
  | [] => .octets ['\\'] []
  | c :: r =>
    if inArgument ∧ c = 'c' then .stop
    else if Numeral.isOctal c then
      let more := inArgument && c == '0' && r.head?.any Numeral.isOctal
      octal (if more then r else c :: r)
    else
      match letter? c with
      | some o => .octets [o] r
      | none => .octets ['\\'] (c :: r)

/-- What follows a backslash. -/
def escape : Manner → Bool → Octets → Escape
  | .program, inArgument, cs => programEscape inArgument cs
  | .shell, inArgument, cs => shellEscape inArgument cs

/-- What follows a backslash in the program `echo`, which lets stand what makes no sense. -/
def echoEscape : Octets → Escape
  | '"' :: r => .octets ['\\'] ('"' :: r)
  | 'u' :: r => .octets ['\\'] ('u' :: r)
  | 'U' :: r => .octets ['\\'] ('U' :: r)
  | r =>
    match programEscape true r with
    | .senseless => .octets ['\\'] r
    | e => e

/-- How an output ended. -/
inductive Ending
  | complete
  | stopped
  | senseless
  deriving DecidableEq, Repr

/-- A text with its escapes carried out, in at most so many turns. -/
def unescape (read : Octets → Escape) : Nat → Octets → Octets × Ending
  | 0, _ => ([], .complete)
  | _ + 1, [] => ([], .complete)
  | n + 1, '\\' :: r =>
    match read r with
    | .octets cs rest => (cs ++ (unescape read n rest).1, (unescape read n rest).2)
    | .stop => ([], .stopped)
    | .senseless => ([], .senseless)
  | n + 1, c :: r => (c :: (unescape read n r).1, (unescape read n r).2)

end Escapes

section Directives

/-- A size in a directive. -/
inductive Size
  | none
  | given (n : Nat)
  | asked
  deriving DecidableEq, Repr

/-- A directive: flags, the least width, the places, and the letter of the conversion. -/
structure Directive where
  flags : List Char
  width : Size
  places : Size
  letter : Char
  deriving DecidableEq, Repr

/-- The flags of directives. -/
def isFlag (m : Manner) (c : Char) : Bool :=
  c == '#' || c == '-' || c == '+' || c == ' ' || c == '0' ||
    (m == .program && (c == '\'' || c == 'I'))

/-- A size at the front, and what follows it. -/
def size : Octets → Size × Octets
  | '*' :: r => (.asked, r)
  | cs =>
    let ds := cs.takeWhile Decimal.isDigit
    (if ds.isEmpty then .none else .given (Decimal.value ds), cs.drop ds.length)

/-- The letters between a size and a conversion that the program passes over. -/
def isLength (m : Manner) (c : Char) : Bool := m == .program && "lLhjtz".toList.contains c

/-- Whether a conversion goes with what stands before it; only the program minds. -/
def isSound (m : Manner) (d : Directive) (bare hasPlaces : Bool) : Bool :=
  match m with
  | .shell => "bcsdiouxXaAeEfFgG".toList.contains d.letter
  | .program =>
    if d.letter == 'b' || d.letter == 'q' then bare
    else
      let refused :=
        (if d.flags.any fun c => c == '\'' || c == 'I' then "aAceEosxX".toList else []) ++
        (if d.flags.contains '#' then "cdisu".toList else []) ++
        (if d.flags.contains '0' then "cs".toList else []) ++
        (if hasPlaces then "c".toList else [])
      "aAcdeEfFgGiosuxX".toList.contains d.letter && !refused.contains d.letter

/-- The directive after a percent sign, and what follows it. -/
def directive? (m : Manner) (cs : Octets) : Option (Directive × Octets) :=
  let flags := cs.takeWhile (isFlag m)
  let (width, back) := size (cs.drop flags.length)
  let hasPlaces := back.head? == some '.'
  let (places, back) := if hasPlaces then size back.tail else (.none, back)
  let places := if hasPlaces && places == .none then .given 0 else places
  match back.dropWhile (isLength m) with
  | [] => none
  | c :: r =>
    let d : Directive := ⟨flags, width, places, c⟩
    if isSound m d (cs.head? == some c) hasPlaces then some (d, r) else none

end Directives

section Conversions

/-- How a text is laid out: whether it stands on the left, is filled up with zeros, and has a least
width. -/
structure Layout where
  left : Bool
  zeros : Bool
  width : Nat
  deriving DecidableEq, Repr

/-- A text with its sign, laid out. -/
def Layout.put (l : Layout) (sign body : Octets) : Octets :=
  let gap := l.width - (sign.length + body.length)
  if l.left then sign ++ body ++ List.replicate gap ' '
  else if l.zeros then sign ++ List.replicate gap '0' ++ body
  else List.replicate gap ' ' ++ sign ++ body

/-- The sign of a number. -/
def signOf (flags : List Char) (negative : Bool) : Octets :=
  if negative then ['-'] else if flags.contains '+' then ['+']
  else if flags.contains ' ' then [' '] else []

/-- The digits of a whole number with at least so many of them. -/
def wholeDigits (places : Option Nat) (ds : Octets) : Octets :=
  match places with
  | some p => if p = 0 ∧ ds = ['0'] then [] else List.replicate (p - ds.length) '0' ++ ds
  | none => ds

/-- The value of an argument as the octet after a quote. -/
def quoted? : Octets → Option Nat
  | q :: r => if q = '"' ∨ q = '\'' then some ((r.head?.map Char.toNat).getD 0) else none
  | [] => none

/-- The value of a whole number with a sign. -/
def signedOf (arg : Octets) : Int := ((quoted? arg).map Int.ofNat).getD (Numeral.signed arg)

/-- The value of a whole number without a sign. -/
def unsignedOf (arg : Octets) : Nat := (quoted? arg).getD (Numeral.unsigned arg)

/-- The bits of numbers that need not be whole. -/
def Manner.bits : Manner → Nat
  | .program => 64
  | .shell => 53

/-- The text of a number that need not be whole. -/
def realText (m : Manner) (hash : Bool) (letter : Char) (places : Nat) : Numeral.Real → Octets
  | .infinite => "inf".toList
  | .undefined => "nan".toList
  | .fraction n d =>
    let (n, d) := Fraction.rounded (Manner.bits m) n d
    let point := if hash then Fraction.withPoint else id
    match letter.toLower with
    | 'e' => Fraction.scientific point places n d
    | 'g' => Fraction.general (if hash then point else Fraction.trimZeros) places n d
    | _ => point (Fraction.fixed places n d)

/-- An argument converted, its sizes being known. -/
def convert (m : Manner) (flags : List Char) (layout : Layout) (places : Option Nat) (letter : Char)
    (arg : Octets) : Octets :=
  let whole := { layout with zeros := layout.zeros && places.isNone }
  let hash := flags.contains '#'
  match letter with
  | 'd' | 'i' =>
    let n := signedOf arg
    whole.put (signOf flags (n < 0)) (wholeDigits places (Decimal.digits n.natAbs))
  | 'u' => whole.put [] (wholeDigits places (Decimal.digits (unsignedOf arg)))
  | 'o' =>
    let ds := wholeDigits places (based 8 false 1 (unsignedOf arg))
    whole.put [] (if hash ∧ ds.head? ≠ some '0' then '0' :: ds else ds)
  | 'x' | 'X' =>
    let n := unsignedOf arg
    whole.put (if hash ∧ n ≠ 0 then ['0', letter] else [])
      (wholeDigits places (based 16 (letter == 'X') 1 n))
  | 'c' => { layout with zeros := false }.put [] [arg.headD '\x00']
  | 's' | 'b' | 'q' =>
    { layout with zeros := false }.put [] ((places.map fun p => arg.take p).getD arg)
  | _ =>
    let (negative, r) := match quoted? arg with
      | some n => (false, .fraction n 1)
      | none => Numeral.real arg
    let text := realText m hash letter (places.getD 6) r
    let finite := match r with
      | .fraction _ _ => true
      | _ => false
    { layout with zeros := layout.zeros && finite }.put (signOf flags negative)
      (if letter.isUpper then text.map Char.toUpper else text)

end Conversions

section Passes

/-- What one pass over a format prints, the arguments that are left, how it ended, and whether all
numbers were sound. -/
structure Pass where
  out : Octets
  args : List Octets
  ending : Ending
  sound : Bool

/-- More output in front of a pass. -/
def Pass.after (p : Pass) (out : Octets) : Pass := { p with out := out ++ p.out }

/-- Whether an argument is a number as a whole, if the conversion wants one. -/
def isSoundNumber (letter : Char) (arg : Octets) : Bool :=
  if "diouxX".toList.contains letter then
    let (n, rest) := Numeral.integer arg
    (quoted? arg).isSome || (rest.isEmpty && n.natAbs < Decimal.bound64)
  else true

/-- A size, and the arguments that are left; the shell's own keeps 32 bits of an argument. -/
def resolve (m : Manner) (s : Size) (args : List Octets) : Option Int × List Octets :=
  match s with
  | .none => (none, args)
  | .given n => (some n, args)
  | .asked =>
    let n := signedOf (args.headD [])
    (some (if m = .shell then n.bmod Decimal.bound32 else n), args.tail)

/-- The greatest size that makes sense. -/
def greatestSize : Nat := 0x400000

/-- What a directive prints, the arguments that are left, and how it ended. -/
def apply (m : Manner) (d : Directive) (args : List Octets) : Pass :=
  let (width, args) := resolve m d.width args
  let (places, args) := resolve m d.places args
  let layout : Layout :=
    ⟨d.flags.contains '-' || width.any (· < 0), d.flags.contains '0', (width.getD 0).natAbs⟩
  let places := (places.filter (0 ≤ ·)).map Int.toNat
  let arg := args.headD []
  let (text, ending) := if d.letter = 'b' then unescape (escape m true) (arg.length + 1) arg
    else (arg, .complete)
  if greatestSize < layout.width ∨ greatestSize < places.getD 0 then ⟨[], args, .senseless, false⟩
  else
    ⟨convert m d.flags layout places d.letter text, args.tail, ending, isSoundNumber d.letter arg⟩

/-- One pass over a format, in at most so many turns. -/
def pass (m : Manner) : Nat → Octets → List Octets → Pass
  | 0, _, args => ⟨[], args, .complete, true⟩
  | _ + 1, [], args => ⟨[], args, .complete, true⟩
  | n + 1, '\\' :: r, args =>
    match escape m false r with
    | .octets cs rest => (pass m n rest args).after cs
    | .stop => ⟨[], args, .stopped, true⟩
    | .senseless => ⟨[], args, .senseless, false⟩
  | n + 1, '%' :: '%' :: r, args => (pass m n r args).after ['%']
  | n + 1, '%' :: r, args =>
    match directive? m r with
    | none => ⟨[], args, .senseless, false⟩
    | some (d, rest) =>
      let p := apply m d args
      match p.ending with
      | .complete =>
        let back := (pass m n rest p.args).after p.out
        { back with sound := p.sound && back.sound }
      | _ => p
  | n + 1, c :: r, args => (pass m n r args).after [c]

/-- Passes over a format until no argument is left, in at most so many turns. -/
def passes (m : Manner) (format : Octets) : Nat → List Octets → Printed
  | 0, _ => ⟨[], 0⟩
  | n + 1, args =>
    let p := pass m (format.length + 1) format args
    let status := if p.ending = .senseless then m.misuse else if p.sound then 0 else 1
    if p.ending ≠ .complete ∨ p.args.isEmpty ∨ p.args.length = args.length then ⟨p.out, status⟩
    else
      let rest := passes m format n p.args
      ⟨p.out ++ rest.out, max status rest.status⟩

end Passes

end Format

section Commands

/-- What `printf` prints. -/
def printf (m : Manner) (args : List Octets) : Printed :=
  match m, args with
  | _, ['-', '-'] :: format :: args => Format.passes m format (args.length + 1) args
  | .shell, ('-' :: _ :: _) :: _ => ⟨[], m.misuse⟩
  | _, format :: args => Format.passes m format (args.length + 1) args
  | _, [] => ⟨[], m.misuse⟩

/-- The switches of the program `echo`. -/
def isEchoSwitch : Octets → Bool
  | '-' :: c :: cs => (c :: cs).all fun c => c == 'n' || c == 'e' || c == 'E'
  | _ => false

/-- What `echo` prints: its arguments with blanks between them, and the end of a line. -/
def echo (m : Manner) (args : List Octets) : Octets :=
  match m with
  | .shell =>
    let (bare, args) := if args.head? = some ['-', 'n'] then (true, args.tail) else (false, args)
    let line := Text.join [' '] args
    match Format.unescape (Format.escape .shell true) (line.length + 1) line with
    | (out, .complete) => if bare then out else out ++ ['\n']
    | (out, _) => out
  | .program =>
    let switches := (args.takeWhile isEchoSwitch).flatten
    let line := Text.join [' '] (args.dropWhile isEchoSwitch)
    let escapes := (switches.filter fun c => c == 'e' || c == 'E').getLast? == some 'e'
    let (out, ending) := if escapes then Format.unescape Format.echoEscape (line.length + 1) line
      else (line, .complete)
    if switches.contains 'n' || ending != .complete then out else out ++ ['\n']

end Commands

end Shell
end VoiceRelay
