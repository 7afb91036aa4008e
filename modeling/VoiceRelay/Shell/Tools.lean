import VoiceRelay.Shell.Format

/-!
# Tools

The programs of the host that read text and write text, each as a function from its arguments, the
files and its input to what it prints and how it ends: putting files one after the other, parts and
orders of lines, columns, exchanges of characters, counts, series of numbers, and tests.
-/

namespace VoiceRelay
namespace Shell
namespace Tools

/-- What a program prints, its complaints, and how it ends; zero is well. -/
structure Outcome where
  out : Octets
  complaints : Octets
  status : Nat
  deriving DecidableEq, Repr

/-- Finds a file by its name. -/
abbrev Lookup := Octets → Option Octets

section Lines

/-- An output that ends well. -/
def well (out : Octets) : Outcome := ⟨out, [], 0⟩

/-- A complaint of a program. -/
def complaint (name : String) (what : Octets) (status : Nat) : Outcome :=
  ⟨[], name.toList ++ ": ".toList ++ what ++ ['\n'], status⟩

/-- The lines of a text, without their ends. -/
def linesOf (cs : Octets) : List Octets :=
  let ls := Text.pieces (· == '\n') cs
  if ls.getLast? = some [] then ls.dropLast else ls

/-- Lines with their ends. -/
def joinLines (ls : List Octets) : Octets := ls.flatMap (· ++ ['\n'])

/-- The lines of a text, each with its end, if it has one. -/
def chunksOf (cs : Octets) : List Octets :=
  let ls := linesOf cs
  if cs.getLast? = some '\n' then ls.map (· ++ ['\n'])
  else ls.dropLast.map (· ++ ['\n']) ++ ls.getLast?.toList

/-- The content of the files that are named, or the input if none is; and what is said of those that
are missing. -/
def contents (tool : String) (files : Lookup) (names : List Octets) (input : Octets) :
    List Octets × Octets :=
  if names.isEmpty then ([input], [])
  else
    let found := names.zipIdx.map fun p =>
      if p.1 = ['-'] then some (if (names.take p.2).contains ['-'] then [] else input)
      else files p.1
    let missing := (names.zip found).filterMap fun p => if p.2.isNone then some p.1 else none
    (found.filterMap id, missing.flatMap fun n =>
      tool.toList ++ ": ".toList ++ n ++ ": No such file or directory\n".toList)

/-- A program that makes something of the text of its files. -/
def ofContents (tool : String) (files : Lookup) (names : List Octets) (input : Octets)
    (f : Octets → Octets) : Outcome :=
  let (texts, complaints) := contents tool files names input
  ⟨f texts.flatten, complaints, if complaints.isEmpty then 0 else 1⟩

/-- Whether an argument is a switch. -/
def isSwitch (a : Octets) : Bool := a.head? == some '-' && 1 < a.length

/-- The letters of the switches in front, and the arguments behind them. -/
def switches (args : List Octets) : List Char × List Octets :=
  let front := args.takeWhile fun a => isSwitch a && a != ['-', '-']
  let rest := args.drop front.length
  (front.flatMap List.tail, if rest.head? = some ['-', '-'] then rest.tail else rest)

end Lines

section Parts

/-- Puts files one after the other; lines may be numbered. -/
def cat (files : Lookup) (args : List Octets) (input : Octets) : Outcome :=
  let (letters, names) := switches args
  let blankToo := letters.contains 'n' && !letters.contains 'b'
  let number (start : Nat) (ls : List Octets) : Octets :=
    (ls.foldl (fun (a : Nat × List Octets) l =>
      if !blankToo ∧ (l = ['\n'] ∨ l = []) then (a.1, l :: a.2)
      else
        let ds := Decimal.digits a.1
        (a.1 + 1, (List.replicate (6 - ds.length) ' ' ++ ds ++ ['\t'] ++ l) :: a.2))
      (start, [])).2.reverse.flatten
  ofContents "cat" files names input fun cs =>
    if letters.contains 'n' || letters.contains 'b' then number 1 (chunksOf cs) else cs

/-- How much `head` and `tail` keep: lines or octets, a number, and its sign if one is written. -/
structure Amount where
  octets : Bool
  sign : Option Char
  number : Nat
  deriving DecidableEq, Repr

/-- The amount that a text gives. -/
def amount (octets : Bool) (cs : Octets) : Amount :=
  let sign := cs.head?.filter fun c => c == '-' || c == '+'
  let digits := if sign.isSome then cs.tail else cs
  ⟨octets, sign, Decimal.value (digits.takeWhile Decimal.isDigit)⟩

/-- The amount that arguments give, and the names behind them. -/
def amountOf : List Octets → Amount → Amount × List Octets
  | ['-', 'n'] :: v :: r, _ => amountOf r (amount false v)
  | ['-', 'c'] :: v :: r, _ => amountOf r (amount true v)
  | ('-' :: 'n' :: v) :: r, _ => amountOf r (amount false v)
  | ('-' :: 'c' :: v) :: r, _ => amountOf r (amount true v)
  | ('-' :: d :: v) :: r, a =>
    if d.isDigit then amountOf r (amount false (d :: v)) else amountOf r a
  | r, a => (a, r)

/-- The first lines or octets. -/
def head (files : Lookup) (args : List Octets) (input : Octets) : Outcome :=
  let (a, names) := amountOf args ⟨false, none, 10⟩
  let keep {α : Type} (l : List α) : List α :=
    if a.sign = some '-' then l.take (l.length - a.number) else l.take a.number
  ofContents "head" files names input fun cs =>
    if a.octets then keep cs else (keep (chunksOf cs)).flatten

/-- The last lines or octets. -/
def tail (files : Lookup) (args : List Octets) (input : Octets) : Outcome :=
  let (a, names) := amountOf args ⟨false, none, 10⟩
  let keep {α : Type} (l : List α) : List α :=
    if a.sign = some '+' then l.drop (a.number - 1) else l.drop (l.length - a.number)
  ofContents "tail" files names input fun cs =>
    if a.octets then keep cs else (keep (chunksOf cs)).flatten

/-- The ranges of a list, each from a number to one that may be left open. -/
def rangesOf (cs : Octets) : List (Nat × Option Nat) :=
  (Text.pieces (· == ',') cs).map fun r =>
    match Text.pieces (· == '-') r with
    | [a, b] => (max 1 (Decimal.value a), if b.isEmpty then none else some (Decimal.value b))
    | _ => (Decimal.value r, some (Decimal.value r))

/-- The elements whose places are in ranges. -/
def pick {α : Type} (rs : List (Nat × Option Nat)) (l : List α) : List α :=
  (l.zipIdx 1).filterMap fun p =>
    if rs.any fun r => r.1 ≤ p.2 && r.2.all (p.2 ≤ ·) then some p.1 else none

/-- How `cut` works: the separator, whether it takes octets or fields, the ranges, and whether it
passes over lines without a separator. -/
structure Cutter where
  separator : Char
  fields : Bool
  ranges : List (Nat × Option Nat)
  onlySeparated : Bool

/-- The cutter that arguments describe, and the names behind them. -/
def cutterOf : List Octets → Cutter → Cutter × List Octets
  | ['-', 'd'] :: v :: r, c => cutterOf r { c with separator := v.headD '\t' }
  | ['-', 'f'] :: v :: r, c => cutterOf r { c with fields := true, ranges := rangesOf v }
  | ['-', 'c'] :: v :: r, c => cutterOf r { c with fields := false, ranges := rangesOf v }
  | ['-', 'b'] :: v :: r, c => cutterOf r { c with fields := false, ranges := rangesOf v }
  | ['-', 's'] :: r, c => cutterOf r { c with onlySeparated := true }
  | ('-' :: 'd' :: v) :: r, c => cutterOf r { c with separator := v.headD '\t' }
  | ('-' :: 'f' :: v) :: r, c => cutterOf r { c with fields := true, ranges := rangesOf v }
  | ('-' :: 'c' :: v) :: r, c => cutterOf r { c with fields := false, ranges := rangesOf v }
  | ('-' :: 'b' :: v) :: r, c => cutterOf r { c with fields := false, ranges := rangesOf v }
  | r, c => (c, r)

/-- Takes fields or octets out of each line. -/
def cut (files : Lookup) (args : List Octets) (input : Octets) : Outcome :=
  let (c, names) := cutterOf args ⟨'\t', true, [], false⟩
  ofContents "cut" files names input fun cs =>
    joinLines ((linesOf cs).filterMap fun l =>
      if !c.fields then some (pick c.ranges l)
      else if !l.contains c.separator then if c.onlySeparated then none else some l
      else some (Text.join [c.separator] (pick c.ranges (Text.pieces (· == c.separator) l))))

/-- Numbers the lines that are not empty. -/
def numbered (files : Lookup) (args : List Octets) (input : Octets) : Outcome :=
  ofContents "nl" files (switches args).2 input fun cs =>
    joinLines ((linesOf cs).foldl (fun (a : Nat × List Octets) l =>
      if l.isEmpty then (a.1, List.replicate 7 ' ' :: a.2)
      else
        let ds := Decimal.digits a.1
        (a.1 + 1, (List.replicate (6 - ds.length) ' ' ++ ds ++ ['\t'] ++ l) :: a.2))
      (1, [])).2.reverse

end Parts

section Orders

/-- The lines from the last to the first. -/
def backwards (files : Lookup) (args : List Octets) (input : Octets) : Outcome :=
  ofContents "tac" files (switches args).2 input fun cs => (chunksOf cs).reverse.flatten

/-- Each line from its last octet to the first. -/
def mirrored (files : Lookup) (args : List Octets) (input : Octets) : Outcome :=
  ofContents "rev" files (switches args).2 input fun cs =>
    (chunksOf cs).flatMap fun l =>
      if l.getLast? = some '\n' then l.dropLast.reverse ++ ['\n'] else l.reverse

/-- The order of octets. -/
def octetsBefore : Octets → Octets → Bool
  | [], _ => true
  | _ :: _, [] => false
  | a :: as, b :: bs => a.toNat < b.toNat || (a == b && octetsBefore as bs)

/-- Lines in order: of their octets, or of the numbers in front of them. -/
def sort (files : Lookup) (args : List Octets) (input : Octets) : Outcome :=
  let (letters, names) := switches args
  let key (l : Octets) : Int := (Numeral.integer l).1
  let byNumber := letters.contains 'n'
  let before (a b : Octets) : Bool :=
    if byNumber ∧ key a ≠ key b then key a < key b else octetsBefore a b
  let before (a b : Octets) : Bool := if letters.contains 'r' then before b a else before a b
  let same (a b : Octets) : Bool := if byNumber then key a == key b else a == b
  let once (ls : List Octets) : List Octets :=
    ls.foldr (fun l r => if r.head?.any (same l) then l :: r.tail else l :: r) []
  ofContents "sort" files names input fun cs =>
    let ls := (linesOf cs).mergeSort before
    joinLines (if letters.contains 'u' then once ls else ls)

/-- Runs of equal lines, each with its length. -/
def runs (ls : List Octets) : List (Nat × Octets) :=
  ls.foldr (fun l r =>
    match r with
    | (n, m) :: r => if l = m then (n + 1, m) :: r else (1, l) :: (n, m) :: r
    | [] => [(1, l)]) []

/-- One line for each run of equal lines. -/
def uniq (files : Lookup) (args : List Octets) (input : Octets) : Outcome :=
  let (letters, names) := switches args
  ofContents "uniq" files names input fun cs =>
    let rs := (runs (linesOf cs)).filter fun r =>
      (!letters.contains 'd' || 1 < r.1) && (!letters.contains 'u' || r.1 == 1)
    joinLines (rs.map fun r =>
      let ds := Decimal.digits r.1
      if letters.contains 'c' then List.replicate (7 - ds.length) ' ' ++ ds ++ [' '] ++ r.2
      else r.2)

/-- The lines of some texts side by side, the first line of each together, and so on. -/
def sideBySide (separator : Octets) (columns : List (List Octets)) : List Octets :=
  let rows := (columns.map List.length).foldl max 0
  (List.range rows).map fun i => Text.join separator (columns.map fun c => c.getD i [])

/-- The separator that a text gives, which may be an escape. -/
def separatorOf (cs : Octets) : Octets :=
  match Format.unescape (Format.shellEscape false) (cs.length + 1) cs with
  | (out, _) => out.take 1

/-- How `paste` works: the separator, and whether each text makes one line. -/
structure Paster where
  separator : Octets
  inRow : Bool

/-- The paster that arguments describe, and the names behind them. -/
def pasterOf : List Octets → Paster → Paster × List Octets
  | ['-', 'd'] :: v :: r, p => pasterOf r { p with separator := separatorOf v }
  | ['-', 's'] :: r, p => pasterOf r { p with inRow := true }
  | ('-' :: 'd' :: v) :: r, p => pasterOf r { p with separator := separatorOf v }
  | ('-' :: 's' :: v) :: r, p => pasterOf (('-' :: v) :: r) { p with inRow := true }
  | r, p => (p, r)

/-- Puts lines side by side. A dash stands for the input, of which it takes a line in turn. -/
def paste (files : Lookup) (args : List Octets) (input : Octets) : Outcome :=
  let (p, names) := pasterOf args ⟨['\t'], false⟩
  let names := if names.isEmpty then [['-']] else names
  let dashes := names.countP (· == ['-'])
  let inputLines := linesOf input
  let column (place : Nat) (n : Octets) : List Octets :=
    if n = ['-'] then
      if p.inRow then inputLines
      else
        let nth := (names.take place).countP (· == ['-'])
        (inputLines.zipIdx.filter fun l => l.2 % dashes == nth).map Prod.fst
    else linesOf ((files n).getD [])
  let columns := names.zipIdx.map fun n => column n.2 n.1
  if p.inRow then well (joinLines (columns.map fun ls => Text.join p.separator ls))
  else well (joinLines (sideBySide p.separator columns))

end Orders

section Characters

/-- The characters of a set with their escapes carried out, and whether an escape wrote them. -/
def setChars : Nat → Octets → List (Char × Bool)
  | 0, _ => []
  | _ + 1, [] => []
  | n + 1, '\\' :: r =>
    match Format.shellEscape false r with
    | .octets [c] rest => (c, true) :: setChars n rest
    | _ => ('\\', true) :: setChars n r
  | n + 1, c :: r => (c, false) :: setChars n r

/-- The characters between two, both included. -/
def between (a b : Char) : Octets :=
  (List.range (b.toNat + 1 - a.toNat)).map fun k => Char.ofNat (a.toNat + k)

/-- The characters of a class of a set. -/
def classChars (name : String) : Octets :=
  match name with
  | "lower" => between 'a' 'z'
  | "upper" => between 'A' 'Z'
  | "digit" => between '0' '9'
  | "alpha" => between 'A' 'Z' ++ between 'a' 'z'
  | "alnum" => between '0' '9' ++ between 'A' 'Z' ++ between 'a' 'z'
  | "space" => between '\t' '\r' ++ [' ']
  | "blank" => ['\t', ' ']
  | _ => []

/-- The characters of a set with its ranges and classes written out, in at most so many turns. -/
def spread : Nat → List (Char × Bool) → Octets
  | 0, _ => []
  | _ + 1, [] => []
  | n + 1, ('[', false) :: (':', false) :: r =>
    let name := (r.map Prod.fst).takeWhile Char.isAlpha
    match r.drop name.length with
    | (':', _) :: (']', _) :: rest => classChars (.ofList name) ++ spread n rest
    | _ => '[' :: spread n ((':', false) :: r)
  | n + 1, (a, _) :: ('-', false) :: (b, _) :: r => between a b ++ spread n r
  | n + 1, (c, _) :: r => c :: spread n r

/-- The characters of a set. -/
def setOf (cs : Octets) : Octets := spread (cs.length + 1) (setChars (cs.length + 1) cs)

/-- Of a run of one character of a set, only the first. -/
def squeezed (set : Octets) : Octets → Octets
  | a :: b :: r =>
    if a = b ∧ set.contains a then squeezed set (b :: r) else a :: squeezed set (b :: r)
  | cs => cs

/-- Exchanges, takes out or squeezes characters. -/
def translate (args : List Octets) (input : Octets) : Outcome :=
  let (letters, sets) := switches args
  let first := setOf (sets.headD [])
  let all := (List.range 256).map Char.ofNat
  let first := if letters.contains 'c' || letters.contains 'C' then
    all.filter fun c => !first.contains c else first
  let second := setOf (sets.tail.headD [])
  let exchange (c : Char) : Char :=
    match first.reverse.idxOf? c with
    | some k => second.getD (first.length - 1 - k) (second.getLastD c)
    | none => c
  let deleted := if letters.contains 'd' then input.filter fun c => !first.contains c
    else if sets.length < 2 then input else input.map exchange
  let last := if sets.length < 2 then first else second
  if sets.isEmpty then complaint "tr" "missing operand".toList 1
  else if sets.tail.head? = some [] ∧ !letters.contains 'd' then
    complaint "tr" "when not truncating set1, string2 must be non-empty".toList 1
  else well (if letters.contains 's' then squeezed last deleted else deleted)

/-- Counts lines, words and octets. -/
def count (files : Lookup) (args : List Octets) (input : Octets) : Outcome :=
  let (letters, names) := switches args
  let asked := if letters.isEmpty then "lwc".toList else letters
  ofContents "wc" files names input fun cs =>
    let numbers := "lwc".toList.filter asked.contains |>.map fun k =>
      match k with
      | 'l' => cs.countP (· == '\n')
      | 'w' => ((Text.pieces Numeral.isSpace cs).filter fun w => !w.isEmpty).length
      | _ => cs.length
    let width := if numbers.length = 1 then 0 else 7
    let cells := numbers.map fun n =>
      let ds := Decimal.digits n
      List.replicate (width - ds.length) ' ' ++ ds
    Text.join [' '] (cells ++ (if names.isEmpty then [] else [names.headD []])) ++ ['\n']

/-- The last part of a path, without an ending. -/
def basename (args : List Octets) : Outcome :=
  let path := ((args.headD []).reverse.dropWhile (· == '/')).reverse
  let name := (path.reverse.takeWhile (· != '/')).reverse
  let name := if name.isEmpty ∧ !(args.headD []).isEmpty then ['/'] else name
  match Text.dropLead? (args.tail.headD []).reverse name.reverse with
  | some rest => well ((if rest.isEmpty then name else rest.reverse) ++ ['\n'])
  | none => well (name ++ ['\n'])

/-- The path without its last part. -/
def dirname (args : List Octets) : Outcome :=
  let path := (args.headD []).reverse.dropWhile (· == '/')
  let above := path.dropWhile (· != '/')
  let front := (above.dropWhile (· == '/')).reverse
  well ((if !front.isEmpty then front else if above.isEmpty ∧ (args.headD []).head? ≠ some '/'
    then ['.'] else ['/']) ++ ['\n'])

end Characters

section Series

/-- A decimal number as a whole number of its last place, and the number of places. -/
def decimal? (cs : Octets) : Option (Int × Nat) :=
  let (negative, digits) := Numeral.sign cs
  match Text.pieces (· == '.') digits with
  | [whole] =>
    if whole.isEmpty ∨ !whole.all Decimal.isDigit then none
    else
      let n := Int.ofNat (Decimal.value whole)
      some (if negative then -n else n, 0)
  | [whole, places] =>
    if (whole ++ places).isEmpty ∨ !(whole ++ places).all Decimal.isDigit then none
    else
      let n := Int.ofNat (Decimal.value (whole ++ places))
      some (if negative then -n else n, places.length)
  | _ => none

/-- The text of a whole number of a last place. -/
def placed (places : Nat) (n : Int) : Octets :=
  (if n < 0 then ['-'] else []) ++ Fraction.pointed places n.natAbs

/-- How a series is written: a format, the text between numbers, and whether they are filled up to
one width. -/
structure SeriesStyle where
  format : Option Octets
  separator : Octets
  sameWidth : Bool

/-- The style that arguments describe, and the numbers behind them. -/
def seriesStyle : List Octets → SeriesStyle → SeriesStyle × List Octets
  | ['-', 's'] :: v :: r, s => seriesStyle r { s with separator := v }
  | ['-', 'f'] :: v :: r, s => seriesStyle r { s with format := some v }
  | ['-', 'w'] :: r, s => seriesStyle r { s with sameWidth := true }
  | ('-' :: 's' :: v) :: r, s => seriesStyle r { s with separator := v }
  | ('-' :: 'f' :: v) :: r, s => seriesStyle r { s with format := some v }
  | r, s => (s, r)

/-- The numbers of a series. -/
def steps (first step last : Int) : List Int :=
  if 0 < step then
    if last < first then []
    else (List.range (((last - first) / step).toNat + 1)).map fun k => first + Int.ofNat k * step
  else if step < 0 then
    if first < last then []
    else (List.range (((first - last) / -step).toNat + 1)).map fun k => first + Int.ofNat k * step
  else []

/-- A series of numbers. -/
def series (args : List Octets) : Outcome :=
  let (style, numbers) := seriesStyle args ⟨none, ['\n'], false⟩
  match numbers.mapM decimal? with
  | none => complaint "seq" "invalid floating point argument".toList 1
  | some ns =>
    let (first, step, last) := match ns with
      | [a] => ((1, 0), (1, 0), a)
      | [a, b] => (a, (1, 0), b)
      | [a, b, c] => (a, b, c)
      | _ => ((1, 0), (1, 0), (0, 0))
    let places := max first.2 step.2
    let finest := max places last.2
    let scale (p : Int × Nat) : Int := p.1 * Int.ofNat (Decimal.tenTo (finest - p.2))
    let values := steps (scale first) (scale step) (scale last)
    let plain := values.map fun n =>
      placed places (n / Int.ofNat (Decimal.tenTo (finest - places)))
    let width := (plain.map List.length).foldl max 0
    let filled := plain.map fun t =>
      if t.head? = some '-' then '-' :: List.replicate (width - t.length) '0' ++ t.tail
      else List.replicate (width - t.length) '0' ++ t
    let texts := match style.format with
      | some f => values.map fun n => (Format.pass .program (f.length + 1) f [placed finest n]).out
      | none => if style.sameWidth then filled else plain
    if texts.isEmpty then well [] else well (Text.join style.separator texts ++ ['\n'])

/-- The value of two operands with a mark between them. -/
def calculate (args : List Octets) : Outcome :=
  let number? (cs : Octets) : Option Int := (decimal? cs).bind fun p =>
    if p.2 = 0 then some p.1 else none
  let answer (t : Octets) : Outcome :=
    ⟨t ++ ['\n'], [], if t.isEmpty ∨ t = ['0'] then 1 else 0⟩
  let truth (b : Bool) : Outcome := answer (if b then ['1'] else ['0'])
  let text (n : Int) : Octets := placed 0 n
  match args with
  | [a] => answer a
  | [a, op, b] =>
    match number? a, number? b, String.ofList op with
    | some m, some n, "+" => answer (text (m + n))
    | some m, some n, "-" => answer (text (m - n))
    | some m, some n, "*" => answer (text (m * n))
    | some m, some n, "/" =>
      if n = 0 then complaint "expr" "division by zero".toList 2 else answer (text (m.tdiv n))
    | some m, some n, "%" =>
      if n = 0 then complaint "expr" "division by zero".toList 2 else answer (text (m.tmod n))
    | some m, some n, "<" => truth (m < n)
    | some m, some n, "<=" => truth (m ≤ n)
    | some m, some n, ">" => truth (n < m)
    | some m, some n, ">=" => truth (n ≤ m)
    | _, _, "=" => truth (a = b)
    | _, _, "!=" => truth (a ≠ b)
    | _, _, _ => complaint "expr" "syntax error".toList 2
  | _ => complaint "expr" "syntax error".toList 2

end Series

section Tests

/-- What is known of a path. -/
inductive Kind
  | file (empty : Bool)
  | folder
  | device
  deriving DecidableEq, Repr

/-- A number of a test. -/
def testNumber? (cs : Octets) : Option Int :=
  match Numeral.sign (cs.dropWhile Numeral.isSpace) with
  | (negative, digits) =>
    let ds := digits.takeWhile Decimal.isDigit
    if ds.isEmpty ∨ !(digits.drop ds.length).all Numeral.isSpace then none
    else some (if negative then -Int.ofNat (Decimal.value ds) else Int.ofNat (Decimal.value ds))

/-- A test of one operand. -/
def unary? (kind : Octets → Option Kind) (op a : Octets) : Option Bool :=
  match String.ofList op with
  | "-n" => some !a.isEmpty
  | "-z" => some a.isEmpty
  | "-e" => some (kind a).isSome
  | "-f" => some ((kind a).any fun k => k != .folder && k != .device)
  | "-d" => some (kind a == some .folder)
  | "-s" => some ((kind a).any fun k => k != .file true && k != .device)
  | "-r" | "-w" | "-x" => some (kind a).isSome
  | "-c" => some (kind a == some .device)
  | "-t" | "-L" | "-h" | "-p" | "-b" | "-S" => some false
  | _ => none

/-- A test of two operands; `none` if the mark between them is none. -/
def binary? (a op b : Octets) : Option (Option Bool) :=
  let numbers (f : Int → Int → Bool) : Option (Option Bool) :=
    match testNumber? a, testNumber? b with
    | some m, some n => some (some (f m n))
    | _, _ => some none
  match String.ofList op with
  | "=" | "==" => some (if op = ['='] then some (a = b) else none)
  | "!=" => some (some (a ≠ b))
  | "<" => some (some (octetsBefore a b && a != b))
  | ">" => some (some (octetsBefore b a && a != b))
  | "-eq" => numbers fun m n => m == n
  | "-ne" => numbers fun m n => m != n
  | "-lt" => numbers fun m n => m < n
  | "-le" => numbers fun m n => m ≤ n
  | "-gt" => numbers fun m n => n < m
  | "-ge" => numbers fun m n => n ≤ m
  | _ => none

/-- The value of a test, by the number of its arguments, in at most so many turns; `none` if it
makes no sense. -/
def test? (kind : Octets → Option Kind) : Nat → List Octets → Option Bool
  | 0, _ => none
  | _ + 1, [] => some false
  | _ + 1, [a] => some !a.isEmpty
  | n + 1, [a, b] => if a = ['!'] then (test? kind n [b]).map not else unary? kind a b
  | n + 1, [a, op, b] =>
    match binary? a op b with
    | some v => v
    | none =>
      if op = "-a".toList then some (!a.isEmpty && !b.isEmpty)
      else if op = "-o".toList then some (!a.isEmpty || !b.isEmpty)
      else if a = ['!'] then (test? kind n [op, b]).map not
      else if a = ['('] ∧ b = [')'] then some !op.isEmpty
      else none
  | n + 1, args =>
    match args.findIdx? (· == "-o".toList) with
    | some k => do
      let a ← test? kind n (args.take k)
      let b ← test? kind n (args.drop (k + 1))
      return a || b
    | none =>
      match args.findIdx? (· == "-a".toList) with
      | some k => do
        let a ← test? kind n (args.take k)
        let b ← test? kind n (args.drop (k + 1))
        return a && b
      | none => if args.head? = some ['!'] then (test? kind n args.tail).map not else none

end Tests

section Choice

/-- The program of a name, for those that only read and write. -/
def run? (name : String) (files : Lookup) (args : List Octets) (input : Octets) : Option Outcome :=
  match name with
  | "cat" => some (cat files args input)
  | "head" => some (head files args input)
  | "tail" => some (tail files args input)
  | "cut" => some (cut files args input)
  | "nl" => some (numbered files args input)
  | "tac" => some (backwards files args input)
  | "rev" => some (mirrored files args input)
  | "sort" => some (sort files args input)
  | "uniq" => some (uniq files args input)
  | "paste" => some (paste files args input)
  | "tr" => some (translate args input)
  | "wc" => some (count files args input)
  | "seq" => some (series args)
  | "expr" => some (calculate args)
  | "basename" => some (basename args)
  | "dirname" => some (dirname args)
  | _ => none

end Choice

end Tools
end Shell
end VoiceRelay
