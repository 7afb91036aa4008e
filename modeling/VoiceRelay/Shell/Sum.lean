import VoiceRelay.Shell.Numeral

/-!
# Sums of the shell

Whole numbers of 64 bits with signs, the parameters of the shell, and the operators between them, by
their ranks: a choice by a question mark and assignments bind least. Numbers wrap; a division cuts
off towards zero, and one by zero is a mistake.
-/

namespace VoiceRelay
namespace Shell
namespace Sum

/-- A part of the text of a sum. -/
inductive Token
  | number (n : Int)
  | name (cs : Octets)
  | mark (cs : String)
  deriving DecidableEq, Repr

/-- A sum. -/
inductive Expr
  | number (n : Int)
  | parameter (name : Octets)
  | unary (mark : String) (e : Expr)
  | binary (mark : String) (a b : Expr)
  | choice (test yes no : Expr)
  | assign (name : Octets) (e : Expr)
  deriving DecidableEq, Repr

section Reading

/-- The marks, those that begin with another one before it. -/
def marks : List String :=
  ["<<=", ">>=", "&&", "||", "<<", ">>", "<=", ">=", "==", "!=", "+=", "-=", "*=", "/=", "%=", "&=",
    "|=", "^=", "+", "-", "*", "/", "%", "<", ">", "=", "!", "~", "&", "|", "^", "?", ":", "(", ")"]

/-- Whether a character may stand in a name. -/
def isNameChar (c : Char) : Bool := c.isAlphanum || c == '_'

/-- The parts of a text, in at most so many turns; `none` if a character makes no sense. -/
def tokens : Nat → Octets → Option (List Token)
  | 0, _ => none
  | _ + 1, [] => some []
  | n + 1, c :: r =>
    if Numeral.isSpace c then tokens n r
    else if c.isDigit then
      match Numeral.magnitude (c :: r) with
      | (some k, rest) =>
        if rest.head?.any isNameChar then none else (tokens n rest).map (.number k :: ·)
      | (none, _) => none
    else if isNameChar c then
      let name := (c :: r).takeWhile isNameChar
      (tokens n ((c :: r).dropWhile isNameChar)).map (.name name :: ·)
    else
      match marks.find? fun m => m.toList.isPrefixOf (c :: r) with
      | some m => (tokens n ((c :: r).drop m.length)).map (.mark m :: ·)
      | none => none

/-- The rank of a mark between two sums. -/
def rank : String → Option Nat
  | "*" | "/" | "%" => some 10
  | "+" | "-" => some 9
  | "<<" | ">>" => some 8
  | "<" | "<=" | ">" | ">=" => some 7
  | "==" | "!=" => some 6
  | "&" => some 5
  | "^" => some 4
  | "|" => some 3
  | "&&" => some 2
  | "||" => some 1
  | _ => none

/-- The operator of an assignment. -/
def assignment? : String → Option (Option String)
  | "=" => some none
  | "+=" => some (some "+")
  | "-=" => some (some "-")
  | "*=" => some (some "*")
  | "/=" => some (some "/")
  | "%=" => some (some "%")
  | "&=" => some (some "&")
  | "|=" => some (some "|")
  | "^=" => some (some "^")
  | "<<=" => some (some "<<")
  | ">>=" => some (some ">>")
  | _ => none

mutual

/-- A whole sum. -/
def whole : Nat → List Token → Option (Expr × List Token)
  | 0, _ => none
  | n + 1, ts =>
    match ts with
    | .name x :: .mark m :: r =>
      match assignment? m with
      | some none => (whole n r).map fun p => (.assign x p.1, p.2)
      | some (some op) =>
        (whole n r).map fun p => (.assign x (.binary op (.parameter x) p.1), p.2)
      | none => choice n ts
    | _ => choice n ts

/-- A choice, or what binds more. -/
def choice : Nat → List Token → Option (Expr × List Token)
  | 0, _ => none
  | n + 1, ts => do
    let (test, rest) ← ranked n 1 ts
    match rest with
    | .mark "?" :: r =>
      let (yes, rest) ← whole n r
      match rest with
      | .mark ":" :: r =>
        let (no, rest) ← choice n r
        return (.choice test yes no, rest)
      | _ => none
    | _ => return (test, rest)

/-- Sums of at least a rank. -/
def ranked : Nat → Nat → List Token → Option (Expr × List Token)
  | 0, _, _ => none
  | n + 1, least, ts =>
    match unary n ts with
    | none => none
    | some (a, rest) => goOn n least a rest

/-- What a sum goes on with. -/
def goOn : Nat → Nat → Expr → List Token → Option (Expr × List Token)
  | 0, _, _, _ => none
  | n + 1, least, a, ts =>
    match ts with
    | .mark m :: r =>
      match rank m with
      | some k =>
        if k < least then some (a, ts)
        else
          match ranked n (k + 1) r with
          | none => none
          | some (b, rest) => goOn n least (.binary m a b) rest
      | none => some (a, ts)
    | _ => some (a, ts)

/-- A sum with a sign, or one that is closed in itself. -/
def unary : Nat → List Token → Option (Expr × List Token)
  | 0, _ => none
  | n + 1, ts =>
    match ts with
    | .number k :: r => some (.number k, r)
    | .name x :: r => some (.parameter x, r)
    | .mark "(" :: r =>
      match whole n r with
      | some (e, .mark ")" :: rest) => some (e, rest)
      | _ => none
    | .mark m :: r =>
      if m = "-" ∨ m = "+" ∨ m = "!" ∨ m = "~" then
        (unary n r).map fun p => (.unary m p.1, p.2)
      else none
    | [] => none

end

/-- The sum that a text writes. -/
def read? (cs : Octets) : Option Expr := do
  let ts ← tokens (cs.length + 1) cs
  if ts.isEmpty then return .number 0
  let (e, rest) ← whole (6 * ts.length + 8) ts
  if rest.isEmpty then return e else none

end Reading

section Values

/-- The number of 64 bits that a number is when it wraps. -/
def wrap (n : Int) : Int := n.bmod Decimal.bound64

/-- One for what holds and zero for what does not. -/
def truth (b : Bool) : Int := if b then 1 else 0

/-- The bits of a number. -/
def bits (n : Int) : BitVec 64 := .ofInt 64 n

/-- The value of two numbers with a mark between them; `none` for a division by zero. -/
def apply (mark : String) (a b : Int) : Option Int :=
  match mark with
  | "*" => some (wrap (a * b))
  | "/" => if b = 0 then none else some (wrap (a.tdiv b))
  | "%" => if b = 0 then none else some (a.tmod b)
  | "+" => some (wrap (a + b))
  | "-" => some (wrap (a - b))
  | "<<" => some ((bits a) <<< (b % 64).toNat).toInt
  | ">>" => some ((bits a).sshiftRight (b % 64).toNat).toInt
  | "<" => some (truth (a < b))
  | "<=" => some (truth (a ≤ b))
  | ">" => some (truth (b < a))
  | ">=" => some (truth (b ≤ a))
  | "==" => some (truth (a = b))
  | "!=" => some (truth (a ≠ b))
  | "&" => some (bits a &&& bits b).toInt
  | "^" => some (bits a ^^^ bits b).toInt
  | "|" => some (bits a ||| bits b).toInt
  | _ => some 0

/-- The parameters of the shell. -/
abbrev Parameters := List (Octets × Octets)

/-- The number that a text is, if it is one as a whole. -/
def number? (cs : Octets) : Option Int :=
  if cs.all Numeral.isSpace then some 0
  else
    match Numeral.integer cs with
    | (n, rest) =>
      if rest.all Numeral.isSpace ∧ rest.length < cs.length then some (wrap n) else none

/-- The text of a number. -/
def text (n : Int) : Octets :=
  if n < 0 then '-' :: Decimal.digits n.natAbs else Decimal.digits n.natAbs

/-- The value of a sum, and the parameters that it leaves. -/
def value : Expr → Parameters → Option (Int × Parameters)
  | .number n, ps => some (max (-0x8000000000000000) (min 0x7fffffffffffffff n), ps)
  | .parameter x, ps => (number? ((ps.lookup x).getD [])).map (·, ps)
  | .unary mark e, ps => do
    let (n, ps) ← value e ps
    match mark with
    | "-" => return (wrap (-n), ps)
    | "!" => return (truth (n = 0), ps)
    | "~" => return (wrap (-n - 1), ps)
    | _ => return (n, ps)
  | .binary mark a b, ps => do
    let (m, ps) ← value a ps
    match mark with
    | "&&" =>
      if m = 0 then return (0, ps)
      let (n, ps) ← value b ps
      return (truth (n ≠ 0), ps)
    | "||" =>
      if m ≠ 0 then return (1, ps)
      let (n, ps) ← value b ps
      return (truth (n ≠ 0), ps)
    | _ =>
      let (n, ps) ← value b ps
      return (← apply mark m n, ps)
  | .choice test yes no, ps => do
    let (n, ps) ← value test ps
    if n ≠ 0 then value yes ps else value no ps
  | .assign x e, ps => do
    let (n, ps) ← value e ps
    return (n, (x, text n) :: ps.filter (·.1 != x))

/-- The value of the text of a sum, and the parameters that it leaves. -/
def evaluate (cs : Octets) (ps : Parameters) : Option (Int × Parameters) :=
  (read? cs).bind fun e => value e ps

end Values

end Sum
end Shell
end VoiceRelay
