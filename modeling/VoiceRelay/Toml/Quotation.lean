import VoiceRelay.Json.Event

/-!
# Quoted text of TOML

Text stands between quotes, in which a backslash begins an escape, or between apostrophes, in which
all stands for itself; either on one line, or between three of them over several lines.

**Several lines.** A line break right after the opening is dropped, and a line break of two
characters counts as a line feed. Between quotes a backslash at the end of a line swallows all
blanks and line breaks that follow. One or two quotes may stand just before the closing three.
-/

namespace VoiceRelay
namespace Toml

/-- A text and what follows it. -/
abbrev Quotation := Option (List Char × List Char)

section Characters

/-- Whether a character may stand in a line. -/
def mayStand (c : Char) : Bool := c == '\t' || (32 ≤ c.toNat && c.toNat != 127)

/-- The character of a number, if there is one. -/
def charOf? (n : Nat) : Option Char := if n.isValidChar then some (Char.ofNat n) else none

/-- The number that hexadecimal digits denote. -/
def hexNumber? (ds : List Char) : Option Nat :=
  ds.foldlM (fun n d => (Json.hexValue? d).map (n * 16 + ·)) 0

/-- The character of a short escape. -/
def escaped? : Char → Option Char
  | 'b' => some '\x08'
  | 't' => some '\t'
  | 'n' => some '\n'
  | 'f' => some '\x0c'
  | 'r' => some '\r'
  | '"' => some '"'
  | '\\' => some '\\'
  | _ => none

/-- A character joins a text, which is kept backwards. -/
def push (done : List Char) (c : Option Char) (go : List Char → Quotation) : Quotation :=
  match c with
  | some c => go (c :: done)
  | none => none

end Characters

section OneLine

/-- The text up to the closing quote. -/
def basic (done : List Char) : List Char → Quotation
  | [] => none
  | '"' :: r => some (done.reverse, r)
  | '\\' :: 'u' :: a :: b :: c :: d :: r =>
    push done ((hexNumber? [a, b, c, d]).bind charOf?) fun t => basic t r
  | '\\' :: 'U' :: a :: b :: c :: d :: e :: f :: g :: h :: r =>
    push done ((hexNumber? [a, b, c, d, e, f, g, h]).bind charOf?) fun t => basic t r
  | '\\' :: c :: r => push done (escaped? c) fun t => basic t r
  | c :: r => if mayStand c then basic (c :: done) r else none

/-- The text up to the closing apostrophe. -/
def literal (done : List Char) : List Char → Quotation
  | [] => none
  | '\'' :: r => some (done.reverse, r)
  | c :: r => if mayStand c then literal (c :: done) r else none

end OneLine

section SeveralLines

/-- Whether nothing but blanks comes before the end of the line. -/
def endsLine (cs : List Char) : Bool :=
  match cs.dropWhile fun c => c == ' ' || c == '\t' with
  | '\n' :: _ => true
  | '\r' :: '\n' :: _ => true
  | _ => false

/-- A text that was closed by three marks; up to two more belong to it. -/
def closed (mark : Char) (done : List Char) : List Char → List Char × List Char
  | a :: b :: r =>
    if a = mark then
      if b = mark then ((mark :: mark :: done).reverse, r) else ((mark :: done).reverse, b :: r)
    else (done.reverse, a :: b :: r)
  | [a] => if a = mark then ((mark :: done).reverse, []) else (done.reverse, [a])
  | [] => (done.reverse, [])

/-- The text up to three closing quotes; `swallowing` after a backslash at the end of a line. -/
def multiBasic (swallowing : Bool) (done : List Char) : List Char → Quotation
  | [] => none
  | '"' :: '"' :: '"' :: r => some (closed '"' done r)
  | '\r' :: '\n' :: r =>
    if swallowing then multiBasic true done r else multiBasic false ('\n' :: done) r
  | '\n' :: r => if swallowing then multiBasic true done r else multiBasic false ('\n' :: done) r
  | '\\' :: 'u' :: a :: b :: c :: d :: r =>
    push done ((hexNumber? [a, b, c, d]).bind charOf?) fun t => multiBasic false t r
  | '\\' :: 'U' :: a :: b :: c :: d :: e :: f :: g :: h :: r =>
    push done ((hexNumber? [a, b, c, d, e, f, g, h]).bind charOf?) fun t => multiBasic false t r
  | '\\' :: c :: r =>
    if endsLine (c :: r) then multiBasic true done (c :: r)
    else push done (escaped? c) fun t => multiBasic false t r
  | c :: r =>
    if swallowing && (c == ' ' || c == '\t') then multiBasic true done r
    else if mayStand c then multiBasic false (c :: done) r
    else none

/-- The text up to three closing apostrophes. -/
def multiLiteral (done : List Char) : List Char → Quotation
  | [] => none
  | '\'' :: '\'' :: '\'' :: r => some (closed '\'' done r)
  | '\r' :: '\n' :: r => multiLiteral ('\n' :: done) r
  | '\n' :: r => multiLiteral ('\n' :: done) r
  | c :: r => if mayStand c then multiLiteral (c :: done) r else none

/-- What follows a line break at the beginning. -/
def afterBreak : List Char → List Char
  | '\n' :: r => r
  | '\r' :: '\n' :: r => r
  | cs => cs

/-- Reads a quoted text of any kind; `none` also if there is none. -/
def quotation : List Char → Quotation
  | '"' :: '"' :: '"' :: r => multiBasic false [] (afterBreak r)
  | '"' :: r => basic [] r
  | '\'' :: '\'' :: '\'' :: r => multiLiteral [] (afterBreak r)
  | '\'' :: r => literal [] r
  | _ => none

/-- Reads a quoted text on one line. -/
def lineQuotation : List Char → Quotation
  | '"' :: r => basic [] r
  | '\'' :: r => literal [] r
  | _ => none

end SeveralLines

end Toml
end VoiceRelay
