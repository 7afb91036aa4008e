import VoiceRelay.Disk.Tree
import VoiceRelay.Http.Date
import VoiceRelay.Http.MediaType
import VoiceRelay.Http.Range
import VoiceRelay.Http.Reply
import VoiceRelay.Http.Target
import VoiceRelay.Json.Event

/-!
# Files over HTTP

A folder whose files can be read. The path of a request is taken apart into names after its escapes
were decoded; a path that leads upwards, or whose octets are no text, names nothing. For a folder
its index is read, if the path ends with a slash; else the reply says where to go. For what is not
there the page for missing files is shown, if there is one.

**Conditions.** A request may ask for a file only if it was changed since some moment, or only if it
was not, and for a part of it. These are asked of the page for missing files too; its code stays.

**Results.**

- `namesOf_no_dots`: no name that is looked up leads upwards.
- `Folder.send_plain`: a request without headers gets the whole file.
-/

namespace VoiceRelay
namespace Http

section Paths

/-- The octets of a path, with its escapes decoded; what is no escape stands for itself. -/
def unescape : List Char → List UInt8
  | '%' :: a :: b :: r =>
    match Json.hexValue? a, Json.hexValue? b with
    | some x, some y => UInt8.ofNat (x * 16 + y) :: unescape r
    | _, _ => Utf8.encode ['%'] ++ unescape (a :: b :: r)
  | c :: r => Utf8.encode [c] ++ unescape r
  | [] => []

/-- The names of a decoded path; `none` if it starts at the root or leads upwards. -/
def namesOf (cs : List Char) : Option (List String) :=
  let ns := ((Text.pieces (· == '/') cs).map String.ofList).filter fun n => n != "" && n != "."
  if cs.head? = some '/' ∨ ".." ∈ ns then none else some ns

/-- The names that the path of a request leads through. -/
def names (path : List Char) : Option (List String) :=
  let octets := unescape (path.dropWhile (· == '/'))
  if Utf8.wellFormed octets then namesOf (Utf8.decode octets) else none

theorem namesOf_no_dots {cs : List Char} {ns : List String} (h : namesOf cs = some ns) :
    ".." ∉ ns := by
  simp only [namesOf] at h
  split at h
  · simp at h
  · next hn =>
    simp only [Option.some.injEq] at h
    subst h
    exact fun hm => hn (Or.inr hm)

end Paths

/-- A folder whose files are served, and the second when they were last changed. -/
structure Folder where
  disk : Disk.Tree
  place : Disk.Place
  changed : Int

namespace Folder

section Serving

/-- The name of the page for missing files. -/
def missingPage : String := "404.html"

/-- The name of the index of a folder. -/
def index : String := "index.html"

/-- The code of the reply that withholds a file, by what a request asks about its last change. -/
def withheld? (changed : Int) (r : Request) : Option Nat :=
  let since (name : String) : Option Int := (r.header name).bind Date.second?
  if (since "if-unmodified-since").any (· < changed) then some 412
  else if (since "if-modified-since").any (changed ≤ ·) then some 304
  else none

/-- What is said of several ranges at once. -/
def severalRanges : String := "Cannot serve multipart range requests"

/-- The reply with the content of a file, or with the part that a request asks for. -/
def share (r : Request) (type : String) (content : List UInt8) : Reply :=
  match (r.header "range").map fun v => Share.ofHeader content.length v.toList with
  | none => withBody 200 type content
  | some (.part first last) => withBody 206 type (Share.cut first last content)
  | some .several => withBody 416 type (Utf8.encode severalRanges.toList)
  | some .unmet => withBody 416 type []

/-- The reply with a file of some name. -/
def send (f : Folder) (r : Request) (name : String) (content : List UInt8) : Reply :=
  match withheld? f.changed r with
  | some code => bare code
  | none => share r (typeOf name) content

/-- The reply for what is not there. -/
def missing (f : Folder) (r : Request) : Reply :=
  match f.disk.nodeAt (f.place ++ [missingPage]) with
  | .ok (.file content) => { f.send r missingPage content with code := 404 }
  | _ => bare 404

/-- The reply with the file at a place. -/
def file (f : Folder) (r : Request) (place : Disk.Place) : Reply :=
  match f.disk.nodeAt place with
  | .ok (.file content) => f.send r (place.getLastD "") content
  | .error .missing | .error .notFolder => f.missing r
  | _ => bare 500

/-- The reply to a request that reads. -/
def read (f : Folder) (r : Request) : Reply :=
  let target := Target.ofText r.target
  match names target.path with
  | none => f.missing r
  | some ns =>
    match f.disk.nodeAt (f.place ++ ns) with
    | .ok .folder =>
      if target.path.getLast? = some '/' then f.file r (f.place ++ ns ++ [index])
      else elsewhere (.ofList target.withSlash.chars)
    | _ => f.file r (f.place ++ ns)

/-- What a request to a folder gives. -/
def serve (f : Folder) (r : Request) : Reply := resource r.method (f.read r)

/-- A request without headers gets the whole file. -/
theorem send_plain (f : Folder) (r : Request) (name : String) (content : List UInt8)
    (h : r.headers = []) : f.send r name content = withBody 200 (typeOf name) content := by
  simp [send, withheld?, share, Request.header, h]

end Serving

end Folder

end Http
end VoiceRelay
