import VoiceRelay.Text.Blank

/-!
# Files and folders

The part of a file system that the relay can see: places, what stands at each, and the faults of the
operations it uses. A place is the list of names from the root down. A path is relative to a base
place unless it begins with a slash; empty names and single dots in it mean nothing, and two dots
lead to the folder above.

**Faults.** Each has the text that the system gives with it. A path is walked from the left, so the
first name that does not lead on decides.

**Results.**

- `get_put`: what was put at a place stands there.
- `get_put_of_ne`: and nothing else has changed.
-/

namespace VoiceRelay
namespace Disk

/-- The names from the root down. -/
abbrev Place := List String

/-- What stands at a place. -/
inductive Node
  | folder
  | file (content : List UInt8)
  | fullDevice
  deriving DecidableEq, Repr

/-- Why an operation fails. -/
inductive Fault
  | missing
  | taken
  | notFolder
  | isFolder
  | full
  | longName
  | badName
  deriving DecidableEq, Repr

/-- The text of a fault. -/
def Fault.message : Fault → String
  | missing => "No such file or directory (os error 2)"
  | taken => "File exists (os error 17)"
  | notFolder => "Not a directory (os error 20)"
  | isFolder => "Is a directory (os error 21)"
  | full => "No space left on device (os error 28)"
  | longName => "File name too long (os error 36)"
  | badName => "file name contained an unexpected NUL byte"

/-- Places with what stands there; the root is a folder in any case. -/
structure Tree where
  nodes : List (Place × Node)
  deriving Repr

namespace Tree

section Nodes

/-- What stands at a place. -/
def get (d : Tree) (p : Place) : Option Node :=
  if p = [] then some .folder else d.nodes.lookup p

/-- Puts something at a place. -/
def put (d : Tree) (p : Place) (n : Node) : Tree :=
  ⟨(p, n) :: d.nodes.filter (fun e => e.1 != p)⟩

theorem get_put (d : Tree) {p : Place} (n : Node) (h : p ≠ []) : (d.put p n).get p = some n := by
  simp [get, put, h]

theorem lookup_filter_ne {p q : Place} (h : q ≠ p) :
    ∀ l : List (Place × Node), (l.filter (fun e => e.1 != p)).lookup q = l.lookup q
  | [] => rfl
  | (r, n) :: l => by
    have ih := lookup_filter_ne h l
    by_cases hr : r = p
    · subst hr
      have : (q == r) = false := by simp [h]
      simp [List.lookup_cons, this, ih]
    · have hb : (r != p) = true := by simp [hr]
      simp [List.lookup_cons, hb, ih]

theorem get_put_of_ne (d : Tree) {p q : Place} (n : Node) (h : q ≠ p) :
    (d.put p n).get q = d.get q := by
  have : (q == p) = false := by simp [h]
  simp [get, put, List.lookup_cons, this, lookup_filter_ne h]

end Nodes

section Paths

/-- The longest name in octets. -/
def nameLimit : Nat := 255

/-- The names of a path. -/
def names (path : String) : List String :=
  ((Text.pieces (· == '/') path.toList).map String.ofList).filter fun n => n != "" && n != "."

/-- Where a path starts. -/
def start (base : Place) (path : String) : Place :=
  if path.toList.head? = some '/' then [] else base

/-- Whether a path ends in a single dot, so that what comes before it must be a folder. -/
def endsInDot (path : String) : Bool :=
  ((Text.pieces (· == '/') path.toList).filter (!·.isEmpty)).getLast? == some ['.']

/-- Whether a path can only name a folder. -/
def namesFolder (path : String) : Bool :=
  path.toList.getLast? == some '/' || endsInDot path || (names path).isEmpty ||
    (names path).getLast? == some ".."

/-- Whether no path can look like this. -/
def isBad (path : String) : Bool := path.toList.contains '\x00'

/-- One name further, into a folder. -/
def enter (d : Tree) (p : Place) (name : String) : Except Fault Place :=
  if name = ".." then .ok p.dropLast
  else if nameLimit < name.utf8ByteSize then .error .longName
  else
    match d.get (p ++ [name]) with
    | none => .error .missing
    | some .folder => .ok (p ++ [name])
    | some _ => .error .notFolder

/-- Several names further. -/
def walk (d : Tree) (p : Place) (ns : List String) : Except Fault Place := ns.foldlM d.enter p

/-- What stands at a place, which is walked to from the root. -/
def nodeAt (d : Tree) (p : Place) : Except Fault Node := do
  let folder ← d.walk [] p.dropLast
  match p.getLast? with
  | none => return .folder
  | some name =>
    if name.toList.contains '\x00' then throw .badName
    if nameLimit < name.utf8ByteSize then throw .longName
    match d.get (folder ++ [name]) with
    | some n => return n
    | none => throw .missing

/-- The place that a path names, and what stands there. -/
def find (d : Tree) (base : Place) (path : String) : Except Fault (Place × Option Node) := do
  if path.isEmpty then throw .missing
  if isBad path then throw .badName
  let ns := names path
  let folder ← d.walk (start base path) ns.dropLast
  match ns.getLast? with
  | none => return (folder, some .folder)
  | some ".." => return (folder.dropLast, some .folder)
  | some name =>
    if nameLimit < name.utf8ByteSize then throw .longName
    let place := folder ++ [name]
    match d.get place with
    | some .folder => return (place, some .folder)
    | some n => if namesFolder path then throw .notFolder else return (place, some n)
    | none => return (place, none)

end Paths

section Operations

/-- Makes the folders of a path that are missing. -/
def makeFolders (d : Tree) (p : Place) : List String → Except Fault (Tree × Place)
  | [] => .ok (d, p)
  | name :: ns =>
    if name = ".." then d.makeFolders p.dropLast ns
    else if nameLimit < name.utf8ByteSize then .error .longName
    else
      match d.get (p ++ [name]) with
      | none => (d.put (p ++ [name]) .folder).makeFolders (p ++ [name]) ns
      | some .folder => d.makeFolders (p ++ [name]) ns
      | some _ => .error (if ns.isEmpty then .taken else .notFolder)

/-- Opens a file for appending, making it and the folders above it if they are missing. -/
def openAppend (d : Tree) (base : Place) (path : String) : Except Fault (Tree × Place) := do
  if path.isEmpty then throw .missing
  if isBad path then throw .badName
  let (d, folder) ← d.makeFolders (start base path) (names path).dropLast
  match (names path).getLast? with
  | none => throw .isFolder
  | some name =>
    if nameLimit < name.utf8ByteSize then throw .longName
    let place := folder ++ [name]
    match d.get place with
    | some .folder => throw .isFolder
    | some _ =>
      if endsInDot path then throw .notFolder
      else if namesFolder path then throw .isFolder
      else return (d, place)
    | none =>
      if endsInDot path then throw .missing
      else if namesFolder path then throw .isFolder
      else return (d.put place (.file []), place)

/-- Appends octets at a place. -/
def append (d : Tree) (p : Place) (octets : List UInt8) : Except Fault Tree :=
  match d.get p with
  | some (.file content) => .ok (d.put p (.file (content ++ octets)))
  | some .fullDevice => .error .full
  | some .folder => .error .isFolder
  | none => .error .missing

/-- The content at a place. -/
def contentAt (d : Tree) (p : Place) : List UInt8 :=
  match d.get p with
  | some (.file content) => content
  | _ => []

/-- Reads a whole file. -/
def read (d : Tree) (base : Place) (path : String) : Except Fault (List UInt8) := do
  match ← d.find base path with
  | (_, none) => throw .missing
  | (_, some .folder) => throw .isFolder
  | (p, some _) => return d.contentAt p

/-- Writes a file, with the folders above it; a path that leads nowhere changes nothing. -/
def write (d : Tree) (base : Place) (path : String) (content : List UInt8) : Tree :=
  match d.openAppend base path with
  | .ok (d, p) => d.put p (.file content)
  | .error _ => d

/-- Makes a folder with the folders above it. -/
def makeFolder (d : Tree) (base : Place) (path : String) : Tree :=
  match d.makeFolders (start base path) (names path) with
  | .ok (d, _) => d
  | .error _ => d

/-- A tree with nothing but a device that is always full. -/
def bare : Tree := ⟨[(["dev", "full"], .fullDevice), (["dev"], .folder)]⟩

end Operations

end Tree
end Disk
end VoiceRelay
