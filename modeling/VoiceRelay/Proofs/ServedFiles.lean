import VoiceRelay.Http.Files

/-!
# What is shown of a folder

A folder is served to anybody, so it matters what a request can reach. Whatever it asks for, the reply shows a
part of a file below the folder or nothing of any file, and what stands elsewhere on the disk makes no
difference to it.

**Design.** A request reaches a place through names below the folder. Two dots are no such name: a path with
them is refused after its escapes were decoded, and the names of the index and of the page for missing
files are others.

**Results.**

- `serve_shows`: what the body of a reply can be.
- `serve_same`: a reply depends on the folder only.
- `serve_whole`: a file that is there is shown as a whole.
-/

namespace VoiceRelay
namespace Http
namespace Folder

section Defs

/-- What stands below a folder, where some names lead. -/
def nodeBelow (f : Folder) (ns : List String) : Except Disk.Fault Disk.Node :=
  f.disk.nodeAt (f.place ++ ns)

/-- Octets that are part of a file below the folder, or of no file at all. -/
inductive Shows (f : Folder) : List UInt8 → Prop
  | nothing : f.Shows []
  | refusal : f.Shows (Utf8.encode severalRanges.toList)
  | part {ns : List String} {content octets : List UInt8} (hdown : ".." ∉ ns)
      (hfile : f.nodeBelow ns = .ok (.file content)) (hpart : octets <:+: content) : f.Shows octets

/-- The same stands below two folders at one place. -/
structure Same (f g : Folder) : Prop where
  place : f.place = g.place
  changed : f.changed = g.changed
  node : ∀ ns, ".." ∉ ns → f.nodeBelow ns = g.nodeBelow ns

end Defs

section Reached

variable {f g : Folder}

theorem names_down {path : List Char} {ns : List String} (h : names path = some ns) : ".." ∉ ns := by
  unfold names at h
  simp only at h
  split at h
  · exact namesOf_no_dots h
  · cases h

theorem missingPage_down : ".." ∉ [missingPage] := by decide

theorem index_down {ns : List String} (h : ".." ∉ ns) : ".." ∉ ns ++ [index] := by
  rw [List.mem_append]
  rintro (hmem | hmem)
  · exact h hmem
  · exact absurd hmem (by decide)

end Reached

section Parts

variable {f : Folder}

theorem cut_part (first last : Nat) (content : List UInt8) : Share.cut first last content <:+: content := by
  have hfront : Share.cut first last content <+: content.drop first := List.take_prefix _ _
  exact hfront.isInfix.trans (List.drop_suffix _ _).isInfix

theorem send_shows {ns : List String} {content : List UInt8} (hdown : ".." ∉ ns)
    (hfile : f.nodeBelow ns = .ok (.file content)) (r : Request) (name : String) :
    f.Shows (f.send r name content).body := by
  unfold send
  split
  · exact .nothing
  · unfold share
    split
    · exact .part hdown hfile List.infix_rfl
    · exact .part hdown hfile (cut_part _ _ _)
    · exact .refusal
    · exact .nothing

theorem missing_shows (r : Request) : f.Shows (f.missing r).body := by
  unfold missing
  split
  · next hfile => exact send_shows missingPage_down hfile r missingPage
  · exact .nothing

theorem file_shows {ns : List String} (hdown : ".." ∉ ns) (r : Request) :
    f.Shows (f.file r (f.place ++ ns)).body := by
  unfold file
  split
  · next hfile => exact send_shows hdown hfile r _
  · exact missing_shows r
  · exact missing_shows r
  · exact .nothing

theorem read_shows (r : Request) : f.Shows (f.read r).body := by
  unfold read
  simp only
  split
  · exact missing_shows r
  · next ns hnames =>
    have hdown := names_down hnames
    split
    · split
      · rw [List.append_assoc]
        exact file_shows (index_down hdown) r
      · exact .nothing
    · exact file_shows hdown r

/-- **Nothing is shown but files below the folder**, whatever the request. -/
theorem serve_shows (f : Folder) (r : Request) : f.Shows (f.serve r).body := by
  unfold serve resource
  split
  · exact read_shows r
  · split
    · exact .nothing
    · exact .nothing

end Parts

section Others

variable {f g : Folder}

theorem send_same (h : f.Same g) (r : Request) (name : String) (content : List UInt8) :
    f.send r name content = g.send r name content := by
  unfold send
  rw [h.changed]

theorem missing_same (h : f.Same g) (r : Request) : f.missing r = g.missing r := by
  have hnode : f.disk.nodeAt (f.place ++ [missingPage]) = g.disk.nodeAt (g.place ++ [missingPage]) :=
    h.node _ missingPage_down
  unfold missing
  rw [hnode]
  split
  · rw [send_same h]
  · rfl

theorem file_same (h : f.Same g) (r : Request) {ns : List String} (hdown : ".." ∉ ns) :
    f.file r (f.place ++ ns) = g.file r (g.place ++ ns) := by
  have hnode : f.disk.nodeAt (f.place ++ ns) = g.disk.nodeAt (g.place ++ ns) := h.node ns hdown
  unfold file
  rw [hnode, missing_same h, h.place]
  split
  · exact send_same h r _ _
  · rfl
  · rfl
  · rfl

/-- **What stands elsewhere makes no difference**, whatever the request. -/
theorem serve_same (h : f.Same g) (r : Request) : f.serve r = g.serve r := by
  have hread : f.read r = g.read r := by
    unfold read
    simp only
    split
    · exact missing_same h r
    · next ns hnames =>
      have hdown := names_down hnames
      have hnode : f.disk.nodeAt (f.place ++ ns) = g.disk.nodeAt (g.place ++ ns) := h.node ns hdown
      rw [hnode]
      split
      · rw [List.append_assoc, List.append_assoc, file_same h r (index_down hdown)]
      · exact file_same h r hdown
  unfold serve
  rw [hread]

end Others

section Whole

variable {f : Folder}

/-- **A file that is there is shown as a whole** to a request without headers, with the type of its name. -/
theorem serve_whole {r : Request} (hget : r.method = "GET") (hheaders : r.headers = []) {ns : List String}
    (hnames : names (Target.ofText r.target).path = some ns) {content : List UInt8}
    (hfile : f.nodeBelow ns = .ok (.file content)) :
    f.serve r = withBody 200 (typeOf ((f.place ++ ns).getLastD "")) content := by
  have hnode : f.disk.nodeAt (f.place ++ ns) = .ok (.file content) := hfile
  have hread : f.read r = f.file r (f.place ++ ns) := by
    unfold read
    simp only [hnames, hnode]
  have hsend : f.file r (f.place ++ ns) = f.send r ((f.place ++ ns).getLastD "") content := by
    unfold file
    rw [hnode]
  calc f.serve r = f.read r := if_pos hget
    _ = f.send r ((f.place ++ ns).getLastD "") content := hread.trans hsend
    _ = withBody 200 (typeOf ((f.place ++ ns).getLastD "")) content := send_plain f r _ content hheaders

end Whole

end Folder
end Http
end VoiceRelay
