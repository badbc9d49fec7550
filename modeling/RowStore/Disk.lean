import RowStore.Data.Assoc
import RowStore.Data.SparseBytes
import RowStore.Error

/-!
# The disk

A disk is a tree of directories with files in it.  A place in the tree is the list of the parts
that lead to it from the top, and its canonical path is the text that joins them
(`Disk.pathOf`).  The disk maps the canonical path of every place at which something exists to a
directory or to a file with its content.

Names are relative to one of the directories, the home of the disk, unless they begin with `/`.
The parts of a name are followed one by one (`Disk.walk`): `.` and an empty part stand for the
directory reached so far and `..` for the one above, so different names can lead to one place.
A name leads nowhere if a part of it that is not the last is no directory; this goes for an empty
last part too, so a name that ends with `/` can only mean a directory.

There are two ways to use a name.  `Disk.resolve` gives the canonical path of what exists at the
place, file or directory.  `Disk.locate` gives the path at which a file is opened or created by
that name; no directory may be there, and the whole name, as it is handed to the file system, is
limited in length.
-/

namespace RowStore

/-- What is at a place of the disk. -/
inductive Disk.Node where
  | directory
  | file (content : SparseBytes)

/-- A disk: the place from which names start, and what exists, by canonical paths. -/
structure Disk where
  home : List String
  nodes : Assoc String Disk.Node

namespace Disk

/-! ## Limits of the file system -/

/-- The greatest number of bytes in a part of a name. -/
def maxPartBytes : Nat := 255

/-- The greatest number of bytes in the path by which a file is opened or created. -/
def maxPathBytes : Nat := 4095

/-- The greatest length that can be asked for. -/
def maxLength : Nat := 9223372036854775807

/-- The greatest length of a file. -/
def maxFileLength : Nat := 17592186040320

/-- The length of a directory, which is that of the block with its entries. -/
def directoryLength : Nat := 4096

/-! ## Places -/

/-- The canonical path of a place. -/
def pathOf (place : List String) : String := "/" ++ "/".intercalate place

/-- Whether a place is a directory. -/
def isDirectory (d : Disk) (place : List String) : Bool :=
  match d.nodes.find? (pathOf place) with
  | some .directory => true
  | _ => false

/-- Adds a directory, and those on the way to it. -/
def addDirectory (d : Disk) (place : List String) : Disk :=
  { d with
    nodes := (List.range (place.length + 1)).foldl
      (fun nodes depth => nodes.insert (pathOf (place.take depth)) .directory) d.nodes }

/-- The disk on which there is only the directory from which names start. -/
def ofHome (home : List String) : Disk := addDirectory ⟨home, ∅⟩ home

/-! ## Names -/

/-- Follows parts from a place on. -/
def walk (d : Disk) : List String → List String → Option (List String)
  | place, [] => some place
  | place, part :: rest =>
    if !d.isDirectory place then none
    else if part = "" ∨ part = "." then d.walk place rest
    else if part = ".." then d.walk place.dropLast rest
    else d.walk (place ++ [part]) rest

/-- Whether a name starts from the top. -/
def isAbsolute (name : String) : Bool := name.startsWith "/"

/-- The path that is handed to the file system for a name. -/
def fullPath (d : Disk) (name : String) : String :=
  if isAbsolute name then name else pathOf d.home ++ "/" ++ name

/-- The place that a name leads to, at which nothing need exist. -/
def placeOf (d : Disk) (name : String) : Except Error (List String) :=
  let parts := name.splitOn "/"
  if name.toList.contains '\x00' then .error (.io .zeroInName)
  else if parts.any fun part => maxPartBytes < part.utf8ByteSize then .error (.io .fileSystem)
  else
    match d.walk (if isAbsolute name then [] else d.home) parts with
    | some place => .ok place
    | none => .error (.io .fileSystem)

/-- The canonical path of what a name leads to, which has to exist. -/
def resolve (d : Disk) (name : String) : Except Error String := do
  let path := pathOf (← d.placeOf name)
  if d.nodes.contains path then return path else throw (.io .fileSystem)

/-- The canonical path of the file that a name leads to, which need not exist. -/
def locate (d : Disk) (name : String) : Except Error String := do
  let place ← d.placeOf name
  if maxPathBytes < (d.fullPath name).utf8ByteSize || d.isDirectory place then
    throw (.io .fileSystem)
  else return pathOf place

/-! ## Looking -/

/-- The content of the file with a canonical path. -/
def content (d : Disk) (path : String) : Except Error SparseBytes :=
  match d.nodes.find? path with
  | some (.file content) => .ok content
  | _ => .error (.io .fileSystem)

/-- The length of the file or directory with a canonical path. -/
def lengthOf (d : Disk) (path : String) : Except Error Nat :=
  match d.nodes.find? path with
  | some (.file content) => .ok content.length
  | some .directory => .ok directoryLength
  | none => .error (.io .fileSystem)

/-- At most `count` bytes, from a position on, of the file with a canonical path. -/
def read (d : Disk) (path : String) (first count : Nat) : Except Error Bytes := do
  return (← d.content path).slice first count

/-- The content of a named file. -/
def fileContent (d : Disk) (name : String) : Except Error SparseBytes := do
  d.content (← d.locate name)

/-! ## Changing -/

/-- Gives the file with a canonical path a content. -/
def put (d : Disk) (path : String) (content : SparseBytes) : Disk :=
  { d with nodes := d.nodes.insert path (.file content) }

/-- Creates a named file, or replaces its content. -/
def replaceFile (d : Disk) (name : String) (bytes : Bytes) : Except Error Disk := do
  return d.put (← d.locate name) (.ofList bytes)

/-- Adds to the end of a named file, which is created if it does not exist. -/
def extendFile (d : Disk) (name : String) (bytes : Bytes) : Except Error Disk := do
  let path ← d.locate name
  match d.content path with
  | .ok old => return d.put path (old.append bytes)
  | .error _ => return d.put path (.ofList bytes)

/-- Cuts a named file to a length, or fills it up with zeros. -/
def resizeFile (d : Disk) (name : String) (length : Nat) : Except Error Disk := do
  let path ← d.locate name
  let old ← d.content path
  if maxLength < length then throw (.io .lengthOutOfRange)
  if maxFileLength < length then throw (.io .fileSystem)
  return d.put path (old.fit length)

/-! ## What a file leaves as it is

A file that is created or overwritten takes the place of no directory, so every name leads where it
led before.
-/

theorem isDirectory_iff (d : Disk) (place : List String) :
    d.isDirectory place = true ↔ d.nodes.find? (pathOf place) = some .directory := by
  rw [isDirectory]
  split
  · next h => simp [h]
  · next h => exact ⟨fun h' => (by cases h'), fun h' => (h h').elim⟩

variable {d : Disk} {place : List String}

theorem isDirectory_put (hplace : d.isDirectory place = false) (content : SparseBytes)
    (other : List String) :
    (d.put (pathOf place) content).isDirectory other = d.isDirectory other := by
  rw [Bool.eq_iff_iff, isDirectory_iff, isDirectory_iff, put, Assoc.find?_insert]
  split
  · next heq =>
    rw [← Bool.not_eq_true, isDirectory_iff] at hplace
    rw [← heq]
    exact ⟨fun h => (by cases h), fun h => absurd h hplace⟩
  · exact Iff.rfl

theorem walk_put (hplace : d.isDirectory place = false) (content : SparseBytes)
    (start parts : List String) :
    (d.put (pathOf place) content).walk start parts = d.walk start parts := by
  induction parts generalizing start with
  | nil => rfl
  | cons part rest ih => simp only [walk, isDirectory_put hplace, ih]

theorem placeOf_put (hplace : d.isDirectory place = false) (content : SparseBytes)
    (name : String) : (d.put (pathOf place) content).placeOf name = d.placeOf name := by
  simp only [placeOf, walk_put hplace]
  rfl

/-- A name at which a file was put leads to it. -/
theorem resolve_put {name : String} (hname : d.placeOf name = .ok place)
    (hplace : d.isDirectory place = false) (content : SparseBytes) :
    (d.put (pathOf place) content).resolve name = .ok (pathOf place) := by
  have hthere : (d.put (pathOf place) content).nodes.contains (pathOf place) = true := by
    simp [put, Assoc.contains]
  simp only [resolve, placeOf_put hplace, hname, bind, Except.bind, hthere, if_true]
  rfl

theorem content_put (d : Disk) (path : String) (content : SparseBytes) :
    (d.put path content).content path = .ok content := by
  simp only [Disk.content, put, Assoc.find?_insert, if_true]

theorem lengthOf_put (d : Disk) (path : String) (content : SparseBytes) :
    (d.put path content).lengthOf path = .ok content.length := by
  simp only [lengthOf, put, Assoc.find?_insert, if_true]

theorem lengthOf_of_content {path : String} {content : SparseBytes}
    (h : d.content path = .ok content) : d.lengthOf path = .ok content.length := by
  rw [Disk.content] at h
  split at h
  · next hfile =>
    cases h
    rw [lengthOf, hfile]
  · cases h

/-- A file can only be located where there is no directory. -/
theorem exists_place_of_locate {name path : String} (h : d.locate name = .ok path) :
    ∃ place, d.placeOf name = .ok place ∧ d.isDirectory place = false ∧ path = pathOf place := by
  rw [locate] at h
  rcases hname : d.placeOf name with e | place
  · simp [hname, bind, Except.bind] at h
  · rcases hplace : d.isDirectory place with _ | _
    · refine ⟨place, rfl, hplace, ?_⟩
      simp only [hname, bind, Except.bind] at h
      split at h
      · cases h
      · cases h
        rfl
    · simp [hname, hplace, bind, Except.bind, throw, throwThe, MonadExceptOf.throw] at h

end Disk

end RowStore
