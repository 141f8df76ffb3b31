import Logbook.Path
import Logbook.Table
import Logbook.Text.Utf8

/-!
# Disks

Files and directories as they are seen from a working directory. A path is walked piece by piece:
every piece before the last has to lead to a directory, two dots lead to the directory above, and
only a path that ends in a name can be the path of a file.
-/

namespace Logbook

/-- Where a file or a directory stands: the names that lead there from the working directory.
Double dots, which can only stand in front, lead out of it. -/
abbrev Place := List Text

namespace Place

def above (place : Place) : Place :=
  if place.all (· = Path.up) then place ++ [Path.up] else place.dropLast

end Place

namespace Path

def longestName : Nat := 255

def longestPath : Nat := 4095

def isName (piece : Text) : Bool :=
  piece ≠ [] && piece ≠ here && piece ≠ up && (Text.encode piece).length ≤ longestName

/-- Whether a text leads anywhere from a working directory. It must not begin at the root, nor
hold the character that ends a path. -/
def isLegal (path : Text) : Bool :=
  path ≠ [] && path.head? ≠ some '/' && !path.contains '\x00' &&
    (Text.encode path).length ≤ longestPath

end Path

structure Disk where
  files : Table Place Bytes := {}
  directories : List Place := []

namespace Disk

/-- The working directory and those above it are always there. -/
def isDirectory (disk : Disk) (place : Place) : Bool :=
  place.all (· = Path.up) || disk.directories.contains place

def step? (disk : Disk) (place : Place) (piece : Text) : Option Place :=
  if piece = [] ∨ piece = Path.here then some place
  else if piece = Path.up then some place.above
  else if disk.isDirectory (place ++ [piece]) then some (place ++ [piece])
  else none

def walk? (disk : Disk) : Place → List Text → Option Place
  | place, [] => some place
  | place, piece :: rest => (disk.step? place piece).bind fun next => disk.walk? next rest

/-- The place of a file with the given path, whether there is one or not. -/
def place? (disk : Disk) (path : Text) : Option Place :=
  let pieces := Text.splitOn '/' path
  let name := pieces.getLast?.getD []
  if Path.isLegal path && Path.isName name then
    (disk.walk? [] pieces.dropLast).map (· ++ [name])
  else none

def contents (disk : Disk) (place : Place) : Bytes := (disk.files.find? place).getD []

def read? (disk : Disk) (path : Text) : Option Bytes :=
  (disk.place? path).bind disk.files.find?

def append (disk : Disk) (place : Place) (data : Bytes) : Disk :=
  { disk with files := disk.files.insert place (disk.contents place ++ data) }

/-- The place of the file with a path, and the disk with a file there: an empty one where there
was none. A directory is in the way of a file. -/
def open? (disk : Disk) (path : Text) : Option (Place × Disk) :=
  match disk.place? path with
  | none => none
  | some place => if disk.isDirectory place then none else some (place, disk.append place [])

@[simp] theorem contents_append_self (disk : Disk) (place : Place) (data : Bytes) :
    (disk.append place data).contents place = disk.contents place ++ data := by
  simp [contents, append]

theorem contents_append_of_ne (disk : Disk) {place other : Place} (data : Bytes)
    (h : place ≠ other) : (disk.append place data).contents other = disk.contents other := by
  simp [contents, append, h]

/-- Walks the pieces of a path and makes the directories that are missing. The walk ends early
where a file is in the way or a name is too long. -/
def makeAlong : List Text → Place → Disk → Bool × Place × Disk
  | [], place, disk => (true, place, disk)
  | piece :: rest, place, disk =>
      match disk.step? place piece with
      | some next => makeAlong rest next disk
      | none =>
          let next := place ++ [piece]
          if Path.isName piece && (disk.files.find? next).isNone then
            makeAlong rest next { disk with directories := disk.directories ++ [next] }
          else (false, place, disk)

/-- Makes the directories of a path, and says whether all of them are there. What a dot at the
end stands in is not made. The empty path asks for nothing. -/
def makeDirectories (disk : Disk) (path : Text) : Bool × Disk :=
  if path = [] then (true, disk)
  else if Path.isLegal path then
    let pieces := (Text.splitOn '/' path).filter (· ≠ [])
    let solid := pieces.filter (· ≠ Path.here)
    if pieces.getLast? = some Path.here then
      let (reached, place, disk) := makeAlong solid.dropLast [] disk
      (reached && (disk.walk? place (solid.drop (solid.length - 1))).isSome, disk)
    else
      let (reached, _, disk) := makeAlong solid [] disk
      (reached, disk)
  else (false, disk)

end Disk

end Logbook
