import RowPipeline.Text.Quoted

/-!
# Locations of files

A location is a path to a file in normal form: its parts without empty ones and without single points,
joined by slashes. `FileEntry` is what a location leads to, and `Files.entry` looks it up in a folder that
holds the given files.
-/

namespace RowPipeline

namespace Location

/-- The parts of a path. -/
def parts (path : String) : List String :=
  (path.splitOn "/").filter fun part => part ≠ "" && part ≠ "."

/-- The slashes that an absolute path starts with; exactly two of them are kept. -/
def root (path : String) : String :=
  let slashes := (path.toList.takeWhile (· == '/')).length
  if slashes = 0 then "" else if slashes = 2 then "//" else "/"

/-- The path of its parts. -/
def join (root : String) (parts : List String) : String :=
  let path := root ++ "/".intercalate parts
  if path.isEmpty then "." else path

/-- A path in normal form. -/
def normalize (path : String) : String := join (root path) (parts path)

/-- The folder that a location lies in. -/
def parent (path : String) : String := join (root path) (parts path).dropLast

end Location

/-- What a location leads to. -/
inductive FileEntry where
  | text (content : String)
  | folder
  | missing
  /-- A part on the way is a file. -/
  | blocked
  deriving DecidableEq

namespace FileEntry

/-- The text of a file, or why there is none. -/
def read (location : String) : FileEntry → Except String String
  | text content => .ok content
  | folder => .error ("[Errno 21] Is a directory: " ++ Text.quoted location)
  | missing => .error ("[Errno 2] No such file or directory: " ++ Text.quoted location)
  | blocked => .error ("[Errno 20] Not a directory: " ++ Text.quoted location)

end FileEntry

/-- The files of a folder under their locations. -/
abbrev Files := List (String × String)

/-- What a location leads to in a folder. -/
def Files.entry (files : Files) (location : String) : FileEntry :=
  let parts := Location.parts location
  let within (outer inner : List String) : Bool := outer.isPrefixOf inner && outer ≠ inner
  let all := files.map fun (name, _) => Location.parts name
  match files.find? fun (name, _) => Location.parts name = parts with
  | some (_, content) => .text content
  | none =>
    if parts.isEmpty || all.any (within parts) then .folder
    else if all.any (within · parts) then .blocked
    else .missing

end RowPipeline
