/-!
  UnitLedger.FileTree — files that exist only in a description.

  Each file has a path, which is a list of names, and bytes. A directory exists as far as a file
  lies in it. A path is followed from the top name by name: a dot stays where it is, two dots go
  back.
-/

namespace UnitLedger

structure FileTree where
  files : List (List String × List UInt8) := []
  deriving Repr

namespace FileTree

/-- The names of a path that matter. -/
def names (path : String) : List String := (path.splitOn "/").filter fun n => n != "" && n != "."

def isDirectory (t : FileTree) (place : List String) : Bool :=
  place.isEmpty || t.files.any fun f => place.length < f.1.length && f.1.take place.length == place

def follow (t : FileTree) (path : List String) : Option (List String) :=
  path.foldlM (fun place name =>
    if !t.isDirectory place then none
    else if name == ".." then some place.dropLast
    else some (place ++ [name])) []

def read? (t : FileTree) (path : String) : Option (List UInt8) :=
  (t.follow (names path)).bind fun place => List.lookup place t.files

/-- The content of a file whose bytes are UTF-8. -/
def text? (t : FileTree) (path : String) : Option String :=
  (t.read? path).bind fun bytes => String.fromUTF8? ⟨bytes.toArray⟩

/-- The tree with this file, if a file can be there. -/
def write? (t : FileTree) (path : String) (text : String) : Option FileTree :=
  match t.follow (names path) with
  | none => none
  | some place =>
    if path.endsWith "/" || (names path).getLast? == some ".." || t.isDirectory place then none
    else
      let others := t.files.filter (·.1 != place)
      some ⟨(place, text.toUTF8.toList) :: others⟩

end FileTree

end UnitLedger
