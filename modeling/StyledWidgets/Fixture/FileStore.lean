/-
Module: StyledWidgets.Fixture.FileStore
Purpose: Stores of files under paths, the names and extensions in paths, and where a path leads.
Main exports: FilePath, FilePath.withExtension, FileStore, FileStore.locate, FileStore.read,
  FileStore.write, FileStore.below
-/
import StyledWidgets.Toolkit.File

namespace StyledWidgets

/-! ### Paths -/

/-- A path as its text is cut at slashes. -/
abbrev FilePath := List String

/-- Put a character in front of the first component. -/
def consComponent (c : Char) : List (List Char) → List (List Char)
  | [] => [[c]]
  | component :: later => (c :: component) :: later

/-- Cut a text at its slashes. -/
def cutSlashes : List Char → List (List Char)
  | [] => [[]]
  | c :: rest => if c = '/' then [] :: cutSlashes rest else consComponent c (cutSlashes rest)

namespace FilePath

/-- The component that leads to the directory above. -/
def upward : String := ".."

/-- The component leads nowhere: it is empty or a single dot. -/
def isIdle (component : String) : Bool := component.isEmpty || component == "."

/-- The path that a text names. -/
def ofText (text : String) : FilePath := (cutSlashes text.toList).map String.ofList

/-- The number of bytes of the text. -/
def textSize (path : FilePath) : Nat :=
  path.foldl (fun total part => total + part.utf8ByteSize) (path.length - 1)

/-- The path starts at the root of all files and not where its reader stands. -/
def isAbsolute : FilePath → Bool
  | first :: _ :: _ => first.isEmpty
  | _ => false

/-- The components that lead somewhere. -/
def names (path : FilePath) : List String := path.filter fun component => !isIdle component

/-- The name at the end of a path, unless the path ends on its way up. -/
def name? (path : FilePath) : Option String := path.names.getLast?.filter fun name => name ≠ upward

/-- The name at the end of a path. -/
def fileName (path : FilePath) : String := path.name?.getD "unknown"

/-- The name of the directory that holds the file. -/
def parentName? (path : FilePath) : Option String := name? path.names.dropLast

/-- The parts of a name before and behind its last dot. A dot at the start of the name does not
count. -/
def splitName (name : List Char) : List Char × Option (List Char) :=
  let behind := name.reverse.takeWhile fun c => c ≠ '.'
  match (name.reverse.drop behind.length).drop 1 with
  | [] => (name, none)
  | stem => (stem.reverse, some behind.reverse)

/-- The extension of the file name. -/
def extension? (path : FilePath) : Option String :=
  path.name?.bind fun name => (splitName name.toList).2.map String.ofList

/-- The path with its last component changed, if that is a name. -/
def mapName (change : String → String) (path : FilePath) : FilePath :=
  match path.getLast? with
  | none => path
  | some name =>
      if isIdle name || name == upward then path else path.dropLast ++ [change name]

/-- A name without its extension; the dot in front of the extension stays. -/
def cutExtension (name : String) : String :=
  match splitName name.toList with
  | (stem, some _) => String.ofList stem ++ "."
  | (_, none) => name

/-- The path with another extension. The present extension is cut off before the new one is put
on, so a file `..css` is left with a path upward, which takes no extension. -/
def withExtension (path : FilePath) (extension : String) : FilePath :=
  (path.mapName cutExtension).mapName fun name =>
    String.ofList (splitName name.toList).1 ++ "." ++ extension

end FilePath

/-! ### Stores -/

/-- Files and directories by the names on the way down to them. The top is a directory without
being listed. -/
structure FileStore where
  files : List (FilePath × ByteArray) := []
  directories : List FilePath := []

/-- Where a walk along a path stands. -/
inductive Place where
  /-- At the end of these names, counted from the top of the store. -/
  | inside (names : List String)
  /-- In a directory that is no part of the store. -/
  | outside
  deriving Repr, DecidableEq, Inhabited

namespace FileStore

/-- The number of bytes that a name can have. -/
def maxNameSize : Nat := 255

/-- The number of bytes that the text of a path can have. -/
def maxPathSize : Nat := 4095

/-- The paths of the files below a directory. -/
def below (store : FileStore) (directory : FilePath) : List FilePath :=
  (store.files.map (·.1)).filter fun path =>
    directory.isPrefixOf path && directory.length < path.length

/-- The path is a directory. -/
def isDirectory (store : FileStore) (path : FilePath) : Bool :=
  path.isEmpty || store.directories.contains path

/-- Why nothing lies below a place that is no directory. -/
def obstacle (store : FileStore) (names : List String) : FileError :=
  if (store.files.lookup names).isSome then .notDirectory else .missing

/-- One step from a place inside the store. Only a directory can be left, up or down, or stayed
in. -/
def stepInside (store : FileStore) (names : List String) (component : String) :
    Except FileError Place :=
  if !store.isDirectory names then .error (store.obstacle names)
  else if FilePath.isIdle component then .ok (.inside names)
  else if component = FilePath.upward then
    .ok (if names.isEmpty then .outside else .inside names.dropLast)
  else if maxNameSize < component.utf8ByteSize then .error .nameTooLong
  else .ok (.inside (names ++ [component]))

/-- One step from a place outside the store. Nothing is known to be there, so no name leads on. -/
def stepOutside (component : String) : Except FileError Place :=
  if FilePath.isIdle component || component == FilePath.upward then .ok .outside
  else if maxNameSize < component.utf8ByteSize then .error .nameTooLong
  else .error .missing

/-- One step of a walk along a path. -/
def step (store : FileStore) : Place → String → Except FileError Place
  | .inside names, component => store.stepInside names component
  | .outside, component => stepOutside component

/-- Where the walk along a path starts. -/
def startOf (path : FilePath) : Place := if path.isAbsolute then .outside else .inside []

/-- The place to which a path leads. -/
def locate (store : FileStore) (path : FilePath) : Except FileError Place :=
  if path.any fun component => component.toList.contains '\x00' then .error .nulInPath
  else if maxPathSize < path.textSize then .error .nameTooLong
  else path.foldlM store.step (startOf path)

/-- Read a file as text. -/
def read (store : FileStore) (path : FilePath) : Except FileError String := do
  match ← store.locate path with
  | .outside => throw .isDirectory
  | .inside names =>
      match store.files.lookup names with
      | some bytes => decodeText bytes
      | none => throw (if store.isDirectory names then .isDirectory else .missing)

/-- Something is at the end of the path. -/
def holds (store : FileStore) (path : FilePath) : Bool :=
  match store.locate path with
  | .ok .outside => true
  | .ok (.inside names) => (store.files.lookup names).isSome || store.isDirectory names
  | .error _ => false

/-! ### Writing -/

/-- A step into a directory, which is made if there is nothing yet. -/
def enter (store : FileStore) (place : Place) (component : String) :
    Except FileError (FileStore × Place) := do
  match ← store.step place component with
  | .outside => return (store, .outside)
  | .inside names =>
      if (store.files.lookup names).isSome then throw .notDirectory
      if store.isDirectory names then return (store, .inside names)
      return ({ store with directories := names :: store.directories }, .inside names)

/-- Write a file, in place of what it held before. The directories on the way are made. -/
def write (store : FileStore) (path : FilePath) (bytes : ByteArray) :
    Except FileError FileStore := do
  let (store, place) ←
    path.dropLast.foldlM (fun (store, place) component => store.enter place component)
      (store, startOf path)
  match ← store.step place (path.getLast?.getD "") with
  | .outside => throw .isDirectory
  | .inside names =>
      if store.isDirectory names then throw .isDirectory
      return { store with
        files := (names, bytes) :: store.files.filter fun file => file.1 ≠ names }

end FileStore

end StyledWidgets
