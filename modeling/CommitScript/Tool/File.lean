import CommitScript.Bytes.Basic

/-! # Files

What the tools see of files: the bytes or the fault of each path. A folder held as a value
answers like a working folder on disk. A path is walked step by step, and each step has to
start at a folder that exists, also one that stays or goes up. Around the folder lie the folders
above it and the root of the system, which hold nothing but what is written there.
-/

namespace CommitScript

/-- Why a file cannot be read or written. -/
inductive FileFault where
  | missing
  | isDirectory
  | notDirectory
  /-- A name or a whole path beyond the limit of the system. -/
  | tooLong
  /-- A path with a zero byte, which no system call takes. -/
  | zeroByte
  /-- The bytes are not UTF-8 text. -/
  | notText
  /-- Any other fault, in the words of the system. -/
  | other (reason : String)
  deriving Repr, DecidableEq

/-- The wording of a file fault. -/
def FileFault.message : FileFault → String
  | missing => "No such file or directory (os error 2)"
  | isDirectory => "Is a directory (os error 21)"
  | notDirectory => "Not a directory (os error 20)"
  | tooLong => "File name too long (os error 36)"
  | zeroByte => "file name contained an unexpected NUL byte"
  | notText => "stream did not contain valid UTF-8"
  | other reason => reason

/-- What reading each path gives. -/
abbrev Files := String → Except FileFault ByteArray

def Files.text (files : Files) (path : String) : Except FileFault String := do
  match String.fromUTF8? (← files path) with
  | some text => return text
  | none => throw .notText

/-! ## Places and paths -/

/-- Where places are counted from. -/
inductive Anchor where
  /-- The folder so many levels above the working folder, which is at level zero. -/
  | above (levels : Nat)
  /-- The root of the system. -/
  | root
  deriving Repr, DecidableEq

/-- A place for a file or a folder: the names that lead to it from an anchor, the last name
    first. -/
structure Place where
  anchor : Anchor
  names : List String
  deriving Repr, DecidableEq

namespace Place

def here : Place := ⟨.above 0, []⟩

def root : Place := ⟨.root, []⟩

/-- The place of a name in a folder. -/
def down (place : Place) (name : String) : Place :=
  ⟨place.anchor, name :: place.names⟩

/-- The folder that holds a place. The root holds itself. -/
def up : Place → Place
  | ⟨anchor, _ :: names⟩ => ⟨anchor, names⟩
  | ⟨.above levels, []⟩ => ⟨.above (levels + 1), []⟩
  | ⟨.root, []⟩ => root

/-- Whether names lead down from a place to another one. -/
def leadsTo (place lower : Place) : Bool :=
  place.anchor == lower.anchor && place.names.isSuffixOf lower.names

@[simp]
theorem up_down (place : Place) (name : String) : (place.down name).up = place := rfl

end Place

inductive PathStep where
  /-- A single point. -/
  | stay
  /-- Two points. -/
  | up
  /-- Any other name. -/
  | down (name : String)
  deriving Repr, DecidableEq

/-- The step that a name makes. -/
def PathStep.ofName (name : String) : PathStep :=
  if name = "." then .stay else if name = ".." then .up else .down name

/-- Where a step leads, whether or not something is there. -/
def Place.step (place : Place) : PathStep → Place
  | .stay => place
  | .up => place.up
  | .down name => place.down name

/-- A path: where it starts, its steps, and whether a slash ends it, so that it can only mean
    a folder. -/
structure Path where
  start : Place
  steps : List PathStep
  isSlashed : Bool
  deriving Repr, DecidableEq

namespace Path

/-- The path that a text spells. Slashes divide the names; several in a row count as one, and
    one in front starts at the root. -/
def ofString (text : String) : Path where
  start := if text.startsWith "/" then .root else .here
  steps := (text.splitOn "/").filter (· ≠ "") |>.map .ofName
  isSlashed := text.endsWith "/"

/-- The most bytes of a whole path. -/
def maxBytes : Nat := 4095

def maxNameBytes : Nat := 255

/-- Reads a path as the system takes it. -/
def read (text : String) : Except FileFault Path :=
  if text.contains '\x00' then .error .zeroByte
  else if text.isEmpty then .error .missing
  else if text.utf8ByteSize > maxBytes then .error .tooLong
  else .ok (ofString text)

/-- Where a path leads, whether or not something is there. -/
def place (path : Path) : Place :=
  path.steps.foldl .step path.start

end Path

/-! ## A folder as a value -/

/-- What is at a place. -/
inductive Entry where
  | file (bytes : ByteArray)
  | folder

/-- A working folder and what lies around it: the files by their places. -/
structure Folder where
  files : List (Place × ByteArray)

namespace Folder

/-- What is at a place. The anchors are folders, and so is each place above a file. -/
def find? (folder : Folder) (place : Place) : Option Entry :=
  match folder.files.lookup place with
  | some bytes => some (.file bytes)
  | none =>
      if place.names.isEmpty || folder.files.any (place.leadsTo ·.1) then some .folder else none

/-- Where a step from a place leads. Only a folder can be left. -/
def step (folder : Folder) (place : Place) (step : PathStep) : Except FileFault Place :=
  match folder.find? place, step with
  | none, _ => .error .missing
  | some (.file _), _ => .error .notDirectory
  | some .folder, .down name =>
      if name.utf8ByteSize > Path.maxNameBytes then .error .tooLong else .ok (place.down name)
  | some .folder, step => .ok (place.step step)

/-- Where some steps from a place lead. -/
def walk (folder : Folder) (place : Place) (steps : List PathStep) : Except FileFault Place :=
  steps.foldlM folder.step place

def read (folder : Folder) : Files := fun text => do
  let path ← Path.read text
  let place ← folder.walk path.start path.steps
  match folder.find? place with
  | none => throw .missing
  | some .folder => throw .isDirectory
  | some (.file bytes) => if path.isSlashed then throw .notDirectory else return bytes

/-- Puts a file at a place, instead of the one that was there. -/
def put (folder : Folder) (place : Place) (bytes : ByteArray) : Folder :=
  ⟨(place, bytes) :: folder.files.filter (·.1 ≠ place)⟩

/-- The folder with files at some paths. Of two paths that lead to one place the later counts. -/
def ofList (files : List (String × ByteArray)) : Folder :=
  files.foldl (fun folder (path, bytes) => folder.put (Path.ofString path).place bytes) ⟨[]⟩

/-- Writes a file, in a folder that exists. A path that ends with a slash gets no further than
    that folder, whatever its last name is. -/
def write (folder : Folder) (text content : String) : Except FileFault Folder := do
  let path ← Path.read text
  let some last := path.steps.getLast? | throw .isDirectory
  let parent ← folder.walk path.start path.steps.dropLast
  let place ← folder.step parent (if path.isSlashed then .stay else last)
  match folder.find? place with
  | some .folder => throw .isDirectory
  | _ => return folder.put place content.toUTF8

@[simp]
theorem find?_put_self (folder : Folder) (place : Place) (bytes : ByteArray) :
    (folder.put place bytes).find? place = some (.file bytes) := by
  simp [find?, put]

end Folder

end CommitScript
