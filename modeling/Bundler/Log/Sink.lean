import Bundler.Failure

/-!
# Open log files

A log file stays open from when the log is set up. It is written at its end or, depending on how it
was opened, at a position that moves with the writes.
-/

namespace Bundler.Log

/-! ### How a file is opened -/

/-- How a file is opened. -/
inductive OpenMode where
  | append
  | overwrite
  /-- The file must not be there yet. -/
  | create
  /-- The file must be there and keeps what is not written over. -/
  | update
  | readOnly
  deriving DecidableEq, Repr

/-- The characters that choose how a file is opened, of which there must be exactly one. -/
def choices : List Char := ['r', 'w', 'a', 'x']

/-- Why a text does not tell how to open a file. -/
inductive ModeFault where
  | nullCharacter
  /-- A character is unknown or stands there twice. -/
  | invalid (mode : String)
  | textAndBinary
  | severalChoices
  | encodedBinary
  | noChoice
  deriving DecidableEq, Repr

/-- The wording of a fault. -/
def ModeFault.message : ModeFault → String
  | .nullCharacter => "embedded null character"
  | .invalid mode => "invalid mode: '" ++ mode ++ "'"
  | .textAndBinary => "can't have text and binary mode at once"
  | .severalChoices => "must have exactly one of create/read/write/append mode"
  | .encodedBinary => "binary mode doesn't take an encoding argument"
  | .noChoice => "Must have exactly one of create/read/write/append mode and at most one plus"

/-- Whether the characters of a mode are known and all different. -/
def isWellFormed (cs : List Char) : Bool :=
  cs.all "xrwa+tb".toList.contains && decide cs.Nodup

/-- The way of opening a file as text that a mode tells. -/
def OpenMode.ofText (mode : String) : Except ModeFault OpenMode :=
  let cs := mode.toList
  if cs.contains '\x00' then .error .nullCharacter
  else if !isWellFormed cs then .error (.invalid mode)
  else if cs.contains 't' && cs.contains 'b' then .error .textAndBinary
  else if 1 < (cs.filter choices.contains).length then .error .severalChoices
  else if cs.contains 'b' then .error .encodedBinary
  else if cs.contains 'a' then .ok .append
  else if cs.contains 'w' then .ok .overwrite
  else if cs.contains 'x' then .ok .create
  else if cs.contains 'r' then .ok (if cs.contains '+' then .update else .readOnly)
  else .error .noChoice

/-- The way of opening a file that a setting asks for. -/
def OpenMode.ofValue (setting : Value) : Except Failure OpenMode :=
  match setting with
  | .text mode => (OpenMode.ofText mode).mapError fun fault => .invalid fault.message
  | v => .error (.unsuitable ("a file mode is a text, not " ++ v.typeName))

/-! ### Writing -/

/-- Where the next write goes. -/
inductive Position where
  | atEnd
  | at (offset : Nat)
  /-- The file cannot be written. -/
  | nowhere
  deriving DecidableEq, Repr

/-- Where the first write goes. -/
def OpenMode.position : OpenMode → Position
  | .append => .atEnd
  | .overwrite | .create | .update => .at 0
  | .readOnly => .nowhere

/-- An open file. One that has been taken away from its location has none. -/
structure Sink where
  location : Option Location
  position : Position
  deriving DecidableEq, Repr

/-- Bytes with others put over them at an offset; a gap before the offset is filled with zeros. -/
def patched (content : List UInt8) (offset : Nat) (bytes : List UInt8) : List UInt8 :=
  content.take offset ++ List.replicate (offset - content.length) 0 ++ bytes
    ++ content.drop (offset + bytes.length)

/-- Write to an open file. -/
def Sink.write (s : Sink) (files : FileTree) (bytes : ByteArray) : Sink × FileTree :=
  match s.location with
  | none => (s, files)
  | some loc =>
    match files.content? loc with
    | none => (s, files)
    | some content =>
      match s.position with
      | .nowhere => (s, files)
      | .atEnd => (s, files.put loc (.file (content ++ bytes)))
      | .at offset =>
        ({ s with position := .at (offset + bytes.size) },
          files.put loc (.file ⟨(patched content.toList offset bytes.toList).toArray⟩))

/-- An open file whose location, or one above it, has been taken away. -/
def Sink.detach (s : Sink) (loc : Location) : Sink :=
  { s with location := s.location.filter fun own => !loc.isPrefixOf own }

/-- The workspace in which the file at a path can be written in some way. -/
def prepare (w : Workspace) (p : Path) (mode : OpenMode) : Except PathFault Workspace :=
  match mode with
  | .overwrite => w.write p .empty
  | .append => match w.read p with
    | .ok _ => .ok w
    | .error _ => w.write p .empty
  | .create => match w.look p with
    | .ok _ => .error (Workspace.fault p .exists)
    | .error _ => w.write p .empty
  | .update | .readOnly => (w.read p).map fun _ => w

/-- Open the file at an absolute path. -/
def Sink.openAt (w : Workspace) (p : Path) (mode : OpenMode) : Except PathFault (Sink × Workspace) := do
  let w ← prepare w p mode
  let location := match w.look p with
    | .ok (loc, _) => loc
    | .error _ => none
  .ok (⟨location, mode.position⟩, w)

end Bundler.Log
