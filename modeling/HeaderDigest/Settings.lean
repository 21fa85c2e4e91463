import HeaderDigest.Event
import HeaderDigest.Files.Access
import HeaderDigest.Json.Reader

/-!
# Settings

Settings come from a JSON file: an object with the keys `include_private`, `format` and
`output_dir`, each of which may be missing and none of which may be repeated, or a list of their
values in this order that may be cut short. Other keys are ignored. A value has to be of the
right kind; only `output_dir` may be null. Every key of the object and every value used has to be
readable as text, an ignored value need not.
-/

namespace HeaderDigest

structure Settings where
  includePrivate : Bool := false
  /-- Empty if not set. -/
  format : Text := []
  outputDirectory? : Option Path := none
deriving Repr, DecidableEq

namespace Settings

def defaultName : Text := "hdrdoc.json".toList

def flag? : Json → Option Bool
  | .bool value => some value
  | _ => none

def text? : Json → Option Text
  | .string written => Json.unescape? written
  | _ => none

def directory? : Json → Option (Option Path)
  | .null => some none
  | .string written => (Json.unescape? written).map some
  | _ => none

/-- The value of a key that occurs at most once; without it, `missing`. -/
def field? {α : Type} (fields : List (Text × Json)) (key : Text) (read : Json → Option α)
    (missing : α) : Option α :=
  match fields.filter fun field => field.1 == key with
  | [] => some missing
  | [(_, value)] => read value
  | _ => none

def ofJson? : Json → Option Settings
  | .object fields => do
    let fields ← fields.mapM fun (key, value) => (Json.unescape? key).map fun key => (key, value)
    let includePrivate ← field? fields "include_private".toList flag? false
    let format ← field? fields "format".toList text? []
    let outputDirectory? ← field? fields "output_dir".toList directory? none
    return { includePrivate, format, outputDirectory? }
  | .array [] => some {}
  | .array [a] => do
    return { includePrivate := ← flag? a }
  | .array [a, b] => do
    return { includePrivate := ← flag? a, format := ← text? b }
  | .array [a, b, c] => do
    return { includePrivate := ← flag? a, format := ← text? b, outputDirectory? := ← directory? c }
  | _ => none

def ofContents (path : Path) (contents : Except Fault ByteArray) : Except Failure Settings :=
  match decode path contents with
  | .error (.undecodable path) => .error (.unreadable path .notText)
  | .error failure => .error failure
  | .ok text =>
    match (Json.read? text).bind ofJson? with
    | some settings => .ok settings
    | none => .error (.malformedSettings path)

def load {m : Type → Type} [Monad m] (files : Files m) (path : Path) :
    m (Except Failure Settings) :=
  return ofContents path (← files.read path)

def candidate? {m : Type → Type} [Monad m] (files : Files m) (directory : Path) :
    m (Option Path) := do
  let path := Path.join directory defaultName
  return if ← files.isFile path then some path else none

/-- The settings in the named file, or else in the file of the default name in a directory, or
else the default ones. -/
def discover {m : Type → Type} [Monad m] (files : Files m) (directory : Path)
    (named? : Option Path) : m (Except Failure Settings) := do
  match named? with
  | some path => load files path
  | none =>
    match ← candidate? files directory with
    | some path => load files path
    | none => return .ok {}

/-- What `discover` makes known: that a file of the default name is there. -/
def discoverEvents {m : Type → Type} [Monad m] (files : Files m) (directory : Path)
    (named? : Option Path) : m (List Event) := do
  match named? with
  | some _ => return []
  | none => return if (← candidate? files directory).isSome then [.settingsFound] else []

end Settings

end HeaderDigest
