import HeaderDigest.Catalog
import HeaderDigest.CommandLine.Arguments
import HeaderDigest.CommandLine.Inputs
import HeaderDigest.Page.Format
import HeaderDigest.Settings

/-!
# Runs

A run reads its settings, then either one header from its standard input, or the files that its
arguments stand for. The headers of files go into one text, or each into a file of its own in a
directory. A run ends with a failure or with its output; either way it has a list of events.
-/

namespace HeaderDigest

open Text

structure Plan where
  includePrivate : Bool
  format : Format
  output? : Option Path
  inputs : List Text
deriving Repr, DecidableEq

namespace Plan

/-- Arguments go before settings, and JSON is the format if none is set. -/
def make (arguments : Arguments) (settings : Settings) : Except Failure Plan :=
  let name :=
    match arguments.format? with
    | some name => name
    | none => if settings.format.isEmpty then "json".toList else settings.format
  match Format.ofName? name with
  | none => .error (.unknownFormat name)
  | some format => .ok {
      includePrivate := arguments.includePrivate?.getD settings.includePrivate
      format := format
      output? := arguments.output?.or settings.outputDirectory?
      inputs := arguments.inputs }

end Plan

def pageName (format : Format) (filename : Text) : Text :=
  withoutSuffix ['.', 'h'] filename ++ '.' :: format.extension

def pagesIn (format : Format) (directory : Path) (headers : List Header) : List (Path × Text) :=
  headers.map fun header =>
    (Path.join directory (pageName format header.filename), format.page header)

namespace Run

structure Result where
  output : Text := []
  failure? : Option Failure := none
  events : List Event := []
deriving Repr, DecidableEq

def onText (plan : Plan) (text : Text) : Result :=
  let name := "<stdin>".toList
  { output := plan.format.page (Header.read text name name plan.includePrivate)
    events := Header.events text name plan.includePrivate }

def writePages {m : Type → Type} [Monad m] (files : Files m) :
    List (Path × Text) → m (List Event × Option Failure)
  | [] => return ([], none)
  | (path, page) :: rest => do
    if ← files.write path page then
      let (events, failure?) ← writePages files rest
      return (.pageWritten :: events, failure?)
    else return ([], some (.unwritable path))

def onFiles {m : Type → Type} [Monad m] (files : Files m) (plan : Plan) : m Result := do
  let (listings, failure?) ← Listing.findAll files plan.inputs
  let found := listings.flatMap fun (_, listing) => listing.events
  match failure? with
  | some failure => return { failure? := some failure, events := found }
  | none =>
    let sources ← (Listing.collect listings).mapM fun path =>
      return ⟨path, ← files.read path⟩
    let catalog := Catalog.build sources plan.includePrivate
    let events := found ++ Catalog.buildEvents sources plan.includePrivate ++
      catalog.skipped.map fun _ => .notInOutput
    match plan.output? with
    | none => return { output := plan.format.pages catalog.headers, events := events }
    | some directory =>
      if ← files.makeDirectories directory then
        let (written, failure?) ← writePages files (pagesIn plan.format directory catalog.headers)
        return { failure? := failure?, events := events ++ written }
      else return { failure? := some (.noOutputDirectory directory), events := events }

def run {m : Type → Type} [Monad m] (files : Files m) (input : m ByteArray) (directory : Path)
    (arguments : Arguments) : m Result := do
  let events ← Settings.discoverEvents files directory arguments.config?
  let settings ← Settings.discover files directory arguments.config?
  match settings.bind (Plan.make arguments) with
  | .error failure => return { failure? := some failure, events := events }
  | .ok plan =>
    if plan.inputs.isEmpty then
      match String.fromUTF8? (← input) with
      | none => return { failure? := some .unreadableInput, events := events }
      | some text =>
        let result := onText plan text.toList
        return { result with events := events ++ result.events }
    else
      let result ← onFiles files plan
      return { result with events := events ++ result.events }

/-- The events that are wanted: those that pass the level which is set, or else the one that the
arguments ask for. -/
def threshold (arguments : Arguments) (set? : Option (Option Level)) : Option Level :=
  set?.getD <|
    if arguments.quiet then some .error else if arguments.verbose then some .debug else some .warn

end Run

end HeaderDigest
