/-!
# Events

What a run reports besides its output, in the order in which it happens. Each kind of event has a
level and a fixed message; a threshold says which levels are wanted.
-/

namespace HeaderDigest

inductive Level
  | trace
  | debug
  | info
  | warn
  | error
deriving Repr, DecidableEq

namespace Level

def rank : Level → Nat
  | trace => 0
  | debug => 1
  | info => 2
  | warn => 3
  | error => 4

def label : Level → String
  | trace => "TRACE"
  | debug => "DEBUG"
  | info => "INFO"
  | warn => "WARN"
  | error => "ERROR"

/-- Reads a threshold: the level from which on events are wanted, or `off`. -/
def threshold? (name : String) : Option (Option Level) :=
  if name = "off" then some none
  else ([trace, debug, info, warn, error].find? fun level => level.label.toLower = name).map some

end Level

inductive Event
  | unterminatedBlock
  | noDeclaration
  | endlessFunction
  | cappedType
  | noParameterList
  | unknownShape
  | hiddenFunction
  | unknownType
  | functionRead
  | settingsFound
  | noMatch
  | duplicateFile
  | unreadableHeader
  | notInOutput
  | pageWritten
deriving Repr, DecidableEq

namespace Event

def level : Event → Level
  | functionRead => .trace
  | pageWritten => .info
  | noMatch | duplicateFile | unreadableHeader => .warn
  | _ => .debug

def message : Event → String
  | unterminatedBlock => "unterminated documentation comment"
  | noDeclaration => "comment has no following declaration"
  | endlessFunction => "function declaration has no terminating semicolon"
  | cappedType => "type declaration exceeds span cap"
  | noParameterList => "declaration has no parameter list"
  | unknownShape => "unrecognized function declaration shape"
  | hiddenFunction => "skipping private function"
  | unknownType => "unrecognized type declaration"
  | functionRead => "parsed function"
  | settingsFound => "loading settings"
  | noMatch => "no files matched"
  | duplicateFile => "skipping duplicate file"
  | unreadableHeader => "skipping unreadable header"
  | notInOutput => "not in output"
  | pageWritten => "wrote"

def passes (event : Event) : Option Level → Bool
  | some threshold => threshold.rank ≤ event.level.rank
  | none => false

end Event

end HeaderDigest
