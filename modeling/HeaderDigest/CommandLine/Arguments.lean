import HeaderDigest.Files.Path

/-!
# Arguments

An option is a word that begins with a dash. Options with a short name can share one word, and
the last of them may have its value in it, with or without `=`; a long one has its value behind
`=`. Otherwise the next word is the value, if it is not an option itself. A single dash is no
option, and after `--` nothing is.
-/

namespace HeaderDigest

open Text

structure Arguments where
  inputs : List Text := []
  output? : Option Path := none
  format? : Option Text := none
  includePrivate? : Option Bool := none
  config? : Option Path := none
  verbose : Bool := false
  quiet : Bool := false
deriving Repr, DecidableEq

inductive UsageError
  | unknownOption (name : Text)
  | repeatedOption (name : Text)
  | missingValue (name : Text)
  | emptyValue (name : Text)
  | unexpectedValue (name : Text)
  | conflict
  | helpWanted
deriving Repr, DecidableEq

namespace Arguments

inductive Switch
  | includePrivate
  | noIncludePrivate
  | verbose
  | quiet
  | help
deriving Repr, DecidableEq

inductive Setting
  | output
  | format
  | config
deriving Repr, DecidableEq

def longSwitch? (name : Text) : Option Switch :=
  if name = "include-private".toList then some .includePrivate
  else if name = "no-include-private".toList then some .noIncludePrivate
  else if name = "verbose".toList then some .verbose
  else if name = "quiet".toList then some .quiet
  else if name = "help".toList then some .help
  else none

def longSetting? (name : Text) : Option Setting :=
  if name = "output".toList then some .output
  else if name = "format".toList then some .format
  else if name = "config".toList then some .config
  else none

def shortSwitch? (c : Char) : Option Switch :=
  if c = 'v' then some .verbose
  else if c = 'q' then some .quiet
  else if c = 'h' then some .help
  else none

def shortSetting? (c : Char) : Option Setting :=
  if c = 'o' then some .output else if c = 'f' then some .format else none

/-- Each of the two opposite switches takes back the other one, but none may be given twice. -/
def turnOn (arguments : Arguments) (switch : Switch) (name : Text) : Except UsageError Arguments :=
  match switch with
  | .includePrivate =>
    if arguments.includePrivate? = some true then .error (.repeatedOption name)
    else .ok { arguments with includePrivate? := some true }
  | .noIncludePrivate =>
    if arguments.includePrivate? = some false then .error (.repeatedOption name)
    else .ok { arguments with includePrivate? := some false }
  | .verbose =>
    if arguments.verbose then .error (.repeatedOption name)
    else .ok { arguments with verbose := true }
  | .quiet =>
    if arguments.quiet then .error (.repeatedOption name) else .ok { arguments with quiet := true }
  | .help => .error .helpWanted

def give (arguments : Arguments) (setting : Setting) (name value : Text) :
    Except UsageError Arguments :=
  match setting with
  | .output =>
    if value.isEmpty then .error (.emptyValue name)
    else if arguments.output?.isSome then .error (.repeatedOption name)
    else .ok { arguments with output? := some value }
  | .config =>
    if value.isEmpty then .error (.emptyValue name)
    else if arguments.config?.isSome then .error (.repeatedOption name)
    else .ok { arguments with config? := some value }
  | .format =>
    if arguments.format?.isSome then .error (.repeatedOption name)
    else .ok { arguments with format? := some value }

/-- Reads a word of short options behind its dash. What is left over is an option that waits for
its value. -/
def readShort (arguments : Arguments) : Text → Except UsageError (Arguments × Option Setting)
  | [] => .ok (arguments, none)
  | c :: rest =>
    match shortSwitch? c with
    | some switch => do readShort (← turnOn arguments switch [c]) rest
    | none =>
      match shortSetting? c with
      | none => .error (.unknownOption [c])
      | some setting =>
        if rest.isEmpty then .ok (arguments, some setting)
        else do return (← give arguments setting [c] (withoutPrefix ['='] rest), none)

def readLong (arguments : Arguments) (word : Text) :
    Except UsageError (Arguments × Option Setting) :=
  let name := word.takeWhile (· != '=')
  let hasValue := word.contains '='
  let value := (word.dropWhile (· != '=')).drop 1
  match longSwitch? name with
  | some switch =>
    if hasValue then .error (.unexpectedValue name)
    else do return (← turnOn arguments switch name, none)
  | none =>
    match longSetting? name with
    | none => .error (.unknownOption name)
    | some setting =>
      if hasValue then do return (← give arguments setting name value, none)
      else .ok (arguments, some setting)

def isOption (word : Text) : Bool := startsWith ['-'] word && word != ['-']

def readOption (arguments : Arguments) (word : Text) :
    Except UsageError (Arguments × Option Setting) :=
  match dropPrefix? ['-', '-'] word with
  | some long => readLong arguments long
  | none => readShort arguments (word.drop 1)

def readFrom (arguments : Arguments) : List Text → Except UsageError Arguments
  | [] => .ok arguments
  | word :: rest =>
    if word = ['-', '-'] then .ok { arguments with inputs := arguments.inputs ++ rest }
    else if isOption word then
      match readOption arguments word with
      | .error error => .error error
      | .ok (arguments, none) => readFrom arguments rest
      | .ok (arguments, some setting) =>
        match rest with
        | [] => .error (.missingValue word)
        | value :: rest =>
          if isOption value then .error (.missingValue word)
          else
            match give arguments setting word value with
            | .error error => .error error
            | .ok arguments => readFrom arguments rest
    else readFrom { arguments with inputs := arguments.inputs ++ [word] } rest

def read (words : List Text) : Except UsageError Arguments :=
  match readFrom {} words with
  | .error error => .error error
  | .ok arguments =>
    if arguments.verbose && arguments.quiet then .error .conflict else .ok arguments

end Arguments

end HeaderDigest
