import HeaderDigest.Json.Basic
import HeaderDigest.Json.Quoted

/-!
# Reading JSON

The strict grammar: one value with nothing but white space around it, no comma before a closing
bracket, no number with a leading zero, no control character in a string. Any nesting is read.
Every step consumes some of the text, so its length bounds the recursion.
-/

namespace HeaderDigest.Json

open Text

def isSpace (c : Char) : Bool := c == ' ' || c == '\n' || c == '\t' || c == '\r'

def skipSpace (s : Text) : Text := s.dropWhile isSpace

/-- Reads a string behind its opening quote: what is written in it, and the rest behind the
closing quote. -/
def readString? : Text → Option (Text × Text)
  | [] => none
  | '"' :: rest => some ([], rest)
  | '\\' :: 'u' :: a :: b :: c :: d :: rest =>
    if (unit? a b c d).isSome then
      (readString? rest).map fun (written, after) => ('\\' :: 'u' :: a :: b :: c :: d :: written, after)
    else none
  | '\\' :: c :: rest =>
    if (letterEscape? c).isSome then
      (readString? rest).map fun (written, after) => ('\\' :: c :: written, after)
    else none
  | c :: rest =>
    if c = '\\' || c.toNat < 32 then none
    else (readString? rest).map fun (written, after) => (c :: written, after)

def readDigits? (s : Text) : Option (Text × Text) :=
  let (digits, rest) := s.span Char.isDigit
  if digits.isEmpty then none else some (digits, rest)

/-- Reads the digits before the point, which begin with a zero only if that is all. -/
def readWhole? (s : Text) : Option (Text × Text) :=
  match readDigits? s with
  | some ('0' :: _ :: _, _) => none
  | other => other

def readFraction? (s : Text) : Option (Text × Text) :=
  match s with
  | '.' :: rest => (readDigits? rest).map fun (digits, after) => ('.' :: digits, after)
  | _ => some ([], s)

def readExponent? (s : Text) : Option (Text × Text) :=
  match s with
  | c :: rest =>
    if c = 'e' || c = 'E' then
      match rest with
      | sign :: digits =>
        if sign = '+' || sign = '-' then
          (readDigits? digits).map fun (digits, after) => (c :: sign :: digits, after)
        else (readDigits? rest).map fun (digits, after) => (c :: digits, after)
      | [] => none
    else some ([], s)
  | [] => some ([], [])

def readNumber? (s : Text) : Option (Text × Text) := do
  let (sign, s) := match s with
    | '-' :: rest => (['-'], rest)
    | _ => ([], s)
  let (whole, s) ← readWhole? s
  let (fraction, s) ← readFraction? s
  let (exponent, s) ← readExponent? s
  return (sign ++ whole ++ fraction ++ exponent, s)

def readWord? (word : Text) (value : Json) (s : Text) : Option (Json × Text) :=
  (dropPrefix? word s).map fun rest => (value, rest)

mutual

def readValue? : Nat → Text → Option (Json × Text)
  | 0, _ => none
  | fuel + 1, s =>
    match s with
    | '"' :: rest => (readString? rest).map fun (written, after) => (.string written, after)
    | '[' :: rest =>
      match skipSpace rest with
      | ']' :: after => some (.array [], after)
      | inner => (readItems? fuel inner).map fun (items, after) => (.array items, after)
    | '{' :: rest =>
      match skipSpace rest with
      | '}' :: after => some (.object [], after)
      | inner => (readFields? fuel inner).map fun (fields, after) => (.object fields, after)
    | 'n' :: _ => readWord? "null".toList .null s
    | 't' :: _ => readWord? "true".toList (.bool true) s
    | 'f' :: _ => readWord? "false".toList (.bool false) s
    | _ => (readNumber? s).map fun (written, after) => (.number written, after)

def readItems? : Nat → Text → Option (List Json × Text)
  | 0, _ => none
  | fuel + 1, s =>
    match readValue? fuel s with
    | none => none
    | some (item, rest) =>
      match skipSpace rest with
      | ']' :: after => some ([item], after)
      | ',' :: more =>
        (readItems? fuel (skipSpace more)).map fun (items, after) => (item :: items, after)
      | _ => none

def readFields? : Nat → Text → Option (List (Text × Json) × Text)
  | 0, _ => none
  | fuel + 1, s =>
    match s with
    | '"' :: rest =>
      match readString? rest with
      | none => none
      | some (key, rest) =>
        match skipSpace rest with
        | ':' :: rest =>
          match readValue? fuel (skipSpace rest) with
          | none => none
          | some (value, rest) =>
            match skipSpace rest with
            | '}' :: after => some ([(key, value)], after)
            | ',' :: more =>
              (readFields? fuel (skipSpace more)).map
                fun (fields, after) => ((key, value) :: fields, after)
            | _ => none
        | _ => none
    | _ => none

end

def read? (s : Text) : Option Json :=
  match readValue? (2 * s.length + 2) (skipSpace s) with
  | some (value, rest) => if (skipSpace rest).isEmpty then some value else none
  | none => none

end HeaderDigest.Json
