import HeaderDigest.Json.Basic

/-!
# Printing JSON

A value on several lines: each item and each field has a line of its own, indented by two spaces
for every level, and an empty list or object stays on its line.
-/

namespace HeaderDigest.Json

open Text

def newLine (level : Nat) : Text := '\n' :: List.replicate (2 * level) ' '

def quoted (written : Text) : Text := '"' :: written ++ ['"']

mutual

/-- A value whose lines, after the first, stand at `level` or deeper. -/
def print (level : Nat) : Json → Text
  | .null => "null".toList
  | .bool true => "true".toList
  | .bool false => "false".toList
  | .number written => written
  | .string written => quoted written
  | .array [] => ['[', ']']
  | .array (item :: items) =>
    '[' :: newLine (level + 1) ++ print (level + 1) item ++ printItems (level + 1) items ++
      newLine level ++ [']']
  | .object [] => ['{', '}']
  | .object (field :: fields) =>
    '{' :: newLine (level + 1) ++ quoted field.1 ++ [':', ' '] ++ print (level + 1) field.2 ++
      printFields (level + 1) fields ++ newLine level ++ ['}']

def printItems (level : Nat) : List Json → Text
  | [] => []
  | item :: items => ',' :: newLine level ++ print level item ++ printItems level items

def printFields (level : Nat) : List (Text × Json) → Text
  | [] => []
  | field :: fields =>
    ',' :: newLine level ++ quoted field.1 ++ [':', ' '] ++ print level field.2 ++
      printFields level fields

end

end HeaderDigest.Json
