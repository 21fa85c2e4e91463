import HeaderDigest.Declaration.Line
import HeaderDigest.DataType.Attribute
import HeaderDigest.Declarator.PointerGroup

/-!
# The kind and the name of a type

A list of rules, tried in order, tells what a type declaration declares. Each rule looks for a
keyword in the seed line, the line on which the declaration begins, and takes the name from
there or from the code of the whole declaration. A rule that finds no name leaves the declaration
to the next one.
-/

namespace HeaderDigest

open Text

inductive TypeKind
  | struct
  | enum
  | union
  | typedef
deriving Repr, DecidableEq

def TypeKind.keyword : TypeKind → Text
  | .struct => "struct".toList
  | .enum => "enum".toList
  | .union => "union".toList
  | .typedef => "typedef".toList

inductive NameRule
  | afterKeyword
  /-- The word after the last brace, if the seed line begins with `typedef` and the keyword. -/
  | afterClosingBrace
  /-- The word before the final semicolon, if the seed line begins with `typedef`. -/
  | beforeSemicolon
  /-- The name in the first `(*name)(`, if the seed line begins with `typedef`. -/
  | inPointerGroup
deriving Repr, DecidableEq

def typeRules : List (TypeKind × NameRule) :=
  [(.struct, .afterKeyword), (.struct, .afterClosingBrace),
    (.enum, .afterKeyword), (.enum, .afterClosingBrace),
    (.union, .afterKeyword),
    (.typedef, .beforeSemicolon), (.typedef, .inPointerGroup)]

def nonEmpty? (s : Text) : Option Text := if s.isEmpty then none else some s

def wordAfter? (keyword s : Text) : Option Text :=
  match dropPrefix? keyword s with
  | some (c :: rest) => if isBlank c then nonEmpty? ((trimStart rest).takeWhile isWordChar) else none
  | _ => none

/-- The word that follows the first place where a keyword begins a word and a name comes after
it. `afterWord` says whether the text continues a word. -/
def findWordAfter? (keyword : Text) (afterWord : Bool) : Text → Option Text
  | [] => none
  | c :: rest =>
    match if afterWord then none else wordAfter? keyword (c :: rest) with
    | some name => some name
    | none => findWordAfter? keyword (isWordChar c) rest

def startsTypedefOf (keyword line : Text) : Bool :=
  wordAfter? "typedef".toList (trimStart line) == some keyword

def nameAfterBrace? (code : Text) : Option Text :=
  let isBrace (c : Char) : Bool := c == '{' || c == '}'
  let (front, tail) := splitEnding (fun c => !isBrace c) code
  if endsWith ['}'] front && endsWith [';'] (trimEnd tail) then
    nonEmpty? ((trimStart tail).takeWhile isWordChar)
  else none

def nameBeforeSemicolon? (code : Text) : Option Text :=
  match dropSuffix? [';'] (trimEnd code) with
  | some front => nonEmpty? (splitEnding isWordChar (trimEnd front)).2
  | none => none

def nameInPointerGroup? : Text → Option Text
  | [] => none
  | c :: rest =>
    match PointerGroup.read? (c :: rest) with
    | some group =>
      if group.stars = ['*'] && !group.name.isEmpty then some group.name
      else nameInPointerGroup? rest
    | none => nameInPointerGroup? rest

def NameRule.name? (rule : NameRule) (kind : TypeKind) (seedLine code : Text) : Option Text :=
  match rule with
  | afterKeyword => findWordAfter? kind.keyword false seedLine
  | afterClosingBrace => if startsTypedefOf kind.keyword seedLine then nameAfterBrace? code else none
  | beforeSemicolon => if startsWithTypedef seedLine then nameBeforeSemicolon? code else none
  | inPointerGroup => if startsWithTypedef seedLine then nameInPointerGroup? code else none

/-- The kind and the name of a declaration, from its seed line and its code, neither of which
holds attributes any more. -/
def nameType? (seedLine code : Text) : Option (TypeKind × Text) :=
  typeRules.findSome? fun (kind, rule) => (rule.name? kind seedLine code).map fun name => (kind, name)

end HeaderDigest
