import HeaderDigest.Text.Basic

/-!
# The shape of a prototype's head

The head of a prototype is what stands before its parameter list: a return type and a name. Four
shapes are tried in order, and the first that fits decides where the return type ends. A return
type needs an ASCII letter or digit; a shape that would leave it without one does not fit.
-/

namespace HeaderDigest

open Text

inductive Shape
  /-- A type that does not end in a star, blanks, a name. -/
  | plain
  /-- A type that ends in stars, blanks, a name. -/
  | pointerReturn
  /-- A type, blanks, stars, and the name with or without blanks before it. -/
  | pointerName
  /-- A type and a name with something between them that is no word character. -/
  | tolerant
deriving Repr, DecidableEq

structure Head where
  returnType : Text
  name : Text
deriving Repr, DecidableEq

namespace Shape

def all : List Shape := [plain, pointerReturn, pointerName, tolerant]

/-- The last word and the text before it without the blanks between them. The text before it may
not hold a line break. -/
def splitLastWord? (head : Text) : Option (Text × Text) :=
  let (front, name) := splitEnding (fun c => !isBlank c) head
  let type := trimEnd front
  if isWordName name && !type.contains '\n' then some (type, name) else none

def split? (shape : Shape) (head : Text) : Option Head :=
  match shape with
  | plain => do
    let (type, name) ← splitLastWord? head
    if type.isEmpty || endsWith ['*'] type then none else some ⟨trim type, name⟩
  | pointerReturn => do
    let (type, name) ← splitLastWord? head
    if endsWith ['*'] type && 2 ≤ type.length then some ⟨trim type, name⟩ else none
  | pointerName =>
    let (front, name) := splitEnding isWordChar head
    let (before, stars) := splitEnding (· == '*') (trimEnd front)
    let type := trimEnd before
    if isWordName name && !stars.isEmpty && type.length < before.length && !type.contains '\n' then
      some ⟨trim type ++ ' ' :: stars, name⟩
    else none
  | tolerant =>
    let (front, name) := splitEnding isWordChar head
    if isWordName name && !(trimEnd front).contains '\n' then some ⟨trim front, name⟩ else none

def match? (shape : Shape) (head : Text) : Option Head :=
  (shape.split? head).filter fun h => h.returnType.any Char.isAlphanum

end Shape

def matchShape? (head : Text) : Option (Shape × Head) :=
  Shape.all.findSome? fun shape => (shape.match? head).map fun parts => (shape, parts)

end HeaderDigest
