import HeaderDigest.Doc.Basic

/-!
# Reading a documentation block

The prose of a block is its lines without delimiters and without the star that decorates a line,
joined by spaces. A tag is an `@` at the start of a word, followed by a name; what follows the
name up to the next tag is its body. The description is what comes before the first tag. The
first `@brief` that says something is the brief, `@param` and `@member` bodies are notes, and
other tags only leave their names.
-/

namespace HeaderDigest

open Text

namespace Doc

def proseLine (line : Text) : Text :=
  let inner := withoutSuffix ['*', '/'] (withoutPrefix ['/', '*', '*'] (trim line))
  trim (withoutPrefix ['*'] (trimStart inner))

def prose (raw : Text) : Text :=
  joinWords (((lines raw).map proseLine).filter fun line => !line.isEmpty)

/-- Splits a text before each tag: what comes before the first, and for every tag the text from
its name on. `fresh` says whether a word can start here. -/
def splitTags (fresh : Bool) : Text → Text × List Text
  | [] => ([], [])
  | c :: rest =>
    let (before, tagged) := splitTags (isBlank c) rest
    if fresh && c = '@' && (match rest with | d :: _ => isNameStart d | [] => false) then
      ([], before :: tagged)
    else (c :: before, tagged)

/-- A name and the text that belongs to it, from the body of a tag. A bracketed direction in
front of the name is passed over. -/
def note? (body : Text) : Option (Text × Text) :=
  let named :=
    match body with
    | '[' :: rest => if rest.contains ']' then (rest.dropWhile (· != ']')).drop 1 else body
    | _ => body
  let name := (trimStart named).takeWhile isWordChar
  if name.isEmpty then none else some (name, normalize ((trimStart named).dropWhile isWordChar))

def addTag (doc : Doc) (name body : Text) : Doc :=
  let doc := { doc with tags := doc.tags ++ [name] }
  let addNote (notes : Notes) : Notes :=
    match note? (trim body) with
    | some (name, text) => notes.put name text
    | none => notes
  if name = "brief".toList then
    if doc.brief.isEmpty then { doc with brief := normalize body } else doc
  else if name = "param".toList then { doc with params := addNote doc.params }
  else if name = "member".toList then { doc with members := addNote doc.members }
  else doc

def read (raw : Text) : Doc :=
  let (before, tagged) := splitTags true (prose raw)
  tagged.foldl (fun doc tag => doc.addTag (tag.takeWhile isWordChar) (tag.dropWhile isWordChar))
    { description := normalize before }

end Doc

end HeaderDigest
