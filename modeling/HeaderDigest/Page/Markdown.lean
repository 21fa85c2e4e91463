import HeaderDigest.Header.Basic

/-!
# Headers as Markdown

The page of a header: what is said of the file, an index of its functions and types, and a
section for each of them. A section begins with an anchor, the name in lower case behind `api-`
for a function and `type-` for a type, and the index links to it. A prototype is printed from its
record; a type as it was written.
-/

namespace HeaderDigest

open Text

namespace Markdown

def functionAnchor (name : Text) : Text := "api-".toList ++ lowercase name

def typeAnchor (name : Text) : Text := "type-".toList ++ lowercase name

/-- A type and a name. A type that ends in a star takes the name without a space, and a function
pointer has its name in it already. -/
def declarator (type name : Text) : Text :=
  if name.isEmpty || hasPart ['(', '*'] type then type
  else if endsWith ['*'] type then type ++ name
  else type ++ ' ' :: name

def signature (function : Function) : Text :=
  let parameters :=
    if function.parameters.isEmpty then "void".toList
    else List.intercalate [',', ' ']
      (function.parameters.map fun parameter => declarator parameter.type parameter.name)
  declarator function.returnType function.name ++ '(' :: parameters ++ [')', ';']

/-- Text in a table cell, where a bar has to be escaped. -/
def cell (s : Text) : Text := replaceChar '|' ['\\', '|'] s

def tableRow (name type description : Text) : Text :=
  "| ".toList ++ cell name ++ " | `".toList ++ type ++ "` | ".toList ++ cell description ++
    " |".toList

def tableHead : List Text :=
  ["| Name | Type | Description |".toList, "|------|------|-------------|".toList]

def table (title : Text) (rows : List Text) : List Text :=
  if rows.isEmpty then [] else ("#### ".toList ++ title ++ ['\n']) :: tableHead ++ rows ++ [[]]

def docs (brief description : Text) : List Text :=
  (if brief.isEmpty then [] else [brief ++ ['\n']]) ++
    (if description.isEmpty then [] else [description ++ ['\n']])

def anchorLine (anchor : Text) : Text := "<a id=\"".toList ++ anchor ++ "\"></a>".toList

def codeBlock (code : Text) : List Text := ["```c".toList, code, "```\n".toList]

def declaredIn (file : Text) (line : Nat) : Text :=
  "_Declared in ".toList ++ file ++ " line ".toList ++ Nat.toDigits 10 line ++ "._\n".toList

def functionRows (function : Function) : List Text :=
  function.parameters.map fun parameter =>
    tableRow parameter.name parameter.type parameter.description

def functionSection (function : Function) : List Text :=
  [anchorLine (functionAnchor function.name), "### ".toList ++ function.name ++ ['\n']] ++
    docs function.brief function.description ++ codeBlock (signature function) ++
    table "Parameters".toList (functionRows function) ++
    ["**Returns:** `".toList ++ function.returnType ++ "`\n".toList,
      declaredIn function.file function.line]

def typeRows (dataType : DataType) : List Text :=
  dataType.members.map fun member => tableRow member.name member.type member.description

def typeSection (dataType : DataType) : List Text :=
  [anchorLine (typeAnchor dataType.name),
      "### ".toList ++ dataType.name ++ " (".toList ++ dataType.kind.keyword ++ ")\n".toList] ++
    docs dataType.brief dataType.description ++ codeBlock dataType.definition ++
    table "Members".toList (typeRows dataType) ++ [declaredIn dataType.file dataType.line]

def functionLink (function : Function) : Text :=
  "* [".toList ++ function.name ++ "](#".toList ++ functionAnchor function.name ++ [')']

def typeLink (dataType : DataType) : Text :=
  "* [".toList ++ dataType.name ++ "](#".toList ++ typeAnchor dataType.name ++ ") (".toList ++
    dataType.kind.keyword ++ [')']

def index (header : Header) : List Text :=
  if header.isEmpty then []
  else "## Index\n".toList ::
    header.functions.map functionLink ++ header.dataTypes.map typeLink ++ [[]]

def chapter (title : Text) (sections : List (List Text)) : List Text :=
  if sections.isEmpty then [] else ("## ".toList ++ title ++ ['\n']) :: sections.flatten

def parts (header : Header) : List Text :=
  ("# ".toList ++ header.filename ++ ['\n']) :: docs header.brief header.description ++
    index header ++ chapter "Functions".toList (header.functions.map functionSection) ++
    chapter "Data Types".toList (header.dataTypes.map typeSection)

def page (header : Header) : Text := joinLines (parts header) ++ ['\n']

end Markdown

end HeaderDigest
