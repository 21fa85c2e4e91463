import HeaderDigest.DataType.Basic
import HeaderDigest.Distinct
import HeaderDigest.Prototype.Function

/-!
# Headers

A header holds the functions and the types that one file documents. Each name occurs once among
the functions and once among the types, and both lists ascend by name in code point order.
-/

namespace HeaderDigest

structure Header where
  filename : Text
  path : Text
  brief : Text
  description : Text
  functions : List Function
  dataTypes : List DataType
deriving Repr, DecidableEq

def sortByName {α : Type} (name : α → Text) (items : List α) : List α :=
  items.mergeSort fun a b => (compare (name a) (name b)).isLE

namespace Header

def assemble (filename path brief description : Text) (functions : List Function)
    (dataTypes : List DataType) : Header where
  filename := filename
  path := path
  brief := brief
  description := description
  functions := sortByName Function.name (firstOfEach Function.name functions)
  dataTypes := sortByName DataType.name (firstOfEach DataType.name dataTypes)

def function? (header : Header) (name : Text) : Option Function :=
  header.functions.find? fun function => function.name == name

def dataType? (header : Header) (name : Text) : Option DataType :=
  header.dataTypes.find? fun dataType => dataType.name == name

def isEmpty (header : Header) : Bool := header.functions.isEmpty && header.dataTypes.isEmpty

end Header

end HeaderDigest
