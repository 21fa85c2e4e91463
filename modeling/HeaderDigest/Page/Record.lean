import HeaderDigest.Header.Basic
import HeaderDigest.Json.Printer
import HeaderDigest.Json.Quoted

/-!
# Headers as JSON

A header as a JSON object, with its fields in the order of the record.
-/

namespace HeaderDigest

def Json.ofText (s : Text) : Json := .string (Json.escape s)

def Json.ofNat (n : Nat) : Json := .number (Nat.toDigits 10 n)

def Parameter.toJson (parameter : Parameter) : Json :=
  .object [("type".toList, .ofText parameter.type), ("name".toList, .ofText parameter.name),
    ("description".toList, .ofText parameter.description)]

def Function.toJson (function : Function) : Json :=
  .object [("name".toList, .ofText function.name),
    ("return_type".toList, .ofText function.returnType),
    ("parameters".toList, .array (function.parameters.map Parameter.toJson)),
    ("brief".toList, .ofText function.brief),
    ("description".toList, .ofText function.description),
    ("file".toList, .ofText function.file), ("line".toList, .ofNat function.line)]

def Member.toJson (member : Member) : Json :=
  .object [("type".toList, .ofText member.type), ("name".toList, .ofText member.name),
    ("description".toList, .ofText member.description)]

def DataType.toJson (dataType : DataType) : Json :=
  .object [("name".toList, .ofText dataType.name), ("kind".toList, .ofText dataType.kind.keyword),
    ("definition".toList, .ofText dataType.definition), ("brief".toList, .ofText dataType.brief),
    ("description".toList, .ofText dataType.description),
    ("members".toList, .array (dataType.members.map Member.toJson)),
    ("file".toList, .ofText dataType.file), ("line".toList, .ofNat dataType.line)]

def Header.toJson (header : Header) : Json :=
  .object [("filename".toList, .ofText header.filename), ("path".toList, .ofText header.path),
    ("brief".toList, .ofText header.brief), ("description".toList, .ofText header.description),
    ("functions".toList, .array (header.functions.map Function.toJson)),
    ("data_types".toList, .array (header.dataTypes.map DataType.toJson))]

end HeaderDigest
