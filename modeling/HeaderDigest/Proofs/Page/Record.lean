import HeaderDigest.Page.Format
import HeaderDigest.Proofs.Json.Printed

/-!
# Headers read from JSON

The record of a header, taken apart again. A record has exactly its keys, in their order, and each
text in it is unescaped. What is printed for headers is read as these headers, so that no two lists
of headers are printed alike.
-/

namespace HeaderDigest

open Text

namespace Json

def text? : Json → Option Text
  | .string written => unescape? written
  | _ => none

def count? : Json → Option Nat
  | .number written => if written.all Char.isDigit then some (Nat.ofDigitChars 10 written 0) else none
  | _ => none

def list? {α : Type} (item? : Json → Option α) : Json → Option (List α)
  | .array items => items.mapM item?
  | _ => none

/-- The values of an object that has exactly these keys in this order. -/
def record? (keys : List Text) : Json → Option (List Json)
  | .object fields =>
    if (fields.mapM fun field => unescape? field.1) = some keys then some (fields.map Prod.snd) else none
  | _ => none

end Json

namespace Json

def declaredKeys : List Text := ["type".toList, "name".toList, "description".toList]

/-- The type, the name and the description of something declared. -/
def declared? (json : Json) : Option (Text × Text × Text) := do
  match ← json.record? declaredKeys with
  | [type, name, description] => return (← type.text?, ← name.text?, ← description.text?)
  | _ => none

end Json

def Parameter.ofJson? (json : Json) : Option Parameter :=
  json.declared?.map fun (type, name, description) => ⟨type, name, description⟩

def Member.ofJson? (json : Json) : Option Member :=
  json.declared?.map fun (type, name, description) => ⟨type, name, description⟩

def Function.keys : List Text :=
  ["name".toList, "return_type".toList, "parameters".toList, "brief".toList, "description".toList,
    "file".toList, "line".toList]

def Function.ofJson? (json : Json) : Option Function := do
  match ← json.record? Function.keys with
  | [name, returnType, parameters, brief, description, file, line] =>
    return {
      name := ← name.text?
      returnType := ← returnType.text?
      parameters := ← parameters.list? Parameter.ofJson?
      brief := ← brief.text?
      description := ← description.text?
      file := ← file.text?
      line := ← line.count? }
  | _ => none

def TypeKind.ofKeyword? (keyword : Text) : Option TypeKind :=
  [TypeKind.struct, .enum, .union, .typedef].find? fun kind => kind.keyword == keyword

def DataType.keys : List Text :=
  ["name".toList, "kind".toList, "definition".toList, "brief".toList, "description".toList,
    "members".toList, "file".toList, "line".toList]

def DataType.ofJson? (json : Json) : Option DataType := do
  match ← json.record? DataType.keys with
  | [name, kind, definition, brief, description, members, file, line] =>
    return {
      name := ← name.text?
      kind := ← TypeKind.ofKeyword? (← kind.text?)
      definition := ← definition.text?
      brief := ← brief.text?
      description := ← description.text?
      members := ← members.list? Member.ofJson?
      file := ← file.text?
      line := ← line.count? }
  | _ => none

def Header.keys : List Text :=
  ["filename".toList, "path".toList, "brief".toList, "description".toList, "functions".toList,
    "data_types".toList]

def Header.ofJson? (json : Json) : Option Header := do
  match ← json.record? Header.keys with
  | [filename, path, brief, description, functions, dataTypes] =>
    return {
      filename := ← filename.text?
      path := ← path.text?
      brief := ← brief.text?
      description := ← description.text?
      functions := ← functions.list? Function.ofJson?
      dataTypes := ← dataTypes.list? DataType.ofJson? }
  | _ => none

namespace Json

@[simp] theorem text?_ofText (s : Text) : (Json.ofText s).text? = some s := unescape?_escape s

@[simp] theorem count?_ofNat (n : Nat) : (Json.ofNat n).count? = some n := by
  have hDigits : (Nat.toDigits 10 n).all Char.isDigit = true :=
    List.all_eq_true.mpr fun c hc => Nat.isDigit_of_mem_toDigits (by decide) (by decide) hc
  rw [Json.ofNat, count?, hDigits, Nat.ofDigitChars_ten_toDigits]
  rfl

theorem list?_array {α : Type} {item? : Json → Option α} {write : α → Json}
    (h : ∀ item, item? (write item) = some item) (items : List α) :
    (Json.array (items.map write)).list? item? = some items := by
  rw [list?]
  induction items with
  | nil => rfl
  | cons item items ih => rw [List.map_cons, List.mapM_cons, h, ih]; rfl

/-- Keys without a character that has to be escaped. -/
def PlainKeys (keys : List Text) : Prop := ∀ key ∈ keys, escape key = key

instance (keys : List Text) : Decidable (PlainKeys keys) :=
  inferInstanceAs (Decidable (∀ key ∈ keys, escape key = key))

theorem record?_object {keys : List Text} (hPlain : PlainKeys keys) {fields : List (Text × Json)}
    (hKeys : fields.map Prod.fst = keys) :
    (Json.object fields).record? keys = some (fields.map Prod.snd) := by
  have hMap : (fields.mapM fun field => unescape? field.1) = some keys := by
    subst hKeys
    induction fields with
    | nil => rfl
    | cons field fields ih =>
      obtain ⟨hField, hFields⟩ := List.forall_mem_cons.mp hPlain
      have hKey : unescape? field.1 = some field.1 := by
        rw [← hField, unescape?_escape, hField]
      rw [List.mapM_cons, hKey, ih hFields]
      rfl
  rw [record?, if_pos hMap]

theorem written_object {keys : List Text} (hPlain : PlainKeys keys) {fields : List (Text × Json)}
    (hKeys : fields.map Prod.fst = keys) (h : ∀ value ∈ fields.map Prod.snd, Written value) :
    Written (.object fields) := by
  subst hKeys
  refine Written.object ?_ ?_
  · intro field hField
    exact ⟨field.1, (hPlain field.1 (List.mem_map_of_mem hField)).symm⟩
  · intro field hField
    exact h field.2 (List.mem_map_of_mem hField)

theorem written_ofText (s : Text) : Written (Json.ofText s) := Written.string s

theorem written_ofNat (n : Nat) : Written (Json.ofNat n) := Written.number n

theorem written_map {α : Type} {write : α → Json} (h : ∀ item, Written (write item)) (items : List α) :
    Written (.array (items.map write)) := by
  refine Written.array ?_
  intro json hJson
  obtain ⟨item, -, rfl⟩ := List.mem_map.mp hJson
  exact h item

theorem plainKeys_declared : PlainKeys declaredKeys := by decide

theorem declared?_object (type name description : Text) :
    (Json.object [("type".toList, .ofText type), ("name".toList, .ofText name),
      ("description".toList, .ofText description)]).declared? = some (type, name, description) := by
  rw [declared?, record?_object plainKeys_declared rfl]
  simp only [List.map_cons, List.map_nil, Option.bind_eq_bind, Option.bind_some, text?_ofText]
  rfl

theorem written_declared (type name description : Text) :
    Written (.object [("type".toList, .ofText type), ("name".toList, .ofText name),
      ("description".toList, .ofText description)]) := by
  refine written_object plainKeys_declared rfl ?_
  simp only [List.map_cons, List.map_nil, List.forall_mem_cons]
  exact ⟨written_ofText _, written_ofText _, written_ofText _, by simp⟩

end Json

theorem Parameter.ofJson?_toJson (parameter : Parameter) :
    Parameter.ofJson? parameter.toJson = some parameter := by
  rw [Parameter.ofJson?, Parameter.toJson, Json.declared?_object]
  rfl

theorem Member.ofJson?_toJson (member : Member) : Member.ofJson? member.toJson = some member := by
  rw [Member.ofJson?, Member.toJson, Json.declared?_object]
  rfl

theorem Function.plainKeys : Json.PlainKeys Function.keys := by decide

theorem Function.ofJson?_toJson (function : Function) :
    Function.ofJson? function.toJson = some function := by
  rw [Function.ofJson?, Function.toJson, Json.record?_object Function.plainKeys rfl]
  simp only [List.map_cons, List.map_nil, Option.bind_eq_bind, Option.bind_some, Json.text?_ofText,
    Json.count?_ofNat, Json.list?_array Parameter.ofJson?_toJson]
  rfl

theorem Function.written_toJson (function : Function) : function.toJson.Written := by
  refine Json.written_object Function.plainKeys rfl ?_
  simp only [List.map_cons, List.map_nil, List.forall_mem_cons]
  exact ⟨Json.written_ofText _, Json.written_ofText _,
    Json.written_map (fun parameter => Json.written_declared _ _ _) function.parameters,
    Json.written_ofText _, Json.written_ofText _, Json.written_ofText _, Json.written_ofNat _, by simp⟩

theorem TypeKind.ofKeyword?_keyword (kind : TypeKind) : TypeKind.ofKeyword? kind.keyword = some kind := by
  cases kind <;> decide

theorem DataType.plainKeys : Json.PlainKeys DataType.keys := by decide

theorem DataType.ofJson?_toJson (dataType : DataType) :
    DataType.ofJson? dataType.toJson = some dataType := by
  rw [DataType.ofJson?, DataType.toJson, Json.record?_object DataType.plainKeys rfl]
  simp only [List.map_cons, List.map_nil, Option.bind_eq_bind, Option.bind_some, Json.text?_ofText,
    Json.count?_ofNat, TypeKind.ofKeyword?_keyword, Json.list?_array Member.ofJson?_toJson]
  rfl

theorem DataType.written_toJson (dataType : DataType) : dataType.toJson.Written := by
  refine Json.written_object DataType.plainKeys rfl ?_
  simp only [List.map_cons, List.map_nil, List.forall_mem_cons]
  exact ⟨Json.written_ofText _, Json.written_ofText _, Json.written_ofText _, Json.written_ofText _,
    Json.written_ofText _, Json.written_map (fun member => Json.written_declared _ _ _) dataType.members,
    Json.written_ofText _, Json.written_ofNat _, by simp⟩

theorem Header.plainKeys : Json.PlainKeys Header.keys := by decide

theorem Header.ofJson?_toJson (header : Header) : Header.ofJson? header.toJson = some header := by
  rw [Header.ofJson?, Header.toJson, Json.record?_object Header.plainKeys rfl]
  simp only [List.map_cons, List.map_nil, Option.bind_eq_bind, Option.bind_some, Json.text?_ofText,
    Json.list?_array Function.ofJson?_toJson, Json.list?_array DataType.ofJson?_toJson]
  rfl

theorem Header.written_toJson (header : Header) : header.toJson.Written := by
  refine Json.written_object Header.plainKeys rfl ?_
  simp only [List.map_cons, List.map_nil, List.forall_mem_cons]
  exact ⟨Json.written_ofText _, Json.written_ofText _, Json.written_ofText _, Json.written_ofText _,
    Json.written_map Function.written_toJson header.functions,
    Json.written_map DataType.written_toJson header.dataTypes, by simp⟩

namespace Format

theorem read?_json_page (header : Header) :
    (Json.read? (Format.json.page header)).bind Header.ofJson? = some header := by
  rw [page, header.written_toJson.read?_print, Option.bind_some, Header.ofJson?_toJson]

theorem read?_json_list (headers : List Header) :
    (Json.read? (Format.json.pages headers)).bind (Json.list? Header.ofJson?) = some headers := by
  rw [pages, (Json.written_map Header.written_toJson headers).read?_print, Option.bind_some,
    Json.list?_array Header.ofJson?_toJson]

/-- The JSON of a header, and of any list of headers, is read as what it was printed for. So
different headers are never printed alike. -/
theorem read?_json (headers others : List Header) (header other : Header) :
    (Json.read? (Format.json.pages headers)).bind (Json.list? Header.ofJson?) = some headers ∧
      (Json.read? (Format.json.page header)).bind Header.ofJson? = some header ∧
      (Format.json.pages headers = Format.json.pages others ↔ headers = others) ∧
      (Format.json.page header = Format.json.page other ↔ header = other) := by
  refine ⟨read?_json_list headers, read?_json_page header, ⟨?_, ?_⟩, ⟨?_, ?_⟩⟩
  · intro hSame
    have hRead := read?_json_list headers
    rw [hSame, read?_json_list others] at hRead
    exact (Option.some.inj hRead).symm
  · rintro rfl
    rfl
  · intro hSame
    have hRead := read?_json_page header
    rw [hSame, read?_json_page other] at hRead
    exact (Option.some.inj hRead).symm
  · rintro rfl
    rfl

end Format

end HeaderDigest
