import HeaderDigest.Page.Markdown
import HeaderDigest.Proofs.DataType.Body
import HeaderDigest.Proofs.Header.Record
import HeaderDigest.Proofs.Prototype.ParameterName

/-!
# Rows of a table

A table on a page has a row for each parameter and each member. The name and the description of a row are
written so that they stay in their cells; the type is written as it is, and a bar in it is a cell too many.
-/

namespace HeaderDigest

open Text

namespace Markdown

/-- How many bars of a text have no backslash right before them; `escaped` says that one stands before the
text. -/
def bareBars (escaped : Bool) : Text → Nat
  | [] => 0
  | c :: rest => (if c = '|' && !escaped then 1 else 0) + bareBars (c == '\\') rest

theorem bareBars_cons {c : Char} (hc : c ≠ '|') (escaped : Bool) (s : Text) :
    bareBars escaped (c :: s) = bareBars (c == '\\') s := by
  rw [bareBars, if_neg (by simp [hc]), Nat.zero_add]

theorem bareBars_append_cons {c : Char} (hc : c ≠ '|') (escaped : Bool) (s t : Text) :
    bareBars escaped (s ++ c :: t) = bareBars escaped s + bareBars (c == '\\') t := by
  induction s generalizing escaped with
  | nil => rw [List.nil_append, bareBars_cons hc, bareBars, Nat.zero_add]
  | cons d s ih => rw [List.cons_append, bareBars, bareBars, ih, Nat.add_assoc]

theorem bareBars_cell (escaped : Bool) (s : Text) : bareBars escaped (cell s) = 0 := by
  induction s generalizing escaped with
  | nil => rfl
  | cons c s ih =>
    rw [cell, replaceChar, List.flatMap_cons, ← replaceChar, ← cell]
    split
    · rw [List.cons_append, bareBars_cons (by decide), List.singleton_append, bareBars, ih]
      rfl
    · rename_i hc
      rw [List.singleton_append, bareBars_cons hc, ih]

theorem tableRow_eq (name type description : Text) :
    tableRow name type description =
      ['|'] ++ ' ' :: (cell name ++ ' ' :: (['|', ' '] ++ '`' :: (type ++ '`' ::
        ([' ', '|'] ++ ' ' :: (cell description ++ ' ' :: ['|']))))) := by
  change "| ".toList ++ cell name ++ " | `".toList ++ type ++ "` | ".toList ++ cell description ++ " |".toList = _
  simp only [List.append_assoc]
  rfl

/-- Four bars of a row stand between cells or at its ends; the others are bars of the type. -/
theorem bareBars_tableRow (name type description : Text) :
    bareBars false (tableRow name type description) = 4 + bareBars false type := by
  have hBar : bareBars false ['|'] = 1 ∧ bareBars false ['|', ' '] = 1 ∧ bareBars false [' ', '|'] = 1 := by decide
  have hSpace : (' ' == '\\') = false ∧ ('`' == '\\') = false := by decide
  rw [tableRow_eq, bareBars_append_cons (by decide), bareBars_append_cons (by decide), bareBars_append_cons (by decide),
    bareBars_append_cons (by decide), bareBars_append_cons (by decide), bareBars_append_cons (by decide)]
  simp only [hSpace, hBar, bareBars_cell]
  omega

theorem mem_cell {c : Char} (hc : c ≠ '\\') {s : Text} (h : c ∈ cell s) : c ∈ s := by
  obtain ⟨d, hd, hImage⟩ := List.mem_flatMap.mp h
  split at hImage
  · rename_i hBar
    simp only [List.mem_cons, List.not_mem_nil, or_false] at hImage
    rw [hImage.resolve_left hc, ← hBar]
    exact hd
  · rw [List.mem_singleton.mp hImage]
    exact hd

theorem isLine_tableRow {name type description : Text} (hName : '\n' ∉ name) (hType : '\n' ∉ type)
    (hDescription : '\n' ∉ description) : IsLine (tableRow name type description) := by
  have hCell {s : Text} (hs : '\n' ∉ s) : '\n' ∉ cell s := fun hMem => hs (mem_cell (by decide) hMem)
  refine ⟨?_, ?_⟩
  · rw [tableRow_eq]
    simp [hCell hName, hCell hDescription, hType]
  · change (_ ++ " |".toList).getLast? ≠ some '\r'
    rw [List.getLast?_append_of_ne_nil _ (by decide)]
    decide

theorem joinLines_line_feed {ls : List Text} (hNe : ls ≠ []) : joinLines ls ++ ['\n'] = endedLines ls := by
  rcases List.eq_nil_or_concat ls with rfl | ⟨before, last, rfl⟩
  · exact absurd rfl hNe
  · rw [List.concat_eq_append, joinLines_concat, endedLines_append, List.append_assoc]
    simp [endedLines]

theorem endsLine_endedLines (ls : List Text) : EndsLine (endedLines ls) := by
  rcases List.eq_nil_or_concat ls with rfl | ⟨before, last, rfl⟩
  · exact Or.inl rfl
  · refine Or.inr ?_
    rw [List.concat_eq_append, endedLines_append]
    simp [endedLines]

/-- A part of a page that is one line is a line of the page. -/
theorem mem_lines_page {header : Header} {part : Text} (hPart : part ∈ parts header) (h : IsLine part) :
    part ∈ lines (page header) := by
  obtain ⟨before, after, hParts⟩ := List.append_of_mem hPart
  have hPage : page header = endedLines before ++ (part ++ '\n' :: endedLines after) := by
    rw [page, joinLines_line_feed (List.ne_nil_of_mem hPart), hParts, endedLines_append]
    simp [endedLines]
  rw [hPage, lines_append _ (endsLine_endedLines before), lines_line h]
  exact List.mem_append_right _ List.mem_cons_self

theorem mem_table {rows : List Text} {row : Text} (h : row ∈ rows) (title : Text) : row ∈ table title rows := by
  rw [table, if_neg (by simpa using List.ne_nil_of_mem h)]
  simp [h]

theorem mem_chapter {sections : List (List Text)} {lines : List Text} {l : Text} (hLines : lines ∈ sections)
    (h : l ∈ lines) (title : Text) : l ∈ chapter title sections := by
  rw [chapter, if_neg (by simpa using List.ne_nil_of_mem hLines)]
  exact List.mem_cons_of_mem _ (List.mem_flatten_of_mem hLines h)

theorem mem_parts_of_mem_functionRows {header : Header} {function : Function}
    (hFunction : function ∈ header.functions) {row : Text} (h : row ∈ functionRows function) :
    row ∈ parts header := by
  have hSection : row ∈ functionSection function :=
    List.mem_append_left _ (List.mem_append_right _ (mem_table h "Parameters".toList))
  have hChapter := mem_chapter (List.mem_map_of_mem hFunction) hSection "Functions".toList
  exact List.mem_append_left _ (List.mem_append_right _ hChapter)

theorem mem_parts_of_mem_typeRows {header : Header} {dataType : DataType} (hDataType : dataType ∈ header.dataTypes)
    {row : Text} (h : row ∈ typeRows dataType) : row ∈ parts header := by
  have hSection : row ∈ typeSection dataType :=
    List.mem_append_left _ (List.mem_append_right _ (mem_table h "Members".toList))
  have hChapter := mem_chapter (List.mem_map_of_mem hDataType) hSection "Data Types".toList
  exact List.mem_append_right _ hChapter

end Markdown

theorem Text.IsNormal.not_mem_line_feed {s : Text} (h : IsNormal s) : '\n' ∉ s := by
  intro hFeed
  have hSpaced := (singleSpaced_normalize s).1
  rw [normalize, h] at hSpaced
  exact absurd (hSpaced.eq_space hFeed (by decide)) (by decide)

theorem Parameter.not_mem_of_mem_read {text filename path : Text} {includePrivate : Bool} {function : Function}
    (hFunction : function ∈ (Header.read text filename path includePrivate).functions) {parameter : Parameter}
    (hParameter : parameter ∈ function.parameters) :
    '\n' ∉ parameter.name ∧ '\n' ∉ parameter.type ∧ '\n' ∉ parameter.description := by
  have hWell := (Header.wellFormed_of_mem_functions hFunction).parameters parameter hParameter
  obtain ⟨declaration, doc, line, -, hRead⟩ := Header.exists_read_of_mem_functions hFunction
  obtain ⟨head, list, parts, hParts, -, rfl⟩ := Function.exists_hasParts_of_read hRead
  obtain ⟨piece, hPiece, hParameter⟩ := Function.exists_of_mem_readParameters hParameter
  have hLine : '\n' ∉ parameter.type ++ parameter.name := by
    rw [hParameter]
    intro hFeed
    obtain hSpace | hMem := Declarator.mem_of_mem_read hFeed
    · exact absurd hSpace (by decide)
    · exact Function.not_mem_parameter hParts hPiece hMem
  rw [List.mem_append, not_or] at hLine
  exact ⟨hLine.2, hLine.1, hWell.description.not_mem_line_feed⟩

theorem Member.not_mem_of_mem_read {text filename path : Text} {includePrivate : Bool} {dataType : DataType}
    (hDataType : dataType ∈ (Header.read text filename path includePrivate).dataTypes) {member : Member}
    (hMember : member ∈ dataType.members) :
    '\n' ∉ member.name ∧ '\n' ∉ member.type ∧ '\n' ∉ member.description := by
  have hDescription := (Header.wellFormed_of_mem_dataTypes hDataType).members member hMember
  obtain ⟨seedLine, declaration, doc, line, -, hRead⟩ := Header.exists_read?_of_mem_dataTypes hDataType
  obtain ⟨⟨kind, name⟩, -, rfl⟩ := Option.map_eq_some_iff.mp hRead
  have hLine : '\n' ∉ member.type ++ member.name := by
    simp only at hMember
    split at hMember
    · exact not_mem_member hMember
    · cases hMember
  rw [List.mem_append, not_or] at hLine
  exact ⟨hLine.2, hLine.1, hDescription.not_mem_line_feed⟩

/-- A row on a line of its own on the page of a header. Four bars of it separate cells, and so do the bars of the
type. -/
structure Markdown.IsRow (header : Header) (name type description : Text) : Prop where
  isLine : IsLine (tableRow name type description)
  mem_page : tableRow name type description ∈ lines (page header)
  bars : bareBars false (tableRow name type description) = 4 + bareBars false type

open Markdown

/-- Each parameter and each member of a header has a row of its own on the page, whatever the header says. It has
three cells exactly if each bar of the type has a backslash before it. -/
theorem Markdown.isRow_read (text filename path : Text) (includePrivate : Bool) :
    let header := Header.read text filename path includePrivate
    (∀ function ∈ header.functions, ∀ parameter ∈ function.parameters,
        IsRow header parameter.name parameter.type parameter.description) ∧
      ∀ dataType ∈ header.dataTypes, ∀ member ∈ dataType.members,
        IsRow header member.name member.type member.description := by
  intro header
  refine ⟨fun function hFunction parameter hParameter => ?_, fun dataType hDataType member hMember => ?_⟩
  · obtain ⟨hName, hType, hDescription⟩ := Parameter.not_mem_of_mem_read hFunction hParameter
    have hLine := isLine_tableRow hName hType hDescription
    have hRow := mem_parts_of_mem_functionRows hFunction (List.mem_map_of_mem hParameter)
    exact ⟨hLine, mem_lines_page hRow hLine, bareBars_tableRow _ _ _⟩
  · obtain ⟨hName, hType, hDescription⟩ := Member.not_mem_of_mem_read hDataType hMember
    have hLine := isLine_tableRow hName hType hDescription
    have hRow := mem_parts_of_mem_typeRows hDataType (List.mem_map_of_mem hMember)
    exact ⟨hLine, mem_lines_page hRow hLine, bareBars_tableRow _ _ _⟩

/-- A function that takes another one, with a bar in the size of an array. -/
def watchText : Text := "/** @brief Watch. */\nvoid watch(void (*ready)(int mask[READ | WRITE]));\n".toList

def watchFunction : Function where
  name := "watch".toList
  returnType := "void".toList
  parameters := [⟨"void (*ready)(int mask[READ | WRITE])".toList, [], []⟩]
  brief := "Watch.".toList
  description := []
  file := "a.h".toList
  line := 2

theorem watchFunction_mem_read :
    watchFunction ∈ (Header.read watchText "a.h".toList "a.h".toList false).functions := by
  have hSurvey : (survey "a.h".toList false (lines watchText)).filterMap Finding.function? = [watchFunction] := by
    decide
  refine (mem_collected_iff Function.name _ watchFunction).mpr ?_
  rw [hSurvey]
  decide

theorem Markdown.isRow_read_watchText :
    watchFunction ∈ (Header.read watchText "a.h".toList "a.h".toList false).functions ∧
      IsRow (Header.read watchText "a.h".toList "a.h".toList false) [] "void (*ready)(int mask[READ | WRITE])".toList
        [] :=
  ⟨watchFunction_mem_read,
    (isRow_read watchText "a.h".toList "a.h".toList false).1 watchFunction watchFunction_mem_read _
      List.mem_cons_self⟩

/-- The bar of the size is one more in the row of the only parameter. -/
theorem Markdown.not_forall_bareBars :
    ¬∀ (text filename path : Text) (includePrivate : Bool),
      let header := Header.read text filename path includePrivate
      (∀ function ∈ header.functions, ∀ parameter ∈ function.parameters,
          bareBars false (tableRow parameter.name parameter.type parameter.description) = 4) ∧
        ∀ dataType ∈ header.dataTypes, ∀ member ∈ dataType.members,
          bareBars false (tableRow member.name member.type member.description) = 4 := by
  intro h
  have hFour :=
    (h watchText "a.h".toList "a.h".toList false).1 watchFunction watchFunction_mem_read _ List.mem_cons_self
  exact absurd hFour (by decide)

end HeaderDigest
