import HeaderDigest.Proofs.Grammar.Comment
import HeaderDigest.Proofs.Grammar.Prototype
import HeaderDigest.Proofs.Header.Assembly
import HeaderDigest.Proofs.Survey.Position

/-!
# Headers of documented prototypes

A file that is written as prototypes with their comments is read back: the survey makes one visit
for each of them, and the header holds a record for each.
-/

namespace HeaderDigest

open Text

def Function.isShown (includePrivate : Bool) (record : Function) : Bool :=
  includePrivate || !isPrivateName record.name

/-- A prototype with a comment that has one note for each parameter with a name. -/
structure DocumentedPrototype where
  comment : CComment
  prototype : CPrototype
  notes_perm : (comment.notes.map Prod.fst).Perm (prototype.parameters.filterMap CParameter.name?)

namespace DocumentedPrototype

variable (item : DocumentedPrototype)

def lines : List Text := item.comment.lines ++ [item.prototype.text]

def text : Text := item.lines.flatMap (· ++ ['\n'])

def record (file : Text) (line : Nat) : Function where
  name := item.prototype.name
  returnType := item.prototype.returned.text
  parameters := item.prototype.parameters.map fun parameter =>
    ⟨parameter.type, parameter.name?.getD [], parameter.name?.elim [] item.comment.about⟩
  brief := joinWords item.comment.brief
  description := []
  file := file
  line := line

/-- The records of prototypes that follow one another behind `offset` lines. -/
def records (file : Text) (offset : Nat) : List DocumentedPrototype → List Function
  | [] => []
  | item :: more =>
    item.record file (offset + item.lines.length) :: records file (offset + item.lines.length) more

theorem nodup_notes : (item.comment.notes.map Prod.fst).Nodup :=
  item.notes_perm.nodup_iff.mpr item.prototype.names_nodup

theorem about_nil : item.comment.about [] = [] := by
  have hLookup : item.comment.notes.lookup [] = none := by
    rw [List.lookup_eq_none_iff]
    intro note hNote
    have hName := item.comment.notes_names note hNote
    simp only [bne_iff_ne]
    intro h
    rw [← h] at hName
    cases hName
  rw [CComment.about, hLookup]
  rfl

theorem ofParts_eq_record (file : Text) (line : Nat) :
    Function.ofParts (listText item.prototype.parameters)
      ⟨item.prototype.returned.text, item.prototype.name⟩ item.comment.doc file line =
        item.record file line := by
  have hParameters : Function.readParameters (listText item.prototype.parameters) item.comment.doc =
      item.prototype.parameters.map fun parameter =>
        ⟨parameter.type, parameter.name?.getD [], parameter.name?.elim [] item.comment.about⟩ := by
    rw [readParameters_listText]
    apply List.map_congr_left
    intro parameter _
    rw [item.comment.param_doc item.nodup_notes]
    cases parameter.name? with
    | none => rw [Option.getD_none, about_nil]; rfl
    | some name => rfl
  rw [Function.ofParts, hParameters]
  rfl

def span (start : Nat) : Span := ⟨start, start + 1, item.prototype.text, true⟩

theorem function?_text (start : Nat) (rest : List Text) :
    Span.function? start (item.prototype.text :: rest) = some (item.span start) := by
  have hTake : (item.prototype.text :: rest).take spanLimit =
      item.prototype.text :: rest.take (spanLimit - 1) := rfl
  rw [Span.function?, hTake, item.prototype.functionLength?_text, Option.map_some]
  simp [item.prototype.withoutComments_text, joinLines, span]

def isShown (includePrivate : Bool) : Bool := includePrivate || !isPrivateName item.prototype.name

def outcome (file : Text) (includePrivate : Bool) (start : Nat) : Outcome :=
  if item.isShown includePrivate then .function (item.span start) (item.record file (start + 1))
  else .refused start (item.span start) .hidden

theorem ofBlock_lines (h : item.prototype.IsReadable) (file : Text) (includePrivate : Bool)
    (position : Nat) (rest : List Text) :
    Visit.ofBlock file includePrivate position item.comment.lines.length (item.lines ++ rest) =
      ⟨⟨joinLines item.comment.lines, position, position + item.comment.lines.length⟩,
        item.comment.doc, item.outcome file includePrivate (position + item.comment.lines.length)⟩ := by
  have hLines : item.lines ++ rest = item.comment.lines ++ item.prototype.text :: rest := by
    simp [lines]
  have hSeed : Seed.search (position + item.comment.lines.length) .nothing
      ((item.prototype.text :: rest).take lookaheadLines) =
        some ⟨.function, position + item.comment.lines.length⟩ := by
    have hTake : (item.prototype.text :: rest).take lookaheadLines =
        item.prototype.text :: rest.take (lookaheadLines - 1) := rfl
    rw [hTake, Seed.search, item.prototype.role_text]
  have hRead := Function.read_of_hasParts (item.prototype.hasParts_text h) item.comment.doc file
    (position + item.comment.lines.length + 1) includePrivate
  rw [ofParts_eq_record] at hRead
  simp only [Visit.ofBlock, hLines, List.take_left, List.drop_left, item.comment.read_lines,
    item.comment.isFileDoc_doc, Bool.false_eq_true, if_false, hSeed, Outcome.ofSeed, Nat.sub_self,
    List.drop_zero, function?_text]
  have hStart : (item.span (position + item.comment.lines.length)).text = item.prototype.text := rfl
  rw [hStart, hRead, outcome, isShown]
  cases includePrivate with
  | true => rfl
  | false => cases isPrivateName item.prototype.name <;> rfl

/-- The survey makes one visit for a prototype and goes on behind it. -/
theorem surveyFrom_lines (h : item.prototype.IsReadable) (file : Text) (includePrivate : Bool)
    (position : Nat) (rest : List Text) :
    ∃ met : Visit,
      surveyFrom file includePrivate position 0 (item.lines ++ rest) =
        .visit met :: surveyFrom file includePrivate (position + item.lines.length) 0 rest ∧
      met.outcome = item.outcome file includePrivate (position + item.comment.lines.length) := by
  have hVisit := item.ofBlock_lines h file includePrivate position rest
  have hLines : item.lines ++ rest = item.comment.lines ++ item.prototype.text :: rest := by
    simp [lines]
  have hLength : item.lines.length = item.comment.lines.length + 1 := by simp [lines]
  have hBlock : blockLength? (item.lines ++ rest) = some item.comment.lines.length := by
    rw [hLines, item.comment.blockLength?_lines]
  have hPositive := (blockLength?_bounds hBlock).1
  have hPass : surveyFrom file includePrivate (position + item.comment.lines.length) 0
      (item.prototype.text :: rest) =
        surveyFrom file includePrivate (position + item.lines.length) 0 rest := by
    rw [surveyFrom_of_none (blockLength?_eq_none_of_not_opensBlock rest item.prototype.opensBlock_text),
      item.prototype.opensBlock_text, hLength]
    rfl
  have hNext : (Visit.ofBlock file includePrivate position item.comment.lines.length
      (item.lines ++ rest)).next = if item.isShown includePrivate then position + item.lines.length
        else position + item.comment.lines.length := by
    rw [hVisit, Visit.next, outcome, hLength]
    cases item.isShown includePrivate <;> rfl
  refine ⟨_, ?_, congrArg Visit.outcome hVisit⟩
  rw [surveyFrom_of_block hBlock (by rw [hNext]; split <;> omega), hNext]
  apply congrArg (List.cons _)
  cases item.isShown includePrivate with
  | true =>
    simp only [if_true, Nat.add_sub_cancel_left]
    rw [List.drop_left]
  | false =>
    simp only [Bool.false_eq_true, if_false, Nat.add_sub_cancel_left]
    rw [hLines, List.drop_left, hPass]

theorem filterMap_surveyFrom {items : List DocumentedPrototype}
    (h : ∀ item ∈ items, item.prototype.IsReadable) (file : Text) (includePrivate : Bool) (offset : Nat) :
    (surveyFrom file includePrivate offset 0 (items.flatMap lines)).filterMap Finding.function? =
        (records file offset items).filter (Function.isShown includePrivate) ∧
      (surveyFrom file includePrivate offset 0 (items.flatMap lines)).filterMap Finding.dataType? = [] ∧
      (surveyFrom file includePrivate offset 0 (items.flatMap lines)).findSome? Finding.fileDoc? = none := by
  induction items generalizing offset with
  | nil => exact ⟨rfl, rfl, rfl⟩
  | cons item more ih =>
    obtain ⟨met, hSurvey, hOutcome⟩ := item.surveyFrom_lines (h item List.mem_cons_self) file includePrivate
      offset (more.flatMap lines)
    obtain ⟨hFunctions, hDataTypes, hFileDoc⟩ := ih (fun other hOther => h other (List.mem_cons_of_mem item hOther))
      (offset + item.lines.length)
    have hLength : offset + item.lines.length = offset + item.comment.lines.length + 1 := by
      simp [lines, Nat.add_assoc]
    obtain ⟨block, doc, outcome⟩ := met
    simp only at hOutcome
    rw [List.flatMap_cons, hSurvey, records, hOutcome, DocumentedPrototype.outcome]
    cases hShown : item.isShown includePrivate with
    | true =>
      refine ⟨?_, hDataTypes, hFileDoc⟩
      have hKept : Function.isShown includePrivate (item.record file (offset + item.lines.length)) = true :=
        hShown
      rw [List.filter_cons_of_pos hKept, ← hFunctions, hLength]
      rfl
    | false =>
      refine ⟨?_, hDataTypes, hFileDoc⟩
      have hLeftOut : ¬Function.isShown includePrivate (item.record file (offset + item.lines.length)) = true :=
        fun hTrue => by cases hShown.symm.trans hTrue
      rw [List.filter_cons_of_neg hLeftOut, ← hFunctions]
      rfl

theorem lines_text (rest : Text) : Text.lines (item.text ++ rest) = item.lines ++ Text.lines rest := by
  have hLine : ∀ line ∈ item.lines, IsLine line := by
    rw [lines, List.forall_mem_append]
    constructor
    · exact item.comment.isLine_lines
    · exact List.forall_mem_singleton.mpr item.prototype.isLine_text
  rw [text]
  generalize item.lines = ls at hLine
  induction ls with
  | nil => rfl
  | cons line ls ih =>
    rw [List.flatMap_cons, List.append_assoc, List.append_assoc, List.singleton_append,
      lines_line (hLine line List.mem_cons_self), ih fun l hl => hLine l (List.mem_cons_of_mem line hl)]
    rfl

theorem lines_flatMap_text (items : List DocumentedPrototype) :
    Text.lines (items.flatMap text) = items.flatMap lines := by
  induction items with
  | nil => rfl
  | cons item more ih => rw [List.flatMap_cons, lines_text, ih, List.flatMap_cons]

theorem map_name_records (file : Text) (offset : Nat) (items : List DocumentedPrototype) :
    (records file offset items).map Function.name = items.map fun item => item.prototype.name := by
  induction items generalizing offset with
  | nil => rfl
  | cons item more ih => rw [records, List.map_cons, ih, List.map_cons]; rfl

end DocumentedPrototype

/-- Whether a file of documented prototypes is read back: its header holds a record for each of
them that is to be read, in the order of their names, and nothing else. -/
structure IsReadBack (filename path : Text) (includePrivate : Bool) (items : List DocumentedPrototype) :
    Prop where
  functions : (Header.read (items.flatMap DocumentedPrototype.text) filename path
    includePrivate).functions.Perm
      ((DocumentedPrototype.records filename 0 items).filter (Function.isShown includePrivate))
  ascending : Ascending Function.name
    (Header.read (items.flatMap DocumentedPrototype.text) filename path includePrivate).functions
  noOther : Header.read (items.flatMap DocumentedPrototype.text) filename path includePrivate =
    { filename := filename
      path := path
      brief := []
      description := []
      functions := (Header.read (items.flatMap DocumentedPrototype.text) filename path
        includePrivate).functions
      dataTypes := [] }

theorem Header.read_prototypes {items : List DocumentedPrototype} (filename path : Text)
    (includePrivate : Bool) (hNames : (items.map fun item => item.prototype.name).Nodup)
    (hReadable : ∀ item ∈ items, item.prototype.IsReadable) :
    IsReadBack filename path includePrivate items := by
  obtain ⟨hFunctions, hDataTypes, hFileDoc⟩ :=
    DocumentedPrototype.filterMap_surveyFrom hReadable filename includePrivate 0
  rw [← DocumentedPrototype.lines_flatMap_text] at hFunctions hDataTypes hFileDoc
  have hHeader : Header.read (items.flatMap DocumentedPrototype.text) filename path includePrivate =
      Header.assemble filename path [] []
        ((DocumentedPrototype.records filename 0 items).filter (Function.isShown includePrivate)) [] := by
    rw [Header.read, survey, Header.ofSurvey, hFunctions, hDataTypes, hFileDoc]
    rfl
  have hPairwise : ((DocumentedPrototype.records filename 0 items).filter
      (Function.isShown includePrivate)).Pairwise fun a b => a.name ≠ b.name := by
    have hRecords : (DocumentedPrototype.records filename 0 items).Pairwise fun a b => a.name ≠ b.name := by
      rw [← List.pairwise_map, DocumentedPrototype.map_name_records]
      exact hNames
    exact hRecords.filter _
  refine ⟨?_, ?_, ?_⟩
  · rw [hHeader, Header.assemble, firstOfEach_of_pairwise hPairwise]
    exact sortByName_perm Function.name _
  · rw [hHeader]
    exact ascending_collected Function.name _
  · rw [hHeader]
    simp [Header.assemble, sortByName, firstOfEach]

def wordType (word : Text) (h : isTypeBase [word] = true) : CType where
  before := []
  base := [word]
  after := []
  gap := false
  stars := 0
  qualifiers_before := by simp
  base_names := h
  qualifiers_after := by simp

/-- `static item_t const * find(unsigned int n, item_t **all, int (*test)(item_t *, int (*)(int)));` -/
def findPrototype : CPrototype where
  returned :=
    { before := ["static".toList]
      base := ["item_t".toList]
      after := ["const".toList]
      gap := true
      stars := 1
      qualifiers_before := by decide
      base_names := by decide
      qualifiers_after := by decide }
  name := "find".toList
  parameters := [
    .named
      { before := []
        base := ["unsigned".toList, "int".toList]
        after := []
        gap := false
        stars := 0
        qualifiers_before := by decide
        base_names := by decide
        qualifiers_after := by decide }
      0 "n".toList (by decide) (by decide),
    .named (wordType "item_t".toList (by decide)) 2 "all".toList (by decide) (by decide),
    .pointer (wordType "int".toList (by decide)) "test".toList (by decide)
      { text := "item_t *, int ".toList ++ ('(' :: "*".toList ++ [')']) ++ ('(' :: "int".toList ++ [')'])
        chars := by decide
        identifiers := by decide
        balanced := ((Balanced.of_not_mem (by decide) (by decide)).append
          (Balanced.of_not_mem (by decide) (by decide)).bracketed).append
            (Balanced.of_not_mem (by decide) (by decide)).bracketed
        singleSpaced := by decide }]
  isIdentifier_name := by decide
  functionName := by decide
  names_nodup := by decide

def findItem : DocumentedPrototype where
  comment :=
    { brief := ["Finds".toList, "an".toList, "item.".toList]
      notes := [("all".toList, ["All".toList, "items.".toList]), ("n".toList, [])]
      brief_ne_nil := by decide
      brief_words := by decide
      notes_names := by decide
      notes_words := by decide }
  prototype := findPrototype
  notes_perm := by decide

def plainItem (returned : CType) (name brief : Text) (hName : isIdentifier name = true)
    (hFunction : nonFunctionWords.contains name = false) (hBrief : Doc.IsProseWord brief) :
    DocumentedPrototype where
  comment :=
    { brief := [brief]
      notes := []
      brief_ne_nil := List.cons_ne_nil _ _
      brief_words := fun _ hWord => List.mem_singleton.mp hWord ▸ hBrief
      notes_names := by simp
      notes_words := by simp }
  prototype :=
    { returned := returned
      name := name
      parameters := []
      isIdentifier_name := hName
      functionName := hFunction
      names_nodup := List.nodup_nil }
  notes_perm := List.Perm.nil

def areaItem : DocumentedPrototype :=
  plainItem (wordType "double".toList (by decide)) "area".toList "Area.".toList (by decide) (by decide)
    (by decide)

theorem Header.read_prototypes_findItem :
    ([findItem, areaItem].map fun item => item.prototype.name).Nodup ∧
      (∀ item ∈ [findItem, areaItem], item.prototype.IsReadable) ∧
      IsReadBack "find.h".toList "inc/find.h".toList false [findItem, areaItem] := by
  have hNames : ([findItem, areaItem].map fun item => item.prototype.name).Nodup := by decide
  have hFind : findItem.prototype.IsReadable := by
    refine ⟨by decide, fun _ => List.forall_mem_cons.mpr ⟨trivial, List.forall_mem_cons.mpr ⟨trivial, ?_⟩⟩⟩
    exact List.forall_mem_singleton.mpr (AttributeFree.of_hasPart (by decide))
  have hArea : areaItem.prototype.IsReadable :=
    ⟨by decide, fun _ parameter hParameter => by cases hParameter⟩
  have hReadable : ∀ item ∈ [findItem, areaItem], item.prototype.IsReadable :=
    List.forall_mem_cons.mpr ⟨hFind, List.forall_mem_singleton.mpr hArea⟩
  exact ⟨hNames, hReadable, Header.read_prototypes _ _ false hNames hReadable⟩

theorem not_isReadBack_of_survey {item : DocumentedPrototype}
    (h : (survey "a.h".toList true (lines ([item].flatMap DocumentedPrototype.text))).filterMap
      Finding.function? = []) : ¬IsReadBack "a.h".toList "a.h".toList true [item] := by
  intro hRead
  have hEmpty : (Header.read ([item].flatMap DocumentedPrototype.text) "a.h".toList "a.h".toList
      true).functions = [] := by
    rw [Header.read, Header.ofSurvey, h]
    simp [Header.assemble, sortByName, firstOfEach]
  have hPerm := hRead.functions
  rw [hEmpty] at hPerm
  exact absurd hPerm.length_eq (Nat.succ_ne_zero _).symm

/-- `_ f(void);` -/
def underscoreItem : DocumentedPrototype :=
  plainItem (wordType "_".toList (by decide)) "f".toList "B".toList (by decide) (by decide) (by decide)

/-- A type that is only an underscore is not taken for a type. -/
theorem Header.not_forall_isReadBack :
    ¬∀ (items : List DocumentedPrototype) (filename path : Text) (includePrivate : Bool),
      (items.map fun item => item.prototype.name).Nodup →
        IsReadBack filename path includePrivate items := by
  intro h
  have hRead := h [underscoreItem] "a.h".toList "a.h".toList true (by decide)
  exact absurd hRead (not_isReadBack_of_survey (by decide))

/-- `void f(int (*q)(foo__attribute__((x))));` -/
def attributeItem : DocumentedPrototype :=
  { plainItem (wordType "void".toList (by decide)) "f".toList "B".toList (by decide) (by decide) (by decide) with
    prototype :=
      { returned := wordType "void".toList (by decide)
        name := "f".toList
        parameters := [.pointer (wordType "int".toList (by decide)) "q".toList (by decide)
          { text := "foo__attribute__".toList ++ ('(' :: ('(' :: "x".toList ++ [')']) ++ [')'])
            chars := by decide
            identifiers := by decide
            balanced := (Balanced.of_not_mem (by decide) (by decide)).append
              (Balanced.of_not_mem (by decide) (by decide)).bracketed.bracketed
            singleSpaced := by decide }]
        isIdentifier_name := by decide
        functionName := by decide
        names_nodup := by decide }
    notes_perm := List.Perm.nil }

/-- The end of a word in a pointer to a function may be taken for the word of an attribute. -/
theorem not_isReadBack_attributeItem :
    ¬IsReadBack "a.h".toList "a.h".toList true [attributeItem] :=
  not_isReadBack_of_survey (by decide)

end HeaderDigest
