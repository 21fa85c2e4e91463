import HeaderDigest.Proofs.DataType.AnonymousStruct
import HeaderDigest.Proofs.DataType.Tag

/-!
# Typedefs on one line

A typedef of a function pointer or of a struct without a tag is recorded under the name it declares
unless its text names a tag, be it in the type of a parameter or of a member: then it is recorded
as that tag.
-/

namespace HeaderDigest

open Text

def typedefPointer (type name arguments : Text) : Text :=
  "typedef ".toList ++ (type ++ ' ' :: '(' :: '*' :: (name ++ ')' :: '(' :: (arguments ++ [')', ';'])))

theorem exists_typedefPointer_eq_concat (type name arguments : Text) :
    ∃ front, typedefPointer type name arguments = front ++ [')', ';'] := by
  refine ⟨"typedef ".toList ++ (type ++ ' ' :: '(' :: '*' :: (name ++ ')' :: '(' :: arguments)), ?_⟩
  unfold typedefPointer
  generalize "typedef ".toList = start
  simp

theorem typedefPointer_eq_group (type name arguments : Text) :
    typedefPointer type name arguments = "typedef ".toList ++ (type ++ [' ']) ++
      ('(' :: '*' :: name ++ ')' :: '(' :: (arguments ++ [')', ';'])) := by
  unfold typedefPointer
  generalize "typedef ".toList = start
  simp

/-- A typedef of a pointer to functions. Attributes may stand among the arguments. -/
structure IsTypedefPointer (type name arguments : Text) : Prop where
  isIdentifier : isIdentifier name = true
  type_parenthesis : '(' ∉ type
  type_attribute : ∀ keyword ∈ attributeKeywords, keyword ∉ runs isWordChar type
  balanced : Balanced '(' ')' arguments
  noBrace : '}' ∉ typedefPointer type name arguments
  noLineFeed : '\n' ∉ typedefPointer type name arguments
  commentless : IsCommentless (typedefPointer type name arguments)

def typedefStruct (members name : Text) : Text :=
  "typedef struct \x7b ".toList ++ (members ++ ' ' :: '}' :: ' ' :: (name ++ [';']))

theorem typedefStruct_eq_concat (members name : Text) :
    typedefStruct members name =
      "typedef struct \x7b ".toList ++ (members ++ ' ' :: '}' :: ' ' :: name) ++ [';'] := by
  unfold typedefStruct
  generalize "typedef struct \x7b ".toList = start
  simp

theorem typedefStruct_eq_closing (members name : Text) :
    typedefStruct members name = "typedef struct \x7b ".toList ++ (members ++ [' ']) ++
      '}' :: ([' '] ++ (name ++ ([] ++ [';']))) := by
  unfold typedefStruct
  generalize "typedef struct \x7b ".toList = start
  simp

theorem typedefStruct_eq_members (members name : Text) :
    typedefStruct members name =
      "typedef struct \x7b".toList ++ ' ' :: (members ++ ' ' :: '}' :: ' ' :: (name ++ [';'])) := by
  have hStart : "typedef struct \x7b ".toList = "typedef struct \x7b".toList ++ [' '] := by decide
  unfold typedefStruct
  rw [hStart, List.append_assoc, List.singleton_append]

/-- A typedef of a struct without a tag. Its members may be any text with whole attributes. -/
structure IsTypedefStruct (members name : Text) : Prop where
  isIdentifier : isIdentifier name = true
  wholeAttributes : ∃ plain, Attributed false members plain
  noLineFeed : '\n' ∉ typedefStruct members name
  commentless : IsCommentless (typedefStruct members name)

/-- The code of a declaration on one line. -/
theorem code_of_commentless {s : Text} (hFeed : '\n' ∉ s) (hCode : IsCommentless s) :
    DataType.code s = trim (withoutAttributes s) := by
  rw [DataType.code, lines_of_not_mem hFeed]
  split
  · rename_i hNil
    rw [hNil]
    rfl
  · rw [List.map_singleton, withoutComments_of_isCommentless hCode, joinLines_singleton]

theorem name?_afterKeyword (kind : TypeKind) (seedLine code : Text) :
    NameRule.name? .afterKeyword kind seedLine code = findWordAfter? kind.keyword false seedLine := rfl

/-- A typedef whose code has no brace and ends in a parenthesis is named by a tag or by a pointer
group. -/
theorem nameType?_of_pointerGroup {seedLine code name : Text} (hTypedef : startsWithTypedef seedLine = true)
    (hBrace : nameAfterBrace? code = none) (hSemicolon : nameBeforeSemicolon? code = none)
    (hGroup : nameInPointerGroup? code = some name) :
    nameType? seedLine code = (tagIn? seedLine).or (some (.typedef, name)) := by
  have hClosing (kind : TypeKind) : NameRule.name? .afterClosingBrace kind seedLine code = none := by
    rw [NameRule.name?, hBrace, ite_self]
  have hBefore : NameRule.name? .beforeSemicolon .typedef seedLine code = none := by
    rw [NameRule.name?, hSemicolon, ite_self]
  have hPointer : NameRule.name? .inPointerGroup .typedef seedLine code = some name := by
    rw [NameRule.name?, if_pos hTypedef, hGroup]
  simp only [nameType?, typeRules, List.findSome?_cons, name?_afterKeyword, hClosing, hBefore, hPointer,
    Option.map_none, Option.map_some, tagIn?]
  cases findWordAfter? TypeKind.struct.keyword false seedLine <;>
    cases findWordAfter? TypeKind.enum.keyword false seedLine <;>
      cases findWordAfter? TypeKind.union.keyword false seedLine <;> rfl

/-- A typedef of a struct whose code ends in a brace and a name is named by a tag or by that name. -/
theorem nameType?_of_closingBrace {seedLine code name : Text}
    (hTypedef : startsTypedefOf TypeKind.struct.keyword seedLine = true)
    (hBrace : nameAfterBrace? code = some name) :
    nameType? seedLine code =
      some (.struct, (findWordAfter? TypeKind.struct.keyword false seedLine).getD name) := by
  have hClosing : NameRule.name? .afterClosingBrace .struct seedLine code = some name := by
    rw [NameRule.name?, if_pos hTypedef, hBrace]
  simp only [nameType?, typeRules, List.findSome?_cons, name?_afterKeyword, hClosing, Option.map_some]
  cases findWordAfter? TypeKind.struct.keyword false seedLine <;> rfl

theorem nameInPointerGroup?_append {u : Text} (hu : '(' ∉ u) (s : Text) :
    nameInPointerGroup? (u ++ s) = nameInPointerGroup? s := by
  induction u with
  | nil => rfl
  | cons c u ih =>
    obtain ⟨hc, hRest⟩ := List.ne_and_not_mem_of_not_mem_cons hu
    rw [List.cons_append, nameInPointerGroup?, PointerGroup.read?_eq_none (Ne.symm hc), ih hRest]

theorem nameAfterBrace?_of_not_mem {code : Text} (h : '}' ∉ code) : nameAfterBrace? code = none := by
  have hStarts : startsWith ['}'] (code.reverse.dropWhile isNoBrace) = false := by
    rw [Bool.eq_false_iff]
    intro hPrefix
    have hMem : '}' ∈ code.reverse.dropWhile isNoBrace :=
      (List.isPrefixOf_iff_prefix.mp hPrefix).subset List.mem_cons_self
    exact h (List.mem_reverse.mp ((List.dropWhile_suffix isNoBrace).subset hMem))
  rw [nameAfterBrace?_eq, hStarts, Bool.false_and, if_neg Bool.false_ne_true]

theorem nameBeforeSemicolon?_of_parenthesis (front : Text) :
    nameBeforeSemicolon? (front ++ [')', ';']) = none := by
  have hReverse : (front ++ [')', ';']).reverse = ';' :: ')' :: front.reverse := List.reverse_append
  rw [nameBeforeSemicolon?_eq, hReverse]
  rfl

section Pointer

variable {type name arguments : Text} (h : IsTypedefPointer type name arguments)

include h

/-- Taking out attributes leaves a typedef with other arguments. -/
theorem IsTypedefPointer.exists_attributed :
    ∃ plain, Attributed false (typedefPointer type name arguments) (typedefPointer type name plain) := by
  have hName : '(' ∉ name := not_mem_of_isIdentifier h.isIdentifier rfl
  obtain ⟨plain, hPlain⟩ := Attributed.exists_of_balanced h.balanced false
  have hEnd : Attributed false (arguments ++ [')', ';']) (plain ++ [')', ';']) :=
    hPlain.append rfl rfl fun afterWord => .of_not_mem (by decide) afterWord
  have hArguments (afterWord : Bool) :
      Attributed afterWord (')' :: '(' :: (arguments ++ [')', ';'])) (')' :: '(' :: (plain ++ [')', ';'])) :=
    Attributed.behind_of_not_mem (s := [')']) (by decide) rfl hEnd afterWord
  have hGroup (afterWord : Bool) :
      Attributed afterWord (' ' :: '(' :: '*' :: (name ++ ')' :: '(' :: (arguments ++ [')', ';'])))
        (' ' :: '(' :: '*' :: (name ++ ')' :: '(' :: (plain ++ [')', ';']))) :=
    Attributed.behind_of_not_mem (s := [' ', '(']) (by decide) rfl
      ((Attributed.of_not_mem hName false).append rfl rfl hArguments) afterWord
  have hWords : ∀ keyword ∈ attributeKeywords, keyword ∉ runs isWordChar ([] ++ ("typedef ".toList ++ type)) := by
    intro keyword hKeyword
    rw [List.nil_append, runs_append_of_bounds (Or.inl rfl), List.mem_append, not_or]
    refine ⟨?_, h.type_attribute keyword hKeyword⟩
    revert keyword
    decide
  have hWhole := Attributed.append_of_words hWords rfl hGroup
  rw [List.append_assoc, List.append_assoc] at hWhole
  exact ⟨plain, hWhole⟩

theorem IsTypedefPointer.nameType?_code :
    nameType? (withoutAttributes (typedefPointer type name arguments))
        (DataType.code (typedefPointer type name arguments)) =
      (tagIn? (withoutAttributes (typedefPointer type name arguments))).or (some (.typedef, name)) := by
  obtain ⟨plain, hPlain⟩ := h.exists_attributed
  have hWithout : withoutAttributes (typedefPointer type name arguments) = typedefPointer type name plain :=
    hPlain.withoutAttributesFrom_eq
  obtain ⟨front, hFront⟩ := exists_typedefPointer_eq_concat type name plain
  have hTrimmed : Trimmed (typedefPointer type name plain) := by
    refine ⟨rfl, ?_⟩
    rw [hFront, endsBlank, List.getLast?_append]
    rfl
  have hGroup : nameInPointerGroup? (typedefPointer type name plain) = some name := by
    have hBefore : '(' ∉ "typedef ".toList ++ (type ++ [' ']) := by
      simp only [List.mem_append, not_or]
      exact ⟨by decide, h.type_parenthesis, by decide⟩
    have hFound : name.isEmpty = false := by
      obtain ⟨c, rest, rfl, -⟩ := exists_eq_cons_of_isIdentifier h.isIdentifier
      rfl
    rw [typedefPointer_eq_group, nameInPointerGroup?_append hBefore, List.cons_append, nameInPointerGroup?_cons,
      ← List.cons_append, PointerGroup.read?_group h.isIdentifier]
    simp only [Option.map_some, PointerGroup.parts, hFound]
    rfl
  rw [code_of_commentless h.noLineFeed h.commentless, hWithout, trim_eq_self hTrimmed]
  refine nameType?_of_pointerGroup rfl ?_ ?_ hGroup
  · exact nameAfterBrace?_of_not_mem fun hMem => h.noBrace (hPlain.sublist.subset hMem)
  · rw [hFront, nameBeforeSemicolon?_of_parenthesis]

end Pointer

theorem IsTypedefStruct.nameType?_code {members name : Text} (h : IsTypedefStruct members name) :
    nameType? (withoutAttributes (typedefStruct members name))
        (DataType.code (typedefStruct members name)) =
      some (.struct, (findWordAfter? TypeKind.struct.keyword false
        (withoutAttributes (typedefStruct members name))).getD name) := by
  obtain ⟨plain, hPlain⟩ := h.wholeAttributes
  have hClosing : '(' ∉ ' ' :: '}' :: ' ' :: (name ++ [';']) := by
    simp only [List.mem_cons, List.mem_append, not_or]
    exact ⟨by decide, by decide, by decide, not_mem_of_isIdentifier h.isIdentifier rfl, by decide⟩
  have hBody : Attributed false (members ++ ' ' :: '}' :: ' ' :: (name ++ [';']))
      (plain ++ ' ' :: '}' :: ' ' :: (name ++ [';'])) :=
    hPlain.append rfl rfl fun afterWord => .of_not_mem hClosing afterWord
  have hWithout : withoutAttributes (typedefStruct members name) = typedefStruct plain name := by
    rw [typedefStruct_eq_members, typedefStruct_eq_members]
    exact (Attributed.behind_of_not_mem (by decide) rfl hBody false).withoutAttributesFrom_eq
  have hTrimmed : Trimmed (typedefStruct plain name) := by
    refine ⟨rfl, ?_⟩
    rw [typedefStruct_eq_concat, endsBlank, List.getLast?_concat]
    rfl
  have hName : nameAfterBrace? (typedefStruct plain name) = some name := by
    rw [typedefStruct_eq_closing]
    exact nameAfterBrace?_closing h.isIdentifier (by decide) _
  rw [code_of_commentless h.noLineFeed h.commentless, hWithout, trim_eq_self hTrimmed]
  exact nameType?_of_closingBrace rfl hName

namespace DataType

theorem read?_typedefPointer {type name arguments : Text} (h : IsTypedefPointer type name arguments)
    (doc : Doc) (file : Text) (line : Nat) :
    ∃ record, read? (typedefPointer type name arguments) (typedefPointer type name arguments) doc file line =
        some record ∧
      (record.kind = .typedef ∧ record.name = name ↔ ∀ kind ≠ TypeKind.typedef, ∀ tag,
        ¬NamesTag kind.keyword tag (withoutAttributes (typedefPointer type name arguments))) ∧
      (record.kind ≠ .typedef →
        FirstTag record.kind.keyword record.name (withoutAttributes (typedefPointer type name arguments))) := by
  have hName := h.nameType?_code
  rw [read?, ← tagIn?_eq_none_iff]
  cases hTag : tagIn? (withoutAttributes (typedefPointer type name arguments)) with
  | none =>
    rw [hTag, Option.none_or] at hName
    rw [hName]
    exact ⟨_, rfl, ⟨fun _ => rfl, fun _ => ⟨rfl, rfl⟩⟩, fun hKind => absurd rfl hKind⟩
  | some found =>
    obtain ⟨kind, tag⟩ := found
    obtain ⟨hKind, hFirst⟩ := firstTag_of_tagIn? hTag
    rw [hTag, Option.some_or] at hName
    rw [hName]
    exact ⟨_, rfl, ⟨fun hTypedef => absurd hTypedef.1 hKind, fun hNone => absurd hNone (Option.some_ne_none _)⟩,
      fun _ => hFirst⟩

theorem read?_typedefStruct {members name : Text} (h : IsTypedefStruct members name)
    (doc : Doc) (file : Text) (line : Nat) :
    ∃ record, read? (typedefStruct members name) (typedefStruct members name) doc file line =
        some record ∧
      record.kind = .struct ∧
      (record.name = name ↔ ∀ tag, FirstTag TypeKind.struct.keyword tag
        (withoutAttributes (typedefStruct members name)) → tag = name) := by
  have hName := h.nameType?_code
  simp only [← findWordAfter?_eq_some_iff]
  rw [read?, hName]
  refine ⟨_, rfl, rfl, ?_⟩
  cases findWordAfter? TypeKind.struct.keyword false (withoutAttributes (typedefStruct members name)) with
  | none => exact ⟨fun _ _ hNone => absurd hNone.symm (Option.some_ne_none _), fun _ => rfl⟩
  | some tag =>
    constructor
    · rintro hEq tag' ⟨⟩
      exact hEq
    · exact fun h => h tag rfl

/-- A typedef on one line is recorded under the name it declares just when no tag comes first: a
pointer to functions when its text names no tag at all, a struct without a tag when the first struct
its text names is called the same. -/
theorem read?_typedef (doc : Doc) (file : Text) (line : Nat) :
    (∀ type name arguments, IsTypedefPointer type name arguments → ∃ record,
      read? (typedefPointer type name arguments) (typedefPointer type name arguments) doc file line =
          some record ∧
        (record.kind = .typedef ∧ record.name = name ↔ ∀ kind ≠ TypeKind.typedef, ∀ tag,
          ¬NamesTag kind.keyword tag (withoutAttributes (typedefPointer type name arguments))) ∧
        (record.kind ≠ .typedef →
          FirstTag record.kind.keyword record.name
            (withoutAttributes (typedefPointer type name arguments)))) ∧
    (∀ members name, IsTypedefStruct members name → ∃ record,
      read? (typedefStruct members name) (typedefStruct members name) doc file line = some record ∧
        record.kind = .struct ∧
        (record.name = name ↔ ∀ tag, FirstTag TypeKind.struct.keyword tag
          (withoutAttributes (typedefStruct members name)) → tag = name)) :=
  ⟨fun _ _ _ h => read?_typedefPointer h doc file line, fun _ _ h => read?_typedefStruct h doc file line⟩

theorem isTypedefPointer_handler :
    IsTypedefPointer "int".toList "handler_t".toList "void (*done)(int), const char *label".toList where
  isIdentifier := by decide
  type_parenthesis := by decide
  type_attribute := by decide
  balanced :=
    (Balanced.of_not_mem (s := "void ".toList) (by decide) (by decide)).append
      ((Balanced.of_not_mem (s := "*done".toList) (by decide) (by decide)).group
        ((Balanced.of_not_mem (s := "int".toList) (by decide) (by decide)).group
          (.of_not_mem (s := ", const char *label".toList) (by decide) (by decide))))
  noBrace := by decide
  noLineFeed := by decide
  commentless := by decide

theorem isTypedefStruct_pair :
    IsTypedefStruct "int left; struct \x7b int depth; \x7d right;".toList "pair_t".toList where
  isIdentifier := by decide
  wholeAttributes := ⟨_, .of_not_mem (by decide) false⟩
  noLineFeed := by decide
  commentless := by decide

theorem read?_typedef_handler :
    (∃ record, read? "typedef int (*handler_t)(void (*done)(int), const char *label);".toList
        "typedef int (*handler_t)(void (*done)(int), const char *label);".toList {} "a.h".toList 1 =
          some record ∧
        record.kind = .typedef ∧ record.name = "handler_t".toList) ∧
      ∃ record, read? "typedef struct \x7b int left; struct \x7b int depth; \x7d right; \x7d pair_t;".toList
        "typedef struct \x7b int left; struct \x7b int depth; \x7d right; \x7d pair_t;".toList {}
        "a.h".toList 1 = some record ∧
        record.kind = .struct ∧ record.name = "pair_t".toList := by
  obtain ⟨hPointer, hAnonymous⟩ := read?_typedef {} "a.h".toList 1
  obtain ⟨record, hRecord, hName, -⟩ := hPointer _ _ _ isTypedefPointer_handler
  obtain ⟨record', hRecord', hKind', hName'⟩ := hAnonymous _ _ isTypedefStruct_pair
  have hNoTag := tagIn?_eq_none_iff.mp (by decide : tagIn? (withoutAttributes (typedefPointer
    "int".toList "handler_t".toList "void (*done)(int), const char *label".toList)) = none)
  have hNoStruct := findWordAfter?_eq_none_iff.mp (by decide : findWordAfter? TypeKind.struct.keyword
    false (withoutAttributes (typedefStruct "int left; struct \x7b int depth; \x7d right;".toList
      "pair_t".toList)) = none)
  exact ⟨⟨record, hRecord, hName.mpr hNoTag⟩,
    ⟨record', hRecord', hKind', hName'.mpr fun tag hTag => absurd hTag.namesTag (hNoStruct tag)⟩⟩

/-- Neither is recorded under its own name where the type of a parameter or of a member has a tag. -/
theorem not_forall_read?_typedef :
    (¬∀ type name arguments, IsTypedefPointer type name arguments → ∃ record,
      read? (typedefPointer type name arguments) (typedefPointer type name arguments) {} "a.h".toList 1 =
        some record ∧ record.kind = .typedef ∧ record.name = name) ∧
    ¬∀ members name, IsTypedefStruct members name → ∃ record,
      read? (typedefStruct members name) (typedefStruct members name) {} "a.h".toList 1 =
        some record ∧ record.kind = .struct ∧ record.name = name := by
  constructor
  · intro h
    have hPointer : IsTypedefPointer "void".toList "visit_t".toList "struct node *at".toList :=
      ⟨by decide, by decide, by decide, .of_not_mem (by decide) (by decide), by decide, by decide, by decide⟩
    obtain ⟨record, hRecord, hKind, -⟩ := h _ _ _ hPointer
    obtain ⟨⟨kind, name⟩, hName, rfl⟩ := Option.map_eq_some_iff.mp hRecord
    have hTag : nameType? (withoutAttributes (typedefPointer "void".toList "visit_t".toList
        "struct node *at".toList)) (code (typedefPointer "void".toList "visit_t".toList
          "struct node *at".toList)) = some (.struct, "node".toList) := by decide
    cases hTag.symm.trans hName
    cases hKind
  · intro h
    have hAnonymous : IsTypedefStruct "struct point at;".toList "pin_t".toList :=
      ⟨by decide, ⟨_, .of_not_mem (by decide) false⟩, by decide, by decide⟩
    obtain ⟨record, hRecord, -, hName⟩ := h _ _ hAnonymous
    obtain ⟨⟨kind, name⟩, hFound, rfl⟩ := Option.map_eq_some_iff.mp hRecord
    have hTag : nameType? (withoutAttributes (typedefStruct "struct point at;".toList "pin_t".toList))
        (code (typedefStruct "struct point at;".toList "pin_t".toList)) =
          some (.struct, "point".toList) := by decide
    cases hTag.symm.trans hFound
    exact absurd hName (by decide)

end DataType

end HeaderDigest
