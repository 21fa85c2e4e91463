import HeaderDigest.Proofs.DataType.NamePlace
import HeaderDigest.Proofs.DataType.Typedef
import HeaderDigest.Proofs.Declaration.Ending

/-!
# Types that are cut off

The brace of a struct without a tag may stay open through the last line that is taken. What stands
behind it is then searched for a name as the code of a whole declaration is, so the struct can be recorded
under a name from inside its braces, and it is left out just when nothing there has the place of a name.
-/

namespace HeaderDigest

open Text

/-- The first line of a struct without a tag. -/
def untaggedOpening : Text := "typedef struct \x7b".toList

/-- What is taken of a declaration behind its first line, when its end is not found. -/
def linesBehind (lines : List Text) (seed : Nat) : List Text :=
  (lines.drop (seed + 1)).take (spanLimit - 1)

section Lines

variable {lines behind : List Text} {seed : Nat} {seedLine : Text}

theorem take_drop_eq_cons (h : lines[seed]? = some seedLine) :
    (lines.drop seed).take spanLimit = seedLine :: linesBehind lines seed := by
  obtain ⟨hLength, rfl⟩ := List.getElem?_eq_some_iff.mp h
  rw [List.drop_eq_getElem_cons hLength]
  rfl

theorem typeLength?_untaggedOpening (h : trim seedLine = untaggedOpening) (behind : List Text) :
    typeLength? false 0 (seedLine :: behind) = (typeLength? true 1 behind).map (· + 1) := by
  have hTrimmed : Reindented (seedLine :: behind) ([untaggedOpening] ++ behind) :=
    .cons (by rw [h]; rfl) (.refl behind)
  rw [typeLength?_reindented hTrimmed]
  exact typeLength?_opening List.mem_cons_self behind

/-- Inside a brace a declaration has no end when each semicolon stands before its partner. -/
theorem typeLength?_inside_eq_none_iff :
    typeLength? true 1 behind = none ↔ ∀ m, HasSemicolonAt behind m →
      (codeOfFirst (m + 1) behind).count '}' ≤ (codeOfFirst (m + 1) behind).count '{' := by
  rw [typeLength?_eq_none_iff]
  simp only [CanEndType, Bool.true_or, Bool.true_eq_false, false_or, not_and]
  refine forall₂_congr fun m _ => ?_
  rw [balance_eq_count (by decide)]
  omega

/-- A struct without a tag begins on the line `seed`, and its end is not found. -/
structure IsCutOff (lines : List Text) (seed : Nat) (seedLine : Text) : Prop where
  first : lines[seed]? = some seedLine
  opens : trim seedLine = untaggedOpening
  unterminated : (Span.dataTypeAt lines seed).terminated = false

theorem IsCutOff.typeLength?_behind (h : IsCutOff lines seed seedLine) :
    typeLength? true 1 (linesBehind lines seed) = none := by
  have hUnterminated := h.unterminated
  unfold Span.dataTypeAt Span.dataType at hUnterminated
  rw [take_drop_eq_cons h.first, typeLength?_untaggedOpening h.opens] at hUnterminated
  cases hLength : typeLength? true 1 (linesBehind lines seed) with
  | none => rfl
  | some n => simp [hLength] at hUnterminated

theorem IsCutOff.text_dataTypeAt (h : IsCutOff lines seed seedLine) :
    (Span.dataTypeAt lines seed).text = joinLines (seedLine :: linesBehind lines seed) := by
  unfold Span.dataTypeAt Span.dataType
  rw [take_drop_eq_cons h.first, typeLength?_untaggedOpening h.opens, h.typeLength?_behind]
  rfl

end Lines

theorem map_withoutComments_lines {s : Text} (h : '/' ∉ s) : (lines s).map withoutComments = lines s :=
  (List.map_congr_left fun _ hLine => withoutComments_of_not_mem fun hSlash =>
    h (mem_of_mem_lines hLine hSlash)).trans (List.map_id' _)

/-- The words of the code of each line, where there is no comment on the first one. -/
theorem words_code_joinLines_cons {l : Text} (hl : '/' ∉ l) (ls : List Text) :
    words (joinLines ((lines (joinLines (l :: ls))).map withoutComments)) =
      words l ++ words (joinLines ((lines (joinLines ls)).map withoutComments)) := by
  cases ls with
  | nil =>
    rw [joinLines_singleton, map_withoutComments_lines hl, words_joinLines, flatMap_words_lines]
    exact (List.append_nil _).symm
  | cons m ls =>
    have hFirst : '/' ∉ l ++ ['\n'] := fun hMem => (List.mem_append.mp hMem).elim hl (by decide)
    have hCut (rest : Text) : lines (l ++ '\n' :: rest) = lines (l ++ ['\n']) ++ lines rest := by
      rw [← lines_append rest (Or.inr List.getLast?_concat), List.append_assoc, List.singleton_append]
    rw [joinLines_cons_cons, hCut, List.map_append, map_withoutComments_lines hFirst, words_joinLines,
      List.flatMap_append, flatMap_words_lines, ← words_joinLines, Respaced.words_append_blank rfl]
    exact congrArg (· ++ _) (List.append_nil (words l))

/-- The code of a struct is its opening and the code behind it. -/
theorem code_untaggedOpening_respaced {seedLine : Text} (h : trim seedLine = untaggedOpening)
    (behind : List Text) :
    Respaced true (DataType.code (joinLines (seedLine :: behind)))
      (untaggedOpening ++ '\n' :: DataType.code (joinLines behind)) := by
  have hSlash : '/' ∉ seedLine := by
    rw [← List.contains_iff_mem, ← contains_trim rfl, h]
    decide
  have hWords : words seedLine = words untaggedOpening := by rw [← words_trim, h]
  have hCode := withoutAttributes_respaced (.of_words_eq ((words_code_joinLines_cons hSlash behind).trans
    ((congrArg (· ++ _) hWords).trans (Respaced.words_append_blank (b := '\n') rfl _ _).symm)))
  have hOpening (s : Text) :
      withoutAttributes (untaggedOpening ++ '\n' :: s) = untaggedOpening ++ '\n' :: withoutAttributes s :=
    withoutAttributesFrom_append_cons (by decide) rfl s false
  apply Respaced.of_words_eq
  rw [DataType.code, words_trim, hCode.words_eq, hOpening, Respaced.words_append_blank rfl,
    Respaced.words_append_blank rfl, DataType.code, words_trim]

section Names

variable {u s name : Text}

/-- The end of a text without a character stands behind each place of it. -/
theorem exists_of_append_cons_eq {c : Char} {before tail : Text} (hTail : c ∉ tail)
    (h : u ++ c :: s = before ++ tail) : ∃ front, before = u ++ c :: front ∧ s = front ++ tail := by
  obtain ⟨more, rfl, hMore⟩ | ⟨more, -, rfl⟩ := List.append_eq_append_iff.mp h
  · cases more with
    | nil =>
      rw [List.nil_append] at hMore
      exact absurd (hMore ▸ List.mem_cons_self) hTail
    | cons d front =>
      obtain ⟨rfl, hRest⟩ := List.cons.inj hMore
      exact ⟨front, rfl, hRest⟩
  · exact absurd (List.mem_append_right more List.mem_cons_self) hTail

theorem namedBehindBrace_append_cons : NamedBehindBrace (u ++ '{' :: s) name ↔ NamedBehindBrace s name := by
  constructor
  · rintro ⟨hRun, before, blanks, rest, hBlanks, hRest, hNoBrace, hSemicolon, hText⟩
    have hTail : '{' ∉ '}' :: (blanks ++ (name ++ rest)) := by
      simp only [List.mem_cons, List.mem_append, not_or]
      exact ⟨by decide, not_mem_of_blank hBlanks (by decide), hRun.not_mem (by decide),
        fun hMem => absurd (hNoBrace _ hMem) (by decide)⟩
    obtain ⟨front, -, rfl⟩ := exists_of_append_cons_eq hTail hText
    exact ⟨hRun, front, blanks, rest, hBlanks, hRest, hNoBrace, hSemicolon, rfl⟩
  · rintro ⟨hRun, before, blanks, rest, hBlanks, hRest, hNoBrace, hSemicolon, rfl⟩
    exact ⟨hRun, u ++ '{' :: before, blanks, rest, hBlanks, hRest, hNoBrace, hSemicolon,
      (List.append_assoc u ('{' :: before) _).symm⟩

theorem namedBeforeSemicolon_append_cons :
    NamedBeforeSemicolon (u ++ '{' :: s) name ↔ NamedBeforeSemicolon s name := by
  have hEnds (front : Text) : endsWord (u ++ '{' :: front) = endsWord front := by
    cases front with
    | nil => exact endsWord_concat u '{'
    | cons c front =>
      rw [List.append_cons, endsWord_append _ (List.cons_ne_nil c front)]
  constructor
  · rintro ⟨hRun, before, blanks, after, hBlanks, hAfter, hBefore, hText⟩
    have hTail : '{' ∉ name ++ (blanks ++ ';' :: after) := by
      simp only [List.mem_append, List.mem_cons, not_or]
      exact ⟨hRun.not_mem (by decide), not_mem_of_blank hBlanks (by decide), by decide,
        not_mem_of_blank hAfter (by decide)⟩
    obtain ⟨front, rfl, rfl⟩ := exists_of_append_cons_eq hTail hText
    exact ⟨hRun, front, blanks, after, hBlanks, hAfter, (hEnds front).symm.trans hBefore, rfl⟩
  · rintro ⟨hRun, before, blanks, after, hBlanks, hAfter, hBefore, rfl⟩
    exact ⟨hRun, u ++ '{' :: before, blanks, after, hBlanks, hAfter, (hEnds before).trans hBefore,
      (List.append_assoc u ('{' :: before) _).symm⟩

theorem nameAfterBrace?_append_cons : nameAfterBrace? (u ++ '{' :: s) = nameAfterBrace? s := by
  ext name
  rw [nameAfterBrace?_eq_some_iff, nameAfterBrace?_eq_some_iff, namedBehindBrace_append_cons]

theorem nameBeforeSemicolon?_append_cons : nameBeforeSemicolon? (u ++ '{' :: s) = nameBeforeSemicolon? s := by
  ext name
  rw [nameBeforeSemicolon?_eq_some_iff, nameBeforeSemicolon?_eq_some_iff, namedBeforeSemicolon_append_cons]

end Names

/-- What the code behind the opening of a struct is recorded as, when its end is not found: as a struct
if its last brace closes a block with a name, or else as a typedef, of the word before the semicolon
that it ends in, or of the first pointer group. -/
inductive RecordedAs (inside : Text) : TypeKind → Text → Prop
  | block {name : Text} : NamedBehindBrace inside name → RecordedAs inside .struct name
  | declarator {name : Text} : (∀ other, ¬NamedBehindBrace inside other) →
      NamedBeforeSemicolon inside name → RecordedAs inside .typedef name
  | pointer {name : Text} : (∀ other, ¬NamedBehindBrace inside other) →
      (∀ other, ¬NamedBeforeSemicolon inside other) → NamedInPointerGroup inside name →
      RecordedAs inside .typedef name

theorem nameType?_untaggedOpening (inside : Text) :
    nameType? untaggedOpening (untaggedOpening ++ '\n' :: inside) =
      ((nameAfterBrace? inside).map fun name => (.struct, name)).or
        (((nameBeforeSemicolon? inside).or (nameInPointerGroup? inside)).map fun name => (.typedef, name)) := by
  have hFeed : Respaced true ('\n' :: inside) inside := .of_words_eq (Respaced.words_blank_cons rfl inside)
  have hOpening : untaggedOpening = "typedef struct ".toList ++ ['{'] := by decide
  have hCode : untaggedOpening ++ '\n' :: inside = "typedef struct ".toList ++ '{' :: '\n' :: inside := by
    rw [hOpening, List.append_assoc, List.singleton_append]
  have hBrace : nameAfterBrace? (untaggedOpening ++ '\n' :: inside) = nameAfterBrace? inside := by
    rw [hCode, nameAfterBrace?_append_cons, nameAfterBrace?_respaced hFeed]
  have hSemicolon : nameBeforeSemicolon? (untaggedOpening ++ '\n' :: inside) = nameBeforeSemicolon? inside := by
    rw [hCode, nameBeforeSemicolon?_append_cons, nameBeforeSemicolon?_respaced hFeed]
  have hPointer : nameInPointerGroup? (untaggedOpening ++ '\n' :: inside) = nameInPointerGroup? inside := by
    rw [nameInPointerGroup?_append (by decide), nameInPointerGroup?_respaced hFeed]
  have hTag : findWordAfter? TypeKind.struct.keyword false untaggedOpening = none ∧
      findWordAfter? TypeKind.enum.keyword false untaggedOpening = none ∧
        findWordAfter? TypeKind.union.keyword false untaggedOpening = none := by decide
  have hStarts : startsTypedefOf TypeKind.struct.keyword untaggedOpening = true ∧
      startsTypedefOf TypeKind.enum.keyword untaggedOpening = false ∧
        startsWithTypedef untaggedOpening = true := by decide
  simp only [nameType?, typeRules, List.findSome?_cons, List.findSome?_nil, NameRule.name?, hTag, hStarts,
    if_true, Bool.false_eq_true, if_false, Option.map_none, hBrace, hSemicolon, hPointer]
  cases nameAfterBrace? inside <;> cases nameBeforeSemicolon? inside <;>
    cases nameInPointerGroup? inside <;> rfl

theorem nameType?_untaggedOpening_eq_some_iff {inside name : Text} {kind : TypeKind} :
    nameType? untaggedOpening (untaggedOpening ++ '\n' :: inside) = some (kind, name) ↔
      RecordedAs inside kind name := by
  have hNoBlock : nameAfterBrace? inside = none ↔ ∀ other, ¬NamedBehindBrace inside other := by
    simp only [← nameAfterBrace?_eq_some_iff, Option.eq_none_iff_forall_ne_some]
  have hNoDeclarator : nameBeforeSemicolon? inside = none ↔ ∀ other, ¬NamedBeforeSemicolon inside other := by
    simp only [← nameBeforeSemicolon?_eq_some_iff, Option.eq_none_iff_forall_ne_some]
  rw [nameType?_untaggedOpening, Option.or_eq_some_iff, Option.map_eq_some_iff, Option.map_eq_none_iff,
    Option.map_eq_some_iff]
  simp only [Option.or_eq_some_iff, nameAfterBrace?_eq_some_iff, nameBeforeSemicolon?_eq_some_iff,
    nameInPointerGroup?_eq_some_iff, hNoBlock, hNoDeclarator]
  constructor
  · rintro (⟨name, hName, ⟨⟩⟩ | ⟨hNone, name, hName | ⟨hNone', hName⟩, ⟨⟩⟩)
    · exact .block hName
    · exact .declarator hNone hName
    · exact .pointer hNone hNone' hName
  · rintro (hName | ⟨hNone, hName⟩ | ⟨hNone, hNone', hName⟩)
    · exact Or.inl ⟨_, hName, rfl⟩
    · exact Or.inr ⟨hNone, _, Or.inl hName, rfl⟩
    · exact Or.inr ⟨hNone, _, Or.inr ⟨hNone', hName⟩, rfl⟩

namespace DataType

theorem nameType?_cutOff {lines : List Text} {seed : Nat} {seedLine : Text} (h : IsCutOff lines seed seedLine) :
    nameType? (withoutAttributes seedLine) (code (Span.dataTypeAt lines seed).text) =
      nameType? untaggedOpening (untaggedOpening ++ '\n' :: code (joinLines (linesBehind lines seed))) := by
  have hSeed : Respaced true (withoutAttributes seedLine) untaggedOpening := by
    rw [← withoutAttributes_of_not_mem (s := untaggedOpening) (by decide), ← h.opens]
    exact withoutAttributes_respaced (.of_words_eq (words_trim seedLine).symm)
  rw [h.text_dataTypeAt]
  exact nameType?_respaced hSeed (code_untaggedOpening_respaced h.opens _)

/-- Where the end of a struct without a tag is not found, each semicolon that is taken stands inside its
braces, and the struct is recorded under the name that the code behind its first line has in one of three
places, as a struct or as a typedef. It is left out just when there is none. -/
theorem read?_cutOff {lines : List Text} {seed : Nat} {seedLine : Text} (h : IsCutOff lines seed seedLine)
    (doc : Doc) (file : Text) (line : Nat) :
    (∀ m, HasSemicolonAt (linesBehind lines seed) m →
      (codeOfFirst (m + 1) (linesBehind lines seed)).count '}' ≤
        (codeOfFirst (m + 1) (linesBehind lines seed)).count '{') ∧
    (∀ kind name, (∃ record, read? seedLine (Span.dataTypeAt lines seed).text doc file line = some record ∧
      record.kind = kind ∧ record.name = name) ↔
        RecordedAs (code (joinLines (linesBehind lines seed))) kind name) ∧
    (read? seedLine (Span.dataTypeAt lines seed).text doc file line = none ↔
      ∀ kind name, ¬RecordedAs (code (joinLines (linesBehind lines seed))) kind name) := by
  refine ⟨typeLength?_inside_eq_none_iff.mp h.typeLength?_behind, fun kind name => ?_, ?_⟩
  · rw [← nameType?_untaggedOpening_eq_some_iff, read?, nameType?_cutOff h]
    constructor
    · rintro ⟨record, hRecord, rfl, rfl⟩
      obtain ⟨⟨kind, name⟩, hName, rfl⟩ := Option.map_eq_some_iff.mp hRecord
      exact hName
    · intro hName
      exact ⟨_, Option.map_eq_some_iff.mpr ⟨_, hName, rfl⟩, rfl, rfl⟩
  · rw [read?, nameType?_cutOff h, Option.map_eq_none_iff, Option.eq_none_iff_forall_ne_some]
    simp only [Prod.forall, ne_eq, nameType?_untaggedOpening_eq_some_iff]

/-- The lines of a file that ends inside a struct, behind a block with a name. -/
def cutOffLines : List Text :=
  ["/** Points. */".toList, "typedef struct \x7b".toList, "    struct \x7b".toList,
    "        int depth; // \x7d other;".toList, "    \x7d inner;".toList]

theorem isCutOff_cutOffLines : IsCutOff cutOffLines 1 "typedef struct \x7b".toList :=
  ⟨by decide, by decide, by decide⟩

theorem read?_cutOff_cutOffLines : ∃ record,
    read? "typedef struct \x7b".toList (Span.dataTypeAt cutOffLines 1).text {} "a.h".toList 2 = some record ∧
      record.kind = .struct ∧ record.name = "inner".toList := by
  have hInner : NamedBehindBrace (code (joinLines (linesBehind cutOffLines 1))) "inner".toList :=
    nameAfterBrace?_eq_some_iff.mp (by decide)
  obtain ⟨-, hRecorded, -⟩ := read?_cutOff isCutOff_cutOffLines {} "a.h".toList 2
  exact (hRecorded .struct "inner".toList).mpr (.block hInner)

/-- A struct whose end is not found may be recorded under the name of its last member, or under that of a
block among its members. -/
theorem not_forall_read?_cutOff :
    (¬∀ lines seed seedLine, IsCutOff lines seed seedLine → ∀ record,
      read? seedLine (Span.dataTypeAt lines seed).text {} "a.h".toList 1 = some record →
        record.name ∉ (readMembers (Span.dataTypeAt lines seed).text {}).map Member.name) ∧
    ¬∀ lines seed seedLine, IsCutOff lines seed seedLine → ∀ record,
      read? seedLine (Span.dataTypeAt lines seed).text {} "a.h".toList 1 = some record →
        ¬NamedBehindBrace (code (joinLines (linesBehind lines seed))) record.name := by
  constructor
  · intro h
    have hCut : IsCutOff ["typedef struct \x7b".toList, "    int a;".toList] 0 "typedef struct \x7b".toList :=
      ⟨by decide, by decide, by decide⟩
    have hName : nameType? (withoutAttributes "typedef struct \x7b".toList)
        (code (Span.dataTypeAt ["typedef struct \x7b".toList, "    int a;".toList] 0).text) =
          some (.typedef, ['a']) := by decide
    have hMember : ['a'] ∈ (readMembers
        (Span.dataTypeAt ["typedef struct \x7b".toList, "    int a;".toList] 0).text {}).map Member.name := by
      decide
    exact h _ _ _ hCut _ (Option.map_eq_some_iff.mpr ⟨_, hName, rfl⟩) hMember
  · intro h
    have hName : nameType? (withoutAttributes "typedef struct \x7b".toList)
        (code (Span.dataTypeAt cutOffLines 1).text) = some (.struct, "inner".toList) := by decide
    have hInner : NamedBehindBrace (code (joinLines (linesBehind cutOffLines 1))) "inner".toList :=
      nameAfterBrace?_eq_some_iff.mp (by decide)
    exact h _ _ _ isCutOff_cutOffLines _ (Option.map_eq_some_iff.mpr ⟨_, hName, rfl⟩) hInner

end DataType

end HeaderDigest
