import HeaderDigest.Proofs.DataType.Attribute
import HeaderDigest.Proofs.DataType.NamePlace
import HeaderDigest.Proofs.DataType.Reindented
import HeaderDigest.Proofs.DataType.Tag
import HeaderDigest.Proofs.Declaration.Reindented
import Mathlib.Data.List.Infix

/-!
# Anonymous structs over several lines

The braces of a struct without a tag may hold further blocks, as deep as they like. As long as a
brace is open behind each line, the declaration goes on, and its last line names the struct, with
or without attributes around the name. No brace before the last one has a say in that.
-/

namespace HeaderDigest

open Text

/-- How many more braces the code of lines opens than it closes. -/
def openBraces : List Text → Int
  | [] => 0
  | line :: ls => balance '{' '}' (withoutComments line) + openBraces ls

/-- Lines of whole blocks: they close each brace they open, and none that stands open before
them. -/
structure StaysOpen (inner : List Text) : Prop where
  total : openBraces inner = 0
  never_below : ∀ beginning, beginning <+: inner → 0 ≤ openBraces beginning

instance (inner : List Text) : Decidable (StaysOpen inner) :=
  decidable_of_iff (openBraces inner = 0 ∧ ∀ beginning ∈ inner.inits, 0 ≤ openBraces beginning)
    ⟨fun h => ⟨h.1, fun beginning hPrefix => h.2 beginning ((List.mem_inits _ _).mpr hPrefix)⟩,
      fun h => ⟨h.total, fun beginning hMem => h.never_below beginning ((List.mem_inits _ _).mp hMem)⟩⟩

/-- Where a brace stays open behind each line, a declaration goes on through the line that closes
it. -/
theorem typeLength?_staysOpen {depth : Int} {inner : List Text}
    (hOpen : ∀ beginning, beginning <+: inner → 0 < depth + openBraces beginning) {last : Text}
    (hSemicolon : (withoutComments last).contains ';' = true)
    (hClosed : depth + openBraces inner + balance '{' '}' (withoutComments last) ≤ 0)
    (rest : List Text) : typeLength? true depth (inner ++ last :: rest) = some (inner.length + 1) := by
  induction inner generalizing depth with
  | nil =>
    have hEnd : depth + balance '{' '}' (withoutComments last) ≤ 0 := by
      rwa [openBraces, Int.add_zero] at hClosed
    simp only [List.nil_append, typeLength?, hSemicolon, Bool.true_or, Bool.not_true, Bool.false_or,
      Bool.true_and, decide_eq_true_eq, if_pos hEnd, List.length_nil, Nat.zero_add]
  | cons line inner ih =>
    have hLine : 0 < depth + balance '{' '}' (withoutComments line) := by
      have h := hOpen [line] (List.cons_prefix_cons.mpr ⟨rfl, List.nil_prefix⟩)
      rwa [openBraces, openBraces, Int.add_zero] at h
    have hRest : ∀ beginning, beginning <+: inner →
        0 < depth + balance '{' '}' (withoutComments line) + openBraces beginning := by
      intro beginning hBeginning
      have h := hOpen (line :: beginning) (List.cons_prefix_cons.mpr ⟨rfl, hBeginning⟩)
      rw [openBraces] at h
      omega
    have hEnd : depth + balance '{' '}' (withoutComments line) + openBraces inner +
        balance '{' '}' (withoutComments last) ≤ 0 := by
      rw [openBraces] at hClosed
      omega
    have hNot : ¬depth + balance '{' '}' (withoutComments line) ≤ 0 := Int.not_le.mpr hLine
    simp only [List.cons_append, typeLength?, Bool.true_or, Bool.not_true, Bool.false_or,
      hNot, decide_false, Bool.and_false, Bool.false_eq_true, if_false, ih hRest hEnd, Option.map_some,
      List.length_cons]

/-- Lines with the line feed that ends each. -/
def endedLines (ls : List Text) : Text := ls.flatMap (· ++ ['\n'])

theorem endedLines_append (ls ms : List Text) : endedLines (ls ++ ms) = endedLines ls ++ endedLines ms :=
  List.flatMap_append

theorem joinLines_concat (ls : List Text) (last : Text) :
    joinLines (ls ++ [last]) = endedLines ls ++ last := by
  induction ls with
  | nil => exact joinLines_singleton last
  | cons l ls ih =>
    have hJoin : joinLines (l :: (ls ++ [last])) = l ++ '\n' :: joinLines (ls ++ [last]) := by
      cases ls <;> exact joinLines_cons_cons _ _ _
    rw [List.cons_append, hJoin, ih, endedLines, endedLines, List.flatMap_cons, List.append_assoc,
      List.append_assoc]
    rfl

/-- Attributes and blanks. -/
inductive IsAttributeGap : Text → Prop
  | nil : IsAttributeGap []
  | blank {c : Char} {s : Text} : isBlank c = true → IsAttributeGap s → IsAttributeGap (c :: s)
  | whole {a s : Text} : IsAttribute a → IsAttributeGap s → IsAttributeGap (a ++ s)

namespace IsAttributeGap

variable {gap v w : Text}

theorem attributed (h : IsAttributeGap gap) (hv : Attributed false v w) :
    ∃ blanks, (∀ c ∈ blanks, isBlank c = true) ∧ Attributed false (gap ++ v) (blanks ++ w) := by
  induction h with
  | nil => exact ⟨[], by simp, hv⟩
  | @blank c s hc _ ih =>
    obtain ⟨blanks, hBlanks, hRest⟩ := ih
    refine ⟨c :: blanks, List.forall_mem_cons.mpr ⟨hc, hBlanks⟩, .char ?_ ?_⟩
    · exact fun _ => startsAttribute_of_blank hc _
    · rwa [isWordChar_eq_false_of_isBlank c hc]
  | whole ha _ ih =>
    obtain ⟨blanks, hBlanks, hRest⟩ := ih
    rw [List.append_assoc]
    exact ⟨blanks, hBlanks, .whole ha hRest⟩

/-- A gap that does not continue a word may stand behind one. -/
theorem attributed_behind (h : IsAttributeGap gap) (hWord : startsWord gap = false)
    (hv : ∀ afterWord, Attributed afterWord v w) :
    ∃ blanks, (∀ c ∈ blanks, isBlank c = true) ∧
      ∀ afterWord, Attributed afterWord (gap ++ v) (blanks ++ w) := by
  cases h with
  | nil => exact ⟨[], by simp, hv⟩
  | @blank c s hc hRest =>
    obtain ⟨blanks, hBlanks, hAttributed⟩ := hRest.attributed (hv false)
    refine ⟨c :: blanks, List.forall_mem_cons.mpr ⟨hc, hBlanks⟩, fun afterWord => .char ?_ ?_⟩
    · exact fun _ => startsAttribute_of_blank hc _
    · rwa [isWordChar_eq_false_of_isBlank c hc]
  | whole ha _ =>
    obtain ⟨c, more, hText, hc⟩ := ha.exists_eq_cons
    rw [hText] at hWord
    exact absurd (hWord.symm.trans hc) Bool.false_ne_true

theorem startsWith_trimStart (h : IsAttributeGap gap) (hv : startsWith ['('] (trimStart v) = false) :
    startsWith ['('] (trimStart (gap ++ v)) = false := by
  induction h with
  | nil => exact hv
  | @blank c s hc _ ih =>
    have hTrim : trimStart (c :: s ++ v) = trimStart (s ++ v) := List.dropWhile_cons_of_pos hc
    rw [hTrim, ih]
  | @whole a s ha _ _ =>
    obtain ⟨c, more, rfl, hc⟩ := ha.exists_eq_cons
    have hBlank : isBlank c = false := isBlank_eq_false_of_isWordChar hc
    have hNe : ('(' == c) = false := by
      apply beq_false_of_ne
      rintro rfl
      cases hc
    rw [List.cons_append, List.cons_append, trimStart_eq_self (s := c :: _) hBlank, startsWith,
      List.isPrefixOf_cons_cons, hNe, Bool.false_and]

end IsAttributeGap

/-- The code of the line that ends an anonymous type: a brace and a name, with attributes before
the name or behind it. -/
def IsClosing (name code : Text) : Prop :=
  ∃ before behind, IsAttributeGap before ∧ IsAttributeGap behind ∧ startsWord behind = false ∧
    (∀ c ∈ before ++ behind, c ≠ '{' ∧ c ≠ '}') ∧ code = '}' :: (before ++ (name ++ (behind ++ [';'])))

theorem isWordRun_of_isIdentifier {name : Text} (h : isIdentifier name = true) : IsWordRun name := by
  refine ⟨?_, fun c hc => isWordChar_of_isNameChar (isNameChar_of_mem h c hc)⟩
  rintro rfl
  cases h

section Closing

variable {name code : Text} (hName : isIdentifier name = true)

include hName

theorem IsClosing.attributed (h : IsClosing name code) :
    ∃ blanks blanks', (∀ c ∈ blanks ++ blanks', isBlank c = true) ∧
      ∀ afterWord, Attributed afterWord code ('}' :: (blanks ++ (name ++ (blanks' ++ [';'])))) := by
  obtain ⟨before, behind, hBefore, hBehind, hWord, -, rfl⟩ := h
  obtain ⟨blanks', hBlanks', hEnd⟩ := hBehind.attributed_behind (v := [';']) hWord
    fun afterWord => .of_not_mem (by decide) afterWord
  have hStops : startsWord (behind ++ [';']) = false := by
    cases behind with
    | nil => rfl
    | cons c behind => exact hWord
  have hParenthesis : '(' ∉ name := not_mem_of_isIdentifier hName rfl
  have hNamed : Attributed false (name ++ (behind ++ [';'])) (name ++ (blanks' ++ [';'])) :=
    (Attributed.of_not_mem hParenthesis false).append hStops (hBehind.startsWith_trimStart rfl) hEnd
  obtain ⟨blanks, hBlanks, hAll⟩ := hBefore.attributed hNamed
  refine ⟨blanks, blanks', List.forall_mem_append.mpr ⟨hBlanks, hBlanks'⟩, fun afterWord => ?_⟩
  exact Attributed.behind_of_not_mem (s := []) (by simp) rfl hAll afterWord

/-- No brace before the last one has a say in the name. -/
theorem nameAfterBrace?_closing {blanks blanks' : Text}
    (hBlanks : ∀ c ∈ blanks ++ blanks', isBlank c = true) (front : Text) :
    nameAfterBrace? (front ++ '}' :: (blanks ++ (name ++ (blanks' ++ [';'])))) = some name := by
  obtain ⟨hBefore, hBehind⟩ := List.forall_mem_append.mp hBlanks
  have hStops : startsWord (blanks' ++ [';']) = false := startsWord_append_of_blank hBehind rfl
  have hNoBrace : ∀ c ∈ blanks' ++ [';'], isNoBrace c = true :=
    List.forall_mem_append.mpr ⟨fun c hc => isNoBrace_of_isBlank c (hBehind c hc), by decide⟩
  have hEnd : (trimEnd (blanks' ++ [';'])).getLast? = some ';' := by
    rw [trimEnd_append_cons rfl]
    exact List.getLast?_concat
  exact nameAfterBrace?_eq_some_iff.mpr
    ⟨isWordRun_of_isIdentifier hName, front, blanks, _, hBefore, hStops, hNoBrace, hEnd, rfl⟩

end Closing

theorem balance_closing_line {name code : Text} (hName : isIdentifier name = true)
    (h : IsClosing name code) : balance '{' '}' code = -1 := by
  obtain ⟨before, behind, -, -, -, hNoBrace, rfl⟩ := h
  have hOpening : '{' ∉ before ++ (name ++ (behind ++ [';'])) := by
    simp only [List.mem_append, not_or]
    refine ⟨?_, not_mem_of_isIdentifier hName rfl, ?_, by decide⟩
    · exact fun h => (hNoBrace '{' (List.mem_append_left _ h)).1 rfl
    · exact fun h => (hNoBrace '{' (List.mem_append_right _ h)).1 rfl
  have hClosing : '}' ∉ before ++ (name ++ (behind ++ [';'])) := by
    simp only [List.mem_append, not_or]
    refine ⟨?_, not_mem_of_isIdentifier hName rfl, ?_, by decide⟩
    · exact fun h => (hNoBrace '}' (List.mem_append_left _ h)).2 rfl
    · exact fun h => (hNoBrace '}' (List.mem_append_right _ h)).2 rfl
  have hRest : balance '{' '}' (before ++ (name ++ (behind ++ [';']))) = 0 :=
    balance_eq_zero (by decide) (.of_not_mem hOpening hClosing)
  rw [balance_cons, hRest, balance_closing (by decide)]
  rfl

/-- What opens an anonymous struct, on one line or on two. -/
def structOpenings : List (List Text) :=
  [["typedef struct \x7b".toList], ["typedef struct".toList, ['{']]]

theorem mem_structOpenings {opening : List Text} (h : opening ∈ structOpenings) :
    (opening = ["typedef struct \x7b".toList] ∨ opening = ["typedef struct".toList, ['{']]) := by
  rwa [structOpenings, List.mem_cons, List.mem_singleton] at h

theorem typeLength?_opening {opening : List Text} (h : opening ∈ structOpenings) (ls : List Text) :
    typeLength? false 0 (opening ++ ls) = (typeLength? true 1 ls).map (· + opening.length) := by
  obtain rfl | rfl := mem_structOpenings h
  · rfl
  · have hFirst : typeLength? false 0 (["typedef struct".toList, ['{']] ++ ls) =
        (typeLength? false 0 (['{'] :: ls)).map (· + 1) := rfl
    have hSecond : typeLength? false 0 (['{'] :: ls) = (typeLength? true 1 ls).map (· + 1) := rfl
    rw [hFirst, hSecond, Option.map_map]
    rfl

theorem attributed_opening {opening : List Text} (h : opening ∈ structOpenings) {v w : Text}
    (hv : Attributed false v w) :
    Attributed false (endedLines opening ++ v) (endedLines opening ++ w) := by
  obtain rfl | rfl := mem_structOpenings h
  · exact Attributed.behind_of_not_mem (s := "typedef struct \x7b".toList) (by decide) rfl hv false
  · exact Attributed.behind_of_not_mem (s := "typedef struct\n\x7b".toList) (by decide) rfl hv false

/-- The seed line names nothing itself and leaves the name to the end of the declaration. -/
theorem nameType?_opening {opening : List Text} (h : opening ∈ structOpenings) {code name : Text}
    (hName : nameAfterBrace? code = some name) :
    nameType? (opening.headD []) code = some (.struct, name) := by
  have hSeed : findWordAfter? TypeKind.struct.keyword false (opening.headD []) = none ∧
      startsTypedefOf TypeKind.struct.keyword (opening.headD []) = true := by
    obtain rfl | rfl := mem_structOpenings h <;> decide
  have hKeyword : NameRule.name? .afterKeyword .struct (opening.headD []) code = none := hSeed.1
  have hBrace : NameRule.name? .afterClosingBrace .struct (opening.headD []) code = some name := by
    rw [NameRule.name?, if_pos hSeed.2, hName]
  simp only [nameType?, typeRules, List.findSome?_cons, hKeyword, hBrace, Option.map_none, Option.map_some]

/-- The lines of an anonymous struct. A comment may stand in each line behind the first ones, and
attributes may stand in the braces as long as each is whole. -/
structure IsAnonymousStruct (name : Text) (opening inner : List Text) (last : Text) : Prop where
  isIdentifier : isIdentifier name = true
  opens : opening.map trim ∈ structOpenings
  staysOpen : StaysOpen inner
  wholeAttributes : ∃ plain, Attributed false (endedLines (inner.map withoutComments)) plain
  closes : IsClosing name (trim (withoutComments last))
  noLineFeed : ∀ line ∈ opening ++ inner ++ [last], '\n' ∉ line
  length_le : (opening ++ inner ++ [last]).length ≤ spanLimit

/-- The code of a declaration word by word, from the code of each of its lines. -/
theorem code_joinLines_respaced {ls codes : List Text} (hFeed : ∀ l ∈ ls, '\n' ∉ l)
    (h : (ls.map withoutComments).map trim = codes.map trim) :
    Respaced true (DataType.code (joinLines ls)) (withoutAttributes (joinLines codes)) := by
  have hLines : Reindented ((lines (joinLines ls)).map withoutComments) codes :=
    ((reindented_lines_joinLines hFeed).map (fun _ _ => trim_withoutComments_congr) rfl).trans
      (.of_map_trim h)
  have hWords : words (joinLines ((lines (joinLines ls)).map withoutComments)) = words (joinLines codes) := by
    rw [words_joinLines, words_joinLines]
    exact hLines.flatMap_eq (fun line => (words_trim line).symm) rfl
  apply Respaced.of_words_eq
  rw [DataType.code, words_trim]
  exact (withoutAttributes_respaced (.of_words_eq hWords)).words_eq

theorem map_trim_opening {opening : List Text} (h : opening.map trim ∈ structOpenings) :
    (opening.map withoutComments).map trim = opening.map trim ∧
      (opening.map trim).map trim = opening.map trim := by
  have hSlash : ∀ code ∈ opening.map trim, '/' ∉ code := by
    obtain hText | hText := mem_structOpenings h <;> rw [hText] <;> decide
  have hCode : ∀ line ∈ opening, trim (withoutComments line) = trim line := by
    intro line hLine
    rw [← trim_withoutComments, withoutComments_of_not_mem (hSlash _ (List.mem_map_of_mem hLine)), trim_trim]
  rw [List.map_map, List.map_map]
  exact ⟨List.map_congr_left hCode, List.map_congr_left fun line _ => trim_trim line⟩

namespace IsAnonymousStruct

variable {name last : Text} {opening inner : List Text} (h : IsAnonymousStruct name opening inner last)

include h

theorem typeLength?_append (after : List Text) :
    typeLength? false 0 (opening ++ inner ++ [last] ++ after) =
      some (opening ++ inner ++ [last]).length := by
  have hOpen : ∀ beginning, beginning <+: inner → 0 < 1 + openBraces beginning := by
    intro beginning hBeginning
    have := h.staysOpen.never_below beginning hBeginning
    omega
  have hSemicolon : (withoutComments last).contains ';' = true := by
    obtain ⟨before, behind, -, -, -, -, hText⟩ := h.closes
    rw [← contains_trim (by decide), hText, List.contains_iff_mem]
    simp
  have hClosed : 1 + openBraces inner + balance '{' '}' (withoutComments last) ≤ 0 := by
    rw [h.staysOpen.total, ← balance_trim (by decide) (by decide) (by decide),
      balance_closing_line h.isIdentifier h.closes]
    decide
  have hTrimmed : Reindented (opening ++ inner ++ [last] ++ after)
      (opening.map trim ++ (inner ++ last :: after)) := by
    apply Reindented.of_map_trim
    simp
  rw [typeLength?_reindented hTrimmed, typeLength?_opening h.opens,
    typeLength?_staysOpen hOpen hSemicolon hClosed, Option.map_some, List.length_map]
  simp only [List.length_append, List.length_singleton, Option.some.injEq]
  omega

theorem dataTypeAt (before after : List Text) :
    Span.dataTypeAt (before ++ (opening ++ inner ++ [last]) ++ after) before.length =
      ⟨before.length, before.length + (opening ++ inner ++ [last]).length,
        joinLines (opening ++ inner ++ [last]), true⟩ := by
  have hEnds := h.typeLength?_append
  have hLimit := h.length_le
  generalize opening ++ inner ++ [last] = declaration at hEnds hLimit ⊢
  have hTake : (declaration ++ after).take spanLimit =
      declaration ++ after.take (spanLimit - declaration.length) := by
    rw [List.take_append, List.take_of_length_le hLimit]
  have hStop : min (before.length + declaration.length) (before ++ (declaration ++ after)).length =
      before.length + declaration.length := by
    rw [List.length_append, List.length_append]
    omega
  have hSpan : Span.dataType before.length (declaration ++ after) =
      ⟨before.length, before.length + declaration.length, joinLines declaration, true⟩ := by
    simp only [Span.dataType, hTake, hEnds, List.take_left]
  rw [Span.dataTypeAt, List.append_assoc, List.drop_left, hSpan]
  simp only [hStop]

/-- Apart from blanks, the code of the declaration ends in a brace and the name. -/
theorem exists_code_respaced :
    ∃ code, nameAfterBrace? code = some name ∧
      Respaced true (DataType.code (joinLines (opening ++ inner ++ [last]))) code := by
  obtain ⟨plain, hPlain⟩ := h.wholeAttributes
  obtain ⟨blanks, blanks', hBlanks, hClosing⟩ := h.closes.attributed h.isIdentifier
  obtain ⟨hCode, hTrim⟩ := map_trim_opening h.opens
  obtain ⟨before, behind, -, -, -, -, hLast⟩ := h.closes
  have hCodes : ((opening ++ inner ++ [last]).map withoutComments).map trim =
      ((opening.map trim ++ inner.map withoutComments) ++ [trim (withoutComments last)]).map trim := by
    simp only [List.map_append, hCode, hTrim, List.map_cons, List.map_nil, trim_trim]
  have hWhole : Attributed false
      (endedLines (opening.map trim) ++ (endedLines (inner.map withoutComments) ++ trim (withoutComments last)))
      (endedLines (opening.map trim) ++ (plain ++ '}' :: (blanks ++ (name ++ (blanks' ++ [';']))))) := by
    refine attributed_opening h.opens (hPlain.append ?_ ?_ hClosing)
    · rw [hLast]
      rfl
    · rw [hLast, trimStart_eq_self (by rfl)]
      rfl
  have hRespaced := code_joinLines_respaced h.noLineFeed hCodes
  rw [joinLines_concat (_ ++ _) (trim _), endedLines_append,
    List.append_assoc (endedLines _), withoutAttributes, hWhole.withoutAttributesFrom_eq,
    ← List.append_assoc (endedLines _)] at hRespaced
  exact ⟨_, nameAfterBrace?_closing h.isIdentifier hBlanks _, hRespaced⟩

end IsAnonymousStruct

/-- An anonymous struct is taken up to the line that names it, and is recorded under that name. -/
theorem DataType.read?_anonymousStruct {name last : Text} {opening inner : List Text}
    (h : IsAnonymousStruct name opening inner last) (before after : List Text) :
    Span.dataTypeAt (before ++ (opening ++ inner ++ [last]) ++ after) before.length =
        ⟨before.length, before.length + (opening ++ inner ++ [last]).length,
          joinLines (opening ++ inner ++ [last]), true⟩ ∧
      ∀ doc file line, ∃ record,
        DataType.read? (opening.headD []) (joinLines (opening ++ inner ++ [last])) doc file line = some record ∧
          record.kind = .struct ∧ record.name = name := by
  refine ⟨h.dataTypeAt before after, fun doc file line => ?_⟩
  obtain ⟨code, hCode, hRespaced⟩ := h.exists_code_respaced
  have hSeed : Respaced true (withoutAttributes (opening.headD [])) ((opening.map trim).headD []) := by
    have hHead : (opening.map trim).headD [] = trim (opening.headD []) := by cases opening <;> rfl
    have hParenthesis : '(' ∉ (opening.map trim).headD [] := by
      obtain hText | hText := mem_structOpenings h.opens <;> rw [hText] <;> decide
    rw [← withoutAttributes_of_not_mem hParenthesis, hHead]
    exact withoutAttributes_respaced (.of_words_eq (words_trim _).symm)
  have hName := nameType?_respaced hSeed hRespaced
  rw [nameType?_opening h.opens hCode] at hName
  exact ⟨_, Option.map_eq_some_iff.mpr ⟨_, hName, rfl⟩, rfl, rfl⟩

/-- The lines in the braces of a struct that holds another one, with an attribute of its own. -/
def nestedInner : List Text :=
  ["    struct \x7b".toList, "        int depth; // not the end: \x7d other;".toList,
    "    \x7d inner __attribute__((aligned(8)));".toList]

def nestedClosing : Text := "\x7d __attribute__((packed)) outer_t __declspec(align(8)); // the end".toList

theorem isAnonymousStruct_nested :
    IsAnonymousStruct "outer_t".toList ["typedef struct".toList, ['{']] nestedInner nestedClosing := by
  have hAligned : Balanced '(' ')' "(aligned(8))".toList :=
    ((Balanced.of_not_mem (s := "aligned".toList) (by decide) (by decide)).append
      (Balanced.of_not_mem (s := ['8']) (by decide) (by decide)).bracketed).bracketed
  have hPacked : IsAttribute "__attribute__((packed))".toList :=
    ⟨"__attribute__".toList, by decide, [], "(packed)".toList, by simp,
      (Balanced.of_not_mem (s := "packed".toList) (by decide) (by decide)).bracketed, rfl⟩
  have hAlign : IsAttribute "__declspec(align(8))".toList :=
    ⟨"__declspec".toList, by decide, [], "align(8)".toList, by simp,
      (Balanced.of_not_mem (s := "align".toList) (by decide) (by decide)).append
        (Balanced.of_not_mem (s := ['8']) (by decide) (by decide)).bracketed, rfl⟩
  constructor
  case isIdentifier => decide
  case opens => decide
  case staysOpen => decide
  case wholeAttributes =>
    have hCode : endedLines (nestedInner.map withoutComments) =
        "    struct \x7b\n        int depth; \n    \x7d inner __attribute__".toList ++
          (('(' :: "(aligned(8))".toList ++ [')']) ++ [';', '\n']) := by decide
    rw [hCode]
    refine Attributed.exists_of_balanced ?_ false
    exact (Balanced.of_not_mem (by decide) (by decide)).append
      (hAligned.bracketed.append (.of_not_mem (by decide) (by decide)))
  case closes =>
    refine ⟨" __attribute__((packed)) ".toList, " __declspec(align(8))".toList, ?_, ?_, rfl, by decide,
      by decide⟩
    · exact .blank rfl (.whole hPacked (.blank rfl .nil))
    · exact .blank rfl (.whole hAlign .nil)
  case noLineFeed => decide
  case length_le => decide

theorem DataType.read?_nestedStruct :
    Span.dataTypeAt ("/** Points. */".toList :: "typedef struct".toList :: ['{'] ::
        nestedInner ++ [nestedClosing, [], "int next;".toList]) 1 =
          ⟨1, 7, joinLines ("typedef struct".toList :: ['{'] :: nestedInner ++ [nestedClosing]), true⟩ ∧
      ∃ record, DataType.read? "typedef struct".toList
        (joinLines ("typedef struct".toList :: ['{'] :: nestedInner ++ [nestedClosing])) {} "a.h".toList 2 =
          some record ∧ record.kind = .struct ∧ record.name = "outer_t".toList := by
  have h := DataType.read?_anonymousStruct isAnonymousStruct_nested ["/** Points. */".toList]
    [[], "int next;".toList]
  exact ⟨h.1, h.2 {} "a.h".toList 2⟩

end HeaderDigest
