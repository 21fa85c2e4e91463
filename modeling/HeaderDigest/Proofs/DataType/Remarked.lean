import HeaderDigest.DataType.Basic
import HeaderDigest.Proofs.DataType.Reindented
import HeaderDigest.Proofs.DataType.Tag
import HeaderDigest.Proofs.Source.Remarked

/-!
# Comments and the name of a type

The comments in a declaration do not reach the rules that name it, but those on its seed line do.
They do not decide what the type is as long as they name no tag and do not stand between a keyword
and the word it goes with.
-/

namespace HeaderDigest

open Text

/-- The word a text ends in, blanks aside. -/
def lastWord (s : Text) : Text := (splitEnding isWordChar (trimEnd s)).2

variable {keyword before s t : Text}

theorem lastWord_append {blanks : Text} (hKeyword : IsWordRun keyword) (hBefore : endsWord before = false)
    (hBlanks : ∀ c ∈ blanks, isBlank c = true) : lastWord (before ++ (keyword ++ blanks)) = keyword := by
  have hEnds : endsBlank (before ++ keyword) = false := by rw [endsBlank_append _ hKeyword.1, hKeyword.endsBlank]
  rw [lastWord, ← List.append_assoc, trimEnd_append_of_blank _ hBlanks, trimEnd_eq_self hEnds,
    splitEnding_append hKeyword.2 (endsWord_eq_false_iff.mp hBefore)]

theorem lastWord_blockComment (said : Text) : lastWord (blockComment said) = [] := by
  have hEnds : endsBlank (blockComment said) = false := by
    rw [endsBlank, getLast?_blockComment]
    rfl
  have hStops : ∀ c ∈ (blockComment said).getLast?, isWordChar c = false := by
    rw [getLast?_blockComment]
    rintro c ⟨⟩
    rfl
  have hSplit := splitEnding_append (v := []) (by simp) hStops
  rw [List.append_nil] at hSplit
  rw [lastWord, trimEnd_eq_self hEnds, hSplit]

/-- The name in what follows a keyword. -/
def wordBehind? : Text → Option Text
  | c :: rest => if isBlank c then nonEmpty? ((trimStart rest).takeWhile isWordChar) else none
  | [] => none

theorem wordAfter?_eq (keyword s : Text) : wordAfter? keyword s = (dropPrefix? keyword s).bind wordBehind? := by
  rw [wordAfter?]
  cases dropPrefix? keyword s with
  | none => rfl
  | some rest => cases rest <;> rfl

theorem wordBehind?_eq_none (h : startsWord (trimStart s) = false) : wordBehind? s = none := by
  cases s with
  | nil => rfl
  | cons c s =>
    rw [wordBehind?]
    split
    · rename_i hc
      rw [Respaced.trimStart_cons hc] at h
      have hTake : (trimStart s).takeWhile isWordChar = [] := by
        cases hText : trimStart s with
        | nil => rfl
        | cons d rest =>
          rw [hText] at h
          exact List.takeWhile_cons_of_neg (Bool.not_eq_true _ ▸ h)
      rw [hTake]
      rfl
    · rfl

theorem wordBehind?_append (hNe : trimStart s ≠ []) (hApart : WordsApart s t) :
    wordBehind? (s ++ t) = wordBehind? s := by
  cases s with
  | nil => exact absurd rfl hNe
  | cons c s =>
    rw [List.cons_append, wordBehind?, wordBehind?]
    split
    · rename_i hc
      rw [Respaced.trimStart_cons hc] at hNe
      have hRest : s ≠ [] := by
        rintro rfl
        exact hNe rfl
      have hApart' : WordsApart s t := hApart.imp_left fun hEnd => by
        rwa [← List.singleton_append, endsWord_append _ hRest] at hEnd
      rw [takeWhile_trimStart_append hNe hApart']
    · rfl

/-- A keyword with a name behind it stands in the first of two texts or does not, whatever the
second one is, unless the first one ends in the keyword. -/
theorem wordAfter?_append (hKeyword : IsWordRun keyword) (hNe : s ≠ []) (hBefore : endsWord before = false)
    (hApart : WordsApart s t) (hLast : lastWord (before ++ s) = keyword → startsWord (trimStart t) = false) :
    wordAfter? keyword (s ++ t) = wordAfter? keyword s := by
  have hAppend : dropPrefix? keyword (s ++ t) = (dropPrefix? keyword s).map (· ++ t) := by
    obtain hEnd | hStart := hApart
    · exact dropPrefix?_append_of_endsWord hKeyword.2 hNe hEnd t
    · exact dropPrefix?_append_of_bounds hKeyword.2 hStart s
  rw [wordAfter?_eq, wordAfter?_eq, hAppend]
  cases hDrop : dropPrefix? keyword s with
  | none => rfl
  | some rest =>
    obtain rfl := eq_append_of_dropPrefix? hDrop
    rw [Option.map_some, Option.bind_some, Option.bind_some]
    by_cases hBlank : trimStart rest = []
    · have hBlanks : ∀ c ∈ rest, isBlank c = true := List.dropWhile_eq_nil_iff.mp hBlank
      have hStop := hLast (lastWord_append hKeyword hBefore hBlanks)
      have hHere : wordBehind? rest = none := wordBehind?_eq_none (by rw [hBlank]; rfl)
      rw [hHere, wordBehind?_eq_none (by rwa [trimStart_append_of_blank _ hBlanks])]
    · have hRest : rest ≠ [] := by
        rintro rfl
        exact hBlank rfl
      exact wordBehind?_append hBlank (hApart.imp_left fun hEnd => by rwa [endsWord_append _ hRest] at hEnd)

theorem findWordAfter?_append (hKeyword : IsWordRun keyword) (hApart : WordsApart (before ++ s) t)
    (hLast : lastWord (before ++ s) = keyword → startsWord (trimStart t) = false) :
    findWordAfter? keyword (endsWord before) (s ++ t) =
      (findWordAfter? keyword (endsWord before) s).or (findWordAfter? keyword (endsWord (before ++ s)) t) := by
  induction s generalizing before with
  | nil => rw [List.nil_append, List.append_nil, findWordAfter?, Option.none_or]
  | cons c s ih =>
    have hRest := @ih (before ++ [c]) (by rwa [List.append_assoc]) (by rwa [List.append_assoc])
    rw [endsWord_concat, List.append_assoc] at hRest
    have hHere : (if endsWord before then none else wordAfter? keyword (c :: s ++ t)) =
        if endsWord before then none else wordAfter? keyword (c :: s) := by
      split
      · rfl
      · rename_i hOutside
        have hBounds : WordsApart (c :: s) t := by
          rwa [WordsApart, endsWord_append _ (List.cons_ne_nil c s)] at hApart
        exact wordAfter?_append hKeyword (List.cons_ne_nil c s) (Bool.eq_false_iff.mpr hOutside) hBounds hLast
    rw [List.cons_append, findWordAfter?_cons, ← List.cons_append, hHere, hRest, findWordAfter?_cons,
      Option.or_assoc]
    rfl

theorem findWordAfter?_of_startsWord (hKeyword : IsWordRun keyword) (h : startsWord s = false)
    (afterWord : Bool) : findWordAfter? keyword afterWord s = findWordAfter? keyword false s := by
  cases s with
  | nil => rfl
  | cons c s =>
    have hNone : wordAfter? keyword (c :: s) = none := by
      have hDrop : dropPrefix? keyword ([] ++ c :: s) = (dropPrefix? keyword []).map (· ++ c :: s) :=
        dropPrefix?_append_of_bounds hKeyword.2 h []
      obtain ⟨d, rest, rfl⟩ := List.exists_cons_of_ne_nil hKeyword.1
      rw [List.nil_append] at hDrop
      rw [wordAfter?_eq, hDrop]
      rfl
    rw [findWordAfter?_cons, findWordAfter?_cons, hNone, ite_self, ite_self]

/-- There is no tag without its keyword. -/
theorem findWordAfter?_of_not_mem (hKeyword : IsWordRun keyword) (h : keyword ∉ runs isWordChar s) :
    findWordAfter? keyword false s = none := by
  rw [findWordAfter?_eq_none_iff]
  rintro tag ⟨before, behind, ⟨hBefore, b, blanks, rest, hb, -, -, -, rfl⟩, rfl⟩
  have hBlank : startsWord (b :: (blanks ++ (tag ++ rest))) = false := isWordChar_eq_false_of_isBlank b hb
  exact h (mem_runs_of_bounds hKeyword.1 hKeyword.2 hBefore hBlank)

/-- Whether a comment has none of the keywords that a tag goes with. -/
def NamesNoTag (said : Text) : Prop :=
  ∀ kind ∈ [TypeKind.struct, .enum, .union], kind.keyword ∉ runs isWordChar said

instance (said : Text) : Decidable (NamesNoTag said) :=
  inferInstanceAs (Decidable (∀ kind ∈ [TypeKind.struct, .enum, .union], _))

/-- Whether a comment between two texts divides no word, and no keyword from the word it goes with. -/
structure KeepsTags (s t : Text) : Prop where
  wordsApart : WordsApart s t
  keyword : ∀ keyword ∈ typeKeywords, lastWord s = keyword → startsWord (trimStart t) = false

instance (s t : Text) : Decidable (KeepsTags s t) :=
  decidable_of_iff
    (WordsApart s t ∧ ∀ keyword ∈ typeKeywords, lastWord s = keyword → startsWord (trimStart t) = false)
    ⟨fun h => ⟨h.1, h.2⟩, fun h => ⟨h.1, h.2⟩⟩

theorem isWordRun_of_mem_typeKeywords {keyword : Text} (h : keyword ∈ typeKeywords) : IsWordRun keyword := by
  revert keyword
  unfold IsWordRun
  decide

namespace Remarked

variable {line code : Text} (h : Remarked NamesNoTag KeepsTags line code)

include h

theorem findWordAfter?_eq {kind : TypeKind} (hKind : kind ∈ [TypeKind.struct, .enum, .union]) :
    findWordAfter? kind.keyword false line = findWordAfter? kind.keyword false code := by
  have hMem : kind.keyword ∈ typeKeywords := by cases kind <;> decide
  have hKeyword : IsWordRun kind.keyword := isWordRun_of_mem_typeKeywords hMem
  have hAppend {s t : Text} (hApart : WordsApart s t)
      (hLast : lastWord s = kind.keyword → startsWord (trimStart t) = false) :
      findWordAfter? kind.keyword false (s ++ t) =
        (findWordAfter? kind.keyword false s).or (findWordAfter? kind.keyword false t) := by
    have hSearch := @findWordAfter?_append _ [] s t hKeyword hApart hLast
    rw [List.nil_append] at hSearch
    -- A word that ends in `s` leaves nothing to find at the very beginning of `t`.
    obtain hEnd | hStart := hApart
    · rwa [hEnd] at hSearch
    · rwa [findWordAfter?_of_startsWord hKeyword hStart (endsWord s)] at hSearch
  induction h with
  | code => rfl
  | @line s said _ _ _ hSaid =>
    have hComment : findWordAfter? kind.keyword false (lineComment said) = none :=
      findWordAfter?_of_not_mem hKeyword (by rw [runs_lineComment]; exact hSaid kind hKind)
    rw [hAppend (Or.inr rfl) (fun _ => rfl), hComment, Option.or_none]
  | @block s said rest code _ _ _ _ hSaid hApart _ ih =>
    have hComment : findWordAfter? kind.keyword false (blockComment said) = none := by
      have hRuns := runs_blockComment_append said []
      rw [List.append_nil, runs, List.append_nil] at hRuns
      exact findWordAfter?_of_not_mem hKeyword (by rw [hRuns]; exact hSaid kind hKind)
    have hLast : lastWord (blockComment said) ≠ kind.keyword := by
      rw [lastWord_blockComment]
      exact fun hNil => hKeyword.1 hNil.symm
    rw [hAppend (Or.inr rfl) (fun _ => rfl),
      hAppend (Or.inl (endsWord_blockComment said)) (fun hEq => absurd hEq hLast), hComment, Option.none_or, ih,
      hAppend hApart.wordsApart (hApart.keyword kind.keyword hMem)]

variable (hStart : startsWith ['/'] (trimStart line) = false)

include hStart

theorem startsTypedefOf_eq (keyword : Text) : startsTypedefOf keyword line = startsTypedefOf keyword code := by
  obtain rfl | ⟨s, comment, behind, hFirst, hComment, rfl, rfl, hBehind⟩ := h.exists_first hStart
  · rfl
  · obtain ⟨rest, rfl⟩ := List.head?_eq_some_iff.mp hComment
    obtain ⟨blanks, hBlanks, hText⟩ := exists_eq_append_trimStart s
    have hAppend {t : Text} (hApart : KeepsTags s t) :
        wordAfter? "typedef".toList (trimStart s ++ t) = wordAfter? "typedef".toList (trimStart s) := by
      have hBounds : WordsApart (trimStart s) t := by
        have hBounds := hApart.wordsApart
        rwa [hText, WordsApart, endsWord_append _ hFirst] at hBounds
      refine wordAfter?_append (isWordRun_of_mem_typeKeywords (by decide)) hFirst (endsWord_of_blank hBlanks)
        hBounds fun hLast => hApart.keyword "typedef".toList (by decide) ?_
      rwa [← hText] at hLast
    have hCode : KeepsTags s behind := by
      obtain rfl | hApart := hBehind
      · exact ⟨Or.inr rfl, fun _ _ _ => rfl⟩
      · exact hApart
    rw [startsTypedefOf, startsTypedefOf, trimStart_append_of_ne_nil hFirst, trimStart_append_of_ne_nil hFirst,
      hAppend ⟨Or.inr rfl, fun _ _ _ => rfl⟩, hAppend hCode]

theorem startsWithTypedef_eq : startsWithTypedef line = startsWithTypedef code := by
  rw [startsWithTypedef, h.takeWhile_trimStart (fun _ _ hApart => hApart.wordsApart) hStart, startsWithTypedef]

theorem nameType?_eq (declaration : Text) : nameType? line declaration = nameType? code declaration := by
  simp only [nameType?, typeRules, List.findSome?_cons, List.findSome?_nil, NameRule.name?,
    h.findWordAfter?_eq (by decide : TypeKind.struct ∈ _), h.findWordAfter?_eq (by decide : TypeKind.enum ∈ _),
    h.findWordAfter?_eq (by decide : TypeKind.union ∈ _), h.startsTypedefOf_eq hStart,
    h.startsWithTypedef_eq hStart]

end Remarked

/-- A seed line whose comments, attributes aside, do not reach the rules that name a type. -/
structure IsQuietSeed (seedLine : Text) : Prop where
  start : startsWith ['/'] (trimStart (withoutAttributes seedLine)) = false
  remarked : Remarked NamesNoTag KeepsTags (withoutAttributes seedLine)
    (withoutAttributes (withoutComments seedLine))

def DataType.declared (record : DataType) : TypeKind × Text := (record.kind, record.name)

/-- Comments in a declaration and quiet ones on its seed line do not decide what it declares. -/
theorem DataType.read?_remarked {seedLine seedLine' declaration declaration' : Text}
    (hSeed : seedLine = seedLine' ∨
      IsQuietSeed seedLine ∧ IsQuietSeed seedLine' ∧ withoutComments seedLine = withoutComments seedLine')
    (hCode : (lines declaration).map withoutComments = (lines declaration').map withoutComments)
    (doc : Doc) (file : Text) (line : Nat) :
    (DataType.read? seedLine declaration doc file line).map DataType.declared =
      (DataType.read? seedLine' declaration' doc file line).map DataType.declared := by
  have hSeedName (code : Text) :
      nameType? (withoutAttributes seedLine) code = nameType? (withoutAttributes seedLine') code := by
    obtain rfl | ⟨hQuiet, hQuiet', hSame⟩ := hSeed
    · rfl
    · rw [hQuiet.remarked.nameType?_eq hQuiet.start, hSame, hQuiet'.remarked.nameType?_eq hQuiet'.start]
  have hName : nameType? (withoutAttributes seedLine) (DataType.code declaration) =
      nameType? (withoutAttributes seedLine') (DataType.code declaration') := by
    rw [hSeedName, DataType.code, hCode, DataType.code]
  rw [DataType.read?, DataType.read?, hName, Option.map_map, Option.map_map]
  rfl

def remarkedSeed : Text := "typedef struct /* a pair */ \x7b // of counts".toList

theorem isQuietSeed_remarkedSeed :
    IsQuietSeed remarkedSeed ∧ IsQuietSeed "typedef struct  \x7b ".toList := by
  have hRemarked : Remarked NamesNoTag KeepsTags remarkedSeed "typedef struct  \x7b ".toList :=
    .block "typedef struct ".toList " a pair ".toList (by decide) (by decide) (by decide) (by decide) (by decide)
      (by decide) (.line " \x7b ".toList " of counts".toList (by decide) (by decide) (by decide) (by decide))
  have hSeed : withoutAttributes remarkedSeed = remarkedSeed := withoutAttributes_of_not_mem (by decide)
  have hCode : withoutAttributes "typedef struct  \x7b ".toList = "typedef struct  \x7b ".toList :=
    withoutAttributes_of_not_mem (by decide)
  have hCommentless : IsCommentless "typedef struct  \x7b ".toList := by decide
  refine ⟨⟨by decide, ?_⟩, ⟨by decide, ?_⟩⟩
  · rw [hSeed, hRemarked.withoutComments_eq, hCode]
    exact hRemarked
  · rw [withoutComments_of_isCommentless hCommentless, hCode]
    exact .code hCommentless

/-- What is left of the declaration. -/
def remarkedCode : Text :=
  joinLines ["typedef struct  \x7b ".toList, "    int left, right; ".toList, "\x7d pair_t; ".toList]

theorem DataType.read?_remarkedSeed :
    (DataType.read? remarkedSeed (joinLines [remarkedSeed, "    int left, right; // not a struct box".toList,
      "\x7d pair_t; /* struct pair */".toList]) {} "a.h".toList 1).map DataType.declared =
        some (.struct, "pair_t".toList) :=
  (@DataType.read?_remarked _ _ _ remarkedCode
    (Or.inr ⟨isQuietSeed_remarkedSeed.1, isQuietSeed_remarkedSeed.2, by decide⟩) (by decide) {} "a.h".toList
    1).trans (by decide)

/-- A comment on the seed line makes a struct of a typedef. -/
theorem DataType.not_forall_read?_remarked :
    ¬∀ seedLine seedLine' declaration declaration', withoutComments seedLine = withoutComments seedLine' →
      (lines declaration).map withoutComments = (lines declaration').map withoutComments →
        ∀ doc file line, (DataType.read? seedLine declaration doc file line).map DataType.declared =
          (DataType.read? seedLine' declaration' doc file line).map DataType.declared := by
  intro h
  have hSame := h "typedef int size_type; // as in struct box".toList "typedef int size_type; // a count".toList
    "typedef int size_type; // as in struct box".toList "typedef int size_type; // a count".toList
    (by decide) (by decide) {} "a.h".toList 1
  exact absurd hSame (by decide)

end HeaderDigest
