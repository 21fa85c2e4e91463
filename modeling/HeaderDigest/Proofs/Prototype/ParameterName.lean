import HeaderDigest.Proofs.Declarator.Lossless
import HeaderDigest.Proofs.Grammar.Unnamed
import HeaderDigest.Proofs.Prototype.Record

/-!
# Names of parameters

The name of a parameter is one word, or it begins with an identifier and goes on with the words behind that,
as those of an attribute. It goes on only if the last word of the parameter cannot be a name, and nothing can
be noted on such a name.
-/

namespace HeaderDigest

open Text

/-- A name of one word. If it is ASCII it is an identifier. A word that belongs to a type is one only behind
a function pointer, or behind a type in angle brackets. -/
structure IsSingleName (type name : Text) : Prop where
  word : isWordName name = true
  identifier : (∀ c ∈ name, c.toNat < 128) → isIdentifier name = true
  typeWord : isTypeWord name = true →
    (∃ front opening arguments, IsFunctionPointer type front opening arguments []) ∨ ('<' ∈ type ∧ '>' ∈ type)

/-- A name that begins with `word` and has the words in `more` behind it. -/
structure GoesOn (name word : Text) (more : List Text) : Prop where
  text : name = joinWords (word :: more)
  identifier : isIdentifier word = true
  typeWord : isTypeWord word = false
  words : ∀ w ∈ more, IsWord w
  last : ∃ last ∈ more.getLast?, canName last = false

theorem IsSingleName.of_isIdentifier {type name : Text} (h : isIdentifier name = true)
    (hType : isTypeWord name = true →
      (∃ front opening arguments, IsFunctionPointer type front opening arguments []) ∨
      ('<' ∈ type ∧ '>' ∈ type)) : IsSingleName type name :=
  ⟨isWordName_of_isIdentifier h, fun _ => h, hType⟩

theorem isIdentifier_of_isWordName {name : Text} (h : isWordName name = true)
    (hAscii : ∀ c ∈ name, c.toNat < 128) : isIdentifier name = true := by
  cases name with
  | nil => cases h
  | cons c rest =>
    obtain ⟨hStart, hRest⟩ := Bool.and_eq_true_iff.mp h
    refine Bool.and_eq_true_iff.mpr ⟨hStart, List.all_eq_true.mpr fun d hd => ?_⟩
    have hWord : isWordChar d = true := List.all_eq_true.mp hRest d hd
    rwa [isWordChar, if_pos (hAscii d (List.mem_cons_of_mem c hd))] at hWord

/-- A name that goes on has a space in it. -/
theorem GoesOn.space {name word : Text} {more : List Text} (h : GoesOn name word more) : ' ' ∈ name := by
  obtain ⟨last, hLast, -⟩ := h.last
  obtain ⟨first, rest, rfl⟩ := List.exists_cons_of_ne_nil (List.ne_nil_of_mem (List.mem_of_getLast? hLast))
  rw [h.text, joinWords_cons_cons]
  simp

theorem Text.exists_eq_append_last {s last : Text} {ws : List Text} (hEnd : endsBlank s = false)
    (hWords : words s = ws ++ [last]) (hMore : ws ≠ []) :
    ∃ front b, isBlank b = true ∧ s = front ++ b :: last ∧ words front = ws := by
  have hSingle {tail : Text} (hNe : tail ≠ []) (hTail : ∀ c ∈ tail, isBlank c = false) : words tail = [tail] :=
    runs_of_forall hNe fun c hc => by rw [hTail c hc]; rfl
  have hBlank : ∃ c ∈ s, isBlank c = true := by
    by_contra hNone
    simp only [not_exists, not_and, Bool.not_eq_true] at hNone
    have hNe : s ≠ [] := by
      rintro rfl
      simp [words, runs] at hWords
    rw [hSingle hNe hNone, ← List.nil_append [s]] at hWords
    exact hMore (List.append_inj' hWords rfl).1.symm
  obtain ⟨front, b, tail, rfl, hb, hTail⟩ := exists_eq_append_blank hBlank
  have hNe : tail ≠ [] := by
    rintro rfl
    rw [endsBlank, List.getLast?_concat, Option.any_some, hb] at hEnd
    cases hEnd
  rw [words, runs_append_cons_of_neg (by rw [hb]; rfl)] at hWords
  have hSplit := (congrArg (words front ++ ·) (hSingle hNe hTail).symm).trans hWords
  obtain ⟨hFront, hSame⟩ := List.append_inj' hSplit rfl
  exact ⟨front, b, hb, by rw [List.singleton_inj.mp hSame], hFront⟩

namespace Declarator

theorem mem_runs_of_mem_words {s word : Text} (hWord : word ∈ words s)
    (hIdentifier : isIdentifier (word.dropWhile (· == '*')) = true) :
    word.dropWhile (· == '*') ∈ runs (fun d => !isBlank d && d != '*') s := by
  have hStars : ∀ c ∈ word.takeWhile (· == '*'), (!isBlank c && c != '*') = false := by
    intro c hc
    rw [beq_iff_eq.mp (List.mem_takeWhile_imp (p := (· == '*')) hc)]
    rfl
  have hName : ∀ c ∈ word.dropWhile (· == '*'), (!isBlank c && c != '*') = true := by
    intro c hc
    have hChar := isNameChar_of_mem hIdentifier c hc
    have hStar : c ≠ '*' := by
      rintro rfl
      cases hChar
    simp [isBlank_of_isNameChar hChar, hStar]
  rw [runs_eq_flatMap_words (fun c hc => by simp [hc]), List.mem_flatMap]
  have hRuns := runs_append_left_of_neg hStars (word.dropWhile (· == '*'))
  rw [List.takeWhile_append_dropWhile, runs_of_forall (isWord_of_isIdentifier hIdentifier).1 hName] at hRuns
  exact ⟨word, hWord, hRuns ▸ List.mem_cons_self⟩

/-- The last word is the name if it can be, and so can one before it. -/
theorem exists_ofLastWord? {s word last : Text} {before rest : List Text} (hLine : '\n' ∉ s)
    (hEnd : endsBlank s = false) (hWords : words s = before ++ word :: rest ++ [last])
    (hWord : isIdentifier (word.dropWhile (· == '*')) = true)
    (hTypeWord : isTypeWord (word.dropWhile (· == '*')) = false) (hLast : canName last = true) :
    ∃ declarator, ofLastWord? s = some declarator := by
  obtain ⟨front, b, hb, rfl, hFront⟩ := exists_eq_append_last hEnd hWords (by simp)
  obtain ⟨hName, hNameWord⟩ := Bool.and_eq_true_iff.mp hLast
  have hStars := List.takeWhile_append_dropWhile (p := (· == '*')) (l := last)
  obtain ⟨type, c, hType, hc⟩ : ∃ type c, front ++ b :: last.takeWhile (· == '*') = type ++ [c] ∧
      (isBlank c = true ∨ c = '*') := by
    obtain hNil | ⟨init, c, hInit⟩ := List.eq_nil_or_concat' (last.takeWhile (· == '*'))
    · exact ⟨front, b, by rw [hNil], Or.inl hb⟩
    · refine ⟨front ++ b :: init, c, by rw [hInit]; simp, Or.inr ?_⟩
      have hLast : c ∈ last.takeWhile (· == '*') := hInit ▸ List.mem_append_right init List.mem_cons_self
      exact beq_iff_eq.mp (List.mem_takeWhile_imp (p := (· == '*')) hLast)
  have hText : front ++ b :: last = type ++ [c] ++ last.dropWhile (· == '*') := by
    rw [← hType]
    conv => lhs; rw [← hStars]
    simp
  have hBase : (runs (fun d => !isBlank d && d != '*') (type ++ [c])).any (!isQualifier ·) = true := by
    have hMem := mem_runs_of_mem_words (s := front) (by rw [hFront]; simp) hWord
    have hQualifier := (Bool.or_eq_false_iff.mp hTypeWord).2
    rw [← hType, runs_append_cons_of_neg (by simp [hb]), List.any_eq_true]
    exact ⟨_, List.mem_append_left _ hMem, by rw [hQualifier]; rfl⟩
  have hTypeLine : '\n' ∉ type := by
    rw [hText] at hLine
    exact fun hFeed => hLine (by simp [hFeed])
  rw [hText]
  exact ⟨_, ofLastWord?_append hc hTypeLine hName (by simpa using hNameWord) hBase⟩

theorem isSingleName_of_ofLastWord? {s : Text} {declarator : Declarator} (h : ofLastWord? s = some declarator) :
    IsSingleName declarator.type declarator.name := by
  unfold ofLastWord? at h
  simp only at h
  split at h
  · cases h
  · split at h
    · rename_i hGuard
      cases h
      simp only [Bool.and_eq_true, Bool.not_eq_true'] at hGuard
      obtain ⟨⟨⟨-, hWord⟩, -⟩, hTypeWord⟩ := hGuard
      refine ⟨hWord, isIdentifier_of_isWordName hWord, fun hType => ?_⟩
      rw [hTypeWord] at hType
      cases hType
    · cases h

/-- Words are read for a name only if the last of them is none. -/
theorem name_ofWords {s : Text} (hLine : '\n' ∉ s) (hEnd : endsBlank s = false) (h : ofLastWord? s = none) :
    (ofWords s).name = [] ∨ IsSingleName (ofWords s).type (ofWords s).name ∨
      ∃ word more, GoesOn (ofWords s).name word more := by
  unfold ofWords
  split
  · rename_i type name hSplit
    obtain ⟨before, word, rest, hWords, -, rfl, hWord, hTypeWord⟩ := exists_of_splitName? hSplit
    obtain rfl | ⟨init, last, rfl⟩ := List.eq_nil_or_concat' rest
    · refine Or.inr (Or.inl ?_)
      rw [joinWords_singleton]
      refine .of_isIdentifier hWord fun hType => ?_
      rw [hTypeWord] at hType
      cases hType
    · refine Or.inr (Or.inr ⟨_, _, rfl, hWord, hTypeWord, fun w hw => ?_, last, by simp, ?_⟩)
      · have hRest := List.mem_append_right before (List.mem_cons_of_mem word hw)
        exact isWord_of_mem_words (hWords ▸ hRest)
      · rw [Bool.eq_false_iff]
        intro hLast
        rw [← List.cons_append, ← List.append_assoc] at hWords
        obtain ⟨declarator, hSome⟩ := exists_ofLastWord? hLine hEnd hWords hWord hTypeWord hLast
        rw [h] at hSome
        cases hSome
  · exact Or.inl rfl

theorem name_ofPlain {s : Text} (hLine : '\n' ∉ s) :
    (ofPlain s).name = [] ∨ IsSingleName (ofPlain s).type (ofPlain s).name ∨
      ∃ word more, GoesOn (ofPlain s).name word more := by
  obtain ⟨base, sizes, hEnds, hBase⟩ := exists_endsInSizes hLine
  have hBaseLine : '\n' ∉ trim base := by
    rw [hEnds.text] at hLine
    exact fun hFeed => hLine (List.mem_append_left sizes (mem_of_mem_trim hFeed))
  have hPlain : ofPlain s = (ofLastWord? (trim base)).getD (ofWords (trim base)) := by rw [ofPlain, hBase]
  rw [hPlain]
  cases hLast : ofLastWord? (trim base) with
  | some declarator => exact Or.inr (Or.inl (isSingleName_of_ofLastWord? hLast))
  | none => exact name_ofWords hBaseLine (trimmed_trim base).2 hLast

/-- The angle brackets are in no name, so they stay with the type. -/
theorem name_ofAngled {s : Text} (hOpen : '<' ∈ s) (hClose : '>' ∈ s) :
    (ofAngled s).name = [] ∨ IsSingleName (ofAngled s).type (ofAngled s).name := by
  refine (isIdentifier_name_ofAngled s).imp_right fun hName => ?_
  have hMem {c : Char} (hc : c ∈ s) (hBlank : isBlank c = false) (hNot : isNameChar c = false) :
      c ∈ (ofAngled s).type := by
    have hFilter : c ∈ s.filter (!isBlank ·) := List.mem_filter.mpr ⟨hc, by rw [hBlank]; rfl⟩
    rw [← filter_ofAngled] at hFilter
    exact (List.mem_append.mp (List.mem_of_mem_filter hFilter)).resolve_right (not_mem_of_isIdentifier hName hNot)
  exact .of_isIdentifier hName fun _ => Or.inr ⟨hMem hOpen rfl rfl, hMem hClose rfl rfl⟩

theorem name_cases {s : Text} (hLine : '\n' ∉ s) :
    (read s).name = [] ∨ IsSingleName (read s).type (read s).name ∨
      ∃ word more, GoesOn (read s).name word more := by
  by_cases hPointer : ∃ front opening arguments after, IsFunctionPointer s front opening arguments after
  · obtain ⟨front, opening, arguments, after, h⟩ := hPointer
    rw [read_functionPointer h (h.not_mem_front hLine)]
    dsimp only
    split
    · rename_i hName
      exact Or.inr (Or.inl (.of_isIdentifier hName fun _ => Or.inl ⟨_, _, _, h.type⟩))
    · exact Or.inl rfl
  · rw [read_of_not_functionPointer hPointer]
    split
    · rename_i hAngles
      exact (name_ofAngled ((mem_trim rfl).mpr hAngles.1) ((mem_trim rfl).mpr hAngles.2)).imp_right Or.inl
    · exact name_ofPlain fun hFeed => hLine (mem_of_mem_trim hFeed)

end Declarator

namespace Function

theorem exists_of_mem_readParameters {list : Text} {doc : Doc} {parameter : Parameter}
    (h : parameter ∈ readParameters list doc) : ∃ piece ∈ splitTopLevel list, parameter =
      ⟨(Declarator.read piece).type, (Declarator.read piece).name, doc.param (Declarator.read piece).name⟩ := by
  unfold readParameters at h
  split at h
  · cases h
  · obtain ⟨declarator, hPiece, hRead⟩ := List.mem_filterMap.mp h
    obtain ⟨piece, hMem, rfl⟩ := List.mem_map.mp hPiece
    split at hRead
    · cases hRead
    · exact ⟨piece, hMem, (Option.some.inj hRead).symm⟩

/-- A parameter is on one line, whatever the declaration. -/
theorem not_mem_parameter {declaration head list piece : Text} {parts : Head}
    (h : HasParts declaration head list parts) (hPiece : piece ∈ splitTopLevel list) : '\n' ∉ piece := by
  obtain ⟨body, before, gap, inner, hBody, hCut, -, rfl⟩ := exists_isCut_of_hasParts h
  obtain ⟨hSpaced, -⟩ := singleSpaced_declarationBody? hBody
  intro hFeed
  have hInner : '\n' ∈ inner := mem_of_mem_trim (mem_of_mem_splitTopLevel hPiece hFeed)
  have hMem : '\n' ∈ body := by
    rw [hCut.text]
    simp [hInner]
  exact absurd (hSpaced.eq_space hMem (by decide)) (by decide)

/-- A parameter has no name, a name of one word, or one that goes on and that nothing is noted on. -/
theorem parameterName_cases {declaration : Text} {doc : Doc} {file : Text} {line : Nat} {includePrivate : Bool}
    {record : Function} (h : Function.read declaration doc file line includePrivate = .ok record) :
    ∀ parameter ∈ record.parameters, parameter.name = [] ∨ IsSingleName parameter.type parameter.name ∨
      ∃ word more, GoesOn parameter.name word more ∧
        ∀ comment, doc = Doc.read comment → parameter.description = [] := by
  obtain ⟨head, list, parts, hParts, -, rfl⟩ := Function.exists_hasParts_of_read h
  intro parameter hParameter
  obtain ⟨piece, hPiece, rfl⟩ := exists_of_mem_readParameters hParameter
  obtain hNil | hSingle | ⟨word, more, hName⟩ := Declarator.name_cases (not_mem_parameter hParts hPiece)
  · exact Or.inl hNil
  · exact Or.inr (Or.inl hSingle)
  · refine Or.inr (Or.inr ⟨word, more, hName, ?_⟩)
    rintro comment rfl
    exact Doc.param_read_eq_nil hName.space rfl comment

def useText : Text := "void use(int n __attribute__((unused)), const char *label);".toList

def useComment : Text := "/** @param n not read @param label the label */".toList

def useFunction : Function where
  name := "use".toList
  returnType := "void".toList
  parameters := [⟨"int".toList, "n __attribute__((unused))".toList, []⟩,
    ⟨"const char *".toList, "label".toList, "the label".toList⟩]
  brief := []
  description := []
  file := "a.h".toList
  line := 1

theorem read_useText : Function.read useText (Doc.read useComment) "a.h".toList 1 true = .ok useFunction := by
  rfl

theorem parameterName_cases_use :
    Function.read useText (Doc.read useComment) "a.h".toList 1 true = .ok useFunction ∧
      ∀ parameter ∈ useFunction.parameters, parameter.name = [] ∨ IsSingleName parameter.type parameter.name ∨
        ∃ word more, GoesOn parameter.name word more ∧
          ∀ comment, Doc.read useComment = Doc.read comment → parameter.description = [] :=
  ⟨read_useText, parameterName_cases read_useText⟩

/-- What is noted on `n` does not reach the parameter, whose name has the attribute in it. -/
theorem not_forall_isIdentifier_parameterName :
    ¬∀ (declaration : Text) (doc : Doc) (file : Text) (line : Nat) (includePrivate : Bool) (record : Function),
      Function.read declaration doc file line includePrivate = .ok record →
        ∀ parameter ∈ record.parameters, parameter.name = [] ∨
          (isIdentifier parameter.name = true ∧ isTypeWord parameter.name = false) := by
  intro h
  have hNames := h _ _ _ _ _ _ read_useText ⟨"int".toList, "n __attribute__((unused))".toList, []⟩ (by decide)
  exact absurd hNames (by decide)

end Function

end HeaderDigest
