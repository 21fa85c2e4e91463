import HeaderDigest.Header.Survey
import HeaderDigest.Proofs.Header.Assembly
import HeaderDigest.Proofs.Prototype.Reading
import HeaderDigest.Proofs.Prototype.Shape
import HeaderDigest.Proofs.Prototype.Signature

/-!
# What is read as a prototype

A declaration gives a record exactly if its text can be cut into a return type, a name and a
parameter list. Only parentheses count in this, and braces are characters like others. So the
beginning of a function with its body, up to a call in it that ends in a semicolon, is read as the
prototype of the function that is called.
-/

namespace HeaderDigest

open Text

/-- A body is cut before its last word ahead of the parameter list. -/
structure IsCut (body before name gap list : Text) : Prop where
  text : body = before ++ name ++ gap ++ '(' :: list ++ [')']
  enclosed : Enclosed '(' ')' list
  gap_blank : ∀ c ∈ gap, isBlank c = true
  identifier : isIdentifier name = true
  functionName : nonFunctionWords.contains name = false
  wordStart : ∀ c ∈ before.getLast?, isWordChar c = false
  alphanum : before.any Char.isAlphanum = true

/-- The head of a body that is cut. -/
theorem IsCut.lastWordHead {body before name gap list : Text} (h : IsCut body before name gap list) :
    trimEnd (before ++ name ++ gap) = before ++ name ∧
      lastWordHead (before ++ name) = ⟨trim before, name⟩ := by
  have hWord := isWord_of_isIdentifier h.identifier
  have hEnd : endsBlank (before ++ name) = false := by
    rw [endsBlank_append _ hWord.1]
    exact hWord.trimmed.2
  refine ⟨?_, ?_⟩
  · rw [trimEnd_append_of_blank _ h.gap_blank, trimEnd_eq_self hEnd]
  · rw [HeaderDigest.lastWordHead,
      splitEnding_isWordChar (isWordName_of_isIdentifier h.identifier) (endsWord_eq_false_iff.mpr h.wordStart)]

theorem IsCut.trim_before_ne_nil {body before name gap list : Text} (h : IsCut body before name gap list) :
    trim before ≠ [] := by
  intro hNil
  have hAlphanum := (any_isAlphanum_trim before).trans h.alphanum
  rw [hNil] at hAlphanum
  cases hAlphanum

/-- What stands in front of a body goes into the return type. -/
theorem IsCut.append_left {body before name gap list : Text} (h : IsCut body before name gap list)
    (front : Text) : IsCut (front ++ body) (front ++ before) name gap list where
  text := by
    rw [h.text]
    simp
  enclosed := h.enclosed
  gap_blank := h.gap_blank
  identifier := h.identifier
  functionName := h.functionName
  wordStart := by
    have hNe : before ≠ [] := by
      rintro rfl
      exact h.trim_before_ne_nil rfl
    rw [List.getLast?_append, List.getLast?_eq_some_getLast hNe, Option.some_or,
      ← List.getLast?_eq_some_getLast hNe]
    exact h.wordStart
  alphanum := by
    rw [List.any_append, h.alphanum, Bool.or_true]

/-- A body and a beginning of it are not cut into the same return type and name: the list of the longer
one would hold the parenthesis that ends the shorter one, and this closes nothing there. -/
theorem IsCut.eq_nil_of_append {body rest before before' name gap gap' list list' : Text}
    (h : IsCut (body ++ rest) before name gap list) (h' : IsCut body before' name gap' list')
    (hType : trim before = trim before') : rest = [] := by
  obtain ⟨u, v, hu, hv, -, hBefore⟩ := exists_eq_append_trim before
  obtain ⟨u', v', hu', hv', -, hBefore'⟩ := exists_eq_append_trim before'
  rw [← hType] at hBefore'
  have hWord := isWord_of_isIdentifier h.identifier
  have hText : u ++ (trim before ++ (v ++ (name ++ (gap ++ '(' :: (list ++ [')']))))) =
      u' ++ (trim before ++ (v' ++ (name ++ (gap' ++ '(' :: (list' ++ ')' :: rest))))) := by
    have hAll := h.text
    rw [h'.text, hBefore, hBefore'] at hAll
    simpa using hAll.symm
  have hTypeStart (t : Text) : startsBlank (trim before ++ t) = false := by
    rw [startsBlank_append t h.trim_before_ne_nil]
    exact (trimmed_trim before).1
  have hNameStart (t : Text) : startsBlank (name ++ t) = false := by
    rw [startsBlank_append t hWord.1]
    exact hWord.trimmed.1
  obtain ⟨-, hText⟩ := eq_of_blank_append_eq hu hu' (hTypeStart _) (hTypeStart _) hText
  obtain ⟨-, hText⟩ := eq_of_blank_append_eq hv hv' (hNameStart _) (hNameStart _)
    (List.append_cancel_left hText)
  obtain ⟨-, hText⟩ := eq_of_blank_append_eq h.gap_blank h'.gap_blank rfl rfl
    (List.append_cancel_left hText)
  rcases List.eq_nil_or_concat rest with hNil | ⟨more, c, rfl⟩
  · exact hNil
  · have hLists : list ++ [')'] = (list' ++ ')' :: more) ++ [c] := by simpa using hText
    have hList := (List.append_inj' hLists rfl).1
    have hTotal := h.enclosed.total
    have hMore := h.enclosed.endings more (hList ▸ ⟨list' ++ [')'], by simp⟩)
    rw [hList, balance_append, balance_cons, balance_closing (by decide), h'.enclosed.total] at hTotal
    omega

theorem hasParts_of_isCut {declaration body before name gap inner : Text}
    (hBody : declarationBody? declaration = some body) (h : IsCut body before name gap inner) :
    HasParts declaration (before ++ name) (trim inner) ⟨trim before, name⟩ := by
  obtain ⟨hHead, hLast⟩ := h.lastWordHead
  obtain ⟨hSpaced, hStart⟩ := singleSpaced_declarationBody? hBody
  have hText : body = before ++ name ++ (gap ++ '(' :: inner ++ [')']) := by
    rw [h.text]
    simp
  rw [hText] at hSpaced hStart
  refine ⟨?_, ?_, h.identifier, h.functionName⟩
  · rw [hBody, Option.bind_some, splitSignature?_eq_some_iff]
    exact ⟨before ++ name ++ gap, inner, h.text, h.enclosed, hHead.symm, rfl⟩
  · rw [matchShape?_eq_some_iff hSpaced.of_append_left (startsBlank_left hStart), hLast]
    exact ⟨isWordName_of_isIdentifier h.identifier, (any_isAlphanum_trim before).trans h.alphanum, rfl⟩

theorem exists_isCut_of_hasParts {declaration head list : Text} {parts : Head}
    (h : HasParts declaration head list parts) :
    ∃ body before gap inner, declarationBody? declaration = some body ∧
      IsCut body before parts.name gap inner ∧ parts.returnType = trim before ∧ list = trim inner := by
  obtain ⟨body, hBody, hSignature⟩ := Option.bind_eq_some_iff.mp h.signature
  obtain ⟨front, inner, rfl, hEnclosed, rfl, hList⟩ := (splitSignature?_eq_some_iff _ head list).mp hSignature
  obtain ⟨gap, hGap, hFront⟩ := exists_eq_trimEnd_append front
  obtain ⟨hSpaced, hStart⟩ := singleSpaced_declarationBody? hBody
  rw [hFront, List.append_assoc, List.append_assoc] at hSpaced hStart
  obtain ⟨-, hAlphanum, rfl⟩ := (matchShape?_eq_some_iff hSpaced.of_append_left
    (startsBlank_left hStart) parts).mp h.shape
  have hHead := fst_append_snd_splitEnding isWordChar (trimEnd front)
  refine ⟨_, (splitEnding isWordChar (trimEnd front)).1, gap, inner, hBody, ?_, rfl, hList⟩
  exact {
    text := by
      rw [lastWordHead, hHead, ← hFront]
    enclosed := hEnclosed
    gap_blank := hGap
    identifier := h.identifier
    functionName := h.functionName
    wordStart := getLast?_fst_splitEnding isWordChar (trimEnd front)
    alphanum := (any_isAlphanum_trim _).symm.trans hAlphanum }

section Read

variable {declaration : Text} {doc : Doc} {file : Text} {line : Nat} {includePrivate : Bool}

theorem Function.exists_isCut_of_read {record : Function}
    (h : Function.read declaration doc file line includePrivate = .ok record) :
    ∃ body before name gap inner, declarationBody? declaration = some body ∧
      IsCut body before name gap inner ∧ (includePrivate = true ∨ isPrivateName name = false) ∧
        record = Function.ofParts (trim inner) ⟨trim before, name⟩ doc file line := by
  obtain ⟨head, list, parts, hParts, hShown, rfl⟩ := Function.exists_hasParts_of_read h
  obtain ⟨body, before, gap, inner, hBody, hCut, hType, rfl⟩ := exists_isCut_of_hasParts hParts
  refine ⟨body, before, parts.name, gap, inner, hBody, hCut, hShown, ?_⟩
  rw [← hType]

theorem Function.read_of_isCut {body before name gap inner : Text} (hBody : declarationBody? declaration = some body)
    (hCut : IsCut body before name gap inner) (hShown : includePrivate = true ∨ isPrivateName name = false) :
    Function.read declaration doc file line includePrivate =
      .ok (Function.ofParts (trim inner) ⟨trim before, name⟩ doc file line) := by
  rw [Function.read_of_hasParts (hasParts_of_isCut hBody hCut)]
  apply if_neg
  intro hHidden
  rw [Bool.and_eq_true, Bool.not_eq_true'] at hHidden
  obtain h | h := hShown
  · exact absurd (h.symm.trans hHidden.1) (by decide)
  · exact absurd (h.symm.trans hHidden.2) (by decide)

end Read

/-- A declaration is read if and only if its body can be cut and its name may be shown, and then the
record holds the parts. Whether there is a brace in it, and where, does not matter. -/
theorem Function.read_eq_ok_iff (declaration : Text) (doc : Doc) (file : Text) (line : Nat)
    (includePrivate : Bool) (record : Function) :
    Function.read declaration doc file line includePrivate = .ok record ↔
      ∃ body before name gap inner, declarationBody? declaration = some body ∧
        IsCut body before name gap inner ∧ (includePrivate = true ∨ isPrivateName name = false) ∧
          record = Function.ofParts (trim inner) ⟨trim before, name⟩ doc file line := by
  constructor
  · exact Function.exists_isCut_of_read
  · rintro ⟨body, before, name, gap, inner, hBody, hCut, hShown, rfl⟩
    exact Function.read_of_isCut hBody hCut hShown

/-- A function that is defined where it is declared. -/
def squareText : Text :=
  "/** @brief Square. */\nstatic inline int sq(int x)\n\x7b\n    return mul(x, x);\n\x7d\n".toList

/-- The function that the body of `sq` calls. -/
def calledFunction : Function where
  name := "mul".toList
  returnType := "static inline int sq(int x) ".toList ++ '{' :: " return".toList
  parameters := [⟨"x".toList, [], []⟩, ⟨"x".toList, [], []⟩]
  brief := "Square.".toList
  description := []
  file := "a.h".toList
  line := 2

theorem Header.not_forall_prototype :
    ¬∀ (text filename path : Text) (includePrivate : Bool),
      ∀ record ∈ (Header.read text filename path includePrivate).functions, '{' ∉ record.returnType := by
  intro h
  have hSurvey : (survey "a.h".toList false (lines squareText)).filterMap Finding.function? =
      [calledFunction] := by decide
  have hFunction : calledFunction ∈
      (Header.read squareText "a.h".toList "a.h".toList false).functions := by
    refine (mem_collected_iff Function.name _ calledFunction).mpr ?_
    rw [hSurvey]
    decide
  exact h squareText "a.h".toList "a.h".toList false calledFunction hFunction (by decide)

end HeaderDigest
