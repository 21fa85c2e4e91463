import HeaderDigest.Proofs.Prototype.Form
import HeaderDigest.Proofs.Text.Respaced

/-!
# Prototypes with attributes

The attributes behind a parameter list are taken off with one cut, before the first place where an
attribute opens. If this place is in the prototype itself, a part of the prototype goes with them.
An attribute in front of a prototype is the first place, and the cut is made there as soon as the
prototype ends in two parentheses: then nothing is left. Otherwise no cut is made, and what stands
in front goes into the return type.
-/

namespace HeaderDigest

open Text

/-- An attribute with what is said in it. -/
def attributeText (said : Text) : Text := "__attribute__((".toList ++ said ++ "))".toList

/-- Attributes one behind the other, with what stands before each. -/
def attributesText (attributes : List (Text × Text)) : Text :=
  attributes.flatMap fun (gap, said) => gap ++ attributeText said

theorem attributesText_cons (gap said : Text) (attributes : List (Text × Text)) :
    attributesText ((gap, said) :: attributes) =
      gap ++ (attributeText said ++ attributesText attributes) :=
  List.flatMap_cons.trans (List.append_assoc _ _ _)

theorem OpensAttribute.normalized {s : Text} (h : OpensAttribute s) : OpensAttribute (normalize s) := by
  obtain ⟨blanks, inner, hBlanks, rfl⟩ := h
  obtain ⟨gap, hGap, hWord⟩ :=
    exists_normalize_append "__attribute__".toList (blanks ++ (['(', '('] ++ inner))
  obtain ⟨glue, -, hOpen⟩ := exists_normalize_append ['(', '('] inner
  have hNormal : normalize "__attribute__".toList = "__attribute__".toList ∧
      normalize ['(', '('] = ['(', '('] := by decide
  rw [normalize_append_left_of_blank hBlanks, hOpen, hNormal.1, hNormal.2] at hWord
  refine ⟨gap, glue ++ normalize inner, blank_of_glue hGap, ?_⟩
  rw [List.append_assoc]
  exact hWord

theorem isAttributeTail_normalize {s : Text} (h : isAttributeTail s = true) :
    isAttributeTail (normalize s) = true := by
  obtain ⟨hOpens, front, rfl⟩ := isAttributeTail_iff.mp h
  obtain ⟨glue, -, hText⟩ := exists_normalize_append front [')', ')']
  refine isAttributeTail_iff.mpr ⟨hOpens.normalized, ?_⟩
  rw [hText]
  exact List.suffix_append _ _

theorem opensAttribute_attributeText (said : Text) : OpensAttribute (attributeText said) := by
  refine ⟨[], said ++ [')', ')'], List.forall_mem_nil _, ?_⟩
  unfold attributeText
  simp

theorem suffix_attributesText (said : Text) (attributes : List (Text × Text)) :
    [')', ')'] <:+ attributeText said ++ attributesText attributes := by
  induction attributes generalizing said with
  | nil =>
    rw [attributesText, List.flatMap_nil, List.append_nil]
    exact List.suffix_append _ _
  | cons next attributes ih =>
    rw [attributesText_cons, ← List.append_assoc]
    exact (ih next.2).trans (List.suffix_append _ _)

theorem isAttributeTail_attributesText {attributes : List (Text × Text)} (hNe : attributes ≠ [])
    (hGaps : ∀ placed ∈ attributes, ∀ c ∈ placed.1, isBlank c = true) :
    isAttributeTail (normalize (attributesText attributes)) = true := by
  obtain ⟨⟨gap, said⟩, rest, rfl⟩ := List.exists_cons_of_ne_nil hNe
  rw [attributesText_cons, normalize_append_left_of_blank (hGaps _ List.mem_cons_self)]
  apply isAttributeTail_normalize
  exact isAttributeTail_iff.mpr
    ⟨(opensAttribute_attributeText said).append _, suffix_attributesText said rest⟩

theorem declarationBody?_of_semicolon {tail : Text} (hTail : ∀ c ∈ tail, isBlank c = true) (s : Text) :
    declarationBody? (s ++ ';' :: tail) = some (withoutAttributeTail (normalize s)) := by
  obtain ⟨glue, hGlue, hText⟩ := exists_normalize_append s [';']
  have hDeclaration : normalize (s ++ ';' :: tail) = normalize s ++ glue ++ [';'] := by
    rw [List.append_cons, normalize_append_of_blank hTail, hText]
    rfl
  rw [declarationBody?, hDeclaration, dropSuffix?_append, Option.map_some,
    trimEnd_append_of_blank _ (blank_of_glue hGlue), trimEnd_eq_self (singleSpaced_normalize s).2.2]

theorem declarationBody?_of_closing {gap tail : Text} (hGap : ∀ c ∈ gap, isBlank c = true)
    (hTail : ∀ c ∈ tail, isBlank c = true) (front : Text) :
    declarationBody? (front ++ ')' :: gap ++ ';' :: tail) =
      some (withoutAttributeTail (normalize (front ++ [')']))) := by
  rw [declarationBody?_of_semicolon hTail, List.append_cons, normalize_append_of_blank hGap]

theorem exists_declarationBody?_attributesText {gap tail : Text} (hGap : ∀ c ∈ gap, isBlank c = true)
    (hTail : ∀ c ∈ tail, isBlank c = true) (front : Text) {attributes : List (Text × Text)}
    (hNe : attributes ≠ []) (hGaps : ∀ placed ∈ attributes, ∀ c ∈ placed.1, isBlank c = true) :
    ∃ glue behind, (∀ c ∈ glue, isBlank c = true) ∧ isAttributeTail behind = true ∧
      declarationBody? (front ++ ')' :: attributesText attributes ++ gap ++ ';' :: tail) =
        some (withoutAttributeTail (normalize (front ++ [')']) ++ glue ++ behind)) := by
  obtain ⟨glue, hGlue, hText⟩ := exists_normalize_append (front ++ [')']) (attributesText attributes)
  refine ⟨glue, _, blank_of_glue hGlue, isAttributeTail_attributesText hNe hGaps, ?_⟩
  rw [declarationBody?_of_semicolon hTail, normalize_append_of_blank hGap, List.append_cons, hText]

theorem exists_normalize_closing (front : Text) : ∃ stem, normalize (front ++ [')']) = stem ++ [')'] := by
  obtain ⟨glue, -, hText⟩ := exists_normalize_append front [')']
  exact ⟨normalize front ++ glue, hText⟩

variable {doc : Doc} {file : Text} {line : Nat} {includePrivate : Bool} {record : Function}

theorem Function.read_of_body_eq_nil {declaration : Text} (h : declarationBody? declaration = some []) :
    Function.read declaration doc file line includePrivate = .error .missingParameterList := by
  unfold Function.read
  simp only [h]
  rfl

/-- With two parentheses at the end the whole prototype is taken for the rest of the attribute. -/
theorem Function.read_behind_attribute_of_suffix {s tail : Text} (hTail : ∀ c ∈ tail, isBlank c = true)
    (hClose : [')', ')'] <:+ normalize s) (said : Text) {space : Text}
    (hSpace : ∀ c ∈ space, isBlank c = true) :
    Function.read (attributeText said ++ space ++ (s ++ ';' :: tail)) doc file line includePrivate =
      .error .missingParameterList := by
  obtain ⟨glue, -, hText⟩ := exists_normalize_append (attributeText said ++ space) s
  rw [normalize_append_of_blank hSpace] at hText
  have hOpens := ((opensAttribute_attributeText said).normalized.append glue).append (normalize s)
  have hTailAll : isAttributeTail (normalize (attributeText said ++ space ++ s)) = true := by
    rw [hText]
    exact isAttributeTail_iff.mpr ⟨hOpens, hClose.trans (List.suffix_append _ _)⟩
  apply Function.read_of_body_eq_nil
  rw [← List.append_assoc, declarationBody?_of_semicolon hTail, withoutAttributeTail_eq_nil hTailAll]

theorem Function.read_behind_attribute {s tail : Text} (hTail : ∀ c ∈ tail, isBlank c = true)
    (hRead : Function.read (s ++ ';' :: tail) doc file line includePrivate = .ok record)
    (hClose : ¬[')', ')'] <:+ normalize s) (said : Text) {space : Text}
    (hSpace : ∀ c ∈ space, isBlank c = true) :
    ∃ glue, (glue = [] ∨ glue = [' ']) ∧
      Function.read (attributeText said ++ space ++ (s ++ ';' :: tail)) doc file line includePrivate =
        .ok { record with returnType := normalize (attributeText said) ++ glue ++ record.returnType } := by
  obtain ⟨body, before, name, gap, inner, hBody, hCut, hShown, rfl⟩ :=
    Function.exists_isCut_of_read hRead
  obtain ⟨-, hStart⟩ := singleSpaced_declarationBody? hBody
  rw [declarationBody?_of_semicolon hTail, withoutAttributeTail_of_not_suffix hClose] at hBody
  obtain rfl := Option.some.inj hBody
  obtain ⟨glue, hGlue, hText⟩ := exists_normalize_append (attributeText said ++ space) s
  have hOpens := ((opensAttribute_attributeText said).normalized.append glue).append before
  rw [normalize_append_of_blank hSpace] at hText
  refine ⟨glue, hGlue, ?_⟩
  generalize normalize (attributeText said) ++ glue = front at hText hOpens ⊢
  have hCloseAll : ¬[')', ')'] <:+ front ++ normalize s := by
    rw [hCut.text, List.append_assoc, List.cons_append] at hClose ⊢
    rw [← List.append_assoc]
    intro h
    exact hClose ((suffix_of_suffix_append_cons (by decide) h).trans
      ((List.suffix_cons _ _).trans (List.suffix_append _ _)))
  have hAll : declarationBody? (attributeText said ++ space ++ (s ++ ';' :: tail)) =
      some (front ++ normalize s) := by
    rw [← List.append_assoc, declarationBody?_of_semicolon hTail, hText,
      withoutAttributeTail_of_not_suffix hCloseAll]
  have hBefore : startsBlank before = false := by
    rw [hCut.text, List.append_assoc, List.append_assoc, List.append_assoc] at hStart
    exact startsBlank_left hStart
  rw [Function.read_of_isCut hAll (hCut.append_left front) hShown,
    trim_append_of_startsBlank hOpens.startsBlank hBefore hCut.trim_before_ne_nil]
  rfl

/-- A declaration whose body goes on behind the body of another one gives another record. -/
theorem Function.eq_nil_of_read_append {declaration declaration' body rest : Text}
    (hBody : declarationBody? declaration = some (body ++ rest))
    (hBody' : declarationBody? declaration' = some body)
    (hRead : Function.read declaration doc file line includePrivate = .ok record)
    (hRead' : Function.read declaration' doc file line includePrivate = .ok record) : rest = [] := by
  obtain ⟨_, before, name, gap, inner, h, hCut, -, rfl⟩ :=
    Function.exists_isCut_of_read hRead
  obtain ⟨_, before', name', gap', inner', h', hCut', -, hSame⟩ :=
    Function.exists_isCut_of_read hRead'
  obtain rfl := Option.some.inj (hBody.symm.trans h)
  obtain rfl := Option.some.inj (hBody'.symm.trans h')
  obtain rfl : name = name' := congrArg Function.name hSame
  exact hCut.eq_nil_of_append hCut' (congrArg Function.returnType hSame)

theorem Function.read_attributesText_iff {front gap tail : Text} (hGap : ∀ c ∈ gap, isBlank c = true)
    (hTail : ∀ c ∈ tail, isBlank c = true)
    (hRead : Function.read (front ++ ')' :: gap ++ ';' :: tail) doc file line includePrivate = .ok record)
    {attributes : List (Text × Text)} (hNe : attributes ≠ [])
    (hGaps : ∀ placed ∈ attributes, ∀ c ∈ placed.1, isBlank c = true) :
    Function.read (front ++ ')' :: attributesText attributes ++ gap ++ ';' :: tail) doc file line
        includePrivate = .ok record ↔
      AttributeFree (normalize (front ++ [')'])) ∨ [')', ')'] <:+ normalize (front ++ [')']) := by
  have hBody := declarationBody?_of_closing hGap hTail front
  obtain ⟨glue, behind, hGlue, hBehind, hBodyAll⟩ :=
    exists_declarationBody?_attributesText hGap hTail front hNe hGaps
  obtain ⟨stem, hStem⟩ := exists_normalize_closing front
  rw [hStem] at hBody hBodyAll ⊢
  have hSame (h : withoutAttributeTail (stem ++ [')'] ++ glue ++ behind) =
      withoutAttributeTail (stem ++ [')'])) :
      Function.read (front ++ ')' :: attributesText attributes ++ gap ++ ';' :: tail) doc file line
        includePrivate = .ok record := by
    rw [← hRead]
    apply Function.read_eq_of_declarationBody?
    rw [hBodyAll, h, hBody]
  by_cases hFree : AttributeFree (stem ++ [')'])
  · refine iff_of_true (hSame ?_) (Or.inl hFree)
    rw [withoutAttributeTail_append hFree hGlue hBehind, withoutAttributeTail_of_attributeFree hFree]
  · obtain ⟨before, rest, hSplit, hRest, hCut⟩ := exists_cut_of_not_attributeFree hFree
    have hCutAll : withoutAttributeTail (stem ++ [')'] ++ glue ++ behind) = trimEnd before := by
      rw [List.append_assoc]
      apply hCut
      exact (isAttributeTail_iff.mp hBehind).2.trans ⟨_, List.append_assoc _ _ _⟩
    by_cases hClose : [')', ')'] <:+ stem ++ [')']
    · -- The cut is in the prototype, with the attributes behind it and without them.
      refine iff_of_true (hSame ?_) (Or.inr hClose)
      have hCutHere := hCut [] (by rwa [List.append_nil])
      rw [List.append_nil] at hCutHere
      rw [hCutAll, hCutHere]
    · -- Only the attributes bring the end that the cut needs.
      refine iff_of_false ?_ (not_or.mpr ⟨hFree, hClose⟩)
      intro hReadAll
      obtain ⟨blanks, -, hBlanks⟩ := exists_eq_trimEnd_append before
      rw [hBlanks, List.append_assoc] at hSplit
      rw [withoutAttributeTail_of_not_suffix hClose, hSplit] at hBody
      rw [hCutAll] at hBodyAll
      have hNil := Function.eq_nil_of_read_append hBody hBodyAll hRead hReadAll
      exact hRest (List.append_eq_nil_iff.mp hNil).2

/-- Each declaration that is read has a parenthesis and a semicolon at its end. -/
theorem Function.exists_closing_of_read {declaration : Text}
    (hRead : Function.read declaration doc file line includePrivate = .ok record) :
    ∃ front gap tail, declaration = front ++ ')' :: gap ++ ';' :: tail ∧
      (∀ c ∈ gap, isBlank c = true) ∧ ∀ c ∈ tail, isBlank c = true := by
  obtain ⟨body, before, name, gap, inner, hBody, hCut, -, -⟩ :=
    Function.exists_isCut_of_read hRead
  obtain ⟨text, hText, rfl⟩ := Option.map_eq_some_iff.mp hBody
  obtain ⟨stem, tail, glue, rfl, hTail, hGlue, rfl⟩ :=
    exists_of_normalize_eq_concat (by decide) (dropSuffix?_eq_some_iff.mp hText)
  rw [trimEnd_append_of_blank _ hGlue, trimEnd_eq_self (singleSpaced_normalize stem).2.2] at hCut
  obtain ⟨closed, hClosed⟩ := exists_closing_of_withoutAttributeTail hCut.text
  obtain ⟨front, gap, -, rfl, hGap, -, -⟩ := exists_of_normalize_eq_concat (by decide) hClosed
  exact ⟨front, gap, tail, rfl, hGap, hTail⟩

/-- `front` and the parenthesis behind it are a prototype without its semicolon. An attribute in front of
it is read as the beginning of the return type, unless the prototype ends in two parentheses, and then
nothing is read. Attributes behind it change the record only if one opens in the prototype already and
the prototype does not end in two parentheses. -/
theorem Function.read_attributed {front gap tail : Text} (hGap : ∀ c ∈ gap, isBlank c = true)
    (hTail : ∀ c ∈ tail, isBlank c = true)
    (hRead : Function.read (front ++ ')' :: gap ++ ';' :: tail) doc file line includePrivate = .ok record) :
    (∀ said space, (∀ c ∈ space, isBlank c = true) →
      if [')', ')'] <:+ normalize (front ++ [')']) then
        Function.read (attributeText said ++ space ++ (front ++ ')' :: gap ++ ';' :: tail)) doc file line
          includePrivate = .error .missingParameterList
      else
        ∃ glue, (glue = [] ∨ glue = [' ']) ∧
          Function.read (attributeText said ++ space ++ (front ++ ')' :: gap ++ ';' :: tail)) doc file line
            includePrivate =
              .ok { record with
                returnType := normalize (attributeText said) ++ glue ++ record.returnType }) ∧
    ∀ attributes, (∀ placed ∈ attributes, ∀ c ∈ placed.1, isBlank c = true) →
      (Function.read (front ++ ')' :: attributesText attributes ++ gap ++ ';' :: tail) doc file line
          includePrivate = .ok record ↔
        attributes = [] ∨ AttributeFree (normalize (front ++ [')'])) ∨
          [')', ')'] <:+ normalize (front ++ [')'])) := by
  have hText : normalize (front ++ ')' :: gap) = normalize (front ++ [')']) := by
    rw [List.append_cons, normalize_append_of_blank hGap]
  constructor
  · intro said space hSpace
    split
    · rename_i hClose
      exact Function.read_behind_attribute_of_suffix hTail (hText ▸ hClose) said hSpace
    · rename_i hClose
      exact Function.read_behind_attribute hTail hRead (hText ▸ hClose) said hSpace
  · intro attributes hGaps
    by_cases hNe : attributes = []
    · refine iff_of_true ?_ (Or.inl hNe)
      rwa [hNe, attributesText, List.flatMap_nil, ← List.append_cons]
    · rw [Function.read_attributesText_iff hGap hTail hRead hNe hGaps, or_iff_right hNe]

/-- A prototype up to its last parenthesis. -/
def eachText : Text := "int each(int (*visit)(int), int n".toList

def eachFunction : Function where
  name := "each".toList
  returnType := "int".toList
  parameters := [⟨"int (*visit)(int)".toList, [], []⟩, ⟨"int".toList, "n".toList, []⟩]
  brief := []
  description := []
  file := "a.h".toList
  line := 1

theorem Function.read_attributed_each :
    Function.read (eachText ++ ')' :: [] ++ ';' :: []) {} "a.h".toList 1 false = .ok eachFunction ∧
      (∃ glue, (glue = [] ∨ glue = [' ']) ∧
        Function.read (attributeText "cold".toList ++ [' '] ++ (eachText ++ ')' :: [] ++ ';' :: [])) {}
          "a.h".toList 1 false = .ok { eachFunction with
            returnType := normalize (attributeText "cold".toList) ++ glue ++ "int".toList }) ∧
      Function.read (eachText ++
        ')' :: attributesText [([' '], "cold".toList), ([], "nonnull(1)".toList)] ++ [] ++ ';' :: []) {}
          "a.h".toList 1 false = .ok eachFunction := by
  have hRead : Function.read (eachText ++ ')' :: [] ++ ';' :: []) {} "a.h".toList 1 false =
      .ok eachFunction := by decide
  obtain ⟨hFront, hBehind⟩ := Function.read_attributed (by decide) (by decide) hRead
  have hOpen : ¬[')', ')'] <:+ normalize (eachText ++ [')']) := by decide
  have hOne := hFront "cold".toList [' '] (by decide)
  rw [if_neg hOpen] at hOne
  have hTwo := hBehind [([' '], "cold".toList), ([], "nonnull(1)".toList)] (by decide)
  exact ⟨hRead, hOne, hTwo.mpr (Or.inr (Or.inl (AttributeFree.of_hasPart (by decide))))⟩

-- The word of an attribute may be the end of a longer one.
example : Function.read ("void f(int (*q)(foo__attribute__((x))), int n".toList ++
    ')' :: attributesText [([' '], "cold".toList)] ++ [] ++ ';' :: []) {} "a.h".toList 1 true =
      .error .missingParameterList := by decide

theorem Function.not_forall_read_attributed :
    ¬∀ (front gap tail said : Text) (record : Function), (∀ c ∈ gap, isBlank c = true) →
      (∀ c ∈ tail, isBlank c = true) → AttributeFree (normalize (front ++ [')'])) →
        Balanced '(' ')' said →
          Function.read (front ++ ')' :: gap ++ ';' :: tail) {} "a.h".toList 1 true = .ok record →
            ∃ record', Function.read (attributeText said ++ ' ' :: (front ++ ')' :: gap ++ ';' :: tail)) {}
                "a.h".toList 1 true = .ok record' ∧
              record'.name = record.name ∧ record'.parameters = record.parameters := by
  intro h
  have hRead : Function.read ("void f(void (*g)(void)".toList ++ ')' :: [] ++ ';' :: []) {} "a.h".toList 1
      true = .ok {
        name := "f".toList
        returnType := "void".toList
        parameters := [⟨"void (*g)(void)".toList, [], []⟩]
        brief := []
        description := []
        file := "a.h".toList
        line := 1 } := by
    decide
  obtain ⟨record, hBehind, -⟩ := h "void f(void (*g)(void)".toList [] [] "cold".toList _ (by decide)
    (by decide) (AttributeFree.of_hasPart (by decide)) (Balanced.of_not_mem (by decide) (by decide)) hRead
  have hNone : Function.read (attributeText "cold".toList ++
      ' ' :: ("void f(void (*g)(void)".toList ++ ')' :: [] ++ ';' :: [])) {} "a.h".toList 1 true =
        .error .missingParameterList := by decide
  rw [hNone] at hBehind
  cases hBehind

end HeaderDigest
