import HeaderDigest.Proofs.DataType.Body
import HeaderDigest.Proofs.Declarator.Lossless
import HeaderDigest.Proofs.Grammar.Member
import HeaderDigest.Proofs.Grammar.Type

/-!
# Members with sizes

A member is cut at its last blank before its sizes are taken off, a parameter the other way round. So a blank
in a size gives a member what stands before it for a type, and the rest of the size for a name. A parameter
has no such trouble, but an operator in a size can look like angle brackets, and a call like the arguments of a
function pointer. Where neither is the case both give what is written.
-/

namespace HeaderDigest

open Text

structure IsSizeText (size : Text) : Prop where
  chars : ∀ c ∈ ['[', ']', '{', '}', ';', '\n'], c ∉ size
  commentless : IsCommentless size

/-- A declarator with its sizes behind it. -/
def sizedText (type name : Text) (sizes : List Text) : Text := type ++ ' ' :: name ++ sizes.flatMap sizeText

theorem flatMap_sizeText_cons (size : Text) (sizes : List Text) :
    (size :: sizes).flatMap sizeText = '[' :: (size ++ ']' :: sizes.flatMap sizeText) := by
  simp [sizeText]

/-- The last blank in sizes, with the rest of its size behind it and more sizes behind that. -/
structure IsLastBlank (sizes : List Text) (front : Text) (b : Char) (rest : Text) (more : List Text) : Prop where
  text : sizes.flatMap sizeText = '[' :: (front ++ b :: (rest ++ ']' :: more.flatMap sizeText))
  blank : isBlank b = true
  rest : '[' ∉ rest ∧ ∀ c ∈ rest, isBlank c = false
  more : ∀ size ∈ more, ']' ∉ size ∧ ∀ c ∈ size, isBlank c = false

section Sizes

variable {sizes : List Text} (hSizes : ∀ size ∈ sizes, IsSizeText size)

include hSizes

theorem isSizes_flatMap_sizeText : IsSizes (sizes.flatMap sizeText) := by
  induction sizes with
  | nil => exact .nil
  | cons size sizes ih =>
    obtain ⟨hSize, hRest⟩ := List.forall_mem_cons.mp hSizes
    rw [flatMap_sizeText_cons]
    exact .size (hSize.chars ']' (by decide)) (ih hRest)

theorem not_mem_flatMap_sizeText {c : Char} (hc : c ∈ ['{', '}', ';', '\n']) : c ∉ sizes.flatMap sizeText := by
  have hOther : c ∈ ['[', ']', '{', '}', ';', '\n'] ∧ c ≠ '[' ∧ c ≠ ']' := by
    revert c
    decide
  intro hMem
  obtain ⟨size, hSize, hMem⟩ := List.mem_flatMap.mp hMem
  rw [sizeText, List.mem_append, List.mem_cons, List.mem_singleton] at hMem
  obtain (rfl | hMem) | rfl := hMem
  · exact hOther.2.1 rfl
  · exact (hSizes size hSize).chars c hOther.1 hMem
  · exact hOther.2.2 rfl

theorem isCommentless_append_sizes {u : Text} (hu : IsCommentless u) :
    IsCommentless (u ++ sizes.flatMap sizeText) := by
  induction sizes generalizing u with
  | nil => rwa [List.flatMap_nil, List.append_nil]
  | cons size sizes ih =>
    obtain ⟨hSize, hRest⟩ := List.forall_mem_cons.mp hSizes
    rw [flatMap_sizeText_cons, isCommentless_append_cons_iff (by decide) (by decide),
      isCommentless_append_cons_iff (by decide) (by decide)]
    exact ⟨hu, hSize.commentless, ih hRest (u := []) (by decide)⟩

theorem exists_isLastBlank (h : ∃ size ∈ sizes, ∃ c ∈ size, isBlank c = true) :
    ∃ front b rest more, IsLastBlank sizes front b rest more := by
  induction sizes with
  | nil => simp at h
  | cons size sizes ih =>
    obtain ⟨hSize, hRest⟩ := List.forall_mem_cons.mp hSizes
    by_cases hMore : ∃ size ∈ sizes, ∃ c ∈ size, isBlank c = true
    · obtain ⟨front, b, rest, more, hLast⟩ := ih hRest hMore
      refine ⟨size ++ ']' :: '[' :: front, b, rest, more, ?_, hLast.blank, hLast.rest, hLast.more⟩
      rw [flatMap_sizeText_cons, hLast.text]
      simp
    · have hBlank : ∃ c ∈ size, isBlank c = true := by
        obtain ⟨other, hMem, hOther⟩ := h
        obtain rfl | hMem := List.mem_cons.mp hMem
        · exact hOther
        · exact absurd ⟨other, hMem, hOther⟩ hMore
      obtain ⟨u, b, v, rfl, hb, hv⟩ := exists_eq_append_blank hBlank
      simp only [not_exists, not_and, Bool.not_eq_true] at hMore
      have hBracket : '[' ∉ v := fun hMem => hSize.chars '[' (by decide) (by simp [hMem])
      refine ⟨u, b, v, sizes, ?_, hb, ⟨hBracket, hv⟩, fun other hOther =>
        ⟨(hRest other hOther).chars ']' (by decide), hMore other hOther⟩⟩
      rw [flatMap_sizeText_cons]
      simp

end Sizes

theorem isBlank_flatMap_sizeText {sizes : List Text} (h : ∀ size ∈ sizes, ∀ c ∈ size, isBlank c = false) :
    ∀ c ∈ sizes.flatMap sizeText, isBlank c = false := by
  intro c hc
  obtain ⟨size, hSize, hc⟩ := List.mem_flatMap.mp hc
  rw [sizeText, List.mem_append, List.mem_cons, List.mem_singleton] at hc
  obtain (rfl | hc) | rfl := hc
  · rfl
  · exact h size hSize c hc
  · rfl

/-- With a blank in a size, the end of that size is in the name of a member. -/
theorem exists_member_of_blank {sizes : List Text} (hSizes : ∀ size ∈ sizes, IsSizeText size)
    (h : ∃ size ∈ sizes, ∃ c ∈ size, isBlank c = true) (base : Text) (doc : Doc) :
    ∃ member, Member.read? (base ++ sizes.flatMap sizeText) doc = some member ∧ ']' ∈ member.name := by
  obtain ⟨front, b, rest, more, hText, hb, ⟨hBracket, hRest⟩, hMore⟩ := exists_isLastBlank hSizes h
  have hBlank : ∀ c ∈ rest ++ ']' :: more.flatMap sizeText, isBlank c = false :=
    List.forall_mem_append.mpr ⟨hRest, List.forall_mem_cons.mpr
      ⟨rfl, isBlank_flatMap_sizeText fun size hSize => (hMore size hSize).2⟩⟩
  have hName : withoutSizes false (rest ++ ']' :: more.flatMap sizeText) = rest ++ [']'] := by
    have hNot : '[' ∉ rest ++ [']'] := by simp [hBracket]
    rw [← List.singleton_append, ← List.append_assoc, CMember.withoutSizes_append hNot,
      CMember.withoutSizes_sizes fun size hSize => (hMore size hSize).1, List.append_nil]
  have hWhole : base ++ sizes.flatMap sizeText =
      (base ++ '[' :: front) ++ b :: (rest ++ ']' :: more.flatMap sizeText) := by
    rw [hText]
    simp
  refine ⟨_, hWhole ▸ Member.read?_append_cons _ hb hBlank doc, ?_⟩
  rw [hName]
  simp

theorem endsBlank_append_sizes {u : Text} (hu : endsBlank u = false) (sizes : List Text) :
    endsBlank (u ++ sizes.flatMap sizeText) = false := by
  obtain rfl | ⟨init, last, rfl⟩ := List.eq_nil_or_concat' sizes
  · rwa [List.flatMap_nil, List.append_nil]
  · rw [List.flatMap_append, List.flatMap_singleton, sizeText, ← List.append_assoc, ← List.append_assoc, endsBlank,
      List.getLast?_concat]
    rfl

section Declarators

variable (type : WrittenType) {name : Text} {sizes : List Text} (hName : isIdentifier name = true)

include hName

theorem isTypeText_named : IsTypeText (type.text ++ ' ' :: name) :=
  (type.isTypeText.append (isWord_of_isIdentifier hName).1 fun c hc => Or.inl (isNameChar_of_mem hName c hc)).2

theorem trimmed_sizedText : Trimmed (sizedText type.text name sizes) := by
  have hBase := isTypeText_named type hName
  obtain ⟨c, rest, hText, hStart⟩ := hBase.starts
  refine ⟨startsBlank_of_isNameStart ⟨c, rest ++ sizes.flatMap sizeText, ?_, hStart⟩,
    endsBlank_append_sizes hBase.endsBlank sizes⟩
  rw [sizedText, hText, List.cons_append]

variable (hSizes : ∀ size ∈ sizes, IsSizeText size)

include hSizes

theorem not_mem_sizedText {c : Char} (hc : c ∈ ['{', '}', ';', '\n']) : c ∉ sizedText type.text name sizes := by
  have hOther : ¬(isNameChar c = true ∨ c = ' ' ∨ c = '*') := by
    revert c
    decide
  rw [sizedText, List.mem_append]
  exact not_or.mpr ⟨(isTypeText_named type hName).not_mem hOther, not_mem_flatMap_sizeText hSizes hc⟩

theorem isCommentless_sizedText : IsCommentless (sizedText type.text name sizes) :=
  isCommentless_append_sizes hSizes (.of_not_mem ((isTypeText_named type hName).not_mem (by decide)))

/-- The line of a member leaves the braces as they are and declares what is read from its declarator. -/
theorem code_sizedLine {line : Text} (hLine : trim line = sizedText type.text name sizes ++ [';']) :
    trim (withoutComments line) = sizedText type.text name sizes ++ [';'] := by
  have hTrimmed : Trimmed (sizedText type.text name sizes ++ [';']) := by
    refine ⟨?_, by rw [endsBlank, List.getLast?_concat]; rfl⟩
    obtain ⟨c, rest, hText, hStart⟩ := (isTypeText_named type hName).starts
    exact startsBlank_of_isNameStart
      ⟨c, rest ++ sizes.flatMap sizeText ++ [';'], by rw [sizedText, hText]; rfl, hStart⟩
  have hCode : IsCommentless (sizedText type.text name sizes ++ [';']) :=
    (isCommentless_append_cons_iff (by decide) (by decide)).mpr
      ⟨isCommentless_sizedText type hName hSizes, by decide⟩
  rw [trim_withoutComments_congr (hLine.trans (trim_eq_self hTrimmed).symm), withoutComments_of_isCommentless hCode,
    trim_eq_self hTrimmed]

theorem openBraces_sizedLine {line : Text} (hLine : trim line = sizedText type.text name sizes ++ [';']) :
    openBraces [line] = 0 := by
  rw [openBraces, openBraces, Int.add_zero, ← balance_trim (by decide) (by decide) (by decide),
    code_sizedLine type hName hSizes hLine]
  apply balance_eq_zero (by decide)
  apply Balanced.of_not_mem
  · simp [not_mem_sizedText type hName hSizes (c := '{') (by decide)]
  · simp [not_mem_sizedText type hName hSizes (c := '}') (by decide)]

theorem ofLine?_sizedLine {line : Text} (hLine : trim line = sizedText type.text name sizes ++ [';']) (doc : Doc) :
    Member.ofLine? doc line = Member.read? (sizedText type.text name sizes) doc := by
  have hCode := code_sizedLine type hName hSizes hLine
  have hMemberless : isMemberless (sizedText type.text name sizes ++ [';']) = false := by
    obtain ⟨c, rest, hText, hStart⟩ := (isTypeText_named type hName).starts
    rw [sizedText, hText]
    exact isMemberless_of_isNameStart hStart (rest ++ sizes.flatMap sizeText ++ [';'])
  have hSemicolon : (sizedText type.text name sizes ++ [';']).contains ';' = true := by simp
  have hTake : (sizedText type.text name sizes ++ [';']).takeWhile (· != ';') = sizedText type.text name sizes := by
    have hNone := not_mem_sizedText type hName hSizes (c := ';') (by decide)
    rw [takeWhile_append_cons_of_neg (by decide), List.takeWhile_eq_self_iff]
    exact fun c hc => bne_iff_ne.mpr fun hEq => hNone (hEq ▸ hc)
  simp only [Member.ofLine?, hCode, hMemberless, hSemicolon, hTake, trim_eq_self (trimmed_sizedText type hName)]
  rfl

theorem member_sizedText (doc : Doc) (h : ∀ size ∈ sizes, ∀ c ∈ size, isBlank c = false) :
    Member.read? (sizedText type.text name sizes) doc = some ⟨type.text, name, doc.member name⟩ := by
  have hBlank : ∀ c ∈ name ++ sizes.flatMap sizeText, isBlank c = false :=
    List.forall_mem_append.mpr ⟨(isWord_of_isIdentifier hName).2, isBlank_flatMap_sizeText h⟩
  have hNameOnly : withoutSizes false (name ++ sizes.flatMap sizeText) = name := by
    rw [CMember.withoutSizes_append (not_mem_of_isIdentifier hName rfl),
      CMember.withoutSizes_sizes fun size hSize => (hSizes size hSize).chars ']' (by decide), List.append_nil]
  rw [sizedText, List.append_assoc, List.cons_append, Member.read?_append_cons type.text (by decide) hBlank, hNameOnly,
    trim_eq_self type.isTypeText.trimmed]

theorem read_sizedText (hWord : isTypeWord name = false)
    (hPointer : ¬∃ front opening arguments after,
      IsFunctionPointer (sizedText type.text name sizes) front opening arguments after)
    (hAngles : ¬('<' ∈ sizedText type.text name sizes ∧ '>' ∈ sizedText type.text name sizes)) :
    Declarator.read (sizedText type.text name sizes) = ⟨type.text, name⟩ := by
  have hBase := isTypeText_named type hName
  have hLine : '\n' ∉ sizedText type.text name sizes := not_mem_sizedText type hName hSizes (by decide)
  have hEnds : EndsInSizes (sizedText type.text name sizes) (type.text ++ ' ' :: name) (sizes.flatMap sizeText) :=
    .of_not_mem (hBase.not_mem (by decide)) hBase.endsBlank (isSizes_flatMap_sizeText hSizes)
  obtain ⟨base, rest, hEnds', hBefore⟩ := Declarator.exists_endsInSizes hLine
  rw [← hEnds.base_eq hEnds', trim_eq_self hBase.trimmed] at hBefore
  have hNotQualifiers : (runs (fun c => !isBlank c && c != '*') (type.text ++ [' '])).any (!isQualifier ·) = true := by
    rw [type.runs_text [' '] (by simp)]
    exact type.any_not_isQualifier
  have hLast : Declarator.ofLastWord? (type.text ++ ' ' :: name) = some ⟨type.text, name⟩ := by
    have hRead : Declarator.ofLastWord? (type.text ++ [' '] ++ name) = some ⟨trim (type.text ++ [' ']), name⟩ :=
      Declarator.ofLastWord?_append (Or.inl rfl) (type.isTypeText.not_mem (by decide)) hName hWord hNotQualifiers
    rwa [List.append_assoc, List.singleton_append, trim_append_space type.isTypeText.trimmed] at hRead
  rw [Declarator.read_of_not_functionPointer hPointer, if_neg hAngles, trim_eq_self (trimmed_sizedText type hName),
    Declarator.ofPlain, hBefore]
  simp only [hLast, Option.getD_some]

/-- Brackets of an argument list, or angle brackets, stay in the type. -/
theorem read_sizedText_ne (h : (∃ front opening arguments after,
      IsFunctionPointer (sizedText type.text name sizes) front opening arguments after) ∨
      ('<' ∈ sizedText type.text name sizes ∧ '>' ∈ sizedText type.text name sizes)) :
    Declarator.read (sizedText type.text name sizes) ≠ ⟨type.text, name⟩ ∧
      ']' ∉ (Declarator.read (sizedText type.text name sizes)).name := by
  have hLine : '\n' ∉ sizedText type.text name sizes := not_mem_sizedText type hName hSizes (by decide)
  by_cases hPointer : ∃ front opening arguments after,
      IsFunctionPointer (sizedText type.text name sizes) front opening arguments after
  · obtain ⟨front, opening, arguments, after, hPointer⟩ := hPointer
    rw [Declarator.read_functionPointer hPointer (hPointer.not_mem_front hLine)]
    constructor
    · intro hSame
      have hClosing : ')' ∈ trim (front ++ opening ++ arguments ++ [')']) := (mem_trim rfl).mpr (by simp)
      rw [(Declarator.mk.inj hSame).1] at hClosing
      exact type.isTypeText.not_mem (by decide) hClosing
    · dsimp only
      split
      · rename_i hAfter
        exact not_mem_of_isIdentifier hAfter rfl
      · simp
  · have hAngles := h.resolve_left hPointer
    rw [Declarator.read_of_not_functionPointer hPointer, if_pos hAngles]
    constructor
    · intro hSame
      have hText := Declarator.filter_ofAngled (trim (sizedText type.text name sizes))
      have hMem : '<' ∈ (trim (sizedText type.text name sizes)).filter (!isBlank ·) :=
        List.mem_filter.mpr ⟨(mem_trim rfl).mpr hAngles.1, rfl⟩
      rw [← hText, hSame, List.mem_filter, List.mem_append] at hMem
      obtain hMem | hMem := hMem.1
      · exact type.isTypeText.not_mem (by decide) hMem
      · exact not_mem_of_isIdentifier hName rfl hMem
    · obtain hNil | hIdentifier := Declarator.isIdentifier_name_ofAngled (trim (sizedText type.text name sizes))
      · simp [hNil]
      · exact not_mem_of_isIdentifier hIdentifier rfl

theorem read_sizedText_eq_iff (hWord : isTypeWord name = false) :
    Declarator.read (sizedText type.text name sizes) = ⟨type.text, name⟩ ↔
      (¬∃ front opening arguments after,
        IsFunctionPointer (sizedText type.text name sizes) front opening arguments after) ∧
      ¬('<' ∈ sizedText type.text name sizes ∧ '>' ∈ sizedText type.text name sizes) := by
  constructor
  · intro hRead
    rw [← not_or]
    exact fun h => (read_sizedText_ne type hName hSizes h).1 hRead
  · rintro ⟨hPointer, hAngles⟩
    exact read_sizedText type hName hSizes hWord hPointer hAngles

theorem not_mem_name_read_sizedText (hWord : isTypeWord name = false) :
    ']' ∉ (Declarator.read (sizedText type.text name sizes)).name := by
  by_cases hRead : Declarator.read (sizedText type.text name sizes) = ⟨type.text, name⟩
  · rw [hRead]
    exact not_mem_of_isIdentifier hName rfl
  · rw [read_sizedText_eq_iff type hName hSizes hWord, ← not_or, not_not] at hRead
    exact (read_sizedText_ne type hName hSizes hRead).2

end Declarators

/-- A line behind the opening brace of a struct, in front of the one that closes it. -/
structure StandsInBody (definition opening : Text) (ls : List Text) (line : Text) (below : List Text) : Prop where
  text : ∃ above, lines definition = above ++ opening :: (ls ++ line :: below) ∧ ∀ l ∈ above, '{' ∉ l
  opens : '{' ∈ opening
  stays_open : ∀ beginning, beginning <+: ls → 0 < openBraces (opening :: beginning)

theorem StandsInBody.readMembers {definition opening line : Text} {ls below : List Text}
    (h : StandsInBody definition opening ls line below) (hLine : openBraces [line] = 0) (doc : Doc) :
    readMembers definition doc = ls.filterMap (Member.ofLine? doc) ++
      ((Member.ofLine? doc line).toList ++ readBody doc (openBraces (opening :: ls)) below) := by
  obtain ⟨above, hText, hAbove⟩ := h.text
  have hBody (beginning : List Text) (hBeginning : beginning <+: ls) :
      0 < openBraces [opening] + openBraces beginning := by
    rw [← openBraces_cons]
    exact h.stays_open beginning hBeginning
  have hOpen : ¬(openBraces (opening :: ls) ≤ 0 ∨ openBraces (opening :: ls) + openBraces [line] ≤ 0) := by
    have hDepth := h.stays_open ls (List.prefix_refl ls)
    rw [hLine, Int.add_zero]
    omega
  rw [readMembers_of_lines hText hAbove h.opens, readBody_append hBody, ← openBraces_cons, readBody_cons,
    if_neg hOpen, hLine, Int.add_zero]

/-- A member with sizes is read as it is written just when no size has a blank in it, and a parameter with
these sizes just when it is no function pointer and has no angle brackets. Otherwise they differ. -/
theorem readMembers_sized_iff (type : WrittenType) {name : Text} {sizes : List Text}
    (hName : isIdentifier name = true) (hWord : isTypeWord name = false) (hSizes : ∀ size ∈ sizes, IsSizeText size)
    {definition opening line : Text} {ls below : List Text} (hBody : StandsInBody definition opening ls line below)
    (hLine : trim line = sizedText type.text name sizes ++ [';']) (doc : Doc) :
    ∃ member, readMembers definition doc = ls.filterMap (Member.ofLine? doc) ++
        member :: readBody doc (openBraces (opening :: ls)) below ∧
      (member = ⟨type.text, name, doc.member name⟩ ↔ ∀ size ∈ sizes, ∀ c ∈ size, isBlank c = false) ∧
      (Declarator.read (sizedText type.text name sizes) = ⟨type.text, name⟩ ↔
        (¬∃ front opening arguments after,
          IsFunctionPointer (sizedText type.text name sizes) front opening arguments after) ∧
        ¬('<' ∈ sizedText type.text name sizes ∧ '>' ∈ sizedText type.text name sizes)) ∧
      (member.declared = ((Declarator.read (sizedText type.text name sizes)).type,
          (Declarator.read (sizedText type.text name sizes)).name) ↔
        member = ⟨type.text, name, doc.member name⟩ ∧
          Declarator.read (sizedText type.text name sizes) = ⟨type.text, name⟩) := by
  have hRead := hBody.readMembers (openBraces_sizedLine type hName hSizes hLine) doc
  rw [ofLine?_sizedLine type hName hSizes hLine] at hRead
  have hParameter := read_sizedText_eq_iff type hName hSizes hWord
  by_cases hBlank : ∃ size ∈ sizes, ∃ c ∈ size, isBlank c = true
  · obtain ⟨member, hMember, hBracket⟩ := exists_member_of_blank hSizes hBlank (type.text ++ ' ' :: name) doc
    have hOther : member ≠ ⟨type.text, name, doc.member name⟩ := by
      rintro rfl
      exact not_mem_of_isIdentifier hName rfl hBracket
    refine ⟨member, by rw [hRead, sizedText, hMember]; rfl, iff_of_false hOther ?_, hParameter,
      iff_of_false (fun hSame => ?_) fun h => hOther h.1⟩
    · intro hNone
      obtain ⟨size, hSize, c, hc, hBlank⟩ := hBlank
      exact Bool.false_ne_true ((hNone size hSize c hc).symm.trans hBlank)
    · have hNames : member.name = (Declarator.read (sizedText type.text name sizes)).name := (Prod.mk.inj hSame).2
      rw [hNames] at hBracket
      exact not_mem_name_read_sizedText type hName hSizes hWord hBracket
  · have hNone : ∀ size ∈ sizes, ∀ c ∈ size, isBlank c = false := fun size hSize c hc =>
      Bool.eq_false_iff.mpr fun hBlankChar => hBlank ⟨size, hSize, c, hc, hBlankChar⟩
    refine ⟨⟨type.text, name, doc.member name⟩, ?_, iff_of_true rfl hNone, hParameter, ?_⟩
    · rw [hRead, member_sizedText type hName hSizes doc hNone]
      rfl
    · rw [Member.declared, Prod.mk.injEq]
      constructor
      · rintro ⟨hType, hSameName⟩
        exact ⟨rfl, congrArg₂ Declarator.mk hType.symm hSameName.symm⟩
      · rintro ⟨-, hSame⟩
        rw [hSame]
        exact ⟨rfl, rfl⟩

theorem isSizeText_iff {size : Text} :
    IsSizeText size ↔ (∀ c ∈ ['[', ']', '{', '}', ';', '\n'], c ∉ size) ∧ IsCommentless size :=
  ⟨fun h => ⟨h.chars, h.commentless⟩, fun h => ⟨h.1, h.2⟩⟩

theorem exists_longType : ∃ type : WrittenType, type.text = "long".toList :=
  ⟨⟨[], ["long".toList], [], false, 0, by decide, by decide, by decide⟩, by decide⟩

def tableText : Text :=
  joinLines ["struct table \x7b".toList, "    int rows;".toList, "    long cell[N*(M+1)][4];".toList, "\x7d;".toList]

theorem readMembers_sized_iff_cell :
    (∀ size ∈ ["N*(M+1)".toList, ['4']], IsSizeText size) ∧
      StandsInBody tableText "struct table \x7b".toList ["    int rows;".toList]
        "    long cell[N*(M+1)][4];".toList ["\x7d;".toList] ∧
      ∃ member, readMembers tableText {} = [⟨"int".toList, "rows".toList, []⟩, member] ∧
        (member = ⟨"long".toList, "cell".toList, []⟩ ↔
          ∀ size ∈ ["N*(M+1)".toList, ['4']], ∀ c ∈ size, isBlank c = false) := by
  have hSizes : ∀ size ∈ ["N*(M+1)".toList, ['4']], IsSizeText size := by
    simp only [isSizeText_iff]
    decide
  have hBody : StandsInBody tableText "struct table \x7b".toList ["    int rows;".toList]
      "    long cell[N*(M+1)][4];".toList ["\x7d;".toList] := by
    refine ⟨⟨[], by decide, by simp⟩, by decide, fun beginning hBeginning => ?_⟩
    have hInits : ∀ beginning ∈ ["    int rows;".toList].inits,
        0 < openBraces ("struct table \x7b".toList :: beginning) := by decide
    exact hInits beginning ((List.mem_inits _ _).mpr hBeginning)
  have hName : isIdentifier "cell".toList = true := by decide
  obtain ⟨type, hType⟩ := exists_longType
  obtain ⟨member, hMembers, hIff, -⟩ :=
    readMembers_sized_iff type hName (by decide) hSizes hBody (by rw [hType]; decide) {}
  rw [hType] at hIff
  exact ⟨hSizes, hBody, member, hMembers, hIff⟩

/-- The size `N + 1` is cut at its last blank. -/
theorem not_forall_readMembers_sized :
    ¬∀ (type : WrittenType) (name : Text) (sizes : List Text) (doc : Doc), isIdentifier name = true →
      isTypeWord name = false → (∀ size ∈ sizes, IsSizeText size) →
        readMembers (joinLines ["struct s \x7b".toList, sizedText type.text name sizes ++ [';'], "\x7d;".toList]) doc =
          [⟨type.text, name, doc.member name⟩] := by
  intro h
  have hSizes : ∀ size ∈ ["N + 1".toList], IsSizeText size := by
    simp only [isSizeText_iff]
    decide
  obtain ⟨type, hType⟩ := exists_longType
  have hMembers := h type ['a'] ["N + 1".toList] {} (by decide) (by decide) hSizes
  rw [hType] at hMembers
  exact absurd hMembers (by decide)

end HeaderDigest
