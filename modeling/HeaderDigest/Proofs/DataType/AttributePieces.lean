import HeaderDigest.Proofs.DataType.Attribute
import Mathlib.Data.Nat.Find

/-!
# Pieces of code with attributes between them

Taking out attributes leaves the pieces of code between them, in their order and unchanged, however many
attributes there are and however deep the parentheses in them. An attribute whose parentheses do not close
leaves the pieces in front of it. Every text is of one of these two forms.
-/

namespace HeaderDigest

open Text

/-- A keyword, blanks, and the parenthesis that opens the arguments. -/
def IsOpening (s : Text) : Prop :=
  ∃ keyword ∈ attributeKeywords, ∃ blanks, (∀ c ∈ blanks, isBlank c = true) ∧
    s = keyword ++ (blanks ++ ['('])

/-- Whether no attribute begins in a text: no opening stands at its beginning or behind a character of no
word. -/
def IsPlainCode (s : Text) : Prop :=
  ∀ front opening behind, s = front ++ (opening ++ behind) → endsWord front = false → ¬IsOpening opening

/-- Whether no parenthesis in a text is the partner of one that stands right before it. -/
def NeverCloses (s : Text) : Prop :=
  ∀ arguments behind, Balanced '(' ')' arguments → s ≠ arguments ++ ')' :: behind

/-- Code and the attribute behind it, whose keyword does not continue a word. -/
structure AttributedPiece where
  code : Text
  annotation : Text
  plain : IsPlainCode code
  apart : endsWord code = false
  isAttribute : IsAttribute annotation

def AttributedPiece.text (piece : AttributedPiece) : Text := piece.code ++ piece.annotation

theorem startsAttribute_iff_exists_isOpening {s : Text} :
    startsAttribute s = true ↔ ∃ opening behind, IsOpening opening ∧ s = opening ++ behind := by
  rw [startsAttribute_iff]
  constructor
  · rintro ⟨keyword, hKeyword, blanks, rest, hBlanks, rfl⟩
    exact ⟨_, rest, ⟨keyword, hKeyword, blanks, hBlanks, rfl⟩, by simp⟩
  · rintro ⟨_, behind, ⟨keyword, hKeyword, blanks, hBlanks, rfl⟩, rfl⟩
    exact ⟨keyword, hKeyword, blanks, behind, hBlanks, by simp⟩

theorem isPlainCode_iff {s : Text} :
    IsPlainCode s ↔
      ∀ front back, s = front ++ back → endsWord front = false → startsAttribute back = false := by
  constructor
  · intro h front back hText hEnd
    rw [Bool.eq_false_iff, Ne, startsAttribute_iff_exists_isOpening]
    rintro ⟨opening, behind, hOpening, rfl⟩
    exact h front opening behind hText hEnd hOpening
  · intro h front opening behind hText hEnd hOpening
    have hNone := h front _ hText hEnd
    rw [startsAttribute_iff_exists_isOpening.mpr ⟨opening, behind, hOpening, rfl⟩] at hNone
    cases hNone

instance (s : Text) : Decidable (IsPlainCode s) :=
  decidable_of_iff (∀ n < s.length + 1, endsWord (s.take n) = false → startsAttribute (s.drop n) = false) <| by
    rw [isPlainCode_iff]
    constructor
    · rintro h front back rfl hEnd
      have hHere := h front.length (by rw [List.length_append]; omega)
      rw [List.take_left, List.drop_left] at hHere
      exact hHere hEnd
    · intro h n _ hEnd
      exact h (s.take n) (s.drop n) (List.take_append_drop n s).symm hEnd

instance (s : Text) : Decidable (NeverCloses s) :=
  decidable_of_iff (splitPartner? '(' ')' 0 s = none) (splitPartner?_eq_none_iff (by decide))

theorem IsOpening.ne_nil {opening : Text} (h : IsOpening opening) : opening ≠ [] := by
  obtain ⟨keyword, -, blanks, -, rfl⟩ := h
  simp

theorem IsOpening.startsWith_trimStart {opening : Text} (h : IsOpening opening) (rest : Text) :
    startsWith ['('] (trimStart (opening ++ rest)) = false := by
  obtain ⟨keyword, hKeyword, blanks, -, rfl⟩ := h
  revert keyword
  simp only [attributeKeywords, List.forall_mem_cons]
  exact ⟨rfl, rfl, by simp⟩

theorem IsAttribute.exists_isOpening {s : Text} (h : IsAttribute s) :
    ∃ opening arguments, IsOpening opening ∧ s = opening ++ arguments := by
  obtain ⟨keyword, hKeyword, blanks, arguments, hBlanks, -, rfl⟩ := h
  exact ⟨_, arguments ++ [')'], ⟨keyword, hKeyword, blanks, hBlanks, rfl⟩, by simp⟩

theorem IsOpening.withoutAttributesFrom_append {opening : Text} (h : IsOpening opening) (rest : Text) :
    withoutAttributesFrom (.outside false) (opening ++ rest) = withoutAttributesFrom (.arguments 0) rest := by
  obtain ⟨keyword, hKeyword, blanks, hBlanks, rfl⟩ := h
  rw [← withoutAttributesFrom_opening hKeyword hBlanks]
  simp

/-- Code in which no attribute begins is kept, if none begins in it that goes on behind it. -/
theorem withoutAttributesFrom_append_of_plain {before s t : Text} (h : IsPlainCode (before ++ s))
    (hBehind : ∀ back, back ≠ [] → back <:+ s → startsAttribute (back ++ t) = startsAttribute back) :
    withoutAttributesFrom (.outside (endsWord before)) (s ++ t) =
      s ++ withoutAttributesFrom (.outside (endsWord (before ++ s))) t := by
  induction s generalizing before with
  | nil => rw [List.nil_append, List.nil_append, List.append_nil]
  | cons c s ih =>
    have hText : before ++ c :: s = before ++ [c] ++ s := by rw [List.append_assoc, List.singleton_append]
    have hHere : (!endsWord before && startsAttribute (c :: (s ++ t))) = false := by
      cases hEnd : endsWord before with
      | true => rfl
      | false =>
        rw [← List.cons_append, hBehind (c :: s) (List.cons_ne_nil c s) (List.suffix_refl _),
          isPlainCode_iff.mp h before (c :: s) rfl hEnd]
        rfl
    rw [hText] at h ⊢
    have hRest := ih h fun back hNe hBack => hBehind back hNe (hBack.trans (List.suffix_cons c s))
    rw [List.cons_append, withoutAttributesFrom, hHere, if_neg Bool.false_ne_true, ← endsWord_concat before c, hRest,
      List.cons_append]

theorem IsPlainCode.withoutAttributesFrom_eq {s : Text} (h : IsPlainCode s) :
    withoutAttributesFrom (.outside false) s = s := by
  have hAll := @withoutAttributesFrom_append_of_plain [] s [] h fun back _ _ => by rw [List.append_nil]
  rwa [withoutAttributesFrom_nil, List.append_nil] at hAll

theorem IsPlainCode.withoutAttributesFrom_opening {s opening : Text} (h : IsPlainCode s) (hEnd : endsWord s = false)
    (hOpening : IsOpening opening) (rest : Text) :
    withoutAttributesFrom (.outside false) (s ++ (opening ++ rest)) =
      s ++ withoutAttributesFrom (.outside false) (opening ++ rest) := by
  have hBehind (back : Text) (hNe : back ≠ []) (hBack : back <:+ s) :
      startsAttribute (back ++ (opening ++ rest)) = startsAttribute back := by
    obtain ⟨front, rfl⟩ := hBack
    rw [endsWord_append _ hNe] at hEnd
    exact startsAttribute_append_of_endsWord hNe hEnd (hOpening.startsWith_trimStart rest)
  have hAll := @withoutAttributesFrom_append_of_plain [] s _ h hBehind
  rwa [List.nil_append, hEnd] at hAll

theorem withoutAttributesFrom_pieces (pieces : List AttributedPiece) (s : Text) :
    withoutAttributesFrom (.outside false) (pieces.flatMap AttributedPiece.text ++ s) =
      pieces.flatMap AttributedPiece.code ++ withoutAttributesFrom (.outside false) s := by
  induction pieces with
  | nil => rfl
  | cons piece pieces ih =>
    obtain ⟨opening, arguments, hOpening, hAttribute⟩ := piece.isAttribute.exists_isOpening
    have hPiece (t : Text) : withoutAttributesFrom (.outside false) (piece.text ++ t) =
        piece.code ++ withoutAttributesFrom (.outside false) t := by
      rw [AttributedPiece.text, List.append_assoc, hAttribute, List.append_assoc,
        piece.plain.withoutAttributesFrom_opening piece.apart hOpening, ← List.append_assoc, ← hAttribute,
        withoutAttributesFrom_attribute piece.isAttribute]
    rw [List.flatMap_cons, List.flatMap_cons, List.append_assoc, List.append_assoc, hPiece, ih]

theorem NeverCloses.withoutAttributesFrom_eq {rest : Text} (h : NeverCloses rest) :
    withoutAttributesFrom (.arguments 0) rest = [] := by
  rw [withoutAttributesFrom_arguments, (splitPartner?_eq_none_iff (by decide)).mpr h, Option.elim_none]

/-- Exactly the attributes are taken out of a text; the last one takes all that follows along if its parentheses
do not close. -/
theorem withoutAttributes_pieces (pieces : List AttributedPiece) {last : Text} (hLast : IsPlainCode last) :
    withoutAttributes (pieces.flatMap AttributedPiece.text ++ last) = pieces.flatMap AttributedPiece.code ++ last ∧
      ∀ opening rest, IsOpening opening → endsWord last = false → NeverCloses rest →
        withoutAttributes (pieces.flatMap AttributedPiece.text ++ (last ++ (opening ++ rest))) =
          pieces.flatMap AttributedPiece.code ++ last := by
  refine ⟨?_, fun opening rest hOpening hEnd hNever => ?_⟩
  · rw [withoutAttributes, withoutAttributesFrom_pieces, hLast.withoutAttributesFrom_eq]
  · rw [withoutAttributes, withoutAttributesFrom_pieces, hLast.withoutAttributesFrom_opening hEnd hOpening,
      hOpening.withoutAttributesFrom_append, hNever.withoutAttributesFrom_eq, List.append_nil]

def alignedPiece : AttributedPiece where
  code := "struct ".toList
  annotation := "__declspec(align(16))".toList
  plain := by decide
  apart := by decide
  isAttribute :=
    ⟨"__declspec".toList, by decide, [], "align(16)".toList, by decide,
      (Balanced.of_not_mem (s := "align".toList) (by decide) (by decide)).append
        (Balanced.of_not_mem (s := "16".toList) (by decide) (by decide)).bracketed, rfl⟩

def packedPiece : AttributedPiece where
  code := " größe {int é;} ".toList
  annotation := "__attribute__ ((packed))".toList
  plain := by decide
  apart := by decide
  isAttribute :=
    ⟨"__attribute__".toList, by decide, [' '], "(packed)".toList, by decide,
      (Balanced.of_not_mem (s := "packed".toList) (by decide) (by decide)).bracketed, rfl⟩

theorem withoutAttributes_pieces_packed :
    withoutAttributes "struct __declspec(align(16)) größe {int é;} __attribute__ ((packed)) T;".toList =
        "struct  größe {int é;}  T;".toList ∧
      withoutAttributes
          "struct __declspec(align(16)) größe {int é;} __attribute__ ((packed)) T;__declspec(a(b);".toList =
        "struct  größe {int é;}  T;".toList := by
  have hLast : IsPlainCode " T;".toList := by decide
  have hOpening : IsOpening "__declspec(".toList := ⟨"__declspec".toList, by decide, [], by decide, rfl⟩
  have hCode : [alignedPiece, packedPiece].flatMap AttributedPiece.code ++ " T;".toList =
      "struct  größe {int é;}  T;".toList := by decide
  have hBoth := withoutAttributes_pieces [alignedPiece, packedPiece] hLast
  rw [hCode] at hBoth
  refine ⟨?_, ?_⟩
  · rw [← hBoth.1]
    exact congrArg withoutAttributes (by decide)
  · rw [← hBoth.2 _ "a(b);".toList hOpening (by decide) (by decide)]
    exact congrArg withoutAttributes (by decide)

/-- An opening in a text is the first one or stands behind it. -/
theorem exists_first_isOpening {s : Text} (h : ¬IsPlainCode s) :
    ∃ front opening behind, s = front ++ (opening ++ behind) ∧ IsPlainCode front ∧ endsWord front = false ∧
      IsOpening opening := by
  have hSome : ∃ n front opening behind, front.length = n ∧ s = front ++ (opening ++ behind) ∧
      endsWord front = false ∧ IsOpening opening := by
    by_contra hNone
    refine h fun front opening behind hText hEnd hOpening => hNone ?_
    exact ⟨_, front, opening, behind, rfl, hText, hEnd, hOpening⟩
  classical
  obtain ⟨front, opening, behind, hLength, hText, hEnd, hOpening⟩ := Nat.find_spec hSome
  refine ⟨front, opening, behind, hText, ?_, hEnd, hOpening⟩
  intro front' opening' behind' hFront hEnd' hOpening'
  have hShorter : front'.length < Nat.find hSome := by
    have hPos := List.length_pos_iff.mpr hOpening'.ne_nil
    rw [← hLength, hFront, List.length_append, List.length_append]
    omega
  exact Nat.find_min hSome hShorter
    ⟨front', opening', behind' ++ (opening ++ behind), rfl, by rw [hText, hFront]; simp, hEnd', hOpening'⟩

theorem exists_pieces (s : Text) :
    ∃ (pieces : List AttributedPiece) (last : Text), IsPlainCode last ∧
      (s = pieces.flatMap AttributedPiece.text ++ last ∨
        ∃ opening rest, IsOpening opening ∧ endsWord last = false ∧ NeverCloses rest ∧
          s = pieces.flatMap AttributedPiece.text ++ (last ++ (opening ++ rest))) := by
  induction hLength : s.length using Nat.strongRecOn generalizing s with
  | ind n ih =>
    subst hLength
    by_cases hPlain : IsPlainCode s
    · exact ⟨[], s, hPlain, Or.inl rfl⟩
    obtain ⟨front, opening, rest, rfl, hFront, hEnd, hOpening⟩ := exists_first_isOpening hPlain
    by_cases hNever : NeverCloses rest
    · exact ⟨[], front, hFront, Or.inr ⟨opening, rest, hOpening, hEnd, hNever, rfl⟩⟩
    obtain ⟨arguments, behind, hArguments, rfl⟩ : ∃ arguments behind, Balanced '(' ')' arguments ∧
        rest = arguments ++ ')' :: behind := by
      simpa [NeverCloses] using hNever
    have hWhole : IsAttribute (opening ++ (arguments ++ [')'])) := by
      obtain ⟨keyword, hKeyword, blanks, hBlanks, rfl⟩ := hOpening
      exact ⟨keyword, hKeyword, blanks, arguments, hBlanks, hArguments, by simp⟩
    have hShorter : behind.length < (front ++ (opening ++ (arguments ++ ')' :: behind))).length := by
      simp only [List.length_append, List.length_cons]
      omega
    obtain ⟨pieces, last, hLast, hText⟩ := ih behind.length hShorter behind rfl
    refine ⟨⟨front, _, hFront, hEnd, hWhole⟩ :: pieces, last, hLast, ?_⟩
    obtain rfl | ⟨opening', rest', hOpening', hEnd', hNever', rfl⟩ := hText
    · exact Or.inl (by simp [AttributedPiece.text])
    · exact Or.inr ⟨opening', rest', hOpening', hEnd', hNever', by simp [AttributedPiece.text]⟩

end HeaderDigest
