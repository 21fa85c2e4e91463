import HeaderDigest.Proofs.Declarator.ParameterList
import HeaderDigest.Proofs.Declarator.Reading
import HeaderDigest.Proofs.Grammar.Type
import HeaderDigest.Proofs.Prototype.Attribute

/-!
# Parameters as they are written

A parameter is written as a type and a name, with stars at the name or none, or as a pointer to a
function. Such a text is one piece of a list, and its type and its name are read from it.
-/

namespace HeaderDigest

open Text

def isParameterChar (c : Char) : Bool := isNameChar c || ['*', ',', ' ', '(', ')'].contains c

structure CArguments where
  text : Text
  chars : ∀ c ∈ text, isParameterChar c = true
  identifiers : ∀ word ∈ runs isWordChar text, isIdentifier word = true ∧ word ≠ "__attribute__".toList
  balanced : Balanced '(' ')' text
  singleSpaced : SingleSpaced text

inductive CParameter
  | named (type : CType) (stars : Nat) (name : Text) (isIdentifier_name : isIdentifier name = true)
      (isTypeWord_name : isTypeWord name = false)
  | pointer (returned : CType) (name : Text) (isIdentifier_name : isIdentifier name = true)
      (arguments : CArguments)

namespace CParameter

def text : CParameter → Text
  | named type stars name _ _ => type.text ++ ' ' :: List.replicate stars '*' ++ name
  | pointer returned name _ arguments =>
    returned.text ++ [' '] ++ '(' :: '*' :: name ++ ')' :: '(' :: arguments.text ++ [')']

/-- The stars at a name belong to the type. -/
def type : CParameter → Text
  | named type stars _ _ _ => type.text ++ starsText true stars
  | parameter@(pointer _ _ _ _) => parameter.text

/-- The name inside a pointer to a function is no name of the parameter. -/
def name? : CParameter → Option Text
  | named _ _ name _ _ => some name
  | pointer _ _ _ _ => none

def isPointer : CParameter → Bool
  | named _ _ _ _ _ => false
  | pointer _ _ _ _ => true

def IsAttributeFree : CParameter → Prop
  | named _ _ _ _ _ => True
  | pointer _ _ _ arguments => AttributeFree arguments.text

end CParameter

/-- What is true of each parameter and of a list of them. -/
structure IsListText (s : Text) : Prop where
  chars : ∀ c ∈ s, isParameterChar c = true
  balanced : Balanced '(' ')' s
  singleSpaced : SingleSpaced s
  endsBlank : endsBlank s = false
  starts : ∃ c rest, s = c :: rest ∧ isNameStart c = true

structure IsParameterText (s : Text) : Prop extends IsListText s where
  piece : IsPiece s

theorem IsListText.ne_nil {s : Text} (h : IsListText s) : s ≠ [] := by
  obtain ⟨c, rest, rfl, -⟩ := h.starts
  exact List.cons_ne_nil c rest

theorem IsListText.trimmed {s : Text} (h : IsListText s) : Trimmed s := by
  exact ⟨startsBlank_of_isNameStart h.starts, h.endsBlank⟩

theorem isParameterChar_of_typeChar {c : Char} (h : isNameChar c = true ∨ c = ' ' ∨ c = '*') :
    isParameterChar c = true := by
  rcases h with h | rfl | rfl
  · simp [isParameterChar, h]
  · decide
  · decide

theorem isListBracket_of_typeChar {c : Char} (h : isNameChar c = true ∨ c = ' ' ∨ c = '*') :
    isListBracket c = false ∧ c ≠ ',' := by
  have hName (d : Char) (hd : isNameChar d = false) (h : isNameChar c = true) : c ≠ d := by
    rintro rfl
    rw [hd] at h
    cases h
  rcases h with h | rfl | rfl
  · refine ⟨?_, hName ',' (by decide) h⟩
    rw [isListBracket, Bool.eq_false_iff]
    intro hMem
    have key : ∀ d ∈ ['(', ')', '[', ']', '<', '>'], isNameChar d = false := by decide
    exact hName c (key c (List.contains_iff_mem.mp hMem)) h rfl
  · decide
  · decide

theorem balanced_of_typeChars {s : Text} (h : ∀ d ∈ s, isNameChar d = true ∨ d = ' ' ∨ d = '*') :
    Balanced '(' ')' s := by
  apply Balanced.of_not_mem
  · exact not_mem_of_typeChars h (by decide)
  · exact not_mem_of_typeChars h (by decide)

theorem attributeFree_of_typeChars {s : Text} (h : ∀ d ∈ s, isNameChar d = true ∨ d = ' ' ∨ d = '*') :
    AttributeFree s := AttributeFree.of_not_mem (not_mem_of_typeChars h (by decide))

namespace IsTypeText

variable {s : Text}

theorem balanced (h : IsTypeText s) : Balanced '(' ')' s := balanced_of_typeChars h.chars

theorem attributeFree (h : IsTypeText s) : AttributeFree s := attributeFree_of_typeChars h.chars

theorem getLast?_ne (h : IsTypeText s) : ∀ c ∈ s.getLast?, c ≠ ')' := by
  rintro c hc rfl
  exact h.not_mem (by decide) (List.mem_of_getLast? hc)

theorem read (h : IsTypeText s) :
    Declarator.read s = (Declarator.ofLastWord? s).getD (Declarator.ofWords s) :=
  Declarator.read_eq_of_plain h.trimmed h.ne_nil (h.not_mem (by decide)) (h.not_mem (by decide))
    (h.not_mem (by decide))

theorem isParameterText (h : IsTypeText s) : IsParameterText s where
  chars c hc := isParameterChar_of_typeChar (h.chars c hc)
  balanced := h.balanced
  singleSpaced := h.singleSpaced
  endsBlank := h.endsBlank
  starts := h.starts
  piece := IsPiece.of_plain fun c hc => isListBracket_of_typeChar (h.chars c hc)

end IsTypeText

/-- The name of a parameter stands behind its type and is set off by a space or a star. -/
theorem Declarator.read_named {front name : Text} {c : Char} (h : IsTypeText (front ++ [c] ++ name))
    (hc : c = ' ' ∨ c = '*') (hName : isIdentifier name = true) (hWord : isTypeWord name = false)
    (hBase : (runs (fun d => !isBlank d && d != '*') (front ++ [c])).any (!isQualifier ·) = true) :
    Declarator.read (front ++ [c] ++ name) = ⟨trim (front ++ [c]), name⟩ := by
  have hFeed : '\n' ∉ front := by
    intro hMem
    exact h.not_mem (by decide) (List.mem_append_left name (List.mem_append_left [c] hMem))
  have hBlank : isBlank c = true ∨ c = '*' := hc.imp_left (by rintro rfl; rfl)
  rw [h.read, Declarator.ofLastWord?_append hBlank hFeed hName hWord hBase, Option.getD_some]

def pointerText (returned name arguments : Text) : Text :=
  returned ++ [' '] ++ '(' :: '*' :: name ++ ')' :: '(' :: arguments ++ [')']

section Pointers

variable {returned name : Text} (hReturned : IsTypeText returned) (hName : isIdentifier name = true)

theorem pointerText_eq (returned name arguments : Text) :
    pointerText returned name arguments =
      returned ++ [' '] ++ ('(' :: ('*' :: name) ++ [')']) ++ ('(' :: arguments ++ [')']) := by
  simp [pointerText]

include hReturned in
theorem mem_returned {c : Char} (h : c ∈ returned ++ [' ']) : isNameChar c = true ∨ c = ' ' ∨ c = '*' := by
  rw [List.mem_append, List.mem_singleton] at h
  obtain h | h := h
  · exact hReturned.chars c h
  · exact Or.inr (Or.inl h)

include hName in
theorem mem_star_name {c : Char} (h : c ∈ '*' :: name) : isNameChar c = true ∨ c = ' ' ∨ c = '*' := by
  obtain h | h := List.mem_cons.mp h
  · exact Or.inr (Or.inr h)
  · exact Or.inl (isNameChar_of_mem hName c h)

theorem isListBracket_of_isParameterChar {c : Char} (h : isParameterChar c = true)
    (hBracket : isListBracket c = true) : c = '(' ∨ c = ')' := by
  rw [isListBracket, List.contains_iff_mem] at hBracket
  have key : ∀ d ∈ ['(', ')', '[', ']', '<', '>'], isParameterChar d = true → d = '(' ∨ d = ')' := by
    decide
  exact key c hBracket h

include hReturned hName

theorem mem_pointerText (arguments : CArguments) :
    ∀ c ∈ pointerText returned name arguments.text, isParameterChar c = true := by
  intro c h
  simp only [pointerText, List.mem_append, List.mem_cons, List.not_mem_nil, or_false] at h
  rcases h with (((h | rfl) | rfl | rfl | h) | rfl | rfl | h) | rfl
  · exact isParameterChar_of_typeChar (hReturned.chars c h)
  · decide
  · decide
  · decide
  · exact isParameterChar_of_typeChar (Or.inl (isNameChar_of_mem hName c h))
  · decide
  · decide
  · exact arguments.chars c h
  · decide

theorem balanced_pointerText (arguments : CArguments) :
    Balanced '(' ')' (pointerText returned name arguments.text) := by
  have hFront : Balanced '(' ')' (returned ++ [' ']) :=
    balanced_of_typeChars fun _ => mem_returned hReturned
  have hGroup : Balanced '(' ')' ('*' :: name) := balanced_of_typeChars fun _ => mem_star_name hName
  rw [pointerText_eq]
  exact (hFront.append hGroup.bracketed).append arguments.balanced.bracketed

theorem singleSpaced_pointerText (arguments : CArguments) :
    SingleSpaced (pointerText returned name arguments.text) := by
  have hStars : SingleSpaced ('(' :: '*' :: name ++ ")(".toList) := by
    apply SingleSpaced.of_forall
    rw [List.forall_mem_append]
    constructor
    · exact (List.forall_mem_cons.mpr ⟨rfl, List.forall_mem_cons.mpr ⟨rfl, (isWord_of_isIdentifier hName).2⟩⟩)
    · decide
  have hGroup : SingleSpaced ('(' :: '*' :: name ++ ")(".toList ++ arguments.text ++ [')']) := by
    refine (hStars.append arguments.singleSpaced (Or.inl ?_)).append (by decide) (Or.inr rfl)
    rw [endsBlank_append _ (by decide)]
    rfl
  have hText : pointerText returned name arguments.text =
      returned ++ ' ' :: ('(' :: '*' :: name ++ ")(".toList ++ arguments.text ++ [')']) := by
    simp [pointerText]
  rw [hText]
  exact hReturned.singleSpaced.append_space hGroup hReturned.endsBlank rfl

theorem isPiece_pointerText (arguments : CArguments) :
    IsPiece (pointerText returned name arguments.text) := by
  have hFront : IsPiece (returned ++ [' ']) :=
    IsPiece.of_plain fun c hc => isListBracket_of_typeChar (mem_returned hReturned hc)
  have hGroup : IsPiece ('(' :: ('*' :: name) ++ [')']) := by
    apply IsPiece.bracketed
    · exact balanced_of_typeChars fun _ => mem_star_name hName
    · intro c hc hBracket
      rw [(isListBracket_of_typeChar (mem_star_name hName hc)).1] at hBracket
      cases hBracket
  have hArguments : IsPiece ('(' :: arguments.text ++ [')']) :=
    IsPiece.bracketed arguments.balanced fun c hc =>
      isListBracket_of_isParameterChar (arguments.chars c hc)
  rw [pointerText_eq]
  exact (hFront.append hGroup).append hArguments

theorem isParameterText_pointerText (arguments : CArguments) :
    IsParameterText (pointerText returned name arguments.text) where
  chars := mem_pointerText hReturned hName arguments
  balanced := balanced_pointerText hReturned hName arguments
  singleSpaced := singleSpaced_pointerText hReturned hName arguments
  endsBlank := by
    rw [pointerText, endsBlank_append _ (List.cons_ne_nil _ _)]
    rfl
  starts := by
    obtain ⟨c, rest, hText, hStart⟩ := hReturned.starts
    exact ⟨c, _, by rw [pointerText, hText]; rfl, hStart⟩
  piece := isPiece_pointerText hReturned hName arguments

theorem attributeFree_pointerText {arguments : Text} (h : AttributeFree arguments) :
    AttributeFree (pointerText returned name arguments) := by
  have hFront : AttributeFree (returned ++ [' ']) :=
    attributeFree_of_typeChars fun _ => mem_returned hReturned
  have hEnd : AttributeFree (arguments ++ ')' :: []) :=
    AttributeFree.append_closing h (AttributeFree.of_not_mem (by simp))
  have hArguments : AttributeFree ([] ++ '(' :: (arguments ++ [')'])) :=
    AttributeFree.append_cons (by decide) (by decide) (fun _ => ⟨by simp, fun _ => by decide⟩)
      (AttributeFree.of_not_mem (by simp)) hEnd
  have hGroup : AttributeFree ('*' :: name ++ ')' :: ('(' :: (arguments ++ [')']))) :=
    (attributeFree_of_typeChars fun _ => mem_star_name hName).append_closing hArguments
  have hAll := AttributeFree.append_cons (u := returned ++ [' ']) (c := '(') (by decide) (by decide)
    (fun _ => ⟨by rw [List.getLast?_concat]; decide, fun hHead => absurd hHead (by simp)⟩)
      hFront hGroup
  have hText : pointerText returned name arguments =
      returned ++ [' '] ++ '(' :: ('*' :: name ++ ')' :: ('(' :: (arguments ++ [')']))) := by
    simp [pointerText]
  rw [hText]
  exact hAll

/-- The name inside a pointer to a function is no name of a parameter. -/
theorem Declarator.read_pointerText (arguments : CArguments) :
    Declarator.read (pointerText returned name arguments.text) =
      ⟨pointerText returned name arguments.text, []⟩ := by
  apply Declarator.read_pointer ?_ hName arguments.balanced
  · exact (isParameterText_pointerText hReturned hName arguments).trimmed.1
  · intro c hc
    constructor
    · rintro rfl
      exact absurd (mem_returned hReturned hc) (by decide)
    · rintro rfl
      exact absurd (mem_returned hReturned hc) (by decide)

end Pointers

namespace CParameter

theorem isTypeText_named (type : CType) (stars : Nat) {name : Text} (hName : isIdentifier name = true) :
    IsTypeText (type.text ++ ' ' :: List.replicate stars '*' ++ name) := by
  have hEnding : ∀ c ∈ List.replicate stars '*' ++ name, isNameChar c = true ∨ c = '*' :=
    List.forall_mem_append.mpr ⟨fun c hc => Or.inr (List.eq_of_mem_replicate hc),
      fun c hc => Or.inl (isNameChar_of_mem hName c hc)⟩
  have hNe : List.replicate stars '*' ++ name ≠ [] := by simp [(isWord_of_isIdentifier hName).1]
  rw [List.append_assoc]
  exact (type.isTypeText.append hNe hEnding).2

theorem isParameterText (parameter : CParameter) : IsParameterText parameter.text := by
  cases parameter with
  | named type stars name hName _ => exact (isTypeText_named type stars hName).isParameterText
  | pointer returned name hName arguments => exact isParameterText_pointerText returned.isTypeText hName arguments

theorem getLast?_text_ne {parameter : CParameter} (h : parameter.isPointer = false) :
    ∀ c ∈ parameter.text.getLast?, c ≠ ')' := by
  cases parameter with
  | pointer returned name _ arguments => cases h
  | named type stars name hName _ => exact (isTypeText_named type stars hName).getLast?_ne

theorem type_ne_nil (parameter : CParameter) : parameter.type ≠ [] := by
  cases parameter with
  | named type stars name _ _ => simp [CParameter.type, type.isTypeText.ne_nil]
  | pointer returned name _ arguments => simp [CParameter.type, text]

theorem space_mem_text (parameter : CParameter) : ' ' ∈ parameter.text := by
  cases parameter <;> simp [text]

theorem attributeFree_text {parameter : CParameter} (h : parameter.IsAttributeFree) :
    AttributeFree parameter.text := by
  cases parameter with
  | named type stars name hName _ => exact (isTypeText_named type stars hName).attributeFree
  | pointer returned name hName arguments => exact attributeFree_pointerText returned.isTypeText hName h

theorem trim_type_append (type : CType) (stars : Nat) :
    trim (type.text ++ ' ' :: List.replicate stars '*') = type.text ++ starsText true stars := by
  have hType := type.isTypeText
  cases stars with
  | zero => exact (trim_append_space hType.trimmed).trans (List.append_nil _).symm
  | succ n =>
    have hNe : List.replicate (n + 1) '*' ≠ [] := by simp
    have hStars := hType.append hNe fun c hc => Or.inr (List.eq_of_mem_replicate hc)
    exact trim_eq_self hStars.2.trimmed

/-- Before the name of a parameter stands a space or a star. -/
theorem exists_eq_append_separator (type : CType) (stars : Nat) :
    ∃ front c, (c = ' ' ∨ c = '*') ∧ type.text ++ ' ' :: List.replicate stars '*' = front ++ [c] := by
  cases stars with
  | zero => exact ⟨type.text, ' ', Or.inl rfl, rfl⟩
  | succ n =>
    refine ⟨type.text ++ ' ' :: List.replicate n '*', '*', Or.inr rfl, ?_⟩
    rw [List.replicate_succ', ← List.cons_append, List.append_assoc]

theorem read_text (parameter : CParameter) :
    Declarator.read parameter.text = ⟨parameter.type, parameter.name?.getD []⟩ := by
  cases parameter with
  | pointer returned name hName arguments => exact Declarator.read_pointerText returned.isTypeText hName arguments
  | named type stars name hName hWord =>
    have hType := isTypeText_named type stars hName
    obtain ⟨front, c, hc, hFront⟩ := exists_eq_append_separator type stars
    have hBase := type.written.any_not_isQualifier
    rw [← type.written.runs_text (' ' :: List.replicate stars '*') fun d hd =>
      (List.mem_cons.mp hd).imp id List.eq_of_mem_replicate] at hBase
    change (runs _ (type.text ++ ' ' :: List.replicate stars '*')).any _ = true at hBase
    rw [hFront] at hType hBase
    have hRead := Declarator.read_named hType hc hName hWord hBase
    rw [← hFront, trim_type_append] at hRead
    exact hRead

end CParameter

end HeaderDigest
