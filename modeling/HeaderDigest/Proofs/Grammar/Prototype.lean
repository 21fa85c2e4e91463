import HeaderDigest.Declaration.Seed
import HeaderDigest.Declaration.Span
import HeaderDigest.Proofs.Declaration.Line
import HeaderDigest.Proofs.Grammar.Signature
import HeaderDigest.Proofs.Source.InlineComment
import HeaderDigest.Proofs.Text.Lines

/-!
# Prototypes as they are written

A prototype is written on one line: the type that is returned, the name, and the parameters in
parentheses, of which `void` says that there are none. Such a line is a declaration of its own,
and its parts are read from it.
-/

namespace HeaderDigest

open Text

structure CPrototype where
  returned : CType
  name : Text
  parameters : List CParameter
  isIdentifier_name : isIdentifier name = true
  functionName : nonFunctionWords.contains name = false
  names_nodup : (parameters.filterMap CParameter.name?).Nodup

def listText (parameters : List CParameter) : Text :=
  if parameters = [] then "void".toList else joinPieces (parameters.map CParameter.text)

namespace CPrototype

variable (prototype : CPrototype)

def head : Text := prototype.returned.text ++ ' ' :: prototype.name

def body : Text := prototype.head ++ '(' :: listText prototype.parameters ++ [')']

def text : Text := prototype.body ++ [';']

/-- The type that is returned holds a letter or a digit. If the last parameter is a pointer to a
function, no attribute begins in such a pointer. -/
structure IsReadable : Prop where
  returned : prototype.returned.text.any Char.isAlphanum = true
  attributeFree : (∃ parameter ∈ prototype.parameters.getLast?, parameter.isPointer = true) →
    ∀ parameter ∈ prototype.parameters, parameter.IsAttributeFree

end CPrototype

theorem isListText_listText (parameters : List CParameter) : IsListText (listText parameters) := by
  unfold listText
  split
  · exact isListText_void
  · rename_i hNe
    apply isListText_joinPieces (by simp [hNe])
    exact List.forall_mem_map.mpr fun parameter _ => parameter.isParameterText

theorem attributeFree_listText {parameters : List CParameter}
    (h : ∀ parameter ∈ parameters, parameter.IsAttributeFree) : AttributeFree (listText parameters) := by
  unfold listText
  split
  · exact AttributeFree.of_not_mem (by decide)
  · rename_i hNe
    apply attributeFree_joinPieces (by simp [hNe])
    exact List.forall_mem_map.mpr fun parameter hParameter => CParameter.attributeFree_text (h parameter hParameter)

theorem getLast?_listText_ne {parameters : List CParameter}
    (h : ∀ parameter ∈ parameters.getLast?, parameter.isPointer = false) :
    ∀ c ∈ (listText parameters).getLast?, c ≠ ')' := by
  unfold listText
  split
  · rintro c ⟨⟩
    decide
  · rename_i hNe
    obtain ⟨front, last, rfl⟩ := (List.eq_nil_or_concat parameters).resolve_left hNe
    rw [List.concat_eq_append] at h ⊢
    rw [List.map_append, List.map_singleton, getLast?_joinPieces _ last.isParameterText.ne_nil]
    exact CParameter.getLast?_text_ne (h last List.getLast?_concat)

theorem readParameters_listText (parameters : List CParameter) (doc : Doc) :
    Function.readParameters (listText parameters) doc =
      parameters.map fun parameter => ⟨parameter.type, parameter.name?.getD [],
        doc.param (parameter.name?.getD [])⟩ := by
  by_cases hNil : parameters = []
  · rw [hNil]
    rfl
  · rw [listText, if_neg hNil]
    have hSpace : ' ' ∈ joinPieces (parameters.map CParameter.text) := by
      apply joinPieces_induction (by simp [hNil])
      · exact List.forall_mem_map.mpr fun parameter _ => parameter.space_mem_text
      · intro u v hu _
        exact List.mem_append_left _ hu
    have hVoid : joinPieces (parameters.map CParameter.text) ≠ "void".toList := by
      intro hText
      rw [hText] at hSpace
      exact absurd hSpace (by decide)
    exact readParameters_joinPieces CParameter.text (fun parameter => ⟨parameter.type, parameter.name?.getD []⟩)
      hNil (fun parameter _ => ⟨parameter.isParameterText, parameter.read_text, parameter.type_ne_nil⟩) hVoid doc

namespace CPrototype

variable (prototype : CPrototype)

theorem head_eq : prototype.head = prototype.returned.text ++ [' '] ++ prototype.name := by simp [head]

theorem isTypeText_head : IsTypeText prototype.head :=
  (prototype.returned.isTypeText.append (isWord_of_isIdentifier prototype.isIdentifier_name).1
    fun c hc => Or.inl (isNameChar_of_mem prototype.isIdentifier_name c hc)).2

theorem mem_text {c : Char} (h : c ∈ prototype.text) : isParameterChar c = true ∨ c = ';' :=
  mem_signatureText prototype.isTypeText_head (isListText_listText prototype.parameters) h

theorem balanced_text : Balanced '(' ')' prototype.text :=
  balanced_signatureText prototype.isTypeText_head (isListText_listText prototype.parameters)

theorem singleSpaced_text : SingleSpaced prototype.text ∧ Trimmed prototype.text :=
  singleSpaced_signatureText prototype.isTypeText_head (isListText_listText prototype.parameters)

theorem isSignature (h : prototype.IsReadable) :
    IsSignature (prototype.returned.text ++ [' ']) prototype.name (listText prototype.parameters) where
  isTypeText_head := prototype.head_eq ▸ prototype.isTypeText_head
  isListText_list := isListText_listText prototype.parameters
  isIdentifier_name := prototype.isIdentifier_name
  functionName := prototype.functionName
  wordStart := by
    rw [List.getLast?_concat]
    rintro c ⟨⟩
    rfl
  alphanum := by rw [List.any_append, h.returned, Bool.true_or]
  noAttribute := by
    by_cases hLast : ∃ parameter ∈ prototype.parameters.getLast?, parameter.isPointer = true
    · exact Or.inl (attributeFree_listText (h.attributeFree hLast))
    · refine Or.inr (getLast?_listText_ne fun parameter hParameter => ?_)
      rw [Bool.eq_false_iff]
      intro hPointer
      exact hLast ⟨parameter, hParameter, hPointer⟩

theorem hasParts_text (h : prototype.IsReadable) :
    HasParts prototype.text prototype.head (listText prototype.parameters)
      ⟨prototype.returned.text, prototype.name⟩ := by
  have hParts := (prototype.isSignature h).hasParts
  rwa [trim_append_space prototype.returned.isTypeText.trimmed, ← prototype.head_eq] at hParts

theorem not_mem_text {c : Char} (hc : ¬(isParameterChar c = true ∨ c = ';')) : c ∉ prototype.text :=
  fun hMem => hc (prototype.mem_text hMem)

theorem isLine_text : IsLine prototype.text := by
  constructor
  · exact prototype.not_mem_text (by decide)
  · intro hLast
    exact prototype.not_mem_text (by decide) (List.mem_of_getLast? hLast)

theorem withoutComments_text : withoutComments prototype.text = prototype.text :=
  withoutComments_of_not_mem (prototype.not_mem_text (by decide))

theorem exists_text_eq_cons : ∃ c rest, prototype.text = c :: rest ∧ isNameStart c = true := by
  obtain ⟨c, rest, hHead, hStart⟩ := prototype.isTypeText_head.starts
  exact ⟨c, _, by rw [text, body, hHead]; rfl, hStart⟩

theorem startsWith_text {c : Char} (hc : isNameStart c = false) (more : Text) :
    startsWith (c :: more) prototype.text = false := by
  obtain ⟨d, rest, hText, hStart⟩ := prototype.exists_text_eq_cons
  have hNe : (c == d) = false := by
    rw [beq_eq_false_iff_ne]
    rintro rfl
    exact absurd (hc.symm.trans hStart) (by decide)
  rw [hText, startsWith, List.isPrefixOf, hNe, Bool.false_and]

theorem opensBlock_text : opensBlock prototype.text = false := by
  have hStart := prototype.startsWith_text (c := '/') (by decide) ['*', '*']
  rw [opensBlock, trimStart_eq_self prototype.singleSpaced_text.2.1]
  simp [hStart]

theorem looksLikeFunctionStart_text : looksLikeFunctionStart prototype.text = true := by
  have hTrim := trim_eq_self prototype.singleSpaced_text.2
  have hSlash := prototype.startsWith_text (c := '/') (by decide)
  have hStar := prototype.startsWith_text (c := '*') (by decide)
  have hHash := prototype.startsWith_text (c := '#') (by decide)
  have hNe : prototype.text ≠ [] := by simp [text]
  have hOpen : '(' ∈ prototype.text := by simp [text, body]
  have hClose : ')' ∈ prototype.text := by simp [text, body]
  have hEnd : ';' ∈ prototype.text := by simp [text]
  have hEquals : '=' ∉ prototype.text := prototype.not_mem_text (by decide)
  have hPassed : isPassedOver prototype.text = false := by
    simp [isPassedOver, hNe, hSlash, hStar, hHash]
  simp [looksLikeFunctionStart, hTrim, hPassed, hOpen, hClose, hEnd, hEquals]

theorem isTypeSeed_text : isTypeSeed prototype.text = false := by
  have hBrace : '{' ∉ prototype.text := prototype.not_mem_text (by decide)
  have hTypedef : startsWithTypedef prototype.text = false := by
    rw [startsWithTypedef, trimStart_eq_self prototype.singleSpaced_text.2.1, beq_eq_false_iff_ne]
    have hText : prototype.text = prototype.returned.text ++
        ' ' :: (prototype.name ++ '(' :: listText prototype.parameters ++ [')'] ++ [';']) := by
      simp [text, body, head]
    rw [hText]
    exact prototype.returned.takeWhile_text_ne _
  simp [isTypeSeed, prototype.looksLikeFunctionStart_text, hTypedef, hBrace]

theorem role_text : LineRole.of (trim prototype.text) = .seed .function := by
  have hSlash := prototype.startsWith_text (c := '/') (by decide)
  have hStar := prototype.startsWith_text (c := '*') (by decide)
  have hHash := prototype.startsWith_text (c := '#') (by decide)
  have hNe : prototype.text ≠ [] := by simp [text]
  rw [trim_eq_self prototype.singleSpaced_text.2]
  simp [LineRole.of, prototype.opensBlock_text, hNe, prototype.isTypeSeed_text,
    prototype.looksLikeFunctionStart_text, hSlash, hStar, hHash]

theorem functionLength?_text (rest : List Text) :
    functionLength? 0 (prototype.text :: rest) = some 1 := by
  have hBalance := balance_eq_zero (by decide) prototype.balanced_text
  have hEnd : ';' ∈ prototype.text := by simp [text]
  rw [functionLength?, prototype.withoutComments_text, hBalance]
  simp [hEnd]

end CPrototype

end HeaderDigest
