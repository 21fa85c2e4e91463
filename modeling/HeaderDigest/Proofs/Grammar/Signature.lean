import HeaderDigest.Proofs.Grammar.Parameter
import HeaderDigest.Proofs.Prototype.Form
import Mathlib.Data.List.Basic

/-!
# Signatures as they are written

A signature is a head, which is a type with a name behind it, and a list of parameters in
parentheses. Its parts are read from it, unless the type that is returned holds no letter and no
digit, or the end of the list is taken for an attribute.
-/

namespace HeaderDigest

open Text

theorem isListText_void : IsListText "void".toList where
  chars := by decide
  balanced := Balanced.of_not_mem (by decide) (by decide)
  singleSpaced := by decide
  endsBlank := by decide
  starts := ⟨'v', "oid".toList, rfl, by decide⟩

theorem IsListText.join {u v : Text} (hu : IsListText u) (hv : IsListText v) :
    IsListText (u ++ ',' :: ' ' :: v) where
  chars := by
    rw [List.forall_mem_append]
    constructor
    · exact hu.chars
    · exact List.forall_mem_cons.mpr ⟨rfl, List.forall_mem_cons.mpr ⟨rfl, hv.chars⟩⟩
  balanced := hu.balanced.append ((hv.balanced.char (by decide) (by decide)).char (by decide) (by decide))
  singleSpaced := by
    have hComma : SingleSpaced (u ++ [',']) := hu.singleSpaced.append (by decide) (Or.inl hu.endsBlank)
    have hEnd : Text.endsBlank (u ++ [',']) = false := by
      rw [Text.endsBlank, List.getLast?_concat]
      rfl
    have h := hComma.append_space hv.singleSpaced hEnd hv.trimmed.1
    rwa [List.append_assoc] at h
  endsBlank := by
    have hText : u ++ ',' :: ' ' :: v = u ++ [',', ' '] ++ v := by simp
    rw [hText, endsBlank_append _ hv.ne_nil]
    exact hv.endsBlank
  starts := by
    obtain ⟨c, rest, rfl, hStart⟩ := hu.starts
    exact ⟨c, _, rfl, hStart⟩

theorem joinPieces_induction {motive : Text → Prop} {pieces : List Text} (hNe : pieces ≠ [])
    (h : ∀ piece ∈ pieces, motive piece)
    (join : ∀ u v, motive u → motive v → motive (u ++ ',' :: ' ' :: v)) :
    motive (joinPieces pieces) := by
  induction pieces with
  | nil => exact absurd rfl hNe
  | cons piece more ih =>
    have hPiece := h piece List.mem_cons_self
    cases more with
    | nil => rwa [joinPieces_singleton]
    | cons next more =>
      rw [joinPieces_cons_cons]
      exact join _ _ hPiece (ih (List.cons_ne_nil _ _) fun p hp => h p (List.mem_cons_of_mem piece hp))

theorem isListText_joinPieces {pieces : List Text} (hNe : pieces ≠ [])
    (h : ∀ piece ∈ pieces, IsParameterText piece) : IsListText (joinPieces pieces) :=
  joinPieces_induction hNe (fun piece hPiece => (h piece hPiece).toIsListText) fun _ _ => IsListText.join

theorem attributeFree_joinPieces {pieces : List Text} (hNe : pieces ≠ [])
    (h : ∀ piece ∈ pieces, AttributeFree piece) : AttributeFree (joinPieces pieces) := by
  refine joinPieces_induction hNe h ?_
  intro u v hu hv
  apply AttributeFree.append_cons _ _ _ hu
  · exact hv.cons (by decide)
  · decide
  · decide
  · intro hc
    exact absurd hc (by decide)

/-- A list ends in what its last piece ends in. -/
theorem getLast?_joinPieces (pieces : List Text) {last : Text} (hLast : last ≠ []) :
    (joinPieces (pieces ++ [last])).getLast? = last.getLast? := by
  obtain ⟨u, hu⟩ := suffix_joinPieces pieces last
  rw [← hu, List.getLast?_append, List.getLast?_eq_some_getLast hLast, Option.some_or]

theorem readParameters_joinPieces {α : Type} {parameters : List α} (text : α → Text)
    (declarator : α → Declarator) (hNe : parameters ≠ [])
    (h : ∀ parameter ∈ parameters, IsParameterText (text parameter) ∧
      Declarator.read (text parameter) = declarator parameter ∧ (declarator parameter).type ≠ [])
    (hVoid : joinPieces (parameters.map text) ≠ "void".toList) (doc : Doc) :
    Function.readParameters (joinPieces (parameters.map text)) doc =
      parameters.map fun parameter => ⟨(declarator parameter).type, (declarator parameter).name,
        doc.param (declarator parameter).name⟩ := by
  have hPieces : ∀ piece ∈ parameters.map text, IsParameterText piece :=
    List.forall_mem_map.mpr fun parameter hParameter => (h parameter hParameter).1
  have hEmpty : (joinPieces (parameters.map text)).isEmpty = false := by
    simpa using (isListText_joinPieces (by simpa using hNe) hPieces).ne_nil
  have hSplit : splitTopLevel (joinPieces (parameters.map text)) = parameters.map text :=
    splitTopLevel_joinPieces fun piece hPiece =>
      ⟨(hPieces piece hPiece).piece, (hPieces piece hPiece).trimmed, (hPieces piece hPiece).ne_nil⟩
  have hNot : ¬((joinPieces (parameters.map text)).isEmpty || joinPieces (parameters.map text) = "void".toList) =
      true := by
    rw [hEmpty, Bool.false_or, decide_eq_true_eq]
    exact hVoid
  rw [Function.readParameters, if_neg hNot, hSplit, List.map_map, List.filterMap_map,
    List.filterMap_eq_map_iff_forall_eq_some]
  intro parameter hParameter
  obtain ⟨-, hRead, hType⟩ := h parameter hParameter
  simp [Function.comp_apply, hRead, hType]

def signatureText (head list : Text) : Text := head ++ '(' :: list ++ [')']

section Texts

variable {head list : Text} (hHead : IsTypeText head) (hList : IsListText list)

include hHead hList

theorem mem_signatureText {c : Char} (h : c ∈ signatureText head list ++ [';']) :
    isParameterChar c = true ∨ c = ';' := by
  simp only [signatureText, List.mem_append, List.mem_cons, List.not_mem_nil, or_false] at h
  rcases h with ((h | rfl | h) | rfl) | rfl
  · exact Or.inl (isParameterChar_of_typeChar (hHead.chars c h))
  · decide
  · exact Or.inl (hList.chars c h)
  · decide
  · decide

theorem balanced_signatureText : Balanced '(' ')' (signatureText head list ++ [';']) := by
  have hText : signatureText head list ++ [';'] = head ++ ('(' :: list ++ [')']) ++ [';'] := by
    simp [signatureText]
  rw [hText]
  exact (hHead.balanced.append hList.balanced.bracketed).append (Balanced.of_not_mem (by decide) (by decide))

theorem singleSpaced_signatureText : SingleSpaced (signatureText head list ++ [';']) ∧
    Trimmed (signatureText head list ++ [';']) := by
  have hOpen : SingleSpaced (head ++ ['(']) := hHead.singleSpaced.append (by decide) (Or.inl hHead.endsBlank)
  have hAll := (hOpen.append hList.singleSpaced (Or.inr hList.trimmed.1)).append
    (v := [')', ';']) (by decide) (Or.inr rfl)
  have hText : signatureText head list ++ [';'] = head ++ ['('] ++ list ++ [')', ';'] := by
    simp [signatureText]
  rw [hText]
  refine ⟨hAll, ?_, ?_⟩
  · rw [List.append_assoc, List.append_assoc, startsBlank_append _ hHead.ne_nil]
    exact hHead.trimmed.1
  · rw [endsBlank_append _ (by decide)]
    rfl

theorem attributeFree_signatureText (h : AttributeFree list) : AttributeFree (signatureText head list) := by
  have hNoOpen : '(' ∉ head := hHead.not_mem (by decide)
  have hEnd : AttributeFree (list ++ ')' :: []) := h.append_closing (AttributeFree.of_not_mem (by simp))
  have hText : signatureText head list = head ++ '(' :: (list ++ [')']) := by simp [signatureText]
  rw [hText]
  refine AttributeFree.append_cons (by decide) (by decide) (fun _ => ⟨?_, ?_⟩) hHead.attributeFree hEnd
  · intro hLast
    exact hNoOpen (List.mem_of_getLast? hLast)
  · intro hOpen
    obtain ⟨c, rest, hText, hStart⟩ := hList.starts
    rw [hText] at hOpen
    cases hOpen
    cases hStart

omit hHead in
theorem not_suffix_signatureText (h : ∀ c ∈ list.getLast?, c ≠ ')') :
    ¬[')', ')'] <:+ signatureText head list := by
  rintro ⟨front, hFront⟩
  have hText : signatureText head list = head ++ ['('] ++ list ++ [')'] := by simp [signatureText]
  have hBefore : front ++ [')'] = head ++ ['('] ++ list := by
    have hAll : front ++ [')'] ++ [')'] = head ++ ['('] ++ list ++ [')'] := by
      rw [List.append_assoc, ← hText]
      exact hFront
    exact List.append_cancel_right hAll
  have hLast := congrArg List.getLast? hBefore
  rw [List.getLast?_concat, List.getLast?_append, List.getLast?_eq_some_getLast hList.ne_nil,
    Option.some_or] at hLast
  apply h ')' _ rfl
  rw [List.getLast?_eq_some_getLast hList.ne_nil, ← hLast]
  rfl

theorem declarationBody?_signatureText (h : AttributeFree list ∨ ∀ c ∈ list.getLast?, c ≠ ')') :
    declarationBody? (signatureText head list ++ [';']) = some (signatureText head list) := by
  obtain ⟨hSpaced, hTrimmed⟩ := singleSpaced_signatureText hHead hList
  have hEnd : endsBlank (signatureText head list) = false := by
    rw [signatureText, endsBlank_append _ (List.cons_ne_nil _ _)]
    rfl
  have hTail : withoutAttributeTail (signatureText head list) = signatureText head list := by
    obtain h | h := h
    · exact withoutAttributeTail_of_attributeFree (attributeFree_signatureText hHead hList h)
    · exact withoutAttributeTail_of_not_suffix (not_suffix_signatureText hList h)
  rw [declarationBody?, normalize_eq_self hSpaced hTrimmed, dropSuffix?_append, Option.map_some,
    trimEnd_eq_self hEnd, hTail]

end Texts

/-- A list of parameters behind a name, and `front` before the name. -/
structure IsSignature (front name list : Text) : Prop where
  isTypeText_head : IsTypeText (front ++ name)
  isListText_list : IsListText list
  isIdentifier_name : isIdentifier name = true
  functionName : nonFunctionWords.contains name = false
  wordStart : ∀ c ∈ front.getLast?, isWordChar c = false
  alphanum : front.any Char.isAlphanum = true
  noAttribute : AttributeFree list ∨ ∀ c ∈ list.getLast?, c ≠ ')'

theorem IsSignature.hasParts {front name list : Text} (h : IsSignature front name list) :
    HasParts (signatureText (front ++ name) list ++ [';']) (front ++ name) list ⟨trim front, name⟩ := by
  have hBody := declarationBody?_signatureText h.isTypeText_head h.isListText_list h.noAttribute
  have hCut : IsCut (signatureText (front ++ name) list) front name [] list :=
    { text := by simp [signatureText]
      enclosed := h.isListText_list.balanced.enclosed (by decide)
      gap_blank := by simp
      identifier := h.isIdentifier_name
      functionName := h.functionName
      wordStart := h.wordStart
      alphanum := h.alphanum }
  have hParts := hasParts_of_isCut hBody hCut
  rwa [trim_eq_self h.isListText_list.trimmed] at hParts

end HeaderDigest
