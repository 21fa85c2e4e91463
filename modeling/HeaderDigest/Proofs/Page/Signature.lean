import HeaderDigest.Page.Markdown
import HeaderDigest.Proofs.Grammar.Signature
import HeaderDigest.Proofs.Grammar.Unnamed

/-!
# Signatures on a page

The signature on a page is a prototype again, and what is read from it is what it was printed from.
The printer puts a space between a type and a name unless the type ends in a star; the reader finds
the name behind either.
-/

namespace HeaderDigest

open Text

inductive Parameter.IsDeclarable : Parameter → Prop
  | named (type : WrittenType) (name description : Text) (isIdentifier_name : isIdentifier name = true)
      (isTypeWord_name : isTypeWord name = false) : IsDeclarable ⟨type.text, name, description⟩
  | unnamed (type : WrittenType) (description : Text) : IsDeclarable ⟨type.text, [], description⟩
  | pointer (returned : WrittenType) (name : Text) (arguments : CArguments) (description : Text)
      (isIdentifier_name : isIdentifier name = true) :
      IsDeclarable ⟨pointerText returned.text name arguments.text, [], description⟩

namespace Function

structure IsDeclarable (function : Function) : Prop where
  returned : ∃ type : WrittenType, function.returnType = type.text
  isIdentifier_name : isIdentifier function.name = true
  functionName : nonFunctionWords.contains function.name = false
  parameters : ∀ parameter ∈ function.parameters, parameter.IsDeclarable
  not_void : function.parameters.map (fun parameter => (parameter.type, parameter.name)) ≠ [("void".toList, [])]

/-- The type that is returned holds a letter or a digit. If the last parameter is a pointer to a
function, no attribute begins in such a pointer. -/
structure IsReadable (function : Function) : Prop where
  returned : function.returnType.any Char.isAlphanum = true
  attributeFree : (∃ last ∈ function.parameters.getLast?, '(' ∈ last.type) →
    ∀ parameter ∈ function.parameters, AttributeFree parameter.type

/-- Reading a signature gives a record with the same name, types and parameters. -/
def IsReadBack (function : Function) : Prop :=
  ∀ doc file line, ∃ record,
    Function.read (Markdown.signature function) doc file line true = .ok record ∧
      record.name = function.name ∧ record.returnType = function.returnType ∧
      record.parameters.map (fun parameter => (parameter.type, parameter.name)) =
        function.parameters.map fun parameter => (parameter.type, parameter.name)

end Function

namespace Markdown

/-- The name stands behind the type and is set off by a space or a star. -/
theorem declarator_text (type : WrittenType) {name : Text} (hName : isIdentifier name = true) :
    ∃ front c, (c = ' ' ∨ c = '*') ∧ declarator type.text name = front ++ [c] ++ name ∧
      trim (front ++ [c]) = type.text ∧ IsTypeText (front ++ [c] ++ name) ∧
      runs (fun d => !isBlank d && d != '*') (front ++ [c]) = type.words := by
  have hType := type.isTypeText
  have hNe := (isWord_of_isIdentifier hName).1
  have hGroup : hasPart ['(', '*'] type.text = false :=
    hasPart_eq_false_of_not_mem List.mem_cons_self (hType.not_mem (by decide))
  have hEmpty : (name.isEmpty || hasPart ['(', '*'] type.text) = false := by
    rw [hGroup, Bool.or_false]
    simpa using hNe
  obtain ⟨hBeside, hSpaced⟩ := hType.append hNe fun c hc => Or.inl (isNameChar_of_mem hName c hc)
  rw [declarator, hEmpty, if_neg Bool.false_ne_true]
  cases hStar : endsWith ['*'] type.text with
  | true =>
    obtain ⟨front, hFront⟩ := List.isSuffixOf_iff_suffix.mp hStar
    refine ⟨front, '*', Or.inr rfl, ?_, ?_, ?_, ?_⟩
    · rw [hFront, if_pos rfl]
    · rw [hFront, trim_eq_self hType.trimmed]
    · rwa [hFront]
    · have hRuns := type.runs_text [] (by simp)
      rwa [List.append_nil, ← hFront] at hRuns
  | false =>
    refine ⟨type.text, ' ', Or.inl rfl, ?_, ?_, ?_, type.runs_text [' '] (by simp)⟩
    · simp
    · exact trim_append_space hType.trimmed
    · simpa using hSpaced

end Markdown

namespace Parameter.IsDeclarable

variable {parameter : Parameter}

theorem isParameterText (h : parameter.IsDeclarable) :
    IsParameterText (Markdown.declarator parameter.type parameter.name) := by
  cases h with
  | named type name _ hName _ =>
    obtain ⟨front, c, -, hText, -, hType, -⟩ := Markdown.declarator_text type hName
    rw [hText]
    exact hType.isParameterText
  | unnamed type => exact type.isTypeText.isParameterText
  | pointer returned name arguments _ hName => exact isParameterText_pointerText returned.isTypeText hName arguments

theorem read_declarator (h : parameter.IsDeclarable) :
    Declarator.read (Markdown.declarator parameter.type parameter.name) = ⟨parameter.type, parameter.name⟩ := by
  cases h with
  | named type name _ hName hWord =>
    obtain ⟨front, c, hc, hText, hTrim, hType, hRuns⟩ := Markdown.declarator_text type hName
    have hBase := hRuns ▸ type.any_not_isQualifier
    rw [hText, Declarator.read_named hType hc hName hWord hBase, hTrim]
  | unnamed type => exact Declarator.read_type type
  | pointer returned name arguments _ hName =>
    exact Declarator.read_pointerText returned.isTypeText hName arguments

theorem type_ne_nil (h : parameter.IsDeclarable) : parameter.type ≠ [] := by
  cases h with
  | named type => exact type.isTypeText.ne_nil
  | unnamed type => exact type.isTypeText.ne_nil
  | pointer => simp [pointerText]

theorem attributeFree (h : parameter.IsDeclarable) (hType : AttributeFree parameter.type) :
    AttributeFree (Markdown.declarator parameter.type parameter.name) := by
  cases h with
  | named type name _ hName _ =>
    obtain ⟨front, c, -, hText, -, hType, -⟩ := Markdown.declarator_text type hName
    rw [hText]
    exact hType.attributeFree
  | unnamed type => exact hType
  | pointer => exact hType

theorem getLast?_ne (h : parameter.IsDeclarable) (hType : '(' ∉ parameter.type) :
    ∀ c ∈ (Markdown.declarator parameter.type parameter.name).getLast?, c ≠ ')' := by
  cases h with
  | named type name _ hName _ =>
    obtain ⟨front, c, -, hText, -, hType, -⟩ := Markdown.declarator_text type hName
    rw [hText]
    exact hType.getLast?_ne
  | unnamed type => exact type.isTypeText.getLast?_ne
  | pointer => exact absurd (by simp [pointerText]) hType

end Parameter.IsDeclarable

def Parameter.listText (parameters : List Parameter) : Text :=
  if parameters.isEmpty then "void".toList
  else joinPieces (parameters.map fun parameter => Markdown.declarator parameter.type parameter.name)

namespace Function.IsDeclarable

variable {function : Function}

theorem isListText (h : function.IsDeclarable) : IsListText (Parameter.listText function.parameters) := by
  unfold Parameter.listText
  split
  · exact isListText_void
  · rename_i hNe
    apply isListText_joinPieces (by simpa using hNe)
    exact List.forall_mem_map.mpr fun parameter hParameter => (h.parameters parameter hParameter).isParameterText

theorem noAttribute (h : function.IsDeclarable) (hReadable : function.IsReadable) :
    AttributeFree (Parameter.listText function.parameters) ∨
      ∀ c ∈ (Parameter.listText function.parameters).getLast?, c ≠ ')' := by
  unfold Parameter.listText
  split
  · exact Or.inl (AttributeFree.of_not_mem (by decide))
  · rename_i hNe
    have hNe : function.parameters ≠ [] := by simpa using hNe
    by_cases hLast : ∃ last ∈ function.parameters.getLast?, '(' ∈ last.type
    · refine Or.inl (attributeFree_joinPieces (by simpa using hNe) (List.forall_mem_map.mpr ?_))
      intro parameter hParameter
      exact (h.parameters parameter hParameter).attributeFree (hReadable.attributeFree hLast parameter hParameter)
    · obtain ⟨front, last, hFront⟩ := (List.eq_nil_or_concat function.parameters).resolve_left hNe
      rw [List.concat_eq_append] at hFront
      have hDeclarable := h.parameters last (by simp [hFront])
      refine Or.inr ?_
      rw [hFront, List.map_append, List.map_singleton, getLast?_joinPieces _ hDeclarable.isParameterText.ne_nil]
      exact hDeclarable.getLast?_ne fun hMem => hLast ⟨last, by simp [hFront], hMem⟩

/-- Only the unnamed `void` alone looks like a list of no parameters. -/
theorem joinPieces_ne_void (h : function.IsDeclarable) (hNe : function.parameters ≠ []) :
    joinPieces (function.parameters.map fun parameter => Markdown.declarator parameter.type parameter.name) ≠
      "void".toList := by
  intro hVoid
  have hParameters := h.parameters
  have hNot := h.not_void
  generalize function.parameters = parameters at hNe hVoid hParameters hNot
  match parameters with
  | [] => exact hNe rfl
  | [parameter] =>
    rw [List.map_singleton, joinPieces_singleton] at hVoid
    have hRead := (hParameters parameter List.mem_cons_self).read_declarator
    have hText : Declarator.read "void".toList = ⟨"void".toList, []⟩ := by decide
    rw [hVoid, hText, Declarator.mk.injEq] at hRead
    apply hNot
    rw [List.map_singleton, ← hRead.1, ← hRead.2]
  | first :: second :: more =>
    have hComma : ',' ∈ "void".toList := by
      rw [← hVoid, List.map_cons, List.map_cons, joinPieces_cons_cons]
      simp
    exact absurd hComma (by decide)

theorem readParameters_listText (h : function.IsDeclarable) (doc : Doc) :
    Function.readParameters (Parameter.listText function.parameters) doc =
      function.parameters.map fun parameter => ⟨parameter.type, parameter.name, doc.param parameter.name⟩ := by
  by_cases hNe : function.parameters = []
  · rw [hNe]
    rfl
  · rw [Parameter.listText, if_neg (by simpa using hNe)]
    apply readParameters_joinPieces _ (fun parameter => ⟨parameter.type, parameter.name⟩) hNe
    · intro parameter hParameter
      have hDeclarable := h.parameters parameter hParameter
      exact ⟨hDeclarable.isParameterText, hDeclarable.read_declarator, hDeclarable.type_ne_nil⟩
    · exact h.joinPieces_ne_void hNe

end Function.IsDeclarable

theorem Markdown.signature_eq (function : Function) :
    signature function = signatureText (declarator function.returnType function.name)
      (Parameter.listText function.parameters) ++ [';'] := by
  simp only [signature, signatureText, List.append_assoc]
  rfl

/-- What is printed as a signature is read back. -/
theorem Function.read_signature {function : Function} (h : function.IsDeclarable)
    (hReadable : function.IsReadable) : function.IsReadBack := by
  intro doc file line
  obtain ⟨type, hReturned⟩ := h.returned
  obtain ⟨front, c, hc, hText, hTrim, hType, -⟩ := Markdown.declarator_text type h.isIdentifier_name
  have hSignature : IsSignature (front ++ [c]) function.name (Parameter.listText function.parameters) :=
    { isTypeText_head := hType
      isListText_list := h.isListText
      isIdentifier_name := h.isIdentifier_name
      functionName := h.functionName
      wordStart := by
        rw [List.getLast?_concat]
        rintro d ⟨⟩
        rcases hc with rfl | rfl <;> rfl
      alphanum := by rw [← any_isAlphanum_trim, hTrim, ← hReturned, hReadable.returned]
      noAttribute := h.noAttribute hReadable }
  have hParts := hSignature.hasParts
  rw [hTrim, ← hText, ← hReturned, ← Markdown.signature_eq] at hParts
  refine ⟨_, Function.read_of_hasParts hParts doc file line true, rfl, rfl, ?_⟩
  rw [Function.ofParts, h.readParameters_listText doc, List.map_map]
  rfl

def wordsType (before base after : List Text) (stars : Nat) (hBefore : ∀ word ∈ before, isQualifier word = true)
    (hBase : isTypeName base = true) (hAfter : ∀ word ∈ after, isQualifier word = true) : WrittenType :=
  ⟨before, base, after, true, stars, hBefore, hBase, hAfter⟩

/-- `item_t const *find(unsigned int n, const item_t, int (*test)(item_t *, int (*)(int)));` -/
def findFunction : Function where
  name := "find".toList
  returnType := "item_t const *".toList
  parameters := [⟨"unsigned int".toList, "n".toList, []⟩, ⟨"const item_t".toList, [], []⟩,
    ⟨"int (*test)(item_t *, int (*)(int))".toList, [], []⟩]
  brief := []
  description := []
  file := []
  line := 1

theorem Function.read_signature_findFunction :
    findFunction.IsDeclarable ∧ findFunction.IsReadable ∧ findFunction.IsReadBack := by
  have hDeclarable : findFunction.IsDeclarable := by
    refine ⟨⟨wordsType [] ["item_t".toList] ["const".toList] 1 (by decide) (by decide) (by decide), by decide⟩,
      by decide, by decide, ?_, by decide⟩
    refine List.forall_mem_cons.mpr ⟨?_, List.forall_mem_cons.mpr ⟨?_, List.forall_mem_singleton.mpr ?_⟩⟩
    · exact .named (wordsType [] ["unsigned".toList, "int".toList] [] 0 (by decide) (by decide) (by decide))
        "n".toList [] (by decide) (by decide)
    · exact .unnamed (wordsType ["const".toList] ["item_t".toList] [] 0 (by decide) (by decide) (by decide)) []
    · exact .pointer (wordsType [] ["int".toList] [] 0 (by decide) (by decide) (by decide)) "test".toList
        { text := "item_t *, int ".toList ++ ('(' :: "*".toList ++ [')']) ++ ('(' :: "int".toList ++ [')'])
          chars := by decide
          identifiers := by decide
          balanced := ((Balanced.of_not_mem (by decide) (by decide)).append
            (Balanced.of_not_mem (by decide) (by decide)).bracketed).append
              (Balanced.of_not_mem (by decide) (by decide)).bracketed
          singleSpaced := by decide } [] (by decide)
  have hReadable : findFunction.IsReadable := by
    refine ⟨by decide, fun _ => ?_⟩
    refine List.forall_mem_cons.mpr ⟨?_, List.forall_mem_cons.mpr ⟨?_, List.forall_mem_singleton.mpr ?_⟩⟩
    all_goals exact AttributeFree.of_hasPart (by decide)
  exact ⟨hDeclarable, hReadable, Function.read_signature hDeclarable hReadable⟩

theorem Function.not_isReadBack_of_read {function : Function} (refusal : Refusal)
    (h : Function.read (Markdown.signature function) {} [] 0 true = .error refusal) : ¬function.IsReadBack := by
  intro hBack
  obtain ⟨record, hRead, -⟩ := hBack {} [] 0
  rw [h] at hRead
  cases hRead

/-- `_ f(void);` -/
def underscoreFunction : Function := ⟨"f".toList, "_".toList, [], [], [], [], 1⟩

/-- A type that is only an underscore is not taken for a type. -/
theorem Function.not_forall_read_signature :
    ¬∀ function : Function, function.IsDeclarable → function.IsReadBack := by
  intro h
  have hDeclarable : underscoreFunction.IsDeclarable :=
    { returned := ⟨wordsType [] ["_".toList] [] 0 (by decide) (by decide) (by decide), by decide⟩
      isIdentifier_name := by decide
      functionName := by decide
      parameters := by simp [underscoreFunction]
      not_void := by decide }
  exact Function.not_isReadBack_of_read .unknownShape (by decide) (h underscoreFunction hDeclarable)

/-- `void f(int (*q)(foo__attribute__((x))));` -/
def attributeFunction : Function :=
  ⟨"f".toList, "void".toList, [⟨"int (*q)(foo__attribute__((x)))".toList, [], []⟩], [], [], [], 1⟩

/-- The end of a word in a pointer to a function may be taken for the word of an attribute. -/
theorem Function.not_isReadBack_attributeFunction :
    attributeFunction.IsDeclarable ∧ ¬attributeFunction.IsReadBack := by
  refine ⟨?_, Function.not_isReadBack_of_read .missingParameterList (by decide)⟩
  refine ⟨⟨wordsType [] ["void".toList] [] 0 (by decide) (by decide) (by decide), by decide⟩, by decide,
    by decide, List.forall_mem_singleton.mpr ?_, by decide⟩
  exact .pointer (wordsType [] ["int".toList] [] 0 (by decide) (by decide) (by decide)) "q".toList
    { text := "foo__attribute__".toList ++ ('(' :: ('(' :: "x".toList ++ [')']) ++ [')'])
      chars := by decide
      identifiers := by decide
      balanced := (Balanced.of_not_mem (by decide) (by decide)).append
        (Balanced.of_not_mem (by decide) (by decide)).bracketed.bracketed
      singleSpaced := by decide } [] (by decide)

end HeaderDigest
