import HeaderDigest.Prototype.Function

/-!
# What reading a prototype gives

Reading succeeds exactly when each part of the prototype is found and its name may be shown, and
the record then holds these parts.
-/

namespace HeaderDigest

open Text

theorem Function.read_eq_of_declarationBody? {declaration declaration' : Text}
    (h : declarationBody? declaration = declarationBody? declaration') (doc : Doc) (file : Text)
    (line : Nat) (includePrivate : Bool) :
    Function.read declaration doc file line includePrivate =
      Function.read declaration' doc file line includePrivate := by
  rw [Function.read, h, Function.read]

/-- Only the words of a declaration count. -/
theorem Function.read_congr {declaration declaration' : Text}
    (h : normalize declaration = normalize declaration') (doc : Doc) (file : Text) (line : Nat)
    (includePrivate : Bool) :
    Function.read declaration doc file line includePrivate =
      Function.read declaration' doc file line includePrivate := by
  apply Function.read_eq_of_declarationBody?
  rw [declarationBody?, h, declarationBody?]

/-- A declaration is a prototype with these parts. -/
structure HasParts (declaration head list : Text) (parts : Head) : Prop where
  signature : (declarationBody? declaration).bind splitSignature? = some (head, list)
  shape : (matchShape? head).map Prod.snd = some parts
  identifier : isIdentifier parts.name = true
  functionName : nonFunctionWords.contains parts.name = false

def Function.ofParts (list : Text) (parts : Head) (doc : Doc) (file : Text) (line : Nat) : Function where
  name := parts.name
  returnType := parts.returnType
  parameters := Function.readParameters list doc
  brief := doc.brief
  description := doc.description
  file := file
  line := line

theorem Function.read_of_hasParts {declaration head list : Text} {parts : Head}
    (h : HasParts declaration head list parts) (doc : Doc) (file : Text) (line : Nat)
    (includePrivate : Bool) :
    Function.read declaration doc file line includePrivate =
      if !includePrivate && isPrivateName parts.name then .error .hidden
      else .ok (Function.ofParts list parts doc file line) := by
  obtain ⟨body, hBody, hSignature⟩ := Option.bind_eq_some_iff.mp h.signature
  obtain ⟨⟨shape, parts'⟩, hShape, hParts⟩ := Option.map_eq_some_iff.mp h.shape
  cases hParts
  unfold Function.read
  simp only [hBody, hSignature, hShape, h.identifier, h.functionName, Bool.not_true, Bool.false_or,
    Bool.false_eq_true, if_false]
  split <;> rfl

theorem Function.exists_hasParts_of_read {declaration : Text} {doc : Doc} {file : Text} {line : Nat}
    {includePrivate : Bool} {record : Function}
    (h : Function.read declaration doc file line includePrivate = .ok record) :
    ∃ head list parts, HasParts declaration head list parts ∧
      (includePrivate = true ∨ isPrivateName parts.name = false) ∧
        record = Function.ofParts list parts doc file line := by
  unfold Function.read at h
  cases hBody : declarationBody? declaration with
  | none => rw [hBody] at h; cases h
  | some body =>
    cases hSignature : splitSignature? body with
    | none => simp only [hBody, hSignature] at h; cases h
    | some signature =>
      obtain ⟨head, list⟩ := signature
      cases hShape : matchShape? head with
      | none => simp only [hBody, hSignature, hShape] at h; cases h
      | some fit =>
        obtain ⟨shape, parts⟩ := fit
        simp only [hBody, hSignature, hShape] at h
        split at h
        · cases h
        · rename_i hName
          rw [Bool.or_eq_true, not_or, Bool.not_eq_true', Bool.not_eq_false, Bool.not_eq_true] at hName
          split at h
          · cases h
          · rename_i hVisible
            cases h
            refine ⟨head, list, parts, ⟨?_, ?_, hName.1, hName.2⟩, ?_, rfl⟩
            · rw [hBody, Option.bind_some, hSignature]
            · rw [hShape, Option.map_some]
            · cases includePrivate with
              | true => exact Or.inl rfl
              | false => exact Or.inr (Bool.eq_false_iff.mpr hVisible)

theorem Function.read_hiding (declaration : Text) (doc : Doc) (file : Text) (line : Nat) :
    Function.read declaration doc file line false =
      match Function.read declaration doc file line true with
      | .ok record => if isPrivateName record.name then .error .hidden else .ok record
      | .error refusal => .error refusal := by
  unfold Function.read
  cases hBody : declarationBody? declaration with
  | none => rfl
  | some body =>
    cases hSignature : splitSignature? body with
    | none => simp only [hSignature]; rfl
    | some signature =>
      obtain ⟨head, list⟩ := signature
      cases hShape : matchShape? head with
      | none => simp only [hSignature, hShape]; rfl
      | some fit =>
        obtain ⟨shape, parts⟩ := fit
        simp only [hSignature, hShape]
        split
        · rfl
        · simp only [Bool.not_false, Bool.true_and, Bool.not_true, Bool.false_and]
          split
          · rename_i hPrivate
            exact (if_pos hPrivate).symm
          · rename_i hPublic
            exact (if_neg hPublic).symm

end HeaderDigest
