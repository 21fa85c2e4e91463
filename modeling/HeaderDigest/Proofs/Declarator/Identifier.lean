import HeaderDigest.Declarator.Vocabulary
import HeaderDigest.Proofs.Text.Words

/-!
# Identifiers

An identifier is a word of ASCII letters, digits and underscores. All words of the vocabulary are
identifiers.
-/

namespace HeaderDigest

open Text

/-- What an identifier goes on with. -/
def isNameChar (c : Char) : Bool := c.isAlphanum || c == '_'

theorem toNat_lt_of_isNameChar {c : Char} (h : isNameChar c = true) : c.toNat < 128 := by
  rw [isNameChar, Char.isAlphanum, Bool.or_eq_true, Bool.or_eq_true] at h
  rcases h with (h | h) | h
  · exact toNat_lt_of_isNameStart c (by simp [isNameStart, h])
  · simp only [Char.isDigit, Bool.and_eq_true, decide_eq_true_eq, UInt32.le_iff_toNat_le] at h
    have hc : c.toNat = c.val.toNat := rfl
    have hNine : '9'.val.toNat = 57 := rfl
    omega
  · rw [beq_iff_eq.mp h]
    decide

theorem isWordChar_of_isNameChar {c : Char} (h : isNameChar c = true) : isWordChar c = true := by
  rw [isWordChar, if_pos (toNat_lt_of_isNameChar h)]
  exact h

theorem isNameChar_of_isNameStart {c : Char} (h : isNameStart c = true) : isNameChar c = true := by
  rw [isNameStart, Bool.or_eq_true] at h
  rw [isNameChar, Char.isAlphanum, Bool.or_eq_true, Bool.or_eq_true]
  exact h.imp_left Or.inl

theorem isBlank_of_isNameChar {c : Char} (h : isNameChar c = true) : isBlank c = false :=
  isBlank_eq_false_of_isWordChar (isWordChar_of_isNameChar h)

theorem exists_eq_cons_of_isIdentifier {w : Text} (h : isIdentifier w = true) :
    ∃ c rest, w = c :: rest ∧ isNameStart c = true ∧ ∀ d ∈ rest, isNameChar d = true := by
  cases w with
  | nil => cases h
  | cons c rest =>
    obtain ⟨hStart, hRest⟩ := Bool.and_eq_true_iff.mp h
    exact ⟨c, rest, rfl, hStart, List.all_eq_true.mp hRest⟩

theorem isNameChar_of_mem {w : Text} (h : isIdentifier w = true) : ∀ c ∈ w, isNameChar c = true := by
  obtain ⟨d, rest, rfl, hStart, hRest⟩ := exists_eq_cons_of_isIdentifier h
  rw [List.forall_mem_cons]
  constructor
  · exact isNameChar_of_isNameStart hStart
  · exact hRest

theorem not_mem_of_isIdentifier {w : Text} (h : isIdentifier w = true) {c : Char} (hc : isNameChar c = false) :
    c ∉ w :=
  fun hMem => Bool.false_ne_true (hc.symm.trans (isNameChar_of_mem h c hMem))

theorem startsBlank_of_isNameStart {s : Text} (h : ∃ c rest, s = c :: rest ∧ isNameStart c = true) :
    startsBlank s = false := by
  obtain ⟨c, rest, rfl, hStart⟩ := h
  exact isBlank_of_isNameChar (isNameChar_of_isNameStart hStart)

theorem exists_joinWords_eq_cons {ws : List Text} (hNe : ws ≠ [])
    (h : ∀ w ∈ ws, isIdentifier w = true) : ∃ c rest, joinWords ws = c :: rest ∧ isNameStart c = true := by
  obtain ⟨w, more, rfl⟩ := List.exists_cons_of_ne_nil hNe
  obtain ⟨c, rest, rfl, hStart, -⟩ := exists_eq_cons_of_isIdentifier (h w List.mem_cons_self)
  cases more with
  | nil => exact ⟨c, rest, joinWords_singleton _, hStart⟩
  | cons v more => exact ⟨c, _, joinWords_cons_cons _ v more, hStart⟩

theorem isWord_of_isIdentifier {w : Text} (h : isIdentifier w = true) : IsWord w := by
  refine ⟨?_, fun c hc => isBlank_of_isNameChar (isNameChar_of_mem h c hc)⟩
  rintro rfl
  cases h

theorem isWordName_of_isIdentifier {w : Text} (h : isIdentifier w = true) : isWordName w = true := by
  obtain ⟨c, rest, rfl, hStart, hRest⟩ := exists_eq_cons_of_isIdentifier h
  rw [isWordName, hStart, Bool.true_and, List.all_eq_true]
  intro d hd
  exact isWordChar_of_isNameChar (hRest d hd)

theorem isIdentifier_of_isQualifier {w : Text} (h : isQualifier w = true) : isIdentifier w = true := by
  have key : ∀ w ∈ qualifiers, isIdentifier w = true := by decide
  exact key w (List.contains_iff_mem.mp h)

theorem isIdentifier_of_builtin {w : Text} (h : builtinTypeWords.contains w = true) :
    isIdentifier w = true ∧ isQualifier w = false := by
  have key : ∀ w ∈ builtinTypeWords, isIdentifier w = true ∧ isQualifier w = false := by decide
  exact key w (List.contains_iff_mem.mp h)

end HeaderDigest
