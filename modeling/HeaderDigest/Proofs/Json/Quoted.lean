import HeaderDigest.Json.Reader

/-!
# Escaped texts

What is written for a text between the quotes of a JSON string means this text, and a reader stops
at the quote that closes it.
-/

namespace HeaderDigest.Json

open Text

theorem hexValue?_hexDigit {n : Nat} (h : n < 16) : hexValue? (hexDigit n) = some n := by
  have key : ∀ m < 16, hexValue? (hexDigit m) = some m := by decide
  exact key n h

theorem unit?_hexDigit {n : Nat} (h : n < 256) :
    unit? '0' '0' (hexDigit (n / 16)) (hexDigit (n % 16)) = some n := by
  have hZero : hexValue? '0' = some 0 := by decide
  have hHigh := hexValue?_hexDigit (n := n / 16) (by omega)
  have hLow := hexValue?_hexDigit (n := n % 16) (Nat.mod_lt n (by decide))
  rw [unit?, hZero, hHigh, hLow]
  change some (((0 * 16 + 0) * 16 + n / 16) * 16 + n % 16) = some n
  congr 1
  omega

/-- A character is written with a letter behind a backslash, as its number, or as it is. -/
theorem escapeChar_cases (c : Char) :
    (∃ letter, letterEscape? letter = some c ∧ escapeChar c = ['\\', letter]) ∨
      (c.toNat < 32 ∧ escapeChar c =
        ['\\', 'u', '0', '0', hexDigit (c.toNat / 16), hexDigit (c.toNat % 16)]) ∨
      (c ≠ '"' ∧ c ≠ '\\' ∧ ¬c.toNat < 32 ∧ escapeChar c = [c]) := by
  have hNumber {n : Nat} (h : c.toNat = n) : Char.ofNat n = c := by rw [← h, Char.ofNat_toNat]
  by_cases hQuote : c = '"'
  · exact Or.inl ⟨'"', by rw [hQuote]; rfl, by rw [hQuote]; rfl⟩
  by_cases hBackslash : c = '\\'
  · exact Or.inl ⟨'\\', by rw [hBackslash]; rfl, by rw [hBackslash]; rfl⟩
  by_cases hBackspace : c.toNat = 8
  · exact Or.inl ⟨'b', by rw [← hNumber hBackspace]; rfl, by rw [← hNumber hBackspace]; rfl⟩
  by_cases hFormFeed : c.toNat = 12
  · exact Or.inl ⟨'f', by rw [← hNumber hFormFeed]; rfl, by rw [← hNumber hFormFeed]; rfl⟩
  by_cases hLineFeed : c = '\n'
  · exact Or.inl ⟨'n', by rw [hLineFeed]; rfl, by rw [hLineFeed]; rfl⟩
  by_cases hReturn : c = '\r'
  · exact Or.inl ⟨'r', by rw [hReturn]; rfl, by rw [hReturn]; rfl⟩
  by_cases hTab : c = '\t'
  · exact Or.inl ⟨'t', by rw [hTab]; rfl, by rw [hTab]; rfl⟩
  unfold escapeChar
  rw [if_neg hQuote, if_neg hBackslash, if_neg hBackspace, if_neg hFormFeed, if_neg hLineFeed,
    if_neg hReturn, if_neg hTab]
  by_cases hControl : c.toNat < 32
  · exact Or.inr (Or.inl ⟨hControl, if_pos hControl⟩)
  · exact Or.inr (Or.inr ⟨hQuote, hBackslash, hControl, if_neg hControl⟩)

theorem ne_of_letterEscape? {letter c : Char} (h : letterEscape? letter = some c) : letter ≠ 'u' := by
  rintro rfl
  cases h

theorem unescape?_escapeChar (c : Char) (s : Text) :
    unescape? (escapeChar c ++ s) = (unescape? s).map (c :: ·) := by
  obtain ⟨letter, hLetter, hText⟩ | ⟨hControl, hText⟩ | ⟨hQuote, hBackslash, hControl, hText⟩ :=
    escapeChar_cases c
  · have hNumber : ∀ a b d e more, letter = 'u' → s = a :: b :: d :: e :: more → False :=
      fun _ _ _ _ _ h _ => ne_of_letterEscape? hLetter h
    rw [hText, List.cons_append, List.cons_append, List.nil_append, unescape?, hLetter]
    exact hNumber
  · have hUnit := unit?_hexDigit (n := c.toNat) (by omega)
    have hTrailing : isTrailingSurrogate c.toNat = false := by
      simp [isTrailingSurrogate]
      omega
    have hLeading : isLeadingSurrogate c.toNat = false := by
      simp [isLeadingSurrogate]
      omega
    rw [hText]
    simp only [List.cons_append, List.nil_append, unescape?, hUnit, hTrailing, hLeading,
      Bool.false_eq_true, if_false, Char.ofNat_toNat]
  · have hPlain : (c = '\\' || c = '"' || c.toNat < 32) = false := by
      simp [hQuote, hBackslash]
      omega
    rw [hText, List.cons_append, List.nil_append, unescape?.eq_def]
    split
    · contradiction
    · rename_i h
      exact absurd (List.cons.inj h).1 hBackslash
    · rename_i h
      exact absurd (List.cons.inj h).1 hBackslash
    · rename_i h
      obtain ⟨rfl, rfl⟩ := List.cons.inj h
      rw [hPlain]
      rfl

theorem readString?_escapeChar (c : Char) (s : Text) :
    readString? (escapeChar c ++ s) =
      (readString? s).map fun (written, after) => (escapeChar c ++ written, after) := by
  obtain ⟨letter, hLetter, hText⟩ | ⟨hControl, hText⟩ | ⟨hQuote, hBackslash, hControl, hText⟩ :=
    escapeChar_cases c
  · have hNumber : ∀ a b d e more, letter = 'u' → s = a :: b :: d :: e :: more → False :=
      fun _ _ _ _ _ h _ => ne_of_letterEscape? hLetter h
    rw [hText, List.cons_append, List.cons_append, List.nil_append, readString?, hLetter]
    · rfl
    · exact hNumber
  · have hUnit := unit?_hexDigit (n := c.toNat) (by omega)
    rw [hText]
    simp only [List.cons_append, List.nil_append, readString?, hUnit, Option.isSome_some, if_true]
  · have hPlain : (c = '\\' || c.toNat < 32) = false := by
      simp [hBackslash]
      omega
    rw [hText, List.cons_append, List.nil_append, readString?.eq_def]
    split
    · contradiction
    · rename_i h
      exact absurd (List.cons.inj h).1 hQuote
    · rename_i h
      exact absurd (List.cons.inj h).1 hBackslash
    · rename_i h
      exact absurd (List.cons.inj h).1 hBackslash
    · rename_i h
      obtain ⟨rfl, rfl⟩ := List.cons.inj h
      rw [hPlain]
      rfl

theorem escape_cons (c : Char) (s : Text) : escape (c :: s) = escapeChar c ++ escape s :=
  List.flatMap_cons

theorem unescape?_escape (s : Text) : unescape? (escape s) = some s := by
  induction s with
  | nil => rfl
  | cons c s ih => rw [escape_cons, unescape?_escapeChar, ih, Option.map_some]

theorem readString?_escape (s rest : Text) :
    readString? (escape s ++ '"' :: rest) = some (escape s, rest) := by
  induction s with
  | nil => rfl
  | cons c s ih => rw [escape_cons, List.append_assoc, readString?_escapeChar, ih, Option.map_some]

end HeaderDigest.Json
