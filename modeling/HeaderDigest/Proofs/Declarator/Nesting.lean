import HeaderDigest.Declarator.ParameterList
import HeaderDigest.Proofs.Text.Blanks

/-!
# Where a parameter list is cut

Each kind of bracket is counted on its own, so what is open behind a text is told by three balances. A
comma cuts a list just when all of them are zero in front of it. A text with no such comma stays in one
piece, and cutting goes on behind it with the brackets that it leaves open.
-/

namespace HeaderDigest

open Text

/-- Whether a character is a bracket that counts when a list is cut. -/
def isListBracket (c : Char) : Bool := ['(', ')', '[', ']', '<', '>'].contains c

namespace Nesting

/-- What is open behind a text. -/
def through (nesting : Nesting) (s : Text) : Nesting := s.foldl feed nesting

theorem through_append (nesting : Nesting) (s t : Text) :
    nesting.through (s ++ t) = (nesting.through s).through t := List.foldl_append

theorem isTop_iff {nesting : Nesting} : nesting.isTop = true ↔ nesting = {} := by
  cases nesting
  simp [isTop, and_assoc]

theorem feed_eq (nesting : Nesting) (c : Char) :
    nesting.feed c = ⟨nesting.parens + balance '(' ')' [c], nesting.squares + balance '[' ']' [c],
      nesting.angles + balance '<' '>' [c]⟩ := by
  unfold feed
  repeat' split
  all_goals simp_all [balance, Int.sub_eq_add_neg]

/-- The three kinds of brackets do not know of each other. -/
theorem through_eq (nesting : Nesting) (s : Text) :
    nesting.through s = ⟨nesting.parens + balance '(' ')' s, nesting.squares + balance '[' ']' s,
      nesting.angles + balance '<' '>' s⟩ := by
  induction s generalizing nesting with
  | nil => simp [through, balance_nil]
  | cons c s ih =>
    have hStep : nesting.through (c :: s) = (nesting.feed c).through s := rfl
    rw [hStep, ih, feed_eq, balance_cons '(' ')' c s, balance_cons '[' ']' c s, balance_cons '<' '>' c s]
    simp only [Int.add_assoc]

theorem through_eq_self (nesting : Nesting) {s : Text} (h : ∀ c ∈ s, isListBracket c = false) :
    nesting.through s = nesting := by
  have hBalance {opening closing : Char} (hNe : opening ≠ closing) (hOpening : isListBracket opening = true)
      (hClosing : isListBracket closing = true) : balance opening closing s = 0 := by
    apply balance_eq_zero hNe
    apply Balanced.of_not_mem
    · exact fun hMem => Bool.false_ne_true ((h _ hMem).symm.trans hOpening)
    · exact fun hMem => Bool.false_ne_true ((h _ hMem).symm.trans hClosing)
  rw [through_eq, hBalance (by decide) (by decide) (by decide), hBalance (by decide) (by decide) (by decide),
    hBalance (by decide) (by decide) (by decide)]
  simp only [Int.add_zero]

theorem through_inj {nesting nesting' : Nesting} {s : Text} (h : nesting.through s = nesting'.through s) :
    nesting = nesting' := by
  cases nesting
  cases nesting'
  simpa only [through_eq, Nesting.mk.injEq, Int.add_left_inj] using h

theorem through_of_blank (nesting : Nesting) {s : Text} (h : ∀ c ∈ s, isBlank c = true) :
    nesting.through s = nesting := by
  have hBracket : ∀ c ∈ ['(', ')', '[', ']', '<', '>'], isBlank c = false := by decide
  apply nesting.through_eq_self
  intro c hc
  rw [Bool.eq_false_iff, isListBracket, Ne, List.contains_iff_mem]
  exact fun hMem => not_mem_of_blank h (hBracket c hMem) hc

end Nesting

/-- Whether no comma in a text cuts a list in which the text begins at `nesting`. -/
def Uncut (nesting : Nesting) (s : Text) : Prop :=
  ∀ u v, s = u ++ ',' :: v → (nesting.through u).isTop = false

variable {nesting : Nesting} {s t : Text}

theorem uncut_nil (nesting : Nesting) : Uncut nesting [] := by
  intro u v h
  cases u <;> cases h

theorem uncut_cons_iff {c : Char} :
    Uncut nesting (c :: s) ↔ (c = ',' && nesting.isTop) = false ∧ Uncut (nesting.feed c) s := by
  constructor
  · intro h
    refine ⟨?_, fun u v hText => h (c :: u) v (congrArg (c :: ·) hText)⟩
    rw [Bool.and_eq_false_imp, decide_eq_true_eq]
    rintro rfl
    exact h [] s rfl
  · rintro ⟨hFirst, hRest⟩ u v hText
    cases u with
    | nil =>
      obtain ⟨rfl, -⟩ := List.cons.inj hText
      simpa [Nesting.through] using hFirst
    | cons d u =>
      obtain ⟨rfl, rfl⟩ := List.cons.inj hText
      exact hRest u v rfl

theorem uncut_append_iff : Uncut nesting (s ++ t) ↔ Uncut nesting s ∧ Uncut (nesting.through s) t := by
  induction s generalizing nesting with
  | nil => exact ⟨fun h => ⟨uncut_nil nesting, h⟩, And.right⟩
  | cons c s ih => rw [List.cons_append, uncut_cons_iff, uncut_cons_iff, ih, and_assoc]; rfl

theorem Uncut.of_not_mem (nesting : Nesting) (h : ',' ∉ s) : Uncut nesting s := by
  rintro u v rfl
  exact absurd (List.mem_append_right u List.mem_cons_self) h

instance decidableUncut : (nesting : Nesting) → (s : Text) → Decidable (Uncut nesting s)
  | nesting, [] => isTrue (uncut_nil nesting)
  | nesting, c :: s =>
    have := decidableUncut (nesting.feed c) s
    decidable_of_iff _ uncut_cons_iff.symm

theorem uncut_or_exists_first_cut (nesting : Nesting) (s : Text) :
    Uncut nesting s ∨ ∃ u v, s = u ++ ',' :: v ∧ Uncut nesting u ∧ nesting.through u = {} := by
  induction s generalizing nesting with
  | nil => exact Or.inl (uncut_nil nesting)
  | cons c s ih =>
    cases hFirst : (c = ',' && nesting.isTop) with
    | true =>
      obtain ⟨hComma, hTop⟩ := Bool.and_eq_true_iff.mp hFirst
      obtain rfl := of_decide_eq_true hComma
      exact Or.inr ⟨[], s, rfl, uncut_nil nesting, Nesting.isTop_iff.mp hTop⟩
    | false =>
      obtain hRest | ⟨u, v, rfl, hUncut, hTop⟩ := ih (nesting.feed c)
      · exact Or.inl (uncut_cons_iff.mpr ⟨hFirst, hRest⟩)
      · exact Or.inr ⟨c :: u, v, rfl, uncut_cons_iff.mpr ⟨hFirst, hUncut⟩, hTop⟩

theorem uncut_or_exists_last_cut (nesting : Nesting) (s : Text) :
    Uncut nesting s ∨ ∃ u v, s = u ++ ',' :: v ∧ nesting.through u = {} ∧ Uncut {} v := by
  induction s generalizing nesting with
  | nil => exact Or.inl (uncut_nil nesting)
  | cons c s ih =>
    obtain hRest | ⟨u, v, rfl, hTop, hUncut⟩ := ih (nesting.feed c)
    · cases hFirst : (c = ',' && nesting.isTop) with
      | true =>
        obtain ⟨hComma, hTop⟩ := Bool.and_eq_true_iff.mp hFirst
        obtain rfl := of_decide_eq_true hComma
        obtain rfl := Nesting.isTop_iff.mp hTop
        exact Or.inr ⟨[], s, rfl, rfl, hRest⟩
      | false => exact Or.inl (uncut_cons_iff.mpr ⟨hFirst, hRest⟩)
    · exact Or.inr ⟨c :: u, v, rfl, hTop, hUncut⟩

theorem piecesFrom_ne_nil (nesting : Nesting) (s : Text) : piecesFrom nesting s ≠ [] := by
  cases s with
  | nil => simp [piecesFrom]
  | cons c s =>
    rw [piecesFrom]
    split
    · simp
    · split <;> simp

theorem piecesFrom_cons {c : Char} (h : (c = ',' && nesting.isTop) = false) (s : Text) :
    piecesFrom nesting (c :: s) = (piecesFrom (nesting.feed c) s).modifyHead (c :: ·) := by
  rw [piecesFrom, if_neg (by simpa using h)]
  cases hPieces : piecesFrom (nesting.feed c) s with
  | nil => exact absurd hPieces (piecesFrom_ne_nil _ s)
  | cons piece more => rfl

theorem piecesFrom_append_of_uncut (h : Uncut nesting s) (rest : Text) :
    piecesFrom nesting (s ++ rest) = (piecesFrom (nesting.through s) rest).modifyHead (s ++ ·) := by
  induction s generalizing nesting with
  | nil => exact (congrFun List.modifyHead_id (piecesFrom nesting rest)).symm
  | cons c s ih =>
    obtain ⟨hFirst, hRest⟩ := uncut_cons_iff.mp h
    rw [List.cons_append, piecesFrom_cons hFirst, ih hRest, List.modifyHead_modifyHead]
    rfl

theorem piecesFrom_of_uncut (h : Uncut nesting s) : piecesFrom nesting s = [s] := by
  have hPieces := piecesFrom_append_of_uncut h []
  rwa [List.append_nil, piecesFrom, List.modifyHead_cons, List.append_nil] at hPieces

/-- A comma that cuts parts what stands before it from what stands behind it. -/
theorem piecesFrom_append_comma (h : nesting.through s = {}) (rest : Text) :
    piecesFrom nesting (s ++ ',' :: rest) = piecesFrom nesting s ++ piecesFrom {} rest := by
  induction s generalizing nesting with
  | nil =>
    obtain rfl : nesting = {} := h
    rfl
  | cons c s ih =>
    cases hFirst : (c = ',' && nesting.isTop) with
    | true =>
      obtain ⟨hComma, -⟩ := Bool.and_eq_true_iff.mp hFirst
      obtain rfl := of_decide_eq_true hComma
      have hRest : nesting.through s = {} := h
      rw [List.cons_append, piecesFrom, if_pos hFirst, piecesFrom, if_pos hFirst, ih hRest, List.cons_append]
    | false =>
      obtain ⟨piece, more, hPieces⟩ := List.exists_cons_of_ne_nil (piecesFrom_ne_nil (nesting.feed c) s)
      rw [List.cons_append, piecesFrom_cons hFirst, piecesFrom_cons hFirst, ih h, hPieces]
      rfl

/-- The last piece of a text goes on behind it. -/
theorem piecesFrom_append {init : List Text} {last : Text} (h : piecesFrom nesting s = init ++ [last])
    (rest : Text) :
    piecesFrom nesting (s ++ rest) = init ++ (piecesFrom (nesting.through s) rest).modifyHead (last ++ ·) := by
  obtain hUncut | ⟨u, v, rfl, hTop, hUncut⟩ := uncut_or_exists_last_cut nesting s
  · have hPieces : [] ++ [s] = init ++ [last] := (piecesFrom_of_uncut hUncut).symm.trans h
    obtain ⟨rfl, hLast⟩ := List.append_inj' hPieces rfl
    obtain rfl := List.singleton_inj.mp hLast
    rw [piecesFrom_append_of_uncut hUncut, List.nil_append]
  · rw [piecesFrom_append_comma hTop, piecesFrom_of_uncut hUncut] at h
    obtain ⟨rfl, hLast⟩ := List.append_inj' h rfl
    obtain rfl := List.singleton_inj.mp hLast
    have hThrough : nesting.through (u ++ ',' :: v) = Nesting.through {} v := by
      rw [Nesting.through_append, hTop]
      rfl
    rw [List.append_assoc, List.cons_append, piecesFrom_append_comma hTop, piecesFrom_append_of_uncut hUncut,
      hThrough]

end HeaderDigest
