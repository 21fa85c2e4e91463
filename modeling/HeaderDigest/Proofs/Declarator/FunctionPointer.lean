import HeaderDigest.Declarator.Parts
import HeaderDigest.Proofs.Declarator.PointerGroup
import HeaderDigest.Proofs.Text.Brackets
import HeaderDigest.Proofs.Text.Spacing

/-!
# Where a function pointer ends

A parameter is a function pointer if a pointer group stands in it, the parenthesis behind the group opens
arguments, and these are closed. The first such group counts. All up to the parenthesis that closes the
arguments is the type, however deep they are nested, and only an identifier behind it is a name.
-/

namespace HeaderDigest

open Text

def OpensArguments (text : Text) : Prop := ∃ stars name, IsGroupText stars name text

namespace OpensArguments

variable {opening : Text}

theorem exists_eq (h : OpensArguments opening) : ∃ inner, opening = '(' :: (inner ++ ['(']) := by
  obtain ⟨stars, name, h⟩ := h
  obtain ⟨b₁, b₂, b₃, b₄, -, rfl⟩ := h.written
  exact ⟨b₁ ++ (stars ++ (b₂ ++ (name ++ (b₃ ++ ')' :: b₄)))), by simp⟩

theorem exists_read? (h : OpensArguments opening) (arguments : Text) :
    ∃ group, PointerGroup.read? (opening ++ arguments) = some group ∧ group.arguments = arguments := by
  obtain ⟨stars, name, h⟩ := h
  exact ⟨_, PointerGroup.read?_of_isGroupText h arguments, rfl⟩

theorem trim_append (h : OpensArguments opening) (u v : Text) :
    trim (u ++ opening ++ v) = trimStart u ++ opening ++ trimEnd v := by
  obtain ⟨inner, rfl⟩ := h.exists_eq
  have hText : u ++ '(' :: (inner ++ ['(']) ++ v = u ++ '(' :: (inner ++ '(' :: v) := by simp
  rw [hText, trim_append_cons rfl, trimEnd_append_cons rfl]
  simp

theorem length_before (h : OpensArguments opening) {s u v : Text} (hText : s = u ++ opening ++ v) :
    u.length = (s.takeWhile isBlank).length + (trimStart u).length := by
  obtain ⟨inner, rfl⟩ := h.exists_eq
  have hBlanks : s.takeWhile isBlank = u.takeWhile isBlank := by
    rw [hText, List.append_assoc, List.cons_append, takeWhile_append_cons_of_neg rfl]
  have hLength := congrArg List.length (List.takeWhile_append_dropWhile (p := isBlank) (l := u))
  rw [List.length_append] at hLength
  rw [hBlanks, trimStart, hLength]

end OpensArguments

/-- Arguments open behind `front`, and none open further ahead. -/
structure OpensFirst (s front opening rest : Text) : Prop where
  text : s = front ++ opening ++ rest
  opens : OpensArguments opening
  first : ∀ u o v, s = u ++ o ++ v → OpensArguments o → front.length ≤ u.length

theorem Declarator.opensFirst_of_splitArguments? {s before rest : Text}
    (h : splitArguments? s = some (before, rest)) :
    ∃ front opening, OpensFirst s front opening rest ∧ before = front ++ opening := by
  induction s generalizing before with
  | nil => cases h
  | cons c s ih =>
    rw [splitArguments?] at h
    split at h
    · rename_i group hGroup
      obtain ⟨opening, hOpening, hText⟩ := PointerGroup.exists_isGroupText_of_read? hGroup
      cases h
      refine ⟨[], opening, ⟨hText, ⟨_, _, hOpening⟩, fun u _ _ _ _ => Nat.zero_le u.length⟩, ?_⟩
      rw [hText, List.length_append, Nat.add_sub_cancel, List.take_left]
      rfl
    · rename_i hNone
      split at h
      · cases h
      · obtain ⟨⟨before', rest'⟩, hRest, hParts⟩ := Option.map_eq_some_iff.mp h
        obtain ⟨rfl, rfl⟩ := Prod.mk.inj hParts
        obtain ⟨front, opening, ⟨rfl, hOpens, hFirst⟩, rfl⟩ := ih hRest
        refine ⟨c :: front, opening, ⟨rfl, hOpens, fun u o v hText hOther => ?_⟩, rfl⟩
        cases u with
        | nil =>
          obtain ⟨group, hGroup, -⟩ := hOther.exists_read? v
          rw [← List.nil_append o, ← hText, hNone] at hGroup
          cases hGroup
        | cons d u => exact Nat.succ_le_succ (hFirst u o v (List.cons.inj hText).2 hOther)

theorem OpensFirst.splitArguments? {s front opening rest : Text} (h : OpensFirst s front opening rest)
    (hLine : '\n' ∉ front) : Declarator.splitArguments? s = some (front ++ opening, rest) := by
  obtain ⟨rfl, hOpens, hFirst⟩ := h
  induction front with
  | nil =>
    obtain ⟨group, hGroup, hRest⟩ := hOpens.exists_read? rest
    obtain ⟨inner, rfl⟩ := hOpens.exists_eq
    rw [List.cons_append] at hGroup
    rw [List.nil_append, List.cons_append, Declarator.splitArguments?, hGroup]
    simp only [hRest]
    rw [← List.cons_append, List.length_append, Nat.add_sub_cancel, List.take_left]
  | cons c front ih =>
    obtain ⟨hc, hLine⟩ := List.ne_and_not_mem_of_not_mem_cons hLine
    have hNone : PointerGroup.read? (c :: (front ++ opening ++ rest)) = none := by
      rw [Option.eq_none_iff_forall_ne_some]
      intro group hGroup
      obtain ⟨text, hText, hWhole⟩ := PointerGroup.exists_isGroupText_of_read? hGroup
      exact absurd (hFirst [] text _ hWhole ⟨_, _, hText⟩) (Nat.not_succ_le_zero _)
    have hRest := ih hLine fun u o v hText hOther =>
      Nat.le_of_succ_le_succ (hFirst (c :: u) o v (congrArg (c :: ·) hText) hOther)
    rw [List.cons_append, List.cons_append, Declarator.splitArguments?, hNone]
    simp only [if_neg (Ne.symm hc), hRest, Option.map_some]

/-- No group stands ahead of the first parenthesis. -/
theorem OpensArguments.opensFirst {front opening : Text} (h : OpensArguments opening) (hFront : '(' ∉ front)
    (rest : Text) : OpensFirst (front ++ opening ++ rest) front opening rest := by
  refine ⟨rfl, h, fun u o v hText hOther => ?_⟩
  obtain ⟨inner, rfl⟩ := hOther.exists_eq
  rw [List.append_assoc, List.append_assoc, List.append_eq_append_iff] at hText
  obtain ⟨between, rfl, -⟩ | ⟨between, rfl, hOpening⟩ := hText
  · rw [List.length_append]
    exact Nat.le_add_right _ _
  · cases between with
    | nil => rw [List.append_nil]
    | cons c between =>
      obtain ⟨rfl, -⟩ := List.cons.inj hOpening
      exact absurd (List.mem_append_right u List.mem_cons_self) hFront

/-- The arguments of the first pointer group close, and `after` follows them. -/
structure IsFunctionPointer (s front opening arguments after : Text) : Prop where
  opensFirst : OpensFirst s front opening (arguments ++ ')' :: after)
  closes : Closes '(' ')' 0 arguments

theorem Declarator.isFunctionPointer_of_eq_some {s : Text} {declarator : Declarator}
    (h : ofFunctionPointer? s = some declarator) :
    ∃ front opening arguments after, IsFunctionPointer s front opening arguments after ∧
      declarator = ⟨trim (front ++ opening ++ arguments ++ [')']),
        if isIdentifier (trim after) then trim after else []⟩ := by
  obtain ⟨⟨before, rest⟩, hSplit, hBehind⟩ := Option.bind_eq_some_iff.mp h
  obtain ⟨⟨arguments, after⟩, hPartner, hParts⟩ := Option.bind_eq_some_iff.mp hBehind
  obtain ⟨front, opening, hFirst, rfl⟩ := opensFirst_of_splitArguments? hSplit
  obtain ⟨rfl, hCloses⟩ := (splitPartner?_eq_some_iff (by decide) 0 rest arguments after).mp hPartner
  exact ⟨front, opening, arguments, after, ⟨hFirst, hCloses⟩, (Option.some.inj hParts).symm⟩

namespace IsFunctionPointer

variable {s front opening arguments after : Text}

theorem text (h : IsFunctionPointer s front opening arguments after) :
    s = front ++ opening ++ (arguments ++ ')' :: after) := h.opensFirst.text

theorem not_mem_front (h : IsFunctionPointer s front opening arguments after) {c : Char} (hc : c ∉ s) :
    c ∉ front := by
  intro hMem
  rw [h.text, List.append_assoc] at hc
  exact hc (List.mem_append_left _ hMem)

theorem ofFunctionPointer? (h : IsFunctionPointer s front opening arguments after) (hLine : '\n' ∉ front) :
    Declarator.ofFunctionPointer? s = some ⟨trim (front ++ opening ++ arguments ++ [')']),
      if isIdentifier (trim after) then trim after else []⟩ := by
  have hPartner := (splitPartner?_eq_some_iff (by decide) 0 _ arguments after).mpr ⟨rfl, h.closes⟩
  unfold Declarator.ofFunctionPointer?
  simp only [h.opensFirst.splitArguments? hLine, hPartner, Option.bind_eq_bind, Option.bind_some,
    Option.pure_def]

/-- Blanks at the ends of a parameter do not count. -/
theorem trim (h : IsFunctionPointer s front opening arguments after) :
    IsFunctionPointer (trim s) (trimStart front) opening arguments (trimEnd after) := by
  obtain ⟨⟨hText, hOpens, hFirst⟩, hCloses⟩ := h
  refine ⟨⟨?_, hOpens, fun u o v hOther hOpens' => ?_⟩, hCloses⟩
  · rw [hText, hOpens.trim_append, trimEnd_append_cons rfl]
  · obtain ⟨b, b', hb, -, -, hs⟩ := exists_eq_append_trim s
    have hWhole : s = b ++ u ++ o ++ (v ++ b') := by
      rw [hOther] at hs
      simpa using hs
    have hLess := hFirst _ o _ hWhole hOpens'
    have hFront := hOpens.length_before hText
    have hOther := hOpens'.length_before hWhole
    have hBlanks : trimStart (b ++ u) = trimStart u := trimStart_append_of_blank u hb
    have hShort : (trimStart u).length ≤ u.length := (List.dropWhile_sublist isBlank).length_le
    rw [hBlanks] at hOther
    omega

theorem of_trim (h : IsFunctionPointer (Text.trim s) front opening arguments after) :
    ∃ front' after', IsFunctionPointer s front' opening arguments after' := by
  obtain ⟨⟨hText, hOpens, hFirst⟩, hCloses⟩ := h
  obtain ⟨b, b', hb, -, -, hs⟩ := exists_eq_append_trim s
  have hWhole : s = b ++ front ++ opening ++ (arguments ++ ')' :: (after ++ b')) := by
    rw [hText] at hs
    simpa using hs
  refine ⟨b ++ front, after ++ b', ⟨hWhole, hOpens, fun u o v hOther hOpens' => ?_⟩, hCloses⟩
  have hLess := hFirst (trimStart u) o (trimEnd v) (by rw [hOther, hOpens'.trim_append]) hOpens'
  have hFront := hOpens.length_before hWhole
  have hBefore := hOpens'.length_before hOther
  have hTrimmed : trimStart front = front := by
    obtain ⟨inner, rfl⟩ := hOpens.exists_eq
    have hStart := (trimmed_trim s).1
    rw [hText, List.append_assoc] at hStart
    exact trimStart_eq_self (startsBlank_left hStart)
  rw [trimStart_append_of_blank front hb, hTrimmed] at hFront
  omega

/-- All of a function pointer up to the end of its arguments is one. -/
theorem type (h : IsFunctionPointer s front opening arguments after) :
    IsFunctionPointer (Text.trim (front ++ opening ++ arguments ++ [')'])) (trimStart front) opening arguments
      [] := by
  obtain ⟨⟨hText, hOpens, hFirst⟩, hCloses⟩ := h
  have hWhole : front ++ opening ++ arguments ++ [')'] = front ++ opening ++ (arguments ++ ')' :: []) := by simp
  refine IsFunctionPointer.trim ⟨⟨hWhole, hOpens, fun u o v hOther hOpens' => ?_⟩, hCloses⟩
  refine hFirst u o (v ++ after) ?_ hOpens'
  calc s
    _ = front ++ opening ++ arguments ++ [')'] ++ after := by rw [hText]; simp
    _ = u ++ o ++ (v ++ after) := by rw [hOther, List.append_assoc]

end IsFunctionPointer

theorem Declarator.read_functionPointer {s front opening arguments after : Text}
    (h : IsFunctionPointer s front opening arguments after) (hLine : '\n' ∉ front) :
    read s = ⟨trim (front ++ opening ++ arguments ++ [')']),
      if isIdentifier (trim after) then trim after else []⟩ := by
  have hType : trim (trimStart front ++ opening ++ arguments ++ [')']) =
      trim (front ++ opening ++ arguments ++ [')']) := by
    have hOpens := h.opensFirst.opens
    rw [List.append_assoc _ arguments, List.append_assoc _ arguments, hOpens.trim_append, hOpens.trim_append,
      trimStart_eq_self (startsBlank_trimStart front)]
  have hNone : (trim s).isEmpty = false := by
    rw [h.trim.text]
    obtain ⟨inner, rfl⟩ := h.opensFirst.opens.exists_eq
    simp
  have hStart : '\n' ∉ trimStart front := fun hFeed => hLine ((List.dropWhile_sublist isBlank).mem hFeed)
  unfold read
  simp only [hNone, h.trim.ofFunctionPointer? hStart, hType, trim_trimEnd]
  rfl

end HeaderDigest
