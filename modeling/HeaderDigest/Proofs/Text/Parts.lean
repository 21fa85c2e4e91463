import HeaderDigest.Text.Basic

/-!
# Parts of a text

A part of a text that does not hold a certain character lies on one side of each place where this
character stands.
-/

namespace HeaderDigest.Text

theorem contains_eq_false_iff {c : Char} {s : Text} : s.contains c = false ↔ c ∉ s := by
  rw [← Bool.not_eq_true, List.contains_iff_mem]

theorem hasPart_iff {part s : Text} : hasPart part s = true ↔ part <:+: s := by
  induction s with
  | nil => simp [hasPart]
  | cons c s ih =>
    rw [hasPart, Bool.or_eq_true, ih, List.infix_cons_iff, startsWith, List.isPrefixOf_iff_prefix]

theorem prefix_of_prefix_append_cons {part u v : Text} {c : Char} (hc : c ∉ part)
    (h : part <+: u ++ c :: v) : part <+: u := by
  induction u generalizing part with
  | nil =>
    cases part with
    | nil => exact List.nil_prefix
    | cons d part =>
      obtain ⟨hd, -⟩ := List.cons_prefix_cons.mp h
      exact absurd (hd ▸ List.mem_cons_self) hc
  | cons e u ih =>
    cases part with
    | nil => exact List.nil_prefix
    | cons d part =>
      obtain ⟨rfl, hRest⟩ := List.cons_prefix_cons.mp h
      exact List.cons_prefix_cons.mpr ⟨rfl, ih (fun hMem => hc (List.mem_cons_of_mem d hMem)) hRest⟩

theorem suffix_of_suffix_append_cons {part u v : Text} {c : Char} (hc : c ∉ part)
    (h : part <:+ u ++ c :: v) : part <:+ v := by
  rw [← List.reverse_prefix] at h ⊢
  rw [List.reverse_append, List.reverse_cons, List.append_assoc] at h
  exact prefix_of_prefix_append_cons (fun hMem => hc (List.mem_reverse.mp hMem)) h

theorem infix_append_iff_of_not_mem {c : Char} {u : Text} (h : c ∉ u) (part s : Text) :
    c :: part <:+: u ++ s ↔ c :: part <:+: s := by
  induction u with
  | nil => rfl
  | cons d u ih =>
    obtain ⟨hd, hRest⟩ := List.ne_and_not_mem_of_not_mem_cons h
    rw [List.cons_append, List.infix_cons_iff, List.cons_prefix_cons, ih hRest]
    exact or_iff_right fun hPrefix => hd hPrefix.1

theorem infix_append_cons_iff {part u v : Text} {c : Char} (hc : c ∉ part) :
    part <:+: u ++ c :: v ↔ part <:+: u ∨ part <:+: v := by
  constructor
  · intro h
    induction u with
    | nil =>
      obtain h | h := List.infix_cons_iff.mp h
      · have hNil := prefix_of_prefix_append_cons (u := []) hc h
        exact Or.inl hNil.isInfix
      · exact Or.inr h
    | cons d u ih =>
      obtain h | h := List.infix_cons_iff.mp h
      · exact Or.inl (prefix_of_prefix_append_cons (u := d :: u) hc h).isInfix
      · exact (ih h).imp_left fun hRest => List.infix_cons_iff.mpr (Or.inr hRest)
  · rintro (h | h)
    · exact h.trans (List.prefix_append u (c :: v)).isInfix
    · exact h.trans ((List.suffix_cons c v).trans (List.suffix_append u (c :: v))).isInfix

theorem hasPart_append_cons {part : Text} {c : Char} (hc : c ∉ part) (u v : Text) :
    hasPart part (u ++ c :: v) = (hasPart part u || hasPart part v) := by
  rw [Bool.eq_iff_iff, Bool.or_eq_true, hasPart_iff, hasPart_iff, hasPart_iff,
    infix_append_cons_iff hc]

theorem hasPart_eq_false_of_not_mem {part s : Text} {c : Char} (hc : c ∈ part) (hs : c ∉ s) :
    hasPart part s = false := by
  rw [Bool.eq_false_iff]
  intro h
  exact hs ((hasPart_iff.mp h).subset hc)

/-- Of two places where a character stands in a text, one is the other or stands before it. -/
theorem append_cons_eq_append_cons {u v u' v' : Text} {c : Char} (h : u ++ c :: v = u' ++ c :: v') :
    (u = u' ∧ v = v') ∨ (∃ w, u' = u ++ c :: w ∧ v = w ++ c :: v') ∨
      ∃ w, u = u' ++ c :: w ∧ v' = w ++ c :: v := by
  obtain ⟨more, rfl, hMore⟩ | ⟨more, rfl, hMore⟩ := List.append_eq_append_iff.mp h
  · cases more with
    | nil => exact Or.inl ⟨(List.append_nil u).symm, (List.cons.inj hMore).2⟩
    | cons d more =>
      obtain ⟨rfl, rfl⟩ := List.cons.inj hMore
      exact Or.inr (Or.inl ⟨more, rfl, rfl⟩)
  · cases more with
    | nil => exact Or.inl ⟨List.append_nil u', (List.cons.inj hMore).2.symm⟩
    | cons d more =>
      obtain ⟨rfl, rfl⟩ := List.cons.inj hMore
      exact Or.inr (Or.inr ⟨more, rfl, rfl⟩)

/-- Another character ends a text only behind one that stands in it. -/
theorem exists_of_append_cons_eq_concat {u v front : Text} {c d : Char} (hNe : c ≠ d)
    (h : u ++ c :: v = front ++ [d]) : ∃ more, front = u ++ c :: more ∧ v = more ++ [d] := by
  rcases List.eq_nil_or_concat v with rfl | ⟨more, e, rfl⟩
  · exact absurd (List.cons.inj (List.append_inj_right' h rfl)).1 hNe
  · rw [List.concat_eq_append, ← List.cons_append, ← List.append_assoc] at h
    obtain ⟨hFront, hLast⟩ := List.append_inj' h rfl
    cases hLast
    exact ⟨more, hFront.symm, List.concat_eq_append⟩

theorem dropSuffix?_eq_none {ending s : Text} (h : ¬ending <:+ s) : dropSuffix? ending s = none := by
  unfold dropSuffix?
  cases hDrop : dropPrefix? ending.reverse s.reverse with
  | none => rfl
  | some rest =>
    have hReverse := congrArg List.reverse (eq_append_of_dropPrefix? hDrop)
    rw [List.reverse_append, List.reverse_reverse, List.reverse_reverse] at hReverse
    exact absurd ⟨rest.reverse, hReverse.symm⟩ h

theorem dropSuffix?_append (s ending : Text) : dropSuffix? ending (s ++ ending) = some s := by
  rw [dropSuffix?, List.reverse_append, dropPrefix?_append, Option.map_some, List.reverse_reverse]

theorem dropSuffix?_eq_some_iff {ending s front : Text} :
    dropSuffix? ending s = some front ↔ s = front ++ ending := by
  constructor
  · intro h
    by_cases hEnds : ending <:+ s
    · obtain ⟨stem, rfl⟩ := hEnds
      rw [dropSuffix?_append] at h
      rw [Option.some.inj h]
    · rw [dropSuffix?_eq_none hEnds] at h
      cases h
  · rintro rfl
    exact dropSuffix?_append front ending

theorem endsWith_concat (s : Text) (c d : Char) : endsWith [c] (s ++ [d]) = (c == d) := by
  rw [Bool.eq_iff_iff, beq_iff_eq, endsWith, List.isSuffixOf_iff_suffix]
  constructor
  · rintro ⟨u, hu⟩
    exact (List.cons.inj (List.append_inj_right' hu rfl)).1
  · rintro rfl
    exact List.suffix_append s [c]

theorem endsWith_singleton_iff {c : Char} {s : Text} : endsWith [c] s = true ↔ s.getLast? = some c := by
  obtain rfl | ⟨front, d, rfl⟩ := List.eq_nil_or_concat s
  · exact iff_of_false Bool.false_ne_true (by simp)
  · rw [List.concat_eq_append, endsWith_concat, List.getLast?_concat, beq_iff_eq, Option.some_inj, eq_comm]

theorem endsWith_reverse (c : Char) (s : Text) : endsWith [c] s.reverse = startsWith [c] s := by
  rw [endsWith, List.isSuffixOf, List.reverse_reverse]
  rfl

theorem startsWith_eq_of_head? (c : Char) {s t : Text} (h : s.head? = t.head?) :
    startsWith [c] s = startsWith [c] t := by
  cases s with
  | nil =>
    rw [List.head?_nil, eq_comm, List.head?_eq_none_iff] at h
    rw [h]
  | cons d s =>
    obtain ⟨t', rfl⟩ := List.head?_eq_some_iff.mp h.symm
    rw [startsWith, startsWith, List.isPrefixOf_cons_cons, List.isPrefixOf_cons_cons]
    rfl

theorem withoutPrefix_append (beginning s : Text) : withoutPrefix beginning (beginning ++ s) = s := by
  rw [withoutPrefix, dropPrefix?_append, Option.getD_some]

theorem withoutPrefix_eq_self {beginning s : Text} (h : ¬beginning <+: s) :
    withoutPrefix beginning s = s := by
  rw [withoutPrefix]
  cases hDrop : dropPrefix? beginning s with
  | none => rfl
  | some rest => exact absurd ⟨rest, (eq_append_of_dropPrefix? hDrop).symm⟩ h

theorem withoutSuffix_append (s ending : Text) : withoutSuffix ending (s ++ ending) = s := by
  rw [withoutSuffix, dropSuffix?_append, Option.getD_some]

theorem withoutSuffix_eq_self {ending s : Text} (h : ¬ending <:+ s) : withoutSuffix ending s = s := by
  rw [withoutSuffix, dropSuffix?_eq_none h, Option.getD_none]

theorem withoutSuffix_cases (ending s : Text) :
    (∃ stem, s = stem ++ ending ∧ withoutSuffix ending s = stem) ∨
      (endsWith ending s = false ∧ withoutSuffix ending s = s) := by
  by_cases h : ending <:+ s
  · obtain ⟨stem, rfl⟩ := h
    exact Or.inl ⟨stem, rfl, by rw [withoutSuffix, dropSuffix?_append, Option.getD_some]⟩
  · refine Or.inr ⟨Bool.eq_false_iff.mpr fun hEnds => h (List.isSuffixOf_iff_suffix.mp hEnds), ?_⟩
    rw [withoutSuffix, dropSuffix?_eq_none h, Option.getD_none]

end HeaderDigest.Text
