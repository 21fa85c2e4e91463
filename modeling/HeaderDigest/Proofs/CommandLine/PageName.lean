import HeaderDigest.CommandLine.Run
import HeaderDigest.Proofs.Files.Tree
import HeaderDigest.Proofs.Text.Parts
import Mathlib.Data.List.Nodup

/-!
# The names of pages

The page of a header has the name of the header without `.h`. Different headers have pages of
different names, except a header without `.h` at its end and the one of this name with `.h`.
-/

namespace HeaderDigest

open Text

/-- No name that does not end in `.h` is there together with itself and `.h` behind it. -/
def Apart (names : List Text) : Prop :=
  ∀ name ∈ names, endsWith ['.', 'h'] name = false → name ++ ['.', 'h'] ∉ names

theorem pageName_eq_iff {format : Format} {a b : Text} :
    pageName format a = pageName format b ↔
      withoutSuffix ['.', 'h'] a = withoutSuffix ['.', 'h'] b := by
  rw [pageName, pageName, List.append_cancel_right_eq]

/-- Two names of headers give one name of a page if one is the other without `.h`. -/
theorem pageName_eq_cases {format : Format} {a b : Text} (h : pageName format a = pageName format b) :
    a = b ∨ (endsWith ['.', 'h'] b = false ∧ a = b ++ ['.', 'h']) ∨
      (endsWith ['.', 'h'] a = false ∧ b = a ++ ['.', 'h']) := by
  rw [pageName_eq_iff] at h
  obtain ⟨stem, ha, hStem⟩ | ⟨ha, hStem⟩ := withoutSuffix_cases ['.', 'h'] a
  · obtain ⟨stem', hb, hStem'⟩ | ⟨hb, hStem'⟩ := withoutSuffix_cases ['.', 'h'] b
    · left
      rw [ha, hb, ← hStem, ← hStem', h]
    · right
      left
      exact ⟨hb, by rw [ha, ← hStem, h, hStem']⟩
  · obtain ⟨stem', hb, hStem'⟩ | ⟨hb, hStem'⟩ := withoutSuffix_cases ['.', 'h'] b
    · right
      right
      exact ⟨ha, by rw [hb, ← hStem', ← h, hStem]⟩
    · left
      rw [← hStem, ← hStem', h]

theorem pageName_append_h {format : Format} {name : Text} (h : endsWith ['.', 'h'] name = false) :
    pageName format (name ++ ['.', 'h']) = pageName format name := by
  have hName : withoutSuffix ['.', 'h'] name = name := by
    obtain ⟨stem, rfl, -⟩ | ⟨-, hSame⟩ := withoutSuffix_cases ['.', 'h'] name
    · rw [endsWith, List.isSuffixOf_iff_suffix.mpr (List.suffix_append stem ['.', 'h'])] at h
      cases h
    · exact hSame
  rw [pageName_eq_iff, hName, withoutSuffix, dropSuffix?_append, Option.getD_some]

theorem isPlainName_pageName (format : Format) {filename : Text} (h : '/' ∉ filename) :
    Tree.IsPlainName (pageName format filename) := by
  have hStem : '/' ∉ withoutSuffix ['.', 'h'] filename := by
    obtain ⟨stem, rfl, hStem⟩ | ⟨-, hSame⟩ := withoutSuffix_cases ['.', 'h'] filename
    · rw [hStem]
      exact fun hMem => h (List.mem_append_left _ hMem)
    · rwa [hSame]
  have hLength : 2 < (pageName format filename).length := by
    rw [pageName, List.length_append]
    cases format <;> simp [Format.extension]
  refine ⟨?_, ?_, ?_, ?_⟩
  · rw [pageName, List.mem_append, not_or]
    exact ⟨hStem, by cases format <;> decide⟩
  all_goals
    intro hShort
    rw [hShort] at hLength
    exact absurd hLength (by decide)

theorem nodup_pageNames_iff (format : Format) {names : List Text} (hNodup : names.Nodup) :
    (names.map (pageName format)).Nodup ↔ Apart names := by
  constructor
  · intro hPages name hName hEnds hTwin
    have hSame := List.inj_on_of_nodup_map hPages hTwin hName (pageName_append_h hEnds)
    exact absurd hSame (by simp)
  · intro hApart
    refine List.Nodup.map_on ?_ hNodup
    intro a ha b hb hPage
    obtain hSame | ⟨hEnds, rfl⟩ | ⟨hEnds, rfl⟩ := pageName_eq_cases hPage
    · exact hSame
    · exact absurd ha (hApart b hb hEnds)
    · exact absurd hb (hApart a ha hEnds)

end HeaderDigest
