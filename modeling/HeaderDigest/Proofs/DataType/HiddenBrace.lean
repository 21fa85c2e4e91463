import HeaderDigest.Proofs.DataType.Body

/-!
# Comments in the body of a struct

What lines declare depends on their code alone, once the body is open. The line that opens it is looked for
among the lines as they are written: a comment with an opening brace in front of the body is taken for the
opening, nothing stands open behind it, and no member is read.
-/

namespace HeaderDigest

open Text

/-- Whether a comment holds an opening brace above the line on which the code has its first one, or on any line
if the code has none. -/
def HidesBrace (ls : List Text) : Prop :=
  ∃ above line below, ls = above ++ line :: below ∧ '{' ∈ line ∧
    ∀ l ∈ line :: above, '{' ∉ withoutComments l

/-- The members behind the first line whose code has an opening brace. -/
def declaredMembers (doc : Doc) : List Text → List Member
  | [] => []
  | line :: rest =>
    if '{' ∈ withoutComments line then readBody doc (balance '{' '}' (withoutComments line)) rest
    else declaredMembers doc rest

theorem readBody_code_congr {ls ls' : List Text} (h : ls.map withoutComments = ls'.map withoutComments) (doc : Doc)
    (depth : Int) : readBody doc depth ls = readBody doc depth ls' := by
  induction ls generalizing ls' depth with
  | nil => rw [List.map_eq_nil_iff.mp h.symm]
  | cons line ls ih =>
    obtain ⟨line', rest', rfl, hLine, hRest⟩ := List.map_eq_cons_iff.mp h.symm
    simp only [readBody, hLine, ih hRest.symm]

theorem declaredMembers_code_congr {ls ls' : List Text} (h : ls.map withoutComments = ls'.map withoutComments)
    (doc : Doc) : declaredMembers doc ls = declaredMembers doc ls' := by
  induction ls generalizing ls' with
  | nil => rw [List.map_eq_nil_iff.mp h.symm]
  | cons line ls ih =>
    obtain ⟨line', rest', rfl, hLine, hRest⟩ := List.map_eq_cons_iff.mp h.symm
    rw [declaredMembers, declaredMembers, hLine, readBody_code_congr hRest.symm, ih hRest.symm]

theorem hidesBrace_cons_iff {line : Text} {ls : List Text} :
    HidesBrace (line :: ls) ↔ '{' ∉ withoutComments line ∧ ('{' ∈ line ∨ HidesBrace ls) := by
  constructor
  · rintro ⟨above, held, below, hLines, hBrace, hCode⟩
    cases above with
    | nil =>
      obtain ⟨rfl, rfl⟩ := List.cons.inj hLines
      exact ⟨hCode _ List.mem_cons_self, Or.inl hBrace⟩
    | cons first above =>
      obtain ⟨rfl, rfl⟩ := List.cons.inj hLines
      refine ⟨hCode _ (by simp), Or.inr ⟨above, held, below, rfl, hBrace, fun l hl => hCode l ?_⟩⟩
      obtain rfl | hAbove := List.mem_cons.mp hl
      · exact List.mem_cons_self
      · exact List.mem_cons_of_mem _ (List.mem_cons_of_mem _ hAbove)
  · rintro ⟨hLine, hBrace | ⟨above, held, below, rfl, hBrace, hCode⟩⟩
    · exact ⟨[], line, ls, rfl, hBrace, by simpa using hLine⟩
    · refine ⟨line :: above, held, below, rfl, hBrace, fun l hl => ?_⟩
      obtain rfl | hl := List.mem_cons.mp hl
      · exact hCode _ List.mem_cons_self
      · obtain rfl | hAbove := List.mem_cons.mp hl
        · exact hLine
        · exact hCode l (List.mem_cons_of_mem _ hAbove)

theorem not_hidesBrace_nil : ¬HidesBrace [] := by
  rintro ⟨above, held, below, hLines, -⟩
  cases above <;> cases hLines

instance decidableHidesBrace : (ls : List Text) → Decidable (HidesBrace ls)
  | [] => isFalse not_hidesBrace_nil
  | line :: ls =>
    have := decidableHidesBrace ls
    decidable_of_iff ('{' ∉ withoutComments line ∧ ('{' ∈ line ∨ HidesBrace ls)) hidesBrace_cons_iff.symm

/-- Code without an opening brace leaves nothing open. -/
theorem balance_nonpos {opening closing : Char} {s : Text} (hNe : opening ≠ closing) (h : opening ∉ s) :
    balance opening closing s ≤ 0 := by
  rw [balance_eq_count hNe, List.count_eq_zero.mpr h]
  omega

theorem readMemberLines_of_hidesBrace {ls : List Text} (h : HidesBrace ls) (doc : Doc) :
    readMemberLines doc ls = [] := by
  induction ls with
  | nil => rfl
  | cons line ls ih =>
    obtain ⟨hCode, hRest⟩ := hidesBrace_cons_iff.mp h
    rw [readMemberLines_cons]
    split
    · exact readBody_of_nonpos (balance_nonpos (by decide) hCode) doc ls
    · rename_i hLine
      exact ih (hRest.resolve_left (mt List.contains_iff_mem.mpr hLine))

theorem readMemberLines_of_not_hidesBrace {ls : List Text} (h : ¬HidesBrace ls) (doc : Doc) :
    readMemberLines doc ls = declaredMembers doc ls := by
  induction ls with
  | nil => rfl
  | cons line ls ih =>
    rw [readMemberLines_cons, declaredMembers]
    by_cases hCode : '{' ∈ withoutComments line
    · rw [if_pos (List.contains_iff_mem.mpr (mem_of_mem_withoutComments hCode)), if_pos hCode]
    · obtain ⟨hLine, hRest⟩ := not_or.mp fun hBrace => h (hidesBrace_cons_iff.mpr ⟨hCode, hBrace⟩)
      rw [if_neg (mt List.contains_iff_mem.mp hLine), if_neg hCode, ih hRest]

/-- The members of a definition are those its code declares, unless a comment hides the body; then there are
none. So two definitions with the same code have the same members exactly if comments hide the bodies of both
or of none, or the code declares no member. -/
theorem readMembers_remarked {definition definition' : Text}
    (h : (lines definition).map withoutComments = (lines definition').map withoutComments) (doc : Doc) :
    (HidesBrace (lines definition) → readMembers definition doc = []) ∧
      (¬HidesBrace (lines definition) → readMembers definition doc = declaredMembers doc (lines definition)) ∧
      declaredMembers doc (lines definition) = declaredMembers doc (lines definition') ∧
      (readMembers definition doc = readMembers definition' doc ↔
        (HidesBrace (lines definition) ↔ HidesBrace (lines definition')) ∨
          declaredMembers doc (lines definition) = []) := by
  have hSame := declaredMembers_code_congr h doc
  refine ⟨fun hHides => readMemberLines_of_hidesBrace hHides doc,
    fun hShows => readMemberLines_of_not_hidesBrace hShows doc, hSame, ?_⟩
  rw [readMembers_eq, readMembers_eq]
  by_cases hHides : HidesBrace (lines definition)
  · rw [readMemberLines_of_hidesBrace hHides, iff_true_left hHides]
    by_cases hHides' : HidesBrace (lines definition')
    · exact iff_of_true (readMemberLines_of_hidesBrace hHides' doc).symm (Or.inl hHides')
    · rw [readMemberLines_of_not_hidesBrace hHides', or_iff_right hHides', hSame, eq_comm]
  · rw [readMemberLines_of_not_hidesBrace hHides, iff_false_left hHides]
    by_cases hHides' : HidesBrace (lines definition')
    · rw [readMemberLines_of_hidesBrace hHides', or_iff_right (not_not_intro hHides')]
    · exact iff_of_true (hSame.trans (readMemberLines_of_not_hidesBrace hHides' doc).symm) (Or.inl hHides')

def bracedRemark : Text :=
  joinLines ["struct box /* \x7b */".toList, "\x7b".toList, "    int a;".toList, "\x7d;".toList]

def plainRemark : Text :=
  joinLines ["struct box /* one */".toList, "\x7b".toList, "    int a;".toList, "\x7d;".toList]

theorem readMembers_remarked_box :
    (lines bracedRemark).map withoutComments = (lines plainRemark).map withoutComments ∧
      HidesBrace (lines bracedRemark) ∧ ¬HidesBrace (lines plainRemark) ∧
      declaredMembers {} (lines bracedRemark) = [⟨"int".toList, "a".toList, []⟩] ∧
      readMembers bracedRemark {} ≠ readMembers plainRemark {} := by
  have hCode : (lines bracedRemark).map withoutComments = (lines plainRemark).map withoutComments := by decide
  have hHides : HidesBrace (lines bracedRemark) := by decide
  have hShows : ¬HidesBrace (lines plainRemark) := by decide
  have hDeclared : declaredMembers {} (lines bracedRemark) = [⟨"int".toList, "a".toList, []⟩] := by decide
  refine ⟨hCode, hHides, hShows, hDeclared, fun hSame => ?_⟩
  obtain hBoth | hNone := (readMembers_remarked hCode {}).2.2.2.mp hSame
  · exact hShows (hBoth.mp hHides)
  · rw [hDeclared] at hNone
    cases hNone

/-- The brace in the comment hides the member `a`. -/
theorem not_forall_readMembers_remarked :
    ¬∀ (definition definition' : Text) (doc : Doc),
      (lines definition).map withoutComments = (lines definition').map withoutComments →
        readMembers definition doc = readMembers definition' doc := by
  intro h
  exact absurd (h bracedRemark plainRemark {} (by decide)) (by decide)

end HeaderDigest
