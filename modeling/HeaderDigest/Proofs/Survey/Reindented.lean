import HeaderDigest.Proofs.DataType.Reindented
import HeaderDigest.Proofs.Declaration.Reindented
import HeaderDigest.Proofs.Header.Assembly
import HeaderDigest.Proofs.Prototype.Reading
import HeaderDigest.Proofs.Survey.Position

/-!
# Surveys of reindented lines

Two surveys of lines that differ in the blanks at their ends go side by side: they visit the same
blocks, and what the header takes from a visit is the same in both, apart from the blanks in the
definitions of types.
-/

namespace HeaderDigest

open Text

variable {file : Text} {includePrivate : Bool} {all all' : List Text}

/-- What a header takes from a finding. -/
def Finding.excerpt (finding : Finding) : Option Function × Option DataType × Option Doc :=
  (finding.function?, finding.dataType?.map DataType.packed, finding.fileDoc?)

/-- Two visits from which a header takes the same. The pass goes on at the same line behind them,
or there are only blank lines left. -/
structure Visit.Alike (all all' : List Text) (met met' : Visit) : Prop where
  excerpt : (Finding.visit met).excerpt = (Finding.visit met').excerpt
  next : met.next = met'.next ∨ Reindented (all.drop met.next) [] ∧ Reindented (all'.drop met'.next) []

theorem not_mem_of_mem_take_drop (h : ∀ l ∈ all, '\n' ∉ l) (start n : Nat) :
    ∀ l ∈ (all.drop start).take n, '\n' ∉ l :=
  fun l hl => h l (List.mem_of_mem_drop (List.mem_of_mem_take hl))

theorem Outcome.declared_reindented (h : Reindented all all') (hall : ∀ l ∈ all, '\n' ∉ l)
    (hall' : ∀ l ∈ all', '\n' ∉ l) (doc : Doc) {seed : Seed} (hSeed : seed.line < all.length)
    (hSeed' : seed.line < all'.length) {block block' : Block} (hBlock : block.nextLine = block'.nextLine) :
    Visit.Alike all all' ⟨block, doc, Outcome.declared file includePrivate all doc seed⟩
      ⟨block', doc, Outcome.declared file includePrivate all' doc seed⟩ := by
  obtain ⟨kind, line⟩ := seed
  cases kind with
  | function =>
    have hSpan := Span.functionAt?_reindented h line
    simp only [Outcome.declared]
    cases hLeft : Span.functionAt? all line with
    | none =>
      rw [hLeft, Option.map_none, eq_comm, Option.map_eq_none_iff] at hSpan
      rw [hSpan]
      exact ⟨rfl, Or.inl hBlock⟩
    | some span =>
      rw [hLeft, Option.map_some, eq_comm, Option.map_eq_some_iff] at hSpan
      obtain ⟨span', hRight, hNormalized⟩ := hSpan
      have hText : normalize span.text = normalize span'.text := congrArg Span.text hNormalized.symm
      have hNormal : span.normalized.stop = span'.normalized.stop := congrArg Span.stop hNormalized.symm
      have hStop : span.stop = span'.stop := hNormal
      rw [hRight]
      simp only [Function.read_congr hText]
      cases Function.read span'.text doc file (line + 1) includePrivate with
      | ok record => exact ⟨rfl, Or.inl hStop⟩
      | error refusal => exact ⟨rfl, Or.inl hBlock⟩
  | dataType =>
    have hDrop := h.drop line
    obtain ⟨⟨n, hText, hText'⟩, i, j, hStop, hStop', hNext⟩ := Span.dataType_reindented hDrop line
    have hRead := DataType.read?_reindented (hDrop.take n) (not_mem_of_mem_take_drop hall line n)
      (not_mem_of_mem_take_drop hall' line n) hDrop.trim_headD doc file (line + 1)
    rw [← hText, ← hText', Span.dataType_drop hSeed, Span.dataType_drop hSeed'] at hRead
    rw [Span.dataType_drop hSeed] at hStop
    rw [Span.dataType_drop hSeed'] at hStop'
    simp only [Outcome.declared]
    cases hLeft : DataType.read? ((all.drop line).headD []) (Span.dataTypeAt all line).text doc file
        (line + 1) with
    | none =>
      rw [hLeft, Option.map_none, eq_comm, Option.map_eq_none_iff] at hRead
      rw [hRead]
      exact ⟨rfl, Or.inl hBlock⟩
    | some record =>
      rw [hLeft, Option.map_some, eq_comm, Option.map_eq_some_iff] at hRead
      obtain ⟨record', hRight, hPacked⟩ := hRead
      rw [hRight]
      refine ⟨?_, ?_⟩
      · simp only [Finding.excerpt, Finding.dataType?, Finding.visit?, Option.map_some, hPacked]
        rfl
      · simp only [Visit.next, hStop, hStop', Nat.add_left_cancel_iff, ← List.drop_drop]
        exact hNext

theorem visitAt_reindented (file : Text) (includePrivate : Bool) (h : Reindented all all')
    (hall : ∀ l ∈ all, '\n' ∉ l) (hall' : ∀ l ∈ all', '\n' ∉ l) (position length : Nat) :
    Visit.Alike all all' (visitAt file includePrivate all position length)
      (visitAt file includePrivate all' position length) := by
  have hDoc : (visitAt file includePrivate all position length).doc =
      (visitAt file includePrivate all' position length).doc :=
    Doc.read_joinLines ((h.drop position).take length) (not_mem_of_mem_take_drop hall position length)
      (not_mem_of_mem_take_drop hall' position length)
  have hOutcome := outcome_visitAt file includePrivate all position length
  have hOutcome' := outcome_visitAt file includePrivate all' position length
  have hNext : (visitAt file includePrivate all position length).block.nextLine =
      (visitAt file includePrivate all' position length).block.nextLine := rfl
  generalize visitAt file includePrivate all position length = met at hDoc hOutcome hNext ⊢
  generalize visitAt file includePrivate all' position length = met' at hDoc hOutcome' hNext ⊢
  obtain ⟨block, doc, outcome⟩ := met
  obtain ⟨block', doc', outcome'⟩ := met'
  simp only at hDoc hOutcome hOutcome'
  subst hDoc hOutcome hOutcome'
  unfold Outcome.behind
  rw [Seed.locate_reindented h]
  split
  · exact ⟨rfl, Or.inl hNext⟩
  · cases hSeed' : Seed.locate all' (position + length) with
    | none => exact ⟨rfl, Or.inl hNext⟩
    | some seed =>
      have hSeed := (Seed.locate_reindented h (position + length)).trans hSeed'
      exact Outcome.declared_reindented h hall hall' doc (Seed.locate_eq_some hSeed).2.1
        (Seed.locate_eq_some hSeed').2.1 hNext

theorem surveyFrom_of_blank {ls : List Text} (h : Reindented ls []) (position : Nat) :
    surveyFrom file includePrivate position 0 ls = [] := by
  induction ls generalizing position with
  | nil => rfl
  | cons line rest ih =>
    cases h with
    | left hLine hRest =>
      have hOpens := opensBlock_of_blank hLine
      rw [surveyFrom_of_none (blockLength?_eq_none_of_not_opensBlock rest hOpens), hOpens, ih hRest]
      rfl

theorem surveyAt_of_blank {position : Nat} (h : Reindented (all.drop position) []) :
    surveyAt file includePrivate all position = [] := surveyFrom_of_blank h position

theorem surveyAt_reindented (file : Text) (includePrivate : Bool) (h : Reindented all all')
    (hall : ∀ l ∈ all, '\n' ∉ l) (hall' : ∀ l ∈ all', '\n' ∉ l) (position : Nat) :
    (surveyAt file includePrivate all position).map Finding.excerpt =
      (surveyAt file includePrivate all' position).map Finding.excerpt := by
  have hDrop (position : Nat) := h.drop position
  induction position using surveyAt_induction file includePrivate all with
  | done position hDone =>
    rw [surveyAt_of_length_le hDone, surveyAt_of_blank (h.drop_of_length_le hDone)]
  | pass position hLine hNone ih =>
    by_cases hLine' : all'.length ≤ position
    · rw [surveyAt_of_length_le hLine', surveyAt_of_blank (h.symm.drop_of_length_le hLine')]
    · rw [Nat.not_le] at hLine'
      have hNone' := (blockLength?_reindented (hDrop position)).symm.trans hNone
      have hTrim := (hDrop position).trim_headD
      rw [List.drop_eq_getElem_cons hLine, List.drop_eq_getElem_cons hLine', List.headD_cons,
        List.headD_cons] at hTrim
      have hOpens : opensBlock all[position] = opensBlock all'[position] := by
        rw [← opensBlock_trim, hTrim, opensBlock_trim]
      rw [surveyAt_of_none hLine hNone, surveyAt_of_none hLine' hNone', hOpens, List.map_append,
        List.map_append, ih]
  | visit position length hBlock ih =>
    have hAlike := visitAt_reindented file includePrivate h hall hall' position length
    have hBlock' := (blockLength?_reindented (hDrop position)).symm.trans hBlock
    rw [surveyAt_of_block hBlock, surveyAt_of_block hBlock', List.map_cons, List.map_cons, hAlike.excerpt]
    apply congrArg (List.cons _)
    obtain hNext | ⟨hRest, hRest'⟩ := hAlike.next
    · rw [ih, hNext]
    · rw [surveyAt_of_blank hRest, surveyAt_of_blank hRest']

/-- A header without the blanks in the definitions of its types. -/
def Header.packed (header : Header) : Header :=
  { header with dataTypes := header.dataTypes.map DataType.packed }

def Header.ofExcerpts (filename path : Text)
    (excerpts : List (Option Function × Option DataType × Option Doc)) : Header :=
  let fileDoc := (excerpts.findSome? fun excerpt => excerpt.2.2).getD {}
  Header.assemble filename path fileDoc.brief fileDoc.description (excerpts.filterMap Prod.fst)
    (excerpts.filterMap fun excerpt => excerpt.2.1)

theorem Header.packed_ofSurvey (filename path : Text) (findings : List Finding) :
    (Header.ofSurvey filename path findings).packed =
      Header.ofExcerpts filename path (findings.map Finding.excerpt) := by
  have hDataTypes : (collected DataType.name (findings.filterMap Finding.dataType?)).map DataType.packed =
      collected DataType.name
        (findings.filterMap fun finding => finding.dataType?.map DataType.packed) := by
    rw [collected_map DataType.name _ DataType.packed fun _ => rfl, List.map_filterMap]
  rw [ofExcerpts, List.filterMap_map, List.filterMap_map, List.findSome?_map]
  exact congrArg (fun dataTypes => { Header.ofSurvey filename path findings with dataTypes }) hDataTypes

/-- Blanks at the ends of the lines of a header do not matter, except to the definitions of
types, where they stand. -/
theorem Header.read_reindented {s t : Text}
    (h : (s.splitOn '\n').map trim = (t.splitOn '\n').map trim) (filename path : Text)
    (includePrivate : Bool) :
    (Header.read s filename path includePrivate).packed =
      (Header.read t filename path includePrivate).packed := by
  have hLines : Reindented (lines s) (lines t) :=
    (reindented_lines_splitOn s).trans ((Reindented.of_map_trim h).trans (reindented_lines_splitOn t).symm)
  rw [Header.read, Header.read, Header.packed_ofSurvey, Header.packed_ofSurvey]
  exact congrArg (Header.ofExcerpts filename path)
    (surveyAt_reindented filename includePrivate hLines (fun _ => not_mem_of_mem_lines)
      (fun _ => not_mem_of_mem_lines) 0)

def boxText : Text :=
  "/** A box.\n * @member w Its width.\n */\nstruct box \x7b\n  int w;\n\x7d;\n".toList

def indentedBoxText : Text :=
  "\t/** A box. \n\t* @member w Its width.\n*/\n struct box \x7b\nint w;\t\n\t\x7d;\n  ".toList

theorem Header.read_indentedBoxText :
    (boxText.splitOn '\n').map trim = (indentedBoxText.splitOn '\n').map trim ∧
      (Header.read boxText "box.h".toList "inc/box.h".toList false).packed =
        (Header.read indentedBoxText "box.h".toList "inc/box.h".toList false).packed := by
  have hTrim : (boxText.splitOn '\n').map trim = (indentedBoxText.splitOn '\n').map trim := by decide
  exact ⟨hTrim, Header.read_reindented hTrim "box.h".toList "inc/box.h".toList false⟩

end HeaderDigest
