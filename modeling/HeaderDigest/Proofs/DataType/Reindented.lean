import HeaderDigest.DataType.Basic
import HeaderDigest.Proofs.DataType.Naming
import HeaderDigest.Proofs.Text.Reindented

/-!
# The record of a type with other blanks at the ends of its lines

A declaration whose lines are reindented gives the same record, apart from the blanks in the
definition. Another comment changes what the record says of the type and its members, but not
these.
-/

namespace HeaderDigest

open Text

variable {ls ms : List Text}

theorem readBody_of_blank {line : Text} (h : trim line = []) (doc : Doc) (depth : Int) (rest : List Text) :
    readBody doc depth (line :: rest) = if depth ≤ 0 then [] else readBody doc depth rest := by
  have hNil : trim line = trim [] := h
  have hLine : trim (withoutComments line) = [] := trim_withoutComments_congr hNil
  have hBalance : balance '{' '}' [] = 0 := rfl
  have hEmpty : isMemberless [] = true := rfl
  simp only [readBody, hLine, hBalance, hEmpty, Int.add_zero, if_true]

theorem readBody_reindented (h : Reindented ls ms) (doc : Doc) (depth : Int) :
    readBody doc depth ls = readBody doc depth ms := by
  induction h generalizing depth with
  | nil => rfl
  | cons hLine _ ih => simp only [readBody, trim_withoutComments_congr hLine, ih]
  | left hLine _ ih =>
    rw [readBody_of_blank hLine, ih]
    exact ite_self _
  | right hLine _ ih =>
    rw [readBody_of_blank hLine, ← ih]
    exact (ite_self _).symm

/-- The members in the lines of a definition. -/
def readMemberLines (doc : Doc) (ls : List Text) : List Member :=
  match ls.dropWhile fun line => !line.contains '{' with
  | opening :: body => readBody doc (balance '{' '}' (withoutComments opening)) body
  | [] => []

theorem readMembers_eq (definition : Text) (doc : Doc) :
    readMembers definition doc = readMemberLines doc (lines definition) := rfl

theorem readMemberLines_cons (doc : Doc) (line : Text) (rest : List Text) :
    readMemberLines doc (line :: rest) =
      if line.contains '{' then readBody doc (balance '{' '}' (withoutComments line)) rest
      else readMemberLines doc rest := by
  cases h : line.contains '{' with
  | true => rw [readMemberLines, List.dropWhile_cons_of_neg (by rw [h]; decide), if_pos rfl]
  | false =>
    rw [readMemberLines, List.dropWhile_cons_of_pos (by rw [h]; rfl), if_neg Bool.false_ne_true]
    rfl

theorem readMemberLines_reindented (h : Reindented ls ms) (doc : Doc) :
    readMemberLines doc ls = readMemberLines doc ms := by
  have hBlank {line : Text} (hLine : trim line = []) : line.contains '{' = false := by
    rw [← contains_trim (by decide), hLine]
    rfl
  induction h with
  | nil => rfl
  | @cons line line' ls ms hLine hRest ih =>
    have hOpens : line.contains '{' = line'.contains '{' := by
      rw [← contains_trim (by decide), hLine, contains_trim (by decide)]
    have hBalance : balance '{' '}' (withoutComments line) = balance '{' '}' (withoutComments line') :=
      balance_code_congr hLine (by decide) (by decide) (by decide)
    rw [readMemberLines_cons, readMemberLines_cons, hOpens, hBalance, readBody_reindented hRest, ih]
  | left hLine _ ih => rw [readMemberLines_cons, hBlank hLine, ← ih, if_neg Bool.false_ne_true]
  | right hLine _ ih => rw [readMemberLines_cons, hBlank hLine, ih, if_neg Bool.false_ne_true]

/-- A record without the blanks of its definition. -/
def DataType.packed (record : DataType) : DataType :=
  { record with definition := record.definition.filter (!isBlank ·) }

theorem code_respaced {declaration declaration' : Text}
    (h : Reindented (lines declaration) (lines declaration')) :
    Respaced true (DataType.code declaration) (DataType.code declaration') := by
  have hJoined : words (joinLines ((lines declaration).map withoutComments)) =
      words (joinLines ((lines declaration').map withoutComments)) := by
    rw [words_joinLines, words_joinLines]
    exact (h.map (fun _ _ => trim_withoutComments_congr) rfl).flatMap_eq
      (fun line => (words_trim line).symm) rfl
  apply Respaced.of_words_eq
  rw [DataType.code, DataType.code, words_trim, words_trim]
  exact (withoutAttributes_respaced (Respaced.of_words_eq hJoined)).words_eq

theorem DataType.read?_reindented (h : Reindented ls ms) (hls : ∀ l ∈ ls, '\n' ∉ l)
    (hms : ∀ l ∈ ms, '\n' ∉ l) {seedLine seedLine' : Text} (hSeed : trim seedLine = trim seedLine')
    (doc : Doc) (file : Text) (line : Nat) :
    (DataType.read? seedLine (joinLines ls) doc file line).map DataType.packed =
      (DataType.read? seedLine' (joinLines ms) doc file line).map DataType.packed := by
  have hLines : Reindented (lines (joinLines ls)) (lines (joinLines ms)) :=
    (reindented_lines_joinLines hls).trans (h.trans (reindented_lines_joinLines hms).symm)
  have hSeedWords : words seedLine = words seedLine' := by rw [← words_trim, hSeed, words_trim]
  have hName := nameType?_respaced (withoutAttributes_respaced (.of_words_eq hSeedWords))
    (code_respaced hLines)
  have hMembers := readMemberLines_reindented hLines doc
  have hDefinition : (trim (joinLines ls)).filter (!isBlank ·) = (trim (joinLines ms)).filter (!isBlank ·) := by
    rw [filter_trim, filter_trim, filter_joinLines (by decide), filter_joinLines (by decide)]
    exact h.flatMap_eq (fun line => (filter_trim line).symm) rfl
  rw [DataType.read?, DataType.read?, hName, Option.map_map, Option.map_map]
  congr 1
  funext ⟨kind, name⟩
  simp only [Function.comp_apply, DataType.packed, hDefinition, readMembers_eq, hMembers]

/-- A member without what is said of it. -/
def Member.declared (member : Member) : Text × Text := (member.type, member.name)

theorem Member.map_declared_read? (declarator : Text) (doc doc' : Doc) :
    (Member.read? declarator doc).map Member.declared = (Member.read? declarator doc').map Member.declared := by
  unfold Member.read?
  simp only
  split <;> rfl

theorem map_declared_readBody (doc doc' : Doc) (depth : Int) (ls : List Text) :
    (readBody doc depth ls).map Member.declared = (readBody doc' depth ls).map Member.declared := by
  induction ls generalizing depth with
  | nil => rfl
  | cons line rest ih =>
    have hMember (declarator : Text) : (Member.read? declarator doc).toList.map Member.declared =
        (Member.read? declarator doc').toList.map Member.declared := by
      rw [← Option.toList_map, Member.map_declared_read? declarator doc doc', Option.toList_map]
    simp only [readBody]
    split
    · rfl
    · split
      · exact ih _
      · split
        · rfl
        · split
          · rw [List.map_append, List.map_append, hMember, ih]
          · exact ih _

theorem map_declared_readMembers (definition : Text) (doc doc' : Doc) :
    (readMembers definition doc).map Member.declared = (readMembers definition doc').map Member.declared := by
  unfold readMembers
  split
  · exact map_declared_readBody doc doc' _ _
  · rfl

theorem DataType.exists_read?_of_read? {seedLine declaration : Text} {doc : Doc} {file : Text} {line : Nat}
    {record : DataType} (h : DataType.read? seedLine declaration doc file line = some record) (doc' : Doc)
    (file' : Text) (line' : Nat) :
    ∃ record', DataType.read? seedLine declaration doc' file' line' = some record' ∧
      record'.kind = record.kind ∧ record'.name = record.name ∧
        record'.members.map Member.declared = record.members.map Member.declared := by
  obtain ⟨⟨kind, name⟩, hName, rfl⟩ := Option.map_eq_some_iff.mp h
  refine ⟨_, Option.map_eq_some_iff.mpr ⟨(kind, name), hName, rfl⟩, rfl, rfl, ?_⟩
  simp only
  split
  · exact map_declared_readMembers declaration doc' doc
  · rfl

end HeaderDigest
