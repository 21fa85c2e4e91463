import HeaderDigest.Proofs.DataType.AnonymousStruct

/-!
# The lines of a body

As long as a brace stays open behind each of them, lines inside a struct are read one by one: what a line
declares depends on no other line. The line that closes the struct declares nothing, whatever stands in front
of its brace.
-/

namespace HeaderDigest

open Text

/-- What a line inside the braces declares. -/
def Member.ofLine? (doc : Doc) (line : Text) : Option Member :=
  let code := trim (withoutComments line)
  if isMemberless code || !code.contains ';' then none else Member.read? (trim (code.takeWhile (· != ';'))) doc

theorem readBody_of_nonpos {depth : Int} (h : depth ≤ 0) (doc : Doc) (ls : List Text) :
    readBody doc depth ls = [] := by
  cases ls with
  | nil => rfl
  | cons line rest => rw [readBody, if_pos h]

theorem readBody_cons (doc : Doc) (depth : Int) (line : Text) (rest : List Text) :
    readBody doc depth (line :: rest) =
      if depth ≤ 0 ∨ depth + openBraces [line] ≤ 0 then []
      else (Member.ofLine? doc line).toList ++ readBody doc (depth + openBraces [line]) rest := by
  have hBalance : balance '{' '}' (trim (withoutComments line)) = openBraces [line] := by
    rw [balance_trim (by decide) (by decide) (by decide), openBraces, openBraces, Int.add_zero]
  by_cases hDepth : depth ≤ 0
  · rw [readBody_of_nonpos hDepth, if_pos (Or.inl hDepth)]
  by_cases hBehind : depth + openBraces [line] ≤ 0
  · rw [readBody, if_neg hDepth, if_pos (Or.inr hBehind)]
    simp only [hBalance, readBody_of_nonpos hBehind, if_pos hBehind, ite_self]
  · rw [readBody, if_neg hDepth, if_neg (not_or.mpr ⟨hDepth, hBehind⟩), Member.ofLine?]
    simp only [hBalance, if_neg hBehind]
    split
    · rename_i hMemberless
      rw [if_pos (by rw [hMemberless, Bool.true_or])]
      rfl
    · rename_i hMember
      split
      · rename_i hSemicolon
        rw [if_neg (by rw [Bool.eq_false_iff.mpr hMember, hSemicolon]; decide)]
      · rename_i hSemicolon
        rw [if_pos (by rw [Bool.eq_false_iff.mpr hSemicolon]; simp)]
        rfl

theorem openBraces_append (ls ms : List Text) : openBraces (ls ++ ms) = openBraces ls + openBraces ms := by
  induction ls with
  | nil => rw [List.nil_append, openBraces, Int.zero_add]
  | cons line ls ih => rw [List.cons_append, openBraces, openBraces, ih, Int.add_assoc]

theorem readBody_append {depth : Int} {ls : List Text}
    (h : ∀ beginning, beginning <+: ls → 0 < depth + openBraces beginning) (doc : Doc) (rest : List Text) :
    readBody doc depth (ls ++ rest) =
      ls.filterMap (Member.ofLine? doc) ++ readBody doc (depth + openBraces ls) rest := by
  induction ls generalizing depth with
  | nil => rw [List.nil_append, List.filterMap_nil, List.nil_append, openBraces, Int.add_zero]
  | cons line ls ih =>
    have hDepth : 0 < depth := by
      have h := h [] List.nil_prefix
      rwa [openBraces, Int.add_zero] at h
    have hLine : 0 < depth + openBraces [line] := h [line] (List.cons_prefix_cons.mpr ⟨rfl, List.nil_prefix⟩)
    have hRest (beginning : List Text) (hBeginning : beginning <+: ls) :
        0 < depth + openBraces [line] + openBraces beginning := by
      have h := h (line :: beginning) (List.cons_prefix_cons.mpr ⟨rfl, hBeginning⟩)
      rwa [← List.singleton_append, openBraces_append, ← Int.add_assoc] at h
    have hOpen : ¬(depth ≤ 0 ∨ depth + openBraces [line] ≤ 0) :=
      not_or.mpr ⟨Int.not_le.mpr hDepth, Int.not_le.mpr hLine⟩
    rw [List.cons_append, readBody_cons, if_neg hOpen, ih hRest, ← List.append_assoc, Int.add_assoc,
      ← openBraces_append, List.singleton_append, List.filterMap_cons]
    cases Member.ofLine? doc line <;> rfl

/-- The line that closes the struct declares nothing, and nothing behind it is read. -/
theorem readBody_closing {depth : Int} {line : Text} (h : depth + openBraces [line] ≤ 0) (doc : Doc)
    (rest : List Text) : readBody doc depth (line :: rest) = [] := by
  rw [readBody_cons, if_pos (Or.inr h)]

/-- The first line with a brace that opens is not read itself. -/
theorem readMembers_of_lines {definition opening : Text} {above body : List Text}
    (hLines : lines definition = above ++ opening :: body) (hAbove : ∀ line ∈ above, '{' ∉ line)
    (hOpening : '{' ∈ opening) (doc : Doc) :
    readMembers definition doc = readBody doc (openBraces [opening]) body := by
  have hRead (above : List Text) (hAbove : ∀ line ∈ above, '{' ∉ line) :
      readMemberLines doc (above ++ opening :: body) = readBody doc (openBraces [opening]) body := by
    induction above with
    | nil =>
      rw [List.nil_append, readMemberLines_cons, if_pos (List.contains_iff_mem.mpr hOpening), openBraces, openBraces,
        Int.add_zero]
    | cons line above ih =>
      obtain ⟨hLine, hRest⟩ := List.forall_mem_cons.mp hAbove
      rw [List.cons_append, readMemberLines_cons, if_neg (mt List.contains_iff_mem.mp hLine), ih hRest]
  rw [readMembers_eq, hLines, hRead above hAbove]

theorem openBraces_cons (line : Text) (ls : List Text) : openBraces (line :: ls) = openBraces [line] + openBraces ls :=
  openBraces_append [line] ls

/-- The members in the lines of a body up to one that closes the struct. -/
theorem readMembers_closed {definition opening closing : Text} {ls : List Text}
    (hLines : lines definition = opening :: (ls ++ [closing])) (hOpening : '{' ∈ opening)
    (hOpen : ∀ beginning, beginning <+: ls → 0 < openBraces (opening :: beginning))
    (hCloses : openBraces (opening :: (ls ++ [closing])) ≤ 0) (doc : Doc) :
    readMembers definition doc = ls.filterMap (Member.ofLine? doc) := by
  have hBody (beginning : List Text) (hBeginning : beginning <+: ls) :
      0 < openBraces [opening] + openBraces beginning := by
    rw [← openBraces_cons]
    exact hOpen beginning hBeginning
  have hLast : openBraces [opening] + openBraces ls + openBraces [closing] ≤ 0 := by
    rwa [openBraces_cons, openBraces_append, ← Int.add_assoc] at hCloses
  have hAbove : lines definition = [] ++ opening :: (ls ++ [closing]) := hLines
  rw [readMembers_of_lines hAbove (by simp) hOpening, readBody_append hBody, readBody_closing hLast, List.append_nil]

/-- Two layouts of a struct: `closing` stands on a line of its own, or at the end of the last member's line.
No line before it closes the struct, and in both layouts it does. -/
structure TwoLayouts (own joined opening : Text) (ls : List Text) (last closing : Text) : Prop where
  lines_own : lines own = opening :: (ls ++ [last] ++ [closing])
  lines_joined : lines joined = opening :: (ls ++ [last ++ closing])
  opens : '{' ∈ opening
  stays_open : ∀ beginning, beginning <+: ls ++ [last] → 0 < openBraces (opening :: beginning)
  closes : openBraces (opening :: (ls ++ [last] ++ [closing])) ≤ 0
  closes_joined : openBraces (opening :: (ls ++ [last ++ closing])) ≤ 0

theorem openBraces_of_not_mem {line : Text} (h : '{' ∉ line ∧ '}' ∉ line) : openBraces [line] = 0 := by
  rw [openBraces, openBraces, Int.add_zero]
  apply balance_eq_zero (by decide)
  exact Balanced.of_not_mem (mt mem_of_mem_withoutComments h.1) (mt mem_of_mem_withoutComments h.2)

/-- A brace behind code without comments counts. -/
theorem openBraces_append_cons {front tail : Text} {brace : Char} (hBrace : brace = '{' ∨ brace = '}')
    (hCode : IsCommentless front) (hFront : '{' ∉ front ∧ '}' ∉ front) (hTail : '{' ∉ tail ∧ '}' ∉ tail) :
    openBraces [front ++ brace :: tail] = balance '{' '}' [brace] := by
  have hCodeTail := openBraces_of_not_mem hTail
  rw [openBraces, openBraces, Int.add_zero] at hCodeTail
  have hNot : brace ≠ '*' ∧ brace ≠ '/' := by
    obtain rfl | rfl := hBrace <;> decide
  rw [openBraces, openBraces, withoutComments_append_cons hCode hNot.1 hNot.2, balance_append,
    ← List.singleton_append, balance_append, hCodeTail, balance_eq_zero (by decide) (.of_not_mem hFront.1 hFront.2)]
  omega

/-- Braces that only open the first line and close the last one. -/
theorem TwoLayouts.of_braceFree {own joined head last tail : Text} {ls : List Text}
    (hOwn : lines own = (head ++ ['{']) :: (ls ++ [last] ++ ['}' :: tail]))
    (hJoined : lines joined = (head ++ ['{']) :: (ls ++ [last ++ '}' :: tail]))
    (hBraces : ∀ line ∈ head :: tail :: last :: ls, '{' ∉ line ∧ '}' ∉ line) (hHead : IsCommentless head)
    (hLast : IsCommentless last) : TwoLayouts own joined (head ++ ['{']) ls last ('}' :: tail) := by
  simp only [List.forall_mem_cons] at hBraces
  obtain ⟨hHeadBraces, hTail, hLastBraces, hMembers⟩ := hBraces
  have hZero (beginning : List Text) (h : ∀ line ∈ beginning, '{' ∉ line ∧ '}' ∉ line) :
      openBraces beginning = 0 := by
    induction beginning with
    | nil => rfl
    | cons line beginning ih =>
      obtain ⟨hLine, hRest⟩ := List.forall_mem_cons.mp h
      rw [openBraces_cons, openBraces_of_not_mem hLine, ih hRest, Int.add_zero]
  have hAll : ∀ line ∈ ls ++ [last], '{' ∉ line ∧ '}' ∉ line :=
    List.forall_mem_append.mpr ⟨hMembers, by simpa using hLastBraces⟩
  have hOpening : openBraces [head ++ ['{']] = 1 :=
    openBraces_append_cons (Or.inl rfl) hHead hHeadBraces ⟨by simp, by simp⟩
  have hClosing : openBraces [[] ++ '}' :: tail] = -1 :=
    openBraces_append_cons (Or.inr rfl) (by decide) ⟨by simp, by simp⟩ hTail
  rw [List.nil_append] at hClosing
  have hBehind : openBraces [last ++ '}' :: tail] = -1 :=
    openBraces_append_cons (Or.inr rfl) hLast hLastBraces hTail
  refine ⟨hOwn, hJoined, by simp, fun beginning hBeginning => ?_, ?_, ?_⟩
  · rw [openBraces_cons, hOpening, hZero beginning fun line hLine => hAll line (hBeginning.subset hLine)]
    decide
  · rw [openBraces_cons, openBraces_append, hOpening, hZero _ hAll, hClosing]
    decide
  · rw [openBraces_cons, openBraces_append, hOpening, hZero _ hMembers, hBehind]
    decide

/-- A line with the closing brace at its end is not read for a member, and all others are as before. -/
theorem readMembers_twoLayouts {own joined opening last closing : Text} {ls : List Text}
    (h : TwoLayouts own joined opening ls last closing) (doc : Doc) :
    readMembers own doc = (ls ++ [last]).filterMap (Member.ofLine? doc) ∧
      readMembers joined doc = ls.filterMap (Member.ofLine? doc) ∧
      (readMembers joined doc = readMembers own doc ↔ Member.ofLine? doc last = none) := by
  have hOwn := readMembers_closed h.lines_own h.opens h.stays_open h.closes doc
  have hJoined := readMembers_closed h.lines_joined h.opens
    (fun beginning hBeginning => h.stays_open beginning (hBeginning.trans (List.prefix_append ls [last])))
    h.closes_joined doc
  refine ⟨hOwn, hJoined, ?_⟩
  rw [hOwn, hJoined, List.filterMap_append, List.self_eq_append_right, List.filterMap_cons]
  cases Member.ofLine? doc last <;> simp

def pointLines : List Text := ["struct point \x7b".toList, "    int x;".toList, "    int y; ".toList, "\x7d;".toList]

def pointJoined : List Text := ["struct point \x7b".toList, "    int x;".toList, "    int y; \x7d;".toList]

theorem readMembers_twoLayouts_point :
    TwoLayouts (joinLines pointLines) (joinLines pointJoined) "struct point \x7b".toList ["    int x;".toList]
        "    int y; ".toList "\x7d;".toList ∧
      Member.ofLine? {} "    int y; ".toList = some ⟨"int".toList, "y".toList, []⟩ ∧
      readMembers (joinLines pointJoined) {} ≠ readMembers (joinLines pointLines) {} := by
  have hLayouts : TwoLayouts (joinLines pointLines) (joinLines pointJoined) ("struct point ".toList ++ ['{'])
      ["    int x;".toList] "    int y; ".toList ('}' :: [';']) :=
    .of_braceFree (by decide) (by decide) (by decide) (by decide) (by decide)
  have hMember : Member.ofLine? {} "    int y; ".toList = some ⟨"int".toList, "y".toList, []⟩ := by decide
  refine ⟨hLayouts, hMember, fun hSame => ?_⟩
  have hNone := (readMembers_twoLayouts hLayouts {}).2.2.mp hSame
  rw [hMember] at hNone
  cases hNone

/-- The member `y` is lost behind the brace. -/
theorem not_forall_readMembers_twoLayouts :
    ¬∀ (own joined head last tail : Text) (ls : List Text) (doc : Doc),
      lines own = (head ++ ['{']) :: (ls ++ [last] ++ ['}' :: tail]) →
      lines joined = (head ++ ['{']) :: (ls ++ [last ++ '}' :: tail]) →
      (∀ line ∈ head :: tail :: last :: ls, '{' ∉ line ∧ '}' ∉ line) →
        IsCommentless head → IsCommentless last →
        readMembers joined doc = readMembers own doc := by
  intro h
  have hSame := h (joinLines pointLines) (joinLines pointJoined) "struct point ".toList "    int y; ".toList [';']
    ["    int x;".toList] {} (by decide) (by decide) (by decide) (by decide) (by decide)
  exact absurd hSame (by decide)

theorem withoutSizes_sublist (inside : Bool) (s : Text) : (withoutSizes inside s).Sublist s := by
  induction s generalizing inside with
  | nil => exact .slnil
  | cons c s ih =>
    rw [withoutSizes]
    split
    · exact (ih _).cons c
    · split
      · exact (ih true).cons c
      · exact (ih false).cons_cons c

theorem Member.mem_of_mem_read? {declarator : Text} {doc : Doc} {member : Member} {c : Char}
    (hRead : Member.read? declarator doc = some member) (h : c ∈ member.type ++ member.name) : c ∈ declarator := by
  have hText := fst_append_snd_splitEnding (fun c => !isBlank c) declarator
  unfold Member.read? at hRead
  simp only at hRead
  split at hRead
  · cases hRead
  · cases hRead
    rw [← hText]
    obtain hType | hName := List.mem_append.mp h
    · exact List.mem_append_left _ ((List.dropLast_sublist _).subset (mem_of_mem_trim hType))
    · exact List.mem_append_right _ ((withoutSizes_sublist false _).subset hName)

theorem Member.mem_of_mem_ofLine? {line : Text} {doc : Doc} {member : Member} {c : Char}
    (hLine : Member.ofLine? doc line = some member) (h : c ∈ member.type ++ member.name) : c ∈ line := by
  unfold Member.ofLine? at hLine
  simp only at hLine
  split at hLine
  · cases hLine
  · have hCode := (List.takeWhile_sublist _).subset (mem_of_mem_trim (Member.mem_of_mem_read? hLine h))
    exact mem_of_mem_withoutComments (mem_of_mem_trim hCode)

theorem exists_mem_of_mem_readBody {doc : Doc} {depth : Int} {ls : List Text} {member : Member}
    (h : member ∈ readBody doc depth ls) : ∃ line ∈ ls, Member.ofLine? doc line = some member := by
  induction ls generalizing depth with
  | nil => cases h
  | cons line rest ih =>
    rw [readBody_cons] at h
    split at h
    · cases h
    · obtain hFirst | hRest := List.mem_append.mp h
      · exact ⟨line, List.mem_cons_self, Option.mem_toList.mp hFirst⟩
      · obtain ⟨line', hLine, hMember⟩ := ih hRest
        exact ⟨line', List.mem_cons_of_mem line hLine, hMember⟩

/-- A member is on one line, whatever the declaration. -/
theorem not_mem_member {definition : Text} {doc : Doc} {member : Member} (h : member ∈ readMembers definition doc) :
    '\n' ∉ member.type ++ member.name := by
  unfold readMembers at h
  split at h
  · rename_i opening body hBody
    obtain ⟨line, hLine, hMember⟩ := exists_mem_of_mem_readBody h
    have hLines : line ∈ lines definition :=
      (List.dropWhile_sublist _).subset (hBody ▸ List.mem_cons_of_mem opening hLine)
    exact fun hFeed => not_mem_of_mem_lines hLines (Member.mem_of_mem_ofLine? hMember hFeed)
  · cases h

end HeaderDigest
