import HeaderDigest.Proofs.Doc.Words
import HeaderDigest.Proofs.Grammar.Comment

/-!
# Wrapping a documentation block

What a block says depends on its words alone. So the words may be spread over starred lines in
whatever way, as long as none of them closes the block.
-/

namespace HeaderDigest

open Text

namespace Doc

def starLine (ws : List Text) : Text := [' ', '*', ' '] ++ joinWords ws

/-- A block whose words stand on these lines. -/
def wrap (wrapped : List (List Text)) : Text :=
  joinLines ("/**".toList :: wrapped.map starLine ++ [" */".toList])

theorem isStarLine_starLine {ws : List Text} (hWords : ∀ w ∈ ws, IsWord w)
    (hClosers : ∀ w ∈ ws, hasPart ['*', '/'] w = false) :
    IsLine (starLine ws) ∧ words (proseLine (starLine ws)) = ws := by
  cases ws with
  | nil => exact ⟨⟨by decide, by decide⟩, by decide⟩
  | cons w ws =>
    obtain ⟨hSpaced, hTrimmed, hNe⟩ := singleSpaced_joinWords hWords
    have hLine := isStarLine hSpaced hTrimmed (hNe (List.cons_ne_nil w ws))
      (hasPart_joinWords (by decide) (by decide) hClosers)
      (fun c (hc : c ∈ []) => absurd hc List.not_mem_nil)
    rw [List.append_nil] at hLine
    refine ⟨hLine.isLine, ?_⟩
    rw [starLine, hLine.proseLine, words_joinWords hWords]

theorem blockWords_wrap {wrapped : List (List Text)}
    (hWords : ∀ ws ∈ wrapped, ∀ w ∈ ws, IsWord w)
    (hClosers : ∀ ws ∈ wrapped, ∀ w ∈ ws, hasPart ['*', '/'] w = false) :
    blockWords (wrap wrapped) = wrapped.flatten := by
  have hStar (ws : List Text) (h : ws ∈ wrapped) := isStarLine_starLine (hWords ws h) (hClosers ws h)
  have hLines : lines (wrap wrapped) = "/**".toList :: wrapped.map starLine ++ [" */".toList] := by
    have hOpening : IsLine "/**".toList := ⟨by decide, by decide⟩
    refine lines_joinLines_append (List.forall_mem_cons.mpr ⟨hOpening, ?_⟩) _
    exact List.forall_mem_map.mpr fun ws h => (hStar ws h).1
  have hOpening : words (proseLine "/**".toList) = [] := by decide
  have hClosing : words (proseLine " */".toList) = [] := by decide
  rw [blockWords, hLines, List.flatMap_append, List.flatMap_cons, List.flatMap_singleton, hOpening,
    hClosing, List.nil_append, List.append_nil, List.flatMap_map, List.flatMap_def]
  congr 1
  exact (List.map_congr_left fun ws h => (hStar ws h).2).trans (List.map_id wrapped)

theorem read_wrap {raw : Text} (hClosers : ∀ w ∈ blockWords raw, ¬['*', '/'] <:+: w)
    {wrapped : List (List Text)} (hWrapped : wrapped.flatten = blockWords raw) :
    Doc.read (wrap wrapped) = Doc.read raw := by
  have hMem (ws : List Text) (h : ws ∈ wrapped) (w : Text) (hw : w ∈ ws) : w ∈ blockWords raw :=
    hWrapped ▸ List.mem_flatten.mpr ⟨ws, h, hw⟩
  have hWords : blockWords (wrap wrapped) = wrapped.flatten := by
    refine blockWords_wrap (fun ws h w hw => isWord_of_mem_blockWords (hMem ws h w hw)) ?_
    intro ws h w hw
    exact Bool.eq_false_iff.mpr (mt hasPart_iff.mp (hClosers w (hMem ws h w hw)))
  rw [read_eq_ofWords, read_eq_ofWords, hWords, hWrapped]

/-- The notes of a block on tags of one name, in their order. -/
def notesIn (name raw : Text) : List (Text × Text) :=
  notesOf name ((splitWords (blockWords raw)).2.map fun tag => (tag.name, tag.body))

/-- A block is read word by word. Each word belongs to the description or to one tag, of the notes on
one name the last counts, and the words may be wrapped in any way that does not close the block. -/
theorem read_words (raw : Text) :
    let ws := blockWords raw
    IsSplit ws (splitWords ws).1 (splitWords ws).2 ∧ Doc.read raw = Doc.ofWords ws ∧
      (∀ name, (Doc.read raw).param name =
        ((notesIn "param".toList raw).reverse.lookup name).getD []) ∧
      (∀ name, (Doc.read raw).member name =
        ((notesIn "member".toList raw).reverse.lookup name).getD []) ∧
      ((∀ w ∈ ws, ¬['*', '/'] <:+: w) → ∀ wrapped : List (List Text), wrapped.flatten = ws →
        Doc.read (wrap wrapped) = Doc.read raw) := by
  refine ⟨isSplit_splitWords _, read_eq_ofWords raw, fun name => ?_, fun name => ?_,
    fun hClosers _ hWrapped => read_wrap hClosers hWrapped⟩
  · rw [read_eq_ofWords]
    exact get_putAll [] _ name
  · rw [read_eq_ofWords]
    exact get_putAll [] _ name

def sumComment : Text := "/** @brief Adds two numbers. @param[in, out] a The sum. */".toList

def sumCommentWrapped : List (List Text) :=
  [["@brief".toList, "Adds".toList], [], ["two".toList, "numbers.".toList, "@param[in,".toList],
    ["out]".toList, "a".toList, "The".toList, "sum.".toList]]

theorem read_wrap_sumComment :
    (∀ w ∈ blockWords sumComment, ¬['*', '/'] <:+: w) ∧
      sumCommentWrapped.flatten = blockWords sumComment ∧
      Doc.read (wrap sumCommentWrapped) = Doc.read sumComment := by
  have hParts : ∀ w ∈ blockWords sumComment, hasPart ['*', '/'] w = false := by decide
  have hClosers : ∀ w ∈ blockWords sumComment, ¬['*', '/'] <:+: w :=
    fun w hw => mt hasPart_iff.mpr (Bool.eq_false_iff.mp (hParts w hw))
  have hWrapped : sumCommentWrapped.flatten = blockWords sumComment := by decide
  exact ⟨hClosers, hWrapped, (read_words sumComment).2.2.2.2 hClosers _ hWrapped⟩

end Doc

end HeaderDigest
