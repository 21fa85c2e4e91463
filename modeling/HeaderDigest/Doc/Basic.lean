import HeaderDigest.Text.Basic

/-!
# What a documentation block says

The notes of a block are texts by name, as `@param` and `@member` give them. A later note on a
name takes the place of an earlier one.
-/

namespace HeaderDigest

/-- Texts by name. Each name occurs once. -/
abbrev Notes := List (Text × Text)

namespace Notes

def put (notes : Notes) (name text : Text) : Notes :=
  (name, text) :: notes.filter fun note => note.1 != name

def get (notes : Notes) (name : Text) : Text := (notes.lookup name).getD []

theorem get_put (notes : Notes) (name text other : Text) :
    (notes.put name text).get other = if other = name then text else notes.get other := by
  by_cases h : other = name
  · subst h
    simp [put, get]
  · have hb : (other == name) = false := by simpa using h
    simp only [put, get, List.lookup_cons, hb, if_neg h]
    congr 1
    induction notes with
    | nil => rfl
    | cons note notes ih =>
      obtain ⟨key, value⟩ := note
      by_cases hn : key = name
      · simp [hn, ih, List.lookup_cons, hb]
      · simp [hn, List.lookup_cons, ih]

end Notes

structure Doc where
  brief : Text := []
  description : Text := []
  params : Notes := []
  members : Notes := []
  tags : List Text := []
deriving Repr, DecidableEq

namespace Doc

def hasTag (doc : Doc) (name : Text) : Bool := doc.tags.contains name

def param (doc : Doc) (name : Text) : Text := doc.params.get name

def member (doc : Doc) (name : Text) : Text := doc.members.get name

def isFileDoc (doc : Doc) : Bool := doc.hasTag "file".toList

end Doc

end HeaderDigest
