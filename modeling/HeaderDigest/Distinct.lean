/-!
# The first of each

Keeping of all items with the same key only the first, in the order of the list.
-/

namespace HeaderDigest

def firstOfEach {α κ : Type} [BEq κ] (key : α → κ) : List α → List α
  | [] => []
  | item :: rest => item :: (firstOfEach key rest).filter fun other => key other != key item

theorem mem_of_mem_firstOfEach {α κ : Type} [BEq κ] (key : α → κ) {item : α} {items : List α}
    (h : item ∈ firstOfEach key items) : item ∈ items := by
  induction items with
  | nil => exact h
  | cons first rest ih =>
    rcases List.mem_cons.mp h with h | h
    · exact h ▸ List.mem_cons_self
    · exact List.mem_cons_of_mem first (ih (List.mem_filter.mp h).1)

end HeaderDigest
