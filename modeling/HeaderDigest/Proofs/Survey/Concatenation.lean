import HeaderDigest.Proofs.Header.Assembly
import HeaderDigest.Proofs.Survey.Closed
import HeaderDigest.Proofs.Text.Lines

/-!
# The header of two texts

When nothing that a text begins needs what comes after it, the header of this text with another
one behind it holds the records of both, those of the second with the numbers of their lines moved
down.
-/

namespace HeaderDigest

open Text

/-- The text ends its last line, and its lines are closed. -/
def IsClosed (file : Text) (includePrivate : Bool) (s : Text) : Prop :=
  EndsLine s ∧ ∀ finding ∈ survey file includePrivate (lines s), finding.EndsWithin (lines s)

instance (s : Text) : Decidable (EndsLine s) := inferInstanceAs (Decidable (_ ∨ _))

instance (file : Text) (includePrivate : Bool) (s : Text) :
    Decidable (IsClosed file includePrivate s) := inferInstanceAs (Decidable (_ ∧ _))

variable {file : Text} {includePrivate : Bool}

end HeaderDigest
