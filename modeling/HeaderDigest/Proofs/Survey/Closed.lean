import HeaderDigest.Proofs.Survey.MoveDown

/-!
# Closed lines

Lines are closed when nothing that the survey begins in them needs a line behind the last one:
each opener has its closer, each search for a declaration comes to its end, and so does each
declaration. The survey of closed lines goes on unchanged when other lines follow.
-/

namespace HeaderDigest

open Text

/-- Whether a search, before it finds a seed, meets a line that opens a block. -/
def Seed.meetsOpener : Pending → List Text → Bool
  | _, [] => false
  | .comment, line :: rest =>
    Seed.meetsOpener (if hasPart ['*', '/'] (trim line) then .nothing else .comment) rest
  | .directive, line :: rest =>
    Seed.meetsOpener (if endsWith ['\\'] (trim line) then .directive else .nothing) rest
  | .nothing, line :: rest =>
    match LineRole.of (trim line) with
    | .stop => true
    | .pass pending => Seed.meetsOpener pending rest
    | .seed _ => false

/-- The search behind a block finds a seed, meets an opener or uses up all lines it may read. -/
def LookaheadEnds (all : List Text) (start : Nat) : Prop :=
  (Seed.locate all start).isSome ∨
    Seed.meetsOpener .nothing ((all.drop start).take lookaheadLines) ∨
      start + lookaheadLines ≤ all.length

/-- The declaration that begins at a seed is terminated or as long as a declaration may be. -/
def SpanEnds (all : List Text) (seed : Seed) : Prop :=
  (match seed.kind with
    | .function => (Span.functionAt? all seed.line).isSome
    | .dataType => (Span.dataTypeAt all seed.line).terminated) ∨
    seed.line + spanLimit ≤ all.length

/-- Nothing that a finding begins needs a line behind the last one. -/
def Finding.EndsWithin (all : List Text) : Finding → Prop
  | .unterminated _ => False
  | .visit met => met.doc.isFileDoc = false →
      LookaheadEnds all met.block.nextLine ∧
        ∀ seed ∈ Seed.locate all met.block.nextLine, SpanEnds all seed

instance (all : List Text) (start : Nat) : Decidable (LookaheadEnds all start) :=
  inferInstanceAs (Decidable (_ ∨ _ ∨ _))

instance (all : List Text) (seed : Seed) : Decidable (SpanEnds all seed) :=
  match seed with
  | ⟨.function, _⟩ => inferInstanceAs (Decidable (_ ∨ _))
  | ⟨.dataType, _⟩ => inferInstanceAs (Decidable (_ ∨ _))

instance (all : List Text) : (finding : Finding) → Decidable (finding.EndsWithin all)
  | .unterminated _ => isFalse id
  | .visit _ => inferInstanceAs (Decidable (_ → _ ∧ _))

variable {file : Text} {includePrivate : Bool} {all : List Text}

end HeaderDigest
