import HeaderDigest.Proofs.Survey.Position

/-!
# Moving lines down

What is found in lines does not depend on the number of the first one, apart from the numbers of
lines in it. So the same lines further down in a file give the same findings, moved down as well.
-/

namespace HeaderDigest

open Text

def Function.moveDown (offset : Nat) (record : Function) : Function :=
  { record with line := record.line + offset }

def DataType.moveDown (offset : Nat) (record : DataType) : DataType :=
  { record with line := record.line + offset }

def Block.moveDown (offset : Nat) (block : Block) : Block :=
  { block with startLine := block.startLine + offset, nextLine := block.nextLine + offset }

def Seed.moveDown (offset : Nat) (seed : Seed) : Seed := { seed with line := seed.line + offset }

def Span.moveDown (offset : Nat) (span : Span) : Span :=
  { span with start := span.start + offset, stop := span.stop + offset }

def Outcome.moveDown (offset : Nat) : Outcome → Outcome
  | .fileDoc => .fileDoc
  | .noDeclaration => .noDeclaration
  | .endlessFunction seed => .endlessFunction (seed + offset)
  | .refused seed span refusal => .refused (seed + offset) (span.moveDown offset) refusal
  | .function span record => .function (span.moveDown offset) (record.moveDown offset)
  | .unknownType span => .unknownType (span.moveDown offset)
  | .dataType span record => .dataType (span.moveDown offset) (record.moveDown offset)

def Visit.moveDown (offset : Nat) (visit : Visit) : Visit :=
  ⟨visit.block.moveDown offset, visit.doc, visit.outcome.moveDown offset⟩

def Finding.moveDown (offset : Nat) : Finding → Finding
  | .unterminated line => .unterminated (line + offset)
  | .visit met => .visit (met.moveDown offset)

end HeaderDigest
