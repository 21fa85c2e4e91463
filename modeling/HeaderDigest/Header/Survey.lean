import HeaderDigest.Declaration.Seed
import HeaderDigest.Declaration.Span
import HeaderDigest.Doc.Reader
import HeaderDigest.Event
import HeaderDigest.Header.Basic

/-!
# The survey of a file

One pass over the lines of a file meets its documentation blocks one by one. A block that speaks
of the file is kept for the header. Any other belongs to the declaration after it; if that one
gives a record, the pass goes on behind the declaration, otherwise behind the block. The survey is
the list of what was met, and the header and the events are read off it.
-/

namespace HeaderDigest

open Text

inductive Outcome
  | fileDoc
  | noDeclaration
  | endlessFunction (seed : Nat)
  | refused (seed : Nat) (span : Span) (refusal : Refusal)
  | function (span : Span) (function : Function)
  | unknownType (span : Span)
  | dataType (span : Span) (dataType : DataType)
deriving Repr, DecidableEq

@[ext]
structure Visit where
  block : Block
  doc : Doc
  outcome : Outcome
deriving Repr, DecidableEq

inductive Finding
  | unterminated (line : Nat)
  | visit (visit : Visit)
deriving Repr, DecidableEq

def Visit.next (visit : Visit) : Nat :=
  match visit.outcome with
  | .function span _ => span.stop
  | .dataType span _ => span.stop
  | _ => visit.block.nextLine

def Outcome.ofSeed (file : Text) (includePrivate : Bool) (doc : Doc) (position : Nat)
    (lines : List Text) (seed : Seed) : Outcome :=
  let rest := lines.drop (seed.line - position)
  match seed.kind with
  | .function =>
    match Span.function? seed.line rest with
    | none => .endlessFunction seed.line
    | some span =>
      match Function.read span.text doc file (seed.line + 1) includePrivate with
      | .ok record => .function span record
      | .error refusal => .refused seed.line span refusal
  | .dataType =>
    let span := Span.dataType seed.line rest
    match DataType.read? (rest.headD []) span.text doc file (seed.line + 1) with
    | some record => .dataType span record
    | none => .unknownType span

def Visit.ofBlock (file : Text) (includePrivate : Bool) (position length : Nat)
    (lines : List Text) : Visit :=
  let block : Block := ⟨joinLines (lines.take length), position, position + length⟩
  let doc := Doc.read block.text
  let outcome :=
    if doc.isFileDoc then .fileDoc
    else
      let rest := lines.drop length
      match Seed.search block.nextLine .nothing (rest.take lookaheadLines) with
      | none => .noDeclaration
      | some seed => .ofSeed file includePrivate doc block.nextLine rest seed
  ⟨block, doc, outcome⟩

/-- The findings in lines of which the first has the number `position`, when `passed` lines at
the beginning are already done with. -/
def surveyFrom (file : Text) (includePrivate : Bool) (position passed : Nat) :
    List Text → List Finding
  | [] => []
  | line :: rest =>
    match passed with
    | passed + 1 => surveyFrom file includePrivate (position + 1) passed rest
    | 0 =>
      match blockLength? (line :: rest) with
      | some length =>
        let visit := Visit.ofBlock file includePrivate position length (line :: rest)
        .visit visit ::
          surveyFrom file includePrivate (position + 1) (visit.next - (position + 1)) rest
      | none =>
        let later := surveyFrom file includePrivate (position + 1) 0 rest
        if opensBlock line then .unterminated position :: later else later

def survey (file : Text) (includePrivate : Bool) (lines : List Text) : List Finding :=
  surveyFrom file includePrivate 0 0 lines

def Finding.visit? : Finding → Option Visit
  | .visit met => some met
  | .unterminated _ => none

def Finding.function? (finding : Finding) : Option Function :=
  match finding.visit?.map Visit.outcome with
  | some (.function _ record) => some record
  | _ => none

def Finding.dataType? (finding : Finding) : Option DataType :=
  match finding.visit?.map Visit.outcome with
  | some (.dataType _ record) => some record
  | _ => none

def Finding.fileDoc? (finding : Finding) : Option Doc :=
  match finding with
  | .visit ⟨_, doc, .fileDoc⟩ => some doc
  | _ => none

/-- The header that a survey gives. The first block that speaks of the file describes it. -/
def Header.ofSurvey (filename path : Text) (findings : List Finding) : Header :=
  let fileDoc := (findings.findSome? Finding.fileDoc?).getD {}
  Header.assemble filename path fileDoc.brief fileDoc.description
    (findings.filterMap Finding.function?) (findings.filterMap Finding.dataType?)

def Header.read (text filename path : Text) (includePrivate : Bool) : Header :=
  Header.ofSurvey filename path (survey filename includePrivate (lines text))

def Refusal.event? : Refusal → Option Event
  | .missingParameterList => some .noParameterList
  | .unknownShape => some .unknownShape
  | .hidden => some .hiddenFunction
  | .missingSemicolon | .noFunctionName => none

def Outcome.events : Outcome → List Event
  | .fileDoc => []
  | .noDeclaration => [.noDeclaration]
  | .endlessFunction _ => [.endlessFunction]
  | .refused _ _ refusal => refusal.event?.toList
  | .function _ _ => [.functionRead]
  | .unknownType span => (if span.isCapped then [.cappedType] else []) ++ [.unknownType]
  | .dataType span _ => if span.isCapped then [.cappedType] else []

def Finding.events : Finding → List Event
  | .unterminated _ => [.unterminatedBlock]
  | .visit met => met.outcome.events

def Header.events (text filename : Text) (includePrivate : Bool) : List Event :=
  (survey filename includePrivate (lines text)).flatMap Finding.events

end HeaderDigest
