import HeaderDigest.Page.Markdown
import HeaderDigest.Page.Record

/-!
# Output formats

A format makes a page of one header, and one text of several.
-/

namespace HeaderDigest

open Text

inductive Format
  | json
  | markdown
deriving Repr, DecidableEq

namespace Format

def ofName? (name : Text) : Option Format :=
  if name = "json".toList then some json
  else if name = "markdown".toList ∨ name = "md".toList then some markdown
  else none

def extension : Format → Text
  | json => "json".toList
  | markdown => "md".toList

def page (format : Format) (header : Header) : Text :=
  match format with
  | json => Json.print 0 header.toJson ++ ['\n']
  | markdown => Markdown.page header

/-- All headers in one text: a list of records, or the pages one after the other. -/
def pages (format : Format) (headers : List Header) : Text :=
  match format with
  | json => Json.print 0 (.array (headers.map Header.toJson)) ++ ['\n']
  | markdown => joinLines (headers.map Markdown.page)

end Format

end HeaderDigest
