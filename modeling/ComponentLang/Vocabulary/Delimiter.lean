namespace ComponentLang

inductive Delimiter where
  | comment | preRemark | postRemark | quote | tripleQuote
  | continuation
  deriving DecidableEq, Repr

namespace Delimiter

def all : List Delimiter :=
  [.comment, .preRemark, .postRemark, .quote, .tripleQuote,
    .continuation]

def spelling : Delimiter → String
  | .comment => "#"
  | .preRemark => "@"
  | .postRemark => "@<"
  | .quote => "\""
  | .tripleQuote => "\"\"\""
  | .continuation => "\\"

def name : Delimiter → String
  | .comment => "Comment"
  | .preRemark => "PreAnnotation"
  | .postRemark => "PostAnnotation"
  | .quote => "Quote"
  | .tripleQuote => "TripleQuote"
  | .continuation => "Continuation"

def ofSpelling? (text : String) : Option Delimiter :=
  all.find? fun delimiter => delimiter.spelling == text

theorem ofSpelling?_spelling (delimiter : Delimiter) :
    ofSpelling? delimiter.spelling = some delimiter := by
  cases delimiter <;> decide

end Delimiter

end ComponentLang
