import ComponentLang.StableSort
import ComponentLang.Token.Basic

namespace ComponentLang.Highlight

def tokenTypes : List String :=
  TokenKind.all.map TokenKind.legendName

def tokenModifiers : List String :=
  Modifiers.legend

def typeIndex? (name : String) : Option Nat :=
  tokenTypes.idxOf? name

/-- The tokens that have a length, in document order. -/
def shown (tokens : List Token) : List Token :=
  StableSort.sort (fun first second => first.start.le second.start)
    (tokens.filter fun token => 0 < token.length)

/-- Five numbers for each token: how far it is from the one before it, its
length, its kind and its modifiers. -/
def entry (place : Position) (token : Token) : List Nat :=
  let lines := token.line - place.line
  [lines, if lines = 0 then token.column - place.column else token.column,
    token.length, token.kind.index, token.modifiers.bits]

def encodeFrom (place : Position) : List Token → List Nat
  | [] => []
  | token :: rest => entry place token ++ encodeFrom token.start rest

def encode (tokens : List Token) : List Nat :=
  encodeFrom ⟨0, 0⟩ (shown tokens)

end ComponentLang.Highlight
