import ComponentLang.Grammar.Statement
import ComponentLang.Token.Cursor

namespace ComponentLang

/-- How the following of a rule ends. -/
inductive Outcome where
  | finished
  | abandoned (line : Nat)
  | ended
  | exhausted
  deriving DecidableEq, Repr

def Outcome.message : Outcome → String
  | .finished => "finished"
  | .abandoned line => "statement abandoned at line " ++ toString line
  | .ended => "unexpected end of input"
  | .exhausted => "step allowance exhausted"

inductive Beginning where
  /-- A token that stands between statements without meaning. -/
  | nothing
  | statement (statement : Statement)
  | unexpected
  deriving DecidableEq, Repr

namespace TokenCursor

def place (cursor : TokenCursor) : Position :=
  (cursor.current?.map Token.stop).getD ⟨0, 0⟩

def isLater (cursor : TokenCursor) (token : Token) : Bool :=
  cursor.current?.any fun current => current.line < token.line

/-- Whether a statement that is incomplete before the token can be given up
there: at a closing brace, and at a word that begins a statement on a later
line. -/
def canResumeAt (cursor : TokenCursor) (token : Token) : Bool :=
  token.text == Operator.rightBrace.spelling ||
    (token.kind == .keyword &&
      (Keyword.ofSpelling? token.text).any Keyword.startsStatement &&
      cursor.isLater token)

def holds (cursor : TokenCursor) (test : Test) : Bool :=
  match cursor.current? with
  | none => false
  | some token =>
      match test with
      | .spelled terminal => token.text == terminal.spelling
      | .sizedType => token.text == BuiltinType.string.spelling
      | .builtinType => (BuiltinType.ofSpelling? token.text).isSome
      | .ofKind kind => token.kind == kind
      | .truthWord => token.kind == .keyword && Expected.isTruthWord token
      | .identifier => Literal.isIdentifier token.text
      | .lastOnLine => cursor.peek?.any cursor.isLater

def resumes (cursor : TokenCursor) : Resumption → Bool
  | .anywhere => true
  | .before terminals => cursor.peekIs terminals

def beginning (cursor : TokenCursor) (block : Block) : Beginning :=
  match cursor.current? with
  | none => .nothing
  | some token =>
      if token.isTrivia || token.kind == .string then .nothing
      else if token.kind == .keyword then
        match (Keyword.ofSpelling? token.text).bind
            (Statement.select block fun terminal =>
              cursor.peekIs [terminal]) with
        | some statement => .statement statement
        | none => .unexpected
      else .unexpected

end TokenCursor

end ComponentLang
