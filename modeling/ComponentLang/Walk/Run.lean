import ComponentLang.Grammar.Production
import ComponentLang.Walk.State

namespace ComponentLang.Walk

def openedScope (kind : TokenKind) (name : Option String) : Option String :=
  if kind.opensScope then name else none

def parameterScope (owner : Option String) : String :=
  owner.getD "<params>"

def resumes (walk : Walk) (resumption : Resumption) : Bool :=
  walk.cursor.resumes resumption

/-- Follows a rule. Every step down into the rule spends one of `fuel`, which
`allowance` makes large enough. -/
def run : Nat → Rule → Walk → Outcome × Walk
  | 0, _, walk => (.exhausted, walk)
  | fuel + 1, rule, walk =>
      match rule with
      | .done => (.finished, walk)
      | .seq first next =>
          match run fuel first walk with
          | (.finished, walk) => run fuel next walk
          | stopped => stopped
      | .need expected => walk.need expected
      | .expect candidates => walk.expect candidates
      | .accept candidates found missing =>
          match walk.cursor.take? candidates with
          | some (_, cursor) => run fuel found (walk.moveTo cursor)
          | none => run fuel missing walk
      | .advance => walk.advance (.oneOf [Operator.rightBrace])
      | .branch test holds fails =>
          if walk.holds test then run fuel holds walk else run fuel fails walk
      | .complain complaint => (.finished, walk.complain complaint)
      | .strings => (.finished, walk.strings)
      | .resolve => (.finished, walk.resolve)
      | .define kind modifiers body =>
          match walk.define kind modifiers with
          | (.finished, name, walk) =>
              match openedScope kind name with
              | some name =>
                  match run fuel body (walk.openScope name kind) with
                  | (outcome, walk) => (outcome, walk.closeScope)
              | none => run fuel body walk
          | (stopped, _, walk) => (stopped, walk)
      | .signature kind modifiers =>
          match walk.define kind modifiers with
          | (.finished, name, walk) =>
              match walk.cursor.take? [Operator.leftParen] with
              | some (_, cursor) =>
                  match run fuel (.call .parameters)
                      ((walk.moveTo cursor).openScope
                        (parameterScope name) .nil) with
                  | (outcome, walk) => (outcome, walk.closeScope)
              | none => (.finished, walk)
          | (stopped, _, walk) => (stopped, walk)
      | .recover resumption body next resumed =>
          match run fuel body walk with
          | (.finished, walk) => run fuel next walk
          | (.abandoned line, walk) =>
              if walk.resumes resumption then run fuel resumed walk
              else (.abandoned line, walk)
          | stopped => stopped
      | .statement block =>
          match walk.beginning block with
          | .nothing => (.finished, walk)
          | .statement statement => run fuel statement.rule walk
          | .unexpected => (.finished, walk.complain .unexpectedToken)
      | .call nonterminal => run fuel nonterminal.rule walk

/-- Steps enough for any statement of a document with `size` tokens. -/
def allowance (size : Nat) : Nat :=
  64 * (3 * size + 4)

/-- Visits the statements of a document from the current token on, each within
`steps`. `stop` is asked before each; the answer tells whether the end was
reached. Every turn takes a token, so `fuel` need only be as large as the number
of tokens. -/
def statements (stop : Walk → Bool) (steps : Nat) : Nat → Walk → Bool × Walk
  | 0, walk => (true, walk)
  | fuel + 1, walk =>
      if stop walk then (false, walk)
      else
        match run steps (.statement .document) walk with
        | (.ended, walk) => (true, walk.settle)
        | (_, walk) =>
            match walk.settle.cursor.next? with
            | some (_, cursor) =>
                statements stop steps fuel (walk.settle.moveTo cursor)
            | none => (true, walk.settle)

def document (stop : Walk → Bool) (tokens : List Token) : Bool × Walk :=
  if tokens.isEmpty then (true, start tokens)
  else statements stop (allowance tokens.length) tokens.length (start tokens)

end ComponentLang.Walk
