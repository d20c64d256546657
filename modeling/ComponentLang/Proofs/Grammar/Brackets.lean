import ComponentLang.Grammar.Production
import ComponentLang.Proofs.Token.Brackets

namespace ComponentLang

/-- What is known at one place of a rule: the brackets opened since its start,
innermost first, and whether the current token is among them yet. -/
inductive Reading where
  /-- Only a complaint leads here. -/
  | refuted
  | settled (opened : List Bracket)
  /-- The current token can be any. -/
  | unread (opened : List Bracket)
  /-- The current token is one of the candidates. -/
  | among (opened : List Bracket) (candidates : List Terminal)
  deriving DecidableEq, Repr

namespace Reading

/-- Reads the current token, if all its candidates come to the same. -/
def settle : Reading → Option Reading
  | .refuted => some .refuted
  | .settled opened => some (.settled opened)
  | .unread _ => none
  | .among _ [] => some .refuted
  | .among opened (first :: others) =>
      let effect (terminal : Terminal) := Bracket.read terminal.spelling opened
      if others.all fun other => effect other == effect first then
        (effect first).map .settled
      else none

def proceed (reading : Reading) (next : List Bracket → Option Reading) :
    Option Reading :=
  match reading.settle with
  | some (.settled opened) => next opened
  | some .refuted => some .refuted
  | _ => none

def join (first second : Reading) : Option Reading :=
  match first.settle, second.settle with
  | some .refuted, second => second
  | first, some .refuted => first
  | first, second => if first == second then first else none

def assume : Test → Reading → Reading
  | .spelled terminal, .unread opened => .among opened [terminal]
  | .spelled terminal, .among opened candidates =>
      .among opened
        (candidates.filter fun other => other.spelling == terminal.spelling)
  | .sizedType, .unread opened | .builtinType, .unread opened
  | .truthWord, .unread opened | .identifier, .unread opened =>
      .settled opened
  | .ofKind kind, .unread opened =>
      if kind == .operator then .unread opened else .settled opened
  | _, reading => reading

def refute : Test → Reading → Reading
  | .spelled terminal, .among opened candidates =>
      .among opened
        (candidates.filter fun other => other.spelling != terminal.spelling)
  | _, reading => reading

end Reading

/-- The bracket whose closing mark ends the elements that a nonterminal names. -/
def Nonterminal.closes? : Nonterminal → Option Bracket
  | .members _ | .enumConstants | .structMembers | .connections | .instances
  | .telemetryLimits | .phases => some .curly
  | .parameters => some .round
  | .arrayElements => some .square
  | .expression | .qualifiedTail => none

namespace Rule

open Reading

/-- What is known behind a rule that is followed without a complaint. There is
no answer when too little is known before it. -/
def follow : Rule → Reading → Option Reading
  | .done, reading => reading.settle
  | .seq first next, reading => (first.follow reading).bind next.follow
  | .need _, reading | .advance, reading =>
      reading.proceed fun opened => some (.unread opened)
  | .expect candidates, reading =>
      reading.proceed fun opened => some (.among opened candidates)
  | .accept candidates found missing, reading =>
      reading.proceed fun opened =>
        (found.follow (.among opened candidates)).bind fun first =>
          (missing.follow (.settled opened)).bind first.join
  | .branch test holds fails, reading =>
      (holds.follow (assume test reading)).bind fun first =>
        (fails.follow (refute test reading)).bind first.join
  | .complain _, .unread _ => some .refuted
  | .complain _, _ => none
  | .resolve, .unread opened => some (.settled opened)
  | .resolve, reading | .strings, reading | .signature _ _, reading =>
      reading.proceed fun opened => some (.settled opened)
  | .define _ _ body, reading =>
      reading.proceed fun opened => body.follow (.settled opened)
  | .recover _ body next _, reading => (body.follow reading).bind next.follow
  | .statement _, .unread opened => some (.settled opened)
  | .statement _, _ => none
  | .call nonterminal, reading =>
      reading.proceed fun opened =>
        match nonterminal.closes?, opened with
        | none, opened => some (.settled opened)
        | some bracket, inner :: outer =>
            if inner == bracket then some (.settled outer) else none
        | some _, [] => none

end Rule

theorem Nonterminal.follow_rule (nonterminal : Nonterminal) :
    nonterminal.rule.follow (.settled nonterminal.closes?.toList) =
      some (.settled []) := by
  cases nonterminal with
  | members block => cases block <;> decide +kernel
  | _ => decide +kernel

theorem Statement.follow_rule (statement : Statement) :
    statement.rule.follow (.settled []) = some (.settled []) := by
  rcases statement with _ | _ | _ | _ | _ | _ | _ | _ | _ | _ | (_ | _) |
    (_ | _) | _ | _ | _ | _ | _ | _ | _ | _ |
    ((_ | _) | _ | _ | _ | _ | _ | _ | _) | _ | _ | _ <;> decide +kernel

end ComponentLang
