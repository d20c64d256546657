import ComponentLang.Grammar.Expected
import ComponentLang.Token.Kind
import ComponentLang.Token.Modifiers

namespace ComponentLang

inductive Block where
  | document | «module» | component | topology
  deriving DecidableEq, Repr

/-- The parts of the grammar that occur in many places or repeatedly. Each name
of a list stands for the elements up to the list's closing mark. -/
inductive Nonterminal where
  | expression
  | arrayElements
  | qualifiedTail
  | members (block : Block)
  | enumConstants
  | structMembers
  | parameters
  | connections
  | instances
  | telemetryLimits
  | phases
  deriving DecidableEq, Repr

inductive Test where
  | spelled (terminal : Terminal)
  | sizedType
  | builtinType
  | ofKind (kind : TokenKind)
  | truthWord
  | identifier
  | lastOnLine
  deriving DecidableEq, Repr

inductive Complaint where
  | unexpectedToken
  | invalidExpression
  | invalidType
  | stringExpected
  deriving DecidableEq, Repr

/-- Where an abandoned part is taken as ended: anywhere, or only when the next
token is one of some terminals. -/
inductive Resumption where
  | anywhere
  | before (terminals : List Terminal)
  deriving DecidableEq, Repr

inductive Rule where
  | done
  | seq (first next : Rule)
  /-- Takes the next token as the start of what is expected. A token that does
  not fit abandons the statement when the statement can be resumed there. -/
  | need (expected : Expected)
  /-- Takes the next token as one of the candidates. Another token is reported
  and passed over when a candidate stands further on in its line. -/
  | expect (candidates : List Terminal)
  | accept (candidates : List Terminal) (found missing : Rule)
  /-- Takes any token, on the way to a closing brace. -/
  | advance
  | branch (test : Test) (holds fails : Rule)
  | complain (complaint : Complaint)
  | strings
  | resolve
  /-- Takes the next token as the name of a definition. The body stands in the
  scope that the name opens, if names of this kind open one. -/
  | define (kind : TokenKind) (modifiers : Modifiers) (body : Rule)
  /-- Takes the next token as a name with an optional list of parameters, which
  are declared in a scope of their own. -/
  | signature (kind : TokenKind) (modifiers : Modifiers)
  /-- Runs the body, then `next`; when the body was abandoned in a place where
  it can be resumed, `resumed` instead. -/
  | recover (resumption : Resumption) (body next resumed : Rule)
  | statement (block : Block)
  | call (nonterminal : Nonterminal)
  deriving DecidableEq, Repr

namespace Rule

instance : Append Rule := ⟨.seq⟩

def require (terminal : Terminal) : Rule :=
  .expect [terminal]

def optional (terminal : Terminal) (body : Rule) : Rule :=
  .accept [terminal] body .done

def requireThen (terminal : Terminal) (body : Rule) : Rule :=
  .expect [terminal] ++ .branch (.spelled terminal) body .done

def reference : Rule :=
  .need .identifier ++ .resolve

def qualifiedName : Rule :=
  reference ++ .call .qualifiedTail

def expression : Rule :=
  .call .expression

def string : Rule :=
  .need .stringLiteral ++
    .branch (.ofKind .string) .strings (.complain .stringExpected)

def typeName : Rule :=
  .need .typeName ++
    .branch .sizedType (optional Keyword.size expression)
      (.branch .builtinType .done
        (.branch .identifier (.resolve ++ .call .qualifiedTail)
          (.complain .invalidType)))

def optionalIndex : Rule :=
  optional Operator.leftBracket
    (expression ++ require Operator.rightBracket)

def queueFull : Rule :=
  .accept [Keyword.assert, Keyword.block, Keyword.drop] .done .done

def listOf (closer : Terminal) (element again : Rule) : Rule :=
  .accept [closer] .done
    (.recover (.before [closer]) element
      (.accept [Operator.comma] again again)
      (.accept [closer] .done .done))

end Rule

end ComponentLang
