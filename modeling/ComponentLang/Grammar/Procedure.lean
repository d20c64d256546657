import ComponentLang.Grammar.Statement

namespace ComponentLang

/-- What is done to follow a rule of the grammar, one step after another. To open
a scope and to close it are steps of their own. -/
inductive Procedure where
  | done
  | seq (first next : Procedure)
  | need (expected : Expected)
  | expect (candidates : List Terminal)
  | accept (candidates : List Terminal) (found missing : Procedure)
  /-- Takes any token, on the way to a closing brace. -/
  | advance
  | branch (test : Test) (holds fails : Procedure)
  | complain (complaint : Complaint)
  | strings
  | resolve
  /-- Takes the next token as the name of a definition and opens a scope for it,
  if names of this kind open one. The definition is kept. -/
  | define (kind : TokenKind) (modifiers : Modifiers)
  /-- Opens a scope for the parameters of the definition that is kept. -/
  | openParameters
  /-- Follows the body with a memory of its own, and goes on however it ends.
  Its outcome is kept. -/
  | attempt (body : Procedure)
  /-- Takes the body that was given up as finished if it can be resumed here. -/
  | absorb (resumption : Resumption)
  /-- Closes the scope of the definition that is kept, if it opened one. -/
  | closeScope
  /-- Closes the innermost scope. -/
  | popScope
  /-- Ends as the body did, and goes on if that finished. -/
  | conclude
  | statement (block : Block)
  | call (nonterminal : Nonterminal)
  deriving DecidableEq, Repr

namespace Procedure

instance : Append Procedure := ⟨.seq⟩

def require (terminal : Terminal) : Procedure :=
  .expect [terminal]

def optional (terminal : Terminal) (body : Procedure) : Procedure :=
  .accept [terminal] body .done

/-- A terminal and, if it was there, the body behind it. -/
def requireThen (terminal : Terminal) (body : Procedure) : Procedure :=
  .expect [terminal] ++ .branch (.spelled terminal) body .done

def reference : Procedure :=
  .need .identifier ++ .resolve

def qualifiedName : Procedure :=
  reference ++ .call .qualifiedTail

def expression : Procedure :=
  .call .expression

/-- A string; strings that follow each other are one. -/
def string : Procedure :=
  .need .stringLiteral ++
    .branch (.ofKind .string) .strings (.complain .stringExpected)

/-- A builtin type, a string type with an optional size, or a declared name. -/
def typeName : Procedure :=
  .need .typeName ++
    .branch .sizedType (optional Keyword.size expression)
      (.branch .builtinType .done
        (.branch .identifier (.resolve ++ .call .qualifiedTail)
          (.complain .invalidType)))

def optionalIndex : Procedure :=
  optional Operator.leftBracket
    (expression ++ require Operator.rightBracket)

/-- What may happen when a queue is full, which may be absent. -/
def queueFull : Procedure :=
  .accept [Keyword.assert, Keyword.block, Keyword.drop] .done .done

def block (block : Block) : Procedure :=
  requireThen Operator.leftBrace (.call (.members block))

def bracedList (elements : Nonterminal) : Procedure :=
  requireThen Operator.leftBrace (.call elements)

def connectionEnd : Procedure :=
  qualifiedName ++ optionalIndex

/-- One element of a list and those behind it, up to the closing mark. Commas
are optional. An element that is given up right before the closing mark is
passed over. -/
def listOf (closer : Terminal) (element again : Procedure) : Procedure :=
  .accept [closer] .done
    (.attempt element ++ .absorb (.before [closer]) ++ .conclude ++
      .accept [Operator.comma] again again)

def parameterList : Procedure :=
  .openParameters ++ .attempt (.call .parameters) ++ .popScope ++ .conclude

def signature (kind : TokenKind) (modifiers : Modifiers) : Procedure :=
  .define kind modifiers ++ optional Operator.leftParen parameterList

def instanceBody : Procedure :=
  require Operator.colon ++ qualifiedName ++ require Keyword.base ++
    require Keyword.id ++ expression ++ optional Keyword.at string ++
    optional Keyword.queue (require Keyword.size ++ expression) ++
    optional Keyword.stack (require Keyword.size ++ expression) ++
    optional Keyword.priority expression ++ optional Keyword.cpu expression ++
    optional Operator.leftBrace (.call .phases)

def enumBody : Procedure :=
  optional Operator.colon typeName ++ bracedList .enumConstants

end Procedure

namespace PortRole

/-- The words between the first word of a port instance and `port`. -/
def introduce : PortRole → Procedure
  | .input _ => .require Keyword.input
  | .command => .expect [Keyword.recv, Keyword.reg, Keyword.resp]
  | .param => .expect [Keyword.get, Keyword.set]
  | .textEvent => .require Keyword.event
  | .time => .require Keyword.get
  | .output | .event | .telemetry => .done

def isAsync : PortRole → Bool
  | .input async => async
  | _ => false

/-- What follows the name: general ports have a type. -/
def specify : PortRole → Procedure
  | .input async => general ++ if async then .queueFull else .done
  | .output => general
  | _ => .done
where
  general : Procedure :=
    .require Operator.colon ++ .optionalIndex ++
      .accept [Keyword.serial] .done .qualifiedName ++
      .optional Keyword.priority .expression

end PortRole

/-- What is done about a statement, with the cursor on its first word. -/
def Statement.procedure : Statement → Procedure
  | .arrayDefinition =>
      .define .variable {} ++ .require Operator.equals ++
        .require Operator.leftBracket ++ .expression ++
        .require Operator.rightBracket ++ .typeName ++
        .optional Keyword.default .expression ++
        .optional Keyword.format .string
  | .componentDefinition =>
      .require Keyword.component ++
        (.define .component {} ++ .attempt (.block .component) ++
          .closeScope ++ .conclude)
  | .constantDefinition =>
      .define .variable {} ++ .require Operator.equals ++ .expression
  | .enumDefinition =>
      .define .enum {} ++ .attempt .enumBody ++ .closeScope ++ .conclude ++
        .optional Keyword.default .expression
  | .instanceDefinition =>
      .define .instance {} ++ .attempt .instanceBody ++ .closeScope ++ .conclude
  | .moduleDefinition =>
      .define .namespace {} ++ .attempt (.block .module) ++ .closeScope ++
        .conclude
  | .portDefinition =>
      .signature .port {} ++ .optional Operator.arrow .typeName
  | .structDefinition =>
      .define .struct {} ++ .attempt (.bracedList .structMembers) ++
        .closeScope ++ .conclude ++ .optional Keyword.default .expression
  | .topologyDefinition =>
      .define .topology {} ++ .attempt (.block .topology) ++ .closeScope ++
        .conclude
  | .typeDefinition =>
      .define .typeParam { abstract := true } ++
        .optional Operator.equals .typeName
  | .command async =>
      .require Keyword.command ++ .signature .specifier { async } ++
        .optional Keyword.opcode .expression ++
        .optional Keyword.priority .expression ++
        if async then .queueFull else .done
  | .componentInstance isPrivate =>
      (if isPrivate then .require Keyword.instance else .done) ++ .qualifiedName
  | .connectionGraph =>
      .define .specifier {} ++ .bracedList .connections
  | .patternGraph =>
      .require Keyword.connections ++ .require Keyword.instance ++
        .qualifiedName ++ .optional Operator.leftBrace (.call .instances)
  | .event =>
      .signature .specifier {} ++ .require Keyword.severity ++
        .accept [Keyword.activity, Keyword.warning]
          (.expect [Keyword.high, Keyword.low])
          (.expect [Keyword.command, Keyword.diagnostic, Keyword.fatal]) ++
        .optional Keyword.id .expression ++ .require Keyword.format ++
        .string ++ .optional Keyword.throttle .expression
  | .include => .string
  | .phase => .expression ++ .string
  | .internalPort =>
      .require Keyword.port ++ .signature .specifier {} ++
        .optional Keyword.priority .expression ++ .queueFull
  | .locate =>
      .expect [Keyword.instance, Keyword.component, Keyword.constant,
          Keyword.port, Keyword.topology, Keyword.type] ++
        .qualifiedName ++ .require Keyword.at ++ .string
  | .param =>
      .define .specifier {} ++ .require Operator.colon ++ .typeName ++
        .optional Keyword.default .expression ++
        .optional Keyword.id .expression ++
        .optional Keyword.set (.require Keyword.opcode ++ .expression) ++
        .optional Keyword.save (.require Keyword.opcode ++ .expression)
  | .portInstance role =>
      role.introduce ++ .require Keyword.port ++
        .define .port { async := role.isAsync } ++ role.specify
  | .portMatching =>
      .reference ++ .require Keyword.with ++ .reference
  | .telemetry =>
      .define .specifier {} ++ .require Operator.colon ++ .typeName ++
        .optional Keyword.id .expression ++
        .optional Keyword.update
          (.expect [Keyword.always, Keyword.on] ++
            .branch (.spelled Keyword.on) (.require Keyword.change) .done) ++
        .optional Keyword.format .string ++
        .optional Keyword.low (.bracedList .telemetryLimits) ++
        .optional Keyword.high (.bracedList .telemetryLimits)
  | .importing => .qualifiedName

namespace Nonterminal

/-- Signed operands with binary operators between them. Operators have no
precedence; only brackets nest. A token that is no operand ends the chain. -/
def followExpression : Procedure :=
  .need .expression ++
    .branch (.spelled Operator.minus) .expression
      (.branch (.spelled Operator.leftParen)
        (.expression ++ .require Operator.rightParen ++ more)
        (.branch (.spelled Operator.leftBracket)
          (.accept [Operator.rightBracket] .done (.call .arrayElements) ++ more)
          (.branch (.ofKind .string) (.strings ++ more)
            (.branch (.ofKind .number) more
              (.branch .truthWord more
                (.branch .identifier
                  (.resolve ++ .call .qualifiedTail ++ more)
                  (.complain .invalidExpression)))))))
where
  more : Procedure :=
    .accept (Operator.binary.map .operator) .expression .done

/-- Elements up to the closing bracket. A comma or the end of a line separates
them. -/
def followArrayElements : Procedure :=
  .expression ++
    .accept [Operator.comma]
      (.accept [Operator.rightBracket] .done again)
      (.accept [Operator.rightBracket] .done
        (.branch .lastOnLine again
          (.expect [Operator.comma, Operator.rightBracket] ++
            .branch (.spelled Operator.rightBracket) .done again)))
where
  again : Procedure := .call .arrayElements

/-- Statements up to the closing brace. A member that is given up does not end
the block. -/
def followMembers (block : Block) : Procedure :=
  .accept [Operator.rightBrace] .done
    (.advance ++
      (.attempt (.statement block) ++ .absorb .anywhere ++ .conclude ++
        .call (.members block)))

/-- The phases of an instance up to the closing brace. Other tokens than the
word `phase` are passed over. -/
def followPhases : Procedure :=
  .accept [Operator.rightBrace] .done
    (.advance ++
      .branch (.spelled Keyword.phase)
        (.attempt (.expression ++ .string) ++
          .absorb (.before [Keyword.phase, Operator.rightBrace]) ++
          .conclude ++ again)
        (.branch (.ofKind .string) .done (.complain .unexpectedToken) ++ again))
where
  again : Procedure := .call .phases

/-- What is done about the elements of a list: one of them, and again. -/
def followList (elements : Nonterminal) (closer : Terminal)
    (element : Procedure) : Procedure :=
  .listOf closer element (.call elements)

def procedure : Nonterminal → Procedure
  | .expression => followExpression
  | .arrayElements => followArrayElements
  | .qualifiedTail =>
      .accept [Operator.dot] (.reference ++ .call .qualifiedTail) .done
  | .members block => followMembers block
  | .enumConstants =>
      followList .enumConstants Operator.rightBrace
        (.define .enumMember { readonly := true } ++
          .optional Operator.equals .expression)
  | .structMembers =>
      followList .structMembers Operator.rightBrace
        (.define .variable {} ++ .require Operator.colon ++ .optionalIndex ++
          .typeName ++ .optional Keyword.format .string)
  | .parameters =>
      followList .parameters Operator.rightParen
        (.optional Keyword.ref .done ++ .define .parameter {} ++
          .require Operator.colon ++ .typeName)
  | .connections =>
      followList .connections Operator.rightBrace
        (.connectionEnd ++ .require Operator.arrow ++ .connectionEnd)
  | .instances =>
      followList .instances Operator.rightBrace .qualifiedName
  | .telemetryLimits =>
      followList .telemetryLimits Operator.rightBrace
        (.expect [Keyword.red, Keyword.orange, Keyword.yellow] ++ .expression)
  | .phases => followPhases

end Nonterminal

end ComponentLang
