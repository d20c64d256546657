import ComponentLang.Grammar.Procedure

namespace ComponentLang

namespace Rule

def block (block : Block) : Rule :=
  requireThen Operator.leftBrace (.call (.members block))

def bracedList (elements : Nonterminal) : Rule :=
  requireThen Operator.leftBrace (.call elements)

def declaration (kind : TokenKind) : Rule :=
  .define kind {} .done

def connectionEnd : Rule :=
  qualifiedName ++ optionalIndex

end Rule

namespace PortRole

def introduction : PortRole → Rule
  | .input _ => .require Keyword.input
  | .command => .expect [Keyword.recv, Keyword.reg, Keyword.resp]
  | .param => .expect [Keyword.get, Keyword.set]
  | .textEvent => .require Keyword.event
  | .time => .require Keyword.get
  | .output | .event | .telemetry => .done

def typing : PortRole → Rule
  | .input async => general ++ if async then .queueFull else .done
  | .output => general
  | _ => .done
where
  general : Rule :=
    .require Operator.colon ++ .optionalIndex ++
      .accept [Keyword.serial] .done .qualifiedName ++
      .optional Keyword.priority .expression

end PortRole

namespace Statement

def rule : Statement → Rule
  | .arrayDefinition =>
      .declaration .variable ++ .require Operator.equals ++
        .require Operator.leftBracket ++ .expression ++
        .require Operator.rightBracket ++ .typeName ++
        .optional Keyword.default .expression ++
        .optional Keyword.format .string
  | .componentDefinition =>
      .require Keyword.component ++ .define .component {} (.block .component)
  | .constantDefinition =>
      .declaration .variable ++ .require Operator.equals ++ .expression
  | .enumDefinition =>
      .define .enum {}
          (.optional Operator.colon .typeName ++ .bracedList .enumConstants) ++
        .optional Keyword.default .expression
  | .instanceDefinition =>
      .define .instance {}
        (.require Operator.colon ++ .qualifiedName ++ .require Keyword.base ++
          .require Keyword.id ++ .expression ++
          .optional Keyword.at .string ++
          .optional Keyword.queue (.require Keyword.size ++ .expression) ++
          .optional Keyword.stack (.require Keyword.size ++ .expression) ++
          .optional Keyword.priority .expression ++
          .optional Keyword.cpu .expression ++
          .optional Operator.leftBrace (.call .phases))
  | .moduleDefinition => .define .namespace {} (.block .module)
  | .portDefinition =>
      .signature .port {} ++ .optional Operator.arrow .typeName
  | .structDefinition =>
      .define .struct {} (.bracedList .structMembers) ++
        .optional Keyword.default .expression
  | .topologyDefinition => .define .topology {} (.block .topology)
  | .typeDefinition =>
      .define .typeParam { abstract := true } .done ++
        .optional Operator.equals .typeName
  | .command async =>
      .require Keyword.command ++ .signature .specifier { async } ++
        .optional Keyword.opcode .expression ++
        .optional Keyword.priority .expression ++
        if async then .queueFull else .done
  | .componentInstance isPrivate =>
      (if isPrivate then .require Keyword.instance else .done) ++ .qualifiedName
  | .connectionGraph =>
      .declaration .specifier ++ .bracedList .connections
  | .patternGraph =>
      .require Keyword.connections ++ .require Keyword.instance ++
        .qualifiedName ++ .optional Operator.leftBrace (.call .instances)
  | .event =>
      .signature .specifier {} ++ .require Keyword.severity ++
        .accept [Keyword.activity, Keyword.warning]
          (.expect [Keyword.high, Keyword.low])
          (.expect [Keyword.command, Keyword.diagnostic, Keyword.fatal]) ++
        .optional Keyword.id .expression ++ .require Keyword.format ++
        .string ++ .optional Keyword.throttle .expression
  | .include => .string
  | .phase => .expression ++ .string
  | .internalPort =>
      .require Keyword.port ++ .signature .specifier {} ++
        .optional Keyword.priority .expression ++ .queueFull
  | .locate =>
      .expect [Keyword.instance, Keyword.component, Keyword.constant,
          Keyword.port, Keyword.topology, Keyword.type] ++
        .qualifiedName ++ .require Keyword.at ++ .string
  | .param =>
      .declaration .specifier ++ .require Operator.colon ++ .typeName ++
        .optional Keyword.default .expression ++
        .optional Keyword.id .expression ++
        .optional Keyword.set (.require Keyword.opcode ++ .expression) ++
        .optional Keyword.save (.require Keyword.opcode ++ .expression)
  | .portInstance role =>
      role.introduction ++ .require Keyword.port ++
        .define .port { async := role.isAsync } .done ++ role.typing
  | .portMatching =>
      .reference ++ .require Keyword.with ++ .reference
  | .telemetry =>
      .declaration .specifier ++ .require Operator.colon ++ .typeName ++
        .optional Keyword.id .expression ++
        .optional Keyword.update
          (.expect [Keyword.always, Keyword.on] ++
            .branch (.spelled Keyword.on) (.require Keyword.change) .done) ++
        .optional Keyword.format .string ++
        .optional Keyword.low (.bracedList .telemetryLimits) ++
        .optional Keyword.high (.bracedList .telemetryLimits)
  | .importing => .qualifiedName

end Statement

namespace Nonterminal

def expressionRule : Rule :=
  .need .expression ++
    .branch (.spelled Operator.minus) .expression
      (.branch (.spelled Operator.leftParen)
        (.expression ++ .require Operator.rightParen ++ more)
        (.branch (.spelled Operator.leftBracket)
          (.accept [Operator.rightBracket] .done (.call .arrayElements) ++ more)
          (.branch (.ofKind .string) (.strings ++ more)
            (.branch (.ofKind .number) more
              (.branch .truthWord more
                (.branch .identifier
                  (.resolve ++ .call .qualifiedTail ++ more)
                  (.complain .invalidExpression)))))))
where
  more : Rule :=
    .accept (Operator.binary.map .operator) .expression .done

def arrayElementsRule : Rule :=
  .expression ++
    .accept [Operator.comma]
      (.accept [Operator.rightBracket] .done again)
      (.accept [Operator.rightBracket] .done
        (.branch .lastOnLine again
          (.expect [Operator.comma, Operator.rightBracket] ++
            .branch (.spelled Operator.rightBracket) .done again)))
where
  again : Rule := .call .arrayElements

def membersRule (block : Block) : Rule :=
  .accept [Operator.rightBrace] .done
    (.advance ++ .recover .anywhere (.statement block) again again)
where
  again : Rule := .call (.members block)

def phasesRule : Rule :=
  .accept [Operator.rightBrace] .done
    (.advance ++
      .branch (.spelled Keyword.phase)
        (.recover (.before [Keyword.phase, Operator.rightBrace])
          (.expression ++ .string) again again)
        (.branch (.ofKind .string) .done (.complain .unexpectedToken) ++ again))
where
  again : Rule := .call .phases

def rule : Nonterminal → Rule
  | .expression => expressionRule
  | .arrayElements => arrayElementsRule
  | .qualifiedTail =>
      .accept [Operator.dot] (.reference ++ .call .qualifiedTail) .done
  | .members block => membersRule block
  | .enumConstants =>
      .listOf Operator.rightBrace
        (.define .enumMember { readonly := true } .done ++
          .optional Operator.equals .expression)
        (.call .enumConstants)
  | .structMembers =>
      .listOf Operator.rightBrace
        (.declaration .variable ++ .require Operator.colon ++
          .optionalIndex ++ .typeName ++ .optional Keyword.format .string)
        (.call .structMembers)
  | .parameters =>
      .listOf Operator.rightParen
        (.optional Keyword.ref .done ++ .declaration .parameter ++
          .require Operator.colon ++ .typeName)
        (.call .parameters)
  | .connections =>
      .listOf Operator.rightBrace
        (.connectionEnd ++ .require Operator.arrow ++ .connectionEnd)
        (.call .connections)
  | .instances =>
      .listOf Operator.rightBrace .qualifiedName (.call .instances)
  | .telemetryLimits =>
      .listOf Operator.rightBrace
        (.expect [Keyword.red, Keyword.orange, Keyword.yellow] ++ .expression)
        (.call .telemetryLimits)
  | .phases => phasesRule

end Nonterminal

end ComponentLang
