import ComponentLang.Grammar.Rule

namespace ComponentLang

inductive PortRole where
  | input (async : Bool)
  | output
  | command
  | event
  | param
  | telemetry
  | textEvent
  | time
  deriving DecidableEq, Repr

inductive Statement where
  | arrayDefinition
  | componentDefinition
  | constantDefinition
  | enumDefinition
  | instanceDefinition
  | moduleDefinition
  | portDefinition
  | structDefinition
  | topologyDefinition
  | typeDefinition
  | command (async : Bool)
  | componentInstance (isPrivate : Bool)
  | connectionGraph
  | patternGraph
  | event
  | «include»
  | phase
  | internalPort
  | locate
  | param
  | portInstance (role : PortRole)
  | portMatching
  | telemetry
  | importing
  deriving DecidableEq, Repr

/-- Whether a statement may stand directly in a block. A document takes every
statement. -/
def Block.permits : Block → Statement → Bool
  | .document, _ => true
  | .module, statement =>
      match statement with
      | .arrayDefinition | .componentDefinition | .constantDefinition
      | .enumDefinition | .instanceDefinition | .moduleDefinition
      | .portDefinition | .structDefinition | .topologyDefinition
      | .typeDefinition | .locate | .include => true
      | _ => false
  | .component, statement =>
      match statement with
      | .arrayDefinition | .constantDefinition | .enumDefinition
      | .structDefinition | .typeDefinition | .command _ | .event | .include
      | .internalPort | .portMatching | .param | .portInstance _
      | .telemetry => true
      | _ => false
  | .topology, statement =>
      match statement with
      | .componentInstance _ | .connectionGraph | .patternGraph | .importing
      | .include => true
      | _ => false

namespace Statement

/-- The statement that the word begins, wherever it may stand. `follows` tells
how the next token is spelled. -/
def beginning (block : Block) (follows : Terminal → Bool) :
    Keyword → Option Statement
  | .array => some .arrayDefinition
  | .active | .passive | .queued => some .componentDefinition
  | .constant => some .constantDefinition
  | .enum => some .enumDefinition
  | .module => some .moduleDefinition
  | .port => some .portDefinition
  | .struct => some .structDefinition
  | .type => some .typeDefinition
  | .topology => some .topologyDefinition
  | .instance =>
      if block == .topology then some (.componentInstance false)
      else some .instanceDefinition
  | .private => some (.componentInstance true)
  | .async => some (commandOrInput true)
  | .guarded | .sync => some (commandOrInput false)
  | .output => some (.portInstance .output)
  | .internal => some .internalPort
  | .connections => some .connectionGraph
  | .health => some .patternGraph
  | .include => some .include
  | .phase => some .phase
  | .locate => some .locate
  | .match => some .portMatching
  | .import => some .importing
  | .text => some (patternOr (.portInstance .textEvent))
  | .event =>
      some (patternOr
        (if follows Keyword.port then .portInstance .event else .event))
  | .param =>
      some (patternOr
        (if follows Keyword.get || follows Keyword.set then .portInstance .param
        else .param))
  | .telemetry =>
      some (patternOr
        (if follows Keyword.port then .portInstance .telemetry else .telemetry))
  | .command =>
      some (patternOr
        (if block == .component || follows Keyword.recv || follows Keyword.reg ||
            follows Keyword.resp then .portInstance .command
        else .patternGraph))
  | .time =>
      some (patternOr
        (if follows Keyword.get then .portInstance .time else .patternGraph))
  | _ => none
where
  /-- The words for the synchrony of a command also begin input ports. -/
  commandOrInput (async : Bool) : Statement :=
    if follows Keyword.input then .portInstance (.input async)
    else .command async
  /-- The words for kinds of special ports begin graph patterns in a topology. -/
  patternOr (other : Statement) : Statement :=
    if block == .topology then .patternGraph else other

def select (block : Block) (follows : Terminal → Bool) (word : Keyword) :
    Option Statement :=
  (beginning block follows word).filter block.permits

end Statement

end ComponentLang
