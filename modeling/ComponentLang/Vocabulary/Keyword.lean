namespace ComponentLang

inductive Keyword where
  | active | activity | always | array | assert | async | «at» | base | block
  | change | command | component | connections | constant | cpu | default
  | diagnostic | drop | enum | event | falseLiteral | fatal | format | get
  | guarded | health | high | id | «import» | «include» | input | «instance»
  | internal | locate | low | «match» | «module» | on | opcode | orange
  | output | param | passive | phase | port | priority | «private» | queue
  | queued | recv | red | ref | reg | resp | save | serial | «set» | severity
  | size | stack | struct | sync | telemetry | text | throttle | time
  | topology | trueLiteral | type | update | warning | «with» | yellow
  deriving DecidableEq, Repr

namespace Keyword

def all : List Keyword :=
  [.active, .activity, .always, .array, .assert, .async, .at, .base, .block,
    .change, .command, .component, .connections, .constant, .cpu, .default,
    .diagnostic, .drop, .enum, .event, .falseLiteral, .fatal, .format, .get,
    .guarded, .health, .high, .id, .import, .include, .input, .instance,
    .internal, .locate, .low, .match, .module, .on, .opcode, .orange, .output,
    .param, .passive, .phase, .port, .priority, .private, .queue, .queued,
    .recv, .red, .ref, .reg, .resp, .save, .serial, .set, .severity, .size,
    .stack, .struct, .sync, .telemetry, .text, .throttle, .time, .topology,
    .trueLiteral, .type, .update, .warning, .with, .yellow]

def spelling : Keyword → String
  | .active => "active"
  | .activity => "activity"
  | .always => "always"
  | .array => "array"
  | .assert => "assert"
  | .async => "async"
  | .at => "at"
  | .base => "base"
  | .block => "block"
  | .change => "change"
  | .command => "command"
  | .component => "component"
  | .connections => "connections"
  | .constant => "constant"
  | .cpu => "cpu"
  | .default => "default"
  | .diagnostic => "diagnostic"
  | .drop => "drop"
  | .enum => "enum"
  | .event => "event"
  | .falseLiteral => "false"
  | .fatal => "fatal"
  | .format => "format"
  | .get => "get"
  | .guarded => "guarded"
  | .health => "health"
  | .high => "high"
  | .id => "id"
  | .import => "import"
  | .include => "include"
  | .input => "input"
  | .instance => "instance"
  | .internal => "internal"
  | .locate => "locate"
  | .low => "low"
  | .match => "match"
  | .module => "module"
  | .on => "on"
  | .opcode => "opcode"
  | .orange => "orange"
  | .output => "output"
  | .param => "param"
  | .passive => "passive"
  | .phase => "phase"
  | .port => "port"
  | .priority => "priority"
  | .private => "private"
  | .queue => "queue"
  | .queued => "queued"
  | .recv => "recv"
  | .red => "red"
  | .ref => "ref"
  | .reg => "reg"
  | .resp => "resp"
  | .save => "save"
  | .serial => "serial"
  | .set => "set"
  | .severity => "severity"
  | .size => "size"
  | .stack => "stack"
  | .struct => "struct"
  | .sync => "sync"
  | .telemetry => "telemetry"
  | .text => "text"
  | .throttle => "throttle"
  | .time => "time"
  | .topology => "topology"
  | .trueLiteral => "true"
  | .type => "type"
  | .update => "update"
  | .warning => "warning"
  | .with => "with"
  | .yellow => "yellow"

def name (word : Keyword) : String :=
  word.spelling.capitalize

def ofSpelling? (text : String) : Option Keyword :=
  all.find? fun word => word.spelling == text

/-- Whether a definition or specifier can begin with the word. At the start of
a later line such a word marks the next statement while the current one is
still incomplete. -/
def startsStatement : Keyword → Bool
  | .active | .array | .async | .command | .connections | .constant | .enum
  | .event | .guarded | .health | .import | .include | .instance | .internal
  | .locate | .match | .module | .output | .param | .passive | .phase | .port
  | .private | .queued | .struct | .sync | .telemetry | .text | .time
  | .topology | .type => true
  | _ => false

/-- The limit colours are reserved inside telemetry limits only and stay usable
as names everywhere else. -/
def isContextual : Keyword → Bool
  | .orange | .red | .yellow => true
  | _ => false

theorem ofSpelling?_spelling (word : Keyword) :
    ofSpelling? word.spelling = some word := by
  cases word <;> decide

theorem ofSpelling?_eq_some_iff {text : String} {word : Keyword} :
    ofSpelling? text = some word ↔ word.spelling = text := by
  constructor
  · intro found
    simpa using List.find?_some found
  · rintro rfl
    exact ofSpelling?_spelling word

theorem spelling_injective {left right : Keyword}
    (same : left.spelling = right.spelling) : left = right := by
  have found := ofSpelling?_spelling left
  rw [same, ofSpelling?_spelling right] at found
  exact (Option.some.inj found).symm

end Keyword

end ComponentLang
