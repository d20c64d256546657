import ComponentLang.Proofs.Analysis.SameReading

namespace ComponentLang

def Token.string (line column : Nat) (text : String) : Token where
  line
  column
  text
  kind := .string

/-- A text as wide as the given one that is no word. -/
def meaningless (text : String) : String :=
  String.ofList (List.replicate (Text.units text.toList) '!')

/-! Identifiers are told from other texts as imported names. -/

namespace Walk

def importWord : Token where
  line := 0
  column := 0
  text := "import"
  kind := .keyword

def beforeName (text : String) : Walk :=
  start [importWord, .string 0 1 text]

def onName (text : String) : Walk :=
  (beforeName text).moveTo ⟨[importWord], [.string 0 1 text]⟩

theorem canResumeAt_string (walk : Walk) (line column : Nat) {text : String}
    (free : text ≠ "\x7d") :
    walk.canResumeAt (.string line column text) = false := by
  have brace : (text == Operator.rightBrace.spelling) = false :=
    beq_eq_false_iff_ne.mpr free
  simp only [canResumeAt_def, Token.string, brace]
  rfl

theorem need_beforeName {text : String} (free : text ≠ "\x7d") :
    (beforeName text).need .identifier = (.finished, onName text) := by
  have next : (beforeName text).cursor.next? =
      some (.string 0 1 text, ⟨[importWord], [.string 0 1 text]⟩) := rfl
  simp only [need, next, canResumeAt_string _ _ _ free, Bool.not_false,
    Bool.or_true, if_true]
  rfl

theorem resolve_onName (text : String) :
    (onName text).resolve =
      (onName text).report
        (if Literal.isIdentifier text then .unknownIdentifier {}
          else .invalidIdentifier)
        (.string 0 1 text) := by
  have current : (onName text).cursor.current? = some (.string 0 1 text) := rfl
  unfold resolve
  rw [current]
  by_cases identifier : Literal.isIdentifier text
  · simp only [Token.string, identifier, if_true]
    rfl
  · simp only [Token.string, identifier]
    rfl

theorem run_beforeName {text : String} (free : text ≠ "\x7d") (fuel : Nat) :
    run (fuel + 6) (.statement .document) (beforeName text) =
      (.finished, (onName text).resolve) := by
  have begins :
      (beforeName text).beginning .document = .statement .importing := rfl
  rw [run, begins]
  change run (fuel + 5) (.seq (.seq (.need .identifier) .resolve)
    (.call .qualifiedTail)) _ = _
  have referred : run (fuel + 4) (.seq (.need .identifier) .resolve)
      (beforeName text) = (.finished, (onName text).resolve) := by
    rw [run, run, need_beforeName free]
    rfl
  rw [run, referred, resolve_onName]
  rfl

end Walk

theorem diagnostics_import {text : String} (free : text ≠ "\x7d") :
    (analyze {} [Walk.importWord, .string 0 1 text]).diagnostics.length =
      if Literal.isIdentifier text then 0 else 1 := by
  have walked : Walk.document (fun _ => false)
        [Walk.importWord, .string 0 1 text] =
      (true, (Walk.onName text).resolve) := by
    have run := Walk.run_beforeName free 634
    rw [Walk.resolve_onName] at run ⊢
    change Walk.statements (fun _ => false) (634 + 6) 2
      (Walk.beforeName text) = _
    rw [Walk.statements, run]
    rfl
  rw [analyze_eq_ofWalk, walked, Walk.resolve_onName]
  by_cases identifier : Literal.isIdentifier text
  · rw [if_pos identifier, if_pos identifier]
    rfl
  · rw [if_neg identifier, if_neg identifier]
    rfl

def placed (column : Nat) : List String → List Token
  | [] => []
  | text :: rest =>
      { line := 0
        column
        text
        kind := if text == "\"\"" then .string else Scan.lexicalKind text } ::
        placed (column + 1) rest

def sentences : List (List String) :=
  [["event", "E", "severity", "activity", "high", "id", "1", "format", "\"\""],
    ["event", "E", "severity", "warning", "low", "format", "1", "throttle",
      "1"],
    ["event", "E", "severity", "command", "format", "\"\""],
    ["event", "E", "severity", "diagnostic", "format", "\"\""],
    ["event", "E", "severity", "fatal", "format", "\"\""],
    ["telemetry", "T", ":", "U32", "update", "on", "change", "low", "\x7b",
      "red", "1", "orange", "1", ",", "yellow", "1", "\x7d"],
    ["telemetry", "T", ":", "U32", "update", "always"],
    ["async", "command", "C", "(", "a", ":", "U32", ")", "opcode", "1",
      "priority", "1"],
    ["port", "P", "(", "ref", "a", ":", "U32", ")", "->", "U32"],
    ["async", "input", "port", "P", ":", "[", "1", "]", "serial"],
    ["active", "component", "C", "\x7b", "\x7d"],
    ["instance", "I", ":", "C", "base", "id", "1", "at", "\"\""],
    ["instance", "I", ":", "C", "base", "id", "1", "queue", "size", "1",
      "stack", "size", "1", "cpu", "1", "\x7b", "phase", "1", "\"\"", "\x7d"],
    ["health", "connections", "instance", "I"],
    ["locate", "constant", "A", "at", "\"\""],
    ["locate", "topology", "A", "at", "\"\""],
    ["locate", "type", "A", "at", "\"\""],
    ["array", "A", "=", "[", "1", "]", "U32", "default", "1"],
    ["param", "P", ":", "U32", "set", "opcode", "1", "save", "opcode", "2"],
    ["time", "get", "port", "P"],
    ["command", "recv", "port", "P"],
    ["command", "reg", "port", "P"],
    ["command", "resp", "port", "P"],
    ["match", "a", "with", "b"],
    ["text", "event", "port", "P"],
    ["import", "A", ".", "B"]] ++
  Operator.binary.map (fun sign =>
    ["constant", "A", "=", "1", sign.spelling, "1"]) ++
  BuiltinType.all.map fun type => ["type", "T", "=", type.spelling]

def before (word : String) (sentence : List String) : List Token :=
  placed 0 (sentence.takeWhile (· != word))

def behind (word : String) (sentence : List String) : List Token :=
  let column := (before word sentence).length + 1
  placed column (sentence.drop column)

/-- The sentence with a string of the given text in the place of the word. -/
def withString (text word : String) (sentence : List String) : List Token :=
  before word sentence ++
    .string 0 (before word sentence).length text :: behind word sentence

/-- Whether the sentence has the word, and a string in its place has to spell
it. -/
def needsWord (word : String) (sentence : List String) : Bool :=
  sentence.contains word &&
    (analyze {} (withString word word sentence)).diagnostics.length !=
      (analyze {}
        (withString (meaningless word) word sentence)).diagnostics.length

def spelledWords : List String :=
  Terminal.lookedFor.map Terminal.spelling ++
    BuiltinType.all.map BuiltinType.spelling

/-- The sentences, with the fact that every word is needed in one of them. -/
def telling :
    { found : List (List String) //
      spelledWords.all fun word => found.any (needsWord word) } :=
  ⟨sentences, by decide +kernel⟩

theorem isWord_cases {text : String} (word : isWord text) :
    Literal.isIdentifier text ∨ text ∈ spelledWords := by
  simp only [isWord, Bool.or_eq_true, Option.isSome_iff_exists] at word
  rcases word with (⟨terminal, found⟩ | ⟨type, found⟩) | identifier
  · right
    rw [spelledWords, List.mem_append]
    left
    rw [← Terminal.spelling_of_find?_eq_some found]
    exact List.mem_map_of_mem (List.mem_of_find?_eq_some found)
  · right
    rw [spelledWords, List.mem_append]
    right
    rw [← BuiltinType.ofSpelling?_eq_some_iff.mp found]
    exact List.mem_map_of_mem (List.mem_of_find?_eq_some found)
  · exact .inl identifier

theorem spelledWords_no_marks :
    spelledWords.all fun word => word.toList.any (· != '!') := by
  decide +kernel

theorem units_meaningless (text : String) :
    Text.units (meaningless text).toList = Text.units text.toList := by
  rw [meaningless, String.toList_ofList]
  generalize Text.units text.toList = width
  induction width with
  | zero => rfl
  | succ width induction =>
      rw [List.replicate_succ, Text.units_cons, induction, Nat.add_comm]
      rfl

theorem isWord_meaningless (text : String) :
    isWord (meaningless text) = false := by
  have marks : (meaningless text).toList =
      List.replicate (Text.units text.toList) '!' := String.toList_ofList
  rw [← Bool.not_eq_true]
  intro word
  rcases isWord_cases word with identifier | spelled
  · unfold Literal.isIdentifier at identifier
    rw [marks] at identifier
    cases width : Text.units text.toList with
    | zero => simp [width, Literal.isPlainName] at identifier
    | succ width' =>
        rw [width, List.replicate_succ] at identifier
        simp [Literal.isPlainName, Literal.isNameStart] at identifier
  · have other := List.all_eq_true.mp spelledWords_no_marks _ spelled
    rw [marks] at other
    simp at other

theorem ne_rightBrace_of_isIdentifier {text : String}
    (identifier : Literal.isIdentifier text) : text ≠ "\x7d" := by
  rintro rfl
  revert identifier
  decide +kernel

theorem ne_rightBrace_of_isWord {text : String} (unread : isWord text = false) :
    text ≠ "\x7d" := by
  rintro rfl
  revert unread
  decide +kernel

theorem exists_unlike {text : String} (word : isWord text) :
    ∃ front back line column,
      ¬(analyze {} (front ++ .string line column text :: back)).SameReading
        (analyze {}
          (front ++ .string line column (meaningless text) :: back)) := by
  have free := isWord_meaningless text
  rcases isWord_cases word with identifier | spelled
  · refine ⟨[Walk.importWord], [], 0, 1, ?_⟩
    intro same
    have count := same.diagnostics.length_eq
    have other := (isWord_eq_false_iff.mp free).2.2
    simp only [List.cons_append, List.nil_append] at count
    rw [diagnostics_import (ne_rightBrace_of_isIdentifier identifier),
      diagnostics_import (ne_rightBrace_of_isWord free), if_pos identifier,
      if_neg (Bool.eq_false_iff.mp other)] at count
    contradiction
  · have needed := List.all_eq_true.mp telling.property text spelled
    obtain ⟨sentence, -, needs⟩ := List.any_eq_true.mp needed
    rw [needsWord, Bool.and_eq_true, bne_iff_ne] at needs
    refine ⟨before text sentence, behind text sentence, 0,
      (before text sentence).length, ?_⟩
    intro same
    exact needs.2 same.diagnostics.length_eq

/-! Exchanging strings. -/

/-- Equal but for the texts of strings, and those are among the contents. -/
structure Token.DiffersIn (contents : String → Prop) (first second : Token) :
    Prop extends Token.SameButText first second where
  text : first.text = second.text ∨
    first.kind = .string ∧ contents first.text ∧ contents second.text

theorem Token.DiffersIn.refl (contents : String → Prop) (token : Token) :
    DiffersIn contents token token :=
  ⟨⟨rfl, rfl, rfl, rfl, rfl⟩, .inl rfl⟩

theorem Token.DiffersIn.alike {contents : String → Prop} {first second : Token}
    (differs : DiffersIn contents first second)
    (unread : ∀ text, contents text → isWord text = false) :
    Alike first second := by
  refine ⟨differs.toSameButText, ?_⟩
  rcases differs.text with same | ⟨string, left, right⟩
  · exact .inl same
  · exact .inr ⟨string, unread _ left, unread _ right⟩

theorem forall₂_exchange {contents : String → Prop} {text other : String}
    (width : Text.units text.toList = Text.units other.toList)
    (member : contents text) (member' : contents other)
    (front back : List Token) (line column : Nat) :
    List.Forall₂ (Token.DiffersIn contents)
      (front ++ .string line column text :: back)
      (front ++ .string line column other :: back) := by
  have untouched (tokens : List Token) :
      List.Forall₂ (Token.DiffersIn contents) tokens tokens :=
    List.forall₂_same.mpr fun token _ => .refl contents token
  refine List.rel_append (untouched front) (.cons ?_ (untouched back))
  exact ⟨⟨rfl, rfl, width, rfl, rfl⟩, .inr ⟨rfl, member, member'⟩⟩

/-- Strings with some contents, and with marks in their place, can be exchanged
for one another without a change to what is read exactly if none of the contents
is a word. -/
theorem strings_exchangeable_iff (contents : String → Prop)
    (marked : ∀ text, contents text → contents (meaningless text)) :
    ((∀ options first second,
        List.Forall₂ (Token.DiffersIn contents) first second →
        (analyze options first).SameReading (analyze options second)) ↔
      ∀ text, contents text → isWord text = false) ∧
    ((∀ text, contents text → isWord text = false) →
      ∀ options first second,
        List.Forall₂ (Token.DiffersIn contents) (scan first).tokens
          (scan second).tokens →
        List.Forall₂ Scan.LexicalError.SamePlace (scan first).errors
          (scan second).errors →
        (analyzeSource options first).SameReading
          (analyzeSource options second)) := by
  refine ⟨⟨?necessary, ?sufficient⟩, ?texts⟩
  case necessary =>
    intro same text member
    rw [← Bool.not_eq_true]
    intro word
    obtain ⟨front, back, line, column, unlike⟩ := exists_unlike word
    apply unlike
    apply same
    exact forall₂_exchange (units_meaningless text).symm member
      (marked text member) front back line column
  case sufficient =>
    intro unread options first second differ
    exact sameReading_analyze options
      (differ.imp fun _ _ differs => differs.alike unread)
  case texts =>
    intro unread options first second differ errors
    exact sameReading_analyzeSource options
      (differ.imp fun _ _ differs => differs.alike unread) errors

/-- A module with a string of several lines in front of a constant. -/
def textInModule (middle : String) : String :=
  "module M \x7b\n\"\"\"\n" ++ middle ++ "\n\"\"\"\nconstant a = 1\n\x7d"

def withMiddle (middle : String) : List Token :=
  let tokens := (scan (textInModule "")).tokens
  tokens.take 4 ++ .string 2 0 middle :: tokens.drop 5

theorem strings_exchangeable_iff_isWord :
    (analyzeSource {} (textInModule "\x7d \x7d")).SameReading
      (analyzeSource {} (textInModule "\x7b \x7b")) ∧
    ¬∀ options first second,
      List.Forall₂ (Token.DiffersIn fun _ => True) first second →
        (analyze options first).SameReading (analyze options second) := by
  have facts :
      (isWord "\x7d \x7d" = false ∧ isWord "\x7b \x7b" = false) ∧
      (scan (textInModule "\x7d \x7d")).tokens = withMiddle "\x7d \x7d" ∧
      (scan (textInModule "\x7b \x7b")).tokens = withMiddle "\x7b \x7b" ∧
      (scan (textInModule "\x7d \x7d")).errors = [] ∧
      (scan (textInModule "\x7b \x7b")).errors = [] := by
    decide +kernel
  obtain ⟨⟨unread, unread'⟩, tokens, tokens', errors, errors'⟩ := facts
  constructor
  · have exchange := (strings_exchangeable_iff (fun text => isWord text = false)
      fun text _ => isWord_meaningless text).2
    apply exchange (fun _ member => member)
    · rw [tokens, tokens', withMiddle, withMiddle]
      apply forall₂_exchange
      · rfl
      · exact unread
      · exact unread'
    · rw [errors, errors']
      exact .nil
  · intro same
    have none_read := (strings_exchangeable_iff (fun _ => True)
      fun _ _ => trivial).1.mp same "\x7d" trivial
    revert none_read
    decide +kernel

/-- A string that spells the closing brace closes the module: the constant
behind it is recorded in the global scope, and in that of the module if a mark
stands in the place of the brace. -/
theorem strings_not_exchangeable :
    (scan (textInModule "\x7d")).tokens = withMiddle "\x7d" ∧
    (scan (textInModule "!")).tokens = withMiddle "!" ∧
    (scan (textInModule "\x7d")).errors = [] ∧
    (scan (textInModule "!")).errors = [] ∧
    ((analyzeSource {} (textInModule "\x7d")).symbols.map fun symbol =>
      (symbol.name, symbol.scope)) =
        [("M", Scope.global.name), ("a", Scope.global.name)] ∧
    ((analyzeSource {} (textInModule "!")).symbols.map fun symbol =>
      (symbol.name, symbol.scope)) =
        [("M", Scope.global.name), ("a", "M")] := by
  decide +kernel

end ComponentLang
