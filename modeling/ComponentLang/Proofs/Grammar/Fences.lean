import ComponentLang.Grammar.Production
import ComponentLang.Walk.State

namespace ComponentLang

namespace Keyword

def isFence : Keyword → Bool
  | .active | .array | .constant | .enum | .module | .passive | .queued
  | .struct => true
  | _ => false

theorem startsStatement_of_isFence {word : Keyword} (fence : word.isFence) :
    word.startsStatement := by
  cases word <;> first | rfl | exact absurd fence Bool.false_ne_true

theorem isReserved_of_isFence {word : Keyword} (fence : word.isFence) :
    Literal.isIdentifier word.spelling = false ∧
      BuiltinType.ofSpelling? word.spelling = none ∧
      Operator.ofSpelling? word.spelling = none := by
  cases word <;>
    first | exact absurd fence Bool.false_ne_true | decide +kernel

end Keyword

def Terminal.isFence : Terminal → Bool
  | .keyword word => word.isFence
  | .operator _ => false

structure Token.IsFence (token : Token) : Prop where
  kind : token.kind = .keyword
  word : ∃ word : Keyword, word.isFence ∧ token.text = word.spelling

namespace Token.IsFence

variable {token : Token}

theorem isTrivia_eq_false (fence : token.IsFence) : token.isTrivia = false := by
  rw [isTrivia, fence.kind]
  rfl

theorem find?_eq_none (fence : token.IsFence) {candidates : List Terminal}
    (others : candidates.all fun terminal => !terminal.isFence) :
    Terminal.find? candidates token.text = none := by
  obtain ⟨word, word_fence, text_eq⟩ := fence.word
  rw [Terminal.find?, List.find?_eq_none]
  intro candidate member spelled
  have other := List.all_eq_true.mp others candidate member
  have same := text_eq.symm.trans (beq_iff_eq.mp spelled)
  cases candidate with
  | keyword found =>
      obtain rfl := Keyword.spelling_injective same
      rw [Terminal.isFence, word_fence] at other
      nomatch other
  | operator sign =>
      have none_eq := (Keyword.isReserved_of_isFence word_fence).2.2
      rw [same] at none_eq
      have found := Operator.ofSpelling?_spelling sign
      change Operator.ofSpelling? sign.spelling = none at none_eq
      rw [none_eq] at found
      nomatch found

end Token.IsFence

def Expected.isFenced : Expected → Bool
  | .oneOf candidates => candidates.all fun terminal => !terminal.isFence
  | _ => true

theorem Expected.accepts_eq_false {expected : Expected} {token : Token}
    (fenced : expected.isFenced) (fence : token.IsFence) :
    expected.accepts token = false := by
  obtain ⟨word, word_fence, text_eq⟩ := fence.word
  obtain ⟨no_name, no_type, no_sign⟩ := Keyword.isReserved_of_isFence word_fence
  cases expected with
  | identifier => rw [accepts, text_eq, no_name]
  | expression =>
      have plain : isTruthWord token = false := by
        rw [isTruthWord, text_eq, Keyword.ofSpelling?_spelling]
        cases word <;> first | rfl | exact absurd word_fence Bool.false_ne_true
      rw [accepts, startsExpression, fence.kind, plain, text_eq, no_name, no_sign]
      rfl
  | typeName => rw [accepts, startsType, text_eq, no_type, no_name]; rfl
  | stringLiteral => rw [accepts, fence.kind]; rfl
  | oneOf candidates =>
      rw [accepts, fence.find?_eq_none fenced]
      rfl

def Nonterminal.isFenced : Nonterminal → Bool
  | .expression | .arrayElements | .qualifiedTail | .parameters => true
  | _ => false

namespace Rule

/-- Whether the rule takes no word that fences statements off, as long as it
finds no opening brace. -/
def isFenced : Rule → Bool
  | .done | .complain _ | .strings | .resolve | .signature _ _ => true
  | .advance | .statement _ => false
  | .seq first next => first.isFenced && next.isFenced
  | .need expected => expected.isFenced
  | .expect candidates => (Expected.oneOf candidates).isFenced
  | .accept candidates found missing =>
      (Expected.oneOf candidates).isFenced &&
        (candidates == [.operator .leftBrace] || found.isFenced) &&
        missing.isFenced
  | .branch test holds fails =>
      (test == .spelled (.operator .leftBrace) || holds.isFenced) &&
        fails.isFenced
  | .define _ _ body => body.isFenced
  | .recover _ body next resumed =>
      body.isFenced && next.isFenced && resumed.isFenced
  | .call nonterminal => nonterminal.isFenced

end Rule

theorem Nonterminal.isFenced_rule {nonterminal : Nonterminal}
    (fenced : nonterminal.isFenced) : nonterminal.rule.isFenced := by
  cases nonterminal with
  | expression | arrayElements | qualifiedTail | parameters => rfl
  | _ => nomatch fenced

theorem Statement.isFenced_rule {statement : Statement}
    (other : statement ≠ .locate) : statement.rule.isFenced := by
  rcases statement with _ | _ | _ | _ | _ | _ | _ | _ | _ | _ | (_ | _) |
    (_ | _) | _ | _ | _ | _ | _ | _ | _ | _ |
    ((_ | _) | _ | _ | _ | _ | _ | _ | _) | _ | _ | _ <;>
    first | rfl | exact absurd rfl other

theorem Statement.eq_locate_of_select {block : Block}
    {follows : Terminal → Bool} {word : Keyword}
    (selected : select block follows word = some .locate) : word = .locate := by
  have begins := (Option.filter_eq_some_iff.mp selected).1
  cases word <;>
    simp [beginning, beginning.commandOrInput, beginning.patternOr] at begins ⊢
  all_goals
    repeat' split at begins
    all_goals nomatch begins

end ComponentLang
