import ComponentLang.Grammar.Production

namespace ComponentLang

namespace Terminal

def lookedFor : List Terminal :=
  [.activity, .always, .at, .base, .change, .command, .component,
    .connections, .constant, .cpu, .default, .diagnostic, .event, .fatal,
    .format, .get, .high, .id, .input, .instance, .low, .on, .opcode, .orange,
    .phase, .port, .priority, .queue, .recv, .red, .ref, .reg, .resp, .save,
    .serial, .set, .severity, .size, .stack, .throttle, .topology, .type,
    .update, .warning, .with, .yellow].map Terminal.keyword ++
  [.leftParen, .rightParen, .leftBracket, .rightBracket, .leftBrace,
    .rightBrace, .star, .plus, .comma, .minus, .arrow, .dot, .slash, .colon,
    .equals].map Terminal.operator

def areLookedFor (candidates : List Terminal) : Bool :=
  candidates.all lookedFor.contains

theorem find?_eq_none_of_areLookedFor {candidates : List Terminal}
    {text : String} (listed : areLookedFor candidates)
    (unread : find? lookedFor text = none) : find? candidates text = none := by
  rw [find?, List.find?_eq_none] at unread ⊢
  intro candidate member
  have known : lookedFor.contains candidate :=
    List.all_eq_true.mp listed candidate member
  exact unread candidate (List.contains_iff_mem.mp known)

end Terminal

open Terminal

def Expected.isLookedFor : Expected → Bool
  | .oneOf candidates => areLookedFor candidates
  | _ => true

def Test.isLookedFor : Test → Bool
  | .spelled terminal => areLookedFor [terminal]
  | _ => true

def Resumption.isLookedFor : Resumption → Bool
  | .anywhere => true
  | .before terminals => areLookedFor terminals

def Rule.isLookedFor : Rule → Bool
  | .seq first next => first.isLookedFor && next.isLookedFor
  | .need expected => expected.isLookedFor
  | .expect candidates => areLookedFor candidates
  | .accept candidates found missing =>
      areLookedFor candidates && found.isLookedFor && missing.isLookedFor
  | .branch test holds fails =>
      test.isLookedFor && holds.isLookedFor && fails.isLookedFor
  | .define _ _ body => body.isLookedFor
  | .recover resumption body next resumed =>
      resumption.isLookedFor && body.isLookedFor && next.isLookedFor &&
        resumed.isLookedFor
  | .statement _ => false
  | _ => true

/-- Whether it is so but for what a full queue does, said at the end. -/
def Rule.endsStatement : Rule → Bool
  | .seq first next => first.isLookedFor && next.endsStatement
  | rule => rule == .queueFull || rule.isLookedFor

theorem Nonterminal.isLookedFor_rule {nonterminal : Nonterminal}
    (other : ∀ block, nonterminal ≠ .members block) :
    nonterminal.rule.isLookedFor := by
  cases nonterminal with
  | members block => exact absurd rfl (other block)
  | _ => rfl

theorem Statement.endsStatement_rule (statement : Statement) :
    statement.rule.endsStatement := by
  rcases statement with _ | _ | _ | _ | _ | _ | _ | _ | _ | _ | (_ | _) |
    (_ | _) | _ | _ | _ | _ | _ | _ | _ | _ |
    ((_ | _) | _ | _ | _ | _ | _ | _ | _) | _ | _ | _ <;> rfl

/-- The terminals by which statements with the same first word are told
apart. -/
def Statement.followers : List Terminal :=
  [Keyword.input, Keyword.port, Keyword.get, Keyword.set, Keyword.recv,
    Keyword.reg, Keyword.resp]

theorem Statement.select_congr {first second : Terminal → Bool}
    (same : ∀ terminal ∈ followers, first terminal = second terminal)
    (block : Block) (word : Keyword) :
    select block first word = select block second word := by
  simp only [followers, List.forall_mem_cons] at same
  obtain ⟨input, port, get, set, recv, reg, resp, -⟩ := same
  unfold select
  congr 1
  cases word <;>
    simp [beginning, beginning.commandOrInput, beginning.patternOr, *]

end ComponentLang
