import ComponentLang.Grammar.Progress

namespace ComponentLang

/-- Whether a part is resumed only in front of terminals that are among those
known to be absent. -/
def Resumption.isAmong (absent : List Terminal) : Resumption → Bool
  | .anywhere => false
  | .before terminals => terminals.all absent.contains

namespace Rule

/-- Whether everything that the rule resumes is resumed further on than where
the rule begins. `absent` tells what does not come next there. -/
def resumesFurther (absent : List Terminal) : Rule → Bool
  | .seq first next =>
      first.resumesFurther absent && (first.takes || next.resumesFurther [])
  | .accept candidates _ missing => missing.resumesFurther candidates
  | .branch _ holds fails =>
      holds.resumesFurther absent && fails.resumesFurther absent
  | .recover resumption body next _ =>
      resumption.isAmong absent && body.resumesFurther absent &&
        (body.takes || next.resumesFurther [])
  | _ => true

end Rule

theorem Nonterminal.resumesFurther_rule (nonterminal : Nonterminal) :
    nonterminal.rule.resumesFurther [] := by
  cases nonterminal <;> rfl

end ComponentLang
