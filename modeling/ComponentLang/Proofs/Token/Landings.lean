import ComponentLang.Proofs.Token.Sites
import ComponentLang.Proofs.Token.Trivia

namespace ComponentLang

/-- The token has a meaning or is spelled like something that has one. -/
def Token.IsHeard (token : Token) : Prop :=
  token.isTrivia → ¬token.IsSilent

theorem Token.isHeard_of_not_isTrivia {token : Token}
    (carries : token.isTrivia = false) : token.IsHeard :=
  fun trivia => absurd (carries.symm.trans trivia) Bool.false_ne_true

namespace TokenCursor

/-- The cursor stands on one of the tokens that are heard, before those that
follow it in the list. It may have been classified since. -/
def LandsIn (tokens : List Token) (cursor : TokenCursor) : Prop :=
  ∃ front token current, tokens = front ++ token :: cursor.behind ∧
    cursor.current? = some current ∧ current.site = token.site ∧ token.IsHeard

namespace LandsIn

variable {tokens : List Token} {cursor after : TokenCursor} {token : Token}

theorem move {skipped : List Token} (lands : LandsIn tokens cursor)
    (behind_eq : cursor.behind = skipped ++ token :: after.behind)
    (there : after.current? = some token) (heard : token.IsHeard) :
    LandsIn tokens after := by
  obtain ⟨front, earlier, _, rfl, -⟩ := lands
  refine ⟨front ++ earlier :: skipped, token, token, ?_, there, rfl, heard⟩
  rw [behind_eq, List.append_assoc, List.cons_append]

theorem next (lands : LandsIn tokens cursor)
    (found : cursor.next? = some (token, after)) : LandsIn tokens after := by
  obtain ⟨skipped, behind_eq, -⟩ := behind_of_next? found
  obtain ⟨there, carries⟩ := current?_of_next? found
  exact lands.move behind_eq there (Token.isHeard_of_not_isTrivia carries)

theorem rescue {candidates : List Terminal} (lands : LandsIn tokens cursor)
    (meant : candidates.all Terminal.isMeaningful)
    (found : cursor.rescue? candidates = some after) :
    LandsIn tokens after := by
  obtain ⟨skipped, token, behind_eq, there, spelled⟩ := behind_of_rescue? found
  refine lands.move behind_eq there fun _ silent => ?_
  rw [silent.find?_eq_none meant] at spelled
  cases spelled

theorem passStrings (lands : LandsIn tokens cursor) :
    LandsIn tokens cursor.passStrings := by
  rcases behind_passStrings cursor with same |
    ⟨_, token, behind_eq, there, string, -⟩
  · rwa [same]
  · refine lands.move behind_eq there (Token.isHeard_of_not_isTrivia ?_)
    rw [Token.isTrivia, string]
    rfl

theorem stay (lands : LandsIn tokens cursor)
    (behind_eq : after.behind = cursor.behind)
    (same : after.current?.map Token.site = cursor.current?.map Token.site) :
    LandsIn tokens after := by
  obtain ⟨front, original, current, tokens_eq, there, site_eq, heard⟩ := lands
  rw [there, Option.map_some, Option.map_eq_some_iff] at same
  obtain ⟨token, found, token_eq⟩ := same
  exact ⟨front, original, token, behind_eq ▸ tokens_eq, found,
    token_eq.trans site_eq, heard⟩

end LandsIn

end TokenCursor

end ComponentLang
