import ComponentLang.Token.Cursor
import Mathlib.Data.List.Basic

namespace ComponentLang

inductive Brace where
  | opening | closing
  deriving DecidableEq, Repr

namespace Brace

def sign : Brace → Operator
  | .opening => .leftBrace
  | .closing => .rightBrace

def ofSpelling? (text : String) : Option Brace :=
  if text == opening.sign.spelling then some .opening
  else if text == closing.sign.spelling then some .closing
  else none

theorem ofSpelling?_eq_some_iff {text : String} {brace : Brace} :
    ofSpelling? text = some brace ↔ text = brace.sign.spelling := by
  unfold ofSpelling?
  constructor
  · intro found
    split at found
    · next same =>
        cases found
        exact beq_iff_eq.mp same
    · split at found
      · next same =>
          cases found
          exact beq_iff_eq.mp same
      · nomatch found
  · rintro rfl
    cases brace <;> rfl

end Brace

def Token.brace? (token : Token) : Option Brace :=
  if token.kind == .operator then Brace.ofSpelling? token.text else none

theorem Token.text_of_brace? {token : Token} {brace : Brace}
    (found : token.brace? = some brace) : token.text = brace.sign.spelling := by
  unfold brace? at found
  split at found
  · exact Brace.ofSpelling?_eq_some_iff.mp found
  · nomatch found

namespace Nesting

/-- No token but an operator is spelled like a brace. -/
def BracesAreOperators (tokens : List Token) : Prop :=
  ∀ token ∈ tokens, token.brace? = Brace.ofSpelling? token.text

/-- How many braces are open behind the tokens when `depth` are before them.
There is no answer if one is closed that was not opened. -/
def depthAfter (depth : Nat) : List Token → Option Nat
  | [] => some depth
  | token :: rest =>
      match token.brace?, depth with
      | none, depth => depthAfter depth rest
      | some .opening, depth => depthAfter (depth + 1) rest
      | some .closing, outer + 1 => depthAfter outer rest
      | some .closing, 0 => none

def isNested (tokens : List Token) : Bool :=
  depthAfter 0 tokens == some 0

theorem depthAfter_cons (depth : Nat) (token : Token) (rest : List Token) :
    depthAfter depth (token :: rest) =
      match token.brace?, depth with
      | none, depth => depthAfter depth rest
      | some .opening, depth => depthAfter (depth + 1) rest
      | some .closing, outer + 1 => depthAfter outer rest
      | some .closing, 0 => none :=
  rfl

theorem depthAfter_append (depth : Nat) (front back : List Token) :
    depthAfter depth (front ++ back) =
      (depthAfter depth front).bind fun depth => depthAfter depth back := by
  induction front generalizing depth with
  | nil => rfl
  | cons token rest induction =>
      rw [List.cons_append, depthAfter_cons, depthAfter_cons]
      split
      · exact induction _
      · exact induction _
      · exact induction _
      · rfl

theorem depthAfter_add {depth after : Nat} {tokens : List Token} (extra : Nat)
    (known : depthAfter depth tokens = some after) :
    depthAfter (depth + extra) tokens = some (after + extra) := by
  induction tokens generalizing depth with
  | nil =>
      obtain rfl := Option.some.inj known
      rfl
  | cons token rest induction =>
      rw [depthAfter_cons] at known ⊢
      cases brace : token.brace? with
      | none =>
          rw [brace] at known
          exact induction known
      | some side =>
          rw [brace] at known
          cases side with
          | opening =>
              simp only [Nat.add_right_comm depth extra 1]
              exact induction known
          | closing =>
              cases depth with
              | zero => nomatch known
              | succ outer =>
                  rw [Nat.succ_add]
                  exact induction known

theorem isNested_iff {tokens : List Token} :
    isNested tokens ↔ depthAfter 0 tokens = some 0 :=
  beq_iff_eq

theorem isNested_nil : isNested [] := rfl

theorem isNested_append_iff {front back : List Token}
    (nested : isNested front) :
    isNested (front ++ back) ↔ isNested back := by
  rw [isNested_iff] at nested
  rw [isNested_iff, isNested_iff, depthAfter_append, nested, Option.bind_some]

theorem isNested_cons_iff {token : Token} {rest : List Token}
    (plain : token.brace? = none) :
    isNested (token :: rest) ↔ isNested rest := by
  rw [isNested_iff, isNested_iff, depthAfter_cons, plain]

theorem brace?_ne_closing {token : Token} {rest : List Token}
    (nested : isNested (token :: rest)) :
    token.brace? ≠ some .closing := by
  intro closing
  rw [isNested_iff, depthAfter_cons, closing] at nested
  nomatch nested

theorem isNested_braces {opening close : Token} {inner back : List Token}
    (opens : opening.brace? = some .opening) (nested : isNested inner)
    (closes : close.brace? = some .closing) :
    isNested (opening :: inner ++ close :: back) ↔ isNested back := by
  have lifted := depthAfter_add 1 (isNested_iff.mp nested)
  rw [isNested_iff, isNested_iff, List.cons_append, depthAfter_cons, opens]
  simp only
  rw [depthAfter_append, lifted, Option.bind_some, depthAfter_cons, closes]

theorem exists_partner {depth : Nat} {tokens : List Token}
    (nested : depthAfter (depth + 1) tokens = some 0) :
    ∃ inner close back, tokens = inner ++ close :: back ∧ isNested inner ∧
      close.brace? = some .closing ∧ depthAfter depth back = some 0 := by
  induction size : tokens.length using Nat.strongRecOn
    generalizing depth tokens with
  | _ total induction =>
      cases tokens with
      | nil => nomatch nested
      | cons token rest =>
          have shorter : rest.length < total := by
            rw [← size]
            exact Nat.lt_succ_self _
          rw [depthAfter_cons] at nested
          cases brace : token.brace? with
          | none =>
              rw [brace] at nested
              obtain ⟨inner, close, back, rfl, inner_nested, closes, outer⟩ :=
                induction _ shorter nested rfl
              exact ⟨token :: inner, close, back, rfl,
                (isNested_cons_iff brace).mpr inner_nested, closes, outer⟩
          | some side =>
              rw [brace] at nested
              cases side with
              | closing =>
                  exact ⟨[], token, rest, rfl, isNested_nil, brace, nested⟩
              | opening =>
                  -- Behind the brace that is opened here comes its own partner,
                  -- and only then the one that is looked for.
                  obtain ⟨within, partner, behind, rfl, within_nested, closed,
                    open_depth⟩ := induction _ shorter nested rfl
                  obtain ⟨inner, close, back, rfl, inner_nested, closes,
                    outer⟩ := induction behind.length (by simp at shorter; omega)
                      open_depth rfl
                  refine ⟨token :: within ++ partner :: inner, close, back,
                    by simp, ?_, closes, outer⟩
                  exact (isNested_braces brace within_nested closed).mpr
                    inner_nested

theorem exists_partner_of_isNested {front rest : List Token} {opening : Token}
    (nested : isNested (front ++ opening :: rest))
    (opens : opening.brace? = some .opening) :
    ∃ inner close back, rest = inner ++ close :: back ∧ isNested inner ∧
      close.brace? = some .closing := by
  rw [isNested_iff, depthAfter_append, Option.bind_eq_some_iff] at nested
  obtain ⟨depth, -, after⟩ := nested
  rw [depthAfter_cons, opens] at after
  obtain ⟨inner, close, back, rest_eq, inner_nested, closes, -⟩ :=
    exists_partner after
  exact ⟨inner, close, back, rest_eq, inner_nested, closes⟩

end Nesting

end ComponentLang
