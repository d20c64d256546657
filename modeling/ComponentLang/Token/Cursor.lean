import ComponentLang.Token.Basic
import ComponentLang.Vocabulary.Terminal

namespace ComponentLang

structure TokenCursor where
  /-- The tokens before the current one, nearest first. -/
  passed : List Token
  /-- The current token and those behind it. -/
  ahead : List Token
  deriving DecidableEq, Repr

namespace TokenCursor

def ofList (tokens : List Token) : TokenCursor where
  passed := []
  ahead := tokens

def toList (cursor : TokenCursor) : List Token :=
  cursor.passed.reverse ++ cursor.ahead

def size (cursor : TokenCursor) : Nat :=
  cursor.passed.length + cursor.ahead.length

def isEmpty (cursor : TokenCursor) : Bool :=
  cursor.passed.isEmpty && cursor.ahead.isEmpty

def index (cursor : TokenCursor) : Nat :=
  cursor.passed.length

def current? (cursor : TokenCursor) : Option Token :=
  cursor.ahead.head?

def remaining (cursor : TokenCursor) : Nat :=
  cursor.ahead.tail.length

/-! Looking for a token behind the current one. -/

/-- The first token that is `wanted` among those behind `passed`, and a cursor
on it. The search ends at a token that is not `within` reach. -/
def seek (within wanted : Token → Bool) (passed : List Token) :
    List Token → Option (Token × TokenCursor)
  | [] => none
  | token :: rest =>
      if !within token then none
      else if wanted token then some (token, ⟨passed, token :: rest⟩)
      else seek within wanted (token :: passed) rest

/-- The next token that is no trivia, and a cursor on it. -/
def next? (cursor : TokenCursor) : Option (Token × TokenCursor) :=
  match cursor.ahead with
  | [] => none
  | current :: rest =>
      seek (fun _ => true) (fun token => !token.isTrivia)
        (current :: cursor.passed) rest

def peek? (cursor : TokenCursor) : Option Token :=
  cursor.next?.map (·.1)

def peekIs (cursor : TokenCursor) (candidates : List Terminal) : Bool :=
  cursor.peek?.any fun token => (Terminal.find? candidates token.text).isSome

/-- The candidate as which the next token that is no trivia is spelled, and a
cursor on that token. -/
def take? (cursor : TokenCursor) (candidates : List Terminal) :
    Option (Terminal × TokenCursor) :=
  match cursor.next? with
  | none => none
  | some (token, after) =>
      (Terminal.find? candidates token.text).map fun found => (found, after)

/-- A cursor on the first token behind the current one that is spelled as a
candidate, if there is one on the line of the current token. -/
def rescue? (cursor : TokenCursor) (candidates : List Terminal) :
    Option TokenCursor :=
  match cursor.ahead with
  | [] => none
  | current :: rest =>
      (seek (fun token => token.line == current.line)
        (fun token => (Terminal.find? candidates token.text).isSome)
        (current :: cursor.passed) rest).map (·.2)

/-- The cursor on the last of the strings that follow it, over trivia. `last`
is the cursor so far, and `passed` all tokens before those still to look at. -/
def passStringsFrom (last : TokenCursor) (passed : List Token) :
    List Token → TokenCursor
  | [] => last
  | token :: rest =>
      if token.isTrivia then passStringsFrom last (token :: passed) rest
      else if token.kind == .string then
        passStringsFrom ⟨passed, token :: rest⟩ (token :: passed) rest
      else last

def passStrings (cursor : TokenCursor) : TokenCursor :=
  match cursor.ahead with
  | [] => cursor
  | current :: rest =>
      passStringsFrom cursor (current :: cursor.passed) rest

/-! Any place by its index. -/

def nextSemantic? (cursor : TokenCursor) (start : Nat) : Option Nat :=
  ((cursor.toList.drop start).findIdx? fun token => !token.isTrivia).map
    (start + ·)

/-- A cursor on the token at `index`, or on the last one when that is past the
end. -/
def moveTo (cursor : TokenCursor) (index : Nat) : TokenCursor :=
  let tokens := cursor.toList
  let place := min index (tokens.length - 1)
  ⟨(tokens.take place).reverse, tokens.drop place⟩

def reclassifyAt (cursor : TokenCursor) (index : Nat) (kind : TokenKind)
    (modifiers : Modifiers) : TokenCursor :=
  let tokens := cursor.toList.modify index fun token =>
    token.reclassify kind modifiers
  ⟨(tokens.take cursor.index).reverse, tokens.drop cursor.index⟩

def reclassify (cursor : TokenCursor) (kind : TokenKind)
    (modifiers : Modifiers) : TokenCursor :=
  match cursor.ahead with
  | [] => cursor
  | current :: rest =>
      { cursor with ahead := current.reclassify kind modifiers :: rest }

/-! Moving keeps the tokens. -/

@[simp] theorem toList_ofList (tokens : List Token) :
    (ofList tokens).toList = tokens := by
  simp [ofList, toList]

theorem toList_of_seek {within wanted : Token → Bool} {passed tokens : List Token}
    {token : Token} {after : TokenCursor}
    (found : seek within wanted passed tokens = some (token, after)) :
    after.toList = passed.reverse ++ tokens := by
  fun_induction seek within wanted passed tokens with
  | case1 => simp at found
  | case2 => simp at found
  | case3 passed token rest =>
      obtain ⟨rfl, rfl⟩ := by simpa using found
      simp [toList]
  | case4 passed token rest _ _ induction => simpa using induction found

theorem current?_of_seek {within wanted : Token → Bool}
    {passed tokens : List Token} {token : Token} {after : TokenCursor}
    (found : seek within wanted passed tokens = some (token, after)) :
    after.current? = some token ∧ wanted token ∧ within token := by
  fun_induction seek within wanted passed tokens with
  | case1 => simp at found
  | case2 => simp at found
  | case3 passed token rest =>
      obtain ⟨rfl, rfl⟩ := by simpa using found
      simp_all [current?]
  | case4 passed token rest _ _ induction => exact induction found

theorem remaining_lt_of_seek {within wanted : Token → Bool}
    {passed tokens : List Token} {token : Token} {after : TokenCursor}
    (found : seek within wanted passed tokens = some (token, after)) :
    after.remaining < tokens.length := by
  fun_induction seek within wanted passed tokens with
  | case1 => simp at found
  | case2 => simp at found
  | case3 passed token rest =>
      obtain ⟨rfl, rfl⟩ := by simpa using found
      simp [remaining]
  | case4 passed token rest _ _ induction =>
      have := induction found
      simp only [List.length_cons]
      omega

theorem toList_of_next? {cursor after : TokenCursor} {token : Token}
    (found : cursor.next? = some (token, after)) :
    after.toList = cursor.toList := by
  obtain ⟨passed, _ | ⟨current, rest⟩⟩ := cursor
  · simp [next?] at found
  · simpa [toList] using toList_of_seek found

theorem current?_of_next? {cursor after : TokenCursor} {token : Token}
    (found : cursor.next? = some (token, after)) :
    after.current? = some token ∧ token.isTrivia = false := by
  obtain ⟨passed, _ | ⟨current, rest⟩⟩ := cursor
  · simp [next?] at found
  · have := current?_of_seek found
    simp_all

theorem remaining_lt_of_next? {cursor after : TokenCursor} {token : Token}
    (found : cursor.next? = some (token, after)) :
    after.remaining < cursor.remaining := by
  obtain ⟨passed, _ | ⟨current, rest⟩⟩ := cursor
  · simp [next?] at found
  · exact remaining_lt_of_seek found

theorem toList_of_rescue? {cursor after : TokenCursor}
    {candidates : List Terminal} (found : cursor.rescue? candidates = some after) :
    after.toList = cursor.toList := by
  obtain ⟨passed, _ | ⟨current, rest⟩⟩ := cursor
  · simp [rescue?] at found
  · obtain ⟨token, token_eq⟩ := by simpa [rescue?] using found
    simpa [toList] using toList_of_seek token_eq

theorem remaining_lt_of_rescue? {cursor after : TokenCursor}
    {candidates : List Terminal} (found : cursor.rescue? candidates = some after) :
    after.remaining < cursor.remaining := by
  obtain ⟨passed, _ | ⟨current, rest⟩⟩ := cursor
  · simp [rescue?] at found
  · obtain ⟨token, token_eq⟩ := by simpa [rescue?] using found
    exact remaining_lt_of_seek token_eq

theorem toList_passStringsFrom {last : TokenCursor} {passed tokens : List Token}
    (same : last.toList = passed.reverse ++ tokens) :
    (passStringsFrom last passed tokens).toList = last.toList := by
  fun_induction passStringsFrom last passed tokens with
  | case1 => rfl
  | case2 last passed token rest _ induction =>
      exact induction (by simpa using same)
  | case3 last passed token rest _ _ induction =>
      rw [induction (by simp [toList]), same]
      rfl
  | case4 => rfl

@[simp] theorem toList_passStrings (cursor : TokenCursor) :
    cursor.passStrings.toList = cursor.toList := by
  obtain ⟨passed, _ | ⟨current, rest⟩⟩ := cursor
  · rfl
  · exact toList_passStringsFrom (by simp [toList])

@[simp] theorem remaining_reclassify (cursor : TokenCursor) (kind : TokenKind)
    (modifiers : Modifiers) :
    (cursor.reclassify kind modifiers).remaining = cursor.remaining := by
  obtain ⟨passed, _ | ⟨current, rest⟩⟩ := cursor <;> rfl

theorem remaining_passStringsFrom {last : TokenCursor}
    {passed tokens : List Token} (behind : tokens.length ≤ last.remaining) :
    (passStringsFrom last passed tokens).remaining ≤ last.remaining := by
  fun_induction passStringsFrom last passed tokens with
  | case1 => exact Nat.le_refl _
  | case2 last passed token rest _ induction =>
      exact induction (Nat.le_of_succ_le behind)
  | case3 last passed token rest _ _ induction =>
      exact Nat.le_trans (induction (Nat.le_refl _)) (Nat.le_of_succ_le behind)
  | case4 => exact Nat.le_refl _

theorem remaining_passStrings (cursor : TokenCursor) :
    cursor.passStrings.remaining ≤ cursor.remaining := by
  obtain ⟨passed, _ | ⟨current, rest⟩⟩ := cursor
  · exact Nat.le_refl _
  · exact remaining_passStringsFrom (Nat.le_refl _)

theorem remaining_lt_of_take? {cursor after : TokenCursor}
    {candidates : List Terminal} {terminal : Terminal}
    (found : cursor.take? candidates = some (terminal, after)) :
    after.remaining < cursor.remaining := by
  unfold take? at found
  split at found
  · contradiction
  · next token there next_eq =>
      obtain ⟨-, -, -, rfl⟩ := by simpa using found
      exact remaining_lt_of_next? next_eq

end TokenCursor

end ComponentLang
