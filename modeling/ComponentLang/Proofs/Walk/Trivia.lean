import ComponentLang.Proofs.Symbol.Tables
import ComponentLang.Proofs.Walk.Lockstep

namespace ComponentLang.Walk

def trim (walk : Walk) : Walk :=
  walk.moveTo walk.cursor.trim

structure Tidy (walk : Walk) : Prop where
  cursor : walk.cursor.Tidy
  semantic : ∀ symbol ∈ walk.symbols.toList, symbol.kind.isSemantic

def Trimmed (_ : Bool) (first second : Walk) : Prop :=
  first.Tidy ∧ second = first.trim

namespace Tidy

variable {walk : Walk}

theorem moveTo (tidy : Tidy walk) {cursor : TokenCursor}
    (there : cursor.Tidy) : Tidy (walk.moveTo cursor) :=
  ⟨there, tidy.semantic⟩

theorem report (tidy : Tidy walk) (cause : Cause) (anchor : Token) :
    Tidy (walk.report cause anchor) :=
  ⟨tidy.cursor, tidy.semantic⟩

theorem current?_trim (tidy : Tidy walk) :
    walk.trim.cursor.current? = walk.cursor.current? :=
  tidy.cursor.current?_trim

theorem place_trim (tidy : Tidy walk) : walk.trim.place = walk.place := by
  rw [place, place, TokenCursor.place, TokenCursor.place, tidy.current?_trim]

theorem isLater_trim (tidy : Tidy walk) (token : Token) :
    walk.trim.isLater token = walk.isLater token := by
  rw [isLater, isLater, TokenCursor.isLater, TokenCursor.isLater,
    tidy.current?_trim]

theorem rescue (tidy : Tidy walk) {candidates : List Terminal}
    (meant : candidates.all Terminal.isMeaningful) :
    Trimmed false (walk.rescue candidates) (walk.trim.rescue candidates) := by
  have found := tidy.cursor.rescue?_trim meant
  change walk.trim.cursor.rescue? candidates = _ at found
  cases rescue_eq : walk.cursor.rescue? candidates with
  | none =>
      rw [rescue_eq] at found
      rw [Walk.rescue, Walk.rescue, rescue_eq, found]
      exact ⟨tidy, rfl⟩
  | some reached =>
      rw [rescue_eq] at found
      rw [Walk.rescue, Walk.rescue, rescue_eq, found]
      exact ⟨tidy.moveTo (tidy.cursor.rescue meant rescue_eq), rfl⟩

theorem strings (tidy : Tidy walk) :
    Trimmed false walk.strings walk.trim.strings :=
  ⟨tidy.moveTo tidy.cursor.passStrings,
    congrArg walk.moveTo tidy.cursor.passStrings_trim⟩

theorem classify (tidy : Tidy walk) {kind : TokenKind}
    (semantic : kind.isSemantic) (modifiers : Modifiers) :
    Trimmed false (walk.classify kind modifiers)
      (walk.trim.classify kind modifiers) := by
  have classified := tidy.cursor.reclassify semantic modifiers
  have same := tidy.cursor.reclassify_trim semantic modifiers
  change walk.trim.cursor.reclassify kind modifiers = _ at same
  refine ⟨⟨classified, tidy.semantic⟩, ?_⟩
  rw [Walk.classify, same]
  simp only [classified.current?_trim]
  rfl

theorem complain (tidy : Tidy walk) (complaint : Complaint) :
    Trimmed false (walk.complain complaint) (walk.trim.complain complaint) := by
  rw [Walk.complain, Walk.complain, tidy.current?_trim]
  cases walk.cursor.current? with
  | none => exact ⟨tidy, rfl⟩
  | some token => cases complaint <;> exact ⟨tidy.report _ _, rfl⟩

theorem resolve (tidy : Tidy walk) :
    Trimmed false walk.resolve walk.trim.resolve := by
  rw [Walk.resolve, Walk.resolve, tidy.current?_trim]
  cases walk.cursor.current? with
  | none => exact ⟨tidy, rfl⟩
  | some token =>
      simp only
      split
      · have same (name : String) :
            walk.trim.symbols.lookup? name = walk.symbols.lookup? name := rfl
        rw [same]
        cases found : walk.symbols.lookup? (Literal.nameOf token.text) with
        | none => exact ⟨tidy.report _ _, rfl⟩
        | some symbol =>
            have known := (SymbolTable.mem_of_lookup? found).1
            exact tidy.classify (tidy.semantic symbol known) symbol.modifiers
      · exact ⟨tidy.report _ _, rfl⟩

theorem reportDuplicate (tidy : Tidy walk) (registration : Registration)
    (kind : TokenKind) (token : Token) :
    Trimmed false (walk.reportDuplicate registration kind token)
      (walk.trim.reportDuplicate registration kind token) := by
  cases registration with
  | duplicate earlier =>
      simp only [Walk.reportDuplicate]
      split
      · exact ⟨tidy, rfl⟩
      · exact ⟨tidy.report _ _, rfl⟩
  | _ => exact ⟨tidy, rfl⟩

theorem register (tidy : Tidy walk) (symbol : Symbol)
    (semantic : symbol.kind.isSemantic) :
    Tidy { walk with symbols := (walk.symbols.declare symbol).2 } := by
  refine ⟨tidy.cursor, ?_⟩
  intro listed member
  rcases SymbolTable.mem_toList_declare member with known | rfl
  · exact tidy.semantic listed known
  · exact semantic

theorem declare (tidy : Tidy walk) {kind : TokenKind}
    (semantic : kind.isSemantic) (modifiers : Modifiers) :
    Trimmed false (walk.declare kind modifiers).2
      (walk.trim.declare kind modifiers).2 := by
  rw [Walk.declare, Walk.declare, tidy.current?_trim]
  cases walk.cursor.current? with
  | none => exact ⟨tidy, rfl⟩
  | some token =>
      simp only
      split
      · have registered := tidy.register ⟨Literal.nameOf token.text,
          walk.scopes.path, kind, modifiers.withDeclaration, token.line,
          token.column⟩ semantic
        obtain ⟨reported, same⟩ := registered.reportDuplicate _ kind token
        have classified := reported.classify semantic modifiers.withDeclaration
        rw [← same] at classified
        exact classified
      · exact ⟨tidy.report _ _, rfl⟩

theorem settle (tidy : Tidy walk) : Trimmed false walk.settle walk.trim.settle := by
  refine ⟨?_, by rw [trim, settle_moveTo, trim, cursor_settle]⟩
  unfold Walk.settle
  split
  · exact tidy
  · exact ⟨tidy.cursor, tidy.semantic⟩

end Tidy

theorem lockstep_trimmed : Lockstep Trimmed fun _ _ _ _ => False where
  left := steady_const False
  right := steady_const False
  weaken := id
  current := by
    rintro fresh walk _ ⟨tidy, rfl⟩
    obtain ⟨token, there, -⟩ := tidy.cursor.stands
    exact ⟨token, token, there, tidy.current?_trim.trans there, rfl,
      fun _ => .inl rfl⟩
  next := by
    rintro walk _ ⟨tidy, rfl⟩
    have found := tidy.cursor.next?_trim
    change walk.trim.cursor.next? = _ at found
    cases next_eq : walk.cursor.next? with
    | none => exact .ended next_eq (by rw [found, next_eq]; rfl)
    | some place =>
        obtain ⟨token, reached⟩ := place
        rw [next_eq] at found
        exact .of_kind next_eq found rfl rfl (tidy.isLater_trim token).symm
          ⟨tidy.moveTo (tidy.cursor.next next_eq), rfl⟩
  ended := by
    rintro walk expected _ ⟨tidy, rfl⟩ _ _
    rw [tidy.place_trim]
    exact ⟨tidy.report _ _, rfl⟩
  abandoned := by
    rintro walk _ token reached other arrived expected ⟨tidy, rfl⟩ left right - - -
    have found := tidy.cursor.next?_trim
    change walk.trim.cursor.next? = _ at found
    rw [left, right] at found
    cases found
    rw [tidy.isLater_trim, tidy.place_trim]
    exact ⟨tidy.report _ _, rfl⟩
  mismatch := by
    rintro walk _ token other candidates ⟨tidy, rfl⟩ here there
    rw [tidy.current?_trim, here] at there
    cases there
    exact ⟨tidy.report _ _, rfl⟩
  rescue := by
    rintro candidates walk _ meant ⟨tidy, rfl⟩
    exact .inl (tidy.rescue meant)
  complain := by
    rintro walk _ complaint ⟨tidy, rfl⟩
    exact .inl (tidy.complain complaint)
  strings := by
    rintro walk _ ⟨tidy, rfl⟩
    exact .inl tidy.strings
  resolve := by
    rintro walk _ ⟨tidy, rfl⟩
    exact .inl tidy.resolve
  declare := by
    rintro kind walk _ semantic modifiers ⟨tidy, rfl⟩
    exact .inl (tidy.declare semantic modifiers)
  openScope := by
    rintro fresh walk _ name kind ⟨tidy, rfl⟩
    exact ⟨⟨tidy.cursor, tidy.semantic⟩, rfl⟩
  closeScope := by
    rintro fresh walk _ ⟨tidy, rfl⟩
    exact ⟨⟨tidy.cursor, tidy.semantic⟩, rfl⟩
  settle := by
    rintro fresh walk _ ⟨tidy, rfl⟩
    exact tidy.settle

theorem Tidy.document {walk : Walk} (tidy : Tidy walk) {tokens : List Token}
    (starts : walk.trim = start tokens) (some_token : tokens ≠ [])
    {size fuel : Nat} (fits : tokens.length ≤ size)
    (enough : tokens.length ≤ fuel) :
    (document (fun _ => false) tokens).2 =
      (statements (fun _ => false) (allowance size) fuel walk).2.trim := by
  rw [document_eq_statements some_token fits enough, ← starts]
  have trimmed : Trimmed true walk walk.trim := ⟨tidy, rfl⟩
  rcases lockstep_trimmed.statements (allowance size) fuel trimmed with
    ⟨-, same⟩ | never
  · exact same
  · exact never.elim

theorem length_meaningful_le (tokens : List Token) :
    (meaningful tokens).length ≤ tokens.length :=
  List.length_filter_le _ tokens

/-- The first turn takes leading trivia alone, and the second one begins with
the first of the meaningful tokens. -/
theorem document_of_isTrivia {first : Token} {rest : List Token}
    (quiet : Quiet (first :: rest)) (trivia : first.isTrivia) :
    (document (fun _ => false) (meaningful rest)).2 =
      (document (fun _ => false) (first :: rest)).2.trim := by
  have turn : document (fun _ => false) (first :: rest) =
      furtherStatements (allowance (rest.length + 1)) rest.length
        (start (first :: rest)) := by
    rw [document, if_neg (by simp), List.length_cons, statements_step,
      run_statement_of_isTrivia rfl trivia (by simp [allowance])]
    rfl
  have settled : (start (first :: rest)).settle = start (first :: rest) := rfl
  have found : (start (first :: rest)).cursor.next?.map (·.2.trim) =
      if (meaningful rest).isEmpty then none
      else some (.ofList (meaningful rest)) :=
    TokenCursor.next?_ofList_of_isTrivia trivia
  rw [turn, furtherStatements, settled]
  cases next_eq : (start (first :: rest)).cursor.next? with
  | none =>
      rw [next_eq] at found
      have nothing : meaningful rest = [] := by simpa using found
      rw [nothing]
      change start [] = start (meaningful (first :: rest))
      rw [meaningful_cons_of_isTrivia trivia, nothing]
  | some place =>
      obtain ⟨token, reached⟩ := place
      rw [next_eq] at found
      obtain ⟨skipped, behind_eq, -⟩ := TokenCursor.behind_of_next? next_eq
      obtain ⟨there, carries⟩ := TokenCursor.current?_of_next? next_eq
      have tidy : Tidy ((start (first :: rest)).moveTo reached) :=
        ⟨.of_move quiet behind_eq there carries, List.forall_mem_nil _⟩
      have some_token : meaningful rest ≠ [] := by
        intro nothing
        rw [nothing] at found
        cases found
      have starts : reached.trim = .ofList (meaningful rest) := by
        simpa [some_token] using found
      have shorter := length_meaningful_le rest
      exact tidy.document (congrArg ((start (first :: rest)).moveTo ·) starts)
        some_token (Nat.le_succ_of_le shorter) shorter

/-- The walk over the meaningful tokens ends as the walk over all tokens. -/
theorem document_meaningful {tokens : List Token} (quiet : Quiet tokens) :
    (document (fun _ => false) (meaningful tokens)).2 =
      (document (fun _ => false) tokens).2.trim := by
  cases tokens with
  | nil => rfl
  | cons first rest =>
      cases trivia : first.isTrivia with
      | true =>
          rw [meaningful_cons_of_isTrivia trivia]
          exact document_of_isTrivia quiet trivia
      | false =>
          have tidy : Tidy (start (first :: rest)) :=
            ⟨⟨quiet, first, rfl, trivia⟩, nofun⟩
          have some_token : meaningful (first :: rest) ≠ [] := by
            rw [meaningful_cons trivia]
            nofun
          have shorter := length_meaningful_le (first :: rest)
          rw [document_eq_statements (List.cons_ne_nil first rest)
            (Nat.le_refl _) (Nat.le_refl _)]
          exact tidy.document rfl some_token shorter shorter

end ComponentLang.Walk
