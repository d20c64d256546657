import ComponentLang.Proofs.Visitor.Documents
import ComponentLang.Proofs.Walk.Alike

namespace ComponentLang

/-- Equal up to the wording and the text of the token. -/
structure Diagnostic.SameReport (first second : Diagnostic) : Prop where
  severity : first.severity = second.severity
  code : first.code = second.code
  position : first.position = second.position

/-- Equal up to the texts of tokens and the wording of diagnostics. -/
structure Analysis.SameReading (first second : Analysis) : Prop where
  tokens : List.Forall₂ Token.SameButText first.tokens second.tokens
  classified : first.classified = second.classified
  diagnostics :
    List.Forall₂ Diagnostic.SameReport first.diagnostics second.diagnostics
  symbols : first.symbols = second.symbols
  peakScopeDepth : first.peakScopeDepth = second.peakScopeDepth
  scopeResets : first.scopeResets = second.scopeResets

structure Scan.LexicalError.SamePlace (first second : LexicalError) : Prop where
  block : first.block = second.block
  start : first.token.start = second.token.start

theorem Options.severity?_of_code (options : Options) {first second : Cause}
    (code : first.code = second.code) :
    options.severity? first = options.severity? second := by
  cases first <;> cases second <;> first | rfl | nomatch code

section Reports

variable (options : Options) {told : Diagnostic → Diagnostic → Prop}

theorem Options.report?_rel {first second : Finding}
    (code : first.cause.code = second.cause.code)
    (tells : ∀ severity,
      told (first.diagnostic severity) (second.diagnostic severity)) :
    Option.Rel told (options.report? first) (options.report? second) := by
  unfold report?
  rw [options.severity?_of_code code]
  cases options.severity? second.cause with
  | none => exact .none
  | some severity => exact .some (tells severity)

/-- Which findings are reported depends on their codes only. -/
theorem Walk.diagnostics_rel {first second : Walk}
    (findings : List.Forall₂
      (fun left right => left.cause.code = right.cause.code ∧
        ∀ severity, told (left.diagnostic severity) (right.diagnostic severity))
      first.findings second.findings) :
    List.Forall₂ told (first.diagnostics options)
      (second.diagnostics options) := by
  refine List.rel_filterMap ?_ (List.rel_reverse findings)
  rintro left right ⟨code, tells⟩
  exact options.report?_rel code tells

theorem Options.keep_eq_take (diagnostics : List Diagnostic) :
    options.keep diagnostics = diagnostics.take options.maxDiagnostics :=
  DiagnosticCollector.toList_foldl_report _ _

theorem Options.keep_rel {diagnostics others : List Diagnostic}
    (tells : List.Forall₂ told diagnostics others) :
    List.Forall₂ told (options.keep diagnostics) (options.keep others) := by
  rw [options.keep_eq_take, options.keep_eq_take]
  exact List.forall₂_take _ tells

end Reports

namespace StableSort

theorem forall₂_insert {relation : α → β → Prop} {le : α → α → Bool}
    {other : β → β → Bool}
    (same : ∀ a b a' b', relation a a' → relation b b' → le a b = other a' b')
    {element : α} {counterpart : β} (head : relation element counterpart)
    {lefts : List α} {rights : List β}
    (related : List.Forall₂ relation lefts rights) :
    List.Forall₂ relation (insert le element lefts)
      (insert other counterpart rights) := by
  induction related with
  | nil => exact .cons head .nil
  | cons next rest induction =>
      unfold insert
      rw [same _ _ _ _ head next]
      split
      · exact .cons head (.cons next rest)
      · exact .cons next induction

theorem forall₂_sort {relation : α → β → Prop} {le : α → α → Bool}
    {other : β → β → Bool}
    (same : ∀ a b a' b', relation a a' → relation b b' → le a b = other a' b')
    {lefts : List α} {rights : List β}
    (related : List.Forall₂ relation lefts rights) :
    List.Forall₂ relation (sort le lefts) (sort other rights) := by
  induction related with
  | nil => exact .nil
  | cons head rest induction => exact forall₂_insert same head induction

end StableSort

namespace Walk

theorem Alike.diagnostics {first second : Walk} (alike : Alike first second)
    (options : Options) :
    List.Forall₂ Diagnostic.SameReport (first.diagnostics options)
      (second.diagnostics options) :=
  diagnostics_rel options (alike.findings.imp fun _ _ same =>
    ⟨same.code, fun _ => ⟨rfl, same.code, same.anchor.start_eq⟩⟩)

theorem Alike.sameReading {first second : Walk} (alike : Alike first second)
    {diagnostics others : List Diagnostic}
    (same : List.Forall₂ Diagnostic.SameReport diagnostics others) :
    Analysis.SameReading (.ofWalk first diagnostics)
      (.ofWalk second others) where
  tokens := alike.cursor.toList.imp fun _ _ tokens => tokens.toSameButText
  classified := congrArg List.reverse alike.classified
  diagnostics := same
  symbols := congrArg SymbolTable.toList alike.symbols
  peakScopeDepth := congrArg ScopeStack.peak alike.scopes
  scopeResets := alike.resets

theorem alike_document {first second : List Token}
    (alike : List.Forall₂ Token.Alike first second) :
    Alike (document (fun _ => false) first).2
      (document (fun _ => false) second).2 := by
  have started : Alike (start first) (start second) :=
    ⟨⟨.nil, alike⟩, rfl, rfl, rfl, .nil, rfl⟩
  exact simulation_alike.document alike.length_eq started

end Walk

theorem sameReading_analyze (options : Options) {first second : List Token}
    (alike : List.Forall₂ Token.Alike first second) :
    (analyze options first).SameReading (analyze options second) := by
  have walks := Walk.alike_document alike
  rw [analyze_eq_ofWalk, analyze_eq_ofWalk]
  exact walks.sameReading (options.keep_rel (walks.diagnostics options))

theorem sameReading_analyzeSource (options : Options) {first second : String}
    (tokens : List.Forall₂ Token.Alike (scan first).tokens
      (scan second).tokens)
    (errors : List.Forall₂ Scan.LexicalError.SamePlace (scan first).errors
      (scan second).errors) :
    (analyzeSource options first).SameReading (analyzeSource options second) := by
  have walks := Walk.alike_document tokens
  have lexical : List.Forall₂ Diagnostic.SameReport
      (((scan first).errors.map Finding.ofLexicalError).filterMap
        options.report?)
      (((scan second).errors.map Finding.ofLexicalError).filterMap
        options.report?) := by
    rw [List.filterMap_map, List.filterMap_map]
    refine List.rel_filterMap ?_ errors
    intro left right same
    exact options.report?_rel rfl fun _ => ⟨rfl, rfl, same.start⟩
  rw [analyzeSource_eq_ofWalk, analyzeSource_eq_ofWalk]
  apply walks.sameReading
  apply StableSort.forall₂_sort
  · intro left right other next same following
    rw [same.position, following.position]
  · exact options.keep_rel
      (List.rel_append lexical (walks.diagnostics options))

end ComponentLang
