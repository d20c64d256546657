import ComponentLang.Proofs.Analysis.Duplicates
import ComponentLang.Proofs.Walk.Signatures

namespace ComponentLang

/-- A duplicate declaration is reported at the token. -/
def Options.ReportsDuplicate (options : Options) (text : String)
    (token : Token) : Prop :=
  ∃ diagnostic ∈ (analyzeSource options text).diagnostics,
    diagnostic.code = .duplicateDeclaration ∧ diagnostic.token = token

instance (options : Options) (text : String) (token : Token) :
    Decidable (options.ReportsDuplicate text token) :=
  inferInstanceAs (Decidable (∃ diagnostic ∈ _, _))

section Reports

variable {options : Options} {text : String} {severity : Severity}
  (enabled : options.duplicateDeclarations.severity? = some severity)
  (unlimited : options.Unlimited text)
include enabled unlimited

theorem reportsDuplicate_iff {occurrence : Occurrence}
    (member : occurrence ∈ Walk.occurrences (scan text).tokens) :
    options.ReportsDuplicate text occurrence.token ↔
      ∃ first, (occurrence, first) ∈
        Occurrence.duplicates (Walk.occurrences (scan text).tokens) := by
  obtain ⟨front, back, here⟩ := List.append_of_mem member
  have reported := reported_iff enabled unlimited here
  constructor
  · rintro ⟨diagnostic, among, code_eq, token_eq⟩
    obtain ⟨first, found, fresh, -⟩ :=
      (reported diagnostic).mp ⟨among, code_eq, token_eq⟩
    refine ⟨first, Occurrence.mem_duplicates.mpr ⟨front, back, here, ?_⟩⟩
    exact Option.filter_eq_some_iff.mpr ⟨found, by simpa using fresh⟩
  · rintro ⟨first, duplicate⟩
    rw [Occurrence.mem_duplicates_of_split (nodup_occurrences text) here]
      at duplicate
    obtain ⟨found, fresh⟩ := Option.filter_eq_some_iff.mp duplicate
    exact ⟨_, (reported _).mpr ⟨first, found, by simpa using fresh, rfl⟩⟩

/-- Of two occurrences of one name, one is reported as a duplicate of the other
when they are in the same scopes, unless both are duplicates of an earlier
one. -/
theorem mem_duplicates_iff_scopes {one other : Occurrence}
    (one_mem : one ∈ Walk.occurrences (scan text).tokens)
    (other_mem : other ∈ Walk.occurrences (scan text).tokens)
    (apart : one ≠ other) (same_name : one.name = other.name)
    (one_kind : one.kind ≠ .namespace) (other_kind : other.kind ≠ .namespace) :
    ((one, other) ∈
          Occurrence.duplicates (Walk.occurrences (scan text).tokens) ∨
        (other, one) ∈
          Occurrence.duplicates (Walk.occurrences (scan text).tokens)) ↔
      one.scopes = other.scopes ∧
        ¬(options.ReportsDuplicate text one.token ∧
          options.ReportsDuplicate text other.token) := by
  rw [reportsDuplicate_iff enabled unlimited one_mem,
    reportsDuplicate_iff enabled unlimited other_mem]
  have collide (meet : one.meets other) := Occurrence.mem_duplicates_iff
    (nodup_occurrences text) one_mem other_mem apart meet one_kind other_kind
  constructor
  · intro duplicate
    have meet : one.meets other := by
      rcases duplicate with here | there
      · exact Occurrence.meets_of_mem_duplicates here
      · exact Occurrence.meets_symm (Occurrence.meets_of_mem_duplicates there)
    exact ⟨(Occurrence.meets_iff.mp meet).2, (collide meet).mp duplicate⟩
  · rintro ⟨same_scopes, free⟩
    exact (collide (Occurrence.meets_iff.mpr ⟨same_name, same_scopes⟩)).mpr free

/-- Parameters of two names that are not reported are in the same scopes exactly
when neither name is valid and both stand in the same scopes. -/
theorem scopes_eq_iff {first second : Signature}
    (first_mem : first ∈ Walk.signatures (scan text).tokens)
    (second_mem : second ∈ Walk.signatures (scan text).tokens)
    (different : first.token ≠ second.token)
    (first_free : ¬options.ReportsDuplicate text first.token)
    (second_free : ¬options.ReportsDuplicate text second.token) :
    first.scopes ++ [Walk.parameterScope first.name?] =
        second.scopes ++ [Walk.parameterScope second.name?] ↔
      first.name? = none ∧ second.name? = none ∧
        first.scopes = second.scopes := by
  constructor
  · intro same
    obtain ⟨scopes_eq, name_eq⟩ := List.append_inj' same rfl
    have name_eq := Signature.name?_eq_of_parameterScope
      (List.cons.inj name_eq).1
    cases named : first.name? with
    | none => exact ⟨rfl, name_eq.symm.trans named, scopes_eq⟩
    | some name =>
        -- Two valid names that are the same in the same scopes meet.
        obtain ⟨one, one_mem, one_token, one_name, one_scopes, one_kind⟩ :=
          Walk.exists_of_name? first_mem named
        obtain ⟨other, other_mem, other_token, other_name, other_scopes,
          other_kind⟩ := Walk.exists_of_name? second_mem (name_eq ▸ named)
        have apart : one ≠ other := by
          rintro rfl
          exact different (one_token.symm.trans other_token)
        have meet : one.meets other := Occurrence.meets_iff.mpr
          ⟨one_name.trans other_name.symm,
            one_scopes.trans (scopes_eq.trans other_scopes.symm)⟩
        rw [← one_token, reportsDuplicate_iff enabled unlimited one_mem]
          at first_free
        rw [← other_token, reportsDuplicate_iff enabled unlimited other_mem]
          at second_free
        rcases Occurrence.exists_duplicate_of_mem (nodup_occurrences text)
          one_mem other_mem apart meet one_kind other_kind with here | there
        · exact absurd here first_free
        · exact absurd there second_free
  · rintro ⟨first_none, second_none, scopes_eq⟩
    rw [first_none, second_none, scopes_eq]

end Reports

/-- What is reported of duplicates are occurrences that meet earlier ones. Of
two parameters of one name that belong to two names which are not reported, one
is reported as a duplicate of the other exactly when neither of the two names
is valid and both stand in the same scopes, unless both parameters are reported
as duplicates of an earlier one there. -/
theorem parameters_collide_iff (options : Options) (text : String)
    (severity : Severity)
    (enabled : options.duplicateDeclarations.severity? = some severity)
    (unlimited : options.Unlimited text) :
    (analyzeSource options text).diagnostics.filter
        (fun diagnostic => diagnostic.code == .duplicateDeclaration) =
      (Occurrence.duplicates (Walk.occurrences (scan text).tokens)).map
        (fun pair => pair.1.report severity pair.2) ∧
    ∀ first ∈ Walk.signatures (scan text).tokens,
      ∀ second ∈ Walk.signatures (scan text).tokens,
        first.token ≠ second.token →
        ¬options.ReportsDuplicate text first.token →
        ¬options.ReportsDuplicate text second.token →
        ∀ one ∈ first.parameters, ∀ other ∈ second.parameters,
          one ≠ other → one.name = other.name →
          (((one, other) ∈
                Occurrence.duplicates (Walk.occurrences (scan text).tokens) ∨
              (other, one) ∈
                Occurrence.duplicates (Walk.occurrences (scan text).tokens)) ↔
            first.name? = none ∧ second.name? = none ∧
              first.scopes = second.scopes ∧
              ¬(options.ReportsDuplicate text one.token ∧
                options.ReportsDuplicate text other.token)) := by
  refine ⟨filter_diagnostics_duplicate enabled unlimited, ?_⟩
  intro first first_mem second second_mem different first_free second_free
    one one_mem other other_mem apart same_name
  obtain ⟨one_in, one_kind, one_scopes⟩ :=
    Walk.of_mem_parameters first_mem one_mem
  obtain ⟨other_in, other_kind, other_scopes⟩ :=
    Walk.of_mem_parameters second_mem other_mem
  have kinds : one.kind ≠ .namespace ∧ other.kind ≠ .namespace := by
    rw [one_kind, other_kind]
    decide
  rw [mem_duplicates_iff_scopes enabled unlimited one_in other_in apart same_name
    kinds.1 kinds.2, one_scopes, other_scopes, scopes_eq_iff enabled unlimited
    first_mem second_mem different first_free second_free]
  simp only [and_assoc]

def numberedPorts : String :=
  "port 1(x: U8)\nport 2(x: U8)"

def numberedParameter (row : Nat) : Occurrence where
  token := { line := row, column := 7, text := "x", kind := .nil }
  kind := .parameter
  modifiers := {}
  scopes := ["<params>"]

def numberedPort (row : Nat) (number : String) : Signature where
  token := { line := row, column := 5, text := number, kind := .number }
  scopes := []
  parameters := [numberedParameter row]

theorem analysis_numberedPorts :
    Options.Unlimited {} numberedPorts ∧
    Walk.signatures (scan numberedPorts).tokens =
      [numberedPort 0 "1", numberedPort 1 "2"] ∧
    Occurrence.duplicates (Walk.occurrences (scan numberedPorts).tokens) =
      [(numberedParameter 1, numberedParameter 0)] ∧
    ∀ token ∈ [(numberedPort 0 "1").token, (numberedPort 1 "2").token,
        (numberedParameter 0).token],
      ¬Options.ReportsDuplicate {} numberedPorts token := by
  decide +kernel

theorem parameters_collide_iff_numberedPorts :
    Options.Unlimited {} numberedPorts ∧
    Walk.signatures (scan numberedPorts).tokens =
      [numberedPort 0 "1", numberedPort 1 "2"] ∧
    ((numberedParameter 0, numberedParameter 1) ∈
        Occurrence.duplicates (Walk.occurrences (scan numberedPorts).tokens) ∨
      (numberedParameter 1, numberedParameter 0) ∈
        Occurrence.duplicates (Walk.occurrences (scan numberedPorts).tokens)) := by
  obtain ⟨unlimited, ports, -, unreported⟩ := analysis_numberedPorts
  refine ⟨unlimited, ports, ?_⟩
  have collide := (parameters_collide_iff {} numberedPorts .warning rfl
    unlimited).2 (numberedPort 0 "1") (by rw [ports]; decide)
    (numberedPort 1 "2") (by rw [ports]; decide) (by decide)
    (unreported _ (by decide)) (unreported _ (by decide)) (numberedParameter 0)
    (by decide) (numberedParameter 1) (by decide) (by decide) rfl
  exact collide.mpr ⟨by decide, by decide, rfl,
    fun reported => unreported _ (by decide) reported.1⟩

/-- Parameters of names that are not reported can be duplicates. -/
theorem parameters_not_apart :
    ¬∀ text, Options.Unlimited {} text →
      ∀ first ∈ Walk.signatures (scan text).tokens,
        ∀ second ∈ Walk.signatures (scan text).tokens,
          first.token ≠ second.token →
          ¬Options.ReportsDuplicate {} text first.token →
          ¬Options.ReportsDuplicate {} text second.token →
          ∀ one ∈ first.parameters, ∀ other ∈ second.parameters,
            one ≠ other → one.name = other.name →
            (one, other) ∉ Occurrence.duplicates
                (Walk.occurrences (scan text).tokens) ∧
              (other, one) ∉ Occurrence.duplicates
                (Walk.occurrences (scan text).tokens) := by
  obtain ⟨unlimited, ports, duplicates, unreported⟩ := analysis_numberedPorts
  intro apart
  have free := apart numberedPorts unlimited (numberedPort 0 "1")
    (by rw [ports]; decide) (numberedPort 1 "2") (by rw [ports]; decide)
    (by decide) (unreported _ (by decide)) (unreported _ (by decide))
    (numberedParameter 0) (by decide) (numberedParameter 1) (by decide)
    (by decide) rfl
  rw [duplicates] at free
  exact free.2 List.mem_cons_self

end ComponentLang
