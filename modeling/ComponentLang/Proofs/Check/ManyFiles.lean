import ComponentLang.Check.Response
import ComponentLang.Proofs.Json.Reading

namespace ComponentLang

/-! Everything in a report can be read back. -/

namespace Json

attribute [simp] Writable.null

@[simp] theorem writable_ofString (text : String) : (ofString text).Writable :=
  .string text

@[simp] theorem writable_ofNat (number : Nat) : (ofNat number).Writable :=
  .number (Lexeme.isNumberLiteral_toString number)

theorem writable_ofFields {fields : List (String × Json)}
    (values : ∀ field ∈ fields, field.2.Writable) :
    (ofFields fields).Writable := by
  refine .object (fun member among => ?_) (fun member among => ?_)
  · obtain ⟨field, -, rfl⟩ := List.mem_map.mp among
    rfl
  · obtain ⟨field, field_mem, rfl⟩ := List.mem_map.mp among
    exact values field field_mem

theorem writable_map {Part : Type} {write : Part → Json}
    (writable : ∀ part, (write part).Writable) (parts : List Part) :
    (array (parts.map write)).Writable := by
  refine .array fun item member => ?_
  obtain ⟨part, -, rfl⟩ := List.mem_map.mp member
  exact writable part

end Json

theorem Token.writable_toJson (token : Token) : token.toJson.Writable :=
  Json.writable_ofFields (by simp)

theorem Diagnostic.writable_toJson (diagnostic : Diagnostic) :
    diagnostic.toJson.Writable := by
  refine Json.writable_ofFields ?_
  cases diagnostic.suggestion <;> simp [Token.writable_toJson]

theorem Highlight.writable_legendToJson : legendToJson.Writable :=
  Json.writable_ofFields
    (by simp [Json.writable_map Json.writable_ofString])

namespace Check

theorem writable_fileToJson (tokens : Bool) (checked : Checked) :
    (fileToJson tokens checked).Writable := by
  refine Json.writable_ofFields ?_
  cases tokens <;>
    simp [Json.writable_map Diagnostic.writable_toJson,
      Json.writable_map Token.writable_toJson,
      Json.writable_map Json.writable_ofNat]

theorem writable_reportToJson (tokens : Bool) (files : List Checked) :
    (reportToJson tokens files).Writable :=
  Json.writable_ofFields
    (by simp [Highlight.writable_legendToJson,
      Json.writable_map (writable_fileToJson tokens)])

def reportedFiles (output : String) : Option (List Json) := do
  let report ← Json.read? output
  let files ← report.field? "files"
  files.items?

theorem reportedFiles_report (tokens : Bool) (files : List Checked) :
    reportedFiles (report .json tokens files) =
      some (files.map (fileToJson tokens)) := by
  have read_eq : Json.read? (report .json tokens files) =
      some (reportToJson tokens files) :=
    Json.read?_print Json.Layout.blank_indented
      (writable_reportToJson tokens files) "\n"
      Json.Lexeme.isGap_of_mem_newline
  rw [reportedFiles, read_eq]
  rfl

theorem field?_fileToJson (tokens : Bool) (checked : Checked) :
    (fileToJson tokens checked).field? "path" =
      some (.ofString checked.path) := rfl

theorem report_human_append (tokens : Bool) (front back : List Checked) :
    report .human tokens (front ++ back) =
      report .human tokens front ++ report .human tokens back := by
  simp [report, String.join_append]

/-! Reading the files. -/

/-- The answer to a check of these files, with the arguments otherwise as they
are. -/
def Arguments.answer (arguments : Arguments) (read : String → Option String)
    (input : Option String) (files : List String) : Response :=
  (Request.check { arguments with files }).respond read input

/-- Whether the options or one of the files cannot be read. The options cannot
when their file cannot, and when its text is not valid. -/
def Arguments.Unreadable (arguments : Arguments)
    (read : String → Option String) (files : List String) : Prop :=
  (∃ path, arguments.config = some path ∧
    ∀ text, read path = some text → Options.ofText? text = none) ∨
  ∃ path ∈ files, read path = none

variable {arguments : Arguments} {read : String → Option String}
  {input : Option String} {files : List String}

theorem options?_eq_none_iff :
    arguments.options? read = none ↔
      ∃ path, arguments.config = some path ∧
        ∀ text, read path = some text → Options.ofText? text = none := by
  unfold Arguments.options?
  split
  case h_1 noConfig => simp [noConfig]
  case h_2 path config_eq => simp [config_eq, Option.bind_eq_none_iff]

theorem mapM_read (readable : ∀ path ∈ files, read path ≠ none) :
    (files.mapM fun path => (read path).map fun text => (path, text)) =
      some (files.map fun path => (path, (read path).getD "")) := by
  induction files with
  | nil => rfl
  | cons path files induction =>
      obtain ⟨first, others⟩ := List.forall_mem_cons.mp readable
      obtain ⟨text, text_eq⟩ := Option.ne_none_iff_exists'.mp first
      rw [List.mapM_cons, induction others]
      simp [text_eq]

theorem mapM_read_eq_none (unreadable : ∃ path ∈ files, read path = none) :
    (files.mapM fun path => (read path).map fun text => (path, text)) =
      none := by
  induction files with
  | nil => simp at unreadable
  | cons path files induction =>
      obtain ⟨missing, member, none_eq⟩ := unreadable
      rw [List.mapM_cons]
      rcases List.mem_cons.mp member with rfl | among
      · simp [none_eq]
      · simp [induction ⟨missing, among, none_eq⟩]

theorem sources?_of_files (someFile : files ≠ []) :
    { arguments with files }.sources? read input =
      files.mapM fun path => (read path).map fun text => (path, text) := by
  rw [Arguments.sources?, if_neg (by simpa using someFile)]

def Arguments.summarize (arguments : Arguments) (files : List Checked) :
    Response where
  status := if files.any fun file => file.analysis.hasErrors then 1 else 0
  output := report (arguments.format.getD .human) arguments.tokens files

theorem answer_of_unreadable (someFile : files ≠ [])
    (unreadable : arguments.Unreadable read files) :
    arguments.answer read input files = ⟨2, ""⟩ := by
  rw [Arguments.answer, Request.respond, Arguments.respond]
  rcases unreadable with config | file
  · have noOptions : { arguments with files }.options? read = none :=
      options?_eq_none_iff.mpr config
    rw [noOptions]
    rfl
  · rw [sources?_of_files someFile, mapM_read_eq_none file]
    cases { arguments with files }.options? read <;> rfl

theorem answer_of_readable {options : Options}
    (options_eq : arguments.options? read = some options)
    (someFile : files ≠ []) (readable : ∀ path ∈ files, read path ≠ none) :
    arguments.answer read input files =
      arguments.summarize (files.map fun path =>
        Checked.ofText options path ((read path).getD "")) := by
  have kept : { arguments with files }.options? read = some options :=
    options_eq
  rw [Arguments.answer, Request.respond, Arguments.respond, kept,
    sources?_of_files someFile, mapM_read readable]
  simp [Arguments.summarize, Function.comp_def]

theorem status_summarize_append (arguments : Arguments)
    (front back : List Checked) :
    (arguments.summarize (front ++ back)).status =
      max (arguments.summarize front).status
        (arguments.summarize back).status := by
  simp only [Arguments.summarize, List.any_append]
  cases front.any _ <;> cases back.any _ <;> rfl

theorem output_summarize_append (human : arguments.format ≠ some .json)
    (front back : List Checked) :
    (arguments.summarize (front ++ back)).output =
      (arguments.summarize front).output ++
        (arguments.summarize back).output := by
  have format_eq : arguments.format.getD .human = .human := by
    cases chosen : arguments.format with
    | none => rfl
    | some format =>
        cases format with
        | human => rfl
        | json => exact absurd chosen human
  simp only [Arguments.summarize, format_eq]
  exact report_human_append arguments.tokens front back

theorem reportedFiles_summarize (json : arguments.format = some .json)
    (files : List Checked) :
    reportedFiles (arguments.summarize files).output =
      some (files.map (fileToJson arguments.tokens)) := by
  simp only [Arguments.summarize, json]
  exact reportedFiles_report arguments.tokens files

/-- A check of two lists of files. When nothing is missing, its status is the
greater of their two statuses, and its output is theirs put together: the text
on one behind that on the other or, in JSON, the reports on the files of one
behind those on the files of the other, each under the path of its file. -/
theorem answer_append (arguments : Arguments) (read : String → Option String)
    (input : Option String) {front back : List String} (someFront : front ≠ [])
    (someBack : back ≠ []) :
    (arguments.Unreadable read (front ++ back) →
      arguments.answer read input (front ++ back) = ⟨2, ""⟩) ∧
    (¬ arguments.Unreadable read (front ++ back) →
      (arguments.answer read input (front ++ back)).status =
        max (arguments.answer read input front).status
          (arguments.answer read input back).status ∧
      (arguments.format ≠ some .json →
        (arguments.answer read input (front ++ back)).output =
          (arguments.answer read input front).output ++
            (arguments.answer read input back).output) ∧
      (arguments.format = some .json →
        ∃ first second : List Json,
          reportedFiles (arguments.answer read input front).output =
            some first ∧
          reportedFiles (arguments.answer read input back).output =
            some second ∧
          reportedFiles (arguments.answer read input (front ++ back)).output =
            some (first ++ second) ∧
          first.map (·.field? "path") =
            front.map (fun path => some (.ofString path)) ∧
          second.map (·.field? "path") =
            back.map (fun path => some (.ofString path)))) := by
  have someFile : front ++ back ≠ [] := by simp [someFront]
  refine ⟨answer_of_unreadable someFile, fun readable => ?_⟩
  obtain ⟨config, texts⟩ := not_or.mp readable
  obtain ⟨options, options_eq⟩ := Option.ne_none_iff_exists'.mp
    (mt options?_eq_none_iff.mp config)
  have present : ∀ path ∈ front ++ back, read path ≠ none :=
    fun path member missing => texts ⟨path, member, missing⟩
  -- Each of the three checks sums up the same analyses of its own files.
  have answer_eq {files : List String} (someFile : files ≠ [])
      (among : ∀ path ∈ files, path ∈ front ++ back) :
      arguments.answer read input files =
        arguments.summarize (files.map fun path =>
          Checked.ofText options path ((read path).getD "")) :=
    answer_of_readable options_eq someFile fun path member =>
      present path (among path member)
  rw [answer_eq someFile fun _ => id,
    answer_eq someFront fun _ => List.mem_append_left back,
    answer_eq someBack fun _ => List.mem_append_right front, List.map_append]
  refine ⟨status_summarize_append arguments _ _,
    fun human => output_summarize_append human _ _, fun json => ?_⟩
  refine ⟨_, _, reportedFiles_summarize json _, reportedFiles_summarize json _,
    ?_, ?_, ?_⟩
  · rw [reportedFiles_summarize json, List.map_append]
  · simp [field?_fileToJson, Function.comp_def, Checked.ofText]
  · simp [field?_fileToJson, Function.comp_def, Checked.ofText]

def twoFiles : String → Option String
  | "error.fpp" => some "constant a ="
  | "warning.fpp" => some "constant b = 1\nconstant b = 2"
  | _ => none

theorem answer_append_twoFiles :
    ({} : Arguments).answer twoFiles none (["error.fpp"] ++ ["missing.fpp"]) =
      ⟨2, ""⟩ ∧
    (({} : Arguments).answer twoFiles none ["error.fpp"]).status = 1 ∧
    (({} : Arguments).answer twoFiles none ["warning.fpp"]).status = 0 ∧
    (({} : Arguments).answer twoFiles none
      (["error.fpp"] ++ ["warning.fpp"])).status = max 1 0 ∧
    (({} : Arguments).answer twoFiles none
        (["error.fpp"] ++ ["warning.fpp"])).output =
      (({} : Arguments).answer twoFiles none ["error.fpp"]).output ++
        (({} : Arguments).answer twoFiles none ["warning.fpp"]).output ∧
    ∃ reports : List Json,
      reportedFiles (({ format := some .json } : Arguments).answer twoFiles none
        (["error.fpp"] ++ ["warning.fpp"])).output = some reports ∧
      reports.map (·.field? "path") =
        [some (.ofString "error.fpp"), some (.ofString "warning.fpp")] := by
  have someError : ["error.fpp"] ≠ [] := List.cons_ne_nil _ _
  have statuses :
      (({} : Arguments).answer twoFiles none ["error.fpp"]).status = 1 ∧
      (({} : Arguments).answer twoFiles none ["warning.fpp"]).status = 0 := by
    decide +kernel
  have unreadable : ({} : Arguments).Unreadable twoFiles
      (["error.fpp"] ++ ["missing.fpp"]) :=
    .inr ⟨"missing.fpp", by decide, rfl⟩
  have readable (format : Option Format) :
      ¬ ({ format } : Arguments).Unreadable twoFiles
        (["error.fpp"] ++ ["warning.fpp"]) := by
    simp [Arguments.Unreadable, twoFiles]
  have missing := (answer_append {} twoFiles none someError
    (List.cons_ne_nil "missing.fpp" [])).1 unreadable
  obtain ⟨status_eq, output_eq, -⟩ := (answer_append {} twoFiles none someError
    (List.cons_ne_nil "warning.fpp" [])).2 (readable none)
  obtain ⟨-, -, inJson⟩ := (answer_append { format := some .json } twoFiles none
    someError (List.cons_ne_nil "warning.fpp" [])).2 (readable (some .json))
  obtain ⟨first, second, -, -, whole, first_paths, second_paths⟩ := inJson rfl
  refine ⟨missing, statuses.1, statuses.2, ?_, output_eq (by decide),
    first ++ second, whole, ?_⟩
  · rw [status_eq, statuses.1, statuses.2]
  · rw [List.map_append, first_paths, second_paths]
    rfl

end Check

end ComponentLang
