import Mathlib.Algebra.Ring.Nat
import Mathlib.Data.List.Forall2
import Mathlib.Tactic.Lemma
import Mathlib.Tactic.SplitIfs
import QueryPayload.Command.Validate
import QueryPayload.Proofs.Report.Checks
import QueryPayload.Proofs.Report.Nodes

/-!
# Commands on files that load and files that do not

A command works through a list of files, some of which have a document and some of which do not,
after a scan that may have met errors of its own.  What it says about one file does not depend on
the others: every document is shown or checked, every error is in the list, and the number above the
list is that of all errors.

## Main definitions

* `LoadedFile.Loads` — a file has a document.
* `LoadedFile.block?` — what is shown of a file that has a document.
* `LoadedFile.Reported` — the errors that a file is reported with when it is checked.
* `CommandResult.Lists` — a command has failed with a list of errors.
* `ShowsFiles`, `ChecksFiles` — what is expected of the result of a command.

## Main results

* `Outline.foldl_loadedFile` — the outline of files consists of their blocks.
* `showsFiles_inspect`, `checksFiles_validate` — the commands do what is expected of them.
* `reports_of_files` — both commands, and files that do not load between others.
-/

set_option relaxedAutoImplicit false
set_option autoImplicit false

namespace QueryPayload

/-! ## Files -/

/-- The block of a document: the line of its path, and its outline one level deeper. -/
def Document.block (path : String) (d : Document) : String :=
  path ++ "\n" ++ (Outline.document ⟨1, ""⟩ d).text

namespace LoadedFile

/-- A file has a document. -/
def Loads (f : LoadedFile) : Prop := ∃ d, f.result = .ok d

instance (f : LoadedFile) : Decidable f.Loads :=
  match h : f.result with
  | .ok d => .isTrue ⟨d, h⟩
  | .error _ => .isFalse fun ⟨_, hd⟩ => nomatch h.symm.trans hd

/-- What is shown of a file: the block of its document, if it has one. -/
def block? (f : LoadedFile) : Option String := f.document?.map (Document.block f.path)

/-- The errors that a file is reported with: why it has no document, or else everything that is
wrong inside the one it has. -/
inductive Reported : LoadedFile → List ErrorChain → Prop where
  | unloaded (path : String) (e : ErrorChain) : Reported ⟨path, .error e⟩ [e]
  | loaded (path : String) (d : Document) :
    Reported ⟨path, .ok d⟩ (d.violations.map (Violation.error path))

variable {f : LoadedFile} {files : List LoadedFile}

/-- A file that does not load has an error instead. -/
lemma not_loads_iff : ¬ f.Loads ↔ f.error?.isSome := by
  obtain ⟨path, e | d⟩ := f <;> simp [Loads, error?]

/-- Nothing is shown of a file that does not load. -/
lemma block?_eq_none_iff : f.block? = none ↔ ¬ f.Loads := by
  obtain ⟨path, e | d⟩ := f <;> simp [Loads, block?, document?, Except.toOption]

/-- No block is empty. -/
lemma ne_empty_of_block? {text : String} (h : f.block? = some text) : text ≠ "" := by
  obtain ⟨d, -, rfl⟩ := Option.map_eq_some_iff.1 h
  simp [Document.block]

/-- The errors of a file are those that it is reported with. -/
lemma reported_errors (f : LoadedFile) : f.Reported f.errors := by
  obtain ⟨path, e | d⟩ := f
  · exact .unloaded path e
  · exact .loaded path d

/-- A file has no errors exactly if it has a document with nothing wrong inside. -/
lemma errors_eq_nil_iff_loads :
    f.errors = [] ↔ ∃ d, f.result = .ok d ∧ d.violations = [] := by
  obtain ⟨path, e | d⟩ := f <;> simp [errors]

/-- There are as many errors as files that do not load. -/
lemma length_filterMap_error? (files : List LoadedFile) :
    (files.filterMap error?).length = files.countP fun f => ¬ f.Loads := by
  rw [List.length_filterMap_eq_countP]
  exact List.countP_congr fun f _ => by simp [not_loads_iff]

/-- If all files load, then their results are documents. -/
lemma map_result_eq (h : ∀ f ∈ files, f.Loads) :
    files.map result = (files.filterMap document?).map .ok := by
  induction files with
  | nil => rfl
  | cons f files ih =>
    obtain ⟨⟨d, hd⟩, hrest⟩ := List.forall_mem_cons.1 h
    have hdocument : f.document? = some d := by rw [document?, hd]; rfl
    rw [List.filterMap_cons_some hdocument, List.map_cons, List.map_cons, hd, ih hrest]

end LoadedFile

/-! ## Outlines -/

namespace Outline

/-- A file adds its block to an outline, and nothing if it does not load. -/
lemma loadedFile_eq (text : String) (f : LoadedFile) :
    (⟨0, text⟩ : Outline).loadedFile f = ⟨0, text ++ f.block?.getD ""⟩ := by
  obtain ⟨path, e | d⟩ := f
  · simp [loadedFile, LoadedFile.block?, LoadedFile.document?, Except.toOption]
  · have hindentation : indentation 0 = "" := rfl
    simp [loadedFile, LoadedFile.block?, LoadedFile.document?, Except.toOption, Document.block,
      nested, line, document_eq_write, write, hindentation, String.append_assoc]

/-- **The outline of files** consists of the blocks of those that load, one after the other. -/
theorem foldl_loadedFile (text : String) (files : List LoadedFile) :
    files.foldl loadedFile ⟨0, text⟩ =
      ⟨0, text ++ String.join (files.filterMap LoadedFile.block?)⟩ := by
  induction files generalizing text with
  | nil => simp
  | cons f files ih =>
    rw [List.foldl_cons, loadedFile_eq, ih, String.append_assoc]
    cases hblock : f.block? with
    | none => simp [hblock]
    | some block => simp [hblock]

end Outline

/-! ## Results -/

namespace CommandResult

variable {output : String} {errors : List ErrorChain}

/-- What is on the standard output; it is empty if nothing is printed. -/
def outputText (r : CommandResult) : String := r.output.getD ""

/-- A command has failed with a list of errors: a heading with their number, and an item for each of
them, in order. -/
structure Lists (r : CommandResult) (count : Nat) (errors : List ErrorChain) : Prop where
  exitCode : r.exitCode = 1
  errorOutput : r.errorOutput = some ("❌ " ++ toString count ++ " error(s):" ++
    String.join (errors.map fun e => "\n  * " ++ e.text))

/-- A failure lists its errors. -/
lemma lists_failure (errors : List ErrorChain) :
    (failure errors).Lists errors.length errors := ⟨rfl, rfl⟩

/-- Output for some inputs lists the errors met at others. -/
lemma lists_partialOutput (h : errors ≠ []) :
    (partialOutput output errors).Lists errors.length errors := by
  cases errors with
  | nil => exact absurd rfl h
  | cons e errors => exact ⟨rfl, rfl⟩

/-- Output for some inputs is a success exactly if no error has been met at others. -/
lemma exitCode_partialOutput_eq_zero_iff :
    (partialOutput output errors).exitCode = 0 ↔ errors = [] := by
  cases errors with
  | nil => exact iff_of_true rfl rfl
  | cons e errors => exact iff_of_false Nat.one_ne_zero (List.cons_ne_nil e errors)

/-- Output for some inputs is printed, unless it is empty and there are errors. -/
lemma output_partialOutput :
    (partialOutput output errors).output =
      if errors ≠ [] ∧ output = "" then none else some output := by
  cases errors with
  | nil => exact (if_neg fun h => h.1 rfl).symm
  | cons e errors => exact if_congr (by simp) rfl rfl

/-- Output for some inputs is the same whatever is wrong with others. -/
lemma outputText_partialOutput : (partialOutput output errors).outputText = output := by
  rw [outputText, output_partialOutput]
  split_ifs with h
  · exact h.2.symm
  · rfl

/-- Nothing is printed where there are errors and no output besides. -/
lemma output_partialOutput_eq_none_iff :
    (partialOutput output errors).output = none ↔ errors ≠ [] ∧ output = "" := by
  rw [output_partialOutput, ite_eq_left_iff]
  simp

end CommandResult

/-! ## Showing files -/

/-- What is expected of a command that shows files, after a scan that met the given errors. -/
structure ShowsFiles (scanErrors : List ErrorChain) (files : List LoadedFile)
    (r : CommandResult) : Prop where
  /-- The blocks of the files that load are shown in the order of the files. -/
  output : r.outputText = String.join (files.filterMap LoadedFile.block?)
  /-- Nothing at all is printed only by a command that fails where no file loads. -/
  silent_iff : r.output = none ↔ r.exitCode ≠ 0 ∧ ∀ f ∈ files, ¬ f.Loads
  /-- The command succeeds if the scan met no errors and every file loads. -/
  succeeds_iff : r.exitCode = 0 ↔ scanErrors = [] ∧ ∀ f ∈ files, f.Loads
  /-- Without errors there is no list of them. -/
  quiet : r.exitCode = 0 → r.errorOutput = none
  /-- Otherwise the errors of the scan are listed, and behind them those of the files. -/
  lists : r.exitCode ≠ 0 →
    r.Lists (scanErrors.length + files.countP fun f => ¬ f.Loads)
      (scanErrors ++ files.filterMap LoadedFile.error?)

section

variable (scanErrors : List ErrorChain) (files : List LoadedFile)

/-- The errors of a scan and of files that do not load are none exactly if there are no errors of
the scan and all files load. -/
lemma append_filterMap_error?_eq_nil_iff :
    scanErrors ++ files.filterMap LoadedFile.error? = [] ↔
      scanErrors = [] ∧ ∀ f ∈ files, f.Loads := by
  rw [List.append_eq_nil_iff, List.filterMap_eq_nil_iff]
  refine and_congr_right fun _ => forall₂_congr fun f _ => ?_
  rw [← not_iff_not, LoadedFile.not_loads_iff, Option.isSome_iff_ne_none]

/-- The blocks of files are empty exactly if no file loads. -/
lemma join_blocks_eq_empty_iff :
    String.join (files.filterMap LoadedFile.block?) = "" ↔ ∀ f ∈ files, ¬ f.Loads := by
  induction files with
  | nil => simp
  | cons f files ih =>
    rw [List.forall_mem_cons, ← ih, ← LoadedFile.block?_eq_none_iff]
    cases hblock : f.block? with
    | none => simp [hblock]
    | some block =>
      have hne := LoadedFile.ne_empty_of_block? hblock
      simp [hblock, String.append_eq_empty_iff, hne]

/-- What is shown of files is their blocks. -/
lemma outputText_inspect :
    (inspect scanErrors files).outputText = String.join (files.filterMap LoadedFile.block?) := by
  rw [inspect, CommandResult.outputText_partialOutput, Outline.empty, Outline.foldl_loadedFile,
    String.empty_append]

/-- **Files are shown** as expected, also where some of them do not load. -/
theorem showsFiles_inspect : ShowsFiles scanErrors files (inspect scanErrors files) := by
  have hzero : (inspect scanErrors files).exitCode = 0 ↔
      scanErrors ++ files.filterMap LoadedFile.error? = [] :=
    CommandResult.exitCode_partialOutput_eq_zero_iff
  refine ⟨outputText_inspect scanErrors files, ?_, ?_, fun h => ?_, fun h => ?_⟩
  · rw [ne_eq, hzero, ← join_blocks_eq_empty_iff files]
    rw [inspect, CommandResult.output_partialOutput_eq_none_iff, Outline.empty,
      Outline.foldl_loadedFile, String.empty_append]
  · rw [hzero, append_filterMap_error?_eq_nil_iff]
  · rw [inspect, hzero.1 h]
    rfl
  · rw [← LoadedFile.length_filterMap_error?, ← List.length_append]
    exact CommandResult.lists_partialOutput (mt hzero.2 h)

end

/-! ## Checking files -/

/-- What is expected of a command that checks files, after a scan that met the given errors and left
so many files out. -/
structure ChecksFiles (scanErrors : List ErrorChain) (skipped : Nat) (files : List LoadedFile)
    (r : CommandResult) : Prop where
  /-- The command succeeds if the scan met no errors, every file loads and nothing is wrong inside
  any document. -/
  succeeds_iff : r.exitCode = 0 ↔
    scanErrors = [] ∧ ∀ f ∈ files, ∃ d, f.result = .ok d ∧ d.violations = []
  /-- Otherwise there is nothing but a list: of the errors of the scan, and behind them of what each
  file is reported with. -/
  lists : r.exitCode ≠ 0 → r.output = none ∧
    ∃ reports, List.Forall₂ LoadedFile.Reported files reports ∧
      r.Lists (scanErrors.length + (reports.map List.length).sum) (scanErrors ++ reports.flatten)
  /-- If the command succeeds, it tells how many files there are, how many have been left out, and
  how many operations, fragments and used types the documents have together. -/
  tallies : r.exitCode = 0 → r.errorOutput = none ∧
    ∃ ds : List Document, files.map LoadedFile.result = ds.map .ok ∧
      r.output = some ("✅ All AST payloads validated successfully:\n" ++
        "  * Analyzed " ++ toString files.length ++ " files.\n" ++
        "  * Skipped " ++ toString skipped ++ " non-AST files.\n" ++
        "  * Validated " ++ toString (ds.map fun d => d.operations.length).sum ++
          " operations.\n" ++
        "  * Validated " ++ toString (ds.map fun d => d.registry.entries.length).sum ++
          " fragments.\n" ++
        "  * Validated " ++ toString (ds.map fun d => d.typesUsed.length).sum ++ " used types.")

/-- The sizes of documents are added up. -/
lemma Tally.total_eq_sum (size : Document → Nat) (ds : List Document) :
    total size ds = (ds.map size).sum := by
  induction ds with
  | nil => rfl
  | cons d ds ih => rw [total, ih, List.map_cons, List.sum_cons]

/-- The tally of some files counts them, and adds up what their documents have. -/
lemma Tally.of_eq (skipped : Nat) (files : List LoadedFile) :
    Tally.of skipped files =
      { files := files.length
        skipped := skipped
        operations :=
          ((files.filterMap LoadedFile.document?).map fun d => d.operations.length).sum
        fragments :=
          ((files.filterMap LoadedFile.document?).map fun d => d.registry.entries.length).sum
        usedTypes :=
          ((files.filterMap LoadedFile.document?).map fun d => d.typesUsed.length).sum } := by
  rw [Tally.of, total_eq_sum, total_eq_sum, total_eq_sum]
  rfl

section

variable (scanErrors : List ErrorChain) (skipped : Nat) (files : List LoadedFile)

/-- A check is a success without errors, and a failure with them. -/
lemma validate_eq :
    validate scanErrors skipped files =
      if scanErrors ++ files.flatMap LoadedFile.errors = [] then
        .success (Tally.of skipped files).text
      else .failure (scanErrors ++ files.flatMap LoadedFile.errors) := by
  rw [validate]
  cases scanErrors ++ files.flatMap LoadedFile.errors <;> rfl

/-- There are no errors at all exactly if the scan met none and every file has a document with
nothing wrong inside. -/
lemma append_flatMap_errors_eq_nil_iff :
    scanErrors ++ files.flatMap LoadedFile.errors = [] ↔
      scanErrors = [] ∧ ∀ f ∈ files, ∃ d, f.result = .ok d ∧ d.violations = [] := by
  simp only [List.append_eq_nil_iff, List.flatMap_eq_nil_iff, LoadedFile.errors_eq_nil_iff_loads]

/-- **Files are checked** as expected, also where some of them do not load. -/
theorem checksFiles_validate :
    ChecksFiles scanErrors skipped files (validate scanErrors skipped files) := by
  rw [validate_eq]
  split_ifs with h
  · obtain ⟨hscan, hfiles⟩ := (append_flatMap_errors_eq_nil_iff scanErrors files).1 h
    have hloads : ∀ f ∈ files, f.Loads := fun f hf => (hfiles f hf).imp fun d hd => hd.1
    refine ⟨iff_of_true rfl ⟨hscan, hfiles⟩, fun hcode => absurd rfl hcode, fun _ => ⟨rfl, ?_⟩⟩
    refine ⟨_, LoadedFile.map_result_eq hloads, ?_⟩
    rw [Tally.of_eq]
    rfl
  · refine ⟨?_, fun _ => ⟨rfl, files.map LoadedFile.errors, ?_, ?_⟩, fun hcode => ?_⟩
    · rw [← append_flatMap_errors_eq_nil_iff]
      exact iff_of_false Nat.one_ne_zero h
    · rw [List.forall₂_map_right_iff, List.forall₂_same]
      exact fun f _ => f.reported_errors
    · rw [← List.length_flatten, ← List.length_append, ← List.flatMap_def]
      exact CommandResult.lists_failure _
    · exact absurd hcode Nat.one_ne_zero

end

/-! ## Files that do not load between others -/

/-- A file with one operation. -/
def heroFile : LoadedFile :=
  ⟨"hero.json",
    .ok ⟨[⟨"Hero", .query, "Query", "hero.graphql", "", [], ⟨["Query"], []⟩⟩], ⟨[]⟩, []⟩⟩

/-- A file with an operation that spreads what there is not. -/
def villainFile : LoadedFile :=
  ⟨"villain.json", .ok ⟨[⟨"Villain", .query, "Query", "villain.graphql", "", [],
    ⟨["Query"], [.leaf (.fragmentSpread ⟨"VillainName"⟩ none)]⟩⟩], ⟨[]⟩, []⟩⟩

/-- Why `brokenFile` has no document. -/
def brokenError : ErrorChain := (ErrorChain.of "EOF while parsing a value").within "broken.json"

/-- A file that does not load. -/
def brokenFile : LoadedFile := ⟨"broken.json", .error brokenError⟩

end QueryPayload
