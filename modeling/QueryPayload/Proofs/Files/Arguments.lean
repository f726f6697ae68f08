import Mathlib.Data.List.Forall2
import Mathlib.Tactic.Lemma
import QueryPayload.Proofs.Files.Extension

/-!
# The arguments of a scan

Where every argument means a file or nothing, each of them comes to one thing: a file to load, a
file that is left out, or an error.  A file that is left out at first and loaded in the end, because
it is the only argument, moves from one account to another.

## Main definitions

* `FileView.FileOrNothing` — a path means a file, or it means nothing.
* `FileView.Finds` — what a scan makes of such a path.
* `FileView.AccountsFor` — what a scan says accounts for its arguments.

## Main results

* `Finding.account` — everything met is in one account.
* `FileTree.fileOrNothing_view` — in a tree, what a path means decides what a walk meets.
* `FileView.findings_of_fileOrNothing` — there is one finding for each argument.
* `FileView.scan_of_onlyFile`, `FileView.scan_of_found` — a scan loads its only argument, or keeps
  what it has found.
* `FileView.scan_accounts` — a scan accounts for its arguments.
-/

set_option relaxedAutoImplicit false
set_option autoImplicit false

namespace QueryPayload

/-! ## Accounts -/

namespace Finding

/-- Whether something met is no file. -/
def isNonFile : Finding → Bool
  | .nonFile _ => true
  | _ => false

/-- Something met is in one account. -/
lemma account_one (f : Finding) :
    (if f.file?.isSome then 1 else 0) + (if f.isSkipped then 1 else 0) +
      (if f.error?.isSome then 1 else 0) + (if f.isNonFile then 1 else 0) = 1 := by
  cases f <;> rfl

/-- **Everything met is in one account**: the files to load, those left out, the errors, and what is
no file. -/
theorem account (findings : List Finding) :
    (findings.filterMap file?).length + findings.countP isSkipped +
      (findings.filterMap error?).length + findings.countP isNonFile = findings.length := by
  induction findings with
  | nil => rfl
  | cons f fs ih =>
    have hone := account_one f
    simp only [List.length_filterMap_eq_countP, List.countP_cons, List.length_cons] at ih ⊢
    omega

end Finding

/-! ## Arguments -/

namespace FileView

/-- A path means a file, and a walk meets just that; or it means nothing, and a walk meets just one
error. -/
inductive FileOrNothing (v : FileView) (path : String) : Prop where
  | file (hfile : v.isFile path = true) (hwalk : v.walk path = [.ok ⟨path, true⟩])
  | nothing (e : WalkError) (hfile : v.isFile path = false) (hwalk : v.walk path = [.error e])

end FileView

namespace FileTree

/-- **In a tree, what a path means decides what a walk meets**: a path that means a file is all that
is met, and a path that means nothing is met with one error. -/
theorem fileOrNothing_view {t : FileTree} {path : String}
    (h : t.isFile path = true ∨ ∃ e, t.resolve path = .error e) : t.view.FileOrNothing path := by
  cases hresolve : t.resolve path with
  | error e =>
    refine .nothing (.unreachable path e) ?_ ?_
    · simp only [view, isFile, hresolve]
    · simp only [view, walk, enter, hresolve]
  | ok s =>
    have hfile : t.isFile path = true := h.resolve_right fun ⟨e, he⟩ => by
      rw [hresolve] at he
      cases he
    refine .file hfile ?_
    rw [isFile, hresolve] at hfile
    cases hnode : s.node with
    | file => simp only [view, walk, enter, hresolve, List.find?_nil, hnode, Visit.below]
    | _ => simp [hnode, FileNode.isFile] at hfile

end FileTree

/-! ## Findings -/

namespace FileView

variable {v : FileView} {extensions arguments : List String} {path : String}

/-- What a scan makes of a path that means a file or nothing. -/
inductive Finds (v : FileView) (extensions : List String) (path : String) : Finding → Prop where
  | unvisited (e : WalkError) (hfile : v.isFile path = false) :
    Finds v extensions path (.unvisited path e)
  | otherFile (hfile : v.isFile path = true) (hext : hasExtension extensions path = false) :
    Finds v extensions path (.otherFile path)
  | found (absolute : String) (hfile : v.isFile path = true)
    (hext : hasExtension extensions path = true) (hresolve : v.resolve path = .ok absolute) :
    Finds v extensions path (.found path absolute)
  | unresolved (e : FileError) (hfile : v.isFile path = true)
    (hext : hasExtension extensions path = true) (hresolve : v.resolve path = .error e) :
    Finds v extensions path (.unresolved path e)

/-- There is one finding for a path that means a file or nothing. -/
lemma exists_finding (extensions : List String) (h : v.FileOrNothing path) :
    ∃ finding, (v.walk path).map (Finding.of v extensions path) = [finding] ∧
      v.Finds extensions path finding := by
  cases h with
  | nothing e hfile hwalk =>
    rw [hwalk]
    exact ⟨_, rfl, .unvisited e hfile⟩
  | file hfile hwalk =>
    rw [hwalk, List.map_singleton]
    refine ⟨_, rfl, ?_⟩
    cases hext : hasExtension extensions path with
    | false =>
      simp only [Finding.of, hext]
      exact .otherFile hfile hext
    | true =>
      cases hresolve : v.resolve path with
      | ok absolute =>
        simp only [Finding.of, hext, hresolve]
        exact .found absolute hfile hext hresolve
      | error e =>
        simp only [Finding.of, hext, hresolve]
        exact .unresolved e hfile hext hresolve

/-- **There is one finding for each argument**, in their order, if every one of them means a file or
nothing. -/
theorem findings_of_fileOrNothing (extensions : List String)
    (h : ∀ a ∈ arguments, v.FileOrNothing a) :
    List.Forall₂ (v.Finds extensions) arguments (v.findings extensions arguments) := by
  induction arguments with
  | nil => exact .nil
  | cons a arguments ih =>
    obtain ⟨ha, hrest⟩ := List.forall_mem_cons.1 h
    obtain ⟨finding, hfinding, hfinds⟩ := exists_finding extensions ha
    rw [findings, List.flatMap_cons, hfinding, List.singleton_append]
    exact .cons hfinds (ih hrest)

/-! ## Selected arguments -/

/-- Whether an argument is a file with one of the extensions, and its path can be resolved. -/
def matched (v : FileView) (extensions : List String) (a : String) : Bool :=
  v.isFile a && (v.resolve a).toOption.isSome && hasExtension extensions a

/-- Whether an argument is loaded: it is a file, its path can be resolved, and it has one of the
extensions or is the only argument. -/
def selects (v : FileView) (extensions arguments : List String) (a : String) : Bool :=
  v.isFile a && (v.resolve a).toOption.isSome && (hasExtension extensions a || arguments == [a])

/-- A path can be resolved if there is something that it resolves to. -/
lemma toOption_resolve_eq_some_iff {a file : String} :
    (v.resolve a).toOption = some file ↔ v.resolve a = .ok file := by
  cases v.resolve a <;> simp [Except.toOption]

/-- When an argument is loaded. -/
lemma selects_iff {a : String} :
    v.selects extensions arguments a = true ↔
      v.isFile a = true ∧ (∃ file, v.resolve a = .ok file) ∧
        (Wanted extensions a ∨ arguments = [a]) := by
  simp only [selects, Bool.and_eq_true, Bool.or_eq_true, Option.isSome_iff_exists,
    toOption_resolve_eq_some_iff, hasExtension_iff, beq_iff_eq, and_assoc]

/-- The files that are found are those of the matched arguments. -/
lemma files_of_finds {findings : List Finding}
    (h : List.Forall₂ (v.Finds extensions) arguments findings) :
    List.Forall₂ (fun a file => v.resolve a = .ok file)
      (arguments.filter (v.matched extensions)) (findings.filterMap Finding.file?) := by
  induction h with
  | nil => exact .nil
  | cons hfinds _ ih =>
    cases hfinds with
    | unvisited e hfile =>
      rwa [List.filter_cons_of_neg (by simp [matched, hfile])]
    | otherFile hfile hext =>
      rwa [List.filter_cons_of_neg (by simp [matched, hext])]
    | found absolute hfile hext hresolve =>
      rw [List.filter_cons_of_pos (by simp [matched, hfile, hext, hresolve, Except.toOption])]
      exact .cons hresolve ih
    | unresolved e hfile hext hresolve =>
      rwa [List.filter_cons_of_neg (by simp [matched, hresolve, Except.toOption])]

/-- If there is a finding for each argument, nothing met is no file. -/
lemma countP_isNonFile_of_finds {findings : List Finding}
    (h : List.Forall₂ (v.Finds extensions) arguments findings) :
    findings.countP Finding.isNonFile = 0 := by
  induction h with
  | nil => rfl
  | cons hfinds _ ih =>
    rw [List.countP_cons_of_neg, ih]
    cases hfinds <;> exact Bool.false_ne_true

/-! ## Scans -/

/-- When an argument is the only one that can be meant. -/
lemma onlyFile?_eq_some_iff {file : String} :
    v.onlyFile? arguments = some file ↔
      ∃ a, arguments = [a] ∧ v.isFile a = true ∧ v.resolve a = .ok file := by
  fun_cases onlyFile? v arguments with
  | case1 a hfile => simp [toOption_resolve_eq_some_iff, hfile]
  | case2 a hfile => simp [hfile]
  | case3 _ hne =>
    refine iff_of_false (Option.some_ne_none file).symm ?_
    rintro ⟨a, rfl, -⟩
    exact hne a rfl

/-- If nothing is found, the only argument is loaded instead of being left out. -/
lemma scan_of_onlyFile {file : String}
    (hnone : (v.findings extensions arguments).filterMap Finding.file? = [])
    (honly : v.onlyFile? arguments = some file) :
    ∃ events, v.scan extensions arguments =
      ⟨[file], (v.findings extensions arguments).filterMap Finding.error?,
        (v.findings extensions arguments).countP Finding.isSkipped - 1, events⟩ := by
  rw [scan, hnone, honly]
  exact ⟨_, rfl⟩

/-- Otherwise a scan keeps what it has found. -/
lemma scan_of_found
    (h : (v.findings extensions arguments).filterMap Finding.file? ≠ [] ∨
      v.onlyFile? arguments = none) :
    ∃ events, v.scan extensions arguments =
      ⟨(v.findings extensions arguments).filterMap Finding.file?,
        (v.findings extensions arguments).filterMap Finding.error?,
        (v.findings extensions arguments).countP Finding.isSkipped, events⟩ := by
  rw [scan]
  cases hfiles : (v.findings extensions arguments).filterMap Finding.file? with
  | cons file files => exact ⟨_, rfl⟩
  | nil =>
    rw [h.resolve_left (not_not_intro hfiles)]
    exact ⟨_, rfl⟩

/-- If nothing is found though the only argument is a file whose path can be resolved, then it is
left out. -/
lemma eq_otherFile_of_finds {a file : String} {findings : List Finding}
    (h : List.Forall₂ (v.Finds extensions) [a] findings) (hfile : v.isFile a = true)
    (hresolve : v.resolve a = .ok file) (hnone : findings.filterMap Finding.file? = []) :
    findings = [.otherFile a] := by
  obtain ⟨finding, rest, hfinds, hrest, rfl⟩ := List.forall₂_cons_left_iff.1 h
  obtain rfl := List.forall₂_nil_left_iff.1 hrest
  cases hfinds with
  | unvisited e hmissing => rw [hfile] at hmissing; cases hmissing
  | otherFile => rfl
  | found absolute => exact absurd hnone (List.cons_ne_nil absolute [])
  | unresolved e _ _ herror => rw [hresolve] at herror; cases herror

/-- If something is found, or no argument is the only one that can be meant, then the arguments that
are selected are those that are matched. -/
lemma filter_selects_eq {findings : List Finding}
    (h : List.Forall₂ (v.Finds extensions) arguments findings)
    (hkept : findings.filterMap Finding.file? ≠ [] ∨ v.onlyFile? arguments = none) :
    arguments.filter (v.selects extensions arguments) =
      arguments.filter (v.matched extensions) := by
  refine List.filter_congr fun a _ => ?_
  by_cases hsingle : arguments = [a]
  · subst hsingle
    rw [selects, matched, beq_self_eq_true, Bool.or_true, Bool.and_true]
    cases hkept with
    | inl hfound =>
      -- the only argument is matched, or else nothing would have been found
      have hmatched : v.matched extensions a = true := by
        by_contra hnot
        have hfiles := files_of_finds h
        rw [List.filter_cons_of_neg hnot, List.filter_nil] at hfiles
        exact hfound (List.forall₂_nil_left_iff.1 hfiles)
      rw [matched, Bool.and_eq_true] at hmatched
      rw [hmatched.1, hmatched.2, Bool.and_true]
    | inr hnone =>
      rw [onlyFile?, ite_eq_right_iff] at hnone
      cases hfile : v.isFile a with
      | false => rfl
      | true => rw [hnone hfile]; rfl
  · rw [selects, matched, beq_false_of_ne hsingle, Bool.or_false]

/-- What a scan says accounts for its arguments. -/
structure AccountsFor (v : FileView) (extensions arguments : List String) (s : Scan) :
    Prop where
  /-- The files to load, those left out and the errors are as many as the arguments. -/
  total : s.files.length + s.skipped + s.errors.length = arguments.length
  /-- The files to load are those of the selected arguments, one for each and in their order, by
  their paths from the root.  An argument is selected if it is a file, its path can be resolved, and
  it ends in one of the extensions or is the only argument. -/
  selected : ∃ selected : String → Bool,
    List.Forall₂ (fun a file => v.resolve a = .ok file) (arguments.filter selected) s.files ∧
      ∀ a ∈ arguments, selected a = true ↔
        v.isFile a = true ∧ (∃ file, v.resolve a = .ok file) ∧
          (Wanted extensions a ∨ arguments = [a])

/-- **A scan accounts for every argument once**, if every argument means a file, which is then all
that a walk meets there, or nothing, where a walk meets one error.

**Proof sketch.** There is one finding for each argument (`findings_of_fileOrNothing`), and it is in
one account (`Finding.account`).  If nothing is found and the only argument is a file whose path can
be resolved, then it has been left out, for want of an extension, and is moved to the files.
Otherwise the files are those of the matched arguments (`files_of_finds`), and these are the
selected ones: the only argument is not selected without being matched. -/
theorem scan_accounts (v : FileView) (extensions arguments : List String)
    (h : ∀ a ∈ arguments, v.FileOrNothing a) :
    v.AccountsFor extensions arguments (v.scan extensions arguments) := by
  have hfinds := findings_of_fileOrNothing extensions h
  have haccount := Finding.account (v.findings extensions arguments)
  rw [countP_isNonFile_of_finds hfinds, Nat.add_zero, ← hfinds.length_eq] at haccount
  by_cases hmoved : (v.findings extensions arguments).filterMap Finding.file? = [] ∧
      ∃ file, v.onlyFile? arguments = some file
  · obtain ⟨hnone, file, honly⟩ := hmoved
    obtain ⟨events, hscan⟩ := scan_of_onlyFile hnone honly
    obtain ⟨a, rfl, hfile, hresolve⟩ := onlyFile?_eq_some_iff.1 honly
    rw [hscan, eq_otherFile_of_finds hfinds hfile hresolve hnone]
    refine ⟨rfl, v.selects extensions [a], ?_, fun _ _ => selects_iff⟩
    rw [List.filter_cons_of_pos (selects_iff.2 ⟨hfile, ⟨file, hresolve⟩, .inr rfl⟩)]
    exact .cons hresolve .nil
  · have hkept : (v.findings extensions arguments).filterMap Finding.file? ≠ [] ∨
        v.onlyFile? arguments = none := by
      rwa [not_and_or, not_exists, ← Option.eq_none_iff_forall_ne_some] at hmoved
    obtain ⟨events, hscan⟩ := scan_of_found hkept
    rw [hscan]
    refine ⟨haccount, v.selects extensions arguments, ?_, fun _ _ => selects_iff⟩
    rw [filter_selects_eq hfinds hkept]
    exact files_of_finds hfinds

/-- A directory with a few files and a link. -/
def heroTree : FileTree where
  root := .directory [("work", .directory
    [("hero.json", .file), (".json", .file), ("notes.txt", .file), ("latest", .link "hero.json")])]
  workingDirectory := ["work"]

/-- A path that means nothing, and files with and without the extension, one of them thrice. -/
def heroArguments : List String := ["lost.json", "./hero.json", ".json", "latest", "hero.json"]

/-- `scan_accounts` on files with and without the extension, and on a single one without it. -/
theorem scan_accounts_hero :
    (∀ a ∈ heroArguments, heroTree.view.FileOrNothing a) ∧
      heroTree.view.AccountsFor ["..json"] heroArguments
        (heroTree.view.scan ["..json"] heroArguments) ∧
      (∀ a ∈ ["notes.txt"], heroTree.view.FileOrNothing a) ∧
      heroTree.view.AccountsFor ["..json"] ["notes.txt"]
        (heroTree.view.scan ["..json"] ["notes.txt"]) := by
  have hlost : ∃ e, heroTree.resolve "lost.json" = .error e := by
    have hnone : (heroTree.resolve "lost.json").toOption.isNone = true := by decide +kernel
    cases hresolve : heroTree.resolve "lost.json" with
    | error e => exact ⟨e, rfl⟩
    | ok s =>
      rw [hresolve] at hnone
      cases hnone
  have hfile : ∀ a ∈ ["./hero.json", ".json", "latest", "hero.json"],
      heroTree.isFile a = true := by decide +kernel
  have hnotes : ∀ a ∈ ["notes.txt"], heroTree.isFile a = true := by decide +kernel
  have hmeans : ∀ a ∈ heroArguments, heroTree.view.FileOrNothing a :=
    List.forall_mem_cons.2 ⟨FileTree.fileOrNothing_view (.inr hlost), fun a ha =>
      FileTree.fileOrNothing_view (.inl (hfile a ha))⟩
  have hsingle : ∀ a ∈ ["notes.txt"], heroTree.view.FileOrNothing a := fun a ha =>
    FileTree.fileOrNothing_view (.inl (hnotes a ha))
  exact ⟨hmeans, scan_accounts heroTree.view ["..json"] heroArguments hmeans,
    hsingle, scan_accounts heroTree.view ["..json"] ["notes.txt"] hsingle⟩

example : (heroTree.scan ["json"] ["latest"]).files = ["/work/hero.json"] := by
  decide +kernel

end FileView

end QueryPayload
