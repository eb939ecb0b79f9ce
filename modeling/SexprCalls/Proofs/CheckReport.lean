import Mathlib.Data.List.Forall2
import SexprCalls.CommandLine.Run
import SexprCalls.Proofs.EntryPaths
import SexprCalls.Proofs.OutputShape

/-!
# The report of a check

A check looks up its targets, compiles the files that they stand for, and reports on
each file and on their number.  Emission reads and compiles a single file.  The two
ask the same of a path, so that a file passes the check exactly if it can be
emitted, and fails it with the same message.
-/

namespace SexprCalls

/-- The files that a target stands for in a file system: the target itself, or the
source files directly in it, in the order of their names. -/
inductive FileSystem.Covers (system : FileSystem) (target : Bytes) :
    List Bytes → Prop
  | file {node : FileTree} :
      system.resolve target = .ok node →
      node.isDirectory = false →
      Covers system target [target]
  | directory {entries : List (Bytes × FileTree)} {names : List Bytes} :
      system.resolve target = .ok (.directory entries) →
      names.Pairwise (· ≤ ·) →
      names.Perm
        ((entries.filter fun entry =>
          !entry.2.isDirectory &&
            CommandLine.Request.namesSource entry.1).map Prod.fst) →
      Covers system target (names.map (Path.entry target))

namespace CommandLine

/-! ## One file -/

section File

variable (compiler : Compiler) (files : Files) (path : Bytes)

/-- How the compilation of a file ends. -/
def compileResult : Except (Fault Error) Unit :=
  (compiler.compileFile files path).2.map fun _ => ()

/-- The error with which the compilation of a file ends. -/
def fileError? : Option Error :=
  match compileResult compiler files path with
  | .error (.error error) => some error
  | _ => none

variable {compiler files path}

theorem compileResult_of_unreadable
    {problem : FileError} (unreadable : files.contents path = .error problem) :
    compileResult compiler files path =
      .error (.error (.unreadable path problem)) := by
  rw [compileResult, Compiler.compileFile, unreadable]
  rfl

theorem compileResult_of_contents
    {source : Bytes} (readable : files.contents path = .ok source) :
    compileResult compiler files path =
      (compiler.run path source).2.map fun _ => () := by
  rw [compileResult, Compiler.compileFile, readable]
  change ((compiler.run path source).2.map Compilation.output).map _ = _
  cases (compiler.run path source).2 <;> rfl

theorem compileResult_ne_crash :
    compileResult compiler files path ≠ .error .crash := by
  cases contents : files.contents path with
  | error problem =>
      rw [compileResult_of_unreadable contents]
      intro same
      cases same
  | ok source =>
      rw [compileResult_of_contents contents]
      intro same
      rcases compiler.run_cases path source with
        ⟨_, run⟩ | ⟨_, run⟩ | ⟨_, run⟩ | ⟨_, run⟩
      all_goals
        rw [run] at same
        cases same

/-- Emission ends as the compilation of the file does; a dash names no file. -/
theorem emitFile_result
    (surroundings : Surroundings) (options : Options)
    (named : path ≠ [dash]) :
    (emitFile surroundings options path).result =
      match fileError? options.compiler surroundings.files path with
      | none => .ok ()
      | some error => .error (.error (.compilation error)) := by
  rw [emitFile, Surroundings.source, if_neg named, fileError?]
  cases contents : surroundings.files.contents path with
  | error problem =>
      rw [compileResult_of_unreadable contents]
      rfl
  | ok source =>
      rw [compileResult_of_contents contents]
      simp only [showCompilation]
      rcases options.compiler.run_cases path source with
        ⟨_, run⟩ | ⟨_, run⟩ | ⟨_, run⟩ | ⟨_, run⟩
      all_goals
        rw [run]
        rfl

end File

/-! ## The files of the targets -/

/-- The names of a listing are in order. -/
theorem listing_pairwise (entries : List (Bytes × FileTree)) :
    (FileTree.listing entries).Pairwise fun first second =>
      first.1 ≤ second.1 := by
  have transitive :
      ∀ first second third : Bytes × Bool,
        decide (first.1 ≤ second.1) = true →
        decide (second.1 ≤ third.1) = true →
        decide (first.1 ≤ third.1) = true := by
    intro first second third
    simp only [decide_eq_true_eq]
    exact List.le_trans
  have total :
      ∀ first second : Bytes × Bool,
        (decide (first.1 ≤ second.1) || decide (second.1 ≤ first.1)) =
          true := by
    intro first second
    simp only [Bool.or_eq_true, decide_eq_true_eq]
    exact List.le_total first.1 second.1
  have sorted := List.pairwise_mergeSort transitive total
    (entries.map fun entry => (entry.1, entry.2.isDirectory))
  simpa [FileTree.listing] using sorted

/-- Whether an entry of a listing is a source file. -/
def isSource (entry : Bytes × Bool) : Bool :=
  !entry.2 && Request.namesSource entry.1

theorem sourcesIn_eq (directory : Bytes) (entries : List (Bytes × Bool)) :
    sourcesIn directory entries =
      ((entries.filter isSource).map Prod.fst).map (Path.entry directory) := by
  rw [sourcesIn, List.map_map]
  rfl

theorem perm_listing (entries : List (Bytes × FileTree)) :
    (((FileTree.listing entries).filter isSource).map Prod.fst).Perm
      ((entries.filter fun entry =>
        !entry.2.isDirectory && Request.namesSource entry.1).map Prod.fst) := by
  have sorted :
      (FileTree.listing entries).Perm
        (entries.map fun entry => (entry.1, entry.2.isDirectory)) :=
    List.mergeSort_perm _ _
  have kept := (sorted.filter isSource).map Prod.fst
  rw [List.filter_map, List.map_map] at kept
  exact kept

/-- The path of a source file in a directory leads to the bytes of the file. -/
theorem contents_entry
    {system : FileSystem} {directory name : Bytes} {node : FileTree}
    {entries : List (Bytes × FileTree)}
    (resolved : system.resolve directory = .ok (.directory entries))
    (found : entries.lookup name = some node)
    (source : Request.namesSource name = true)
    (noSlash : Path.slash ∉ name) (valid : 0 ∉ name) :
    system.files.contents (Path.entry directory name) =
      node.contentsAt (Path.entry directory name) := by
  have moves : ¬ Path.Stays name := by
    rintro (rfl | rfl)
    · exact absurd source (by decide)
    · exact absurd source (by decide)
  have down : name ≠ Path.upDots := by
    rintro rfl
    exact absurd source (by decide)
  simp [FileSystem.files,
    FileSystem.resolve_entry resolved found moves down noSlash valid]

/-- A target that can be looked at stands for the files that it covers. -/
theorem exists_covers
    {system : FileSystem} {node : FileTree} {target : Bytes}
    (accessible : system.resolve target = .ok node) :
    ∃ found, targetFiles system.files target = .ok found ∧
      system.Covers target found := by
  cases node with
  | file _ | locked =>
      refine ⟨[target], ?_, .file accessible rfl⟩
      simp [targetFiles, FileSystem.files, accessible]
  | directory entries =>
      refine ⟨sourcesIn target (FileTree.listing entries), ?_, ?_⟩
      · simp [targetFiles, FileSystem.files, accessible]
      · rw [sourcesIn_eq]
        refine .directory accessible ?_ (perm_listing entries)
        exact ((listing_pairwise entries).sublist
          List.filter_sublist).map _ fun _ _ order => order

theorem exists_forall₂_covers
    {system : FileSystem} {targets : List Bytes}
    (accessible : ∀ target ∈ targets, ∃ node,
      system.resolve target = .ok node) :
    ∃ found : List (List Bytes),
      List.Forall₂ system.Covers targets found ∧
        collect system.files targets = .ok found.flatten := by
  induction targets with
  | nil =>
      exact ⟨[], .nil, rfl⟩
  | cons target rest inductionHypothesis =>
      obtain ⟨⟨node, first⟩, others⟩ := List.forall_mem_cons.mp accessible
      obtain ⟨files, targetFound, covered⟩ := exists_covers first
      obtain ⟨found, restCovered, collected⟩ := inductionHypothesis others
      refine ⟨files :: found, .cons covered restCovered, ?_⟩
      rw [collect, targetFound, collected, List.flatten_cons]

/-- A file system has something at each of some paths, or there is a first one at which
it has nothing. -/
theorem accessible_or_first
    (system : FileSystem) (targets : List Bytes) :
    (∀ target ∈ targets, ∃ node, system.resolve target = .ok node) ∨
      ∃ before target after problem,
        targets = before ++ target :: after ∧
          (∀ earlier ∈ before, ∃ node, system.resolve earlier = .ok node) ∧
          system.resolve target = .error problem := by
  induction targets with
  | nil =>
      exact Or.inl (List.forall_mem_nil _)
  | cons target rest inductionHypothesis =>
      cases first : system.resolve target with
      | error problem =>
          exact Or.inr ⟨[], target, rest, problem, rfl,
            List.forall_mem_nil _, first⟩
      | ok node =>
          rcases inductionHypothesis with
            all | ⟨before, missing, after, problem, rfl, earlier, found⟩
          · exact Or.inl (List.forall_mem_cons.mpr ⟨⟨node, first⟩, all⟩)
          · exact Or.inr ⟨target :: before, missing, after, problem, rfl,
              List.forall_mem_cons.mpr ⟨⟨node, first⟩, earlier⟩, found⟩

theorem collect_of_inaccessible
    {system : FileSystem} {before after : List Bytes} {target : Bytes}
    {problem : FileProblem}
    (accessible : ∀ earlier ∈ before, ∃ node,
      system.resolve earlier = .ok node)
    (inaccessible : system.resolve target = .error problem) :
    collect system.files (before ++ target :: after) =
      .error (.inaccessible target ⟨.status, target, problem⟩) := by
  induction before with
  | nil =>
      simp [collect, targetFiles, FileSystem.files, inaccessible]
  | cons first rest inductionHypothesis =>
      obtain ⟨⟨node, firstNode⟩, restNodes⟩ :=
        List.forall_mem_cons.mp accessible
      obtain ⟨found, firstFiles, _⟩ := exists_covers firstNode
      rw [List.cons_append, collect, firstFiles,
        inductionHypothesis restNodes]

/-! ## The report -/

section Report

variable (compiler : Compiler) (files : Files)

/-- The lines on a file: whether it compiles, and the error where it does not. -/
def fileLines (path : Bytes) : Bytes :=
  match fileError? compiler files path with
  | none => Bytes.ofString "ok   " ++ path ++ Bytes.ofString "\n"
  | some error =>
      Bytes.ofString "FAIL " ++ path ++ Bytes.ofString "\n     " ++
        error.message ++ Bytes.ofString "\n"

/-- The files that fail, in order, each with its error. -/
def failing (paths : List Bytes) : List (Bytes × Error) :=
  paths.filterMap fun path =>
    (fileError? compiler files path).map fun error => (path, error)

/-- The entry of a list of failures for a file and its error. -/
def failureOf (failed : Bytes × Error) : Failure :=
  ⟨(failed.2.splitPosition failed.1).1, (failed.2.splitPosition failed.1).2⟩

/-- A file with the end of its compilation. -/
def verdictOn (path : Bytes) : Verdict :=
  ⟨path, compileResult compiler files path⟩

variable {compiler files}

theorem checkTargets_of_collect
    {targets paths : List Bytes}
    (collected : collect files targets = .ok paths) (some : paths ≠ []) :
    checkTargets compiler files targets =
      report (paths.map (verdictOn compiler files))
        (paths.flatMap fun path => (judge compiler files path).2) := by
  obtain ⟨first, rest, rfl⟩ := List.exists_cons_of_ne_nil some
  simp only [checkTargets, collected, List.map_map, List.flatMap_map]
  rfl

theorem error?_verdictOn (path : Bytes) :
    (verdictOn compiler files path).error? = fileError? compiler files path :=
  rfl

theorem text_verdictOn (path : Bytes) :
    (verdictOn compiler files path).text = fileLines compiler files path := by
  rw [Verdict.text, fileLines, error?_verdictOn]
  cases fileError? compiler files path with
  | none =>
      rfl
  | some error =>
      simp only [List.append_assoc]
      rfl

theorem failures_eq (paths : List Bytes) :
    (paths.map (verdictOn compiler files)).filterMap Verdict.failure? =
      (failing compiler files paths).map failureOf := by
  rw [List.filterMap_map, failing, List.map_filterMap]
  congr 1
  funext path
  rw [Function.comp_apply, Verdict.failure?, error?_verdictOn, Option.map_map]
  rfl

theorem report_stdout (paths : List Bytes) (log : Bytes) :
    (report (paths.map (verdictOn compiler files)) log).stdout =
      paths.flatMap (fileLines compiler files) ++
        (Bytes.ofString "\n" ++ Bytes.ofNat paths.length ++
          Bytes.ofString " files, " ++
          Bytes.ofNat (failing compiler files paths).length ++
          Bytes.ofString " failed\n") := by
  have lines :
      (paths.map (verdictOn compiler files)).flatMap Verdict.text =
        paths.flatMap (fileLines compiler files) := by
    rw [List.flatMap_map]
    congr 1
    funext path
    exact text_verdictOn path
  have numbers (total failed : Nat) :
      summary total failed =
        Bytes.ofString "\n" ++ Bytes.ofNat total ++
          Bytes.ofString " files, " ++ Bytes.ofNat failed ++
          Bytes.ofString " failed\n" := by
    simp only [summary, List.append_assoc]
    rfl
  simp only [report, lines, failures_eq, List.length_map, numbers]

theorem report_result (paths : List Bytes) (log : Bytes) :
    (report (paths.map (verdictOn compiler files)) log).result =
      if (failing compiler files paths).isEmpty then
        .ok ()
      else
        .error (.error (.failures
          ((failing compiler files paths).map failureOf))) := by
  simp only [report, failures_eq, List.isEmpty_map]
  apply if_neg
  intro crashed
  obtain ⟨verdict, member, isCrash⟩ := List.any_eq_true.mp crashed
  obtain ⟨path, _, rfl⟩ := List.mem_map.mp member
  split at isCrash
  · next result =>
      exact compileResult_ne_crash result
  · cases isCrash

end Report

/-! ## Checks -/

/-- What a check of targets in a file system comes to. -/
def checkOutcome (version stdin : Bytes) (system : FileSystem) (options : Options)
    (targets : List Bytes) : Outcome :=
  (Request.ofCommand .check targets).run ⟨version, system.files, stdin⟩ options

/-- What the emission of a file in a file system comes to. -/
def emitOutcome (version stdin : Bytes) (system : FileSystem) (options : Options)
    (path : Bytes) : Outcome :=
  (Request.emit path).run ⟨version, system.files, stdin⟩ options

/-- The targets that a check looks at: the current directory where none is
given. -/
def checkedTargets (targets : List Bytes) : List Bytes :=
  if targets = [] then [Bytes.ofString "."] else targets

/-- An outcome that reports on files: the lines on each of them in order, the number
of files and of failures, and an entry for each failure. -/
structure Outcome.ReportsOn (compiler : Compiler) (files : Files)
    (paths : List Bytes) (outcome : Outcome) : Prop where
  lines :
    outcome.stdout =
      paths.flatMap (fileLines compiler files) ++
        (Bytes.ofString "\n" ++ Bytes.ofNat paths.length ++
          Bytes.ofString " files, " ++
          Bytes.ofNat (failing compiler files paths).length ++
          Bytes.ofString " failed\n")
  passes :
    (failing compiler files paths).length = 0 → outcome.result = .ok ()
  fails :
    0 < (failing compiler files paths).length →
      outcome.result =
        .error (.error (.failures
          ((failing compiler files paths).map failureOf)))

theorem run_check
    (surroundings : Surroundings) (options : Options) (targets : List Bytes) :
    (Request.ofCommand .check targets).run surroundings options =
      checkTargets options.compiler surroundings.files
        (checkedTargets targets) := by
  cases targets <;> rfl

theorem checkOutcome_eq
    (version stdin : Bytes) (system : FileSystem) (options : Options)
    (targets : List Bytes) :
    checkOutcome version stdin system options targets =
      checkTargets options.compiler system.files (checkedTargets targets) :=
  run_check ⟨version, system.files, stdin⟩ options targets

theorem reportsOn_report
    (compiler : Compiler) (files : Files) (paths : List Bytes) (log : Bytes) :
    (report (paths.map (verdictOn compiler files)) log).ReportsOn compiler files
      paths where
  lines := report_stdout paths log
  passes := by
    intro none
    rw [report_result, List.length_eq_zero_iff.mp none]
    rfl
  fails := by
    intro some
    rw [report_result, if_neg]
    simpa [List.length_pos_iff] using some

/-- A check names the first target at which there is nothing, and prints nothing.
Else it reports on the files of all targets, in order and once each, and fails where
there are none.  The path of a source file in a directory leads to its bytes.  A file
passes exactly if it can be emitted, and its failure has the message of the
emission. -/
theorem check_reports_each_file
    (version stdin : Bytes) (system : FileSystem) (options : Options)
    (targets : List Bytes) :
    ((∃ before target after problem,
        checkedTargets targets = before ++ target :: after ∧
          (∀ earlier ∈ before, ∃ node, system.resolve earlier = .ok node) ∧
          system.resolve target = .error problem ∧
          (checkOutcome version stdin system options targets).result =
            .error (.error
              (.inaccessible target ⟨.status, target, problem⟩)) ∧
          (checkOutcome version stdin system options targets).stdout = []) ∨
      (∀ target ∈ checkedTargets targets,
          ∃ node, system.resolve target = .ok node) ∧
        ∃ found : List (List Bytes),
          List.Forall₂ system.Covers (checkedTargets targets) found ∧
            (found.flatten = [] →
              (checkOutcome version stdin system options targets).result =
                .error (.error .noSources)) ∧
            (found.flatten ≠ [] →
              (checkOutcome version stdin system options targets).ReportsOn
                options.compiler system.files found.flatten)) ∧
    (∀ target entries name node,
      system.resolve target = .ok (.directory entries) →
      entries.lookup name = some node →
      Request.namesSource name = true → Path.slash ∉ name → 0 ∉ name →
        system.files.contents (Path.entry target name) =
          node.contentsAt (Path.entry target name)) ∧
    (∀ path, path ≠ [dash] →
      (fileError? options.compiler system.files path = none ∧
          (emitOutcome version stdin system options path).result = .ok ()) ∨
        ∃ error failure,
          fileError? options.compiler system.files path = some error ∧
            (emitOutcome version stdin system options path).result =
              .error (.error failure) ∧
            failure.message = error.message) := by
  rw [checkOutcome_eq]
  refine ⟨?_, fun _ _ _ _ => contents_entry, fun path named => ?_⟩
  · rcases accessible_or_first system (checkedTargets targets) with
      accessible | ⟨before, target, after, problem, split, earlier, missing⟩
    · obtain ⟨found, covers, collected⟩ := exists_forall₂_covers accessible
      refine Or.inr ⟨accessible, found, covers, fun none => ?_,
        fun some => ?_⟩
      · rw [checkTargets, collected, none]
        rfl
      · rw [checkTargets_of_collect collected some]
        exact reportsOn_report _ _ _ _
    · refine Or.inl ⟨before, target, after, problem, split, earlier, missing,
        ?_⟩
      rw [split, checkTargets, collect_of_inaccessible earlier missing]
      exact ⟨rfl, rfl⟩
  · have emitted :=
      emitFile_result ⟨version, system.files, stdin⟩ options named
    cases outcome : fileError? options.compiler system.files path with
    | none =>
        simp only [outcome] at emitted
        exact Or.inl ⟨rfl, emitted⟩
    | some error =>
        simp only [outcome] at emitted
        exact Or.inr ⟨error, .compilation error, rfl, emitted, rfl⟩

end CommandLine
end SexprCalls
