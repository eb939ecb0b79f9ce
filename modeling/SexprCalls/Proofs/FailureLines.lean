import SexprCalls.Proofs.CheckReport
import SexprCalls.Proofs.ErrorPositions
import SexprCalls.Proofs.TokenListing

/-!
# The error text of a check

The error of a check that fails has a line for each failing file, in order: the message
of the error of that file.  Two things are missing from it.  A file that fails at a known
place with the offset and the wording of the last file told gets no line, which is to
say that the failing file just before it has the same error at the same offset.  And a
line shows its file only if the error carries a position or the file cannot be read.
-/

namespace SexprCalls

/-! ## Messages tell errors apart -/

theorem Token.lexeme_eq_of_describe_eq
    {token other : Token}
    (written : token.lexeme.IsWritten) (otherWritten : other.lexeme.IsWritten)
    (same : token.describe = other.describe) :
    token.lexeme = other.lexeme := by
  have described (token : Token) :
      token.describe =
        token.lexeme.kind.text ++ Bytes.space :: token.lexeme.shownText := by
    rw [Token.describe, List.append_assoc]
    rfl
  rw [described, described] at same
  obtain ⟨sameKind, sameText⟩ :=
    Bytes.eq_of_append_separator_eq
      (TokenKind.text_of_scanned _ written.kind_mem_scanned).1
      (TokenKind.text_of_scanned _ otherWritten.kind_mem_scanned).1 same
  exact Lexeme.eq_of_shown_eq written otherWritten sameKind sameText

namespace Error

/-- What the first words of the message of a compilation error tell, the position apart:
a cause, or that a file cannot be read. -/
def opening : Error → Option Cause
  | .lex error => some error.cause
  | .parse error => some error.cause
  | .depth _ => some .nestingTooDeep
  | _ => none

def openingText : Option Cause → Bytes
  | some cause => cause.text
  | none => Bytes.ofString "reading "

/-- What the messages of a compilation start with. -/
def openings : List (Option Cause) :=
  [some .unknownCharacter, some .unterminatedString, some .unexpectedToken,
    some .unexpectedEndOfInput, some .nestingTooDeep, none]

/-- None of these continues another one. -/
theorem openings_prefixFree :
    ∀ first ∈ openings, ∀ second ∈ openings,
      openingText first <+: openingText second → first = second := by
  decide

theorem message_splitPosition_lex (lexical : LexError) (file : Bytes) :
    ((Error.lex lexical).splitPosition file).2.message =
      lexical.cause.text ++
        (Bytes.ofString " " ++ Text.quotedChar lexical.char) := by
  rw [← List.append_assoc]
  rfl

theorem message_splitPosition_token
    (cause : Cause) (token : Token) (file : Bytes) :
    ((Error.parse ⟨cause, some token⟩).splitPosition file).2.message =
      cause.text ++ (Bytes.ofString ": " ++ token.describe) := by
  rw [← List.append_assoc]
  rfl

end Error

namespace Compiler.FailsWith

variable {files : Files} {path otherPath : Bytes} {error other : Error}

theorem opening_mem (fails : FailsWith files path error) :
    error.opening ∈ Error.openings := by
  cases fails with
  | lex _ scanned =>
      obtain ⟨_, _, _, _, _, _, stops⟩ := Token.exists_offset_of_error scanned
      rcases stops.cause_cases with cause | ⟨cause, _⟩ <;>
        simp [Error.opening, Error.openings, cause]
  | unreadable | misfit | ended | depth =>
      simp [Error.opening, Error.openings]

theorem opening_prefix (fails : FailsWith files path error) :
    Error.openingText error.opening <+:
      (error.splitPosition path).2.message := by
  have single := fails.chain_eq
  cases fails with
  | lex =>
      rw [Error.message_splitPosition_lex]
      exact List.prefix_append _ _
  | misfit =>
      rw [Error.message_splitPosition_token]
      exact List.prefix_append _ _
  | ended =>
      exact List.prefix_refl _
  | unreadable | depth =>
      rw [Error.splitPosition_of_not_isPlaced single (by rintro ⟨⟩)]
      simp [Error.opening, Error.openingText, Error.message,
        DepthError.message]

/-- Errors with the same message, their positions apart, tell the same at its start. -/
theorem opening_eq_of_message_eq
    (fails : FailsWith files path error)
    (otherFails : FailsWith files otherPath other)
    (same :
      (error.splitPosition path).2.message =
        (other.splitPosition otherPath).2.message) :
    error.opening = other.opening := by
  have starts := fails.opening_prefix
  have otherStarts := otherFails.opening_prefix
  rw [same] at starts
  rcases List.prefix_or_prefix_of_prefix starts otherStarts with
    continues | continues
  · exact Error.openings_prefixFree _ fails.opening_mem _
      otherFails.opening_mem continues
  · exact (Error.openings_prefixFree _ otherFails.opening_mem _
      fails.opening_mem continues).symm

theorem eq_of_lex_message_eq
    {source otherSource : Bytes} {lexical otherLexical : LexError}
    (scanned : Token.ofSource path source = .error lexical)
    (otherScanned : Token.ofSource otherPath otherSource = .error otherLexical)
    (causes : lexical.cause = otherLexical.cause)
    (same :
      ((Error.lex lexical).splitPosition path).2.message =
        ((Error.lex otherLexical).splitPosition otherPath).2.message) :
    ((Error.lex lexical).splitPosition path).2 =
      ((Error.lex otherLexical).splitPosition otherPath).2 := by
  obtain ⟨_, char, _, _, isChar, _⟩ := Token.exists_offset_of_error scanned
  obtain ⟨_, otherChar, _, _, isOtherChar, _⟩ :=
    Token.exists_offset_of_error otherScanned
  rw [Error.message_splitPosition_lex, Error.message_splitPosition_lex,
    causes, isChar, isOtherChar] at same
  have chars : char = otherChar :=
    Text.quotedChar_injective
      (List.append_cancel_left (List.append_cancel_left same))
  simp only [Error.splitPosition_lex, causes, isChar, isOtherChar, chars]

theorem eq_of_token_message_eq
    {source otherSource : Bytes} {tokens otherTokens : List Token}
    {token otherToken : Token} {cause : Cause}
    (scanned : Token.ofSource path source = .ok tokens)
    (member : token ∈ tokens)
    (otherScanned : Token.ofSource otherPath otherSource = .ok otherTokens)
    (otherMember : otherToken ∈ otherTokens)
    (same :
      ((Error.parse ⟨cause, some token⟩).splitPosition path).2.message =
        ((Error.parse ⟨cause, some otherToken⟩).splitPosition
          otherPath).2.message) :
    ((Error.parse ⟨cause, some token⟩).splitPosition path).2 =
      ((Error.parse ⟨cause, some otherToken⟩).splitPosition otherPath).2 := by
  have written :=
    Token.isWritten_of_mem_listed scanned _ (List.mem_map_of_mem member)
  have otherWritten :=
    Token.isWritten_of_mem_listed otherScanned _
      (List.mem_map_of_mem otherMember)
  rw [Error.message_splitPosition_token,
    Error.message_splitPosition_token] at same
  have lexemes : token.lexeme = otherToken.lexeme :=
    Token.lexeme_eq_of_describe_eq written otherWritten
      (List.append_cancel_left (List.append_cancel_left same))
  obtain ⟨kinds, texts⟩ := Lexeme.mk.inj lexemes
  simp only [Error.splitPosition_token, kinds, texts]

/-- Where the error carries a position, its message without the position tells all
else. -/
theorem eq_of_message_eq
    (fails : FailsWith files path error)
    (otherFails : FailsWith files otherPath other)
    (placed : error.IsPlaced)
    (same :
      (error.splitPosition path).2.message =
        (other.splitPosition otherPath).2.message) :
    (error.splitPosition path).2 = (other.splitPosition otherPath).2 := by
  -- Errors of different kinds differ in their first words already.
  have openings := fails.opening_eq_of_message_eq otherFails same
  cases fails with
  | unreadable | ended | depth =>
      cases placed
  | lex _ scanned =>
      cases otherFails with
      | lex _ otherScanned =>
          exact eq_of_lex_message_eq scanned otherScanned
            (Option.some.inj openings) same
      | unreadable | misfit | ended | depth =>
          obtain ⟨_, _, _, _, _, _, stops⟩ :=
            Token.exists_offset_of_error scanned
          rcases stops.cause_cases with cause | ⟨cause, _⟩ <;>
            simp [Error.opening, cause] at openings
  | misfit _ scanned member =>
      cases otherFails with
      | misfit _ otherScanned otherMember =>
          exact eq_of_token_message_eq scanned member otherScanned otherMember
            same
      | lex _ otherScanned =>
          obtain ⟨_, _, _, _, _, _, stops⟩ :=
            Token.exists_offset_of_error otherScanned
          rcases stops.cause_cases with cause | ⟨cause, _⟩ <;>
            simp [Error.opening, cause] at openings
      | unreadable | ended | depth =>
          cases openings

end Compiler.FailsWith

/-! ## Messages that show the file -/

/-- The errors whose message shows the file. -/
def Error.namesFile : Error → Bool
  | .unreadable _ _ => true
  | error => error.pos?.isSome

theorem Position.file_infix_text (pos : Position) : pos.file <:+: pos.text := by
  rw [text]
  by_cases unnamed : pos.file = []
  · rw [unnamed]
    exact List.nil_infix
  · have named : pos.file.isEmpty = false := by simpa using unnamed
    simp only [named, Bool.false_eq_true, if_false]
    split
    case isTrue =>
      simp only [List.append_assoc]
      exact (List.prefix_append _ _).isInfix
    case isFalse =>
      exact List.infix_refl _

namespace Compiler.FailsWith

variable {files : Files} {path : Bytes} {error : Error}

theorem path_infix_message
    (fails : FailsWith files path error) (named : error.namesFile = true) :
    path <:+: error.message := by
  by_cases placed : error.IsPlaced
  · obtain ⟨source, offset, _, _, split⟩ := fails.splitPosition_eq placed
    have known := Position.line_ofOffset_pos path source offset
    have shows := (Position.ofOffset path source offset).file_infix_text
    have shown := (Error.splitsInto_splitPosition placed path).message_of_known
    rw [split] at shown
    rw [shown known]
    have start :
        (Position.ofOffset path source offset).text <:+:
          (Position.ofOffset path source offset).text ++ Bytes.ofString ": " ++
            (error.splitPosition path).2.message := by
      rw [List.append_assoc]
      exact (List.prefix_append _ _).isInfix
    exact shows.trans start
  · cases fails with
    | unreadable =>
        simp only [Error.message, List.append_assoc]
        exact List.infix_append' _ _ _
    | lex =>
        exact absurd (.lex _) placed
    | misfit =>
        exact absurd (.parse _ _) placed
    | ended | depth =>
        cases named

/-- A message that does not show the file is one of two. -/
theorem message_of_unnamed
    (fails : FailsWith files path error) (unnamed : error.namesFile = false) :
    error.message = Bytes.ofString "unexpected end of input" ∨
      ∃ call limit, error.message =
        Bytes.ofString "call nesting too deep: " ++ call ++
          Bytes.ofString " exceeds " ++ Bytes.ofInt limit ++
          Bytes.ofString " levels" := by
  cases fails with
  | unreadable | lex | misfit =>
      cases unnamed
  | ended =>
      exact Or.inl rfl
  | depth error =>
      exact Or.inr ⟨error.call, error.limit, rfl⟩

end Compiler.FailsWith

/-! ## Errors over again -/

/-- Whether an error is another one over again: at the same offset, of the same cause,
and about the same character or lexeme. -/
def Error.echoes (error other : Error) : Bool :=
  error.pos?.isSome &&
    error.pos?.map Position.offset = other.pos?.map Position.offset &&
    error.cause? = other.cause? && error.char? = other.char? &&
    error.lexeme? = other.lexeme?

namespace CommandLine

theorem Failure.repeats_iff {failure previous : Failure} :
    failure.repeats previous = true ↔
      failure.pos.line ≠ 0 ∧ failure.pos.offset = previous.pos.offset ∧
        failure.error.message = previous.error.message := by
  simp [Failure.repeats, and_assoc]

section Repeats

variable {files : Files} {path otherPath : Bytes} {error other : Error}

theorem echoes_of_repeats
    (fails : Compiler.FailsWith files path error)
    (otherFails : Compiler.FailsWith files otherPath other)
    (repeats :
      (failureOf (path, error)).repeats (failureOf (otherPath, other)) =
        true) :
    error.echoes other = true := by
  obtain ⟨line, offset, message⟩ := Failure.repeats_iff.mp repeats
  simp only [failureOf] at line offset message
  -- The name of a file alone has no line.
  have placed : error.IsPlaced := by
    by_contra unplaced
    rw [Error.splitPosition_of_not_isPlaced fails.chain_eq unplaced] at line
    exact line rfl
  have parts := Error.splitsInto_splitPosition placed path
  have rest := fails.eq_of_message_eq otherFails placed message
  have otherPlaced : other.IsPlaced := by
    by_contra unplaced
    rw [Error.splitPosition_of_not_isPlaced otherFails.chain_eq unplaced] at rest
    exact unplaced (Error.isPlaced_iff.mpr ⟨_, rest ▸ parts.noPosition⟩)
  have otherParts := Error.splitsInto_splitPosition otherPlaced otherPath
  simp [Error.echoes, parts.position, otherParts.position, offset,
    ← parts.cause, ← parts.char, ← parts.lexeme, ← otherParts.cause,
    ← otherParts.char, ← otherParts.lexeme, rest]

theorem repeats_of_echoes
    (fails : Compiler.FailsWith files path error)
    (echoes : error.echoes other = true) :
    (failureOf (path, error)).repeats (failureOf (otherPath, other)) =
      true := by
  simp only [Error.echoes, Bool.and_eq_true, decide_eq_true_eq] at echoes
  obtain ⟨⟨⟨⟨carries, offset⟩, cause⟩, char⟩, lexeme⟩ := echoes
  have placed : error.IsPlaced :=
    Error.isPlaced_iff.mpr (Option.isSome_iff_exists.mp carries)
  have parts := Error.splitsInto_splitPosition placed path
  have otherPlaced : other.IsPlaced := by
    rw [parts.position, Option.map_some] at offset
    obtain ⟨pos, otherCarries, _⟩ := Option.map_eq_some_iff.mp offset.symm
    exact Error.isPlaced_iff.mpr ⟨pos, otherCarries⟩
  have otherParts := Error.splitsInto_splitPosition otherPlaced otherPath
  have rest :
      (error.splitPosition path).2 = (other.splitPosition otherPath).2 := by
    apply Error.eq_of_isPlaced (Error.isPlaced_iff.mpr ⟨_, parts.noPosition⟩)
    · rw [parts.noPosition, otherParts.noPosition]
    · rw [parts.cause, otherParts.cause, cause]
    · rw [parts.char, otherParts.char, char]
    · rw [parts.lexeme, otherParts.lexeme, lexeme]
  obtain ⟨source, place, _, _, split⟩ := fails.splitPosition_eq placed
  have known := Position.line_ofOffset_pos path source place
  rw [← split] at known
  rw [parts.position, otherParts.position] at offset
  exact Failure.repeats_iff.mpr
    ⟨Int.ne_of_gt known, Option.some.inj offset, congrArg Error.message rest⟩

/-- A failure repeats another one exactly if its error is the other one over again. -/
theorem repeats_failureOf
    (fails : Compiler.FailsWith files path error)
    (otherFails : Compiler.FailsWith files otherPath other) :
    (failureOf (path, error)).repeats (failureOf (otherPath, other)) =
      error.echoes other :=
  Bool.eq_iff_iff.mpr
    ⟨echoes_of_repeats fails otherFails, repeats_of_echoes fails⟩

end Repeats

/-! ## The files that are told -/

/-- The failing files that get a line: all but those whose error is that of the failing
file just before, over again. -/
def told : (previous : Option Error) → List (Bytes × Error) →
    List (Bytes × Error)
  | _, [] => []
  | previous, file :: rest =>
      if previous.any file.2.echoes then
        told (some file.2) rest
      else
        file :: told (some file.2) rest

theorem told_sublist (previous : Option Error) (failed : List (Bytes × Error)) :
    (told previous failed).Sublist failed := by
  induction failed generalizing previous with
  | nil =>
      exact List.Sublist.refl _
  | cons file rest inductionHypothesis =>
      rw [told]
      split
      · exact (inductionHypothesis _).cons file
      · exact (inductionHypothesis _).cons_cons file

/-- What two failures are compared by. -/
def Failure.key (failure : Failure) : Int × Bytes :=
  (failure.pos.offset, failure.error.message)

theorem Failure.repeats_congr
    {first second : Failure} (same : first.key = second.key)
    (failure : Failure) :
    failure.repeats first = failure.repeats second := by
  obtain ⟨sameOffset, sameMessage⟩ := Prod.mk.inj same
  rw [Failure.repeats, Failure.repeats, sameOffset, sameMessage]

theorem Failure.key_eq_of_repeats
    {failure previous : Failure} (repeats : failure.repeats previous = true) :
    previous.key = failure.key := by
  obtain ⟨_, offset, message⟩ := Failure.repeats_iff.mp repeats
  rw [Failure.key, Failure.key, offset, message]

/-- The last failure kept may be an earlier one than that of the file just before, but
then the two have the same offset and message. -/
theorem withoutRepeats_failureOf
    {files : Files} {failed : List (Bytes × Error)}
    (all : ∀ file ∈ failed, Compiler.FailsWith files file.1 file.2)
    {kept : Option Failure} {previous : Option (Bytes × Error)}
    (before : ∀ file ∈ previous, Compiler.FailsWith files file.1 file.2)
    (alike :
      kept.map Failure.key = previous.map fun file => (failureOf file).key) :
    Failure.withoutRepeats kept (failed.map failureOf) =
      (told (previous.map Prod.snd) failed).map failureOf := by
  induction failed generalizing kept previous with
  | nil =>
      rfl
  | cons file rest inductionHypothesis =>
      obtain ⟨fails, others⟩ := List.forall_mem_cons.mp all
      have sameTest :
          kept.any (failureOf file).repeats =
            (previous.map Prod.snd).any file.2.echoes := by
        cases previous with
        | none =>
            rw [Option.map_eq_none_iff.mp alike]
            rfl
        | some last =>
            obtain ⟨failure, rfl, sameKey⟩ := Option.map_eq_some_iff.mp alike
            exact (Failure.repeats_congr sameKey _).trans
              (repeats_failureOf fails (before last rfl))
      have next : ∀ last ∈ some file, Compiler.FailsWith files last.1 last.2 :=
        fun _ member => Option.some.inj member ▸ fails
      rw [List.map_cons, Failure.withoutRepeats, told, sameTest]
      split
      case isTrue echoes =>
        -- The file is not told, so that the last one kept stays.
        rw [← sameTest, Option.any_eq_true] at echoes
        obtain ⟨failure, rfl, repeats⟩ := echoes
        exact inductionHypothesis others next
          (congrArg some (Failure.key_eq_of_repeats repeats))
      case isFalse =>
        rw [List.map_cons, inductionHypothesis others next rfl]
        rfl

/-- The entry for a failing file shows the message of its error. -/
theorem message_failureOf
    {files : Files} {file : Bytes × Error}
    (fails : Compiler.FailsWith files file.1 file.2) :
    (failureOf file).message = file.2.message := by
  have shown := Error.message_eq_splitPosition fails.chain_eq file.1
  rw [Failure.message]
  split
  case isTrue known =>
    rw [shown]
    simp only [failureOf] at known ⊢
    rw [if_pos known]
  case isFalse unknown =>
    rw [shown]
    simp only [failureOf] at unknown ⊢
    rw [if_neg unknown, List.nil_append]

section Failing

variable {compiler : Compiler} {files : Files} {paths : List Bytes}

theorem failsWith_of_mem_failing
    {file : Bytes × Error} (member : file ∈ failing compiler files paths) :
    Compiler.FailsWith files file.1 file.2 := by
  obtain ⟨path, _, failed⟩ := List.mem_filterMap.mp member
  obtain ⟨error, isError, rfl⟩ := Option.map_eq_some_iff.mp failed
  rw [fileError?, compileResult] at isError
  cases result : (compiler.compileFile files path).2 with
  | ok text =>
      rw [result] at isError
      cases isError
  | error fault =>
      obtain ⟨found, rfl, fails⟩ := Compiler.exists_failsWith result
      rw [result] at isError
      cases isError
      exact fails

/-- The text of the failures of a check. -/
theorem messages_failing :
    Failure.messages ((failing compiler files paths).map failureOf) =
      List.intercalate [Bytes.newline]
        ((told none (failing compiler files paths)).map fun file =>
          file.2.message) := by
  have kept :
      Failure.withoutRepeats none
          ((failing compiler files paths).map failureOf) =
        (told none (failing compiler files paths)).map failureOf :=
    @withoutRepeats_failureOf files _
      (fun _ member => failsWith_of_mem_failing member) none none
      (by intro _ member; cases member) rfl
  rw [Failure.messages, kept, List.map_map]
  congr 1
  apply List.map_congr_left
  intro file member
  exact message_failureOf
    (failsWith_of_mem_failing ((told_sublist none _).subset member))

end Failing

/-! ## The error of a check -/

/-- A text with a line of its own for each failing file, in order, that gives the name
of the file and the message of its error. -/
def Identifies (failed : List (Bytes × Error)) (text : Bytes) : Prop :=
  ∃ lines own : List Bytes,
    text = List.intercalate [Bytes.newline] lines ∧ own.Sublist lines ∧
      List.Forall₂
        (fun file line => file.1 <:+: line ∧ file.2.message <:+: line)
        failed own

theorem identifies_intercalate
    {files : Files} {lines : List (Bytes × Error)}
    (fails : ∀ file ∈ lines, Compiler.FailsWith files file.1 file.2) :
    Identifies (lines.filter fun file => file.2.namesFile)
      (List.intercalate [Bytes.newline]
        (lines.map fun file => file.2.message)) := by
  refine ⟨_, (lines.filter fun file => file.2.namesFile).map fun file =>
    file.2.message, rfl, List.filter_sublist.map _, ?_⟩
  rw [List.forall₂_map_right_iff, List.forall₂_same]
  intro file member
  obtain ⟨isLine, named⟩ := List.mem_filter.mp member
  exact ⟨(fails file isLine).path_infix_message named, List.infix_refl _⟩

/-- Where no error is the one just before over again, every failing file is told. -/
theorem told_of_isChain
    {previous : Option Error} {failed : List (Bytes × Error)}
    (chain :
      (previous.toList ++ failed.map Prod.snd).IsChain fun before error =>
        error.echoes before = false) :
    told previous failed = failed := by
  induction failed generalizing previous with
  | nil =>
      rfl
  | cons file rest inductionHypothesis =>
      have follows :
          (file.2 :: rest.map Prod.snd).IsChain fun before error =>
            error.echoes before = false :=
        chain.right_of_append
      have fresh : previous.any file.2.echoes = false := by
        cases previous with
        | none =>
            rfl
        | some before =>
            exact (List.isChain_cons_cons.mp chain).1
      rw [told, if_neg (Bool.eq_false_iff.mp fresh),
        @inductionHypothesis (some file.2) follows]

theorem run_check_result
    {surroundings : Surroundings} {options : Options}
    {targets paths : List Bytes}
    (collected : collect surroundings.files (checkedTargets targets) = .ok paths)
    (fails : failing options.compiler surroundings.files paths ≠ []) :
    ((Request.ofCommand .check targets).run surroundings options).result =
      .error (.error (.failures
        ((failing options.compiler surroundings.files paths).map
          failureOf))) := by
  have some : paths ≠ [] := by
    rintro rfl
    exact fails rfl
  rw [run_check, checkTargets_of_collect collected some, report_result,
    if_neg (by simpa using fails)]

/-- A check with failing files returns an error with the messages of those told. -/
theorem exists_check_error
    {surroundings : Surroundings} {options : Options}
    {targets paths : List Bytes} {failed : List (Bytes × Error)}
    (collected : collect surroundings.files (checkedTargets targets) = .ok paths)
    (areFailing : failing options.compiler surroundings.files paths = failed)
    (fails : failed ≠ []) :
    ∃ error : CommandError,
      ((Request.ofCommand .check targets).run surroundings options).result =
          .error (.error error) ∧
        error.message =
          List.intercalate [Bytes.newline]
            ((told none failed).map fun file => file.2.message) := by
  subst areFailing
  exact ⟨_, run_check_result collected fails, messages_failing⟩

/-! ## Files that fail alike -/

/-- Two files that start with the same unknown character, and one that ends inside a
call. -/
def alikeFailures : FileTree :=
  .directory
    [(Bytes.ofString "a.sexp", .file (Bytes.ofString "$")),
      (Bytes.ofString "b.sexp", .file (Bytes.ofString "$")),
      (Bytes.ofString "c.sexp", .file (Bytes.ofString "("))]

def unknownDollar (path : Bytes) : Error :=
  .lex ⟨.unknownCharacter, 0x24, ⟨path, 0, 1, 1⟩⟩

theorem echoes_unknownDollar (path other : Bytes) :
    (unknownDollar path).echoes (unknownDollar other) = true := by
  simp [unknownDollar, Error.echoes, Error.pos?, Error.cause?, Error.char?,
    Error.lexeme?]

theorem message_unknownDollar :
    (unknownDollar (Bytes.ofString "a.sexp")).message =
      Bytes.ofString "a.sexp:1:1: unknown character '$'" := by
  decide +kernel

theorem compile_dollar (compiler : Compiler) (path : Bytes) :
    (compiler.compile path (Bytes.ofString "$")).2 =
      .error (.error (unknownDollar path)) := by
  apply Compiler.compile_of_lexError
  rw [Scanner.ofSource_eq_scanOnto]
  exact congrArg Prod.fst
    (@Scanner.scanOnto_of_unknown 0x24 [] [] path .start '$' rfl)

theorem compile_open (compiler : Compiler) (path : Bytes) :
    (compiler.compile path (Bytes.ofString "(")).2 =
      .error (.error (.parse ⟨.unexpectedEndOfInput, none⟩)) := by
  have scanned :
      Token.ofSource path (Bytes.ofString "(") =
        .ok [⟨.paren, [Bytes.openParen], ⟨path, 0, 1, 1⟩⟩] := by
    rw [Scanner.ofSource_eq_scanOnto]
    change (Scanner.scanOnto [] path .start [0x28]).1 = _
    rw [@Scanner.scanOnto_of_lexeme 0x28 [] [0x28] [] [] path .start .paren
      [0x28] rfl, Scanner.scanOnto]
    rfl
  exact Compiler.compile_of_parseError scanned rfl

theorem fileError?_of_compile
    {compiler : Compiler} {files : Files} {path source : Bytes} {error : Error}
    (readable : files.contents path = .ok source)
    (failed : (compiler.compile path source).2 = .error (.error error)) :
    fileError? compiler files path = some error := by
  have result :
      compileResult compiler files path = .error (.error error) := by
    rw [compileResult, Compiler.compileFile, readable]
    change (compiler.compile path source).2.map _ = _
    rw [failed]
    rfl
  rw [fileError?, result]

theorem fileError?_alikeFailures (compiler : Compiler) :
    fileError? compiler alikeFailures.files (Bytes.ofString "a.sexp") =
        some (unknownDollar (Bytes.ofString "a.sexp")) ∧
      fileError? compiler alikeFailures.files (Bytes.ofString "b.sexp") =
        some (unknownDollar (Bytes.ofString "b.sexp")) ∧
      fileError? compiler alikeFailures.files (Bytes.ofString "c.sexp") =
        some (.parse ⟨.unexpectedEndOfInput, none⟩) :=
  ⟨fileError?_of_compile rfl (compile_dollar compiler _),
    fileError?_of_compile rfl (compile_dollar compiler _),
    fileError?_of_compile rfl (compile_open compiler _)⟩

theorem failing_cons
    {compiler : Compiler} {files : Files} {path : Bytes} {error : Error}
    (failed : fileError? compiler files path = some error)
    (paths : List Bytes) :
    failing compiler files (path :: paths) =
      (path, error) :: failing compiler files paths :=
  List.filterMap_cons_some (by rw [failed]; rfl)

/-- A text without a newline identifies one file at most, and only a file that it
names. -/
theorem Identifies.of_unbroken
    {failed : List (Bytes × Error)} {text : Bytes}
    (identifies : Identifies failed text) (unbroken : Bytes.newline ∉ text) :
    failed.length ≤ 1 ∧ ∀ file ∈ failed, file.1 <:+: text := by
  obtain ⟨lines, own, rfl, part, related⟩ := identifies
  match lines with
  | [] =>
      rw [List.sublist_nil.mp part] at related
      cases related
      exact ⟨Nat.zero_le 1, List.forall_mem_nil _⟩
  | [line] =>
      rcases List.sublist_singleton.mp part with rfl | rfl
      · cases related
        exact ⟨Nat.zero_le 1, List.forall_mem_nil _⟩
      · cases related with
        | cons shown rest =>
            cases rest
            rw [List.intercalate_singleton]
            exact ⟨Nat.le_refl 1, List.forall_mem_singleton.mpr shown.1⟩
  | first :: second :: rest =>
      rw [List.intercalate_cons_cons] at unbroken
      exact absurd
        (List.mem_append_left _ (List.mem_append_right first
          List.mem_cons_self)) unbroken

/-! ## What the error tells -/

/-- The error of a check that fails has the message of each failing file on a line of its
own, in order, but for the files with the error of the failing file just before, over
again.  The text identifies each of these files whose message shows it, and so all
failing files where none is left out and each is shown.  A line that does not show its
file tells that the file ends too early or nests too deep, and nothing else. -/
theorem check_error_tells_failures
    {surroundings : Surroundings} {options : Options}
    {targets paths : List Bytes}
    (collected : collect surroundings.files (checkedTargets targets) = .ok paths)
    (fails : failing options.compiler surroundings.files paths ≠ []) :
    let failed := failing options.compiler surroundings.files paths
    let outcome :=
      (Request.ofCommand .check targets).run surroundings options
    ∃ error : CommandError,
      outcome.result = .error (.error error) ∧
      outcome.toProcess =
        (1, outcome.stdout,
          outcome.stderr ++ Bytes.ofString "error: " ++ error.message ++
            Bytes.ofString "\n") ∧
      error.message =
        List.intercalate [Bytes.newline]
          ((told none failed).map fun file => file.2.message) ∧
      Identifies ((told none failed).filter fun file => file.2.namesFile)
        error.message ∧
      (((failed.map Prod.snd).IsChain fun before error =>
          error.echoes before = false) →
        (∀ file ∈ failed, file.2.namesFile = true) →
          Identifies failed error.message) ∧
      ∀ file ∈ failed, file.2.namesFile = false →
        file.2.message = Bytes.ofString "unexpected end of input" ∨
          ∃ call limit, file.2.message =
            Bytes.ofString "call nesting too deep: " ++ call ++
              Bytes.ofString " exceeds " ++ Bytes.ofInt limit ++
              Bytes.ofString " levels" := by
  intro failed outcome
  obtain ⟨error, result, text⟩ := exists_check_error collected rfl fails
  have each : ∀ file ∈ failed,
      Compiler.FailsWith surroundings.files file.1 file.2 :=
    fun _ => failsWith_of_mem_failing
  have identified :
      Identifies ((told none failed).filter fun file => file.2.namesFile)
        error.message := by
    rw [text]
    exact identifies_intercalate fun file member =>
      each file ((told_sublist none failed).subset member)
  refine ⟨error, result, ?_, text, identified, ?_, ?_⟩
  · have same : outcome.result = .error (.error error) := result
    rw [Outcome.toProcess, same]
    rfl
  · intro chain named
    rw [@told_of_isChain none failed chain,
      List.filter_eq_self.mpr named] at identified
    exact identified
  · intro file member
    exact (each file member).message_of_unnamed

/-- The second file has no line, and the line on the third does not name it. -/
theorem check_error_tells_failures_of_alike :
    let paths :=
      [Bytes.ofString "a.sexp", Bytes.ofString "b.sexp",
        Bytes.ofString "c.sexp"]
    collect alikeFailures.files (checkedTargets paths) = .ok paths ∧
      failing ({} : Options).compiler alikeFailures.files paths ≠ [] ∧
      ∃ error,
        ((Request.ofCommand .check paths).run
            ⟨[], alikeFailures.files, []⟩ {}).result =
            .error (.error error) ∧
          error.message =
            Bytes.ofString "a.sexp:1:1: unknown character '$'" ++
              Bytes.newline :: Bytes.ofString "unexpected end of input" ∧
          Identifies
            [(Bytes.ofString "a.sexp",
              unknownDollar (Bytes.ofString "a.sexp"))]
            error.message := by
  intro paths
  obtain ⟨first, second, third⟩ :=
    fileError?_alikeFailures ({} : Options).compiler
  have failed :
      failing ({} : Options).compiler alikeFailures.files paths =
        [(Bytes.ofString "a.sexp", unknownDollar (Bytes.ofString "a.sexp")),
          (Bytes.ofString "b.sexp", unknownDollar (Bytes.ofString "b.sexp")),
          (Bytes.ofString "c.sexp",
            .parse ⟨.unexpectedEndOfInput, none⟩)] := by
    rw [failing_cons first, failing_cons second, failing_cons third]
    rfl
  have some :
      failing ({} : Options).compiler alikeFailures.files paths ≠ [] := by
    rw [failed]
    exact List.cons_ne_nil _ _
  have areTold :
      told none (failing ({} : Options).compiler alikeFailures.files paths) =
        [(Bytes.ofString "a.sexp", unknownDollar (Bytes.ofString "a.sexp")),
          (Bytes.ofString "c.sexp",
            .parse ⟨.unexpectedEndOfInput, none⟩)] := by
    rw [failed]
    simp only [told, Option.any_none, Option.any_some, echoes_unknownDollar,
      if_true, Bool.false_eq_true, if_false]
    rfl
  obtain ⟨error, result, _, text, identified, _⟩ :=
    @check_error_tells_failures ⟨[], alikeFailures.files, []⟩ {} paths paths
      rfl some
  refine ⟨rfl, some, error, result, ?_, ?_⟩
  · rw [text, areTold, List.map_cons, List.map_singleton,
      List.intercalate_cons_cons, List.intercalate_singleton,
      message_unknownDollar, List.append_assoc]
    rfl
  · rw [areTold] at identified
    exact identified

/-- Of two files that fail alike the error names one, and it does not name a file that
ends too early. -/
theorem check_error_misses_failures :
    let outcome (targets : List Bytes) :=
      (Request.ofCommand .check targets).run ⟨[], alikeFailures.files, []⟩ {}
    let failed (targets : List Bytes) :=
      failing ({} : Options).compiler alikeFailures.files targets
    (∃ error,
      (outcome [Bytes.ofString "a.sexp", Bytes.ofString "b.sexp"]).result =
          .error (.error error) ∧
        error.message =
          Bytes.ofString "a.sexp:1:1: unknown character '$'" ∧
        ¬ Identifies
          (failed [Bytes.ofString "a.sexp", Bytes.ofString "b.sexp"])
          error.message) ∧
    ∃ error,
      (outcome [Bytes.ofString "c.sexp"]).result = .error (.error error) ∧
        error.message = Bytes.ofString "unexpected end of input" ∧
        ¬ Identifies (failed [Bytes.ofString "c.sexp"]) error.message := by
  intro outcome failed
  obtain ⟨first, second, third⟩ :=
    fileError?_alikeFailures ({} : Options).compiler
  have bothFail :
      failed [Bytes.ofString "a.sexp", Bytes.ofString "b.sexp"] =
        [(Bytes.ofString "a.sexp", unknownDollar (Bytes.ofString "a.sexp")),
          (Bytes.ofString "b.sexp",
            unknownDollar (Bytes.ofString "b.sexp"))] := by
    simp only [failed, failing_cons first, failing_cons second]
    rfl
  have lastFails :
      failed [Bytes.ofString "c.sexp"] =
        [(Bytes.ofString "c.sexp",
          .parse ⟨.unexpectedEndOfInput, none⟩)] := by
    simp only [failed, failing_cons third]
    rfl
  constructor
  · obtain ⟨error, result, text⟩ :=
      @exists_check_error ⟨[], alikeFailures.files, []⟩ {}
        [Bytes.ofString "a.sexp", Bytes.ofString "b.sexp"]
        [Bytes.ofString "a.sexp", Bytes.ofString "b.sexp"] _ rfl bothFail
        (List.cons_ne_nil _ _)
    simp only [told, Option.any_none, Option.any_some, echoes_unknownDollar,
      if_true, Bool.false_eq_true, if_false, List.map_cons, List.map_nil,
      List.intercalate_singleton, message_unknownDollar] at text
    refine ⟨error, result, text, fun identifies => ?_⟩
    have few := (identifies.of_unbroken (by rw [text]; decide)).1
    rw [bothFail] at few
    exact absurd few (by decide)
  · obtain ⟨error, result, text⟩ :=
      @exists_check_error ⟨[], alikeFailures.files, []⟩ {}
        [Bytes.ofString "c.sexp"] [Bytes.ofString "c.sexp"] _ rfl lastFails
        (List.cons_ne_nil _ _)
    simp only [told, Option.any_none, Bool.false_eq_true, if_false,
      List.map_cons, List.map_nil, List.intercalate_singleton] at text
    refine ⟨error, result, text, fun identifies => ?_⟩
    have named := (identifies.of_unbroken (by rw [text]; decide)).2
    rw [lastFails, List.forall_mem_singleton, text] at named
    exact absurd named (by decide +kernel)

end CommandLine

end SexprCalls
