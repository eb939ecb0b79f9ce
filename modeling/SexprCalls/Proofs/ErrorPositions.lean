import SexprCalls.CommandLine.Report
import SexprCalls.Proofs.NestingCheck
import SexprCalls.Proofs.TokenPositions
import SexprCalls.Proofs.ViablePrefix

/-!
# The positions of errors

A lexical error and an error at a token carry a position.  Such an error can be
taken apart into its position and an error that has none, and put together again from
the two.  Its message shows the position in front of the message of the rest, where the
line is known.  In the compilation of a file the line always is, and the position
lies in the file.

An error that wraps others is taken apart as the one that is found in it, and the words
around that one are dropped.  The errors of a compilation wrap nothing.
-/

namespace SexprCalls

namespace Position

theorem isKnown_iff {pos : Position} : pos.isKnown = true ↔ 0 < pos.line :=
  decide_eq_true_iff

theorem line_ofOffset_pos (file source : Bytes) (offset : Nat) :
    0 < (ofOffset file source offset).line := by
  simp only [ofOffset]
  omega

end Position

namespace Error

/-- The errors that carry a position themselves. -/
inductive IsPlaced : Error → Prop
  | lex (error : LexError) : IsPlaced (.lex error)
  | parse (cause : Cause) (token : Token) :
      IsPlaced (.parse ⟨cause, some token⟩)

/-- The position that an error carries. -/
def pos? : Error → Option Position
  | .lex error => some error.pos
  | .parse error => error.token.map Token.pos
  | _ => none

/-- The character that an error is about. -/
def char? : Error → Option Int
  | .lex error => some error.char
  | _ => none

/-- The lexeme that an error is about. -/
def lexeme? : Error → Option Lexeme
  | .parse error => error.token.map Token.lexeme
  | _ => none

/-- An error in two parts, its position and an error that has none.  The second part
has the cause of the whole and is about the same character or lexeme.  The message of
the whole shows the position once, if its line is known. -/
structure SplitsInto (error : Error) (pos : Position) (rest : Error) : Prop where
  position : error.pos? = some pos
  noPosition : rest.pos? = some .unknown
  cause : rest.cause? = error.cause?
  /-- The same causes are found in both. -/
  causes : rest.causes = error.causes
  char : rest.char? = error.char?
  lexeme : rest.lexeme? = error.lexeme?
  message_of_known :
    0 < pos.line →
      error.message = pos.text ++ Bytes.ofString ": " ++ rest.message
  message_of_unknown :
    ¬ 0 < pos.line → error.message = rest.message

variable {error : Error}

theorem isPlaced_iff : error.IsPlaced ↔ ∃ pos, error.pos? = some pos := by
  constructor
  · rintro (lexical | ⟨cause, token⟩)
    · exact ⟨lexical.pos, rfl⟩
    · exact ⟨token.pos, rfl⟩
  · rintro ⟨pos, carried⟩
    cases error with
    | lex lexical =>
        exact .lex lexical
    | parse parsing =>
        obtain ⟨cause, _ | token⟩ := parsing
        · cases carried
        · exact .parse cause token
    | depth _ | traversal _ | render _ | unreadable _ _ | bare _
    | wrapping _ _ =>
        cases carried

/-- An error that carries a position is told by its parts. -/
theorem eq_of_isPlaced
    {other : Error} (placed : error.IsPlaced)
    (samePosition : error.pos? = other.pos?)
    (sameCause : error.cause? = other.cause?)
    (sameChar : error.char? = other.char?)
    (sameLexeme : error.lexeme? = other.lexeme?) :
    error = other := by
  cases placed with
  | lex lexical =>
      cases other with
      | lex otherLexical =>
          obtain ⟨cause, char, pos⟩ := lexical
          cases samePosition
          cases sameCause
          cases sameChar
          rfl
      | parse _ | depth _ | traversal _ | render _ | unreadable _ _ | bare _
      | wrapping _ _ =>
          cases sameChar
  | parse cause token =>
      cases other with
      | parse parsing =>
          obtain ⟨otherCause, _ | otherToken⟩ := parsing
          · cases sameLexeme
          · obtain ⟨kind, text, pos⟩ := token
            cases samePosition
            cases sameCause
            cases sameLexeme
            rfl
      | lex _ | depth _ | traversal _ | render _ | unreadable _ _ | bare _
      | wrapping _ _ =>
          cases sameLexeme

/-! ## The error that is found in another one -/

/-- The error with a position that is found in an error: the first lexical error of the
chain or, where the chain has none, the first parse error, if it is at a token. -/
inductive Holds (error : Error) : Error → Prop
  | lex {found : LexError} {before after : List Error} :
      error.chain = before ++ .lex found :: after →
      (∀ earlier ∈ before, earlier.lex? = none) →
      Holds error (.lex found)
  | parse {cause : Cause} {token : Token} {before after : List Error} :
      (∀ part ∈ error.chain, part.lex? = none) →
      error.chain = before ++ .parse ⟨cause, some token⟩ :: after →
      (∀ earlier ∈ before, earlier.parse? = none) →
      Holds error (.parse ⟨cause, some token⟩)

theorem lex?_eq_some_iff {lexical : LexError} :
    error.lex? = some lexical ↔ error = .lex lexical := by
  cases error <;> simp [lex?]

theorem parse?_eq_some_iff {parsing : ParseError} :
    error.parse? = some parsing ↔ error = .parse parsing := by
  cases error <;> simp [parse?]

theorem holds_lex_iff {found : LexError} :
    error.Holds (.lex found) ↔ error.chain.findSome? lex? = some found := by
  simp only [List.findSome?_eq_some_iff, lex?_eq_some_iff]
  constructor
  · rintro (⟨split, earlier⟩ | _)
    exact ⟨_, _, _, split, rfl, earlier⟩
  · rintro ⟨before, _, after, split, rfl, earlier⟩
    exact .lex split earlier

theorem holds_parse_iff {cause : Cause} {token : Token} :
    error.Holds (.parse ⟨cause, some token⟩) ↔
      error.chain.findSome? lex? = none ∧
        error.chain.findSome? parse? = some ⟨cause, some token⟩ := by
  simp only [List.findSome?_eq_none_iff, List.findSome?_eq_some_iff,
    parse?_eq_some_iff]
  constructor
  · rintro (_ | ⟨noLexical, split, earlier⟩)
    exact ⟨noLexical, _, _, _, split, rfl, earlier⟩
  · rintro ⟨noLexical, before, _, after, split, rfl, earlier⟩
    exact .parse noLexical split earlier

theorem Holds.isPlaced {found : Error} (holds : error.Holds found) :
    found.IsPlaced := by
  cases holds with
  | lex => exact .lex _
  | parse => exact .parse _ _

theorem Holds.mem_chain {found : Error} (holds : error.Holds found) :
    found ∈ error.chain := by
  cases holds with
  | lex split _ => simp [split]
  | parse _ split _ => simp [split]

/-- In an error that wraps nothing, only itself can be found. -/
theorem Holds.eq_of_chain
    {found : Error} (holds : error.Holds found)
    (single : error.chain = [error]) : found = error := by
  have member := holds.mem_chain
  rw [single] at member
  exact List.mem_singleton.mp member

theorem chain_of_isPlaced (placed : error.IsPlaced) :
    error.chain = [error] := by
  cases placed <;> rfl

/-! ## Taking an error apart -/

theorem splitPosition_lex (lexical : LexError) (file : Bytes) :
    (Error.lex lexical).splitPosition file =
      (lexical.pos, .lex { lexical with pos := .unknown }) :=
  rfl

theorem splitPosition_token (cause : Cause) (token : Token) (file : Bytes) :
    (Error.parse ⟨cause, some token⟩).splitPosition file =
      (token.pos, .parse ⟨cause, some { token with pos := .unknown }⟩) :=
  rfl

-- The words around a lexical error are dropped.
example (text file : Bytes) (lexical : LexError) :
    (wrapping text [.lex lexical]).splitPosition file =
      (lexical.pos, .lex { lexical with pos := .unknown }) :=
  rfl

theorem splitPosition_of_not_holds
    (none : ∀ found, ¬ error.Holds found) (file : Bytes) :
    error.splitPosition file = (.ofFile file, error) := by
  rw [splitPosition]
  split
  case h_1 found lexical =>
    exact absurd (holds_lex_iff.mpr lexical) (none _)
  case h_2 noLexical =>
    split
    case h_1 cause token first =>
      exact absurd (holds_parse_iff.mpr ⟨noLexical, first⟩) (none _)
    case h_2 =>
      rfl

theorem splitPosition_of_not_isPlaced
    (single : error.chain = [error]) (unplaced : ¬ error.IsPlaced)
    (file : Bytes) :
    error.splitPosition file = (.ofFile file, error) := by
  apply splitPosition_of_not_holds
  intro found holds
  exact unplaced (holds.eq_of_chain single ▸ holds.isPlaced)

/-- An error that wraps nothing shows the position in front of what it says without
one. -/
theorem message_eq_splitPosition
    (single : error.chain = [error]) (file : Bytes) :
    error.message =
      (if (error.splitPosition file).1.isKnown then
        (error.splitPosition file).1.text ++ Bytes.ofString ": "
      else
        []) ++ (error.splitPosition file).2.message := by
  by_cases placed : error.IsPlaced
  · obtain lexical | ⟨cause, token⟩ := placed
    · simp only [splitPosition_lex, message, LexError.message,
        List.append_assoc]
      rfl
    · simp only [splitPosition_token, message, ParseError.message,
        List.append_assoc]
      rfl
  · rw [splitPosition_of_not_isPlaced single placed]
    rfl

theorem splitsInto_splitPosition
    (placed : error.IsPlaced) (file : Bytes) :
    error.SplitsInto (error.splitPosition file).1
      (error.splitPosition file).2 := by
  have shown := message_eq_splitPosition (chain_of_isPlaced placed) file
  have known :
      0 < (error.splitPosition file).1.line →
        error.message =
          (error.splitPosition file).1.text ++ Bytes.ofString ": " ++
            (error.splitPosition file).2.message := by
    intro positive
    rwa [if_pos (Position.isKnown_iff.mpr positive)] at shown
  have unknown :
      ¬ 0 < (error.splitPosition file).1.line →
        error.message = (error.splitPosition file).2.message := by
    intro notPositive
    rwa [if_neg (mt Position.isKnown_iff.mp notPositive),
      List.nil_append] at shown
  cases placed with
  | lex lexical =>
      exact ⟨rfl, rfl, rfl, rfl, rfl, rfl, known, unknown⟩
  | parse cause token =>
      exact ⟨rfl, rfl, rfl, rfl, rfl, rfl, known, unknown⟩

end Error

/-! ## Errors of a compilation -/

namespace Compiler

/-- The errors with which the compilation of a file may end. -/
inductive FailsWith (files : Files) (path : Bytes) : Error → Prop
  | unreadable {problem : FileError} :
      files.contents path = .error problem →
      FailsWith files path (.unreadable path problem)
  | lex {source : Bytes} {error : LexError} :
      files.contents path = .ok source →
      Token.ofSource path source = .error error →
      FailsWith files path (.lex error)
  | misfit {source : Bytes} {tokens : List Token} {token : Token} :
      files.contents path = .ok source →
      Token.ofSource path source = .ok tokens →
      token ∈ tokens →
      FailsWith files path (.parse ⟨.unexpectedToken, some token⟩)
  | ended : FailsWith files path (.parse ⟨.unexpectedEndOfInput, none⟩)
  | depth (error : DepthError) : FailsWith files path (.depth error)

variable {compiler : Compiler} {files : Files} {path : Bytes}

/-- A file that does not compile ends with one of these errors, and not with a
crash. -/
theorem exists_failsWith
    {fault : Fault Error}
    (failed : (compiler.compileFile files path).2 = .error fault) :
    ∃ error, fault = .error error ∧ FailsWith files path error := by
  cases contents : files.contents path with
  | error problem =>
      rw [compileFile, contents] at failed
      cases failed
      exact ⟨_, rfl, .unreadable contents⟩
  | ok source =>
      rw [compileFile, contents] at failed
      change (compiler.compile path source).2 = .error fault at failed
      rw [compile_result] at failed
      rcases Compilation.run_cases compiler.maxDepth path source with
        ⟨error, scanned, run⟩ | ⟨tokens, error, scanned, isRead, run⟩ |
          ⟨_, _, error, _, _, run⟩ | ⟨_, _, _, _, run⟩
      · rw [run] at failed
        cases failed
        exact ⟨_, rfl, .lex contents scanned⟩
      · rw [run] at failed
        cases failed
        refine ⟨_, rfl, ?_⟩
        rcases Program.ofTokens_cases tokens with
          ⟨_, other⟩ | ⟨_, other⟩ | ⟨before, token, rest, split, _, _, other⟩
        · cases other.symm.trans isRead
        · cases other.symm.trans isRead
          exact .ended
        · cases other.symm.trans isRead
          apply FailsWith.misfit contents scanned
          rw [split]
          exact List.mem_append_right before List.mem_cons_self
      · rw [run] at failed
        cases failed
        exact ⟨_, rfl, .depth error⟩
      · rw [run] at failed
        cases failed

theorem FailsWith.chain_eq
    {error : Error} (fails : FailsWith files path error) :
    error.chain = [error] := by
  cases fails <;> rfl

/-- The position of an error lies in the file that is compiled. -/
theorem FailsWith.exists_offset
    {error : Error} (fails : FailsWith files path error)
    (placed : error.IsPlaced) :
    ∃ source offset, files.contents path = .ok source ∧
      offset < source.length ∧
      error.pos? = some (.ofOffset path source offset) := by
  cases fails with
  | unreadable | ended | depth =>
      cases placed
  | lex contents scanned =>
      obtain ⟨offset, _, inside, place, _⟩ :=
        Token.exists_offset_of_error scanned
      exact ⟨_, offset, contents, inside, congrArg some place⟩
  | misfit contents scanned member =>
      obtain ⟨offset, inside, place, _⟩ :=
        Token.exists_offset_of_mem scanned member
      exact ⟨_, offset, contents, inside, congrArg some place⟩

theorem FailsWith.splitPosition_eq
    {error : Error} (fails : FailsWith files path error)
    (placed : error.IsPlaced) :
    ∃ source offset, files.contents path = .ok source ∧
      offset < source.length ∧
      (error.splitPosition path).1 = .ofOffset path source offset := by
  obtain ⟨source, offset, contents, inside, place⟩ :=
    fails.exists_offset placed
  have split := (Error.splitsInto_splitPosition placed path).position
  exact ⟨source, offset, contents, inside,
    Option.some.inj (split.symm.trans place)⟩

end Compiler

end SexprCalls
