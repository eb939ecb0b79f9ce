import Mathlib.Tactic.SplitIfs
import SexprCalls.Proofs.NestingCheck
import SexprCalls.Proofs.SourcePlaces
import SexprCalls.Proofs.UnambiguousText

/-!
# Sources one after the other

A source that compiles leaves nothing open at its end: no lexeme, no call and no
level of nesting.  So a second source behind it compiles as it does alone.  The
two texts come one below the other, and an error of the second source is the same
error, at a place that is moved by the bytes in front of it.
-/

namespace SexprCalls

/-! ## Errors behind other bytes -/

def Token.movedBy (before : Bytes) (token : Token) : Token :=
  { token with pos := token.pos.movedBy before }

def LexError.movedBy (before : Bytes) (error : LexError) : LexError :=
  { error with pos := error.pos.movedBy before }

def ParseError.movedBy (before : Bytes) (error : ParseError) : ParseError :=
  { error with token := error.token.map (Token.movedBy before) }

/-- An error of a source behind some other bytes.  Errors without a place stay
as they are. -/
def Error.movedBy (before : Bytes) : Error → Error
  | .lex error => .lex (error.movedBy before)
  | .parse error => .parse (error.movedBy before)
  | error => error

def Fault.movedBy (before : Bytes) : Fault Error → Fault Error
  | .error reported => .error (reported.movedBy before)
  | .crash => .crash

/-! ## Scanning -/

namespace SpacedLexeme

theorem tokensFrom_moved
    (file before bytes : Bytes) (sequence : List SpacedLexeme) :
    tokensFrom file (Location.start.past (before ++ bytes)) sequence =
      (tokensFrom file (Location.start.past bytes) sequence).map
        (Token.movedBy before) := by
  induction sequence generalizing bytes with
  | nil =>
      rfl
  | cons spaced rest inductionHypothesis =>
      rw [tokensFrom, tokensFrom, List.map_cons]
      simp only [← Location.past_append, List.append_assoc,
        inductionHypothesis, Location.inFile_past_append]
      rfl

end SpacedLexeme

/-- What a scan finds and where it stops does not depend on the place at which it
starts. -/
theorem Scanner.exists_scan (input : Bytes) :
    ∃ (sequence : List SpacedLexeme) (taken : Bytes)
      (stop : Option (Cause × Int)),
      ∀ (found : List Token) (file : Bytes) (here : Location),
        (scanOnto found file here input).1 =
          match stop with
          | none =>
              .ok (found.reverse ++ SpacedLexeme.tokensFrom file here sequence)
          | some (cause, char) =>
              .error ⟨cause, char, (here.past taken).inFile file⟩ := by
  obtain ⟨sequence, trailing, stuck, rfl, blank, fits, stop⟩ :=
    SpacedLexeme.exists_sequence input
  cases stuck with
  | nil =>
      refine ⟨sequence, [], none, ?_⟩
      intro found file here
      rw [scanOnto_sequence_blankRun found file here fits blank, scanOnto,
        List.reverse_append, List.reverse_reverse]
  | cons first rest =>
      rcases stop first rest rfl with piece | ⟨char, piece⟩
      · refine ⟨sequence, SpacedLexeme.bytesOf sequence ++ trailing,
          some (.unterminatedString, Bytes.quoteMark.toNat), ?_⟩
        intro found file here
        rw [scanOnto_sequence_blankRun found file here fits blank,
          scanOnto_of_unterminated _ _ _ piece]
      · refine ⟨sequence, SpacedLexeme.bytesOf sequence ++ trailing,
          some (.unknownCharacter, char.toNat), ?_⟩
        intro found file here
        rw [scanOnto_sequence_blankRun found file here fits blank,
          scanOnto_of_unknown _ _ _ piece]

theorem Scanner.scanOnto_moved
    (found : List Token) (file before source : Bytes) :
    (scanOnto found file (Location.start.past before) source).1 =
      match Token.ofSource file source with
      | .error error => .error (error.movedBy before)
      | .ok tokens =>
          .ok (found.reverse ++ tokens.map (Token.movedBy before)) := by
  obtain ⟨sequence, taken, stop, scans⟩ := exists_scan source
  rw [ofSource_eq_scanOnto, scans, scans]
  cases stop with
  | none =>
      have moved := SpacedLexeme.tokensFrom_moved file before [] sequence
      rw [List.append_nil] at moved
      simp only [moved, List.reverse_nil, List.nil_append]
      rfl
  | some stopped =>
      simp only [← Location.past_append, Location.inFile_past_append]
      rfl

/-! ## Where one source ends -/

theorem Form.kind_ne_name_of_last (forms : List Form) :
    ∀ lexeme ∈ (Form.lexemesOf forms).getLast?, lexeme.kind ≠ .name := by
  induction forms using List.reverseRecOn with
  | nil =>
      intro lexeme atEnd
      cases atEnd
  | append_singleton forms form _ =>
      intro lexeme atEnd named
      rw [Form.lexemesOf_append, Form.lexemesOf_singleton] at atEnd
      cases form with
      | number value =>
          rw [Form.lexemes, List.getLast?_concat] at atEnd
          cases atEnd
          cases named
      | string value =>
          rw [Form.lexemes, List.getLast?_concat] at atEnd
          cases atEnd
          cases named
      | call name params =>
          rw [Form.lexemes, ← List.cons_append, ← List.cons_append,
            ← List.append_assoc, List.getLast?_concat] at atEnd
          cases atEnd
          cases named

theorem SpacedLexeme.getLast?_bytesOf
    {sequence : List SpacedLexeme} {last : SpacedLexeme}
    (written : last.lexeme.IsWritten)
    (atEnd : last ∈ sequence.getLast?) :
    (bytesOf sequence).getLast? = last.lexeme.spelling.getLast? := by
  obtain ⟨earlier, rfl⟩ := List.getLast?_eq_some_iff.mp atEnd
  rw [bytesOf, List.flatMap_append, List.flatMap_singleton, bytes,
    ← List.append_assoc,
    List.getLast?_append_of_ne_nil _ (Lexeme.spelling_ne_nil written)]

/-- The last lexeme of a program that is cut off its source ends before what
follows: it is no name, and two numbers are kept apart. -/
theorem Cut.last_endsBefore
    {cut : Cut} {program : Program}
    (lexemes : cut.sequence.map SpacedLexeme.lexeme = program.lexemes)
    {gap second : Bytes} (blank : IsBlankRun gap)
    (apart : ∀ last ∈ cut.bytes.getLast?, ∀ first ∈ second.head?,
      Bytes.isDigit last = true → Bytes.isDigit first = true → gap ≠ []) :
    ∀ last ∈ cut.sequence.getLast?,
      last.lexeme.EndsBefore ((cut.trailing ++ gap) ++ second) := by
  intro last atEnd
  by_cases empty : cut.trailing ++ gap = []
  · obtain ⟨noTrailing, noGap⟩ := List.append_eq_nil_iff.mp empty
    have written :=
      cut.lexemes_written last (List.mem_of_mem_getLast? atEnd)
    have notName : last.lexeme.kind ≠ .name := by
      apply Form.kind_ne_name_of_last program
      change _ ∈ program.lexemes.getLast?
      rw [← lexemes, List.getLast?_map, Option.mem_def.mp atEnd]
      rfl
    have sameEnd : cut.bytes.getLast? = last.lexeme.spelling.getLast? := by
      rw [Cut.bytes, noTrailing, List.append_nil,
        SpacedLexeme.getLast?_bytesOf written atEnd]
    rw [sameEnd] at apart
    rw [empty, List.nil_append]
    obtain ⟨gapBefore, kind, text⟩ := last
    cases kind with
    | number =>
        intro first atHead
        obtain ⟨byte, ending⟩ :=
          Option.ne_none_iff_exists'.mp
            (mt List.getLast?_eq_none_iff.mp written.1)
        have digit := written.2 byte (List.mem_of_getLast? ending)
        rw [← Bool.not_eq_true]
        intro continued
        exact apart byte ending first atHead digit continued noGap
    | name =>
        exact absurd rfl notName
    | paren =>
        exact fun _ _ => rfl
    | string =>
        exact fun _ _ => rfl
    | other kind =>
        exact fun _ _ => rfl
  · exact last.lexeme.endsBefore_of_blankRun
      (cut.trailing_blank.append blank) empty second

/-- A second source is scanned as it is alone, behind one that is read as a
program. -/
theorem Token.ofSource_append
    {file first gap second : Bytes} {tokens : List Token} {program : Program}
    (scanned : ofSource file first = .ok tokens)
    (isRead : Program.ofTokens tokens = .ok program)
    (blank : IsBlankRun gap)
    (apart : ∀ last ∈ first.getLast?, ∀ next ∈ second.head?,
      Bytes.isDigit last = true → Bytes.isDigit next = true → gap ≠ []) :
    ofSource file (first ++ gap ++ second) =
      match ofSource file second with
      | .error error => .error (error.movedBy (first ++ gap))
      | .ok others =>
          .ok (tokens ++ others.map (Token.movedBy (first ++ gap))) := by
  obtain ⟨cut, rfl, rfl⟩ := exists_cut_of_ofSource scanned
  have lexemes := Program.lexemes_of_ofTokens isRead
  rw [SpacedLexeme.tokensFrom_map_lexeme] at lexemes
  have fits := cut.fits.of_last (cut.last_endsBefore lexemes blank apart)
  -- The white space at the end of the first source and the gap are one run.
  have whole :
      cut.bytes ++ gap ++ second =
        SpacedLexeme.bytesOf cut.sequence ++
          ((cut.trailing ++ gap) ++ second) := by
    simp only [Cut.bytes, List.append_assoc]
  have taken :
      SpacedLexeme.bytesOf cut.sequence ++ (cut.trailing ++ gap) =
        cut.bytes ++ gap := by
    simp only [Cut.bytes, List.append_assoc]
  rw [Scanner.ofSource_eq_scanOnto, whole,
    Scanner.scanOnto_sequence_blankRun _ _ _ fits
      (cut.trailing_blank.append blank),
    taken, Scanner.scanOnto_moved, List.append_nil, List.reverse_reverse]

/-! ## Reading -/

namespace Reading

/-- An open list and the calls around it, with more forms at the bottom. -/
def deepen (base : List Form) :
    List Form → List OpenCall → List Form × List OpenCall
  | latest, [] => (latest ++ base, [])
  | latest, innermost :: enclosing =>
      let (before, outer) := deepen base innermost.before enclosing
      (latest, ⟨innermost.name, before⟩ :: outer)

/-- The same reading, had some forms been read first; the latest of them comes
first. -/
def onto (base : List Form) (reading : Reading) : Reading where
  latest := (deepen base reading.latest reading.enclosing).1
  enclosing := (deepen base reading.latest reading.enclosing).2
  awaitsName := reading.awaitsName

theorem deepen_cons
    (base latest : List Form) (form : Form) (enclosing : List OpenCall) :
    deepen base (form :: latest) enclosing =
      (form :: (deepen base latest enclosing).1,
        (deepen base latest enclosing).2) := by
  cases enclosing <;> rfl

theorem add_onto (base : List Form) (reading : Reading) (form : Form) :
    (reading.onto base).add form = (reading.add form).onto base := by
  simp only [onto, add, deepen_cons]

theorem enter_onto (base : List Form) (reading : Reading) (name : Bytes) :
    (reading.onto base).enter name = (reading.enter name).onto base :=
  rfl

theorem leave?_onto (base : List Form) (reading : Reading) :
    (reading.onto base).leave? = reading.leave?.map (onto base) := by
  obtain ⟨latest, enclosing, awaitsName⟩ := reading
  cases enclosing with
  | nil =>
      rfl
  | cons innermost enclosing =>
      simp only [leave?, onto, deepen, deepen_cons, Option.map_some]

theorem finish?_onto (base : List Form) (reading : Reading) :
    (reading.onto base).finish? =
      reading.finish?.map (base.reverse ++ ·) := by
  obtain ⟨latest, enclosing, awaitsName⟩ := reading
  cases enclosing <;> cases awaitsName <;>
    simp [finish?, onto, deepen]

/-- A token does to a reading what it does with more forms below. -/
theorem step?_onto
    (base : List Form) (before : Bytes) (reading : Reading) (token : Token) :
    (reading.onto base).step? (token.movedBy before) =
      (reading.step? token).map (onto base) := by
  have sameStep :
      (reading.onto base).step? (token.movedBy before) =
        (reading.onto base).step? token :=
    rfl
  have awaits : (reading.onto base).awaitsName = reading.awaitsName := rfl
  rw [sameStep, step?, step?, awaits]
  split_ifs with named kind number string opens closes
  · exact congrArg some (enter_onto base reading token.text)
  · rfl
  · exact congrArg some (add_onto base reading (.number token.text))
  · exact congrArg some (add_onto base reading (.string token.text))
  · rfl
  · exact leave?_onto base reading
  · rfl

theorem readFrom_onto
    (base : List Form) (before : Bytes) (reading : Reading)
    (tokens : List Token) :
    ((reading.onto base).readFrom (tokens.map (Token.movedBy before))).1 =
      match (reading.readFrom tokens).1 with
      | .error error => .error (error.movedBy before)
      | .ok program => .ok (base.reverse ++ program) := by
  induction tokens generalizing reading with
  | nil =>
      rw [List.map_nil, readFrom, readFrom, finish?_onto]
      cases reading.finish? <;> rfl
  | cons token rest inductionHypothesis =>
      rw [List.map_cons, readFrom, readFrom, step?_onto]
      cases reading.step? token with
      | none =>
          rfl
      | some next =>
          exact inductionHypothesis next

end Reading

/-- The tokens of a second source are read as they are alone, behind those of a
program. -/
theorem Program.ofTokens_append
    {first : List Token} {program : Program}
    (isRead : ofTokens first = .ok program)
    (before : Bytes) (second : List Token) :
    ofTokens (first ++ second.map (Token.movedBy before)) =
      match ofTokens second with
      | .error error => .error (error.movedBy before)
      | .ok more => .ok (program ++ more) := by
  have ready : Reading.start.awaitsName = false := rfl
  have run :=
    Reading.readFrom_forms program ready (lexemes_of_ofTokens isRead)
      (second.map (Token.movedBy before))
  -- Behind a whole program the reading holds its forms, and no call is open.
  have reached :
      program.foldl Reading.add Reading.start =
        Reading.start.onto program.reverse := by
    rw [Reading.foldl_add]
    change Reading.mk (program.reverse ++ []) [] false = _
    rw [List.append_nil]
    rfl
  have moved :=
    Reading.start.readFrom_onto program.reverse before second
  rw [List.reverse_reverse] at moved
  change (Reading.start.readFrom _).1 = _
  rw [run, reached, moved]
  rfl

/-! ## Text -/

/-- Two texts one below the other; an empty one takes no line. -/
def joinLines (first second : Bytes) : Bytes :=
  if first = [] ∨ second = [] then
    first ++ second
  else
    first ++ Bytes.newline :: second

theorem intercalate_append
    (separator : Bytes) {first second : List Bytes}
    (firstSome : first ≠ []) (secondSome : second ≠ []) :
    separator.intercalate (first ++ second) =
      separator.intercalate first ++ separator ++
        separator.intercalate second := by
  obtain ⟨head, tail, rfl⟩ := List.exists_cons_of_ne_nil firstSome
  obtain ⟨next, rest, rfl⟩ := List.exists_cons_of_ne_nil secondSome
  simp only [List.cons_append, OutputNode.intercalate_cons_eq_flatMap,
    List.flatMap_append, List.flatMap_cons, List.append_assoc]

namespace Program

theorem text_eq_nil_iff
    {program : Program} (written : Form.AreWritten program) :
    program.text = [] ↔ program = [] := by
  cases program with
  | nil =>
      exact iff_of_true rfl rfl
  | cons form rest =>
      refine iff_of_false ?_ (List.cons_ne_nil form rest)
      rw [text, List.map_cons, OutputNode.intercalate_cons_eq_flatMap,
        Form.lineText_eq_text_append]
      simp [Form.text_ne_nil written.1]

theorem text_append
    {first second : Program}
    (firstWritten : Form.AreWritten first)
    (secondWritten : Form.AreWritten second) :
    text (first ++ second) = joinLines first.text second.text := by
  by_cases empty : first.text = [] ∨ second.text = []
  · rw [joinLines, if_pos empty]
    rcases empty with noFirst | noSecond
    · rw [noFirst, (text_eq_nil_iff firstWritten).mp noFirst]
      rfl
    · rw [noSecond, (text_eq_nil_iff secondWritten).mp noSecond,
        List.append_nil, List.append_nil]
  · obtain ⟨someFirst, someSecond⟩ := not_or.mp empty
    rw [text_eq_nil_iff firstWritten] at someFirst
    rw [text_eq_nil_iff secondWritten] at someSecond
    rw [joinLines, if_neg empty, text, List.map_append,
      intercalate_append _ (mt List.map_eq_nil_iff.mp someFirst)
        (mt List.map_eq_nil_iff.mp someSecond), List.append_assoc]
    rfl

end Program

/-! ## All stages -/

namespace Compiler

variable {compiler : Compiler} {file first gap second : Bytes}
  {tokens : List Token} {program : Program}

/-- The outcome of the second source decides, once the first is read and not
nested too deep. -/
theorem compile_append
    (scanned : Token.ofSource file first = .ok tokens)
    (isRead : Program.ofTokens tokens = .ok program)
    (shallow : program.depthFault? compiler.maxDepth = none)
    (blank : IsBlankRun gap)
    (apart : ∀ last ∈ first.getLast?, ∀ next ∈ second.head?,
      Bytes.isDigit last = true → Bytes.isDigit next = true → gap ≠ []) :
    (compiler.compile file (first ++ gap ++ second)).2 =
      match (compiler.compile file second).2 with
      | .ok text => .ok (joinLines program.text text)
      | .error fault => .error (fault.movedBy (first ++ gap)) := by
  have joined := Token.ofSource_append scanned isRead blank apart
  cases secondScanned : Token.ofSource file second with
  | error error =>
      rw [secondScanned] at joined
      rw [compile_of_lexError joined, compile_of_lexError secondScanned]
      rfl
  | ok others =>
      have joinedRead :=
        Program.ofTokens_append isRead (first ++ gap) others
      rw [secondScanned] at joined
      cases secondRead : Program.ofTokens others with
      | error error =>
          rw [secondRead] at joinedRead
          rw [compile_of_parseError joined joinedRead,
            compile_of_parseError secondScanned secondRead]
          rfl
      | ok more =>
          rw [secondRead] at joinedRead
          rw [compile_of_program joined joinedRead,
            compile_of_program secondScanned secondRead,
            Program.depthFault?_append, shallow, Option.none_or]
          cases fault : more.depthFault? compiler.maxDepth with
          | some depthFault =>
              -- The error of the nesting check has no place to move.
              obtain ⟨error, rfl⟩ := Program.exists_depthError fault
              rfl
          | none =>
              have text :=
                Program.text_append
                  (Program.areWritten_of_ofSource scanned isRead)
                  (Program.areWritten_of_ofSource secondScanned secondRead)
              simp only [text]

/-- Behind a source that compiles, a second source comes to the same as alone:
its text below the text of the first, or its error, moved by the bytes in front of
it. -/
theorem compile_concatenation
    {firstText : Bytes}
    (blank : IsBlankRun gap)
    (apart : ∀ last ∈ first.getLast?, ∀ next ∈ second.head?,
      Bytes.isDigit last = true → Bytes.isDigit next = true → gap ≠ [])
    (compiles : (compiler.compile file first).2 = .ok firstText) :
    (∀ secondText, (compiler.compile file second).2 = .ok secondText →
      (compiler.compile file (first ++ gap ++ second)).2 =
        .ok (joinLines firstText secondText)) ∧
    (∀ fault, (compiler.compile file second).2 = .error fault →
      (compiler.compile file (first ++ gap ++ second)).2 =
        .error (fault.movedBy (first ++ gap))) := by
  obtain ⟨tokens, program, scanned, isRead, shallow, rfl⟩ :=
    exists_program_of_compile compiles
  have appended := compile_append scanned isRead shallow blank apart
  refine ⟨?_, ?_⟩
  · intro secondText succeeds
    rw [appended, succeeds]
  · intro fault fails
    rw [appended, fails]

/-- A parenthesis that closes nothing, on the last line of the source in front of
it. -/
theorem compile_concatenation_of_unexpected :
    IsBlankRun (Bytes.ofString "\u00a0") ∧
      (compile ⟨.off, 1⟩ [] (Bytes.ofString "(\nf\n1\n)\n12")).2 =
        .ok (Bytes.ofString "f(1);\n12") ∧
      (compile ⟨.off, 1⟩ [] (Bytes.ofString "3 )")).2 =
        .error (.error (.parse ⟨.unexpectedToken,
          some ⟨.paren, [Bytes.closeParen], ⟨[], 2, 1, 3⟩⟩⟩)) ∧
      (compile ⟨.off, 1⟩ []
          (Bytes.ofString "(\nf\n1\n)\n12" ++ Bytes.ofString "\u00a0" ++
            Bytes.ofString "3 )")).2 =
        .error (.error (.parse ⟨.unexpectedToken,
          some ⟨.paren, [Bytes.closeParen], ⟨[], 14, 5, 7⟩⟩⟩)) := by
  have newline : IsBlankRun (Bytes.ofString "\n") :=
    ⟨['\n'], List.forall_mem_singleton.mpr rfl, rfl⟩
  have space : IsBlankRun (Bytes.ofString " ") :=
    ⟨[' '], List.forall_mem_singleton.mpr rfl, rfl⟩
  have blank : IsBlankRun (Bytes.ofString "\u00a0") :=
    ⟨['\u00a0'], List.forall_mem_singleton.mpr rfl, rfl⟩
  have written :
      Form.AreWritten
        [.call (Bytes.ofString "f") [.number (Bytes.ofString "1")],
          .number (Bytes.ofString "12")] :=
    ⟨⟨⟨by decide, List.all_eq_true.mp rfl⟩,
        ⟨by decide, List.all_eq_true.mp rfl⟩, trivial⟩,
      ⟨by decide, List.all_eq_true.mp rfl⟩, trivial⟩
  have compiles :
      (compile ⟨.off, 1⟩ [] (Bytes.ofString "(\nf\n1\n)\n12")).2 =
        .ok (Bytes.ofString "f(1);\n12") :=
    compile_of_program
      (ofSource_cut_bytes []
        (Cut.joinedBy newline (by decide)
          ((Form.areWritten_iff _).mp written))) rfl
  have closing :
      ∀ lexeme ∈ [⟨.number, Bytes.ofString "3"⟩, Lexeme.closing],
        lexeme.IsWritten :=
    List.forall_mem_cons.mpr
      ⟨⟨by decide, List.all_eq_true.mp rfl⟩,
        List.forall_mem_singleton.mpr (Or.inr rfl)⟩
  have fails :
      (compile ⟨.off, 1⟩ [] (Bytes.ofString "3 )")).2 =
        .error (.error (.parse ⟨.unexpectedToken,
          some ⟨.paren, [Bytes.closeParen], ⟨[], 2, 1, 3⟩⟩⟩)) :=
    compile_of_parseError
      (ofSource_cut_bytes [] (Cut.joinedBy space (by decide) closing)) rfl
  refine ⟨blank, compiles, fails, ?_⟩
  have moved :=
    (compile_concatenation blank (fun _ _ _ _ _ _ => by decide)
      compiles).2 _ fails
  exact moved

end Compiler
end SexprCalls
