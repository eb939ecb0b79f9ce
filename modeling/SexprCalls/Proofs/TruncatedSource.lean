import SexprCalls.Proofs.Concatenation
import SexprCalls.Proofs.TruncatedLexemes
import SexprCalls.Proofs.ViablePrefix

/-!
# Compiling the first bytes of a source

The first lexemes of a program always fit, also if the last one is shorter than it
was: reading looks only at the kind of a name or a number.  So a source that is cut
off either lacks tokens or is a program.  Such a program has the first forms of the
whole, where a number at the end may have lost digits, and so its text is the
beginning of the text of the whole.
-/

namespace SexprCalls

namespace Lexeme.Begins

theorem ne_nil
    {first : Lexeme} {rest whole : List Lexeme}
    (begins : Begins (first :: rest) whole) :
    whole ≠ [] := by
  intro empty
  subst empty
  cases begins

theorem cons_cases
    {first other : Lexeme} {rest others : List Lexeme}
    (begins : Begins (first :: rest) (other :: others)) :
    (first = other ∧ Begins rest others) ∨
      (rest = [] ∧ ∃ kind keep text more,
        RunClass kind keep ∧ first = ⟨kind, text⟩ ∧
          other = ⟨kind, text ++ more⟩) := by
  cases begins with
  | shortened run text more =>
      exact Or.inr ⟨rfl, _, _, text, more, run, rfl, rfl⟩
  | cons _ restBegins =>
      exact Or.inl ⟨rfl, restBegins⟩

theorem split
    {part whole : List Lexeme} (begins : Begins part whole) :
    (∃ later, whole = part ++ later) ∨
      ∃ earlier kind keep text more later,
        RunClass kind keep ∧ part = earlier ++ [⟨kind, text⟩] ∧
          whole = earlier ++ ⟨kind, text ++ more⟩ :: later := by
  induction begins with
  | nil whole =>
      exact Or.inl ⟨whole, rfl⟩
  | shortened run text more rest =>
      exact Or.inr ⟨[], _, _, text, more, rest, run, rfl, rfl⟩
  | cons lexeme _ inductionHypothesis =>
      rcases inductionHypothesis with
        ⟨later, rfl⟩ | ⟨earlier, kind, keep, text, more, later, run, rfl, rfl⟩
      · exact Or.inl ⟨later, rfl⟩
      · exact Or.inr
          ⟨lexeme :: earlier, kind, keep, text, more, later, run, rfl, rfl⟩

end Lexeme.Begins

/-! ## Reading the first tokens -/

namespace Reading

theorem step?_of_lexeme_eq
    {token other : Token} (same : token.lexeme = other.lexeme)
    (reading : Reading) :
    reading.step? token = reading.step? other := by
  obtain ⟨kind, text, pos⟩ := token
  obtain ⟨otherKind, otherText, otherPos⟩ := other
  obtain ⟨rfl, rfl⟩ := Lexeme.mk.inj same
  rfl

/-- A shorter run fits where the run does. -/
theorem step?_of_run
    {reading next : Reading} {token other : Token}
    {kind : TokenKind} {keep : UInt8 → Bool} (run : RunClass kind keep)
    (sameKind : token.kind = kind) (otherKind : other.kind = kind)
    (stepped : reading.step? other = some next) :
    ∃ shorter, reading.step? token = some shorter := by
  rcases step?_cases stepped with
    ⟨awaits, named, _⟩ |
      ⟨ready, ⟨number, _⟩ | ⟨string, _⟩ | ⟨opening, _⟩ | ⟨closing, _⟩⟩
  · have name : token.lexeme = ⟨.name, token.text⟩ := by
      rw [Token.lexeme, sameKind, ← otherKind, named]
    exact ⟨_, step?_name awaits name⟩
  · have literal : token.lexeme = ⟨.number, token.text⟩ := by
      rw [Token.lexeme, sameKind, ← otherKind, number]
    exact ⟨_, step?_number ready literal⟩
  · rw [string] at otherKind
    subst otherKind
    cases run
  · have paren : other.kind = .paren := congrArg Lexeme.kind opening
    rw [paren] at otherKind
    subst otherKind
    cases run
  · have paren : other.kind = .paren := congrArg Lexeme.kind closing
    rw [paren] at otherKind
    subst otherKind
    cases run

theorem advance?_of_begins
    {reading last : Reading} {part whole : List Token}
    (begins :
      Lexeme.Begins (part.map Token.lexeme) (whole.map Token.lexeme))
    (advanced : reading.advance? whole = some last) :
    ∃ next, reading.advance? part = some next := by
  induction part generalizing reading whole with
  | nil =>
      exact ⟨reading, rfl⟩
  | cons token part inductionHypothesis =>
      cases whole with
      | nil =>
          exact absurd List.map_nil begins.ne_nil
      | cons other whole =>
          rw [advance?_cons] at advanced ⊢
          obtain ⟨middle, stepped, further⟩ :=
            Option.bind_eq_some_iff.mp advanced
          rcases begins.cons_cases with
            ⟨same, rest⟩ | ⟨none, kind, keep, text, more, run, short, long⟩
          · obtain ⟨next, reached⟩ := inductionHypothesis rest further
            refine ⟨next, ?_⟩
            rw [step?_of_lexeme_eq same, stepped]
            exact reached
          · obtain ⟨next, reached⟩ :=
              step?_of_run run (congrArg Lexeme.kind short)
                (congrArg Lexeme.kind long) stepped
            rw [List.map_eq_nil_iff.mp none, reached]
            exact ⟨next, rfl⟩

end Reading

namespace Program

theorem viable_of_begins
    {part whole : List Token} {program : Program}
    (begins :
      Lexeme.Begins (part.map Token.lexeme) (whole.map Token.lexeme))
    (isRead : ofTokens whole = .ok program) :
    Viable part := by
  have viable : Viable whole := by
    refine ⟨[], program, ?_⟩
    rw [List.append_nil]
    exact isRead
  obtain ⟨last, advanced⟩ := (viable_iff whole).mp viable
  exact (viable_iff part).mpr (Reading.advance?_of_begins begins advanced)

/-! ## The program of the first lexemes -/

theorem eq_append_of_lexemes
    {first whole : Program} {later : List Lexeme}
    (lexemes : whole.lexemes = first.lexemes ++ later) :
    ∃ more, whole = first ++ more := by
  obtain ⟨firstTokens, firstLexemes⟩ := Token.exists_of_lexemes first.lexemes
  obtain ⟨laterTokens, laterLexemes⟩ := Token.exists_of_lexemes later
  have joined :=
    ofTokens_append (ofTokens_of_lexemes firstLexemes) [] laterTokens
  have wholeRead :
      ofTokens (firstTokens ++ laterTokens.map (Token.movedBy [])) =
        .ok whole := by
    apply ofTokens_of_lexemes
    have unmoved :
        (laterTokens.map (Token.movedBy [])).map Token.lexeme = later := by
      rw [List.map_map]
      exact laterLexemes
    rw [List.map_append, firstLexemes, unmoved, lexemes]
  rw [wholeRead] at joined
  cases laterRead : ofTokens laterTokens with
  | error error =>
      rw [laterRead] at joined
      cases joined
  | ok more =>
      rw [laterRead] at joined
      exact ⟨more, Except.ok.inj joined⟩

/-- A program whose last lexeme is a run ends in a number. -/
theorem exists_number_of_run
    {program : Program} {earlier : List Lexeme} {text : Bytes}
    {kind : TokenKind} {keep : UInt8 → Bool} (run : RunClass kind keep)
    (lexemes : program.lexemes = earlier ++ [⟨kind, text⟩]) :
    kind = .number ∧ ∃ before : Program,
      program = before ++ [.number text] ∧ earlier = before.lexemes := by
  induction program using List.reverseRecOn with
  | nil =>
      have someLexeme : earlier ++ [⟨kind, text⟩] ≠ ([] : List Lexeme) :=
        List.append_ne_nil_of_right_ne_nil _ (List.cons_ne_nil _ _)
      exact absurd lexemes.symm someLexeme
  | append_singleton before form _ =>
      rw [Program.lexemes, Form.lexemesOf_append, Form.lexemesOf_singleton]
        at lexemes
      cases form with
      | number value =>
          obtain ⟨sameEarlier, sameLast⟩ := List.append_inj' lexemes rfl
          obtain ⟨rfl, rfl⟩ := Lexeme.mk.inj (List.singleton_inj.mp sameLast)
          exact ⟨rfl, before, rfl, sameEarlier.symm⟩
      | string value =>
          obtain ⟨_, sameLast⟩ := List.append_inj' lexemes rfl
          obtain ⟨rfl, _⟩ := Lexeme.mk.inj (List.singleton_inj.mp sameLast)
          cases run
      | call name params =>
          rw [Form.lexemes, ← List.cons_append, ← List.cons_append,
            ← List.append_assoc] at lexemes
          obtain ⟨_, sameLast⟩ := List.append_inj' lexemes rfl
          obtain ⟨rfl, _⟩ := Lexeme.mk.inj (List.singleton_inj.mp sameLast)
          cases run

/-! ## The text of the first forms -/

theorem text_prefix_append (first more : Program) :
    first.text <+: text (first ++ more) := by
  by_cases noFirst : first = []
  · subst noFirst
    exact List.nil_prefix
  · by_cases noMore : more = []
    · refine ⟨[], ?_⟩
      rw [noMore, List.append_nil, List.append_nil]
    · rw [text, text, List.map_append,
        intercalate_append _ (mt List.map_eq_nil_iff.mp noFirst)
          (mt List.map_eq_nil_iff.mp noMore), List.append_assoc]
      exact List.prefix_append _ _

/-- What stands before the last form does not depend on that form. -/
theorem exists_text_concat (before : Program) :
    ∃ lead, ∀ form : Form, text (before ++ [form]) = lead ++ form.lineText := by
  have single (form : Form) : text [form] = form.lineText := by
    simp [text]
  by_cases none : before = []
  · subst none
    exact ⟨[], single⟩
  · refine ⟨before.text ++ Bytes.ofString "\n", ?_⟩
    intro form
    have lines : before.map Form.lineText ≠ [] :=
      mt List.map_eq_nil_iff.mp none
    have lastLine : [form].map Form.lineText ≠ [] := List.cons_ne_nil _ _
    rw [← single form, text, List.map_append,
      intercalate_append _ lines lastLine]
    rfl

theorem text_prefix_of_digits (before : Program) (digits more : Bytes) :
    text (before ++ [.number digits]) <+:
      text (before ++ [.number (digits ++ more)]) := by
  obtain ⟨lead, texts⟩ := before.exists_text_concat
  rw [texts, texts, List.prefix_append_right_inj]
  exact List.prefix_append digits more

theorem text_prefix_of_begins
    {part whole : List Token} {program shorter : Program}
    (begins :
      Lexeme.Begins (part.map Token.lexeme) (whole.map Token.lexeme))
    (isRead : ofTokens whole = .ok program)
    (partRead : ofTokens part = .ok shorter) :
    shorter.text <+: program.text := by
  rw [lexemes_of_ofTokens isRead, lexemes_of_ofTokens partRead] at begins
  rcases begins.split with
    ⟨later, lexemes⟩ |
      ⟨earlier, kind, keep, digits, more, later, run, partLexemes, lexemes⟩
  · obtain ⟨rest, rfl⟩ := eq_append_of_lexemes lexemes
    exact text_prefix_append shorter rest
  · obtain ⟨rfl, before, rfl, rfl⟩ := exists_number_of_run run partLexemes
    have longer :
        program.lexemes =
          Program.lexemes (before ++ [.number (digits ++ more)]) ++ later := by
      rw [lexemes, Program.lexemes, Program.lexemes, Form.lexemesOf_append,
        Form.lexemesOf_singleton, List.append_assoc]
      rfl
    obtain ⟨rest, rfl⟩ := eq_append_of_lexemes longer
    exact (text_prefix_of_digits before digits more).trans
      (text_prefix_append _ rest)

end Program

/-! ## All stages -/

/-- Tokens that begin a program lack others, or compile to the beginning of its
text. -/
theorem compile_of_begins
    {source : Bytes} {part whole : List Token} {program : Program}
    (scanned : Token.ofSource [] source = .ok part)
    (begins :
      Lexeme.Begins (part.map Token.lexeme) (whole.map Token.lexeme))
    (isRead : Program.ofTokens whole = .ok program) :
    compile source = .error (.error (.parse ⟨.unexpectedEndOfInput, none⟩)) ∨
      ∃ output, compile source = .ok output ∧ output <+: program.text := by
  by_cases readable : ∃ shorter, Program.ofTokens part = .ok shorter
  · obtain ⟨shorter, partRead⟩ := readable
    refine Or.inr ⟨shorter.text, ?_, ?_⟩
    · exact (compile_eq_ok_iff _ _).mpr
        ⟨part, shorter, scanned, partRead, rfl⟩
    · exact Program.text_prefix_of_begins begins isRead partRead
  · have ended :=
      (Program.ofTokens_eq_endOfInput_iff part).mpr
        ⟨Program.viable_of_begins begins isRead, readable⟩
    exact Or.inl (Compiler.compile_of_parseError scanned ended)

section Take

variable {source : Bytes} {tokens : List Token} {size : Nat}

theorem compile_take_of_cutsString
    (scanned : Token.ofSource [] source = .ok tokens)
    {token : Token} (member : token ∈ tokens) (cuts : token.CutsString size) :
    compile (source.take size) =
      .error (.error (.lex
        ⟨.unterminatedString, Bytes.quoteMark.toNat, token.pos⟩)) :=
  Compiler.compile_of_lexError
    (Token.ofSource_take_of_cutsString scanned member cuts)

theorem compile_take_of_cutsBlank
    (scanned : Token.ofSource [] source = .ok tokens)
    {before : Bytes} (cuts : CutsBlank source size before)
    (outside : Token.OutsideStrings tokens before.length) :
    compile (source.take size) =
      .error (.error (.lex
        ⟨.unknownCharacter, Text.Utf8.replacement.toNat,
          (Location.start.past before).inFile []⟩)) :=
  Compiler.compile_of_lexError
    (Token.ofSource_take_of_cutsBlank scanned cuts outside)

/-- All that the first bytes of a source can come to, by where they end. -/
theorem compile_take_cases
    {program : Program} (scanned : Token.ofSource [] source = .ok tokens)
    (isRead : Program.ofTokens tokens = .ok program) (size : Nat) :
    (∃ token ∈ tokens, token.CutsString size ∧
      compile (source.take size) =
        .error (.error (.lex
          ⟨.unterminatedString, Bytes.quoteMark.toNat, token.pos⟩))) ∨
    (∃ before, CutsBlank source size before ∧
      Token.OutsideStrings tokens before.length ∧
      compile (source.take size) =
        .error (.error (.lex
          ⟨.unknownCharacter, Text.Utf8.replacement.toNat,
            (Location.start.past before).inFile []⟩))) ∨
    compile (source.take size) =
      .error (.error (.parse ⟨.unexpectedEndOfInput, none⟩)) ∨
    ∃ output, compile (source.take size) = .ok output ∧
      output <+: program.text := by
  rcases Token.ofSource_take_cases scanned size with
    ⟨token, member, cuts⟩ | ⟨before, cuts, outside⟩ |
      ⟨part, partScanned, begins⟩
  · have failed := compile_take_of_cutsString scanned member cuts
    exact Or.inl ⟨token, member, cuts, failed⟩
  · have failed := compile_take_of_cutsBlank scanned cuts outside
    exact Or.inr (Or.inl ⟨before, cuts, outside, failed⟩)
  · exact Or.inr (Or.inr (compile_of_begins partScanned begins isRead))

theorem compile_take_eq_unterminated_iff
    {program : Program} (scanned : Token.ofSource [] source = .ok tokens)
    (isRead : Program.ofTokens tokens = .ok program)
    (size : Nat) (char : Int) (pos : Position) :
    compile (source.take size) =
        .error (.error (.lex ⟨.unterminatedString, char, pos⟩)) ↔
      char = Bytes.quoteMark.toNat ∧
        ∃ token ∈ tokens, token.CutsString size ∧ pos = token.pos := by
  constructor
  · intro failed
    have outcome := compile_take_cases scanned isRead size
    rw [failed] at outcome
    rcases outcome with
      ⟨token, member, cuts, same⟩ | ⟨_, _, _, other⟩ | other | ⟨_, other, _⟩
    · cases same
      exact ⟨rfl, token, member, cuts, rfl⟩
    · cases other
    · cases other
    · cases other
  · rintro ⟨rfl, token, member, cuts, rfl⟩
    exact compile_take_of_cutsString scanned member cuts

theorem compile_take_eq_unknown_iff
    {program : Program} (scanned : Token.ofSource [] source = .ok tokens)
    (isRead : Program.ofTokens tokens = .ok program)
    (size : Nat) (char : Int) (pos : Position) :
    compile (source.take size) =
        .error (.error (.lex ⟨.unknownCharacter, char, pos⟩)) ↔
      char = Text.Utf8.replacement.toNat ∧
        ∃ before, CutsBlank source size before ∧
          Token.OutsideStrings tokens before.length ∧
          pos = (Location.start.past before).inFile [] := by
  constructor
  · intro failed
    have outcome := compile_take_cases scanned isRead size
    rw [failed] at outcome
    rcases outcome with
      ⟨_, _, _, other⟩ | ⟨before, cuts, outside, same⟩ | other | ⟨_, other, _⟩
    · cases other
    · cases same
      exact ⟨rfl, before, cuts, outside, rfl⟩
    · cases other
    · cases other
  · rintro ⟨rfl, before, cuts, outside, rfl⟩
    exact compile_take_of_cutsBlank scanned cuts outside

end Take

/-- The first bytes of a source that compiles end inside a string, which then is
not closed, or inside a white-space character between the lexemes, of which no
character is left.  Everywhere else they lack tokens or compile, and what they
compile to is the beginning of the text of the whole. -/
theorem compile_take
    {source text : Bytes} (compiles : compile source = .ok text) (size : Nat) :
    ∃ tokens, Token.ofSource [] source = .ok tokens ∧
      (∀ char pos,
        compile (source.take size) =
            .error (.error (.lex ⟨.unterminatedString, char, pos⟩)) ↔
          char = Bytes.quoteMark.toNat ∧
            ∃ token ∈ tokens, token.CutsString size ∧ pos = token.pos) ∧
      (∀ char pos,
        compile (source.take size) =
            .error (.error (.lex ⟨.unknownCharacter, char, pos⟩)) ↔
          char = Text.Utf8.replacement.toNat ∧
            ∃ before, CutsBlank source size before ∧
              Token.OutsideStrings tokens before.length ∧
              pos = (Location.start.past before).inFile []) ∧
      ((¬ ∃ token ∈ tokens, token.CutsString size) →
        (¬ ∃ before, CutsBlank source size before ∧
          Token.OutsideStrings tokens before.length) →
        compile (source.take size) =
            .error (.error (.parse ⟨.unexpectedEndOfInput, none⟩)) ∨
          ∃ output, compile (source.take size) = .ok output) ∧
      (∀ token?,
        compile (source.take size) ≠
          .error (.error (.parse ⟨.unexpectedToken, token?⟩))) ∧
      (∀ output, compile (source.take size) = .ok output → output <+: text) := by
  obtain ⟨tokens, program, scanned, isRead, rfl⟩ :=
    (compile_eq_ok_iff source text).mp compiles
  have outcome := compile_take_cases scanned isRead size
  refine ⟨tokens, scanned,
    compile_take_eq_unterminated_iff scanned isRead size,
    compile_take_eq_unknown_iff scanned isRead size, ?_, ?_, ?_⟩
  · intro noString noBlank
    rcases outcome with
      ⟨token, member, cuts, _⟩ | ⟨before, cuts, outside, _⟩ | ended |
        ⟨output, succeeded, _⟩
    · exact absurd ⟨token, member, cuts⟩ noString
    · exact absurd ⟨before, cuts, outside⟩ noBlank
    · exact Or.inl ended
    · exact Or.inr ⟨output, succeeded⟩
  · intro token? failed
    rw [failed] at outcome
    rcases outcome with
      ⟨_, _, _, other⟩ | ⟨_, _, _, other⟩ | other | ⟨_, other, _⟩ <;>
      cases other
  · intro output succeeded
    rw [succeeded] at outcome
    rcases outcome with
      ⟨_, _, _, other⟩ | ⟨_, _, _, other⟩ | other | ⟨_, same, beginning⟩
    · cases other
    · cases other
    · cases other
    · cases same
      exact beginning

/-- A source that is cut inside its number, inside the white space and inside its
string. -/
theorem compile_take_of_no_break_space :
    compile (Bytes.ofString "12\u00a0\"a\"") =
        .ok (Bytes.ofString "12\n\"a\"") ∧
      compile ((Bytes.ofString "12\u00a0\"a\"").take 1) =
        .ok (Bytes.ofString "1") ∧
      Bytes.ofString "1" <+: Bytes.ofString "12\n\"a\"" ∧
      compile ((Bytes.ofString "12\u00a0\"a\"").take 3) =
        .error (.error (.lex ⟨.unknownCharacter, 0xfffd, ⟨[], 2, 1, 3⟩⟩)) ∧
      compile ((Bytes.ofString "12\u00a0\"a\"").take 6) =
        .error (.error (.lex ⟨.unterminatedString, 34, ⟨[], 4, 1, 5⟩⟩)) := by
  have blank : IsBlankRun (Bytes.ofString "\u00a0") :=
    ⟨['\u00a0'], List.forall_mem_singleton.mpr rfl, rfl⟩
  have string : Form.IsWritten (.string (Bytes.ofString "a")) :=
    show Bytes.quoteMark ∉ Bytes.ofString "a" by decide
  have written :
      Form.AreWritten
        [.number (Bytes.ofString "12"), .string (Bytes.ofString "a")] :=
    ⟨⟨by decide, List.all_eq_true.mp rfl⟩, string, trivial⟩
  have digit : Form.AreWritten [.number (Bytes.ofString "1")] :=
    ⟨⟨by decide, List.all_eq_true.mp rfl⟩, trivial⟩
  have compiles := Program.compile_joinedBy written blank (by decide)
  have scanned :=
    ofSource_cut_bytes []
      (Cut.joinedBy blank (by decide) ((Form.areWritten_iff _).mp written))
  have shorter := Program.compile_joinedBy digit blank (by decide)
  refine ⟨compiles, shorter, ?_, ?_, ?_⟩
  · obtain ⟨_, _, _, _, _, _, beginning⟩ := compile_take compiles 1
    exact beginning _ shorter
  · obtain ⟨tokens, found, _, unknown, _⟩ := compile_take compiles 3
    cases found.symm.trans scanned
    refine (unknown _ _).mpr ⟨rfl, Bytes.ofString "12", ?_, ?_, rfl⟩
    · exact ⟨'\u00a0', Bytes.ofString "\"a\"", rfl, rfl, by decide, by decide⟩
    · refine List.forall_mem_cons.mpr
        ⟨?_, List.forall_mem_singleton.mpr ?_⟩
      · intro isString
        cases isString
      · intro _ inside
        exact absurd inside.1 (by decide)
  · obtain ⟨tokens, found, unterminated, _⟩ := compile_take compiles 6
    cases found.symm.trans scanned
    refine (unterminated _ _).mpr
      ⟨rfl, _, List.mem_cons_of_mem _ List.mem_cons_self, ?_, rfl⟩
    exact ⟨rfl, by decide, by decide⟩

end SexprCalls
