import SexprCalls.Proofs.SourceSpelling

/-!
# The text determines the program

Strings are printed without any escape, and their contents may look like any
other part of an output.  The text of a program can still be read in one way
only.  It is read from left to right: the lexeme at the head of a text tells which
form stands there, and what follows a form never continues that lexeme.  The one
thing to ask of a string is that it does not hold the mark that ends it.
-/

namespace SexprCalls

/-- Two texts that start with a lexeme each, and where the lexeme ends with its
spelling, start with the same lexeme if they are equal. -/
theorem Lexeme.eq_of_spelling_append_eq
    {lexeme other : Lexeme} {rest otherRest : Bytes}
    (written : lexeme.IsWritten) (otherWritten : other.IsWritten)
    (ends : lexeme.EndsBefore rest) (otherEnds : other.EndsBefore otherRest)
    (same : lexeme.spelling ++ rest = other.spelling ++ otherRest) :
    lexeme = other ∧ rest = otherRest := by
  obtain ⟨first, more, split⟩ :=
    List.exists_cons_of_ne_nil (spelling_ne_nil written)
  have headed : first :: (more ++ rest) = lexeme.spelling ++ rest := by
    rw [split, List.cons_append]
  -- Both lexemes are the piece that a scan finds at the head of the text.
  have piece := Piece.ofInput_lexeme written ends headed
  have otherPiece :=
    Piece.ofInput_lexeme otherWritten otherEnds (headed.trans same)
  rw [piece] at otherPiece
  injection otherPiece with sameKind sameText _ sameRest
  obtain ⟨kind, text⟩ := lexeme
  obtain ⟨otherKind, otherText⟩ := other
  exact ⟨congr (congrArg Lexeme.mk sameKind) sameText, sameRest⟩

/-! ## Lists of items -/

section Items

variable {α : Type} {text : α → Bytes} {separator : Bytes}
  {Follows : Bytes → Prop}

/-- The texts of two items are told apart in front of whatever may follow
one. -/
def ToldApart (text : α → Bytes) (Follows : Bytes → Prop)
    (item other : α) : Prop :=
  ∀ rest otherRest, Follows rest → Follows otherRest →
    text item ++ rest = text other ++ otherRest →
      item = other ∧ rest = otherRest

/-- What may stand behind a list: it may follow an item, and neither a
separator nor an item stands at its head. -/
structure EndsList (text : α → Bytes) (separator : Bytes)
    (Follows : Bytes → Prop) (items : List α) (rest : Bytes) : Prop where
  follows : Follows rest
  no_separator : ∀ more, rest ≠ separator ++ more
  no_item : ∀ item ∈ items, ∀ more, Follows more → rest ≠ text item ++ more

theorem follows_flatMap
    (separated : ∀ rest, Follows (separator ++ rest))
    {rest : Bytes} (follows : Follows rest) (items : List α) :
    Follows (items.flatMap (separator ++ text ·) ++ rest) := by
  cases items with
  | nil =>
      exact follows
  | cons item items =>
      rw [List.flatMap_cons, List.append_assoc, List.append_assoc]
      exact separated _

theorem flatMap_separated_inj
    (separated : ∀ rest, Follows (separator ++ rest))
    {items others : List α} {rest otherRest : Bytes}
    (apart : ∀ item ∈ items, ∀ other ∈ others,
      ToldApart text Follows item other)
    (follows : Follows rest) (otherFollows : Follows otherRest)
    (ends : ∀ more, rest ≠ separator ++ more)
    (otherEnds : ∀ more, otherRest ≠ separator ++ more)
    (same :
      items.flatMap (separator ++ text ·) ++ rest =
        others.flatMap (separator ++ text ·) ++ otherRest) :
    items = others ∧ rest = otherRest := by
  induction items generalizing others with
  | nil =>
      cases others with
      | nil =>
          exact ⟨rfl, same⟩
      | cons other others =>
          rw [List.flatMap_cons, List.append_assoc, List.append_assoc] at same
          exact absurd same (ends _)
  | cons item items inductionHypothesis =>
      cases others with
      | nil =>
          rw [List.flatMap_cons, List.append_assoc, List.append_assoc] at same
          exact absurd same.symm (otherEnds _)
      | cons other others =>
          simp only [List.flatMap_cons, List.append_assoc] at same
          obtain ⟨rfl, sameTail⟩ :=
            apart item List.mem_cons_self other List.mem_cons_self _ _
              (follows_flatMap separated follows items)
              (follows_flatMap separated otherFollows others)
              (List.append_cancel_left same)
          obtain ⟨rfl, sameRest⟩ :=
            inductionHypothesis
              (fun left leftMember right rightMember =>
                apart left (List.mem_cons_of_mem _ leftMember) right
                  (List.mem_cons_of_mem _ rightMember))
              sameTail
          exact ⟨rfl, sameRest⟩

/-- Lists whose items are told apart are told apart themselves, with separators
between the items. -/
theorem intercalate_inj
    (separated : ∀ rest, Follows (separator ++ rest))
    {items others : List α} {rest otherRest : Bytes}
    (apart : ∀ item ∈ items, ∀ other ∈ others,
      ToldApart text Follows item other)
    (ends : EndsList text separator Follows others rest)
    (otherEnds : EndsList text separator Follows items otherRest)
    (same :
      separator.intercalate (items.map text) ++ rest =
        separator.intercalate (others.map text) ++ otherRest) :
    items = others ∧ rest = otherRest := by
  cases items with
  | nil =>
      cases others with
      | nil =>
          exact ⟨rfl, same⟩
      | cons other others =>
          rw [List.map_cons, OutputNode.intercalate_cons_eq_flatMap,
            List.append_assoc, List.flatMap_map] at same
          exact absurd same
            (ends.no_item other List.mem_cons_self _
              (follows_flatMap separated otherEnds.follows others))
  | cons item items =>
      cases others with
      | nil =>
          rw [List.map_cons, OutputNode.intercalate_cons_eq_flatMap,
            List.append_assoc, List.flatMap_map] at same
          exact absurd same.symm
            (otherEnds.no_item item List.mem_cons_self _
              (follows_flatMap separated ends.follows items))
      | cons other others =>
          -- With one more separator in front, all items look alike.
          have uniform :
              (item :: items).flatMap (separator ++ text ·) ++ rest =
                (other :: others).flatMap (separator ++ text ·) ++
                  otherRest := by
            have prefixed := congrArg (separator ++ ·) same
            simpa [OutputNode.intercalate_cons_eq_flatMap,
              List.flatMap_map] using prefixed
          exact flatMap_separated_inj separated apart ends.follows
            otherEnds.follows ends.no_separator otherEnds.no_separator uniform

end Items

/-! ## Forms -/

namespace Form

/-- The lexeme at the head of the text of a form. -/
def leadLexeme : Form → Lexeme
  | .number value => ⟨.number, value⟩
  | .string value => ⟨.string, value⟩
  | .call name _ => ⟨.name, name⟩

/-- The text of a form behind its first lexeme. -/
def tailText : Form → Bytes
  | .call _ params =>
      Bytes.ofString "(" ++
        ((Bytes.ofString ", ").intercalate (params.map text) ++
          Bytes.ofString ")")
  | _ => []

theorem texts_eq_map (forms : List Form) :
    texts forms = forms.map text := by
  induction forms with
  | nil =>
      rfl
  | cons form rest inductionHypothesis =>
      rw [texts, inductionHypothesis, List.map_cons]

theorem text_eq_lead_append_tail (form : Form) :
    form.text = form.leadLexeme.spelling ++ form.tailText := by
  cases form with
  | number value =>
      exact (List.append_nil value).symm
  | string value =>
      exact (List.append_nil _).symm
  | call name params =>
      rw [text, texts_eq_map, tailText, leadLexeme, Lexeme.spelling]
      simp only [List.append_assoc]

theorem leadLexeme_isWritten
    {form : Form} (written : form.IsWritten) :
    form.leadLexeme.IsWritten := by
  cases form with
  | number value =>
      exact written
  | string value =>
      exact written
  | call name params =>
      exact written.1

theorem areWritten_iff_forall_mem (forms : List Form) :
    AreWritten forms ↔ ∀ form ∈ forms, form.IsWritten := by
  induction forms with
  | nil =>
      exact iff_of_true trivial nofun
  | cons form rest inductionHypothesis =>
      rw [AreWritten, inductionHypothesis, List.forall_mem_cons]

/-- A text that does not run on into a number before it. -/
def NoDigit (rest : Bytes) : Prop :=
  ∀ byte ∈ rest.head?, Bytes.isDigit byte = false

theorem leadLexeme_endsBefore
    (form : Form) {rest : Bytes} (follows : NoDigit rest) :
    form.leadLexeme.EndsBefore (form.tailText ++ rest) := by
  cases form with
  | number value =>
      exact follows
  | string value =>
      exact fun _ _ => rfl
  | call name params =>
      rintro byte ⟨⟩
      rfl

/-- Behind the parameters of a call stands a parenthesis. -/
theorem endsList_closing
    {forms : List Form} (written : AreWritten forms) (rest : Bytes) :
    EndsList text (Bytes.ofString ", ") NoDigit forms
      (Bytes.ofString ")" ++ rest) where
  follows := by
    rintro byte ⟨⟩
    rfl
  no_separator := by
    rintro more ⟨⟩
  no_item := by
    intro form member more follows same
    rw [text_eq_lead_append_tail, List.append_assoc] at same
    -- The parenthesis would be the first lexeme of a form.
    have formWritten := (areWritten_iff_forall_mem forms).mp written form member
    have closing : Lexeme.closing.IsWritten := Or.inr rfl
    obtain ⟨lead, _⟩ :=
      Lexeme.eq_of_spelling_append_eq closing
        (leadLexeme_isWritten formWritten)
        (fun _ _ => rfl) (form.leadLexeme_endsBefore follows) same
    cases form <;> cases lead

mutual

/-- A form is told from any other by its text, whatever follows. -/
theorem text_toldApart
    (form : Form) (written : form.IsWritten)
    (other : Form) (otherWritten : other.IsWritten) :
    ToldApart text NoDigit form other := by
  intro rest otherRest follows otherFollows same
  rw [text_eq_lead_append_tail, text_eq_lead_append_tail, List.append_assoc,
    List.append_assoc] at same
  obtain ⟨sameLead, sameTail⟩ :=
    Lexeme.eq_of_spelling_append_eq
      (leadLexeme_isWritten written) (leadLexeme_isWritten otherWritten)
      (form.leadLexeme_endsBefore follows)
      (other.leadLexeme_endsBefore otherFollows) same
  -- The first lexeme tells the kind of the form and all of a literal.
  match form, other, sameLead with
  | .number value, .number _, rfl =>
      exact ⟨rfl, sameTail⟩
  | .string value, .string _, rfl =>
      exact ⟨rfl, sameTail⟩
  | .call name params, .call _ otherParams, rfl =>
      have apart := texts_toldApart params written.2 otherParams otherWritten.2
      have separated : ∀ behind, NoDigit (Bytes.ofString ", " ++ behind) := by
        rintro behind byte ⟨⟩
        rfl
      simp only [tailText, List.append_assoc] at sameTail
      obtain ⟨rfl, sameRest⟩ :=
        intercalate_inj separated apart
          (endsList_closing otherWritten.2 rest)
          (endsList_closing written.2 otherRest)
          (List.append_cancel_left sameTail)
      exact ⟨rfl, List.append_cancel_left sameRest⟩

theorem texts_toldApart
    (forms : List Form) (written : AreWritten forms)
    (others : List Form) (othersWritten : AreWritten others) :
    ∀ form ∈ forms, ∀ other ∈ others, ToldApart text NoDigit form other := by
  match forms with
  | [] =>
      exact nofun
  | form :: rest =>
      refine List.forall_mem_cons.mpr ⟨?_, ?_⟩
      · intro other member
        exact text_toldApart form written.1 other
          ((areWritten_iff_forall_mem others).mp othersWritten other member)
      · exact texts_toldApart rest written.2 others othersWritten

end

/-! ## Programs -/

/-- What stands behind a form that stands in no call. -/
def NewLine (rest : Bytes) : Prop :=
  ∀ byte ∈ rest.head?, byte = Bytes.newline

/-- What ends a form that stands in no call. -/
def terminator : Form → Bytes
  | .call _ _ => Bytes.ofString ";"
  | _ => []

theorem lineText_eq_text_append (form : Form) :
    form.lineText = form.text ++ form.terminator := by
  cases form with
  | number value =>
      exact (List.append_nil _).symm
  | string value =>
      exact (List.append_nil _).symm
  | call name params =>
      rfl

theorem noDigit_terminator_append
    (form : Form) {rest : Bytes} (follows : NewLine rest) :
    NoDigit (form.terminator ++ rest) := by
  have noDigit : NoDigit rest := by
    intro byte atHead
    rw [follows byte atHead]
    rfl
  cases form with
  | number value =>
      exact noDigit
  | string value =>
      exact noDigit
  | call name params =>
      rintro byte ⟨⟩
      rfl

theorem lineText_toldApart
    (form : Form) (written : form.IsWritten)
    (other : Form) (otherWritten : other.IsWritten) :
    ToldApart lineText NewLine form other := by
  intro rest otherRest follows otherFollows same
  rw [lineText_eq_text_append, lineText_eq_text_append, List.append_assoc,
    List.append_assoc] at same
  obtain ⟨rfl, sameEnd⟩ :=
    form.text_toldApart written other otherWritten _ _
      (form.noDigit_terminator_append follows)
      (other.noDigit_terminator_append otherFollows) same
  exact ⟨rfl, List.append_cancel_left sameEnd⟩

theorem text_ne_nil {form : Form} (written : form.IsWritten) :
    form.text ≠ [] := by
  rw [text_eq_lead_append_tail]
  exact List.append_ne_nil_of_left_ne_nil
    (Lexeme.spelling_ne_nil (leadLexeme_isWritten written)) _

theorem endsList_nil
    {forms : List Form} (written : ∀ form ∈ forms, form.IsWritten) :
    EndsList lineText (Bytes.ofString "\n") NewLine forms [] where
  follows := nofun
  no_separator := by
    rintro more ⟨⟩
  no_item := by
    intro form member more _ same
    rw [lineText_eq_text_append, List.append_assoc] at same
    exact text_ne_nil (written form member)
      (List.append_eq_nil_iff.mp same.symm).1

end Form

/-- Programs that can be written have different texts. -/
theorem Program.eq_of_text_eq
    {program other : Program}
    (written : Form.AreWritten program) (otherWritten : Form.AreWritten other)
    (same : program.text = other.text) :
    program = other := by
  rw [Form.areWritten_iff_forall_mem] at written otherWritten
  have separated :
      ∀ behind, Form.NewLine (Bytes.ofString "\n" ++ behind) := by
    rintro behind byte ⟨⟩
    rfl
  have apart :
      ∀ form ∈ program, ∀ otherForm ∈ other,
        ToldApart Form.lineText Form.NewLine form otherForm :=
    fun form member otherForm otherMember =>
      form.lineText_toldApart (written form member) otherForm
        (otherWritten otherForm otherMember)
  have sameLines := congrArg (· ++ []) same
  exact (intercalate_inj separated apart (Form.endsList_nil otherWritten)
    (Form.endsList_nil written) sameLines).1

/-- A string with a quotation mark in it would print like two strings. -/
example :
    Program.text [.string (Bytes.ofString "a\"\n\"b")] =
      Program.text
        [.string (Bytes.ofString "a"), .string (Bytes.ofString "b")] := by
  decide

/-! ## Sources -/

/-- Lexemes with the same white space between any two of them. -/
def SpacedLexeme.joinedBy (gap : Bytes) : List Lexeme → List SpacedLexeme
  | [] => []
  | lexeme :: rest => ⟨[], lexeme⟩ :: rest.map (SpacedLexeme.mk gap)

theorem SpacedLexeme.isChain_of_gaps
    (first : SpacedLexeme) {rest : List SpacedLexeme}
    (spaced : ∀ later ∈ rest, later.gap ≠ []) :
    (first :: rest).IsChain MayPrecede := by
  induction rest generalizing first with
  | nil =>
      exact .singleton first
  | cons second rest inductionHypothesis =>
      obtain ⟨secondSpaced, restSpaced⟩ := List.forall_mem_cons.mp spaced
      exact .cons_cons (fun _ => secondSpaced)
        (inductionHypothesis second restSpaced)

/-- Any lexemes that can be written make up a source. -/
def Cut.joinedBy
    {gap : Bytes} (blank : IsBlankRun gap) (nonempty : gap ≠ [])
    {lexemes : List Lexeme}
    (written : ∀ lexeme ∈ lexemes, lexeme.IsWritten) : Cut where
  sequence := SpacedLexeme.joinedBy gap lexemes
  trailing := []
  gaps_blank := by
    cases lexemes with
    | nil =>
        exact nofun
    | cons first rest =>
        refine List.forall_mem_cons.mpr ⟨isBlankRun_nil, ?_⟩
        exact List.forall_mem_map.mpr fun _ _ => blank
  lexemes_written := by
    cases lexemes with
    | nil =>
        exact nofun
    | cons first rest =>
        obtain ⟨firstWritten, restWritten⟩ := List.forall_mem_cons.mp written
        refine List.forall_mem_cons.mpr ⟨firstWritten, ?_⟩
        exact List.forall_mem_map.mpr restWritten
  separated := by
    cases lexemes with
    | nil =>
        exact .nil
    | cons first rest =>
        exact SpacedLexeme.isChain_of_gaps _
          (List.forall_mem_map.mpr fun _ _ => nonempty)
  trailing_blank := isBlankRun_nil

theorem SpacedLexeme.map_lexeme_joinedBy
    (gap : Bytes) (lexemes : List Lexeme) :
    (joinedBy gap lexemes).map lexeme = lexemes := by
  cases lexemes with
  | nil =>
      rfl
  | cons first rest =>
      rw [joinedBy, List.map_cons, List.map_map]
      exact congrArg (first :: ·) (List.map_id rest)

/-- A source is scanned and read as a program. -/
def Program.IsReadFrom (program : Program) (source : Bytes) : Prop :=
  ∃ tokens, Token.ofSource [] source = .ok tokens ∧
    ofTokens tokens = .ok program

/-- The strings of a program that is read off a source hold no quotation mark,
and its numbers and names are runs of digits and of letters. -/
theorem Program.areWritten_of_ofSource
    {file source : Bytes} {tokens : List Token} {program : Program}
    (scanned : Token.ofSource file source = .ok tokens)
    (isRead : ofTokens tokens = .ok program) :
    Form.AreWritten program := by
  have cut :=
    (program.exists_tokens_iff_cut file source).mp ⟨tokens, scanned, isRead⟩
  exact ((program.spelledBy_iff_cut source).mpr cut).1

theorem Program.IsReadFrom.areWritten
    {program : Program} {source : Bytes}
    (isReadFrom : program.IsReadFrom source) :
    Form.AreWritten program := by
  obtain ⟨tokens, scanned, isRead⟩ := isReadFrom
  exact areWritten_of_ofSource scanned isRead

theorem exists_isReadFrom_of_compile
    {source text : Bytes} (compiles : compile source = .ok text) :
    ∃ program : Program, program.IsReadFrom source ∧ text = program.text := by
  obtain ⟨tokens, program, scanned, isRead, sameText⟩ :=
    (compile_eq_ok_iff source text).mp compiles
  exact ⟨program, ⟨tokens, scanned, isRead⟩, sameText⟩

/-- Every program that can be written has a source, with any white space between
its lexemes. -/
theorem Program.compile_joinedBy
    {program : Program} (written : Form.AreWritten program)
    {gap : Bytes} (blank : IsBlankRun gap) (nonempty : gap ≠ []) :
    compile
        (Cut.joinedBy blank nonempty
          ((Form.areWritten_iff program).mp written)).bytes =
      .ok program.text := by
  obtain ⟨tokens, scanned, isRead⟩ :=
    (program.exists_tokens_iff_cut [] _).mpr
      ⟨Cut.joinedBy blank nonempty ((Form.areWritten_iff program).mp written),
        rfl, SpacedLexeme.map_lexeme_joinedBy gap program.lexemes⟩
  exact (compile_eq_ok_iff _ _).mpr ⟨tokens, program, scanned, isRead, rfl⟩

/-- Two sources that compile have the same text exactly if they are read as the
same program.  No string of such a program holds a quotation mark. -/
theorem compile_eq_iff_same_program
    {first second firstText secondText : Bytes}
    (firstCompiles : compile first = .ok firstText)
    (secondCompiles : compile second = .ok secondText) :
    ∃ firstProgram secondProgram : Program,
      firstProgram.IsReadFrom first ∧ Form.AreWritten firstProgram ∧
        secondProgram.IsReadFrom second ∧ Form.AreWritten secondProgram ∧
          (compile first = compile second ↔ firstProgram = secondProgram) := by
  obtain ⟨firstProgram, firstRead, rfl⟩ :=
    exists_isReadFrom_of_compile firstCompiles
  obtain ⟨secondProgram, secondRead, rfl⟩ :=
    exists_isReadFrom_of_compile secondCompiles
  refine ⟨firstProgram, secondProgram, firstRead, firstRead.areWritten,
    secondRead, secondRead.areWritten, ?_⟩
  rw [firstCompiles, secondCompiles]
  constructor
  · intro sameResult
    exact Program.eq_of_text_eq firstRead.areWritten secondRead.areWritten
      (Except.ok.inj sameResult)
  · rintro rfl
    rfl

/-- Two spellings of a call whose string looks like the end of a statement. -/
theorem compile_eq_iff_same_program_of_respaced :
    compile (Bytes.ofString "( f \"a, b);\n(\" 1 )") =
        .ok (Bytes.ofString "f(\"a, b);\n(\", 1);") ∧
      compile (Bytes.ofString "(\nf\n\"a, b);\n(\"\n1\n)") =
        .ok (Bytes.ofString "f(\"a, b);\n(\", 1);") ∧
      ∃ firstProgram secondProgram : Program,
        firstProgram.IsReadFrom (Bytes.ofString "( f \"a, b);\n(\" 1 )") ∧
          Form.AreWritten firstProgram ∧
          secondProgram.IsReadFrom
            (Bytes.ofString "(\nf\n\"a, b);\n(\"\n1\n)") ∧
          Form.AreWritten secondProgram ∧
          (compile (Bytes.ofString "( f \"a, b);\n(\" 1 )") =
              compile (Bytes.ofString "(\nf\n\"a, b);\n(\"\n1\n)") ↔
            firstProgram = secondProgram) := by
  have digit : Form.IsWritten (.number (Bytes.ofString "1")) :=
    ⟨by decide, List.all_eq_true.mp rfl⟩
  have string : Form.IsWritten (.string (Bytes.ofString "a, b);\n(")) :=
    show Bytes.quoteMark ∉ Bytes.ofString "a, b);\n(" by decide
  have written :
      Form.AreWritten
        [.call (Bytes.ofString "f")
          [.string (Bytes.ofString "a, b);\n("),
            .number (Bytes.ofString "1")]] :=
    ⟨⟨⟨by decide, List.all_eq_true.mp rfl⟩, string, digit, trivial⟩, trivial⟩
  have space : IsBlankRun (Bytes.ofString " ") :=
    ⟨[' '], List.forall_mem_singleton.mpr rfl, rfl⟩
  have newline : IsBlankRun (Bytes.ofString "\n") :=
    ⟨['\n'], List.forall_mem_singleton.mpr rfl, rfl⟩
  have first := Program.compile_joinedBy written space (by decide)
  have second := Program.compile_joinedBy written newline (by decide)
  exact ⟨first, second, compile_eq_iff_same_program first second⟩

end SexprCalls
