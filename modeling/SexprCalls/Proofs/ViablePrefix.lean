import SexprCalls.Proofs.FormGrammar

/-!
# Parse errors stand at the earliest token

A token list is viable if it can be continued to one that is read as a program.
Every reading can be completed, whatever is still open in it: the calls that wait
for their parentheses are closed one by one, from the innermost on.  So the viable
token lists are those that a reading can take whole, and reading stops at the first
token behind which no program can follow.
-/

namespace SexprCalls

/-- Some continuation of the tokens is read as a program. -/
def Program.Viable (tokens : List Token) : Prop :=
  ∃ continuation program, ofTokens (tokens ++ continuation) = .ok program

namespace Reading

/-! ## All that reading can come to -/

/-- The reading after all tokens of a list, or nothing where one of them does
not fit. -/
def advance? (reading : Reading) (tokens : List Token) : Option Reading :=
  tokens.foldlM step? reading

theorem advance?_cons (reading : Reading) (token : Token) (rest : List Token) :
    reading.advance? (token :: rest) =
      (reading.step? token).bind (advance? · rest) :=
  List.foldlM_cons

theorem advance?_singleton (reading : Reading) (token : Token) :
    reading.advance? [token] = reading.step? token := by
  rw [advance?_cons]
  exact Option.bind_fun_some _

theorem advance?_append (reading : Reading) (first second : List Token) :
    reading.advance? (first ++ second) =
      (reading.advance? first).bind (advance? · second) :=
  List.foldlM_append

theorem readFrom_append
    {reading next : Reading} {tokens : List Token}
    (advanced : reading.advance? tokens = some next) (rest : List Token) :
    reading.readFrom (tokens ++ rest) = next.readFrom rest := by
  induction tokens generalizing reading with
  | nil =>
      rw [← Option.some.inj advanced]
      rfl
  | cons token tokens inductionHypothesis =>
      rw [advance?_cons] at advanced
      obtain ⟨middle, stepped, further⟩ := Option.bind_eq_some_iff.mp advanced
      rw [List.cons_append, readFrom_cons stepped, inductionHypothesis further]

theorem readFrom_of_finish?
    {reading next : Reading} {tokens : List Token} {program : Program}
    (advanced : reading.advance? tokens = some next)
    (finished : next.finish? = some program) :
    reading.readFrom tokens = (.ok program, []) := by
  have run := readFrom_append advanced []
  rwa [List.append_nil, readFrom, finished] at run

theorem readFrom_of_open
    {reading next : Reading} {tokens : List Token}
    (advanced : reading.advance? tokens = some next)
    (unfinished : next.finish? = none) :
    reading.readFrom tokens = (.error ⟨.unexpectedEndOfInput, none⟩, []) := by
  have run := readFrom_append advanced []
  rwa [List.append_nil, readFrom, unfinished] at run

theorem readFrom_of_misfit
    {reading last : Reading} {before : List Token} {token : Token}
    (advanced : reading.advance? before = some last)
    (misfit : last.step? token = none) (rest : List Token) :
    reading.readFrom (before ++ token :: rest) =
      (.error ⟨.unexpectedToken, some token⟩, rest) := by
  rw [readFrom_append advanced, readFrom, misfit]

/-- Either all tokens fit, or there is a first one that does not. -/
theorem advance?_cases (reading : Reading) (tokens : List Token) :
    (∃ next, reading.advance? tokens = some next) ∨
      ∃ before token rest last,
        tokens = before ++ token :: rest ∧
          reading.advance? before = some last ∧ last.step? token = none := by
  induction tokens generalizing reading with
  | nil =>
      exact Or.inl ⟨reading, rfl⟩
  | cons token tokens inductionHypothesis =>
      cases stepped : reading.step? token with
      | none =>
          exact Or.inr ⟨[], token, tokens, reading, rfl, rfl, stepped⟩
      | some middle =>
          rcases inductionHypothesis middle with
            ⟨next, advanced⟩ | ⟨before, misfit, rest, last, rfl, advanced, stuck⟩
          · refine Or.inl ⟨next, ?_⟩
            rw [advance?_cons, stepped]
            exact advanced
          · refine Or.inr ⟨token :: before, misfit, rest, last, rfl, ?_, stuck⟩
            rw [advance?_cons, stepped]
            exact advanced

/-! ## Every reading can be completed -/

/-- A closing parenthesis, which closes any call. -/
def closingToken : Token := Lexeme.closing.tokenAt .unknown

/-- A name, which any reading that waits for one takes. -/
def nameToken : Token := Lexeme.tokenAt ⟨.name, []⟩ .unknown

theorem exists_completion_of_ready
    {reading : Reading} (ready : reading.awaitsName = false) :
    ∃ tokens final program,
      reading.advance? tokens = some final ∧ final.finish? = some program := by
  -- Each parenthesis closes the innermost of the calls that are open.
  obtain ⟨latest, enclosing, awaitsName⟩ := reading
  induction enclosing generalizing latest awaitsName with
  | nil =>
      exact ⟨[], _, latest.reverse, rfl,
        finish?_eq_some_iff.mpr ⟨ready, rfl, rfl⟩⟩
  | cons innermost enclosing inductionHypothesis =>
      obtain ⟨tokens, final, program, advanced, finished⟩ :=
        inductionHypothesis
          (.call innermost.name latest.reverse :: innermost.before) false rfl
      have closes := step?_closing ready (Lexeme.lexeme_tokenAt .closing .unknown)
      refine ⟨closingToken :: tokens, final, program, ?_, finished⟩
      rw [advance?_cons, closingToken, closes]
      exact advanced

theorem exists_completion (reading : Reading) :
    ∃ tokens final program,
      reading.advance? tokens = some final ∧ final.finish? = some program := by
  cases awaits : reading.awaitsName with
  | false =>
      exact exists_completion_of_ready awaits
  | true =>
      have named := step?_name awaits (Lexeme.lexeme_tokenAt ⟨.name, []⟩ .unknown)
      have inside : (reading.enter []).awaitsName = false := rfl
      obtain ⟨tokens, final, program, advanced, finished⟩ :=
        exists_completion_of_ready inside
      refine ⟨nameToken :: tokens, final, program, ?_, finished⟩
      rw [advance?_cons, nameToken, named]
      exact advanced

end Reading

namespace Program

theorem ofTokens_eq_readFrom (tokens : List Token) :
    ofTokens tokens = (Reading.start.readFrom tokens).1 :=
  rfl

/-- The viable token lists are those whose tokens all fit. -/
theorem viable_iff (tokens : List Token) :
    Viable tokens ↔ ∃ next, Reading.start.advance? tokens = some next := by
  constructor
  · rintro ⟨continuation, program, isRead⟩
    rcases Reading.start.advance?_cases tokens with
      fits | ⟨before, token, rest, last, rfl, advanced, misfit⟩
    · exact fits
    · -- No continuation mends a token that does not fit.
      rw [ofTokens_eq_readFrom, List.append_assoc, List.cons_append,
        Reading.readFrom_of_misfit advanced misfit] at isRead
      cases isRead
  · rintro ⟨next, advanced⟩
    obtain ⟨continuation, final, program, completed, finished⟩ :=
      next.exists_completion
    refine ⟨continuation, program, ?_⟩
    rw [ofTokens_eq_readFrom, Reading.readFrom_append advanced,
      Reading.readFrom_of_finish? completed finished]

/-- A token that does not fit ends every hope for the tokens up to it. -/
theorem not_viable_concat_iff
    {tokens : List Token} {last : Reading}
    (advanced : Reading.start.advance? tokens = some last) (token : Token) :
    ¬ Viable (tokens ++ [token]) ↔ last.step? token = none := by
  rw [viable_iff, Reading.advance?_append, advanced, Option.bind_some,
    Reading.advance?_singleton, ← Option.isSome_iff_exists,
    Option.not_isSome_iff_eq_none]

/-- All that reading a token list can come to, with the tokens that it leaves. -/
theorem read_cases (tokens : List Token) :
    (∃ program, read tokens = (.ok program, [])) ∨
      (Viable tokens ∧
        read tokens = (.error ⟨.unexpectedEndOfInput, none⟩, [])) ∨
      ∃ before token rest,
        tokens = before ++ token :: rest ∧ Viable before ∧
          ¬ Viable (before ++ [token]) ∧
          read tokens = (.error ⟨.unexpectedToken, some token⟩, rest) := by
  rcases Reading.start.advance?_cases tokens with
    ⟨next, advanced⟩ | ⟨before, token, rest, last, rfl, advanced, misfit⟩
  · cases finished : next.finish? with
    | some program =>
        exact Or.inl
          ⟨program, Reading.readFrom_of_finish? advanced finished⟩
    | none =>
        exact Or.inr (Or.inl
          ⟨(viable_iff tokens).mpr ⟨next, advanced⟩,
            Reading.readFrom_of_open advanced finished⟩)
  · exact Or.inr (Or.inr
      ⟨before, token, rest, rfl, (viable_iff before).mpr ⟨last, advanced⟩,
        (not_viable_concat_iff advanced token).mpr misfit,
        Reading.readFrom_of_misfit advanced misfit rest⟩)

theorem ofTokens_cases (tokens : List Token) :
    (∃ program, ofTokens tokens = .ok program) ∨
      (Viable tokens ∧
        ofTokens tokens = .error ⟨.unexpectedEndOfInput, none⟩) ∨
      ∃ before token rest,
        tokens = before ++ token :: rest ∧ Viable before ∧
          ¬ Viable (before ++ [token]) ∧
          ofTokens tokens = .error ⟨.unexpectedToken, some token⟩ := by
  rcases read_cases tokens with
    ⟨program, run⟩ | ⟨viable, run⟩ |
      ⟨before, token, rest, split, viable, hopeless, run⟩
  · exact Or.inl ⟨program, congrArg Prod.fst run⟩
  · exact Or.inr (Or.inl ⟨viable, congrArg Prod.fst run⟩)
  · exact Or.inr (Or.inr
      ⟨before, token, rest, split, viable, hopeless,
        congrArg Prod.fst run⟩)

theorem ofTokens_of_not_viable
    {before : List Token} {token : Token}
    (viable : Viable before) (hopeless : ¬ Viable (before ++ [token]))
    (rest : List Token) :
    ofTokens (before ++ token :: rest) =
      .error ⟨.unexpectedToken, some token⟩ := by
  obtain ⟨last, advanced⟩ := (viable_iff before).mp viable
  have misfit := (not_viable_concat_iff advanced token).mp hopeless
  exact congrArg Prod.fst (Reading.readFrom_of_misfit advanced misfit rest)

theorem viable_of_append
    {tokens more : List Token} (viable : Viable (tokens ++ more)) :
    Viable tokens := by
  obtain ⟨continuation, program, isRead⟩ := viable
  rw [List.append_assoc] at isRead
  exact ⟨more ++ continuation, program, isRead⟩

theorem ofTokens_eq_unexpectedToken_iff
    (tokens : List Token) (token : Token) :
    ofTokens tokens = .error ⟨.unexpectedToken, some token⟩ ↔
      ∃ index, tokens[index]? = some token ∧
        Viable (tokens.take index) ∧ ¬ Viable (tokens.take (index + 1)) := by
  constructor
  · intro failed
    rcases ofTokens_cases tokens with
      ⟨program, isRead⟩ | ⟨_, ended⟩ |
        ⟨before, misfit, rest, rfl, viable, hopeless, stopped⟩
    · cases isRead.symm.trans failed
    · cases ended.symm.trans failed
    · cases stopped.symm.trans failed
      refine ⟨before.length, ?_, ?_, ?_⟩
      · rw [List.getElem?_append_right (Nat.le_refl _), Nat.sub_self]
        rfl
      · rwa [List.take_left]
      · rwa [List.append_cons, List.take_left']
        rw [List.length_append]
        rfl
  · rintro ⟨index, found, viable, hopeless⟩
    rw [List.take_add_one, found] at hopeless
    have failed :=
      ofTokens_of_not_viable viable hopeless (tokens.drop (index + 1))
    have whole :
        tokens.take index ++ token :: tokens.drop (index + 1) = tokens := by
      have split := tokens.take_append_drop index
      rwa [List.drop_eq_getElem?_toList_append, found] at split
    rwa [whole] at failed

theorem ofTokens_eq_endOfInput_iff (tokens : List Token) :
    ofTokens tokens = .error ⟨.unexpectedEndOfInput, none⟩ ↔
      Viable tokens ∧ ¬ ∃ program, ofTokens tokens = .ok program := by
  constructor
  · intro failed
    rcases ofTokens_cases tokens with
      ⟨program, isRead⟩ | ⟨viable, _⟩ | ⟨_, _, _, _, _, _, stopped⟩
    · cases isRead.symm.trans failed
    · refine ⟨viable, ?_⟩
      rintro ⟨program, isRead⟩
      cases isRead.symm.trans failed
    · cases stopped.symm.trans failed
  · rintro ⟨viable, unread⟩
    rcases ofTokens_cases tokens with
      isRead | ⟨_, ended⟩ | ⟨before, token, rest, rfl, _, hopeless, _⟩
    · exact absurd isRead unread
    · exact ended
    · rw [List.append_cons] at viable
      exact absurd (viable_of_append viable) hopeless

theorem error_of_ofTokens
    {tokens : List Token} {error : ParseError}
    (failed : ofTokens tokens = .error error) :
    (∃ token, error = ⟨.unexpectedToken, some token⟩) ∨
      error = ⟨.unexpectedEndOfInput, none⟩ := by
  rcases ofTokens_cases tokens with
    ⟨program, isRead⟩ | ⟨_, ended⟩ | ⟨_, token, _, _, _, _, stopped⟩
  · cases isRead.symm.trans failed
  · exact Or.inr (Except.error.inj (failed.symm.trans ended))
  · exact Or.inl ⟨token, Except.error.inj (failed.symm.trans stopped)⟩

/-- Reading stops at the first token behind which no program can follow, and it
misses tokens only where more of them could have followed.  It fails in no other
way. -/
theorem ofTokens_fails_earliest (tokens : List Token) :
    (∀ token,
      ofTokens tokens = .error ⟨.unexpectedToken, some token⟩ ↔
        ∃ index, tokens[index]? = some token ∧
          Viable (tokens.take index) ∧ ¬ Viable (tokens.take (index + 1))) ∧
    (ofTokens tokens = .error ⟨.unexpectedEndOfInput, none⟩ ↔
      Viable tokens ∧ ¬ ∃ program, ofTokens tokens = .ok program) ∧
    (∀ error, ofTokens tokens = .error error →
      (∃ token, error = ⟨.unexpectedToken, some token⟩) ∨
        error = ⟨.unexpectedEndOfInput, none⟩) :=
  ⟨ofTokens_eq_unexpectedToken_iff tokens, ofTokens_eq_endOfInput_iff tokens,
    fun _ => error_of_ofTokens⟩

end Program
end SexprCalls
