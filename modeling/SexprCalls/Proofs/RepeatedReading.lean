import SexprCalls.Proofs.ViablePrefix

/-!
# Reading on after an error

A reading that has stopped leaves the tokens behind the place where it stopped,
and the next reading takes them up as if they were a list of their own.  Every
error costs at least one token, and a program or a missing end takes all that are
left, so that a session comes to rest after as many errors as there are tokens.
-/

namespace SexprCalls

namespace Program

/-- The tokens that several readings, one after the other, leave. -/
def leftAfter : (times : Nat) → List Token → List Token
  | 0, tokens => tokens
  | times + 1, tokens => leftAfter times (read tokens).2

/-- The index of the token at which the next reading starts. -/
def cursorAfter (times : Nat) (tokens : List Token) : Nat :=
  tokens.length - (leftAfter times tokens).length

def isFailure : Except ParseError Program → Bool
  | .ok _ => false
  | .error _ => true

def isMissingEnd : Except ParseError Program → Bool
  | .ok _ => false
  | .error error => error.cause = .unexpectedEndOfInput

/-! ## One reading -/

theorem read_nil : read [] = (.ok [], []) :=
  rfl

theorem rest_suffix (tokens : List Token) : (read tokens).2 <:+ tokens := by
  rcases read_cases tokens with
    ⟨program, run⟩ | ⟨_, run⟩ | ⟨before, token, rest, rfl, _, _, run⟩
  · rw [run]
    exact List.nil_suffix
  · rw [run]
    exact List.nil_suffix
  · rw [run]
    exact ⟨before ++ [token], (List.append_cons before token rest).symm⟩

/-- A reading that fails takes at least one token. -/
theorem length_rest_lt
    {tokens rest : List Token} {error : ParseError}
    (failed : read tokens = (.error error, rest)) :
    rest.length < tokens.length := by
  rcases read_cases tokens with
    ⟨program, run⟩ | ⟨_, run⟩ | ⟨before, token, behind, rfl, _, _, run⟩
  · cases failed.symm.trans run
  · cases failed.symm.trans run
    have some : tokens ≠ [] := by
      rintro rfl
      cases run
    exact List.length_pos_iff.mpr some
  · cases failed.symm.trans run
    simp only [List.length_append, List.length_cons]
    omega

/-! ## Several readings -/

theorem leftAfter_succ (times : Nat) (tokens : List Token) :
    leftAfter (times + 1) tokens = (read (leftAfter times tokens)).2 := by
  induction times generalizing tokens with
  | zero =>
      rfl
  | succ times inductionHypothesis =>
      exact inductionHypothesis (read tokens).2

theorem leftAfter_suffix (times : Nat) (tokens : List Token) :
    leftAfter times tokens <:+ tokens := by
  induction times with
  | zero =>
      exact List.suffix_rfl
  | succ times inductionHypothesis =>
      rw [leftAfter_succ]
      exact (rest_suffix _).trans inductionHypothesis

theorem cursorAfter_add_length (times : Nat) (tokens : List Token) :
    cursorAfter times tokens + (leftAfter times tokens).length =
      tokens.length := by
  have shorter := (leftAfter_suffix times tokens).length_le
  unfold cursorAfter
  omega

/-- The tokens that are left are those from the cursor on. -/
theorem leftAfter_eq_drop (times : Nat) (tokens : List Token) :
    leftAfter times tokens = tokens.drop (cursorAfter times tokens) :=
  List.suffix_iff_eq_drop.mp (leftAfter_suffix times tokens)

theorem leftAfter_eq_nil_of_le
    {earlier later : Nat} {tokens : List Token}
    (order : earlier ≤ later) (done : leftAfter earlier tokens = []) :
    leftAfter later tokens = [] := by
  induction order with
  | refl =>
      exact done
  | step _ inductionHypothesis =>
      rw [leftAfter_succ, inductionHypothesis, read_nil]

theorem readRepeatedly_cons
    {tokens rest : List Token} {result : Except ParseError Program}
    (run : read tokens = (result, rest)) (times : Nat) :
    readRepeatedly (times + 1) tokens = result :: readRepeatedly times rest := by
  rw [readRepeatedly, run]

theorem readRepeatedly_eq_map (times : Nat) (tokens : List Token) :
    readRepeatedly times tokens =
      (List.range times).map fun index => ofTokens (leftAfter index tokens) := by
  induction times generalizing tokens with
  | zero =>
      rfl
  | succ times inductionHypothesis =>
      rw [readRepeatedly_cons rfl, inductionHypothesis, List.range_succ_eq_map,
        List.map_cons, List.map_map]
      rfl

theorem readRepeatedly_getElem?
    {index times : Nat} (inside : index < times) (tokens : List Token) :
    (readRepeatedly times tokens)[index]? =
      some (ofTokens (leftAfter index tokens)) := by
  rw [readRepeatedly_eq_map, List.getElem?_map, List.getElem?_range inside]
  rfl

theorem readRepeatedly_nil (times : Nat) :
    readRepeatedly times [] = List.replicate times (.ok []) := by
  induction times with
  | zero =>
      rfl
  | succ times inductionHypothesis =>
      rw [readRepeatedly_cons read_nil, inductionHypothesis,
        List.replicate_succ]

/-! ## What a session can fail with -/

theorem countP_readRepeatedly_nil
    {fails : Except ParseError Program → Bool}
    (passes : fails (.ok []) = false) (times : Nat) :
    (readRepeatedly times []).countP fails = 0 := by
  rw [readRepeatedly_nil, List.countP_replicate, passes]
  rfl

theorem countP_isFailure_le (times : Nat) (tokens : List Token) :
    (readRepeatedly times tokens).countP isFailure ≤ tokens.length := by
  induction times generalizing tokens with
  | zero =>
      exact Nat.zero_le _
  | succ times inductionHypothesis =>
      cases run : read tokens with
      | mk result rest =>
          have others := inductionHypothesis rest
          rw [readRepeatedly_cons run]
          cases result with
          | ok program =>
              have shorter := (rest_suffix tokens).length_le
              rw [run] at shorter
              rw [List.countP_cons_of_neg Bool.false_ne_true]
              exact Nat.le_trans others shorter
          | error error =>
              have shorter := length_rest_lt run
              rw [List.countP_cons_of_pos rfl]
              omega

theorem countP_isMissingEnd_le (times : Nat) (tokens : List Token) :
    (readRepeatedly times tokens).countP isMissingEnd ≤ 1 := by
  induction times generalizing tokens with
  | zero =>
      exact Nat.zero_le _
  | succ times inductionHypothesis =>
      rcases read_cases tokens with
        ⟨program, run⟩ | ⟨_, run⟩ | ⟨_, token, rest, _, _, _, run⟩
      · rw [readRepeatedly_cons run, List.countP_cons_of_neg Bool.false_ne_true,
          countP_readRepeatedly_nil rfl]
        exact Nat.zero_le _
      · apply Nat.le_of_eq
        rw [readRepeatedly_cons run, List.countP_cons_of_pos rfl,
          countP_readRepeatedly_nil rfl]
      · rw [readRepeatedly_cons run, List.countP_cons_of_neg Bool.false_ne_true]
        exact inductionHypothesis rest

/-! ## Where the cursor stands -/

theorem cursorAfter_eq_length_iff (times : Nat) (tokens : List Token) :
    cursorAfter times tokens = tokens.length ↔ leftAfter times tokens = [] := by
  have whole := cursorAfter_add_length times tokens
  rw [← List.length_eq_zero_iff]
  omega

/-- Behind a program and behind a missing end nothing is left. -/
theorem leftAfter_succ_eq_nil
    {index : Nat} {tokens : List Token} {result : Except ParseError Program}
    (run : ofTokens (leftAfter index tokens) = result)
    (last : isFailure result = false ∨ isMissingEnd result = true) :
    leftAfter (index + 1) tokens = [] := by
  rw [leftAfter_succ]
  rcases read_cases (leftAfter index tokens) with
    ⟨program, taken⟩ | ⟨_, taken⟩ | ⟨_, token, rest, _, _, _, taken⟩
  · rw [taken]
  · rw [taken]
  · have same : result = .error ⟨.unexpectedToken, some token⟩ :=
      run.symm.trans (congrArg Prod.fst taken)
    subst same
    rcases last with passed | ended
    · cases passed
    · cases ended

/-- The place where a reading from a cursor stops: the first token behind which
no program can follow any more. -/
structure StopsAt (tokens : List Token) (cursor offending : Nat)
    (token : Token) : Prop where
  reached : cursor ≤ offending
  found : tokens[offending]? = some token
  viable : Viable ((tokens.take offending).drop cursor)
  hopeless : ¬ Viable ((tokens.take (offending + 1)).drop cursor)

theorem stopsAt_of_split
    {tokens before rest : List Token} {cursor : Nat} {token : Token}
    (split : tokens.drop cursor = before ++ token :: rest)
    (viable : Viable before) (hopeless : ¬ Viable (before ++ [token])) :
    StopsAt tokens cursor (cursor + before.length) token where
  reached := Nat.le_add_right _ _
  found := by
    rw [← List.getElem?_drop, split,
      List.getElem?_append_right (Nat.le_refl _), Nat.sub_self]
    rfl
  viable := by
    rw [List.drop_take, Nat.add_sub_cancel_left, split, List.take_left]
    exact viable
  hopeless := by
    have taken :
        (tokens.take (cursor + before.length + 1)).drop cursor =
          before ++ [token] := by
      rw [List.drop_take, Nat.add_assoc, Nat.add_sub_cancel_left, split,
        List.append_cons]
      exact List.take_left' (by simp)
    rw [taken]
    exact hopeless

theorem cursorAfter_of_error
    {index : Nat} {tokens : List Token} {error : ParseError}
    (failed : ofTokens (leftAfter index tokens) = .error error) :
    cursorAfter index tokens < cursorAfter (index + 1) tokens ∧
      ((error = ⟨.unexpectedEndOfInput, none⟩ ∧
          cursorAfter (index + 1) tokens = tokens.length) ∨
        ∃ token offending,
          error = ⟨.unexpectedToken, some token⟩ ∧
            StopsAt tokens (cursorAfter index tokens) offending token ∧
            cursorAfter (index + 1) tokens = offending + 1) := by
  have whole := cursorAfter_add_length index tokens
  have wholeNext := cursorAfter_add_length (index + 1) tokens
  rw [leftAfter_succ] at wholeNext
  rcases read_cases (leftAfter index tokens) with
    ⟨program, run⟩ | ⟨_, run⟩ |
      ⟨before, token, rest, split, viable, hopeless, run⟩
  · cases failed.symm.trans (congrArg Prod.fst run)
  · cases failed.symm.trans (congrArg Prod.fst run)
    have shorter := length_rest_lt run
    rw [run, List.length_nil] at wholeNext
    exact ⟨by omega, Or.inl ⟨rfl, by omega⟩⟩
  · cases failed.symm.trans (congrArg Prod.fst run)
    have shorter := length_rest_lt run
    have lengths := congrArg List.length split
    rw [List.length_append, List.length_cons] at lengths
    simp only [run] at wholeNext
    rw [leftAfter_eq_drop] at split
    exact ⟨by omega, Or.inr
      ⟨token, cursorAfter index tokens + before.length, rfl,
        stopsAt_of_split split viable hopeless, by omega⟩⟩

/-- Each reading of a session gives what a fresh one gives from the cursor on.  A
program and a missing end leave the cursor behind the last token, a misplaced token
leaves it one behind that token, so that no error comes twice.  There are at most
as many errors as tokens, at most one of them is a missing end, and behind a program
or a missing end there is nothing more to read. -/
theorem readRepeatedly_progresses (tokens : List Token) (times : Nat) :
    (cursorAfter 0 tokens = 0 ∧
      readRepeatedly times tokens =
        (List.range times).map fun index =>
          ofTokens (tokens.drop (cursorAfter index tokens))) ∧
    (∀ index program,
      ofTokens (tokens.drop (cursorAfter index tokens)) = .ok program →
        cursorAfter (index + 1) tokens = tokens.length) ∧
    (∀ index error,
      ofTokens (tokens.drop (cursorAfter index tokens)) = .error error →
        cursorAfter index tokens < cursorAfter (index + 1) tokens ∧
          ((error = ⟨.unexpectedEndOfInput, none⟩ ∧
              cursorAfter (index + 1) tokens = tokens.length) ∨
            ∃ token offending,
              error = ⟨.unexpectedToken, some token⟩ ∧
                StopsAt tokens (cursorAfter index tokens) offending token ∧
                cursorAfter (index + 1) tokens = offending + 1)) ∧
    (readRepeatedly times tokens).countP isFailure ≤ tokens.length ∧
    (readRepeatedly times tokens).countP isMissingEnd ≤ 1 ∧
    (∀ earlier later result,
      earlier < later → later < times →
      (readRepeatedly times tokens)[earlier]? = some result →
      isFailure result = false ∨ isMissingEnd result = true →
        (readRepeatedly times tokens)[later]? = some (.ok [])) := by
  simp only [← leftAfter_eq_drop]
  refine ⟨⟨Nat.sub_self _, readRepeatedly_eq_map times tokens⟩, ?_,
    fun _ _ => cursorAfter_of_error, countP_isFailure_le times tokens,
    countP_isMissingEnd_le times tokens, ?_⟩
  · intro index program succeeded
    rw [cursorAfter_eq_length_iff]
    exact leftAfter_succ_eq_nil succeeded (Or.inl rfl)
  · intro earlier later result order inside found last
    rw [readRepeatedly_getElem? (Nat.lt_trans order inside)] at found
    have done :=
      leftAfter_succ_eq_nil (Option.some.inj found) last
    rw [readRepeatedly_getElem? inside, leftAfter_eq_nil_of_le order done]
    rfl

end Program
end SexprCalls
