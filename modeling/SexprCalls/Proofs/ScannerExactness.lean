import SexprCalls.Proofs.LexicalCut

/-!
# The scanner accepts its lexical grammar

The tokens of a source and its cuts determine each other.  Since the scanner is a
function, a source has at most one cut; since it looks only at whether a gap is
empty, the lexemes of a source do not depend on the white space that is used.
-/

namespace SexprCalls

/-- The offset behind the last byte of a token. -/
def Token.endOffset (token : Token) : Int :=
  token.pos.offset + token.lexeme.spelling.length

namespace SpacedLexeme

/-- The same lexeme after other white space, which is there wherever there was
some before. -/
def Respaces (before after : SpacedLexeme) : Prop :=
  after.lexeme = before.lexeme ∧ IsBlankRun after.gap ∧
    (before.gap ≠ [] → after.gap ≠ [])

/-! ## A cut is determined by its lexemes and their offsets -/

theorem eq_of_placedFrom_eq
    {sequence other : List SpacedLexeme} {trailing otherTrailing : Bytes}
    {offset : Nat}
    (samePlaces : placedFrom offset sequence = placedFrom offset other)
    (sameBytes : bytesOf sequence ++ trailing = bytesOf other ++ otherTrailing) :
    sequence = other ∧ trailing = otherTrailing := by
  induction sequence generalizing other offset with
  | nil =>
      cases other with
      | nil =>
          exact ⟨rfl, sameBytes⟩
      | cons spaced rest =>
          contradiction
  | cons spaced rest inductionHypothesis =>
      cases other with
      | nil =>
          contradiction
      | cons otherSpaced otherRest =>
          obtain ⟨gap, lexeme⟩ := spaced
          obtain ⟨otherGap, otherLexeme⟩ := otherSpaced
          rw [placedFrom, placedFrom, List.cons.injEq, Prod.mk.injEq]
            at samePlaces
          obtain ⟨⟨sameLexeme, sameOffset⟩, sameRest⟩ := samePlaces
          change lexeme = otherLexeme at sameLexeme
          subst sameLexeme
          have sameLength : gap.length = otherGap.length := by
            simp only at sameOffset
            omega
          rw [bytesOf_cons, bytesOf_cons] at sameBytes
          simp only [List.append_assoc] at sameBytes
          obtain ⟨rfl, behindGap⟩ := List.append_inj sameBytes sameLength
          have behindLexeme := List.append_cancel_left behindGap
          obtain ⟨rfl, rfl⟩ := inductionHypothesis sameRest behindLexeme
          exact ⟨rfl, rfl⟩

/-! ## Spans -/

theorem offset_le_of_mem_tokensFrom
    {file : Bytes} {here : Location} {sequence : List SpacedLexeme}
    {token : Token}
    (member : token ∈ tokensFrom file here sequence) :
    (here.offset : Int) ≤ token.pos.offset := by
  induction sequence generalizing here with
  | nil =>
      contradiction
  | cons spaced rest inductionHypothesis =>
      rcases List.mem_cons.mp member with rfl | later
      · simp only [Lexeme.pos_tokenAt, Location.inFile, Location.offset_past]
        omega
      · have bound := inductionHypothesis later
        rw [Location.offset_past] at bound
        omega

theorem tokensFrom_pairwise
    (file : Bytes) (here : Location) (sequence : List SpacedLexeme) :
    (tokensFrom file here sequence).Pairwise fun earlier later =>
      earlier.endOffset ≤ later.pos.offset := by
  induction sequence generalizing here with
  | nil =>
      exact .nil
  | cons spaced rest inductionHypothesis =>
      refine .cons (fun later member => ?_) (inductionHypothesis _)
      have bound := offset_le_of_mem_tokensFrom member
      rw [Location.offset_past, bytes, List.length_append] at bound
      simp only [Token.endOffset, Lexeme.lexeme_tokenAt, Lexeme.pos_tokenAt,
        Location.inFile, Location.offset_past]
      omega

theorem offset_lt_endOffset_of_mem_tokensFrom
    {file : Bytes} {here : Location} {sequence : List SpacedLexeme}
    {token : Token}
    (written : ∀ spaced ∈ sequence, spaced.lexeme.IsWritten)
    (member : token ∈ tokensFrom file here sequence) :
    token.pos.offset < token.endOffset := by
  have lexemeMember : token.lexeme ∈ sequence.map SpacedLexeme.lexeme := by
    rw [← tokensFrom_map_lexeme file here]
    exact List.mem_map_of_mem member
  obtain ⟨spaced, spacedMember, sameLexeme⟩ := List.mem_map.mp lexemeMember
  have positive :=
    List.length_pos_of_ne_nil
      (Lexeme.spelling_ne_nil (written spaced spacedMember))
  rw [Token.endOffset, ← sameLexeme]
  omega

/-! ## Other white space -/

theorem isChain_of_respaces
    {sequence respaced : List SpacedLexeme}
    (same : List.Forall₂ Respaces sequence respaced)
    (separated : sequence.IsChain MayPrecede) :
    respaced.IsChain MayPrecede := by
  induction same with
  | nil =>
      exact .nil
  | @cons first otherFirst rest otherRest sameFirst sameRest
      inductionHypothesis =>
      cases sameRest with
      | nil =>
          exact .singleton otherFirst
      | @cons second otherSecond more otherMore sameSecond _ =>
          refine .cons_cons (fun clash => ?_)
            (inductionHypothesis separated.of_cons)
          rw [sameFirst.1, sameSecond.1] at clash
          exact sameSecond.2.2 (separated.rel clash)

theorem map_lexeme_of_respaces
    {sequence respaced : List SpacedLexeme}
    (same : List.Forall₂ Respaces sequence respaced) :
    respaced.map SpacedLexeme.lexeme = sequence.map SpacedLexeme.lexeme := by
  induction same with
  | nil =>
      rfl
  | cons sameFirst _ inductionHypothesis =>
      rw [List.map_cons, List.map_cons, sameFirst.1, inductionHypothesis]

theorem gaps_blank_of_respaces
    {sequence respaced : List SpacedLexeme}
    (same : List.Forall₂ Respaces sequence respaced) :
    ∀ spaced ∈ respaced, IsBlankRun spaced.gap := by
  induction same with
  | nil =>
      exact nofun
  | cons sameFirst _ inductionHypothesis =>
      exact List.forall_mem_cons.mpr ⟨sameFirst.2.1, inductionHypothesis⟩

end SpacedLexeme

namespace Cut

/-- A cut with other white space. -/
def respace
    (cut : Cut) {respaced : List SpacedLexeme} {trailing : Bytes}
    (same : List.Forall₂ SpacedLexeme.Respaces cut.sequence respaced)
    (blank : IsBlankRun trailing) : Cut where
  sequence := respaced
  trailing := trailing
  gaps_blank := SpacedLexeme.gaps_blank_of_respaces same
  lexemes_written := by
    have lexemes := SpacedLexeme.map_lexeme_of_respaces same
    intro spaced member
    have inRespaced := List.mem_map_of_mem (f := SpacedLexeme.lexeme) member
    rw [lexemes] at inRespaced
    obtain ⟨before, inCut, sameLexeme⟩ := List.mem_map.mp inRespaced
    exact sameLexeme ▸ cut.lexemes_written before inCut
  separated := SpacedLexeme.isChain_of_respaces same cut.separated
  trailing_blank := blank

/-- Two cuts of the same bytes are the same cut. -/
theorem eq_of_bytes_eq
    {first second : Cut} (sameBytes : first.bytes = second.bytes) :
    first = second := by
  have firstTokens := ofSource_cut_bytes [] first
  have secondTokens := ofSource_cut_bytes [] second
  rw [sameBytes, secondTokens] at firstTokens
  have sameTokens := Except.ok.inj firstTokens
  have samePlaces := congrArg (List.map Token.placed) sameTokens
  rw [SpacedLexeme.tokensFrom_map_placed, SpacedLexeme.tokensFrom_map_placed]
    at samePlaces
  obtain ⟨sameSequence, sameTrailing⟩ :=
    SpacedLexeme.eq_of_placedFrom_eq samePlaces sameBytes.symm
  exact Cut.ext sameSequence.symm sameTrailing.symm

end Cut

/-- The scanner accepts exactly the sources that have a cut, with the lexemes
and the offsets of that cut.  There is only one, its lexemes stand one behind the
other, and other white space in its gaps leaves the lexemes as they are. -/
theorem ofSource_exact (file source : Bytes) :
    (∀ placed : List (Lexeme × Int),
      (∃ tokens, Token.ofSource file source = .ok tokens ∧
          tokens.map Token.placed = placed) ↔
        ∃ cut : Cut, cut.bytes = source ∧ cut.placed = placed) ∧
    (∀ first second : Cut,
      first.bytes = source → second.bytes = source → first = second) ∧
    (∀ tokens, Token.ofSource file source = .ok tokens →
      (∀ token ∈ tokens, token.pos.offset < token.endOffset) ∧
        tokens.Pairwise fun earlier later =>
          earlier.endOffset ≤ later.pos.offset) ∧
    (∀ (tokens : List Token) (cut : Cut) (respaced : List SpacedLexeme)
      (trailing : Bytes),
      Token.ofSource file source = .ok tokens →
      cut.bytes = source →
      List.Forall₂ SpacedLexeme.Respaces cut.sequence respaced →
      IsBlankRun trailing →
      ∃ others,
        Token.ofSource file (SpacedLexeme.bytesOf respaced ++ trailing) =
            .ok others ∧
          others.map Token.lexeme = tokens.map Token.lexeme) := by
  refine ⟨fun placed => ⟨?_, ?_⟩, ?_, ?_, ?_⟩
  · rintro ⟨tokens, scanned, rfl⟩
    obtain ⟨cut, sameBytes, rfl⟩ := exists_cut_of_ofSource scanned
    exact ⟨cut, sameBytes,
      (SpacedLexeme.tokensFrom_map_placed file .start cut.sequence).symm⟩
  · rintro ⟨cut, rfl, rfl⟩
    exact ⟨_, ofSource_cut_bytes file cut,
      SpacedLexeme.tokensFrom_map_placed file .start cut.sequence⟩
  · rintro first second rfl sameBytes
    exact Cut.eq_of_bytes_eq sameBytes.symm
  · intro tokens scanned
    obtain ⟨cut, _, rfl⟩ := exists_cut_of_ofSource scanned
    exact ⟨fun token member =>
        SpacedLexeme.offset_lt_endOffset_of_mem_tokensFrom
          cut.lexemes_written member,
      SpacedLexeme.tokensFrom_pairwise file .start cut.sequence⟩
  · rintro tokens cut respaced trailing scanned rfl same blank
    have sameTokens :=
      Except.ok.inj (scanned.symm.trans (ofSource_cut_bytes file cut))
    refine ⟨_, ofSource_cut_bytes file (cut.respace same blank), ?_⟩
    rw [sameTokens, SpacedLexeme.tokensFrom_map_lexeme,
      SpacedLexeme.tokensFrom_map_lexeme]
    exact SpacedLexeme.map_lexeme_of_respaces same

end SexprCalls
