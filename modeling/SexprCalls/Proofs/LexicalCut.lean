import Mathlib.Data.List.Chain
import SexprCalls.Proofs.LexemeSpelling

/-!
# Cutting a source into lexemes

A source is a sequence of lexemes with white space before, between and after
them.  A `Cut` is such a view of a byte string: every byte belongs to a lexeme or
to a gap, and a gap is empty only where the lexemes around it would not run
together.  The scanner succeeds exactly on the sources that can be cut, and then
there is only one cut.

The proofs use a second form of the same condition, `Fits`, which looks at the
bytes that really follow a lexeme: it speaks about a part of a source as well,
and so it can follow the scanner piece by piece.
-/

namespace SexprCalls

/-- A lexeme and the white space before it. -/
structure SpacedLexeme where
  gap : Bytes
  lexeme : Lexeme
deriving DecidableEq, Repr

namespace SpacedLexeme

/-- The bytes of a lexeme after those of the gap before it. -/
def bytes (spaced : SpacedLexeme) : Bytes :=
  spaced.gap ++ spaced.lexeme.spelling

/-- Lexemes that would run together have a gap between them. -/
def MayPrecede (first second : SpacedLexeme) : Prop :=
  first.lexeme.Clashes second.lexeme → second.gap ≠ []

instance (first second : SpacedLexeme) : Decidable (first.MayPrecede second) :=
  inferInstanceAs (Decidable (_ → _))

/-- The bytes of a sequence of lexemes with their gaps. -/
def bytesOf (sequence : List SpacedLexeme) : Bytes :=
  sequence.flatMap bytes

/-- The lexemes of a sequence, each with the offset at which its spelling
starts. -/
def placedFrom (offset : Nat) : List SpacedLexeme → List (Lexeme × Int)
  | [] => []
  | spaced :: rest =>
      (spaced.lexeme, ((offset + spaced.gap.length : Nat) : Int)) ::
        placedFrom (offset + spaced.bytes.length) rest

/-- The tokens of a sequence that starts at a place in a file. -/
def tokensFrom (file : Bytes) (here : Location) :
    List SpacedLexeme → List Token
  | [] => []
  | spaced :: rest =>
      spaced.lexeme.tokenAt ((here.past spaced.gap).inFile file) ::
        tokensFrom file (here.past spaced.bytes) rest

end SpacedLexeme

/-- A byte string seen as lexemes with gaps before, between and after them. -/
@[ext]
structure Cut where
  sequence : List SpacedLexeme
  trailing : Bytes
  gaps_blank : ∀ spaced ∈ sequence, IsBlankRun spaced.gap
  lexemes_written : ∀ spaced ∈ sequence, spaced.lexeme.IsWritten
  separated : sequence.IsChain SpacedLexeme.MayPrecede
  trailing_blank : IsBlankRun trailing

namespace Cut

/-- The bytes of a cut, in order. -/
def bytes (cut : Cut) : Bytes :=
  SpacedLexeme.bytesOf cut.sequence ++ cut.trailing

/-- The lexemes of a cut with the offsets of their spellings. -/
def placed (cut : Cut) : List (Lexeme × Int) :=
  SpacedLexeme.placedFrom 0 cut.sequence

end Cut

/-- A token without the file, the line and the column of its place. -/
def Token.placed (token : Token) : Lexeme × Int :=
  (token.lexeme, token.pos.offset)

/-! ## White space -/

theorem Bytes.ofChars_cons (char : Char) (chars : List Char) :
    ofChars (char :: chars) = String.utf8EncodeChar char ++ ofChars chars :=
  List.flatMap_cons

theorem isBlankRun_nil : IsBlankRun [] :=
  ⟨[], nofun, rfl⟩

theorem isBlankRun_encode
    {char : Char} (blank : Text.isBlank char = true) :
    IsBlankRun (String.utf8EncodeChar char) := by
  refine ⟨[char], ?_, ?_⟩
  · intro other member
    rw [List.mem_singleton.mp member]
    exact blank
  · rw [Bytes.ofChars_cons]
    exact (List.append_nil _).symm

theorem IsBlankRun.append
    {first second : Bytes}
    (firstBlank : IsBlankRun first) (secondBlank : IsBlankRun second) :
    IsBlankRun (first ++ second) := by
  obtain ⟨firstChars, firstBlanks, rfl⟩ := firstBlank
  obtain ⟨secondChars, secondBlanks, rfl⟩ := secondBlank
  refine ⟨firstChars ++ secondChars, ?_, ?_⟩
  · intro char member
    rcases List.mem_append.mp member with inFirst | inSecond
    · exact firstBlanks char inFirst
    · exact secondBlanks char inSecond
  · exact List.flatMap_append.symm

/-! ## Places -/

namespace Location

theorem past_append (here : Location) (first second : Bytes) :
    here.past (first ++ second) = (here.past first).past second :=
  List.foldl_append

theorem offset_step (here : Location) (byte : UInt8) :
    (here.step byte).offset = here.offset + 1 := by
  unfold step
  split <;> rfl

theorem offset_past (here : Location) (bytes : Bytes) :
    (here.past bytes).offset = here.offset + bytes.length := by
  induction bytes generalizing here with
  | nil =>
      rfl
  | cons byte rest inductionHypothesis =>
      change ((here.step byte).past rest).offset = _
      rw [inductionHypothesis, offset_step, List.length_cons]
      omega

theorem offset_inFile_past_start (file bytes : Bytes) :
    ((start.past bytes).inFile file).offset = bytes.length := by
  simp [inFile, offset_past, start]

end Location

namespace SpacedLexeme

theorem bytesOf_cons (spaced : SpacedLexeme) (rest : List SpacedLexeme) :
    bytesOf (spaced :: rest) =
      spaced.gap ++ (spaced.lexeme.spelling ++ bytesOf rest) := by
  rw [bytesOf, List.flatMap_cons, bytes, List.append_assoc]
  rfl

theorem tokensFrom_map_placed
    (file : Bytes) (here : Location) (sequence : List SpacedLexeme) :
    (tokensFrom file here sequence).map Token.placed =
      placedFrom here.offset sequence := by
  induction sequence generalizing here with
  | nil =>
      rfl
  | cons spaced rest inductionHypothesis =>
      rw [tokensFrom, List.map_cons, inductionHypothesis, placedFrom,
        Location.offset_past]
      simp only [Token.placed, Lexeme.lexeme_tokenAt, Lexeme.pos_tokenAt,
        Location.inFile, Location.offset_past]

theorem tokensFrom_map_lexeme
    (file : Bytes) (here : Location) (sequence : List SpacedLexeme) :
    (tokensFrom file here sequence).map Token.lexeme =
      sequence.map SpacedLexeme.lexeme := by
  induction sequence generalizing here with
  | nil =>
      rfl
  | cons spaced rest inductionHypothesis =>
      rw [tokensFrom, List.map_cons, List.map_cons, inductionHypothesis,
        Lexeme.lexeme_tokenAt]

/-! ## Sequences before a rest -/

/-- A sequence of lexemes can be read off the head of an input that ends with
the given rest: each lexeme ends before what really follows it. -/
inductive Fits (rest : Bytes) : List SpacedLexeme → Prop
  | nil : Fits rest []
  | cons {spaced : SpacedLexeme} {more : List SpacedLexeme} :
      IsBlankRun spaced.gap →
      spaced.lexeme.IsWritten →
      spaced.lexeme.EndsBefore (bytesOf more ++ rest) →
      Fits rest more →
      Fits rest (spaced :: more)

end SpacedLexeme

/-! ## What the scanner does with a piece -/

namespace Scanner

variable
  {first : UInt8} {input spelling rest : Bytes}
  (found : List Token) (file : Bytes) (here : Location)

theorem scanOnto_of_blank
    (piece : Piece.ofInput first input = .blank spelling rest) :
    scanOnto found file here (first :: input) =
      scanOnto found file (here.past spelling) rest := by
  rw [scanOnto]
  split <;> simp_all

theorem scanOnto_of_lexeme
    {kind : TokenKind} {text : Bytes}
    (piece : Piece.ofInput first input = .lexeme kind text spelling rest) :
    scanOnto found file here (first :: input) =
      scanOnto (⟨kind, text, here.inFile file⟩ :: found) file
        (here.past spelling) rest := by
  rw [scanOnto]
  split <;> simp_all

theorem scanOnto_of_unterminated
    (piece : Piece.ofInput first input = .unterminated) :
    scanOnto found file here (first :: input) =
      (.error ⟨.unterminatedString, Bytes.quoteMark.toNat, here.inFile file⟩,
        ⟨file, here.past (first :: input), []⟩) := by
  rw [scanOnto]
  split <;> simp_all

theorem scanOnto_of_unknown
    {char : Char}
    (piece : Piece.ofInput first input = .unknown char) :
    scanOnto found file here (first :: input) =
      (.error ⟨.unknownCharacter, char.toNat, here.inFile file⟩,
        ⟨file, here, first :: input⟩) := by
  rw [scanOnto]
  split <;> simp_all

theorem scanOnto_blankRun
    {gap : Bytes} (blank : IsBlankRun gap) :
    scanOnto found file here (gap ++ rest) =
      scanOnto found file (here.past gap) rest := by
  obtain ⟨chars, blanks, rfl⟩ := blank
  induction chars generalizing here with
  | nil =>
      rfl
  | cons char chars inductionHypothesis =>
      obtain ⟨first, more, encoded⟩ := Text.Utf8.exists_encode_cons char
      have headed :
          first :: (more ++ (Bytes.ofChars chars ++ rest)) =
            String.utf8EncodeChar char ++ (Bytes.ofChars chars ++ rest) := by
        rw [encoded, List.cons_append]
      have piece :=
        Piece.ofInput_blank (blanks char List.mem_cons_self) headed
      have remaining : ∀ other ∈ chars, Text.isBlank other = true :=
        fun other member => blanks other (List.mem_cons_of_mem char member)
      rw [Bytes.ofChars_cons, List.append_assoc, ← headed,
        scanOnto_of_blank _ _ _ piece, inductionHypothesis _ remaining,
        Location.past_append]

/-- One lexeme with its gap: the scanner adds its token and goes on behind
it. -/
theorem scanOnto_spaced
    {spaced : SpacedLexeme}
    (blank : IsBlankRun spaced.gap)
    (written : spaced.lexeme.IsWritten)
    (ends : spaced.lexeme.EndsBefore rest) :
    scanOnto found file here
        (spaced.gap ++ (spaced.lexeme.spelling ++ rest)) =
      scanOnto
        (spaced.lexeme.tokenAt ((here.past spaced.gap).inFile file) :: found)
        file (here.past spaced.bytes) rest := by
  obtain ⟨first, more, split⟩ :=
    List.exists_cons_of_ne_nil (Lexeme.spelling_ne_nil written)
  have headed :
      first :: (more ++ rest) = spaced.lexeme.spelling ++ rest := by
    rw [split, List.cons_append]
  have piece := Piece.ofInput_lexeme written ends headed
  rw [scanOnto_blankRun _ _ _ blank, ← headed,
    scanOnto_of_lexeme _ _ _ piece, SpacedLexeme.bytes,
    Location.past_append]
  rfl

/-- A whole sequence of lexemes: the scanner adds their tokens and goes on
behind them. -/
theorem scanOnto_sequence
    {sequence : List SpacedLexeme}
    (fits : SpacedLexeme.Fits rest sequence) :
    scanOnto found file here (SpacedLexeme.bytesOf sequence ++ rest) =
      scanOnto
        ((SpacedLexeme.tokensFrom file here sequence).reverse ++ found) file
        (here.past (SpacedLexeme.bytesOf sequence)) rest := by
  induction fits generalizing found here with
  | nil =>
      rfl
  | @cons spaced more blank written ends _ inductionHypothesis =>
      rw [SpacedLexeme.bytesOf_cons, List.append_assoc, List.append_assoc,
        scanOnto_spaced _ _ _ blank written ends, inductionHypothesis,
        SpacedLexeme.tokensFrom, List.reverse_cons, List.append_assoc,
        List.singleton_append]
      simp only [SpacedLexeme.bytes, Location.past_append]

theorem scanOnto_sequence_blankRun
    {sequence : List SpacedLexeme} {trailing : Bytes}
    (fits : SpacedLexeme.Fits (trailing ++ rest) sequence)
    (blank : IsBlankRun trailing) :
    scanOnto found file here
        (SpacedLexeme.bytesOf sequence ++ (trailing ++ rest)) =
      scanOnto
        ((SpacedLexeme.tokensFrom file here sequence).reverse ++ found) file
        (here.past (SpacedLexeme.bytesOf sequence ++ trailing)) rest := by
  rw [scanOnto_sequence _ _ _ fits, scanOnto_blankRun _ _ _ blank,
    Location.past_append]

theorem scan_ofSource (file source : Bytes) :
    (ofSource file source).scan = scanOnto [] file .start source :=
  rfl

theorem ofSource_eq_scanOnto (file source : Bytes) :
    Token.ofSource file source = (scanOnto [] file .start source).1 :=
  rfl

end Scanner

/-! ## Every source starts with such a sequence -/

/-- No separator and no lexeme stands at the head of an input. -/
def IsStuck (input : Bytes) : Prop :=
  ∀ first rest, input = first :: rest →
    Piece.ofInput first rest = .unterminated ∨
      ∃ char, Piece.ofInput first rest = .unknown char

namespace SpacedLexeme

/-- A gap in front of a sequence and what follows it belongs to the first
lexeme, or to the white space behind where there is none. -/
theorem exists_sequence_of_gap
    {gap trailing stuck : Bytes} {sequence : List SpacedLexeme}
    (blank : IsBlankRun gap)
    (trailingBlank : IsBlankRun trailing)
    (fits : Fits (trailing ++ stuck) sequence) :
    ∃ widened wider,
      gap ++ (bytesOf sequence ++ (trailing ++ stuck)) =
          bytesOf widened ++ (wider ++ stuck) ∧
        IsBlankRun wider ∧ Fits (wider ++ stuck) widened := by
  cases fits with
  | nil =>
      refine ⟨[], gap ++ trailing, ?_, blank.append trailingBlank, .nil⟩
      rw [List.append_assoc]
      rfl
  | @cons spaced more spacedBlank written ends moreFits =>
      refine ⟨{ spaced with gap := gap ++ spaced.gap } :: more, trailing, ?_,
        trailingBlank,
        .cons (blank.append spacedBlank) written ends moreFits⟩
      rw [bytesOf_cons, bytesOf_cons]
      simp only [List.append_assoc]

/-- Every input starts with a sequence of lexemes and white space, behind which
no further piece stands. -/
theorem exists_sequence :
    ∀ input : Bytes,
      ∃ sequence trailing stuck,
        input = bytesOf sequence ++ (trailing ++ stuck) ∧
          IsBlankRun trailing ∧ Fits (trailing ++ stuck) sequence ∧
            IsStuck stuck
  | [] =>
      ⟨[], [], [], rfl, isBlankRun_nil, .nil, nofun⟩
  | first :: input => by
      -- A piece leaves a shorter input, which the recursion cuts further.
      have described := Piece.describes_ofInput first input
      cases piece : Piece.ofInput first input with
      | blank spelling rest =>
          have shorter := Piece.rest_le_of_blank piece
          rw [piece] at described
          obtain ⟨char, blank, rfl, headed⟩ := described
          obtain ⟨sequence, trailing, stuck, split, trailingBlank, fits,
            stop⟩ := exists_sequence rest
          obtain ⟨widened, wider, joined, widerBlank, widerFits⟩ :=
            exists_sequence_of_gap (isBlankRun_encode blank) trailingBlank
              fits
          exact ⟨widened, wider, stuck, by rw [headed, split, joined],
            widerBlank, widerFits, stop⟩
      | lexeme kind text spelling rest =>
          have shorter := Piece.rest_le_of_lexeme piece
          rw [piece] at described
          obtain ⟨written, rfl, headed, ends⟩ := described
          obtain ⟨sequence, trailing, stuck, split, trailingBlank, fits,
            stop⟩ := exists_sequence rest
          refine ⟨⟨[], kind, text⟩ :: sequence, trailing, stuck, ?_,
            trailingBlank,
            .cons isBlankRun_nil written (split ▸ ends) fits, stop⟩
          rw [headed, split, bytesOf_cons, List.nil_append, List.append_assoc]
      | unterminated =>
          refine ⟨[], [], first :: input, rfl, isBlankRun_nil, .nil, ?_⟩
          rintro _ _ ⟨⟩
          exact Or.inl piece
      | unknown char =>
          refine ⟨[], [], first :: input, rfl, isBlankRun_nil, .nil, ?_⟩
          rintro _ _ ⟨⟩
          exact Or.inr ⟨char, piece⟩
termination_by input => input.length

/-! ## Gaps where they are needed -/

/-- Gaps between clashing lexemes are enough for every lexeme to end before
what follows it. -/
theorem fits_of_isChain
    {rest : Bytes} {sequence : List SpacedLexeme}
    (blank : ∀ spaced ∈ sequence, IsBlankRun spaced.gap)
    (written : ∀ spaced ∈ sequence, spaced.lexeme.IsWritten)
    (separated : sequence.IsChain MayPrecede)
    (ends : ∀ lexeme : Lexeme, lexeme.EndsBefore rest) :
    Fits rest sequence := by
  induction sequence with
  | nil =>
      exact .nil
  | cons spaced more inductionHypothesis =>
      have moreFits : Fits rest more :=
        inductionHypothesis
          (fun other member => blank other (List.mem_cons_of_mem _ member))
          (fun other member => written other (List.mem_cons_of_mem _ member))
          separated.of_cons
      refine .cons (blank spaced List.mem_cons_self)
        (written spaced List.mem_cons_self) ?_ moreFits
      -- What follows is the rest, a gap, or the spelling of the next lexeme.
      cases moreFits with
      | nil =>
          exact ends spaced.lexeme
      | @cons next others nextBlank nextWritten _ _ =>
          rw [bytesOf_cons, List.append_assoc, List.append_assoc]
          by_cases empty : next.gap = []
          · rw [empty, List.nil_append]
            exact (Lexeme.endsBefore_spelling_iff nextWritten _).mpr
              fun clash => separated.rel clash empty
          · exact Lexeme.endsBefore_of_blankRun _ nextBlank empty _

theorem isChain_of_fits
    {rest : Bytes} {sequence : List SpacedLexeme}
    (fits : Fits rest sequence) :
    sequence.IsChain MayPrecede := by
  induction fits with
  | nil =>
      exact .nil
  | @cons spaced more _ _ ends moreFits inductionHypothesis =>
      cases moreFits with
      | nil =>
          exact .singleton spaced
      | @cons next others _ nextWritten _ _ =>
          refine .cons_cons (fun clash empty => ?_) inductionHypothesis
          rw [bytesOf_cons, empty, List.nil_append, List.append_assoc] at ends
          exact (Lexeme.endsBefore_spelling_iff nextWritten _).mp ends clash

theorem Fits.gaps_blank
    {rest : Bytes} {sequence : List SpacedLexeme}
    (fits : Fits rest sequence) :
    ∀ spaced ∈ sequence, IsBlankRun spaced.gap := by
  induction fits with
  | nil =>
      exact nofun
  | cons blank _ _ _ inductionHypothesis =>
      exact List.forall_mem_cons.mpr ⟨blank, inductionHypothesis⟩

theorem Fits.lexemes_written
    {rest : Bytes} {sequence : List SpacedLexeme}
    (fits : Fits rest sequence) :
    ∀ spaced ∈ sequence, spaced.lexeme.IsWritten := by
  induction fits with
  | nil =>
      exact nofun
  | cons _ written _ _ inductionHypothesis =>
      exact List.forall_mem_cons.mpr ⟨written, inductionHypothesis⟩

theorem Fits.take
    {rest : Bytes} {sequence : List SpacedLexeme}
    (fits : Fits rest sequence) (size : Nat) :
    Fits (rest.take size) sequence := by
  induction fits with
  | nil =>
      exact .nil
  | @cons spaced more blank written ends _ inductionHypothesis =>
      refine .cons blank written ?_ inductionHypothesis
      have shorter := ends.take ((bytesOf more).length + size)
      rw [List.take_length_add_append] at shorter
      exact shorter

/-- Only the last lexeme of a sequence looks at what follows the sequence. -/
theorem Fits.of_last
    {rest other : Bytes} {sequence : List SpacedLexeme}
    (fits : Fits rest sequence)
    (ends : ∀ last ∈ sequence.getLast?, last.lexeme.EndsBefore other) :
    Fits other sequence := by
  induction fits with
  | nil =>
      exact .nil
  | @cons spaced more blank written spacedEnds moreFits inductionHypothesis =>
      cases more with
      | nil =>
          exact .cons blank written (ends spaced rfl) .nil
      | cons next others =>
          have otherFits : Fits other (next :: others) := by
            apply inductionHypothesis
            intro last atEnd
            apply ends
            rw [List.getLast?_cons_cons]
            exact atEnd
          refine .cons blank written ?_ otherFits
          -- The next lexeme is not empty, so that nothing behind it is seen.
          have nonempty : bytesOf (next :: others) ≠ [] := by
            have spelled :=
              Lexeme.spelling_ne_nil
                (moreFits.lexemes_written next List.mem_cons_self)
            rw [bytesOf_cons]
            simp [spelled]
          intro byte atHead
          rw [List.head?_append_of_ne_nil _ nonempty] at atHead
          apply spacedEnds
          rw [List.head?_append_of_ne_nil _ nonempty]
          exact atHead

/-- A sequence in front of white space is a cut. -/
def Fits.toCut
    {trailing : Bytes} {sequence : List SpacedLexeme}
    (fits : Fits trailing sequence) (blank : IsBlankRun trailing) : Cut where
  sequence := sequence
  trailing := trailing
  gaps_blank := fits.gaps_blank
  lexemes_written := fits.lexemes_written
  separated := isChain_of_fits fits
  trailing_blank := blank

end SpacedLexeme

theorem Lexeme.endsBefore_blankRun
    (lexeme : Lexeme) {gap : Bytes} (blank : IsBlankRun gap) :
    lexeme.EndsBefore gap := by
  by_cases empty : gap = []
  · rw [empty]
    exact nofun
  · have ends := lexeme.endsBefore_of_blankRun blank empty []
    rwa [List.append_nil] at ends

theorem Cut.fits (cut : Cut) :
    SpacedLexeme.Fits cut.trailing cut.sequence :=
  SpacedLexeme.fits_of_isChain cut.gaps_blank cut.lexemes_written
    cut.separated fun lexeme => lexeme.endsBefore_blankRun cut.trailing_blank

/-! ## The scanner and the cuts of a source -/

/-- A scan finds the lexemes of a cut, at their places, and reads to the end. -/
theorem Scanner.scan_cut (cut : Cut) (file : Bytes) :
    (ofSource file cut.bytes).scan =
      (.ok (SpacedLexeme.tokensFrom file .start cut.sequence),
        ⟨file, Location.start.past cut.bytes, []⟩) := by
  have fits :
      SpacedLexeme.Fits (cut.trailing ++ []) cut.sequence := by
    rw [List.append_nil]
    exact cut.fits
  have whole :
      cut.bytes =
        SpacedLexeme.bytesOf cut.sequence ++ (cut.trailing ++ []) := by
    rw [List.append_nil]
    rfl
  rw [scan_ofSource, whole,
    scanOnto_sequence_blankRun _ _ _ fits cut.trailing_blank, scanOnto,
    List.append_nil, List.append_nil, List.reverse_reverse]

theorem ofSource_cut_bytes (file : Bytes) (cut : Cut) :
    Token.ofSource file cut.bytes =
      .ok (SpacedLexeme.tokensFrom file .start cut.sequence) :=
  congrArg Prod.fst (Scanner.scan_cut cut file)

/-- A source that scans has a cut with the tokens that were found. -/
theorem exists_cut_of_ofSource
    {file source : Bytes} {tokens : List Token}
    (scanned : Token.ofSource file source = .ok tokens) :
    ∃ cut : Cut, cut.bytes = source ∧
      tokens = SpacedLexeme.tokensFrom file .start cut.sequence := by
  obtain ⟨sequence, trailing, stuck, rfl, trailingBlank, fits, stop⟩ :=
    SpacedLexeme.exists_sequence source
  cases stuck with
  | nil =>
      rw [List.append_nil] at fits scanned ⊢
      refine ⟨fits.toCut trailingBlank, rfl, ?_⟩
      have found := ofSource_cut_bytes file (fits.toCut trailingBlank)
      exact Except.ok.inj (scanned.symm.trans found)
  | cons first rest =>
      exfalso
      rw [Scanner.ofSource_eq_scanOnto,
        Scanner.scanOnto_sequence_blankRun _ _ _ fits trailingBlank] at scanned
      rcases stop first rest rfl with piece | ⟨char, piece⟩
      · rw [Scanner.scanOnto_of_unterminated _ _ _ piece] at scanned
        contradiction
      · rw [Scanner.scanOnto_of_unknown _ _ _ piece] at scanned
        contradiction

end SexprCalls
