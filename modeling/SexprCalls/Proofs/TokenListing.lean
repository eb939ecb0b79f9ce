import SexprCalls.CommandLine.Run
import SexprCalls.Proofs.LexicalCut
import SexprCalls.Proofs.QuotedText

/-!
# The listing of tokens tells the tokens

A listing has a line for every token, with its line, its column, its class and
its text.  Each of these ends before a separator that it cannot hold: a number
before a colon or a tab, a class before a space, and a text before the newline.
Only the text of a string could hold a newline, and it is quoted.  So a line is
read off the head of a listing in one way.
-/

namespace SexprCalls

/-! ## Decimal numbers -/

namespace Bytes

theorem ofChars_injective
    {chars others : List Char} (same : ofChars chars = ofChars others) :
    chars = others := by
  refine eq_of_flatMap_eq
    (fun char _ => (Text.Utf8.spells_encode char).ne_nil)
    (fun char _ => (Text.Utf8.spells_encode char).ne_nil) ?_ same
  intro char _ other _ rest otherRest shown
  have read := congrArg Text.Utf8.decode? shown
  rw [Text.Utf8.decode?_of_spells (Text.Utf8.spells_encode char),
    Text.Utf8.decode?_of_spells (Text.Utf8.spells_encode other)] at read
  exact congrArg Prod.fst (Option.some.inj read)

theorem isDigit_of_mem_ofNat
    {number : Nat} {byte : UInt8} (member : byte ∈ ofNat number) :
    isDigit byte = true := by
  obtain ⟨char, isChar, inside⟩ := List.mem_flatMap.mp member
  have digit := Nat.isDigit_of_mem_toDigits (by decide) (by decide) isChar
  obtain ⟨least, most⟩ := Char.isDigit_iff_toNat.mp digit
  have ascii : char.toNat < 0x80 := Nat.lt_of_le_of_lt most (by decide)
  rw [isDigit_iff,
    (Text.Utf8.spells_encode char).toNat_eq_of_lt ascii inside]
  exact ⟨least, most⟩

theorem ofNat_injective
    {number other : Nat} (same : ofNat number = ofNat other) :
    number = other := by
  have digits := ofChars_injective same
  rw [← Nat.ofDigitChars_ten_toDigits (n := number), digits,
    Nat.ofDigitChars_ten_toDigits]

def minus : UInt8 := 0x2D

def colon : UInt8 := 0x3A

def tab : UInt8 := 0x09

def space : UInt8 := 0x20

theorem mem_ofInt
    {number : Int} {byte : UInt8} (member : byte ∈ ofInt number) :
    byte = minus ∨ isDigit byte = true := by
  cases number with
  | ofNat number =>
      exact .inr (isDigit_of_mem_ofNat member)
  | negSucc number =>
      rcases List.mem_append.mp member with sign | digit
      · exact .inl (List.mem_singleton.mp sign)
      · exact .inr (isDigit_of_mem_ofNat digit)

theorem not_mem_ofInt
    {byte : UInt8} (noSign : byte ≠ minus) (noDigit : isDigit byte = false)
    (number : Int) :
    byte ∉ ofInt number := by
  intro member
  rcases mem_ofInt member with sign | digit
  · exact noSign sign
  · rw [noDigit] at digit
    contradiction

theorem ofNat_ne_minus_cons (number : Nat) (digits : Bytes) :
    ofNat number ≠ minus :: digits := by
  intro signed
  have digit : isDigit minus = true :=
    isDigit_of_mem_ofNat (signed ▸ List.mem_cons_self)
  contradiction

theorem ofInt_injective
    {number other : Int} (same : ofInt number = ofInt other) :
    number = other := by
  cases number with
  | ofNat number =>
      cases other with
      | ofNat other =>
          exact congrArg Int.ofNat (ofNat_injective same)
      | negSucc other =>
          exact absurd same (ofNat_ne_minus_cons number _)
  | negSucc number =>
      cases other with
      | ofNat other =>
          exact absurd same.symm (ofNat_ne_minus_cons other _)
      | negSucc other =>
          have next := ofNat_injective (List.append_cancel_left same)
          exact congrArg Int.negSucc (Nat.succ.inj next)

/-- A part of a text ends at the first separator behind it. -/
theorem eq_of_append_separator_eq
    {separator : UInt8} {part other rest otherRest : Bytes}
    (outside : separator ∉ part) (otherOutside : separator ∉ other)
    (same : part ++ separator :: rest = other ++ separator :: otherRest) :
    part = other ∧ rest = otherRest := by
  induction part generalizing other with
  | nil =>
      cases other with
      | nil =>
          exact ⟨rfl, (List.cons.inj same).2⟩
      | cons first tail =>
          have head : separator = first := (List.cons.inj same).1
          exact absurd (head ▸ List.mem_cons_self) otherOutside
  | cons first tail inductionHypothesis =>
      cases other with
      | nil =>
          have head : first = separator := (List.cons.inj same).1
          exact absurd (head ▸ List.mem_cons_self) outside
      | cons otherFirst otherTail =>
          obtain ⟨rfl, behind⟩ := List.cons.inj same
          obtain ⟨rfl, sameRest⟩ :=
            inductionHypothesis
              (fun inside => outside (List.mem_cons_of_mem _ inside))
              (fun inside => otherOutside (List.mem_cons_of_mem _ inside))
              behind
          exact ⟨rfl, sameRest⟩

end Bytes

/-! ## Lines -/

/-- What a listing shows of a token: all but the file and the offset of its
place. -/
@[ext]
structure ListedToken where
  lexeme : Lexeme
  line : Int
  column : Int
deriving DecidableEq

def Token.listed (token : Token) : ListedToken :=
  ⟨token.lexeme, token.pos.line, token.pos.column⟩

namespace TokenKind

/-- The classes that the scanner makes. -/
def scanned : List TokenKind :=
  [.paren, .number, .string, .name]

theorem text_of_scanned :
    ∀ kind ∈ scanned,
      Bytes.space ∉ kind.text ∧ Bytes.newline ∉ kind.text ∧
        ∀ other ∈ scanned, kind.text = other.text → kind = other := by
  decide

end TokenKind

namespace Lexeme

/-- The text of a lexeme as a listing shows it. -/
def shownText (lexeme : Lexeme) : Bytes :=
  if lexeme.kind = .string then Text.quoted lexeme.text else lexeme.text

theorem newline_not_mem_shownText
    {lexeme : Lexeme} (written : lexeme.IsWritten) :
    Bytes.newline ∉ lexeme.shownText := by
  obtain ⟨kind, text⟩ := lexeme
  cases kind with
  | paren =>
      change Bytes.newline ∉ text
      rcases written with rfl | rfl <;> decide
  | number =>
      exact fun member => absurd (written.2 _ member) (by decide)
  | name =>
      exact fun member => absurd (written.2 _ member) (by decide)
  | string =>
      exact Bytes.newline_not_mem_of_isGraphic (Text.isGraphic_quoted text)
  | other kind =>
      exact written.elim

theorem IsWritten.kind_mem_scanned
    {lexeme : Lexeme} (written : lexeme.IsWritten) :
    lexeme.kind ∈ TokenKind.scanned := by
  obtain ⟨kind, text⟩ := lexeme
  cases kind with
  | paren | number | string | name =>
      simp [TokenKind.scanned]
  | other kind =>
      exact written.elim

theorem eq_of_shown_eq
    {lexeme other : Lexeme} (written : lexeme.IsWritten)
    (otherWritten : other.IsWritten)
    (sameKind : lexeme.kind.text = other.kind.text)
    (sameText : lexeme.shownText = other.shownText) :
    lexeme = other := by
  obtain ⟨kind, text⟩ := lexeme
  obtain ⟨otherKind, otherText⟩ := other
  have kinds : kind = otherKind :=
    (TokenKind.text_of_scanned _ written.kind_mem_scanned).2.2
      _ otherWritten.kind_mem_scanned sameKind
  subst kinds
  simp only [shownText] at sameText
  split at sameText
  · rw [Text.quoted_injective sameText]
  · rw [sameText]

end Lexeme

namespace ListedToken

/-- The line of a token, without the newline. -/
def body (listed : ListedToken) : Bytes :=
  Bytes.ofInt listed.line ++ Bytes.ofString ":" ++ Bytes.ofInt listed.column ++
    Bytes.ofString "\t" ++
    (listed.lexeme.kind.text ++ Bytes.ofString " " ++ listed.lexeme.shownText)

def row (listed : ListedToken) : Bytes :=
  listed.body ++ [Bytes.newline]

theorem row_ne_nil (listed : ListedToken) : listed.row ≠ [] :=
  List.append_ne_nil_of_right_ne_nil _ (List.cons_ne_nil _ _)

/-- A row in front of a rest, part by part. -/
theorem row_append (listed : ListedToken) (rest : Bytes) :
    listed.row ++ rest =
      Bytes.ofInt listed.line ++ Bytes.colon ::
        (Bytes.ofInt listed.column ++ Bytes.tab ::
          (listed.lexeme.kind.text ++ Bytes.space ::
            (listed.lexeme.shownText ++ Bytes.newline :: rest))) := by
  have colon : Bytes.ofString ":" = [Bytes.colon] := rfl
  have tab : Bytes.ofString "\t" = [Bytes.tab] := rfl
  have space : Bytes.ofString " " = [Bytes.space] := rfl
  simp only [row, body, colon, tab, space, List.append_assoc,
    List.cons_append, List.nil_append]

theorem eq_of_row_append_eq
    {listed other : ListedToken} {rest otherRest : Bytes}
    (written : listed.lexeme.IsWritten) (otherWritten : other.lexeme.IsWritten)
    (same : listed.row ++ rest = other.row ++ otherRest) :
    listed = other := by
  rw [row_append, row_append] at same
  obtain ⟨sameLine, behindLine⟩ :=
    Bytes.eq_of_append_separator_eq
      (Bytes.not_mem_ofInt (by decide) (by decide) _)
      (Bytes.not_mem_ofInt (by decide) (by decide) _) same
  obtain ⟨sameColumn, behindColumn⟩ :=
    Bytes.eq_of_append_separator_eq
      (Bytes.not_mem_ofInt (by decide) (by decide) _)
      (Bytes.not_mem_ofInt (by decide) (by decide) _) behindLine
  obtain ⟨sameKind, behindKind⟩ :=
    Bytes.eq_of_append_separator_eq
      (TokenKind.text_of_scanned _ written.kind_mem_scanned).1
      (TokenKind.text_of_scanned _ otherWritten.kind_mem_scanned).1
      behindColumn
  obtain ⟨sameText, _⟩ :=
    Bytes.eq_of_append_separator_eq
      (Lexeme.newline_not_mem_shownText written)
      (Lexeme.newline_not_mem_shownText otherWritten) behindKind
  exact ListedToken.ext
    (Lexeme.eq_of_shown_eq written otherWritten sameKind sameText)
    (Bytes.ofInt_injective sameLine) (Bytes.ofInt_injective sameColumn)

theorem newline_not_mem_body
    {listed : ListedToken} (written : listed.lexeme.IsWritten) :
    Bytes.newline ∉ listed.body := by
  have kindPlain :=
    (TokenKind.text_of_scanned _ written.kind_mem_scanned).2.1
  simp only [body, List.mem_append, not_or]
  exact ⟨⟨⟨⟨Bytes.not_mem_ofInt (by decide) (by decide) _, by decide⟩,
      Bytes.not_mem_ofInt (by decide) (by decide) _⟩, by decide⟩,
    ⟨kindPlain, by decide⟩,
    Lexeme.newline_not_mem_shownText written⟩

/-- Rows hold one newline each. -/
theorem count_newline_rows
    {list : List ListedToken}
    (written : ∀ listed ∈ list, listed.lexeme.IsWritten) :
    (list.flatMap row).count Bytes.newline = list.length := by
  induction list with
  | nil =>
      rfl
  | cons listed rest inductionHypothesis =>
      rw [List.forall_mem_cons] at written
      rw [List.flatMap_cons, List.count_append, row, List.count_append,
        List.count_eq_zero_of_not_mem (newline_not_mem_body written.1),
        List.count_singleton_self, inductionHypothesis written.2,
        List.length_cons, Nat.zero_add, Nat.add_comm]

theorem eq_of_rows_eq
    {list others : List ListedToken}
    (written : ∀ listed ∈ list, listed.lexeme.IsWritten)
    (otherWritten : ∀ listed ∈ others, listed.lexeme.IsWritten)
    (same : list.flatMap row = others.flatMap row) :
    list = others := by
  refine Bytes.eq_of_flatMap_eq (fun listed _ => row_ne_nil listed)
    (fun listed _ => row_ne_nil listed) ?_ same
  intro listed member other isOther rest otherRest
  exact eq_of_row_append_eq (written listed member) (otherWritten other isOther)

end ListedToken

/-! ## Listings -/

namespace Token

theorem flatMap_tokenLine (tokens : List Token) :
    tokens.flatMap CommandLine.tokenLine =
      (tokens.map listed).flatMap ListedToken.row := by
  rw [List.flatMap_map]
  rfl

theorem ofSource_string
    (file : Bytes) {text : Bytes} (inside : Bytes.quoteMark ∉ text) :
    ofSource file (Bytes.quoteMark :: text ++ [Bytes.quoteMark]) =
      .ok [⟨.string, text, ⟨file, 0, 1, 1⟩⟩] := by
  let cut : Cut :=
    { sequence := [⟨[], ⟨.string, text⟩⟩]
      trailing := []
      gaps_blank := List.forall_mem_singleton.mpr isBlankRun_nil
      lexemes_written := List.forall_mem_singleton.mpr inside
      separated := List.isChain_singleton _
      trailing_blank := isBlankRun_nil }
  have bytes :
      cut.bytes = Bytes.quoteMark :: text ++ [Bytes.quoteMark] := by
    simp [cut, Cut.bytes, SpacedLexeme.bytesOf, SpacedLexeme.bytes,
      Lexeme.spelling]
  rw [← bytes, ofSource_cut_bytes]
  rfl

theorem isWritten_of_mem_listed
    {file source : Bytes} {tokens : List Token}
    (scanned : ofSource file source = .ok tokens) :
    ∀ entry ∈ tokens.map listed, entry.lexeme.IsWritten := by
  obtain ⟨cut, _, rfl⟩ := exists_cut_of_ofSource scanned
  intro entry member
  obtain ⟨token, isToken, rfl⟩ := List.mem_map.mp member
  have isLexeme : token.lexeme ∈ cut.sequence.map SpacedLexeme.lexeme := by
    rw [← SpacedLexeme.tokensFrom_map_lexeme file .start]
    exact List.mem_map_of_mem isToken
  obtain ⟨spaced, isSpaced, same⟩ := List.mem_map.mp isLexeme
  change token.lexeme.IsWritten
  rw [← same]
  exact cut.lexemes_written spaced isSpaced

end Token

namespace CommandLine

/-- Nothing to read but the standard input. -/
def onlyInput (stdin : Bytes) : Surroundings where
  version := []
  files :=
    { status := fun path => .error ⟨.status, path, .missing⟩
      contents := fun path => .error ⟨.opening, path, .missing⟩ }
  stdin := stdin

theorem source_onlyInput (stdin : Bytes) :
    (onlyInput stdin).source [dash] = .ok stdin :=
  rfl

theorem run_tokens
    {surroundings : Surroundings} {path source : Bytes} {tokens : List Token}
    (read : surroundings.source path = .ok source)
    (scanned : Token.ofSource path source = .ok tokens) (options : Options) :
    (Request.tokens path).run surroundings options =
      .success ((tokens.map Token.listed).flatMap ListedToken.row) := by
  rw [Request.run, listTokens, read]
  simp only [scanned, Token.flatMap_tokenLine]

/-- The listing of a source that scans has one line for each token, and the
listing of another source is the same exactly if it has the same lexemes at the
same lines and columns. -/
theorem tokens_listing_lossless
    {surroundings : Surroundings} {path source : Bytes} {tokens : List Token}
    (read : surroundings.source path = .ok source)
    (scanned : Token.ofSource path source = .ok tokens) (options : Options) :
    ∃ listing : Bytes,
      (Request.tokens path).run surroundings options = .success listing ∧
      listing.count Bytes.newline = tokens.length ∧
      (∃ lines : List Bytes,
        lines.length = tokens.length ∧
          (∀ line ∈ lines, Bytes.newline ∉ line) ∧
          listing = lines.flatMap (· ++ [Bytes.newline])) ∧
      ∀ (others : Surroundings) (otherPath otherSource : Bytes)
        (otherTokens : List Token) (otherOptions : Options),
        others.source otherPath = .ok otherSource →
        Token.ofSource otherPath otherSource = .ok otherTokens →
        ((Request.tokens otherPath).run others otherOptions =
            .success listing ↔
          otherTokens.map Token.listed = tokens.map Token.listed) := by
  have written := Token.isWritten_of_mem_listed scanned
  refine ⟨_, run_tokens read scanned options, ?_, ?_, ?_⟩
  · rw [ListedToken.count_newline_rows written, List.length_map]
  · refine ⟨(tokens.map Token.listed).map ListedToken.body, ?_, ?_, ?_⟩
    · rw [List.length_map, List.length_map]
    · rw [List.forall_mem_map]
      exact fun entry member =>
        ListedToken.newline_not_mem_body (written entry member)
    · rw [List.flatMap_map ListedToken.body]
      rfl
  · intro others otherPath otherSource otherTokens otherOptions otherRead
      otherScanned
    rw [run_tokens otherRead otherScanned]
    constructor
    · intro same
      exact ListedToken.eq_of_rows_eq
        (Token.isWritten_of_mem_listed otherScanned) written
        (congrArg Outcome.stdout same)
    · intro same
      rw [same]

/-- A string that holds a newline is not listed as one that holds a backslash
and the letter of its escape. -/
theorem tokens_listing_lossless_of_newline :
    Token.ofSource [dash] (Bytes.ofString "\"\n\"") =
        .ok [⟨.string, Bytes.ofString "\n", ⟨[dash], 0, 1, 1⟩⟩] ∧
      Token.ofSource [dash] (Bytes.ofString "\"\\n\"") =
        .ok [⟨.string, Bytes.ofString "\\n", ⟨[dash], 0, 1, 1⟩⟩] ∧
      ∃ listing : Bytes,
        (Request.tokens [dash]).run
            (onlyInput (Bytes.ofString "\"\n\"")) {} = .success listing ∧
          listing.count Bytes.newline = 1 ∧
          (Request.tokens [dash]).run
            (onlyInput (Bytes.ofString "\"\\n\"")) {} ≠ .success listing := by
  have scanned :=
    Token.ofSource_string [dash]
      (show Bytes.quoteMark ∉ Bytes.ofString "\n" by decide)
  have otherScanned :=
    Token.ofSource_string [dash]
      (show Bytes.quoteMark ∉ Bytes.ofString "\\n" by decide)
  obtain ⟨listing, listed, count, _, told⟩ :=
    tokens_listing_lossless (source_onlyInput _) scanned {}
  refine ⟨scanned, otherScanned, listing, listed, count, fun same => ?_⟩
  have sameTexts := (told _ _ _ _ {} (source_onlyInput _) otherScanned).mp same
  exact absurd sameTexts (by decide)

end CommandLine

end SexprCalls
