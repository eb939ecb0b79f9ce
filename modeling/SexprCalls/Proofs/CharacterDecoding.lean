import SexprCalls.Text.Blank

/-!
# Decoding undoes encoding

A character is spelled by one to four bytes, whose number follows from its
code.  `Spells` gives these bytes by their values, and both the encoder and
`decode?` are compared with it: the decoder takes a character off the head of a
byte string exactly where its encoding stands there.
-/

namespace SexprCalls.Text.Utf8

/-! ## The bytes of a code -/

/-- The byte sequence of a code in its shortest form.  A byte after the first
one carries six bits of the code. -/
inductive Spells (code : Nat) : Bytes → Prop
  | one {first : UInt8} :
      code < 0x80 →
      first.toNat = code →
      Spells code [first]
  | two {first second : UInt8} :
      0x80 ≤ code → code < 0x800 →
      first.toNat = 0xC0 + code / 0x40 →
      second.toNat = 0x80 + code % 0x40 →
      Spells code [first, second]
  | three {first second third : UInt8} :
      0x800 ≤ code → code < 0x10000 →
      first.toNat = 0xE0 + code / 0x1000 →
      second.toNat = 0x80 + code / 0x40 % 0x40 →
      third.toNat = 0x80 + code % 0x40 →
      Spells code [first, second, third]
  | four {first second third fourth : UInt8} :
      0x10000 ≤ code → code < 0x110000 →
      first.toNat = 0xF0 + code / 0x40000 →
      second.toNat = 0x80 + code / 0x1000 % 0x40 →
      third.toNat = 0x80 + code / 0x40 % 0x40 →
      fourth.toNat = 0x80 + code % 0x40 →
      Spells code [first, second, third, fourth]

namespace Spells

theorem ne_nil
    {code : Nat} {spelling : Bytes}
    (spells : Spells code spelling) :
    spelling ≠ [] := by
  cases spells <;> exact List.cons_ne_nil _ _

/-- The first byte is the code itself below `0x80`, and a byte from `0xC2` on
for every other code. -/
theorem head_cases
    {code : Nat} {first : UInt8} {rest : Bytes}
    (spells : Spells code (first :: rest)) :
    (code < 0x80 ∧ first.toNat = code) ∨
      (0x80 ≤ code ∧ 0xC2 ≤ first.toNat) := by
  cases spells <;> omega

/-- A byte below `0x80` stands only where it spells a character alone. -/
theorem toNat_eq_of_mem
    {code : Nat} {spelling : Bytes} (spells : Spells code spelling)
    {byte : UInt8} (member : byte ∈ spelling) (ascii : byte.toNat < 0x80) :
    byte.toNat = code := by
  cases spells with
  | one small firstByte =>
      rw [List.mem_singleton.mp member]
      exact firstByte
  | two =>
      simp only [List.mem_cons, List.not_mem_nil, or_false] at member
      rcases member with rfl | rfl <;> omega
  | three =>
      simp only [List.mem_cons, List.not_mem_nil, or_false] at member
      rcases member with rfl | rfl | rfl <;> omega
  | four =>
      simp only [List.mem_cons, List.not_mem_nil, or_false] at member
      rcases member with rfl | rfl | rfl | rfl <;> omega

/-- A code below `0x80` is spelled by one byte. -/
theorem toNat_eq_of_lt
    {code : Nat} {spelling : Bytes} (spells : Spells code spelling)
    (ascii : code < 0x80) {byte : UInt8} (member : byte ∈ spelling) :
    byte.toNat = code := by
  cases spells with
  | one small firstByte =>
      rw [List.mem_singleton.mp member]
      exact firstByte
  | two long | three long | four long =>
      omega

end Spells

theorem toNat_lt (char : Char) : char.toNat < 0x110000 := by
  rcases char.valid with low | ⟨_, high⟩
  · exact Nat.lt_trans low (by decide)
  · exact high

private theorem toNat_ofNat_byte
    {value : Nat} (small : value < 0x100) :
    (UInt8.ofNat value).toNat = value :=
  UInt8.toNat_ofNat_of_lt' small

private theorem eq_ofNat
    {byte : UInt8} {value : Nat} (same : byte.toNat = value) :
    byte = UInt8.ofNat value := by
  rw [← same, UInt8.ofNat_toNat]

/-- The encoder spells every character. -/
theorem spells_encode (char : Char) :
    Spells char.toNat (String.utf8EncodeChar char) := by
  have bound := toNat_lt char
  have code : char.val.toNat = char.toNat := rfl
  rw [String.utf8EncodeChar, code]
  split
  · exact .one (by omega) (toNat_ofNat_byte (by omega))
  · split
    · refine .two (by omega) (by omega) ?_ ?_ <;>
        rw [toNat_ofNat_byte (by omega)] <;> omega
    · split
      · refine .three (by omega) (by omega) ?_ ?_ ?_ <;>
          rw [toNat_ofNat_byte (by omega)] <;> omega
      · refine .four (by omega) (by omega) ?_ ?_ ?_ ?_ <;>
          rw [toNat_ofNat_byte (by omega)] <;> omega

theorem exists_encode_cons (char : Char) :
    ∃ first rest, String.utf8EncodeChar char = first :: rest :=
  List.exists_cons_of_ne_nil (spells_encode char).ne_nil

/-- A character has no other spelling than its encoding. -/
theorem Spells.eq_encode
    {char : Char} {spelling : Bytes}
    (spells : Spells char.toNat spelling) :
    spelling = String.utf8EncodeChar char := by
  have code : char.val.toNat = char.toNat := rfl
  rw [String.utf8EncodeChar, code]
  cases spells with
  | one small firstByte =>
      rw [if_pos (by omega), eq_ofNat firstByte]
  | two long small firstByte secondByte =>
      rw [if_neg (by omega), if_pos (by omega)]
      simp only [List.cons.injEq, and_true]
      exact ⟨eq_ofNat (by omega), eq_ofNat (by omega)⟩
  | three long small firstByte secondByte thirdByte =>
      rw [if_neg (by omega), if_neg (by omega), if_pos (by omega)]
      simp only [List.cons.injEq, and_true]
      exact ⟨eq_ofNat (by omega), eq_ofNat (by omega), eq_ofNat (by omega)⟩
  | four long small firstByte secondByte thirdByte fourthByte =>
      rw [if_neg (by omega), if_neg (by omega), if_neg (by omega)]
      simp only [List.cons.injEq, and_true]
      exact ⟨eq_ofNat (by omega), eq_ofNat (by omega), eq_ofNat (by omega),
        eq_ofNat (by omega)⟩

/-! ## The same bytes as the decoder looks at them -/

theorem isTail_iff (byte : UInt8) :
    isTail byte = true ↔ 0x80 ≤ byte.toNat ∧ byte.toNat ≤ 0xBF := by
  simp only [isTail, Bool.and_eq_true, decide_eq_true_eq,
    UInt8.le_iff_toNat_le]
  rfl

theorem spells_two_iff {code : Nat} {first second : UInt8} :
    Spells code [first, second] ↔
      (0xC0 ≤ first.toNat ∧ first.toNat < 0xE0) ∧
        isTail second = true ∧
        0x80 ≤ code ∧
        first.toNat % 0x20 * 0x40 + tailBits second = code := by
  rw [isTail_iff, tailBits]
  constructor
  · intro spells
    cases spells with
    | two long small firstByte secondByte =>
        omega
  · intro parts
    apply Spells.two <;> omega

theorem spells_three_iff {code : Nat} {first second third : UInt8} :
    Spells code [first, second, third] ↔
      (0xE0 ≤ first.toNat ∧ first.toNat < 0xF0) ∧
        (isTail second && isTail third) = true ∧
        0x800 ≤ code ∧
        (first.toNat % 0x10 * 0x40 + tailBits second) * 0x40 +
          tailBits third = code := by
  rw [Bool.and_eq_true, isTail_iff, isTail_iff, tailBits, tailBits]
  constructor
  · intro spells
    cases spells with
    | three long small firstByte secondByte thirdByte =>
        omega
  · intro parts
    apply Spells.three <;> omega

theorem spells_four_iff {code : Nat} {first second third fourth : UInt8} :
    Spells code [first, second, third, fourth] ↔
      (0xF0 ≤ first.toNat ∧ first.toNat < 0xF8) ∧
        (isTail second && isTail third && isTail fourth) = true ∧
        (0x10000 ≤ code ∧ code < 0x110000) ∧
        ((first.toNat % 0x08 * 0x40 + tailBits second) * 0x40 +
          tailBits third) * 0x40 + tailBits fourth = code := by
  rw [Bool.and_eq_true, Bool.and_eq_true, isTail_iff, isTail_iff, isTail_iff,
    tailBits, tailBits, tailBits]
  constructor
  · intro spells
    cases spells with
    | four long small firstByte secondByte thirdByte fourthByte =>
        omega
  · intro parts
    apply Spells.four <;> omega

/-! ## The decoder -/

theorem scalar?_toNat
    {least : Nat} (size : Nat) {char : Char}
    (long : least ≤ char.toNat) :
    scalar? least size char.toNat = some (char, size) := by
  have valid : char.toNat.isValidChar := char.valid
  rw [scalar?, if_pos ⟨long, valid⟩, Char.ofNat_toNat]

theorem of_scalar?_eq_some
    {least size value found : Nat} {char : Char}
    (scalar : scalar? least size value = some (char, found)) :
    least ≤ value ∧ char.toNat = value ∧ found = size := by
  unfold scalar? at scalar
  split at scalar
  · next conditions =>
      cases scalar
      have built : Char.ofNat value = Char.ofNatAux value conditions.2 :=
        dif_pos conditions.2
      exact ⟨conditions.1, congrArg Char.toNat built, rfl⟩
  · contradiction

/-- The decoder takes a spelled character off the head of its input. -/
theorem decode?_of_spells
    {char : Char} {spelling : Bytes}
    (spells : Spells char.toNat spelling) (rest : Bytes) :
    decode? (spelling ++ rest) = some (char, spelling.length) := by
  have shape := spells
  cases shape with
  | @one first small firstByte =>
      have ascii : first < 0x80 := by
        rw [UInt8.lt_iff_toNat_lt]
        exact firstByte ▸ small
      unfold decode?
      rw [List.singleton_append]
      simp only [if_pos ascii, firstByte, Char.ofNat_toNat]
      rfl
  | @two first second =>
      obtain ⟨lead, tail, long, value⟩ := spells_two_iff.mp spells
      rw [List.cons_append, List.singleton_append, decode?, if_neg, if_neg,
        if_pos]
      · simp only [tail, if_true, value]
        exact scalar?_toNat 2 long
      all_goals
        rw [UInt8.lt_iff_toNat_lt]
        simp only [UInt8.reduceToNat]
        omega
  | @three first second third =>
      obtain ⟨lead, tails, long, value⟩ := spells_three_iff.mp spells
      rw [List.cons_append, List.cons_append, List.singleton_append, decode?,
        if_neg, if_neg, if_neg, if_pos]
      · simp only [tails, if_true, value]
        exact scalar?_toNat 3 long
      all_goals
        rw [UInt8.lt_iff_toNat_lt]
        simp only [UInt8.reduceToNat]
        omega
  | @four first second third fourth =>
      obtain ⟨lead, tails, ⟨long, _⟩, value⟩ := spells_four_iff.mp spells
      rw [List.cons_append, List.cons_append, List.cons_append,
        List.singleton_append, decode?, if_neg, if_neg, if_neg, if_neg,
        if_pos]
      · simp only [tails, if_true, value]
        exact scalar?_toNat 4 long
      all_goals
        rw [UInt8.lt_iff_toNat_lt]
        simp only [UInt8.reduceToNat]
        omega

/-- Whatever the decoder takes off the head of its input spells the character
that it gives. -/
theorem spells_of_decode?
    {bytes : Bytes} {char : Char} {size : Nat}
    (decoded : decode? bytes = some (char, size)) :
    ∃ spelling rest,
      bytes = spelling ++ rest ∧
        Spells char.toNat spelling ∧ size = spelling.length := by
  cases bytes with
  | nil =>
      contradiction
  | cons first rest =>
      unfold decode? at decoded
      simp only [UInt8.lt_iff_toNat_lt, UInt8.reduceToNat] at decoded
      split at decoded
      · next ascii =>
          have valid : first.toNat.isValidChar :=
            Or.inl (Nat.lt_trans ascii (by decide))
          have code : (Char.ofNat first.toNat).toNat = first.toNat :=
            congrArg Char.toNat (dif_pos valid)
          cases decoded
          exact ⟨[first], rest, rfl, .one (by omega) code.symm, rfl⟩
      split at decoded
      · contradiction
      -- From here on the first byte tells how many bytes follow it.
      split at decoded
      · split at decoded
        · next second rest =>
            split at decoded
            · next tail =>
                obtain ⟨long, code, rfl⟩ := of_scalar?_eq_some decoded
                have spells : Spells char.toNat [first, second] :=
                  spells_two_iff.mpr
                    ⟨by omega, tail, code ▸ long, code.symm⟩
                exact ⟨[first, second], rest, rfl, spells, rfl⟩
            · contradiction
        · contradiction
      split at decoded
      · split at decoded
        · next second third rest =>
            split at decoded
            · next tails =>
                obtain ⟨long, code, rfl⟩ := of_scalar?_eq_some decoded
                have spells : Spells char.toNat [first, second, third] :=
                  spells_three_iff.mpr
                    ⟨by omega, tails, code ▸ long, code.symm⟩
                exact ⟨[first, second, third], rest, rfl, spells, rfl⟩
            · contradiction
        · contradiction
      split at decoded
      · split at decoded
        · next second third fourth rest =>
            split at decoded
            · next tails =>
                obtain ⟨long, code, rfl⟩ := of_scalar?_eq_some decoded
                have spells :
                    Spells char.toNat [first, second, third, fourth] :=
                  spells_four_iff.mpr
                    ⟨by omega, tails, ⟨code ▸ long, toNat_lt char⟩,
                      code.symm⟩
                exact ⟨[first, second, third, fourth], rest, rfl, spells,
                  rfl⟩
            · contradiction
        · contradiction
      · contradiction

/-- The decoder reads a character exactly where its encoding stands. -/
theorem decode?_eq_some_iff
    {bytes : Bytes} {char : Char} {size : Nat} :
    decode? bytes = some (char, size) ↔
      size = (String.utf8EncodeChar char).length ∧
        ∃ rest, bytes = String.utf8EncodeChar char ++ rest := by
  constructor
  · intro decoded
    obtain ⟨spelling, rest, split, spells, rfl⟩ :=
      spells_of_decode? decoded
    have encoded := spells.eq_encode
    subst encoded
    exact ⟨rfl, rest, split⟩
  · rintro ⟨rfl, rest, rfl⟩
    exact decode?_of_spells (spells_encode char) rest

end SexprCalls.Text.Utf8
