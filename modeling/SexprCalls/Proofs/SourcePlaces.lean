import Mathlib.Data.List.DropRight
import SexprCalls.Proofs.LexicalCut

/-!
# Places in a source

A reader keeps its place byte by byte.  Here the place behind a run of bytes is
given by the bytes alone: how many there are, how many of them are newlines, and
how many stand behind the last newline.  With that, a place in the second of two
sources is compared with the same place behind both.
-/

namespace SexprCalls

namespace Bytes

/-- The bytes behind the last newline. -/
def lastLine (bytes : Bytes) : Bytes :=
  bytes.rtakeWhile (· != newline)

theorem lastLine_concat_newline (bytes : Bytes) :
    lastLine (bytes ++ [newline]) = [] :=
  List.rtakeWhile_concat_neg _ bytes newline (by decide)

theorem lastLine_concat
    {byte : UInt8} (inside : byte ≠ newline) (bytes : Bytes) :
    lastLine (bytes ++ [byte]) = lastLine bytes ++ [byte] :=
  List.rtakeWhile_concat_pos _ bytes byte (bne_iff_ne.mpr inside)

theorem lastLine_append_of_not_mem
    (first : Bytes) {second : Bytes} (oneLine : newline ∉ second) :
    lastLine (first ++ second) = lastLine first ++ second := by
  induction second using List.reverseRecOn with
  | nil =>
      simp only [List.append_nil]
  | append_singleton second byte inductionHypothesis =>
      rw [List.mem_append, not_or, List.mem_singleton] at oneLine
      rw [← List.append_assoc, lastLine_concat (Ne.symm oneLine.2),
        inductionHypothesis oneLine.1, List.append_assoc]

theorem lastLine_append_of_mem
    (first : Bytes) {second : Bytes} (broken : newline ∈ second) :
    lastLine (first ++ second) = lastLine second := by
  induction second using List.reverseRecOn with
  | nil =>
      cases broken
  | append_singleton second byte inductionHypothesis =>
      rw [← List.append_assoc]
      by_cases ends : byte = newline
      · subst ends
        rw [lastLine_concat_newline, lastLine_concat_newline]
      · have earlier : newline ∈ second := by
          rcases List.mem_append.mp broken with inside | last
          · exact inside
          · exact absurd (List.mem_singleton.mp last).symm ends
        rw [lastLine_concat ends, lastLine_concat ends,
          inductionHypothesis earlier]

end Bytes

namespace Location

theorem past_concat (here : Location) (bytes : Bytes) (byte : UInt8) :
    here.past (bytes ++ [byte]) = (here.past bytes).step byte :=
  past_append here bytes [byte]

theorem line_past_start (bytes : Bytes) :
    (start.past bytes).line = 1 + bytes.count Bytes.newline := by
  induction bytes using List.reverseRecOn with
  | nil =>
      rfl
  | append_singleton bytes byte inductionHypothesis =>
      rw [past_concat, List.count_append, List.count_singleton]
      by_cases ends : byte = Bytes.newline
      · simp [step, ends, inductionHypothesis, Nat.add_assoc]
      · simp [step, ends, inductionHypothesis]

theorem column_past_start (bytes : Bytes) :
    (start.past bytes).column = 1 + bytes.lastLine.length := by
  induction bytes using List.reverseRecOn with
  | nil =>
      rfl
  | append_singleton bytes byte inductionHypothesis =>
      rw [past_concat]
      by_cases ends : byte = Bytes.newline
      · simp [step, ends, Bytes.lastLine_concat_newline]
      · simp [step, ends, inductionHypothesis, Bytes.lastLine_concat ends,
          Nat.add_assoc]

end Location

/-- A position behind some bytes that come before its source.  Only on the first
line does the column change: the last of these bytes stand on that line too. -/
def Position.movedBy (before : Bytes) (pos : Position) : Position where
  file := pos.file
  offset := pos.offset + before.length
  line := pos.line + before.count Bytes.newline
  column :=
    if pos.line = 1 then pos.column + before.lastLine.length else pos.column

theorem Location.inFile_past_append (file before bytes : Bytes) :
    (start.past (before ++ bytes)).inFile file =
      ((start.past bytes).inFile file).movedBy before := by
  simp only [inFile, Position.movedBy, offset_past, line_past_start,
    column_past_start, List.length_append, List.count_append,
    Position.mk.injEq, true_and]
  refine ⟨?_, ?_, ?_⟩
  · simp only [start]
    omega
  · omega
  · -- Behind a newline the bytes in front are no longer on the same line.
    by_cases broken : Bytes.newline ∈ bytes
    · have positive := List.count_pos_iff.mpr broken
      have later : ¬ ((1 + bytes.count Bytes.newline : Nat) : Int) = 1 := by
        omega
      rw [Bytes.lastLine_append_of_mem before broken, if_neg later]
    · have firstLine :
          ((1 + bytes.count Bytes.newline : Nat) : Int) = 1 := by
        rw [List.count_eq_zero_of_not_mem broken]
        rfl
      have whole : bytes.lastLine = bytes :=
        Bytes.lastLine_append_of_not_mem [] broken
      rw [Bytes.lastLine_append_of_not_mem before broken, if_pos firstLine,
        whole, List.length_append]
      omega

end SexprCalls
