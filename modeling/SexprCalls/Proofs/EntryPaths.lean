import Mathlib.Data.List.Induction
import SexprCalls.Files.Tree

/-!
# Paths of entries

The path of an entry is the path of its directory and its name in the shortest form.
A tree has no links, so the shortest form of a path leads where the path does: a
double dot comes back to the directory that the part before it was looked up in.
Hence the path of an entry leads to the entry.
-/

namespace SexprCalls

/-! ## The parts of a path -/

namespace Path

theorem parts_ne_nil (path : Bytes) : parts path ≠ [] := by
  cases path with
  | nil =>
      exact List.cons_ne_nil _ _
  | cons byte rest =>
      rw [parts]
      split
      · exact List.cons_ne_nil _ _
      · split <;> exact List.cons_ne_nil _ _

theorem parts_slash_cons (path : Bytes) :
    parts (slash :: path) = [] :: parts path :=
  if_pos rfl

/-- A byte in front of a path that is no slash goes to the first part. -/
theorem parts_cons_of_ne
    {byte : UInt8} (inside : byte ≠ slash) {path part : Bytes}
    {more : List Bytes} (split : parts path = part :: more) :
    parts (byte :: path) = (byte :: part) :: more := by
  rw [parts, if_neg inside, split]

theorem parts_append_slash (first second : Bytes) :
    parts (first ++ slash :: second) = parts first ++ parts second := by
  induction first with
  | nil =>
      exact parts_slash_cons second
  | cons byte rest inductionHypothesis =>
      obtain ⟨part, more, split⟩ := List.exists_cons_of_ne_nil (parts_ne_nil rest)
      rw [split, List.cons_append] at inductionHypothesis
      by_cases ends : byte = slash
      · subst ends
        rw [List.cons_append, parts_slash_cons, parts_slash_cons,
          inductionHypothesis, split]
        rfl
      · rw [List.cons_append, parts_cons_of_ne ends inductionHypothesis,
          parts_cons_of_ne ends split]
        rfl

theorem parts_of_not_mem {name : Bytes} (plain : slash ∉ name) :
    parts name = [name] := by
  induction name with
  | nil =>
      rfl
  | cons byte rest inductionHypothesis =>
      rw [List.mem_cons, not_or] at plain
      exact parts_cons_of_ne (Ne.symm plain.1) (inductionHypothesis plain.2)

/-- The parts hold the bytes of the path without its slashes. -/
theorem exists_mem_parts_iff (path : Bytes) (byte : UInt8) :
    (∃ part ∈ parts path, byte ∈ part) ↔ byte ∈ path ∧ byte ≠ slash := by
  induction path with
  | nil =>
      simp [parts]
  | cons first rest inductionHypothesis =>
      by_cases ends : first = slash
      · subst ends
        simp only [parts_slash_cons, List.mem_cons, exists_eq_or_imp,
          inductionHypothesis]
        grind
      · obtain ⟨part, more, split⟩ :=
          List.exists_cons_of_ne_nil (parts_ne_nil rest)
        simp only [split, List.mem_cons, exists_eq_or_imp] at inductionHypothesis
        simp only [parts_cons_of_ne ends split, List.mem_cons, exists_eq_or_imp,
          or_assoc, inductionHypothesis]
        grind

theorem slash_not_mem_of_mem_parts
    {path part : Bytes} (member : part ∈ parts path) : slash ∉ part := by
  intro inside
  exact ((exists_mem_parts_iff path slash).mp ⟨part, member, inside⟩).2 rfl

theorem parts_intercalate
    {kept : List Bytes} (plain : ∀ part ∈ kept, slash ∉ part)
    (some : kept ≠ []) :
    parts (List.intercalate [slash] kept) = kept := by
  induction kept with
  | nil =>
      exact absurd rfl some
  | cons part more inductionHypothesis =>
      obtain ⟨partPlain, morePlain⟩ := List.forall_mem_cons.mp plain
      cases more with
      | nil =>
          rw [List.intercalate_singleton, parts_of_not_mem partPlain]
      | cons next others =>
          rw [List.intercalate_cons_cons, List.append_assoc,
            List.singleton_append, parts_append_slash,
            parts_of_not_mem partPlain,
            inductionHypothesis morePlain (List.cons_ne_nil _ _)]
          rfl

/-! ## The shortest form -/

/-- A part that stays where it is. -/
def Stays (part : Bytes) : Prop :=
  part = [] ∨ part = hereDots

/-- The parts of the shortest form of a path. -/
def keptParts (path : Bytes) : List Bytes :=
  ((parts path).foldl (pushPart (isRooted path)) []).reverse

theorem mem_pushPart
    {rooted : Bool} {kept : List Bytes} {part member : Bytes}
    (inside : member ∈ pushPart rooted kept part) :
    member ∈ kept ∨ member = part ∧ ¬ Stays part := by
  unfold pushPart at inside
  unfold Stays
  split at inside
  · exact Or.inl inside
  · next moves =>
      split at inside
      · next up =>
          subst up
          grind
      · rcases List.mem_cons.mp inside with same | earlier
        · exact Or.inr ⟨same, moves⟩
        · exact Or.inl earlier

theorem mem_foldl_pushPart
    {rooted : Bool} {parts : List Bytes} {member : Bytes}
    (inside : member ∈ parts.foldl (pushPart rooted) []) :
    member ∈ parts ∧ ¬ Stays member := by
  induction parts using List.reverseRecOn with
  | nil =>
      cases inside
  | append_singleton parts part inductionHypothesis =>
      rw [List.foldl_append] at inside
      rcases mem_pushPart inside with earlier | ⟨rfl, moves⟩
      · obtain ⟨within, moves⟩ := inductionHypothesis earlier
        exact ⟨List.mem_append_left _ within, moves⟩
      · exact ⟨List.mem_append_right _ List.mem_cons_self, moves⟩

theorem mem_parts_of_mem_keptParts
    {path part : Bytes} (member : part ∈ keptParts path) :
    part ∈ parts path ∧ ¬ Stays part :=
  mem_foldl_pushPart (List.mem_reverse.mp member)

theorem parts_intercalate_keptParts
    {path : Bytes} (some : keptParts path ≠ []) :
    parts (List.intercalate [slash] (keptParts path)) = keptParts path := by
  refine parts_intercalate (fun part member => ?_) some
  exact slash_not_mem_of_mem_parts (mem_parts_of_mem_keptParts member).1

/-- The kept parts with slashes between them do not start with an empty part. -/
theorem parts_intercalate_keptParts_ne
    {path : Bytes} (some : keptParts path ≠ []) {more : List Bytes} :
    parts (List.intercalate [slash] (keptParts path)) ≠ [] :: more := by
  intro split
  rw [parts_intercalate_keptParts some] at split
  have member : [] ∈ keptParts path := by
    rw [split]
    exact List.mem_cons_self
  exact (mem_parts_of_mem_keptParts member).2 (Or.inl rfl)

theorem shortest_eq (path : Bytes) :
    shortest path =
      if isRooted path then
        slash :: List.intercalate [slash] (keptParts path)
      else if (List.intercalate [slash] (keptParts path)).isEmpty then
        hereDots
      else
        List.intercalate [slash] (keptParts path) :=
  rfl

theorem shortest_of_isRooted {path : Bytes} (rooted : isRooted path = true) :
    shortest path = slash :: List.intercalate [slash] (keptParts path) := by
  rw [shortest_eq, if_pos rooted]

theorem shortest_of_keptParts_eq_nil
    {path : Bytes} (relative : isRooted path = false)
    (none : keptParts path = []) : shortest path = hereDots := by
  rw [shortest_eq, if_neg (Bool.not_eq_true _ ▸ relative), none]
  rfl

theorem shortest_of_keptParts_ne_nil
    {path : Bytes} (relative : isRooted path = false)
    (some : keptParts path ≠ []) :
    shortest path = List.intercalate [slash] (keptParts path) := by
  rw [shortest_eq, if_neg (Bool.not_eq_true _ ▸ relative), if_neg]
  intro empty
  apply parts_intercalate_keptParts_ne some
  rw [List.isEmpty_iff.mp empty]
  rfl

/-- The shortest form of a path has its kept parts, behind parts that stay where
they are. -/
theorem exists_parts_shortest (path : Bytes) :
    ∃ dots, (∀ part ∈ dots, Stays part) ∧
      parts (shortest path) = dots ++ keptParts path := by
  cases rooted : isRooted path <;> by_cases none : keptParts path = []
  · refine ⟨[hereDots], by simp [Stays], ?_⟩
    rw [shortest_of_keptParts_eq_nil rooted none, none]
    rfl
  · refine ⟨[], by simp, ?_⟩
    rw [shortest_of_keptParts_ne_nil rooted none,
      parts_intercalate_keptParts none, List.nil_append]
  · refine ⟨[[], []], by simp [Stays], ?_⟩
    rw [shortest_of_isRooted rooted, none]
    rfl
  · refine ⟨[[]], by simp [Stays], ?_⟩
    rw [shortest_of_isRooted rooted, parts_slash_cons,
      parts_intercalate_keptParts none, List.singleton_append]

theorem isRooted_shortest (path : Bytes) :
    isRooted (shortest path) = isRooted path := by
  cases rooted : isRooted path with
  | true =>
      rw [shortest_of_isRooted rooted]
      rfl
  | false =>
      by_cases none : keptParts path = []
      · rw [shortest_of_keptParts_eq_nil rooted none]
        rfl
      · rw [shortest_of_keptParts_ne_nil rooted none]
        apply Bool.eq_false_iff.mpr
        intro starts
        obtain ⟨rest, split⟩ := List.head?_eq_some_iff.mp (of_decide_eq_true starts)
        exact parts_intercalate_keptParts_ne none (split ▸ parts_slash_cons rest)

theorem shortest_ne_nil (path : Bytes) : shortest path ≠ [] := by
  rw [shortest_eq]
  split
  · exact List.cons_ne_nil _ _
  · split
    · decide
    · next some =>
        rwa [List.isEmpty_iff] at some

theorem not_mem_shortest
    {path : Bytes} {byte : UInt8} (noSlash : byte ≠ slash)
    (noDot : byte ∉ hereDots) (outside : byte ∉ path) :
    byte ∉ shortest path := by
  intro inside
  obtain ⟨dots, stay, split⟩ := exists_parts_shortest path
  obtain ⟨part, member, within⟩ :=
    (exists_mem_parts_iff (shortest path) byte).mpr ⟨inside, noSlash⟩
  rw [split] at member
  rcases List.mem_append.mp member with dot | kept
  · rcases stay part dot with rfl | rfl
    · cases within
    · exact noDot within
  · have earlier := (mem_parts_of_mem_keptParts kept).1
    exact outside
      ((exists_mem_parts_iff path byte).mp ⟨part, earlier, within⟩).1

end Path

/-! ## Walking along a path -/

namespace FileTree

/-- A place in a tree, with the directories above it, the nearest first. -/
structure Place where
  above : List FileTree
  here : FileTree

namespace Place

/-- The place behind one more part of a path. -/
def step? : Place → Bytes → Option Place
  | ⟨above, .directory entries⟩, part =>
      if part = [] ∨ part = Path.hereDots then
        some ⟨above, .directory entries⟩
      else if part = Path.upDots then
        some ⟨above.tail, above.head?.getD (.directory entries)⟩
      else
        (entries.lookup part).map (Place.mk (.directory entries :: above))
  | _, _ => none

/-- The place behind the parts of a path. -/
def walk? (start : Place) (parts : List Bytes) : Option Place :=
  parts.foldlM step? start

theorem walk?_append (start : Place) (first second : List Bytes) :
    start.walk? (first ++ second) =
      (start.walk? first).bind fun place => place.walk? second :=
  List.foldlM_append

theorem walk?_concat (start : Place) (parts : List Bytes) (part : Bytes) :
    start.walk? (parts ++ [part]) =
      (start.walk? parts).bind fun place => place.step? part := by
  simp [walk?]

theorem follow_eq_ok_iff
    (above : List FileTree) (here node : FileTree) (parts : List Bytes) :
    follow above here parts = .ok node ↔
      ∃ place, (Place.mk above here).walk? parts = some place ∧
        place.here = node := by
  induction parts generalizing above here with
  | nil =>
      simp [follow, walk?]
  | cons part rest inductionHypothesis =>
      cases here with
      | file _ | locked =>
          simp [follow, walk?, step?]
      | directory entries =>
          rw [follow, walk?, List.foldlM_cons, step?]
          split
          · exact inductionHypothesis above (.directory entries)
          · split
            · exact inductionHypothesis above.tail
                (above.head?.getD (.directory entries))
            · cases entries.lookup part with
              | none =>
                  simp
              | some child =>
                  exact inductionHypothesis (.directory entries :: above) child

section Step

variable (above : List FileTree) (entries : List (Bytes × FileTree))

theorem step?_of_stays {part : Bytes} (stays : Path.Stays part) :
    step? ⟨above, .directory entries⟩ part =
      some ⟨above, .directory entries⟩ :=
  if_pos stays

theorem step?_upDots :
    step? ⟨above, .directory entries⟩ Path.upDots =
      some ⟨above.tail, above.head?.getD (.directory entries)⟩ :=
  rfl

theorem step?_of_name
    {name : Bytes} (moves : ¬ Path.Stays name) (down : name ≠ Path.upDots) :
    step? ⟨above, .directory entries⟩ name =
      (entries.lookup name).map (Place.mk (.directory entries :: above)) :=
  (if_neg moves).trans (if_neg down)

end Step

/-- Only from a directory a part leads on. -/
theorem exists_entries_of_step?
    {place next : Place} {part : Bytes}
    (stepped : place.step? part = some next) :
    ∃ entries, place.here = .directory entries := by
  rcases place with ⟨above, _ | _ | entries⟩
  · cases stepped
  · cases stepped
  · exact ⟨entries, rfl⟩

theorem eq_of_step?_of_stays
    {place next : Place} {part : Bytes} (stays : Path.Stays part)
    (stepped : place.step? part = some next) : next = place := by
  obtain ⟨entries, isDirectory⟩ := exists_entries_of_step? stepped
  obtain ⟨above, here⟩ := place
  subst isDirectory
  rw [step?_of_stays above entries stays] at stepped
  exact (Option.some.inj stepped).symm

/-- A double dot comes back from an entry to its directory. -/
theorem eq_of_step?_upDots
    {place inner next : Place} {name : Bytes} (moves : ¬ Path.Stays name)
    (down : name ≠ Path.upDots) (entered : place.step? name = some inner)
    (left : inner.step? Path.upDots = some next) : next = place := by
  obtain ⟨entries, isDirectory⟩ := exists_entries_of_step? entered
  obtain ⟨above, here⟩ := place
  subst isDirectory
  rw [step?_of_name above entries moves down] at entered
  obtain ⟨child, _, rfl⟩ := Option.map_eq_some_iff.mp entered
  obtain ⟨inside, isDirectory⟩ := exists_entries_of_step? left
  subst isDirectory
  rw [step?_upDots] at left
  exact (Option.some.inj left).symm

theorem walk?_of_stays
    (above : List FileTree) (entries : List (Bytes × FileTree))
    {dots : List Bytes} (stay : ∀ part ∈ dots, Path.Stays part) :
    walk? ⟨above, .directory entries⟩ dots =
      some ⟨above, .directory entries⟩ := by
  induction dots with
  | nil =>
      rfl
  | cons part rest inductionHypothesis =>
      obtain ⟨first, others⟩ := List.forall_mem_cons.mp stay
      rw [walk?, List.foldlM_cons, step?_of_stays above entries first]
      exact inductionHypothesis others

/-- The shortest form of some parts leads where the parts do.  At the top, where a
double dot is dropped, it must lead nowhere else. -/
theorem walk?_foldl_pushPart
    {start place : Place} {rooted : Bool} {parts : List Bytes}
    (top : rooted = true → start.step? Path.upDots = some start)
    (walked : start.walk? parts = some place) :
    start.walk? (parts.foldl (Path.pushPart rooted) []).reverse =
      some place := by
  induction parts using List.reverseRecOn generalizing place with
  | nil =>
      exact walked
  | append_singleton parts part inductionHypothesis =>
      rw [walk?_concat] at walked
      obtain ⟨before, reached, stepped⟩ := Option.bind_eq_some_iff.mp walked
      have kept := inductionHypothesis reached
      have moving : ∀ member ∈ parts.foldl (Path.pushPart rooted) [],
          ¬ Path.Stays member :=
        fun member inside => (Path.mem_foldl_pushPart inside).2
      rw [List.foldl_append, List.foldl_cons, List.foldl_nil]
      generalize parts.foldl (Path.pushPart rooted) [] = stack at kept moving ⊢
      unfold Path.pushPart
      split
      · next stays =>
          rw [kept, eq_of_step?_of_stays stays stepped]
      · next moves =>
          split
          · next up =>
              subst up
              cases stack with
              | nil =>
                  obtain rfl : before = start := (Option.some.inj kept).symm
                  cases rooted with
                  | true =>
                      exact (top rfl).symm.trans stepped
                  | false =>
                      exact (walk?_concat before [] Path.upDots).trans stepped
              | cons last earlier =>
                  by_cases upAgain : last = Path.upDots
                  · subst upAgain
                    simp only [if_true]
                    rw [List.reverse_cons, walk?_concat, kept]
                    exact stepped
                  · simp only [upAgain, if_false]
                    rw [List.reverse_cons, walk?_concat] at kept
                    obtain ⟨outer, reachedOuter, entered⟩ :=
                      Option.bind_eq_some_iff.mp kept
                    have back := eq_of_step?_upDots
                      (moving last List.mem_cons_self) upAgain entered stepped
                    rw [reachedOuter, back]
          · rw [List.reverse_cons, walk?_concat, kept]
            exact stepped

end Place

end FileTree

/-! ## Looking up a path -/

namespace FileSystem

open FileTree (Place)

/-- The names that lead from the root to where a path starts. -/
def before (system : FileSystem) (path : Bytes) : List Bytes :=
  if Path.isRooted path then [] else system.current

theorem resolve_eq_ok_iff
    (system : FileSystem) (node : FileTree) (path : Bytes) :
    system.resolve path = .ok node ↔
      0 ∉ path ∧ path ≠ [] ∧
        ∃ start, (Place.mk [] system.root).walk? (system.before path) =
            some start ∧
          ∃ place, start.walk? (Path.parts path) = some place ∧
            place.here = node := by
  have followed :
      FileTree.follow [] system.root (system.before path ++ Path.parts path) =
          .ok node ↔
        ∃ start, (Place.mk [] system.root).walk? (system.before path) =
            some start ∧
          ∃ place, start.walk? (Path.parts path) = some place ∧
            place.here = node := by
    rw [Place.follow_eq_ok_iff, Place.walk?_append]
    constructor
    · rintro ⟨place, walked, here⟩
      obtain ⟨start, started, walked⟩ := Option.bind_eq_some_iff.mp walked
      exact ⟨start, started, place, walked, here⟩
    · rintro ⟨start, started, place, walked, here⟩
      exact ⟨place, Option.bind_eq_some_iff.mpr ⟨start, started, walked⟩, here⟩
  rw [← followed, resolve, before]
  by_cases invalid : 0 ∈ path
  · simp [invalid]
  by_cases none : path = []
  · simp [none]
  cases rooted : Path.isRooted path <;> simp [invalid, none]

/-- The shortest form of a path leads where the path does. -/
theorem resolve_shortest
    {system : FileSystem} {node : FileTree} {path : Bytes}
    (resolved : system.resolve path = .ok node) :
    system.resolve (Path.shortest path) = .ok node := by
  rw [resolve_eq_ok_iff] at resolved ⊢
  obtain ⟨valid, _, start, started, place, walked, here⟩ := resolved
  refine ⟨Path.not_mem_shortest (by decide) (by decide) valid,
    Path.shortest_ne_nil path, start, ?_, place, ?_, here⟩
  · rw [before, Path.isRooted_shortest]
    exact started
  obtain ⟨part, more, parts⟩ :=
    List.exists_cons_of_ne_nil (Path.parts_ne_nil path)
  -- A path has at least one part, so it starts at a directory.
  obtain ⟨above, entries, rfl⟩ : ∃ above entries,
      start = ⟨above, .directory entries⟩ := by
    rw [parts, Place.walk?, List.foldlM_cons] at walked
    obtain ⟨next, stepped, _⟩ := Option.bind_eq_some_iff.mp walked
    obtain ⟨entries, isDirectory⟩ := Place.exists_entries_of_step? stepped
    exact ⟨start.above, entries, by rw [← isDirectory]⟩
  have top : Path.isRooted path = true →
      Place.step? ⟨above, .directory entries⟩ Path.upDots =
        some ⟨above, .directory entries⟩ := by
    intro rooted
    rw [before, if_pos rooted] at started
    obtain rfl : [] = above := congrArg Place.above (Option.some.inj started)
    rfl
  have shortened := Place.walk?_foldl_pushPart top walked
  obtain ⟨dots, stay, split⟩ := Path.exists_parts_shortest path
  rw [split, Place.walk?_append, Place.walk?_of_stays above entries stay]
  exact shortened

/-- The path of an entry leads to the entry. -/
theorem resolve_entry
    {system : FileSystem} {child : FileTree} {directory name : Bytes}
    {entries : List (Bytes × FileTree)}
    (resolved : system.resolve directory = .ok (.directory entries))
    (found : entries.lookup name = some child)
    (moves : ¬ Path.Stays name) (down : name ≠ Path.upDots)
    (noSlash : Path.slash ∉ name) (valid : 0 ∉ name) :
    system.resolve (Path.entry directory name) = .ok child := by
  apply resolve_shortest
  rw [resolve_eq_ok_iff] at resolved ⊢
  obtain ⟨directoryValid, some, start, started, ⟨above, here⟩, walked, rfl⟩ :=
    resolved
  have sameStart :
      system.before (directory ++ Path.slash :: name) =
        system.before directory := by
    cases directory with
    | nil =>
        exact absurd rfl some
    | cons byte rest =>
        rfl
  refine ⟨by simp [directoryValid, valid, Path.slash], by simp,
    start, sameStart ▸ started, ⟨.directory entries :: above, child⟩, ?_, rfl⟩
  rw [Path.parts_append_slash, Path.parts_of_not_mem noSlash,
    Place.walk?_concat, walked, Option.bind_some,
    Place.step?_of_name above entries moves down, found, Option.map_some]

end FileSystem
end SexprCalls
