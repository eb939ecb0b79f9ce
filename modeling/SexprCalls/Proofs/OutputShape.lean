import SexprCalls.Proofs.NestingCheck

/-!
# Behind the reader only the nesting limit fails

Lowering may be given any tree.  If it succeeds at all, what it builds has a fixed
shape, and a tree of that shape can be printed.  Together with the tree of a
program, which lowering always accepts, this leaves three ways for a compilation
to fail: in the scanner, in the reader, and at the nesting limit.
-/

namespace SexprCalls

namespace OutputNode

/-- The nodes that may stand in a call: literals, and calls that have a callee
and such nodes as arguments. -/
inductive IsArgument : OutputNode → Prop
  | number (value : Bytes) : IsArgument (.number value)
  | string (value : Bytes) : IsArgument (.string value)
  | call (callee : Bytes) {arguments : List OutputNode} :
      (∀ argument ∈ arguments, IsArgument argument) →
      IsArgument (.call (some callee) arguments)

/-- The nodes that may stand in the root: literals, and statements around a
call. -/
inductive IsTopLevel : OutputNode → Prop
  | number (value : Bytes) : IsTopLevel (.number value)
  | string (value : Bytes) : IsTopLevel (.string value)
  | statement (callee : Bytes) {arguments : List OutputNode} :
      (∀ argument ∈ arguments, IsArgument argument) →
      IsTopLevel (.statement (.call (some callee) arguments))

end OutputNode

namespace SourceNode

mutual

theorem isArgument_of_mem_asArgument
    {output : OutputNode} :
    (node : SourceNode) → output ∈ node.asArgument → output.IsArgument
  | .number value, member => by
      rw [List.mem_singleton.mp member]
      exact .number value
  | .string value, member => by
      rw [List.mem_singleton.mp member]
      exact .string value
  | .call name params, member => by
      rw [List.mem_singleton.mp member]
      exact .call name fun _ inside =>
        isArgument_of_mem_asArguments params inside
  | .program _, member => nomatch member
  | .absent, member => nomatch member
  | .vacant _, member => nomatch member
  | .foreign _ _, member => nomatch member

theorem isArgument_of_mem_asArguments
    {output : OutputNode} :
    (nodes : List SourceNode) → output ∈ asArguments nodes → output.IsArgument
  | [], member => nomatch member
  | node :: rest, member => by
      rcases List.mem_append.mp member with inFirst | inRest
      · exact isArgument_of_mem_asArgument node inFirst
      · exact isArgument_of_mem_asArguments rest inRest

end

theorem isTopLevel_of_mem_asStatement
    {node : SourceNode} {output : OutputNode}
    (member : output ∈ node.asStatement) :
    output.IsTopLevel := by
  cases node with
  | number value =>
      rw [List.mem_singleton.mp member]
      exact .number value
  | string value =>
      rw [List.mem_singleton.mp member]
      exact .string value
  | call name params =>
      rw [List.mem_singleton.mp member]
      exact .statement name fun _ inside =>
        isArgument_of_mem_asArguments params inside
  | program body => nomatch member
  | absent => nomatch member
  | vacant shape => nomatch member
  | foreign typeName kind => nomatch member

/-- Whatever lowering builds is the output of the nodes of a body. -/
theorem exists_body_of_lower
    {root : Option (List SourceNode)} {target : List OutputNode}
    (lowered : lower root = .ok target) :
    ∃ body : List SourceNode, target = body.flatMap asStatement := by
  cases root with
  | none =>
      cases lowered
  | some body =>
      cases fault :
          ((SourceNode.program body).occurrences []).findSome?
            Lowering.fault? with
      | some first =>
          rw [lower_of_fault fault] at lowered
          cases lowered
      | none =>
          rw [lower_of_no_fault fault] at lowered
          exact ⟨body, (Except.ok.inj lowered).symm⟩

end SourceNode

/-- The three ways in which a compilation fails. -/
theorem Compiler.run_cases (compiler : Compiler) (file source : Bytes) :
    (∃ compilation, (compiler.run file source).2 = .ok compilation) ∨
      (∃ error, (compiler.run file source).2 = .error (.error (.lex error))) ∨
      (∃ error,
        (compiler.run file source).2 = .error (.error (.parse error))) ∨
      ∃ error, (compiler.run file source).2 = .error (.error (.depth error)) := by
  have sameResult :
      (compiler.run file source).2 =
        (Compilation.run compiler.maxDepth file source).2 :=
    rfl
  rw [sameResult]
  rcases Compilation.run_cases compiler.maxDepth file source with
    ⟨error, _, run⟩ | ⟨_, error, _, _, run⟩ | ⟨_, _, error, _, _, run⟩ |
      ⟨_, _, _, _, run⟩
  · exact Or.inr (Or.inl ⟨error, congrArg Prod.snd run⟩)
  · exact Or.inr (Or.inr (Or.inl ⟨error, congrArg Prod.snd run⟩))
  · exact Or.inr (Or.inr (Or.inr ⟨error, congrArg Prod.snd run⟩))
  · exact Or.inl ⟨_, congrArg Prod.snd run⟩

/-- Output that was built has the shape of an output and is printed, whatever
tree it was built from; and a compilation fails only in the scanner, in the reader
or at the nesting limit. -/
theorem back_end_never_fails :
    (∀ (root : Option (List SourceNode)) (target : List OutputNode),
      SourceNode.lower root = .ok target →
        (∀ node ∈ target, node.IsTopLevel) ∧
          ∃ text, (OutputNode.program target).render = .ok text) ∧
    (∀ (compiler : Compiler) (file source : Bytes),
      (∃ compilation, (compiler.run file source).2 = .ok compilation) ∨
        (∃ error,
          (compiler.run file source).2 = .error (.error (.lex error))) ∨
        (∃ error,
          (compiler.run file source).2 = .error (.error (.parse error))) ∨
        ∃ error,
          (compiler.run file source).2 = .error (.error (.depth error))) := by
  refine ⟨?_, Compiler.run_cases⟩
  intro root target lowered
  obtain ⟨body, rfl⟩ := SourceNode.exists_body_of_lower lowered
  refine ⟨?_, _, SourceNode.render_asStatements body⟩
  intro node member
  obtain ⟨source, _, inOutput⟩ := List.mem_flatMap.mp member
  exact SourceNode.isTopLevel_of_mem_asStatement inOutput

end SexprCalls
