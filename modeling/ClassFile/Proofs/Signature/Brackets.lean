import ClassFile.Proofs.Signature.BinaryText

/-!
# The brackets of a writer

A writer sets the angle brackets itself, and it takes its calls in any order:
arguments outside a class type, ends of what was never begun, formal
parameters behind a superclass. What it writes then need not be a signature.
But its brackets are still in order. It has never closed more of them than it
has opened, and how many are open it knows from its state: one for a list of
formal parameters, and one for each class type whose type arguments have
begun (`Writer.unclosed`).

Names and letters are written as they are told, and a bracket in a name would
count with the others. So it is assumed that the calls have none
(`Call.SparesBrackets`). That a call only adds to the text needs no such
assumption.
-/

namespace ClassFile.Signature

/-! ## Texts that leave brackets open

That a text closes no bracket too many has to be said of every prefix of it:
the numbers at its end do not tell in which order the brackets were set. -/

theorem Lacks.append {s t : String} {characters : List Char} (hs : Lacks s characters)
    (ht : Lacks t characters) : Lacks (s ++ t) characters := by
  unfold Lacks at hs ht ⊢
  rw [String.toList_append]
  exact List.forall_mem_append.mpr ⟨hs, ht⟩

/-- **A text leaves brackets open:** at no place in it more are closed than
were opened, and at its end there are so many left to close. -/
structure LeavesOpen (cs : List Char) (n : ℕ) : Prop where
  count_le : ∀ p, p <+: cs → p.count '>' ≤ p.count '<'
  count_eq : cs.count '<' = cs.count '>' + n

theorem leavesOpen_nil : LeavesOpen [] 0 where
  count_le p hp := by
    rw [List.prefix_nil.mp hp]
    exact Nat.le_refl _
  count_eq := rfl

variable {cs ds : List Char} {m n : ℕ}

/-- One character more opens or closes a bracket, or does neither. -/
theorem LeavesOpen.concat (h : LeavesOpen cs n) {c : Char}
    (hc : [c].count '<' + n = [c].count '>' + m) : LeavesOpen (cs ++ [c]) m := by
  have hcount := h.count_eq
  refine ⟨fun p hp => ?_, ?_⟩
  -- a prefix is the new text as a whole, or one of the old text
  · rcases List.prefix_concat_iff.mp hp with rfl | hp
    · rw [List.count_append, List.count_append]
      omega
    · exact h.count_le p hp
  · rw [List.count_append, List.count_append]
    omega

/-- What has no brackets opens and closes none. -/
theorem LeavesOpen.append (h : LeavesOpen cs n) (hds : ∀ c ∈ ds, c ∉ brackets) :
    LeavesOpen (cs ++ ds) n := by
  induction ds generalizing cs with
  | nil => rwa [List.append_nil]
  | cons d ds ih =>
    have hd : ∀ b ∈ brackets, [d].count b = 0 := by
      rintro b hb
      refine List.count_eq_zero_of_not_mem fun hbd => hds d List.mem_cons_self ?_
      rwa [List.mem_singleton.mp hbd] at hb
    have hconcat : LeavesOpen (cs ++ [d]) n := by
      refine h.concat ?_
      rw [hd '<' (by decide), hd '>' (by decide)]
    have hrest := ih hconcat fun c hc => hds c (List.mem_cons_of_mem d hc)
    rwa [List.append_assoc] at hrest

/-! ## Writers

Each thing that a writer does with brackets is done together with its state:
it opens one and notes that it is open, or it finds one noted and closes it.
What it writes besides has none. -/

/-- What a call is told to write: a name, a letter or a mark. -/
def Call.words : Call → String
  | .formalTypeParameter name | .typeVariable name | .classType name | .innerClassType name => name
  | .baseType c | .argument c => c.toString
  | .classBound | .interfaceBound | .superclass | .interface | .parameterType | .returnType
  | .exceptionType | .arrayType | .unboundedArgument | .close => ""

/-- A call has no angle brackets in what it is told to write. -/
def Call.SparesBrackets (c : Call) : Prop := Lacks c.words brackets

instance : DecidablePred Call.SparesBrackets :=
  fun c => inferInstanceAs (Decidable (Lacks c.words brackets))

namespace Writer

/-- **The brackets that a writer has not closed:** that of the formal parameters,
if they are open, and that of each class type whose type arguments have begun. -/
def unclosed (w : Writer) : ℕ := w.formalsOpen.toNat + w.argumentsOpen.count true

/-- **A writer is balanced** if its text leaves open what it has not closed. -/
def IsBalanced (w : Writer) : Prop := LeavesOpen w.text.toList w.unclosed

variable {w w' : Writer} {s : String}

theorem isBalanced_empty : empty.IsBalanced := leavesOpen_nil

theorem IsBalanced.put (h : w.IsBalanced) (hs : Lacks s brackets) : (w.put s).IsBalanced := by
  show LeavesOpen (w.text ++ s).toList w.unclosed
  rw [String.toList_append]
  exact h.append hs

/-- A bracket is set together with the flag that tells of it. -/
theorem IsBalanced.bracket (h : w.IsBalanced) {c : Char}
    (htext : w'.text.toList = w.text.toList ++ [c])
    (hcount : [c].count '<' + w.unclosed = [c].count '>' + w'.unclosed) : w'.IsBalanced := by
  unfold IsBalanced
  rw [htext]
  exact h.concat hcount

/-- The first formal parameter opens their list. -/
theorem IsBalanced.beginFormals (h : w.IsBalanced) :
    (if w.formalsOpen then w else { w.put "<" with formalsOpen := true }).IsBalanced := by
  split
  · exact h
  · next hopen =>
    refine h.bracket (c := '<') String.toList_append ?_
    show 1 + (w.formalsOpen.toNat + w.argumentsOpen.count true)
      = 0 + (1 + w.argumentsOpen.count true)
    rw [Bool.eq_false_iff.mpr hopen, Nat.zero_add]
    exact congrArg (1 + ·) (Nat.zero_add _)

theorem IsBalanced.endFormals (h : w.IsBalanced) : w.endFormals.IsBalanced := by
  unfold Writer.endFormals
  split
  · next hopen =>
    refine h.bracket (c := '>') String.toList_append ?_
    show 0 + (w.formalsOpen.toNat + w.argumentsOpen.count true)
      = 1 + (0 + w.argumentsOpen.count true)
    rw [hopen, Nat.zero_add, Nat.zero_add]
    rfl
  · exact h

theorem IsBalanced.beginArguments (h : w.IsBalanced) : w.beginArguments.IsBalanced := by
  unfold Writer.beginArguments
  split
  · next outer hopen =>
    refine h.bracket (c := '<') String.toList_append ?_
    show 1 + (w.formalsOpen.toNat + w.argumentsOpen.count true)
      = 0 + (w.formalsOpen.toNat + (true :: outer).count true)
    rw [hopen, List.count_cons_self, List.count_cons_of_ne Bool.false_ne_true]
    omega
  · exact h

/-- The type arguments of a class are closed if they have begun. -/
theorem IsBalanced.endArguments (h : w.IsBalanced) : w.endArguments.IsBalanced := by
  unfold Writer.endArguments
  split
  · next outer hopen =>
    refine h.bracket (c := '>') String.toList_append ?_
    show 0 + (w.formalsOpen.toNat + w.argumentsOpen.count true)
      = 1 + (w.formalsOpen.toNat + outer.count true)
    -- the class type that is left had its arguments open, and is not counted any more
    rw [hopen, List.count_cons_self]
    omega
  · next outer hopen =>
    unfold IsBalanced unclosed at h ⊢
    rwa [hopen, List.count_cons_of_ne Bool.false_ne_true] at h
  · exact h

/-- A class that is entered has no type arguments yet. -/
theorem IsBalanced.enterClass (h : w.IsBalanced) : w.enterClass.IsBalanced := by
  unfold IsBalanced unclosed
  show LeavesOpen w.text.toList (w.formalsOpen.toNat + (false :: w.argumentsOpen).count true)
  rw [List.count_cons_of_ne Bool.false_ne_true]
  exact h

/-- **A call keeps a writer balanced,** whatever was told before. There is one
case for each call, and all but those that set a bracket only add to the
text. -/
theorem IsBalanced.write (h : w.IsBalanced) {c : Call} (hc : c.SparesBrackets) :
    (w.write c).IsBalanced := by
  cases c with
  | formalTypeParameter name =>
    have hname : Lacks name brackets := hc
    exact h.beginFormals.put (hname.append (by decide))
  | classBound => exact h
  | interfaceBound => exact h.put (by decide)
  | superclass => exact h.endFormals
  | interface => exact h
  -- the first parameter type closes the formal parameters, if they are open
  | parameterType =>
    unfold Writer.write
    dsimp only
    split
    · exact h.endFormals
    · exact h.endFormals.put (s := "(") (by decide)
  | returnType =>
    unfold Writer.write
    dsimp only
    split
    · exact h.endFormals.put (by decide)
    · exact h.endFormals.put (by decide)
  | exceptionType => exact h.put (by decide)
  | baseType letter => exact h.put hc
  | typeVariable name =>
    have hmark : Lacks "T" brackets := by decide
    have hname : Lacks name brackets := hc
    exact h.put ((hmark.append hname).append (by decide))
  | arrayType => exact h.put (by decide)
  | classType name =>
    have hmark : Lacks "L" brackets := by decide
    exact (h.put (hmark.append hc)).enterClass
  | innerClassType name =>
    have hpoint : Lacks "." brackets := by decide
    exact (h.endArguments.put (hpoint.append hc)).enterClass
  | unboundedArgument => exact h.beginArguments.put (by decide)
  | argument variance =>
    unfold Writer.write
    dsimp only
    split
    · exact h.beginArguments
    · exact h.beginArguments.put hc
  | close => exact h.endArguments.put (by decide)

/-- **Calls in any order keep a writer balanced.** -/
theorem IsBalanced.writeAll (h : w.IsBalanced) {calls : List Call}
    (hcalls : ∀ c ∈ calls, c.SparesBrackets) : (w.writeAll calls).IsBalanced := by
  induction calls generalizing w with
  | nil => exact h
  | cons c cs ih =>
    rw [writeAll_cons]
    exact ih (h.write (hcalls c List.mem_cons_self)) fun d hd =>
      hcalls d (List.mem_cons_of_mem c hd)

/-! ## Texts only grow

This holds for names with brackets as well, since a writer never looks back at
what it has written. -/

theorem text_prefix_put (w : Writer) (s : String) : w.text.toList <+: (w.put s).text.toList := by
  show w.text.toList <+: (w.text ++ s).toList
  rw [String.toList_append]
  exact List.prefix_append _ _

theorem text_prefix_beginFormals (w : Writer) :
    w.text.toList
      <+: (if w.formalsOpen then w else { w.put "<" with formalsOpen := true }).text.toList := by
  split
  · exact List.prefix_rfl
  · exact w.text_prefix_put "<"

theorem text_prefix_endFormals (w : Writer) : w.text.toList <+: w.endFormals.text.toList := by
  unfold endFormals
  split
  · exact w.text_prefix_put ">"
  · exact List.prefix_rfl

theorem text_prefix_beginArguments (w : Writer) :
    w.text.toList <+: w.beginArguments.text.toList := by
  unfold beginArguments
  split
  · exact w.text_prefix_put "<"
  · exact List.prefix_rfl

theorem text_prefix_endArguments (w : Writer) :
    w.text.toList <+: w.endArguments.text.toList := by
  unfold endArguments
  split
  · exact w.text_prefix_put ">"
  · exact List.prefix_rfl
  · exact List.prefix_rfl

/-- **A call only adds to the text.** -/
theorem text_prefix_write (w : Writer) (c : Call) :
    w.text.toList <+: (w.write c).text.toList := by
  cases c with
  | formalTypeParameter name => exact w.text_prefix_beginFormals.trans (text_prefix_put _ _)
  | classBound | interface => exact List.prefix_rfl
  | superclass => exact w.text_prefix_endFormals
  | parameterType =>
    unfold write
    dsimp only
    split
    · exact w.text_prefix_endFormals
    · exact w.text_prefix_endFormals.trans (text_prefix_put _ "(")
  | returnType => exact w.text_prefix_endFormals.trans (text_prefix_put _ _)
  | interfaceBound | exceptionType | baseType | typeVariable | arrayType | classType =>
    exact text_prefix_put _ _
  | innerClassType name => exact w.text_prefix_endArguments.trans (text_prefix_put _ _)
  | unboundedArgument => exact w.text_prefix_beginArguments.trans (text_prefix_put _ _)
  | argument variance =>
    unfold write
    dsimp only
    split
    · exact w.text_prefix_beginArguments
    · exact w.text_prefix_beginArguments.trans (text_prefix_put _ _)
  | close => exact w.text_prefix_endArguments.trans (text_prefix_put _ _)

/-- Outside of class types there is nothing to leave. -/
theorem endArguments_of_nil (h : w.argumentsOpen = []) : w.endArguments = w := by
  unfold endArguments
  rw [h]

end Writer

/-! ## Any sequence of calls

The empty writer is balanced and each call keeps it so. Nothing is asked of
the order of the calls, and they need not come from a type. -/

/-- **The brackets of a writer are in order whatever it is told,** as long as the names
and letters have none. The next call only adds to the text; at no place more brackets
are closed than were opened; and those still to close are that of the formal
parameters, if they are open, and that of each class type whose type arguments have
begun. Where no class type is unfinished, the end of one and an inner class close no
bracket. -/
theorem brackets_in_any_order (calls : List Call) (h : ∀ c ∈ calls, c.SparesBrackets) :
    (∀ next, (textOf calls).toList <+: (textOf (calls ++ [next])).toList)
      ∧ (∀ p, p <+: (textOf calls).toList → p.count '>' ≤ p.count '<')
      ∧ (textOf calls).toList.count '<'
        = (textOf calls).toList.count '>' + (Writer.empty.writeAll calls).unclosed
      ∧ ((Writer.empty.writeAll calls).argumentsOpen = [] →
        textOf (calls ++ [.close]) = textOf calls ++ ";"
          ∧ ∀ name,
            textOf (calls ++ [.innerClassType name]) = textOf calls ++ ("." ++ name)) := by
  have hnext : ∀ next,
      textOf (calls ++ [next]) = ((Writer.empty.writeAll calls).write next).text := by
    intro next
    unfold textOf
    rw [Writer.writeAll_append]
    rfl
  have hbalanced := Writer.isBalanced_empty.writeAll h
  refine ⟨fun next => ?_, hbalanced.count_le, hbalanced.count_eq, fun hempty => ?_⟩
  · rw [hnext]
    exact Writer.text_prefix_write _ next
  · have hend := Writer.endArguments_of_nil hempty
    refine ⟨?_, fun name => ?_⟩
    · rw [hnext]
      exact congrArg (fun w : Writer => w.text ++ ";") hend
    · rw [hnext]
      exact congrArg (fun w : Writer => w.text ++ ("." ++ name)) hend

/-- An end of nothing, an argument of nothing, an inner class of nothing with an argument, and
behind it formal parameters that are never closed: two brackets are open. -/
theorem brackets_in_any_order_unfinished :
    let calls : List Call :=
      [.close, .unboundedArgument, .innerClassType "C", .argument '+', .formalTypeParameter "T"]
    (∀ c ∈ calls, c.SparesBrackets)
      ∧ textOf calls = ";*.C<+<T:"
      ∧ (Writer.empty.writeAll calls).unclosed = 2
      ∧ (textOf calls).toList.count '<' = (textOf calls).toList.count '>' + 2 := by
  intro calls
  have hcalls : ∀ c ∈ calls, c.SparesBrackets := by decide
  obtain ⟨-, -, hcount, -⟩ := brackets_in_any_order calls hcalls
  have hunclosed : (Writer.empty.writeAll calls).unclosed = 2 := by decide
  rw [hunclosed] at hcount
  exact ⟨hcalls, by decide, hunclosed, hcount⟩

end ClassFile.Signature
