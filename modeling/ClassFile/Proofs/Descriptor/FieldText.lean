import ClassFile.Descriptor.Reader
import Mathlib.Data.List.TakeWhile

/-!
# Field descriptors are read as they are written

A text is read as a field descriptor exactly if it is the text of that
descriptor and the class in it, if there is one, has a name that a descriptor can
hold: one that is not empty and has no semicolon. A name that breaks this rule
can be written, but what is read back is something else or nothing.

Two readers have to agree on that. The one that hands back what is left over
takes the text of a descriptor off the front of whatever follows it
(`FieldDescriptor.scan_eq_some_iff`), so no text of a descriptor is the beginning
of another one (`FieldDescriptor.text_append_inj`). The one that reads a whole
text reads what the other one leaves nothing over of
(`FieldDescriptor.readChars?_eq_some_iff_scan`).
-/

namespace ClassFile

/-! ## Names of classes in descriptors -/

/-- **A name that a class can have in a descriptor.** The first semicolon ends
it. -/
def IsClassName (name : String) : Prop := name ≠ "" ∧ ';' ∉ name.toList

instance : DecidablePred IsClassName := fun _ => inferInstanceAs (Decidable (_ ∧ _))

/-- A name has a first character. -/
theorem exists_toList_eq_cons {name : String} (h : IsClassName name) :
    ∃ c cs, name.toList = c :: cs :=
  List.exists_cons_of_ne_nil fun hnil => h.1 (String.toList_injective hnil)

/-- Some characters without a semicolon are a name. -/
theorem isClassName_ofList_cons {c : Char} {cs : List Char} (h : ';' ∉ c :: cs) :
    IsClassName (String.ofList (c :: cs)) := by
  refine ⟨fun hempty => ?_, by rwa [String.toList_ofList]⟩
  have hlist := congrArg String.toList hempty
  rw [String.toList_ofList] at hlist
  cases hlist

/-- A field descriptor in which the class, if there is one, has such a name. -/
def FieldDescriptor.IsWellNamed : FieldDescriptor → Prop
  | base _ => True
  | object name => IsClassName name
  | array c => c.IsWellNamed

instance FieldDescriptor.decidableIsWellNamed : DecidablePred FieldDescriptor.IsWellNamed
  | base _ => inferInstanceAs (Decidable True)
  | object name => inferInstanceAs (Decidable (IsClassName name))
  | array c => decidableIsWellNamed c

/-- A return descriptor in which the class, if there is one, has such a name. -/
def ReturnDescriptor.IsWellNamed : ReturnDescriptor → Prop
  | value t => t.IsWellNamed
  | void => True

instance : DecidablePred ReturnDescriptor.IsWellNamed
  | .value t => inferInstanceAs (Decidable t.IsWellNamed)
  | .void => inferInstanceAs (Decidable True)

/-- The first semicolon tells a name from what follows it. -/
theorem splitsAtSemicolon {name : List Char} (h : ';' ∉ name) (rest : List Char) :
    (name ++ ';' :: rest).takeWhile (· != ';') = name
      ∧ (name ++ ';' :: rest).dropWhile (· != ';') = ';' :: rest := by
  have hname : ∀ c ∈ name, (c != ';') = true := fun c hc =>
    bne_iff_ne.mpr fun heq => h (heq ▸ hc)
  rw [List.takeWhile_append_of_pos hname, List.dropWhile_append_of_pos hname]
  exact ⟨List.append_nil name, rfl⟩

/-- What is split is put together again. -/
theorem eq_of_splitsAtSemicolon {cs name rest : List Char} {c : Char}
    (hname : cs.takeWhile (· != ';') = name) (hrest : cs.dropWhile (· != ';') = c :: rest) :
    ';' ∉ name ∧ cs = name ++ ';' :: rest := by
  have hc := List.head?_dropWhile_not (· != ';') cs
  rw [hrest] at hc
  obtain rfl : c = ';' := by simpa using hc
  refine ⟨fun hmem => ?_, ?_⟩
  · have hsemicolon := List.mem_takeWhile_imp (hname ▸ hmem)
    exact absurd rfl (bne_iff_ne.mp hsemicolon)
  · rw [← hname, ← hrest, List.takeWhile_append_dropWhile]

namespace FieldDescriptor

/-! ## The characters of a text

Readers go through characters and not through strings, so the text of a
descriptor is taken apart into the characters that its constructor writes. -/

theorem toList_text_base (p : Primitive) : (base p).text.toList = [p.letter] := by
  show (String.singleton p.letter).toList = _
  rw [String.toList_singleton]

theorem toList_text_object (name : String) :
    (object name).text.toList = 'L' :: (name.toList ++ [';']) := by
  show ("L" ++ name ++ ";").toList = _
  rw [String.toList_append, String.toList_append]
  rfl

theorem toList_text_array (c : FieldDescriptor) :
    (array c).text.toList = '[' :: c.text.toList := by
  show ("[" ++ c.text).toList = _
  rw [String.toList_append]
  rfl

/-! ## Reading from the front of a text

One direction is proved along the descriptor and the other along the recursion
of the reader. Both leave open what follows, so that the equivalence can be
used again in the middle of a text, where a list of descriptors is read. -/

theorem scan_letter (p : Primitive) (rest : List Char) :
    scan (p.letter :: rest) = some (base p, rest) := by
  cases p <;> rfl

/-- **The text of a descriptor is taken off the front,** whatever follows it,
by induction on the descriptor. A name has no semicolon in it, so the first
one there is ends it. -/
theorem scan_text_append {d : FieldDescriptor} (h : d.IsWellNamed) (rest : List Char) :
    scan (d.text.toList ++ rest) = some (d, rest) := by
  induction d with
  | base p =>
    rw [toList_text_base]
    exact scan_letter p rest
  | object name =>
    -- the name is what stands in front of the first semicolon, and it is not empty
    obtain ⟨htake, hdrop⟩ := splitsAtSemicolon h.2 rest
    obtain ⟨c, cs, hcs⟩ := exists_toList_eq_cons h
    rw [toList_text_object, List.cons_append, List.append_assoc, List.singleton_append, scan,
      htake, hdrop, hcs]
    show some (object (String.ofList (c :: cs)), rest) = _
    rw [← hcs, String.ofList_toList]
  | array c ih =>
    rw [toList_text_array, List.cons_append, scan, ih h]
    rfl

/-- **What is taken off the front is the text of the descriptor,** and its
classes have names that can be read. By induction on what the reader does. -/
theorem text_append_of_scan {cs rest : List Char} {d : FieldDescriptor}
    (h : scan cs = some (d, rest)) : d.text.toList ++ rest = cs ∧ d.IsWellNamed := by
  fun_induction scan cs generalizing d with
  | case1 => cases h
  | case2 cs ih =>
    obtain ⟨⟨c, r⟩, hc, he⟩ := Option.map_eq_some_iff.1 h
    cases he
    obtain ⟨htext, hname⟩ := ih hc
    exact ⟨by rw [toList_text_array, List.cons_append, htext], hname⟩
  | case3 cs c name _ _ hdrop htake =>
    cases h
    obtain ⟨hfree, rfl⟩ := eq_of_splitsAtSemicolon htake hdrop
    refine ⟨?_, isClassName_ofList_cons hfree⟩
    rw [toList_text_object, String.toList_ofList, List.cons_append, List.append_assoc]
    rfl
  | case4 => cases h
  | case5 c cs =>
    obtain ⟨p, hp, he⟩ := Option.map_eq_some_iff.1 h
    cases he
    exact ⟨by rw [toList_text_base, Primitive.letter_of_ofLetter? hp]; rfl, trivial⟩

/-- **One descriptor at the front of a text:** what is read is what is written
there. -/
theorem scan_eq_some_iff {cs rest : List Char} {d : FieldDescriptor} :
    scan cs = some (d, rest) ↔ d.text.toList ++ rest = cs ∧ d.IsWellNamed :=
  ⟨text_append_of_scan, fun ⟨htext, hname⟩ => htext ▸ scan_text_append hname rest⟩

/-- **No text of a descriptor is the beginning of another one.** Both can be
taken off the front of the same characters, and what is taken off is one
thing. -/
theorem text_append_inj {d e : FieldDescriptor} (hd : d.IsWellNamed) (he : e.IsWellNamed)
    {rest rest' : List Char} (h : d.text.toList ++ rest = e.text.toList ++ rest') :
    d = e ∧ rest = rest' := by
  have hscan := scan_text_append hd rest
  rw [h, scan_text_append he rest'] at hscan
  cases hscan
  exact ⟨rfl, rfl⟩

/-! ## Reading a whole text

The second reader wants the whole text: a class ends where the text does, and
a letter is all there is. It is another recursion, and that it reads what the
first one reads without leaving anything over is shown by comparing both with
what they read. -/

theorem readChars?_letter (p : Primitive) : readChars? [p.letter] = some (base p) := by
  cases p <;> rfl

/-- **The text of a descriptor is read as the descriptor.** -/
theorem readChars?_text {d : FieldDescriptor} (h : d.IsWellNamed) :
    readChars? d.text.toList = some d := by
  induction d with
  | base p =>
    rw [toList_text_base]
    exact readChars?_letter p
  | object name =>
    obtain ⟨htake, hdrop⟩ := splitsAtSemicolon h.2 []
    obtain ⟨c, cs, hcs⟩ := exists_toList_eq_cons h
    rw [toList_text_object, readChars?, htake, hdrop, hcs]
    show some (object (String.ofList (c :: cs))) = _
    rw [← hcs, String.ofList_toList]
  | array c ih =>
    rw [toList_text_array, readChars?, ih h]
    rfl

/-- **What is read is the descriptor of which the text is the text.** -/
theorem text_of_readChars? {cs : List Char} {d : FieldDescriptor} (h : readChars? cs = some d) :
    d.text.toList = cs ∧ d.IsWellNamed := by
  fun_induction readChars? cs generalizing d with
  | case1 cs ih =>
    obtain ⟨c, hc, rfl⟩ := Option.map_eq_some_iff.1 h
    obtain ⟨htext, hname⟩ := ih hc
    exact ⟨by rw [toList_text_array, htext], hname⟩
  | case2 cs c name _ hdrop htake =>
    cases h
    obtain ⟨hfree, rfl⟩ := eq_of_splitsAtSemicolon htake hdrop
    exact ⟨by rw [toList_text_object, String.toList_ofList], isClassName_ofList_cons hfree⟩
  | case3 => cases h
  | case4 c =>
    obtain ⟨p, hp, rfl⟩ := Option.map_eq_some_iff.1 h
    exact ⟨by rw [toList_text_base, Primitive.letter_of_ofLetter? hp], trivial⟩
  | case5 => cases h

/-- **A whole text is read as what is written in it.** -/
theorem readChars?_eq_some_iff {cs : List Char} {d : FieldDescriptor} :
    readChars? cs = some d ↔ d.text.toList = cs ∧ d.IsWellNamed :=
  ⟨text_of_readChars?, fun ⟨htext, hname⟩ => htext ▸ readChars?_text hname⟩

/-- **The two readers agree:** a whole text is read as what leaves nothing
over. -/
theorem readChars?_eq_some_iff_scan {cs : List Char} {d : FieldDescriptor} :
    readChars? cs = some d ↔ scan cs = some (d, []) := by
  rw [readChars?_eq_some_iff, scan_eq_some_iff, List.append_nil]

/-! ## How a text begins, and arrays

Two letters never stand at the front of a field descriptor, and both are
needed to tell where one ends: that for nothing, which methods may return, and
the parenthesis that ends a list of parameters. -/

/-- No text of a descriptor begins with the letter for none or with a
parenthesis. -/
theorem exists_toList_text (d : FieldDescriptor) :
    ∃ c cs, d.text.toList = c :: cs ∧ c ≠ voidLetter ∧ c ≠ ')' := by
  cases d with
  | base p =>
    refine ⟨_, _, toList_text_base p, ?_⟩
    cases p <;> decide
  | object name => exact ⟨_, _, toList_text_object name, by decide, by decide⟩
  | array c => exact ⟨_, _, toList_text_array c, by decide, by decide⟩

theorem text_append_ne_void (d : FieldDescriptor) (rest cs : List Char) :
    d.text.toList ++ rest ≠ voidLetter :: cs := by
  obtain ⟨c, _, hc, hvoid, _⟩ := d.exists_toList_text
  rw [hc]
  exact fun h => hvoid (List.cons.inj h).1

end FieldDescriptor

/-- The brackets in front of the element of an array. -/
def arrayBrackets (layers : Nat) : String := String.join (List.replicate layers "[")

theorem arrayBrackets_succ_append (n : Nat) (s : String) :
    arrayBrackets (n + 1) ++ s = "[" ++ (arrayBrackets n ++ s) := by
  unfold arrayBrackets
  rw [List.replicate_succ, String.join_cons, String.append_assoc]

namespace FieldDescriptor

/-- An array type is written behind a bracket for each of its layers. -/
theorem text_arrays (element : FieldDescriptor) (n : Nat) :
    (element.arrays n).text = arrayBrackets n ++ element.text := by
  induction n with
  | zero => exact String.empty_append.symm
  | succ n ih =>
    rw [arrayBrackets_succ_append, ← ih]
    rfl

theorem isWellNamed_arrays {element : FieldDescriptor} (h : element.IsWellNamed) (n : Nat) :
    (element.arrays n).IsWellNamed := by
  induction n with
  | zero => exact h
  | succ n ih => exact ih

/-- **There are no arrays of nothing.** Behind the brackets the reader of
fields finds a letter that is not one of a primitive type. -/
theorem readChars?_brackets_void (n : Nat) : readChars? (arrayBrackets n ++ "V").toList = none := by
  induction n with
  | zero => rfl
  | succ n ih =>
    rw [arrayBrackets_succ_append, String.toList_append]
    show readChars? ('[' :: (arrayBrackets n ++ "V").toList) = none
    rw [readChars?, ih]
    rfl

end FieldDescriptor

/-! ## Texts of fields and of what methods return -/

section

variable {α : Type} {read? : Option α}

theorem requireDescriptor_eq_ok_iff {a : α} : requireDescriptor read? = .ok a ↔ read? = some a := by
  cases read? with
  | none => exact ⟨nofun, nofun⟩
  | some b =>
    exact ⟨fun h => congrArg some (Except.ok.inj h), fun h => congrArg _ (Option.some.inj h)⟩

/-- Where nothing is read there is one error. -/
theorem requireDescriptor_of_ne (h : ∀ a, requireDescriptor read? ≠ .ok a) :
    requireDescriptor read? = .error .invalidDescriptor := by
  cases read? with
  | none => rfl
  | some a => exact absurd rfl (h a)

end

namespace FieldDescriptor

/-- **Reading is the inverse of writing.** -/
theorem read_eq_ok_iff {s : String} {d : FieldDescriptor} :
    read s = .ok d ↔ d.text = s ∧ d.IsWellNamed := by
  unfold read
  rw [requireDescriptor_eq_ok_iff, readChars?_eq_some_iff, String.toList_inj]

end FieldDescriptor

namespace ReturnDescriptor

theorem toList_text_void : void.text.toList = [voidLetter] := by
  show (String.singleton voidLetter).toList = _
  rw [String.toList_singleton]

theorem text_value (t : FieldDescriptor) : (value t).text = t.text := rfl

/-- **What a method returns is read as it is written.** The letter for none is
the text of no field. -/
theorem readChars?_eq_some_iff {cs : List Char} {r : ReturnDescriptor} :
    readChars? cs = some r ↔ r.text.toList = cs ∧ r.IsWellNamed := by
  unfold readChars?
  split
  · -- the letter for nothing is read as nothing, and no field is written so
    next hvoid =>
    subst hvoid
    cases r with
    | void => exact iff_of_true rfl ⟨toList_text_void, trivial⟩
    | value t =>
      refine iff_of_false nofun fun ⟨htext, _⟩ => t.text_append_ne_void [] [] ?_
      rw [List.append_nil, ← text_value, htext]
  · next hvoid =>
    cases r with
    | void =>
      refine iff_of_false (by simp) fun ⟨htext, _⟩ => hvoid ?_
      rw [← htext, toList_text_void]
    | value t =>
      rw [Option.map_eq_some_iff]
      simp only [value.injEq, exists_eq_right]
      exact FieldDescriptor.readChars?_eq_some_iff

/-- **Reading is the inverse of writing.** -/
theorem read_eq_ok_iff {s : String} {r : ReturnDescriptor} :
    read s = .ok r ↔ r.text = s ∧ r.IsWellNamed := by
  unfold read
  rw [requireDescriptor_eq_ok_iff, readChars?_eq_some_iff, String.toList_inj]

/-- **Nothing can follow** what a method returns: neither nothing nor a field
is the beginning of something else that may be returned. -/
theorem eq_nil_of_text_append {r e : ReturnDescriptor} (hr : r.IsWellNamed) (he : e.IsWellNamed)
    {rest : List Char} (h : r.text.toList ++ rest = e.text.toList) : rest = [] := by
  cases r with
  | void =>
    cases e with
    | void => exact List.self_eq_append_right.mp h.symm
    | value t =>
      rw [toList_text_void, text_value, List.singleton_append, ← List.append_nil t.text.toList] at h
      exact absurd h.symm (t.text_append_ne_void [] rest)
  | value d =>
    cases e with
    | void =>
      rw [toList_text_void, text_value] at h
      exact absurd h (d.text_append_ne_void rest [])
    | value t => exact (FieldDescriptor.text_append_inj hr he (h.trans (List.append_nil _).symm)).2

end ReturnDescriptor

/-! ## Reading and writing -/

/-- **Texts of fields and of what methods return are read exactly as they are
written.** A text is read as a descriptor if it is the text of the descriptor
and the class in it, if there is one, has a name that is not empty and has no
semicolon, and only then. So there are no arrays of nothing, nothing may be left
over behind a text that is read, and arrays keep all of their layers. -/
theorem fieldText_read_exactly :
    (∀ (s : String) (d : FieldDescriptor),
        FieldDescriptor.read s = .ok d ↔ d.text = s ∧ d.IsWellNamed)
      ∧ (∀ (s : String) (r : ReturnDescriptor),
        ReturnDescriptor.read s = .ok r ↔ r.text = s ∧ r.IsWellNamed)
      ∧ (∀ n, FieldDescriptor.read (arrayBrackets n ++ "V") = .error .invalidDescriptor
        ∧ ReturnDescriptor.read (arrayBrackets (n + 1) ++ "V") = .error .invalidDescriptor)
      ∧ (∀ (s rest : String) (d : FieldDescriptor), FieldDescriptor.read s = .ok d → rest ≠ "" →
        FieldDescriptor.read (s ++ rest) = .error .invalidDescriptor)
      ∧ (∀ (s rest : String) (r : ReturnDescriptor), ReturnDescriptor.read s = .ok r →
        rest ≠ "" → ReturnDescriptor.read (s ++ rest) = .error .invalidDescriptor)
      ∧ ∀ (n : Nat) (element : FieldDescriptor), element.IsWellNamed →
        FieldDescriptor.read (arrayBrackets n ++ element.text) = .ok (element.arrays n)
          ∧ ReturnDescriptor.read (arrayBrackets n ++ element.text)
            = .ok (.value (element.arrays n)) := by
  refine ⟨fun _ _ => FieldDescriptor.read_eq_ok_iff, fun _ _ => ReturnDescriptor.read_eq_ok_iff,
    fun n => ⟨?_, ?_⟩, fun s rest d hd hrest => ?_, fun s rest r hr hrest => ?_,
    fun n element helement => ⟨?_, ?_⟩⟩
  · unfold FieldDescriptor.read
    rw [FieldDescriptor.readChars?_brackets_void]
    rfl
  · -- what begins with a bracket is not the letter for nothing
    have hlist : (arrayBrackets (n + 1) ++ "V").toList ≠ [voidLetter] := by
      rw [arrayBrackets_succ_append, String.toList_append]
      exact fun h => absurd (List.cons.inj h).1 (by decide)
    unfold ReturnDescriptor.read ReturnDescriptor.readChars?
    rw [if_neg hlist, FieldDescriptor.readChars?_brackets_void]
    rfl
  · refine requireDescriptor_of_ne fun e he => hrest ?_
    obtain ⟨rfl, hname⟩ := FieldDescriptor.read_eq_ok_iff.mp hd
    obtain ⟨htext, hname'⟩ := FieldDescriptor.read_eq_ok_iff.mp he
    -- if the longer text could be read, both descriptors would be at its front
    have hlist : e.text.toList ++ [] = d.text.toList ++ rest.toList := by
      rw [htext, String.toList_append, List.append_nil]
    exact String.toList_injective (FieldDescriptor.text_append_inj hname' hname hlist).2.symm
  · refine requireDescriptor_of_ne fun e he => hrest ?_
    obtain ⟨rfl, hname⟩ := ReturnDescriptor.read_eq_ok_iff.mp hr
    obtain ⟨htext, hname'⟩ := ReturnDescriptor.read_eq_ok_iff.mp he
    refine String.toList_injective (ReturnDescriptor.eq_nil_of_text_append hname hname' ?_)
    rw [htext, String.toList_append]
  · exact FieldDescriptor.read_eq_ok_iff.mpr
      ⟨element.text_arrays n, FieldDescriptor.isWellNamed_arrays helement n⟩
  · exact ReturnDescriptor.read_eq_ok_iff.mpr
      ⟨element.text_arrays n, FieldDescriptor.isWellNamed_arrays helement n⟩

/-- Two layers around a class with brackets and a parenthesis in its name, with
and without something behind it, and a class with an empty name. -/
theorem fieldText_read_exactly_brackets :
    let element : FieldDescriptor := .object "a/[)B"
    let unnamed : FieldDescriptor := .array (.object "")
    element.IsWellNamed
      ∧ FieldDescriptor.read "[[La/[)B;" = .ok (.array (.array element))
      ∧ ReturnDescriptor.read "[[La/[)B;" = .ok (.value (.array (.array element)))
      ∧ FieldDescriptor.read "[[La/[)B;I" = .error .invalidDescriptor
      ∧ ReturnDescriptor.read "[[La/[)B;I" = .error .invalidDescriptor
      ∧ FieldDescriptor.read unnamed.text ≠ .ok unnamed := by
  intro element unnamed
  obtain ⟨hfield, -, -, hrest, hrest', harrays⟩ := fieldText_read_exactly
  have hname : element.IsWellNamed := by decide
  obtain ⟨hread, hread'⟩ := harrays 2 element hname
  refine ⟨hname, hread, hread', hrest _ "I" _ hread (by decide), hrest' _ "I" _ hread' (by decide),
    fun h => ?_⟩
  obtain ⟨_, hempty⟩ := (hfield _ _).mp h
  exact hempty.1 rfl

end ClassFile
