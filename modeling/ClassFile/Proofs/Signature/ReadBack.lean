import ClassFile.Proofs.Signature.Reader

/-!
# Signatures of types are read back

The reader finds a tree in the text of the tree, whatever follows it, as long
as the names in the tree are clean (`TypeTree.reads`).
-/

namespace ClassFile.Signature

variable {α β : Type} {m n : Nat}

/-! ## Clean trees

The recursion is that of the trees. Whether a name is a path or an identifier
depends on whether the class is inside another one, so that is handed down to
the segments. -/

mutual

/-- **A type whose names are clean.** -/
def TypeTree.IsClean : TypeTree → Prop
  | .base _ => True
  | .reference r => r.IsClean

/-- A reference type whose names are clean. -/
def ReferenceTree.IsClean : ReferenceTree → Prop
  | .typeVariable name => IsName true name.toList
  | .array c => c.IsClean
  | .declared head inner => head.IsClean false ∧ Segment.AllClean inner

/-- A segment with a clean name and clean type arguments. -/
def Segment.IsClean (inside : Bool) : Segment → Prop
  | ⟨name, arguments⟩ => IsName inside name.toList ∧ ArgumentTree.AllClean arguments

/-- Clean segments inside a class. -/
def Segment.AllClean : List Segment → Prop
  | [] => True
  | s :: ss => s.IsClean true ∧ Segment.AllClean ss

/-- A clean type argument. -/
def ArgumentTree.IsClean : ArgumentTree → Prop
  | .any => True
  | .exactly r | .subtypeOf r | .supertypeOf r => r.IsClean

/-- Clean type arguments. -/
def ArgumentTree.AllClean : List ArgumentTree → Prop
  | [] => True
  | a :: as => a.IsClean ∧ ArgumentTree.AllClean as

end

/-! ## What a reader finds

A reader is asked for what it finds in a text with something behind it. The
proof that the rest is shorter is part of the result and is left open in
`Reads`. -/

/-- **A reader finds a value** and leaves a rest. -/
def Reads (x : Option (Reading α n)) (a : α) (rest : List Char) : Prop :=
  ∃ h, x = some ⟨a, rest, h⟩

variable {x : Option (Reading α m)} {a : α} {b : β} {rest rest' : List Char}

theorem Reads.bind {f : Reading α m → Option (Reading β n)} (hx : Reads x a rest)
    (hf : ∀ h, Reads (f ⟨a, rest, h⟩) b rest') : Reads (x >>= f) b rest' := by
  obtain ⟨h, rfl⟩ := hx
  exact hf h

theorem Reads.map (hx : Reads x a rest) (f : α → β) : Reads (x.map (·.map f)) (f a) rest := by
  obtain ⟨h, rfl⟩ := hx
  exact ⟨h, rfl⟩

/-- A reading that leaves nothing is one of the whole text. -/
theorem Reads.whole? (hx : Reads x a []) : whole? x = some a := by
  obtain ⟨h, rfl⟩ := hx
  rfl

@[simp] theorem readCharacter_cons_self (c : Char) (cs : List Char) :
    readCharacter c (c :: cs) = some ⟨(), cs, Nat.lt_succ_self _⟩ := if_pos rfl

theorem readCharacter_cons_of_ne {c d : Char} (h : d ≠ c) (cs : List Char) :
    readCharacter c (d :: cs) = none := if_neg h

/-! ## Names

A name ends where no character of a name follows. It is read with `takeWhile`,
so both the characters of the name and the one behind it matter. -/

/-- No character of a name follows. -/
def EndsName (rest : List Char) : Prop := ∀ c ∈ rest.head?, isNameCharacter c = false

theorem endsName_cons {c : Char} (h : isNameCharacter c = false) (cs : List Char) :
    EndsName (c :: cs) := by
  intro d hd
  rwa [← Option.some.inj hd]

/-- Names consist of their characters. -/
theorem IsName.all {inside : Bool} {cs : List Char} (h : IsName inside cs) :
    ∀ c ∈ cs, isNameCharacter c = true := by
  have hfree : ∀ c : Char, c ∉ reserved → isNameCharacter c = true := by
    intro c hc
    unfold isNameCharacter
    simp [hc]
  intro c hc
  cases inside with
  | true => exact hfree c (And.right h c hc)
  | false =>
    rcases IsPath.eq_or_notMem h hc with rfl | hc
    · rfl
    · exact hfree c hc

/-- **A name is read to its end.** -/
theorem reads_name {inside : Bool} {name : String} (h : IsName inside name.toList)
    (hr : EndsName rest) : Reads (readName inside (name.toList ++ rest)) name rest := by
  -- nothing of what follows is taken
  have htake : rest.takeWhile isNameCharacter = [] := by
    cases rest with
    | nil => rfl
    | cons c cs => rw [List.takeWhile_cons, hr c rfl]; rfl
  have hdrop : rest.dropWhile isNameCharacter = rest := by
    cases rest with
    | nil => rfl
    | cons c cs => rw [List.dropWhile_cons, hr c rfl]; rfl
  have hname : (name.toList ++ rest).takeWhile isNameCharacter = name.toList := by
    rw [List.takeWhile_append_of_pos h.all, htake, List.append_nil]
  have hrest : (name.toList ++ rest).dropWhile isNameCharacter = rest := by
    rw [List.dropWhile_append_of_pos h.all, hdrop]
  refine ⟨?_, ?_⟩
  · rw [List.length_append]
    have := List.length_pos_iff.mpr h.ne_nil
    omega
  · unfold readName
    simp only [hname, hrest, h, dif_pos, String.ofList_toList]

/-! ## The characters of a text

What decides between the rules is the first character of a text. Here it is
made visible, for each of the constructors. -/

@[simp] theorem TypeTree.toList_text_base (b : Primitive) :
    (base b).text.toList = [b.letter] := by
  cases b <;> rfl

@[simp] theorem ReferenceTree.toList_text_typeVariable (name : String) :
    (typeVariable name).text.toList = 'T' :: (name.toList ++ [';']) := by
  rw [text, String.toList_append, String.toList_append]
  rfl

@[simp] theorem ReferenceTree.toList_text_array (c : TypeTree) :
    (array c).text.toList = '[' :: c.text.toList := by
  rw [text, String.toList_append]
  rfl

@[simp] theorem ReferenceTree.toList_text_declared (head : Segment) (inner : List Segment) :
    (declared head inner).text.toList
      = 'L' :: (head.text.toList ++ (Segment.innerText inner).toList ++ [';']) := by
  rw [text, String.toList_append, String.toList_append, String.toList_append]
  rfl

@[simp] theorem Segment.toList_innerText_cons (s : Segment) (ss : List Segment) :
    (innerText (s :: ss)).toList = '.' :: (s.text.toList ++ (innerText ss).toList) := by
  rw [innerText, String.toList_append, String.toList_append]
  rfl

@[simp] theorem ArgumentTree.toList_text_subtypeOf (r : ReferenceTree) :
    (subtypeOf r).text.toList = '+' :: r.text.toList := by
  rw [text, String.toList_append]
  rfl

@[simp] theorem ArgumentTree.toList_text_supertypeOf (r : ReferenceTree) :
    (supertypeOf r).text.toList = '-' :: r.text.toList := by
  rw [text, String.toList_append]
  rfl

theorem toList_angled_cons (s : String) (texts : List String) :
    (angled (s :: texts)).toList = '<' :: ((String.join (s :: texts)).toList ++ ['>']) := by
  show ("<" ++ String.join (s :: texts) ++ ">").toList = _
  rw [String.toList_append, String.toList_append]
  rfl

theorem ReferenceTree.text_begins (r : ReferenceTree) :
    ∃ c ∈ ['T', '[', 'L'], ∃ cs, r.text.toList = c :: cs := by
  cases r with
  | typeVariable name => exact ⟨'T', by decide, _, toList_text_typeVariable name⟩
  | array c => exact ⟨'[', by decide, _, toList_text_array c⟩
  | declared head inner => exact ⟨'L', by decide, _, toList_text_declared head inner⟩

/-- A type argument begins with a mark of its own or as a reference type does.
None of these is a closing bracket. -/
theorem ArgumentTree.text_begins (a : ArgumentTree) :
    ∃ c ∈ ['*', '+', '-', 'T', '[', 'L'], ∃ cs, a.text.toList = c :: cs := by
  cases a with
  | any => exact ⟨'*', by decide, [], rfl⟩
  | exactly r =>
    obtain ⟨c, hc, cs, h⟩ := r.text_begins
    exact ⟨c, List.mem_append_right ['*', '+', '-'] hc, cs, h⟩
  | subtypeOf r => exact ⟨'+', by decide, _, toList_text_subtypeOf r⟩
  | supertypeOf r => exact ⟨'-', by decide, _, toList_text_supertypeOf r⟩

/-- What can stand behind a segment. -/
def EndsSegment (rest : List Char) : Prop := ∃ c ∈ ['.', ';'], ∃ cs, rest = c :: cs

theorem endsSegment_innerText (ss : List Segment) (rest : List Char) :
    EndsSegment ((Segment.innerText ss).toList ++ ';' :: rest) := by
  cases ss with
  | nil => exact ⟨';', by decide, rest, rfl⟩
  | cons s ss =>
    rw [Segment.toList_innerText_cons]
    exact ⟨'.', by decide, _, rfl⟩

/-! ## Types

The text of a tree is put together as the rules say, so each reader takes off
what its rule has put in front and leaves the rest to the readers of the
parts. -/

mutual

/-- **A type is read back from its text,** whatever follows. -/
theorem TypeTree.reads : ∀ t : TypeTree, t.IsClean → ∀ rest,
    Reads (readType (t.text.toList ++ rest)) t rest
  | .base b, _, rest => by
    rw [TypeTree.toList_text_base, List.singleton_append, readType]
    cases b <;> exact ⟨_, rfl⟩
  | .reference r, h, rest => r.reads h rest

/-- A reference type is read back from its text. -/
theorem ReferenceTree.reads : ∀ r : ReferenceTree, r.IsClean → ∀ rest,
    Reads (readType (r.text.toList ++ rest)) (.reference r) rest
  | .typeVariable name, h, rest => by
    rw [ReferenceTree.toList_text_typeVariable, List.cons_append, List.append_assoc, readType,
      if_neg (by decide), if_pos rfl]
    refine (reads_name h (endsName_cons (by decide) rest)).bind fun _ => ?_
    exact ⟨_, rfl⟩
  | .array c, h, rest => by
    rw [ReferenceTree.toList_text_array, List.cons_append, readType, if_pos rfl]
    exact (c.reads h rest).bind fun _ => ⟨_, rfl⟩
  | .declared head inner, h, rest => by
    rw [ReferenceTree.toList_text_declared, List.cons_append, List.append_assoc,
      List.append_assoc, readType, if_neg (by decide), if_neg (by decide), if_pos rfl]
    refine (head.reads false h.1 _ (endsSegment_innerText inner rest)).bind fun _ => ?_
    exact (Segment.reads_inner inner h.2 rest).bind fun _ => ⟨_, rfl⟩

/-- A segment is read back from its text. -/
theorem Segment.reads (inside : Bool) : ∀ s : Segment, s.IsClean inside → ∀ rest,
    EndsSegment rest → Reads (readSegment inside (s.text.toList ++ rest)) s rest
  | ⟨name, arguments⟩, h, rest, hr => by
    rw [Segment.text, String.toList_append, List.append_assoc, readSegment]
    cases arguments with
    | nil =>
      obtain ⟨c, hc, cs, rfl⟩ := hr
      have hends : ∀ c ∈ ['.', ';'], isNameCharacter c = false ∧ c ≠ '<' := by
        simp [isNameCharacter, reserved]
      refine (reads_name h.1 (endsName_cons (hends c hc).1 cs)).bind fun _ => ?_
      dsimp only
      rw [readCharacter_cons_of_ne (hends c hc).2]
      exact ⟨_, rfl⟩
    | cons a as =>
      rw [ArgumentTree.texts, toList_angled_cons, List.cons_append, List.append_assoc]
      refine (reads_name h.1 (endsName_cons (by decide) _)).bind fun _ => ?_
      dsimp only
      rw [readCharacter_cons_self]
      have harguments := ArgumentTree.reads_all (a :: as) (List.cons_ne_nil a as) h.2 rest
      exact harguments.bind fun _ => ⟨_, rfl⟩

/-- The classes inside a class are read back to the end of the type. -/
theorem Segment.reads_inner : ∀ ss : List Segment, Segment.AllClean ss → ∀ rest,
    Reads (readInner ((Segment.innerText ss).toList ++ ';' :: rest)) ss rest
  | [], _, rest => by
    rw [show (Segment.innerText []).toList ++ ';' :: rest = ';' :: rest from rfl, readInner,
      readCharacter_cons_self]
    exact ⟨_, rfl⟩
  | s :: ss, h, rest => by
    rw [Segment.toList_innerText_cons, List.cons_append, List.append_assoc, readInner,
      readCharacter_cons_of_ne (by decide), readCharacter_cons_self]
    refine (s.reads true h.1 _ (endsSegment_innerText ss rest)).bind fun _ => ?_
    exact (Segment.reads_inner ss h.2 rest).bind fun _ => ⟨_, rfl⟩

/-- A type argument is read back from its text. -/
theorem ArgumentTree.reads : ∀ a : ArgumentTree, a.IsClean → ∀ rest,
    Reads (readArgument (a.text.toList ++ rest)) a rest
  | .any, _, rest => by
    rw [show ArgumentTree.any.text.toList ++ rest = '*' :: rest from rfl, readArgument,
      readCharacter_cons_self]
    exact ⟨_, rfl⟩
  | .exactly r, h, rest => by
    -- no reference type begins with one of the marks
    obtain ⟨c, hc, cs, htext⟩ := r.text_begins
    have hmarks : ∀ c ∈ ['T', '[', 'L'], c ≠ '*' ∧ c ≠ '+' ∧ c ≠ '-' := by simp
    obtain ⟨hany, hplus, hminus⟩ := hmarks c hc
    have hreads := r.reads h rest
    rw [htext, List.cons_append] at hreads
    rw [ArgumentTree.text, htext, List.cons_append, readArgument, readCharacter_cons_of_ne hany,
      readCharacter_cons_of_ne hplus, readCharacter_cons_of_ne hminus]
    exact hreads.bind fun _ => ⟨_, rfl⟩
  | .subtypeOf r, h, rest => by
    rw [ArgumentTree.toList_text_subtypeOf, List.cons_append, readArgument,
      readCharacter_cons_of_ne (by decide), readCharacter_cons_self]
    exact (r.reads h rest).bind fun _ => ⟨_, rfl⟩
  | .supertypeOf r, h, rest => by
    rw [ArgumentTree.toList_text_supertypeOf, List.cons_append, readArgument,
      readCharacter_cons_of_ne (by decide), readCharacter_cons_of_ne (by decide),
      readCharacter_cons_self]
    exact (r.reads h rest).bind fun _ => ⟨_, rfl⟩

/-- Type arguments are read back to the closing bracket. -/
theorem ArgumentTree.reads_all : ∀ as : List ArgumentTree, as ≠ [] → ArgumentTree.AllClean as →
    ∀ rest, Reads (readArguments ((String.join (ArgumentTree.texts as)).toList ++ '>' :: rest))
      as rest
  | [a], _, h, rest => by
    rw [ArgumentTree.texts, ArgumentTree.texts, String.join_cons, String.join_nil,
      String.append_empty, readArguments]
    refine (a.reads h.1 _).bind fun _ => ?_
    dsimp only
    rw [readCharacter_cons_self]
    exact ⟨_, rfl⟩
  | a :: b :: as, _, h, rest => by
    -- the next argument does not begin with a bracket
    obtain ⟨c, hc, cs, htext⟩ := b.text_begins
    have hbracket : ∀ c ∈ ['*', '+', '-', 'T', '[', 'L'], c ≠ '>' := by simp
    have hbegins : (String.join (ArgumentTree.texts (b :: as))).toList ++ '>' :: rest
        = c :: (cs ++ ((String.join (ArgumentTree.texts as)).toList ++ '>' :: rest)) := by
      rw [ArgumentTree.texts, String.join_cons, String.toList_append, htext, List.cons_append,
        List.cons_append, List.append_assoc]
    have hothers := ArgumentTree.reads_all (b :: as) (List.cons_ne_nil b as) h.2 rest
    have htexts : ArgumentTree.texts (a :: b :: as) = a.text :: ArgumentTree.texts (b :: as) := rfl
    rw [hbegins] at hothers
    rw [htexts, String.join_cons, String.toList_append, List.append_assoc, hbegins, readArguments]
    refine (a.reads h.1 _).bind fun _ => ?_
    dsimp only
    rw [readCharacter_cons_of_ne (hbracket c hc)]
    exact hothers.bind fun _ => ⟨_, rfl⟩

end

/-! ## Nothing else is read

The converse is by recursion on the length of the text, as the readers are:
each case of the proof is a case of one of them. What has been read is put
together again and is the text that was there. -/

theorem readCharacter_eq_some {c : Char} {cs : List Char} {r : Reading Unit cs.length}
    (h : readCharacter c cs = some r) : c :: r.rest = cs := by
  cases cs with
  | nil => cases h
  | cons d cs =>
    by_cases hd : d = c
    · subst hd
      rw [readCharacter_cons_self] at h
      cases h
      rfl
    · rw [readCharacter_cons_of_ne hd] at h
      cases h

theorem readName_eq_some {inside : Bool} {cs : List Char} {r : Reading String cs.length}
    (h : readName inside cs = some r) :
    IsName inside r.value.toList ∧ r.value.toList ++ r.rest = cs := by
  unfold readName at h
  split at h
  · next hname =>
    cases h
    rw [String.toList_ofList]
    exact ⟨hname, List.takeWhile_append_dropWhile⟩
  · cases h

/-- A type that is a reference type has the text of one. -/
theorem Reading.reference?_sound {r : Reading TypeTree n} {r' : Reading ReferenceTree n}
    {cs : List Char} (h : r.reference? = some r')
    (hr : r.value.IsClean ∧ r.value.text.toList ++ r.rest = cs) :
    r'.value.IsClean ∧ r'.value.text.toList ++ r'.rest = cs := by
  obtain ⟨value, rest, hshorter⟩ := r
  cases value with
  | base b => cases h
  | reference t =>
    cases h
    exact hr

mutual

/-- **What is read as a type is the text of the type,** and names in it are
clean. The recursion is that of the reader. -/
theorem readType_sound : ∀ (cs : List Char) (r : Reading TypeTree cs.length),
    readType cs = some r → r.value.IsClean ∧ r.value.text.toList ++ r.rest = cs
  | [], r, h => by
    rw [readType] at h
    cases h
  | c :: cs, r, h => by
    have hcs : 3 * cs.length < 3 * (c :: cs).length := by
      rw [List.length_cons]
      omega
    rw [readType] at h
    split at h
    · next hc =>
      obtain ⟨component, hcomponent, h⟩ := Option.bind_eq_some_iff.mp h
      cases h
      obtain ⟨hclean, htext⟩ := readType_sound cs component hcomponent
      refine ⟨hclean, ?_⟩
      show (ReferenceTree.array component.value).text.toList ++ component.rest = c :: cs
      rw [ReferenceTree.toList_text_array, List.cons_append, htext, hc]
    · split at h
      · next hc =>
        obtain ⟨name, hname, h⟩ := Option.bind_eq_some_iff.mp h
        obtain ⟨last, hlast, h⟩ := Option.bind_eq_some_iff.mp h
        cases h
        obtain ⟨hclean, htext⟩ := readName_eq_some hname
        refine ⟨hclean, ?_⟩
        show (ReferenceTree.typeVariable name.value).text.toList ++ last.rest = c :: cs
        rw [ReferenceTree.toList_text_typeVariable, List.cons_append, List.append_assoc,
          List.singleton_append, readCharacter_eq_some hlast, htext, hc]
      · split at h
        · next hc =>
          obtain ⟨head, hsegment, h⟩ := Option.bind_eq_some_iff.mp h
          obtain ⟨inner, hinner, h⟩ := Option.bind_eq_some_iff.mp h
          cases h
          have hhead := head.shorter
          obtain ⟨hclean, htext⟩ := readSegment_sound false cs head hsegment
          obtain ⟨hcleans, htexts⟩ := readInner_sound head.rest inner hinner
          refine ⟨⟨hclean, hcleans⟩, ?_⟩
          show (ReferenceTree.declared head.value inner.value).text.toList ++ inner.rest = c :: cs
          rw [ReferenceTree.toList_text_declared, List.cons_append, List.append_assoc,
            List.append_assoc, List.singleton_append, htexts, htext, hc]
        · obtain ⟨b, hb, h⟩ := Option.map_eq_some_iff.mp h
          cases h
          refine ⟨trivial, ?_⟩
          show (TypeTree.base b).text.toList ++ cs = c :: cs
          rw [TypeTree.toList_text_base, Primitive.letter_of_ofLetter? hb]
          rfl
termination_by cs => 3 * cs.length
decreasing_by all_goals omega

/-- What is read as a segment is its text. -/
theorem readSegment_sound (inside : Bool) (cs : List Char) (r : Reading Segment cs.length)
    (h : readSegment inside cs = some r) :
    r.value.IsClean inside ∧ r.value.text.toList ++ r.rest = cs := by
  rw [readSegment] at h
  obtain ⟨name, hread, h⟩ := Option.bind_eq_some_iff.mp h
  obtain ⟨hclean, htext⟩ := readName_eq_some hread
  split at h
  · cases h
    refine ⟨⟨hclean, trivial⟩, ?_⟩
    show (name.value ++ "").toList ++ name.rest = cs
    rw [String.append_empty, htext]
  · next opened hopened =>
    obtain ⟨arguments, harguments, h⟩ := Option.bind_eq_some_iff.mp h
    cases h
    have hname := name.shorter
    have hbracket := opened.shorter
    obtain ⟨hne, hcleans, htexts⟩ := readArguments_sound opened.rest arguments harguments
    refine ⟨⟨hclean, hcleans⟩, ?_⟩
    show (name.value ++ angled (ArgumentTree.texts arguments.value)).toList ++ arguments.rest = cs
    -- type arguments are written in brackets only if there are any
    obtain ⟨a, as, hcons⟩ := List.exists_cons_of_ne_nil hne
    rw [hcons] at htexts ⊢
    rw [String.toList_append, ArgumentTree.texts, toList_angled_cons, ← ArgumentTree.texts,
      List.append_assoc, List.cons_append, List.append_assoc, List.singleton_append, htexts,
      readCharacter_eq_some hopened, htext]
termination_by 3 * cs.length
decreasing_by all_goals omega

/-- What is read as the classes inside a class is their text. -/
theorem readInner_sound (cs : List Char) (r : Reading (List Segment) cs.length)
    (h : readInner cs = some r) :
    Segment.AllClean r.value ∧ (Segment.innerText r.value).toList ++ ';' :: r.rest = cs := by
  rw [readInner] at h
  split at h
  · next last hlast =>
    cases h
    exact ⟨trivial, readCharacter_eq_some hlast⟩
  · obtain ⟨point, hpoint, h⟩ := Option.bind_eq_some_iff.mp h
    obtain ⟨first, hfirst, h⟩ := Option.bind_eq_some_iff.mp h
    obtain ⟨others, hothers, h⟩ := Option.bind_eq_some_iff.mp h
    cases h
    have hmark := point.shorter
    have hsegment := first.shorter
    obtain ⟨hclean, htext⟩ := readSegment_sound true point.rest first hfirst
    obtain ⟨hcleans, htexts⟩ := readInner_sound first.rest others hothers
    refine ⟨⟨hclean, hcleans⟩, ?_⟩
    show (Segment.innerText (first.value :: others.value)).toList ++ ';' :: others.rest = cs
    rw [Segment.toList_innerText_cons, List.cons_append, List.append_assoc, htexts, htext,
      readCharacter_eq_some hpoint]
termination_by 3 * cs.length
decreasing_by all_goals omega

/-- What is read as type arguments is their text up to the bracket. -/
theorem readArguments_sound (cs : List Char) (r : Reading (List ArgumentTree) cs.length)
    (h : readArguments cs = some r) :
    r.value ≠ [] ∧ ArgumentTree.AllClean r.value ∧
      (String.join (ArgumentTree.texts r.value)).toList ++ '>' :: r.rest = cs := by
  rw [readArguments] at h
  obtain ⟨first, hfirst, h⟩ := Option.bind_eq_some_iff.mp h
  obtain ⟨hclean, htext⟩ := readArgument_sound cs first hfirst
  split at h
  · next closed hclosed =>
    cases h
    refine ⟨List.cons_ne_nil _ _, ⟨hclean, trivial⟩, ?_⟩
    show (String.join (ArgumentTree.texts [first.value])).toList ++ '>' :: closed.rest = cs
    rw [ArgumentTree.texts, ArgumentTree.texts, String.join_cons, String.join_nil,
      String.append_empty, readCharacter_eq_some hclosed, htext]
  · obtain ⟨others, hothers, h⟩ := Option.bind_eq_some_iff.mp h
    cases h
    have hargument := first.shorter
    obtain ⟨_, hcleans, htexts⟩ := readArguments_sound first.rest others hothers
    refine ⟨List.cons_ne_nil _ _, ⟨hclean, hcleans⟩, ?_⟩
    show (String.join (ArgumentTree.texts (first.value :: others.value))).toList
      ++ '>' :: others.rest = cs
    rw [ArgumentTree.texts, String.join_cons, String.toList_append, List.append_assoc, htexts,
      htext]
termination_by 3 * cs.length + 2
decreasing_by all_goals omega

/-- What is read as a type argument is its text. -/
theorem readArgument_sound (cs : List Char) (r : Reading ArgumentTree cs.length)
    (h : readArgument cs = some r) : r.value.IsClean ∧ r.value.text.toList ++ r.rest = cs := by
  rw [readArgument] at h
  split at h
  · next any hany =>
    cases h
    refine ⟨trivial, ?_⟩
    show ArgumentTree.any.text.toList ++ any.rest = cs
    exact readCharacter_eq_some hany
  · next mark hmark _ =>
    obtain ⟨type, htype, h⟩ := Option.bind_eq_some_iff.mp h
    obtain ⟨bound, hbound, h⟩ := Option.bind_eq_some_iff.mp h
    cases h
    have hshorter := mark.shorter
    obtain ⟨hclean, htext⟩ := Reading.reference?_sound hbound (readType_sound mark.rest type htype)
    refine ⟨hclean, ?_⟩
    show (ArgumentTree.subtypeOf bound.value).text.toList ++ bound.rest = cs
    rw [ArgumentTree.toList_text_subtypeOf, List.cons_append, htext, readCharacter_eq_some hmark]
  · next mark hmark _ _ =>
    obtain ⟨type, htype, h⟩ := Option.bind_eq_some_iff.mp h
    obtain ⟨bound, hbound, h⟩ := Option.bind_eq_some_iff.mp h
    cases h
    have hshorter := mark.shorter
    obtain ⟨hclean, htext⟩ := Reading.reference?_sound hbound (readType_sound mark.rest type htype)
    refine ⟨hclean, ?_⟩
    show (ArgumentTree.supertypeOf bound.value).text.toList ++ bound.rest = cs
    rw [ArgumentTree.toList_text_supertypeOf, List.cons_append, htext, readCharacter_eq_some hmark]
  · obtain ⟨type, htype, h⟩ := Option.bind_eq_some_iff.mp h
    obtain ⟨bound, hbound, h⟩ := Option.bind_eq_some_iff.mp h
    cases h
    exact Reading.reference?_sound hbound (readType_sound cs type htype)
termination_by 3 * cs.length + 1
decreasing_by all_goals omega

end

/-! ## Whole texts

For a whole text nothing must be left. The result of a method is a type or
nothing, and so is the signature of a type. -/

/-- A result whose names are clean. -/
def ResultTree.IsClean : ResultTree → Prop
  | .value t => t.IsClean
  | .void => True

theorem TypeTree.text_begins (t : TypeTree) :
    ∃ c, (c ≠ voidLetter ∧ c ≠ ')') ∧ ∃ cs, t.text.toList = c :: cs := by
  cases t with
  | base b => exact ⟨b.letter, by cases b <;> decide, [], toList_text_base b⟩
  | reference r =>
    obtain ⟨c, hc, cs, h⟩ := r.text_begins
    have hletters : ∀ c ∈ ['T', '[', 'L'], c ≠ voidLetter ∧ c ≠ ')' := by simp [voidLetter]
    exact ⟨c, hletters c hc, cs, h⟩

/-- A result is read back from its text. -/
theorem ResultTree.reads (t : ResultTree) (h : t.IsClean) (rest : List Char) :
    Reads (readResult (t.text.toList ++ rest)) t rest := by
  cases t with
  | void => exact ⟨_, rfl⟩
  | value t =>
    obtain ⟨c, ⟨hc, _⟩, cs, htext⟩ := t.text_begins
    have hreads := t.reads h rest
    show Reads (readResult (t.text.toList ++ rest)) _ _
    rw [htext, List.cons_append] at hreads ⊢
    unfold readResult
    rw [readCharacter_cons_of_ne hc]
    exact hreads.map ResultTree.value

/-- What is read as a result is its text. -/
theorem readResult_sound (cs : List Char) (r : Reading ResultTree cs.length)
    (h : readResult cs = some r) : r.value.IsClean ∧ r.value.text.toList ++ r.rest = cs := by
  unfold readResult at h
  split at h
  · next void hvoid =>
    cases h
    refine ⟨trivial, ?_⟩
    show ResultTree.void.text.toList ++ void.rest = cs
    exact readCharacter_eq_some hvoid
  · obtain ⟨type, htype, h⟩ := Option.map_eq_some_iff.mp h
    cases h
    exact readType_sound cs type htype

theorem whole?_eq_some {x : Option (Reading α n)} {a : α} (h : whole? x = some a) :
    ∃ r, x = some r ∧ r.value = a ∧ r.rest = [] := by
  obtain ⟨r, hr, h⟩ := Option.bind_eq_some_iff.mp h
  split at h
  · next hrest => exact ⟨r, hr, Option.some.inj h, hrest⟩
  · cases h

/-- **Reading is the inverse of writing.** A text is read as the tree that it
is the text of, and as no other. -/
theorem ResultTree.read?_eq_some_iff {s : String} {t : ResultTree} :
    ResultTree.read? s = some t ↔ t.IsClean ∧ t.text = s := by
  constructor
  · intro h
    obtain ⟨r, hr, rfl, hrest⟩ := whole?_eq_some h
    obtain ⟨hclean, htext⟩ := readResult_sound _ r hr
    rw [hrest, List.append_nil] at htext
    exact ⟨hclean, String.toList_injective htext⟩
  · rintro ⟨h, rfl⟩
    have hreads := t.reads h []
    rw [List.append_nil] at hreads
    exact hreads.whole?

end ClassFile.Signature
