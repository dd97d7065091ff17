import ClassFile.Proofs.Signature.DeclarationReader
import ClassFile.Proofs.Signature.ReadBack

/-!
# Signatures of declarations are read back

As for types: the reader finds in the text of a tree the tree, if the names in
it are clean and the grammar allows its supertypes and exceptions, and it finds
nothing else (`ClassTree.read?_eq_some_iff`, `MethodTree.read?_eq_some_iff`).

The signature of a declaration is mostly lists, and a list is read back if its
items are (`reads_many`), in front of what follows them. For most items it
does not matter what that is. For a type parameter it does: what follows must
not look like another bound (`EndsFormal`).
-/

namespace ClassFile.Signature

variable {α : Type} {m n : Nat}

/-! ## Clean declarations

Nothing is asked of a tree here but what a reader can see in a text: which
characters are in the names, and where there must be a class. -/

/-- A type parameter whose names are clean. -/
structure FormalTree.IsClean (f : FormalTree) : Prop where
  name : IsName true f.name.toList
  classBound : ∀ r ∈ f.classBound, r.IsClean
  interfaceBounds : ∀ r ∈ f.interfaceBounds, r.IsClean

/-- **A class whose names are clean** and whose supertypes are classes. -/
structure ClassTree.IsClean (c : ClassTree) : Prop where
  formals : ∀ f ∈ c.formals, f.IsClean
  superclass : c.superclass.IsClean ∧ c.superclass.isClass = true
  interfaces : ∀ r ∈ c.interfaces, r.IsClean ∧ r.isClass = true

/-- **A method whose names are clean** and which throws what can be thrown. -/
structure MethodTree.IsClean (m : MethodTree) : Prop where
  formals : ∀ f ∈ m.formals, f.IsClean
  parameters : ∀ t ∈ m.parameters, t.IsClean
  result : m.result.IsClean
  thrown : ∀ r ∈ m.thrown, r.IsClean ∧ r.isThrowable = true

/-! ## Lists are read back

A reader of lists decides by the next character whether there is another item.
So two things are asked of the items: each begins with a character that starts
one, and what follows the list begins with none. What may follow an item is
`ends`, a parameter. -/

variable {a : α} {rest : List Char}

theorem readCharacter_of_head? {c : Char} {cs : List Char} (h : cs.head? ≠ some c) :
    readCharacter c cs = none := by
  cases cs with
  | nil => rfl
  | cons d cs => exact readCharacter_cons_of_ne (fun e => h (congrArg some e)) cs

theorem reads_behind {c : Char} {item : (cs : List Char) → Option (Reading α cs.length)}
    {cs : List Char} (h : Reads (item cs) a rest) :
    Reads (readBehind c item (c :: cs)) a rest := by
  unfold readBehind
  rw [readCharacter_cons_self]
  exact h.bind fun _ => ⟨_, rfl⟩

/-- **A list of items is read back** if each of them is, in front of whatever
may follow one. -/
theorem reads_many (ends : List Char → Prop) {starts : Char → Bool}
    {item : (cs : List Char) → Option (Reading α cs.length)} {text : α → List Char}
    {as : List α} (hends : ends rest)
    (hstop : rest.head?.any starts = false)
    (hitem : ∀ a ∈ as, ∀ rest, ends rest → Reads (item (text a ++ rest)) a rest)
    (hbegins : ∀ a ∈ as, ∀ rest, ends (text a ++ rest)
      ∧ (text a ++ rest).head?.any starts = true) :
    Reads (readMany starts item (as.flatMap text ++ rest)) as rest := by
  -- what follows an item is the text of the others, which may follow one as well
  have hall : ∀ as : List α, (∀ a ∈ as, ∀ rest, ends (text a ++ rest)
      ∧ (text a ++ rest).head?.any starts = true) → ends (as.flatMap text ++ rest) := by
    intro as has
    cases as with
    | nil => exact hends
    | cons a as =>
      rw [List.flatMap_cons, List.append_assoc]
      exact (has a List.mem_cons_self _).1
  induction as with
  | nil =>
    rw [List.flatMap_nil, List.nil_append, readMany, if_neg (by rw [hstop]; decide)]
    exact ⟨_, rfl⟩
  | cons a as ih =>
    have hothers : ∀ b ∈ as, b ∈ a :: as := fun b hb => List.mem_cons_of_mem _ hb
    rw [List.flatMap_cons, List.append_assoc, readMany,
      if_pos (hbegins a List.mem_cons_self _).2]
    refine (hitem a List.mem_cons_self _ (hall as fun b hb => hbegins b (hothers b hb))).bind
      fun _ => ?_
    refine (ih (fun b hb => hitem b (hothers b hb)) fun b hb => hbegins b (hothers b hb)).bind
      fun _ => ?_
    exact ⟨_, rfl⟩

theorem ReferenceTree.reads_reference (r : ReferenceTree) (h : r.IsClean) (rest : List Char) :
    Reads (readReference (r.text.toList ++ rest)) r rest :=
  (r.reads h rest).bind fun _ => ⟨_, rfl⟩

/-- A reference type is read back as one of its kind. -/
theorem ReferenceTree.reads_kind {accepts : ReferenceTree → Bool} (r : ReferenceTree)
    (h : r.IsClean ∧ accepts r = true) (rest : List Char) :
    Reads (readKind accepts (r.text.toList ++ rest)) r rest := by
  refine (r.reads_reference h.1 rest).bind fun hshorter => ⟨hshorter, ?_⟩
  exact if_pos h.2

/-! ## Type parameters are read back

Behind the first colon of a type parameter there is a class bound or none. The
reader looks ahead for the first character that is in no name: a colon or a
closing bracket says that what stands before it was the name of the next type
parameter, and anything else that it is a bound. -/

theorem beginsBound_cons {c : Char} (h : isNameCharacter c = false) (cs : List Char) :
    beginsBound (c :: cs) = (c != ':' && c != '>') := by
  unfold beginsBound
  rw [List.dropWhile_cons, h]
  rfl

/-- Characters of names are passed over. -/
theorem beginsBound_append {front : List Char} (h : ∀ c ∈ front, isNameCharacter c = true)
    (cs : List Char) : beginsBound (front ++ cs) = beginsBound cs := by
  unfold beginsBound
  rw [List.dropWhile_append_of_pos h]

/-- **A reference type is seen to be a bound.** -/
theorem ReferenceTree.beginsBound (r : ReferenceTree) (h : r.IsClean) (rest : List Char) :
    beginsBound (r.text.toList ++ rest) = true := by
  cases r with
  | typeVariable name =>
    have hfront : ∀ c ∈ 'T' :: name.toList, isNameCharacter c = true :=
      List.forall_mem_cons.mpr ⟨by decide, IsName.all h⟩
    rw [toList_text_typeVariable, ← List.cons_append, List.append_assoc,
      beginsBound_append hfront]
    rfl
  | array c =>
    rw [toList_text_array]
    rfl
  | declared head inner =>
    obtain ⟨name, arguments⟩ := head
    have hfront : ∀ c ∈ 'L' :: name.toList, isNameCharacter c = true :=
      List.forall_mem_cons.mpr ⟨by decide, IsName.all h.1.1⟩
    rw [toList_text_declared, Segment.text, String.toList_append, List.append_assoc,
      List.append_assoc, ← List.cons_append, List.append_assoc, beginsBound_append hfront]
    -- without arguments the first such character is what ends the segment
    cases arguments with
    | nil =>
      obtain ⟨c, hc, cs, hinner⟩ := endsSegment_innerText inner rest
      have hends : ∀ c ∈ ['.', ';'], isNameCharacter c = false ∧ (c != ':' && c != '>') := by
        simp [isNameCharacter, reserved]
      have hnothing : (angled (ArgumentTree.texts [])).toList = [] := rfl
      rw [hnothing, List.nil_append, List.append_assoc, List.singleton_append, hinner,
        beginsBound_cons (hends c hc).1]
      exact (hends c hc).2
    | cons a as =>
      rw [ArgumentTree.texts, toList_angled_cons]
      rfl

/-- What can stand behind a type parameter: no bound of any kind. -/
def EndsFormal (rest : List Char) : Prop :=
  Signature.beginsBound rest = false ∧ rest.head? ≠ some ':'

theorem FormalTree.toList_text (f : FormalTree) :
    f.text.toList = f.name.toList ++ ':' :: (((f.classBound.map ReferenceTree.text).getD "").toList
      ++ f.interfaceBounds.flatMap fun r => ':' :: r.text.toList) := by
  have hmark : ∀ r : ReferenceTree, (":" ++ r.text).toList = ':' :: r.text.toList := by
    intro r
    rw [String.toList_append]
    rfl
  unfold text
  rw [String.toList_append, String.toList_append, String.toList_append, String.toList_join,
    List.flatMap_map, List.append_assoc, List.append_assoc]
  simp only [hmark]
  rfl

/-- **The name of a type parameter** is seen to be no bound of the one before
it. -/
theorem FormalTree.endsFormal {f : FormalTree} (h : f.IsClean) (rest : List Char) :
    EndsFormal (f.text.toList ++ rest) ∧ (f.text.toList ++ rest).head?.any (· != '>') = true := by
  -- the characters of a name are neither of the two that the reader looks for
  have hfree : ∀ c, isNameCharacter c = true → c ≠ ':' ∧ c ≠ '>' := by
    intro c hc
    constructor
    all_goals
      rintro rfl
      exact absurd hc (by decide)
  rw [toList_text, List.append_assoc, List.cons_append]
  refine ⟨⟨?_, ?_⟩, ?_⟩
  · rw [beginsBound_append h.name.all]
    rfl
  all_goals
    obtain ⟨c, cs, hname⟩ := List.exists_cons_of_ne_nil h.name.ne_nil
    obtain ⟨hcolon, hbracket⟩ := hfree c (h.name.all c (by rw [hname]; exact List.mem_cons_self))
    rw [hname]
    simp [hcolon, hbracket]

/-- A class bound is read back, or is seen not to be there. -/
theorem reads_classBound {bound : Option ReferenceTree} (h : ∀ r ∈ bound, r.IsClean)
    (hr : bound = none → beginsBound rest = false) :
    Reads (readClassBound (((bound.map ReferenceTree.text).getD "").toList ++ rest)) bound
      rest := by
  unfold readClassBound
  cases bound with
  | none =>
    show Reads (if beginsBound rest = true then _ else _) none rest
    rw [if_neg (by rw [hr rfl]; exact Bool.false_ne_true)]
    exact ⟨_, rfl⟩
  | some r =>
    obtain ⟨_, href⟩ := r.reads_reference (h r rfl) rest
    show Reads (if beginsBound (r.text.toList ++ rest) = true then _ else _) _ _
    rw [if_pos (r.beginsBound (h r rfl) rest)]
    show Reads ((readReference (r.text.toList ++ rest)).map _) _ _
    rw [href]
    exact ⟨_, rfl⟩

/-- **A type parameter is read back from its text,** in front of what can
stand behind it. -/
theorem FormalTree.reads {f : FormalTree} (h : f.IsClean) (hr : EndsFormal rest) :
    Reads (readFormal (f.text.toList ++ rest)) f rest := by
  rw [toList_text, List.append_assoc, List.cons_append, List.append_assoc]
  refine (reads_name h.name (endsName_cons (by decide) _)).bind fun _ => ?_
  dsimp only
  rw [readCharacter_cons_self]
  -- the colon of an interface bound begins no class bound
  have hbounds : beginsBound ((f.interfaceBounds.flatMap fun r => ':' :: r.text.toList) ++ rest)
      = false := by
    cases f.interfaceBounds with
    | nil => exact hr.1
    | cons r rs => rfl
  refine (reads_classBound h.classBound fun _ => hbounds).bind fun _ => ?_
  have hmany : Reads (readMany (· == ':') (readBehind ':' readReference)
      ((f.interfaceBounds.flatMap fun r => ':' :: r.text.toList) ++ rest))
      f.interfaceBounds rest := by
    refine reads_many (fun _ => True) trivial ?_ ?_ fun r _ rest => ⟨trivial, rfl⟩
    · cases rest with
      | nil => rfl
      | cons c cs => simpa using fun e => hr.2 (congrArg some e)
    · intro r hmem rest _
      exact reads_behind (r.reads_reference (h.interfaceBounds r hmem) rest)
  exact hmany.bind fun _ => ⟨_, rfl⟩

/-- **The type parameters of a declaration are read back,** and that there are
none is seen by the missing bracket. -/
theorem reads_formals {fs : List FormalTree} (h : ∀ f ∈ fs, f.IsClean)
    (hr : rest.head? ≠ some '<') :
    Reads (readFormals ((angled (fs.map FormalTree.text)).toList ++ rest)) fs rest := by
  cases fs with
  | nil =>
    have hnothing : (angled ([].map FormalTree.text)).toList ++ rest = rest := rfl
    rw [hnothing]
    unfold readFormals
    rw [readCharacter_of_head? hr]
    exact ⟨_, rfl⟩
  | cons f fs =>
    have hothers : ∀ g ∈ fs, g.IsClean := fun g hg => h g (List.mem_cons_of_mem _ hg)
    have hclosed : EndsFormal ('>' :: rest) := ⟨rfl, fun e => by cases e⟩
    -- behind the first one there is another one, or the bracket is closed
    have hends : EndsFormal ((fs.flatMap fun g => g.text.toList) ++ '>' :: rest) := by
      cases fs with
      | nil => exact hclosed
      | cons g gs =>
        rw [List.flatMap_cons, List.append_assoc]
        exact (FormalTree.endsFormal (hothers g List.mem_cons_self) _).1
    rw [List.map_cons, toList_angled_cons, List.cons_append, List.append_assoc,
      List.singleton_append, String.join_cons, String.toList_append, String.toList_join,
      List.flatMap_map, List.append_assoc]
    unfold readFormals
    rw [readCharacter_cons_self]
    refine (FormalTree.reads (h f List.mem_cons_self) hends).bind fun _ => ?_
    refine (reads_many EndsFormal hclosed rfl
      (fun g hg _ => FormalTree.reads (hothers g hg))
      fun g hg => FormalTree.endsFormal (hothers g hg)).bind fun _ => ?_
    dsimp only
    rw [readCharacter_cons_self]
    exact ⟨_, rfl⟩

/-! ## Declarations are read back

The parts of a declaration come one after another, and each is read in front
of the text of those that follow. For a class without type parameters it has
to be seen that its superclass does not begin with an angle bracket. -/

theorem ClassTree.toList_text (c : ClassTree) :
    c.text.toList = (angled (c.formals.map FormalTree.text)).toList
      ++ (c.superclass.text.toList ++ c.interfaces.flatMap fun r => r.text.toList) := by
  unfold text
  rw [String.toList_append, String.toList_append, String.toList_join, List.flatMap_map,
    List.append_assoc]

theorem MethodTree.toList_text (m : MethodTree) :
    m.text.toList = (angled (m.formals.map FormalTree.text)).toList
      ++ '(' :: ((m.parameters.flatMap fun t => t.text.toList)
        ++ ')' :: (m.result.text.toList
          ++ m.thrown.flatMap fun r => '^' :: r.text.toList)) := by
  have hmark : ∀ r : ReferenceTree, ("^" ++ r.text).toList = '^' :: r.text.toList := by
    intro r
    rw [String.toList_append]
    rfl
  unfold text
  simp only [String.toList_append, String.toList_join, List.flatMap_map, List.append_assoc, hmark]
  rfl

/-- **The signature of a class is read back.** -/
theorem ClassTree.reads {c : ClassTree} (h : c.IsClean) :
    Reads (readClass c.text.toList) c [] := by
  have hhead : ∀ rest, (c.superclass.text.toList ++ rest).head? ≠ some '<' := by
    intro rest
    obtain ⟨d, hd, cs, hbegins⟩ := c.superclass.text_begins
    have hletters : ∀ d ∈ ['T', '[', 'L'], some d ≠ some '<' := by simp
    rw [hbegins]
    exact hletters d hd
  rw [toList_text, ← List.append_nil (c.interfaces.flatMap _)]
  refine (reads_formals h.formals (hhead _)).bind fun _ => ?_
  refine (c.superclass.reads_kind h.superclass _).bind fun _ => ?_
  refine (reads_many (fun _ => True) trivial rfl
    (fun r hr rest _ => r.reads_kind (h.interfaces r hr) rest) fun r _ rest => ⟨trivial, ?_⟩).bind
    fun _ => ⟨_, rfl⟩
  obtain ⟨d, _, cs, hbegins⟩ := r.text_begins
  rw [hbegins]
  rfl

/-- **The signature of a method is read back.** -/
theorem MethodTree.reads {m : MethodTree} (h : m.IsClean) :
    Reads (readMethod m.text.toList) m [] := by
  rw [toList_text, ← List.append_nil (m.thrown.flatMap _)]
  refine (reads_formals h.formals (fun e => by cases e)).bind fun _ => ?_
  dsimp only
  rw [readCharacter_cons_self]
  refine (reads_many (fun _ => True) trivial rfl
    (fun t ht rest _ => t.reads (h.parameters t ht) rest)
    fun t _ rest => ⟨trivial, ?_⟩).bind fun _ => ?_
  · obtain ⟨c, ⟨_, hc⟩, cs, hbegins⟩ := t.text_begins
    rw [hbegins]
    simpa using hc
  dsimp only
  rw [readCharacter_cons_self]
  refine (m.result.reads h.result _).bind fun _ => ?_
  refine (reads_many (fun _ => True) trivial rfl (fun r hr rest _ => ?_)
    fun r _ rest => ⟨trivial, rfl⟩).bind fun _ => ⟨_, rfl⟩
  exact reads_behind (r.reads_kind (h.thrown r hr) rest)

/-! ## Nothing else is read

In the other direction one part after the other is taken from the text.
Whatever has been read is clean, and put together again it is the text. -/

/-- **A reader that is sound:** what it reads is clean, and its text is what
has been read. -/
def Sound (item : (cs : List Char) → Option (Reading α cs.length)) (clean : α → Prop)
    (text : α → List Char) : Prop :=
  ∀ cs r, item cs = some r → clean r.value ∧ text r.value ++ r.rest = cs

theorem sound_readType : Sound readType TypeTree.IsClean (·.text.toList) := readType_sound

theorem sound_readReference : Sound readReference ReferenceTree.IsClean (·.text.toList) := by
  intro cs r h
  obtain ⟨type, htype, h⟩ := Option.bind_eq_some_iff.mp h
  exact Reading.reference?_sound h (readType_sound cs type htype)

theorem sound_readKind (accepts : ReferenceTree → Bool) :
    Sound (readKind accepts) (fun r => r.IsClean ∧ accepts r = true) (·.text.toList) := by
  intro cs r h
  obtain ⟨type, htype, h⟩ := Option.bind_eq_some_iff.mp h
  obtain ⟨hclean, htext⟩ := sound_readReference cs type htype
  by_cases haccepts : accepts type.value = true
  · rw [if_pos haccepts] at h
    cases h
    exact ⟨⟨hclean, haccepts⟩, htext⟩
  · rw [if_neg haccepts] at h
    cases h

variable {item : (cs : List Char) → Option (Reading α cs.length)} {clean : α → Prop}
variable {text : α → List Char}

/-- The character in front of an item belongs to it. -/
theorem Sound.behind (hitem : Sound item clean text) (c : Char) :
    Sound (readBehind c item) clean (fun a => c :: text a) := by
  intro cs r h
  obtain ⟨mark, hmark, h⟩ := Option.bind_eq_some_iff.mp h
  obtain ⟨behind, hbehind, h⟩ := Option.bind_eq_some_iff.mp h
  cases h
  obtain ⟨hclean, htext⟩ := hitem mark.rest behind hbehind
  refine ⟨hclean, ?_⟩
  show c :: (text behind.value ++ behind.rest) = cs
  rw [htext, readCharacter_eq_some hmark]

/-- **What is read as a list has the text of the list.** By recursion on the
length of the text: an item takes at least one character of it. -/
theorem Sound.many (hitem : Sound item clean text) {starts : Char → Bool} (cs : List Char)
    (r : Reading (List α) (cs.length + 1)) (h : readMany starts item cs = some r) :
    (∀ a ∈ r.value, clean a) ∧ r.value.flatMap text ++ r.rest = cs := by
  rw [readMany] at h
  split at h
  · obtain ⟨first, hfirst, h⟩ := Option.bind_eq_some_iff.mp h
    obtain ⟨others, hothers, h⟩ := Option.bind_eq_some_iff.mp h
    cases h
    have hshorter := first.shorter
    obtain ⟨hclean, htext⟩ := hitem cs first hfirst
    obtain ⟨hcleans, htexts⟩ := hitem.many first.rest others hothers
    refine ⟨List.forall_mem_cons.mpr ⟨hclean, hcleans⟩, ?_⟩
    show (first.value :: others.value).flatMap text ++ others.rest = cs
    rw [List.flatMap_cons, List.append_assoc, htexts, htext]
  · cases h
    exact ⟨fun a ha => absurd ha List.not_mem_nil, rfl⟩
termination_by cs.length
decreasing_by exact hshorter

/-- What is read as a class bound is its text, which is empty if there is
none. -/
theorem readClassBound_sound (cs : List Char)
    (r : Reading (Option ReferenceTree) (cs.length + 1)) (h : readClassBound cs = some r) :
    (∀ b ∈ r.value, b.IsClean)
      ∧ ((r.value.map ReferenceTree.text).getD "").toList ++ r.rest = cs := by
  unfold readClassBound at h
  split at h
  · obtain ⟨bound, hbound, h⟩ := Option.map_eq_some_iff.mp h
    cases h
    obtain ⟨hclean, htext⟩ := sound_readReference cs bound hbound
    exact ⟨fun b hb => Option.some.inj hb ▸ hclean, htext⟩
  · cases h
    exact ⟨fun b hb => (by cases hb), rfl⟩

/-- What is read as a type parameter is its name and its bounds, with the
colons between them. -/
theorem sound_readFormal : Sound readFormal FormalTree.IsClean (·.text.toList) := by
  intro cs r h
  obtain ⟨name, hname, h⟩ := Option.bind_eq_some_iff.mp h
  obtain ⟨colon, hcolon, h⟩ := Option.bind_eq_some_iff.mp h
  obtain ⟨bound, hbound, h⟩ := Option.bind_eq_some_iff.mp h
  obtain ⟨bounds, hbounds, h⟩ := Option.bind_eq_some_iff.mp h
  cases h
  obtain ⟨hclean, htext⟩ := readName_eq_some hname
  obtain ⟨hcleanBound, htextBound⟩ := readClassBound_sound _ bound hbound
  obtain ⟨hcleanBounds, htextBounds⟩ :=
    (sound_readReference.behind ':').many _ bounds hbounds
  refine ⟨⟨hclean, hcleanBound, hcleanBounds⟩, ?_⟩
  dsimp only
  rw [FormalTree.toList_text, List.append_assoc, List.cons_append, List.append_assoc, htextBounds,
    htextBound, readCharacter_eq_some hcolon, htext]

/-- **What is read as type parameters** is their text in brackets, or nothing
at all. -/
theorem readFormals_sound (cs : List Char) (r : Reading (List FormalTree) (cs.length + 1))
    (h : readFormals cs = some r) :
    (∀ f ∈ r.value, f.IsClean)
      ∧ (angled (r.value.map FormalTree.text)).toList ++ r.rest = cs := by
  unfold readFormals at h
  split at h
  · cases h
    exact ⟨fun f hf => absurd hf List.not_mem_nil, rfl⟩
  · next opened hopened =>
    obtain ⟨first, hfirst, h⟩ := Option.bind_eq_some_iff.mp h
    obtain ⟨others, hothers, h⟩ := Option.bind_eq_some_iff.mp h
    obtain ⟨closed, hclosed, h⟩ := Option.bind_eq_some_iff.mp h
    cases h
    obtain ⟨hclean, htext⟩ := sound_readFormal _ first hfirst
    obtain ⟨hcleans, htexts⟩ := sound_readFormal.many _ others hothers
    refine ⟨List.forall_mem_cons.mpr ⟨hclean, hcleans⟩, ?_⟩
    show (angled ((first.value :: others.value).map FormalTree.text)).toList ++ closed.rest = cs
    rw [List.map_cons, toList_angled_cons, List.cons_append, List.append_assoc,
      List.singleton_append, readCharacter_eq_some hclosed, String.join_cons,
      String.toList_append, String.toList_join, List.flatMap_map, List.append_assoc, htexts,
      htext, readCharacter_eq_some hopened]

/-- What is read as the signature of a class is the text of the class. -/
theorem readClass_sound (cs : List Char) (r : Reading ClassTree (cs.length + 1))
    (h : readClass cs = some r) : r.value.IsClean ∧ r.value.text.toList ++ r.rest = cs := by
  obtain ⟨formals, hformals, h⟩ := Option.bind_eq_some_iff.mp h
  obtain ⟨superclass, hsuperclass, h⟩ := Option.bind_eq_some_iff.mp h
  obtain ⟨interfaces, hinterfaces, h⟩ := Option.bind_eq_some_iff.mp h
  cases h
  obtain ⟨hcleanFormals, htextFormals⟩ := readFormals_sound cs formals hformals
  obtain ⟨hclean, htext⟩ := sound_readKind _ _ superclass hsuperclass
  obtain ⟨hcleans, htexts⟩ := (sound_readKind _).many _ interfaces hinterfaces
  refine ⟨⟨hcleanFormals, hclean, hcleans⟩, ?_⟩
  rw [ClassTree.toList_text]
  dsimp only
  rw [List.append_assoc, List.append_assoc, htexts, htext, htextFormals]

/-- What is read as the signature of a method is the text of the method. -/
theorem readMethod_sound (cs : List Char) (r : Reading MethodTree (cs.length + 1))
    (h : readMethod cs = some r) : r.value.IsClean ∧ r.value.text.toList ++ r.rest = cs := by
  obtain ⟨formals, hformals, h⟩ := Option.bind_eq_some_iff.mp h
  obtain ⟨opened, hopened, h⟩ := Option.bind_eq_some_iff.mp h
  obtain ⟨parameters, hparameters, h⟩ := Option.bind_eq_some_iff.mp h
  obtain ⟨closed, hclosed, h⟩ := Option.bind_eq_some_iff.mp h
  obtain ⟨result, hresult, h⟩ := Option.bind_eq_some_iff.mp h
  obtain ⟨thrown, hthrown, h⟩ := Option.bind_eq_some_iff.mp h
  cases h
  obtain ⟨hcleanFormals, htextFormals⟩ := readFormals_sound cs formals hformals
  obtain ⟨hcleans, htexts⟩ := sound_readType.many _ parameters hparameters
  obtain ⟨hclean, htext⟩ := readResult_sound _ result hresult
  obtain ⟨hcleanThrown, htextThrown⟩ :=
    ((sound_readKind _).behind '^').many _ thrown hthrown
  refine ⟨⟨hcleanFormals, hcleans, hclean, hcleanThrown⟩, ?_⟩
  rw [MethodTree.toList_text]
  dsimp only
  rw [List.append_assoc, List.cons_append, List.append_assoc, List.cons_append,
    List.append_assoc, htextThrown, htext, readCharacter_eq_some hclosed, htexts,
    readCharacter_eq_some hopened, htextFormals]

/-! ## Whole texts -/

/-- **Reading is the inverse of writing,** for classes. -/
theorem ClassTree.read?_eq_some_iff {s : String} {c : ClassTree} :
    ClassTree.read? s = some c ↔ c.IsClean ∧ c.text = s := by
  constructor
  · intro h
    obtain ⟨r, hr, rfl, hrest⟩ := whole?_eq_some h
    obtain ⟨hclean, htext⟩ := readClass_sound _ r hr
    rw [hrest, List.append_nil] at htext
    exact ⟨hclean, String.toList_injective htext⟩
  · rintro ⟨h, rfl⟩
    exact (ClassTree.reads h).whole?

/-- **Reading is the inverse of writing,** for methods. -/
theorem MethodTree.read?_eq_some_iff {s : String} {m : MethodTree} :
    MethodTree.read? s = some m ↔ m.IsClean ∧ m.text = s := by
  constructor
  · intro h
    obtain ⟨r, hr, rfl, hrest⟩ := whole?_eq_some h
    obtain ⟨hclean, htext⟩ := readMethod_sound _ r hr
    rw [hrest, List.append_nil] at htext
    exact ⟨hclean, String.toList_injective htext⟩
  · rintro ⟨h, rfl⟩
    exact (MethodTree.reads h).whole?

end ClassFile.Signature
