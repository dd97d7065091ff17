import ClassFile.Proofs.Names
import ClassFile.Proofs.Signature.Text

/-!
# Where the text of a type ends

The texts of the parameters of a method stand side by side with nothing
between them. That they can be told apart is because the text of a type shows
where it ends: a letter ends at once, brackets of arrays belong to what comes
behind them, and a class or a type variable goes on to the first semicolon
that is not inside angle brackets. `afterType` looks for this place and reads
nothing else.

With clean names, the text of every type ends there
(`Program.HasCleanNames.typeText_ends`), and so does every descriptor
(`Program.HasCleanNames.descriptorText_ends`). Two lists of as many texts
are then equal as soon as the joined texts are (`join_append_inj`).
-/

namespace ClassFile.Signature

/-- What follows the first semicolon that is not inside angle brackets, where
`depth` brackets are open. -/
def afterClass : Nat → List Char → Option (List Char)
  | _, [] => none
  | depth, '<' :: cs => afterClass (depth + 1) cs
  | depth, '>' :: cs => afterClass (depth - 1) cs
  | 0, ';' :: cs => some cs
  | depth, _ :: cs => afterClass depth cs

/-- **What follows the type at the start of a text.** -/
def afterType : List Char → Option (List Char)
  | [] => none
  | '[' :: cs | '+' :: cs | '-' :: cs => afterType cs
  | 'L' :: cs | 'T' :: cs => afterClass 0 cs
  | _ :: cs => some cs

/-! ## Inside a class

How many brackets are open is counted down to zero and no further, so a text
that closes more of them than it has opened may pass at one depth and not at
another. The depth is a parameter of what passes. -/

/-- **A text passes:** no class ends in it, and it closes the brackets that it
opens. -/
def Passes (depth : Nat) (s : String) : Prop :=
  ∀ rest, afterClass depth (s.toList ++ rest) = afterClass depth rest

variable {depth : Nat} {s t : String}

theorem passes_empty : Passes depth "" := fun _ => rfl

theorem Passes.append (hs : Passes depth s) (ht : Passes depth t) : Passes depth (s ++ t) := by
  intro rest
  rw [String.toList_append, List.append_assoc, hs, ht]

theorem passes_join {texts : List String} (h : ∀ s ∈ texts, Passes depth s) :
    Passes depth (String.join texts) := by
  induction texts with
  | nil => exact passes_empty
  | cons s texts ih =>
    rw [String.join_cons]
    exact (h s List.mem_cons_self).append (ih fun t ht => h t (List.mem_cons_of_mem _ ht))

/-- A text that has neither brackets nor semicolons passes. -/
theorem passes_of_notMem (h : ∀ c ∈ s.toList, c ≠ '<' ∧ c ≠ '>' ∧ c ≠ ';') : Passes depth s := by
  intro rest
  generalize s.toList = text at h ⊢
  induction text with
  | nil => rfl
  | cons c cs ih =>
    obtain ⟨hopen, hclose, hend⟩ := h c List.mem_cons_self
    have hcs := ih fun d hd => h d (List.mem_cons_of_mem _ hd)
    rw [List.cons_append, ← hcs]
    cases depth with
    | zero => simp [afterClass, hend]
    | succ n => simp [afterClass]

/-- A path passes, for the separators are of no account. -/
theorem passes_path {separator : Char} (h : IsPath separator s.toList)
    (hs : separator ≠ '<' ∧ separator ≠ '>' ∧ separator ≠ ';') : Passes depth s := by
  refine passes_of_notMem fun c hc => ?_
  rcases h.eq_or_notMem hc with rfl | hc
  · exact hs
  · refine ⟨?_, ?_, ?_⟩
    all_goals
      rintro rfl
      exact hc (by decide)

theorem passes_identifier (h : IsIdentifier s.toList) : Passes depth s :=
  passes_path (h.isPath (show '/' ∈ reserved by decide)) (by decide)

/-- **Brackets take what passes one level further down.** -/
theorem passes_angled {texts : List String} (h : ∀ s ∈ texts, Passes (depth + 1) s) :
    Passes depth (angled texts) := by
  unfold angled
  split
  · exact passes_empty
  · intro rest
    rw [String.toList_append, String.toList_append, List.append_assoc, List.append_assoc]
    show afterClass (depth + 1) ((String.join texts).toList ++ _) = _
    rw [passes_join h]
    rfl

/-! ## Texts that end by themselves

A text of this kind is never a proper beginning of another one, since
`afterType` finds its end without knowing what follows. -/

/-- **A text that ends by itself** is taken for a type as a whole, whatever
follows it. -/
def EndsItself (s : String) : Prop := ∀ rest, afterType (s.toList ++ rest) = some rest

/-- Something in front of a type belongs to it. -/
theorem EndsItself.behind (h : EndsItself s) {mark : String}
    (hmark : ∀ rest, afterType (mark.toList ++ rest) = afterType rest) :
    EndsItself (mark ++ s) := by
  intro rest
  rw [String.toList_append, List.append_assoc, hmark, h]

/-- A class ends at its semicolon. -/
theorem Passes.endsItself (h : Passes 0 s) {mark : String}
    (hmark : ∀ rest, afterType (mark.toList ++ rest) = afterClass 0 rest) :
    EndsItself (mark ++ s ++ ";") := by
  intro rest
  rw [String.toList_append, String.toList_append, List.append_assoc, List.append_assoc, hmark, h]
  rfl

/-- The part that ends by itself can be told from what follows it. -/
theorem EndsItself.append_inj {rest rest' : String} (hs : EndsItself s) (ht : EndsItself t)
    (h : s ++ rest = t ++ rest') : s = t ∧ rest = rest' := by
  have hlist : s.toList ++ rest.toList = t.toList ++ rest'.toList := by
    rw [← String.toList_append, ← String.toList_append, h]
  have hrest : rest = rest' := by
    have := hs rest.toList
    rw [hlist, ht] at this
    exact String.toList_injective (Option.some.inj this).symm
  subst hrest
  exact ⟨String.toList_injective (List.append_cancel_right hlist), rfl⟩

/-- **As many texts that end by themselves can be told apart** when they are
joined, and from what follows them. By induction: the first of them ends at
the same place on both sides. -/
theorem join_append_inj {texts texts' : List String} {rest rest' : String}
    (hs : ∀ s ∈ texts, EndsItself s) (ht : ∀ s ∈ texts', EndsItself s)
    (hlength : texts.length = texts'.length)
    (h : String.join texts ++ rest = String.join texts' ++ rest') :
    texts = texts' ∧ rest = rest' := by
  induction texts generalizing texts' with
  | nil =>
    obtain rfl := List.length_eq_zero_iff.mp hlength.symm
    rw [String.join_nil, String.empty_append, String.empty_append] at h
    exact ⟨rfl, h⟩
  | cons s texts ih =>
    obtain ⟨t, texts', rfl⟩ := List.exists_cons_of_length_eq_add_one hlength.symm
    rw [String.join_cons, String.join_cons, String.append_assoc, String.append_assoc] at h
    obtain ⟨rfl, hothers⟩ := (hs s List.mem_cons_self).append_inj (ht t List.mem_cons_self) h
    obtain ⟨rfl, hrest⟩ := ih (fun u hu => hs u (List.mem_cons_of_mem _ hu))
      (fun u hu => ht u (List.mem_cons_of_mem _ hu)) (Nat.succ.inj hlength) hothers
    exact ⟨rfl, hrest⟩

end ClassFile.Signature

namespace ClassFile.Program

open Signature

variable {p : Program}

/-! ## The texts of types

A type ends by itself, and what is in the brackets of a class passes. Each
needs the other where it has an array, a bound or a type argument in it, but
passing is for the inside of brackets only, so that it can be shown first. -/

theorem HasCleanNames.passes_internalName (names : p.HasCleanNames) {depth : Nat} {id : ClassId}
    {name : String} (h : p.internalName id = .ok name) : Passes depth name :=
  passes_path (names.isPath_internalName h) (by decide)

theorem HasCleanNames.passes_simpleName (names : p.HasCleanNames) {depth : Nat} {id : ClassId}
    {c : ClassDeclaration} (h : p.classOf id = .ok c) : Passes depth c.simpleName :=
  passes_identifier (names.simpleName c (mem_of_classOf h))

theorem HasCleanNames.passes_typeParameter (names : p.HasCleanNames) {depth : Nat}
    {id : TypeParameterId} {t : TypeParameter} (h : p.typeParameterOf id = .ok t) :
    Passes depth t.name :=
  passes_identifier (names.typeParameter t (mem_of_typeParameterOf h))

/-- A letter of a type other than the first one of a name is no bracket. -/
theorem passes_letter {depth : Nat} (b : Primitive) : Passes depth b.letter.toString := by
  cases b <;> exact passes_of_notMem (by simp [Primitive.letter])

mutual

/-- **Inside brackets the text of a type passes:** its semicolon does not end
the class around it. -/
theorem HasCleanNames.passes_typeText (names : p.HasCleanNames) (depth : Nat) :
    ∀ (t : JavaType) {s : String}, p.typeText t = .ok s → Passes (depth + 1) s
  | .primitive b, _, h => by
    cases h
    exact passes_letter b
  | .void, _, h => by
    cases h
    exact passes_of_notMem (by simp [voidLetter])
  | .array t, _, h | .wildcardExtends t, _, h | .wildcardSuper t, _, h => by
    rw [typeText] at h
    obtain ⟨s, hs, rfl⟩ := bind_pure_eq_ok h
    exact (passes_of_notMem (by simp)).append (names.passes_typeText depth t hs)
  | .declared ⟨⟨id, arguments, _⟩, outer⟩, _, h => by
    obtain ⟨head, hh, texts, ht, rfl⟩ := typeText_declared_ok h
    obtain ⟨name, rfl, hname⟩ := names.passes_headText (depth + 1) id outer hh
    have hmark : Passes (depth + 1) "L" := passes_of_notMem (by simp)
    have hsemicolon : Passes (depth + 1) ";" := fun _ => rfl
    have harguments := passes_angled (names.passes_argumentTexts (depth + 1) arguments ht)
    exact ((hmark.append hname).append harguments).append hsemicolon
  | .typeVariable id _, _, h => by
    obtain ⟨parameter, hp, rfl⟩ := typeText_typeVariable_ok h
    have hmark : Passes (depth + 1) "T" := passes_of_notMem (by simp)
    have hsemicolon : Passes (depth + 1) ";" := fun _ => rfl
    exact (hmark.append (names.passes_typeParameter hp)).append hsemicolon
  | .wildcard, _, h => by
    cases h
    exact passes_of_notMem (by simp)
  | .intersection _, _, h => by cases h

/-- The texts of type arguments pass inside brackets. -/
theorem HasCleanNames.passes_argumentTexts (names : p.HasCleanNames) (depth : Nat) :
    ∀ (ts : List JavaType) {texts : List String}, p.argumentTexts ts = .ok texts →
      ∀ s ∈ texts, Passes (depth + 1) s
  | [], _, h => by
    cases h
    exact fun s hs => absurd hs List.not_mem_nil
  | t :: ts, _, h => by
    obtain ⟨first, hf, others, ho, rfl⟩ := argumentTexts_cons_ok h
    exact List.forall_mem_cons.mpr
      ⟨names.passes_typeText depth t hf, names.passes_argumentTexts depth ts ho⟩

/-- What stands behind the `L` of a class type passes at any level. -/
theorem HasCleanNames.passes_headText (names : p.HasCleanNames) (depth : Nat) (id : ClassId) :
    ∀ (outer : List ClassPart) {s : String}, p.headText id outer = .ok s →
      ∃ name, s = "L" ++ name ∧ Passes depth name
  | outer, s, h => by
    by_cases hp : outer.any ClassPart.hasArguments = true
    · match outer, hp, h with
      | ⟨outerId, arguments, annotations⟩ :: further, hp, h =>
        obtain ⟨head, hh, texts, ht, c, hc, rfl⟩ := headText_cons_ok hp h
        obtain ⟨name, rfl, hname⟩ := names.passes_headText depth outerId further hh
        have harguments := passes_angled (names.passes_argumentTexts depth arguments ht)
        have hpoint : Passes depth "." := passes_of_notMem (by simp)
        refine ⟨name ++ angled texts ++ "." ++ c.simpleName, ?_, ?_⟩
        · simp only [String.append_assoc]
        · exact ((hname.append harguments).append hpoint).append (names.passes_simpleName hc)
    · rw [headText_plain (Bool.not_eq_true _ ▸ hp)] at h
      obtain ⟨name, hn, rfl⟩ := bind_pure_eq_ok h
      exact ⟨name, rfl, names.passes_internalName hn⟩

end

/-- **The text of a type ends by itself,** whatever the type. -/
theorem HasCleanNames.typeText_ends (names : p.HasCleanNames) :
    ∀ (t : JavaType) {s : String}, p.typeText t = .ok s → EndsItself s
  | .primitive b, _, h => by
    cases h
    cases b <;> exact fun _ => rfl
  | .void, _, h => by
    cases h
    exact fun _ => rfl
  | .array t, _, h | .wildcardExtends t, _, h | .wildcardSuper t, _, h => by
    rw [typeText] at h
    obtain ⟨s, hs, rfl⟩ := bind_pure_eq_ok h
    exact (names.typeText_ends t hs).behind fun _ => rfl
  | .declared ⟨⟨id, arguments, _⟩, outer⟩, _, h => by
    obtain ⟨head, hh, texts, ht, rfl⟩ := typeText_declared_ok h
    obtain ⟨name, rfl, hname⟩ := names.passes_headText 0 id outer hh
    have harguments := passes_angled (names.passes_argumentTexts 0 arguments ht)
    rw [show "L" ++ name ++ angled texts = "L" ++ (name ++ angled texts) from String.append_assoc]
    exact (hname.append harguments).endsItself fun _ => rfl
  | .typeVariable id _, _, h => by
    obtain ⟨parameter, hp, rfl⟩ := typeText_typeVariable_ok h
    exact (names.passes_typeParameter hp).endsItself fun _ => rfl
  | .wildcard, _, h => by
    cases h
    exact fun _ => rfl
  | .intersection _, _, h => by cases h

/-! ## The texts of descriptors

Descriptors have no brackets other than those of arrays and are not read
inside of anything, so only their ends matter. -/

theorem HasCleanNames.elementText_ends (names : p.HasCleanNames) {e : ErasedElement} {s : String}
    (h : p.elementText e = .ok s) : EndsItself s := by
  cases e with
  | primitive b =>
    cases h
    cases b <;> exact fun _ => rfl
  | void =>
    cases h
    exact fun _ => rfl
  | declared id =>
    obtain ⟨name, hn, rfl⟩ := bind_pure_eq_ok h
    exact (names.passes_internalName hn).endsItself fun _ => rfl

theorem HasCleanNames.erasedText_ends (names : p.HasCleanNames) {e : ErasedType} {s : String}
    (h : p.erasedText e = .ok s) : EndsItself s := by
  unfold erasedText at h
  obtain ⟨element, he, rfl⟩ := bind_pure_eq_ok h
  -- the brackets of the layers, one by one
  induction e.layers with
  | zero =>
    rw [List.replicate_zero, String.join_nil, String.empty_append]
    exact names.elementText_ends he
  | succ n ih =>
    rw [List.replicate_succ, String.join_cons, String.append_assoc]
    exact ih.behind fun _ => rfl

/-- **A descriptor ends by itself.** -/
theorem HasCleanNames.descriptorText_ends (names : p.HasCleanNames) :
    ∀ (t : JavaType) {s : String}, p.descriptorText t = .ok s → EndsItself s
  | .primitive b, _, h => by
    cases h
    cases b <;> exact fun _ => rfl
  | .void, _, h => by
    cases h
    exact fun _ => rfl
  | .array c, _, h => by
    rw [descriptorText] at h
    obtain ⟨s, hs, rfl⟩ := bind_pure_eq_ok h
    exact (names.descriptorText_ends c hs).behind fun _ => rfl
  | .declared _, _, h => names.erasedText_ends h
  | .wildcard, _, h | .wildcardExtends _, _, h | .wildcardSuper _, _, h => by cases h
  | .typeVariable _ _, _, h | .intersection _, _, h => by
    rw [descriptorText] at h
    obtain ⟨e, _, h⟩ := bind_eq_ok h
    exact names.erasedText_ends h

end ClassFile.Program
