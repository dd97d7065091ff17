import ClassFile.Proofs.Nesting
import ClassFile.Proofs.Signature.Text

/-!
# Signatures without their type arguments

The signature of a class type and its descriptor find the class in two
different ways. The descriptor asks for the internal name of the innermost
part, which climbs the nesting of the classes; the signature climbs the
enclosing parts of the type, begins with an internal name at one of them and
goes on with simple names. That the two spell the same class is visible once
the type arguments are taken out of the signature: what then remains of it is
the descriptor, with points where the descriptor has dollar signs.

`binaryText?` takes the arguments out. It reads a text by its angle brackets
alone and has no result if these do not pair, so the theorem says as well that
they do.

A type can be written with enclosing parts that have nothing to do with the
nesting of the classes. Then the two texts are about different classes, and so
it is assumed that each part is enclosed in a use of the class that its own
class is nested in (`Program.FollowsNesting`).
-/

namespace ClassFile.Signature

/-! ## Texts and their angle brackets

A text is read in front of any other, with as many brackets open as there may
be, so that what is said of the parts of a signature can be put together. -/

/-- What stands outside angle brackets in a text, where `depth` brackets are
open in front of it. There must be as many to close. -/
def outsideBrackets? : Nat → List Char → Option (List Char)
  | 0, [] => some []
  | _ + 1, [] => none
  | depth, '<' :: cs => outsideBrackets? (depth + 1) cs
  | 0, '>' :: _ => none
  | depth + 1, '>' :: cs => outsideBrackets? depth cs
  | 0, c :: cs => (outsideBrackets? 0 cs).map (c :: ·)
  | depth + 1, _ :: cs => outsideBrackets? (depth + 1) cs

/-- The character of a descriptor for one of a signature: a class inside
another one is set off by a dollar sign. -/
def binaryCharacter (c : Char) : Char := if c = '.' then '$' else c

/-- **A signature without its type arguments:** every block of angle brackets
is deleted with all that is in it, and every point that is left becomes a
dollar sign. There is no result if the brackets do not pair. -/
def binaryText? (s : String) : Option String :=
  (outsideBrackets? 0 s.toList).map fun cs => String.ofList (cs.map binaryCharacter)

example : binaryText? "[La/B<TX;*>.C<La/D<*>.E;>;" = some "[La/B$C;" := by decide

variable {s t kept kept' : String}

/-- A text has none of some characters. -/
def Lacks (s : String) (characters : List Char) : Prop := ∀ c ∈ s.toList, c ∉ characters

instance (characters : List Char) : DecidablePred (Lacks · characters) :=
  fun s => List.decidableBAll (· ∉ characters) s.toList

/-- The characters that pair. -/
def brackets : List Char := ['<', '>']

theorem Lacks.ofPoint (h : Lacks s ('.' :: brackets)) : Lacks s brackets :=
  fun c hc hb => h c hc (List.mem_cons_of_mem _ hb)

/-- **A text that vanishes** between brackets: it closes those it opens, and
no others. It makes no difference to what is read behind it, as long as a
bracket is open. -/
def Vanishes (s : String) : Prop :=
  ∀ depth rest,
    outsideBrackets? (depth + 1) (s.toList ++ rest) = outsideBrackets? (depth + 1) rest

/-- **What stays of a text** outside all brackets, as a descriptor has it.
Behind the text the reading goes on where no bracket is open. -/
def Stays (s kept : String) : Prop :=
  ∀ rest, (outsideBrackets? 0 (s.toList ++ rest)).map (List.map binaryCharacter)
    = ((outsideBrackets? 0 rest).map (List.map binaryCharacter)).map (kept.toList ++ ·)

theorem vanishes_empty : Vanishes "" := fun _ _ => rfl

theorem Vanishes.append (hs : Vanishes s) (ht : Vanishes t) : Vanishes (s ++ t) := by
  intro depth rest
  rw [String.toList_append, List.append_assoc, hs, ht]

theorem vanishes_join {texts : List String} (h : ∀ s ∈ texts, Vanishes s) :
    Vanishes (String.join texts) := by
  induction texts with
  | nil => exact vanishes_empty
  | cons s texts ih =>
    rw [String.join_cons]
    exact (h s List.mem_cons_self).append (ih fun t ht => h t (List.mem_cons_of_mem _ ht))

/-- A text without brackets vanishes. -/
theorem Lacks.vanishes (h : Lacks s brackets) : Vanishes s := by
  intro depth rest
  unfold Lacks at h
  generalize s.toList = text at h ⊢
  induction text with
  | nil => rfl
  | cons c cs ih =>
    have hc : ¬ (c = '<' ∨ c = '>') := by simpa [brackets] using h c List.mem_cons_self
    obtain ⟨hopen, hclose⟩ := not_or.mp hc
    rw [← ih fun d hd => h d (List.mem_cons_of_mem _ hd)]
    simp [outsideBrackets?]

/-- A block in brackets vanishes inside others. -/
theorem vanishes_angled {texts : List String} (h : ∀ s ∈ texts, Vanishes s) :
    Vanishes (angled texts) := by
  unfold angled
  split
  · exact vanishes_empty
  · intro depth rest
    rw [String.toList_append, String.toList_append, List.append_assoc, List.append_assoc]
    show outsideBrackets? (depth + 2) ((String.join texts).toList ++ _) = _
    rw [vanishes_join h]
    rfl

theorem Stays.append (hs : Stays s kept) (ht : Stays t kept') : Stays (s ++ t) (kept ++ kept') := by
  intro rest
  rw [String.toList_append, List.append_assoc, hs, ht, Option.map_map, String.toList_append]
  refine congrArg (fun f => Option.map f _) (funext fun cs => ?_)
  exact (List.append_assoc _ _ _).symm

/-- A text without brackets and points stays as it is. -/
theorem Lacks.stays (h : Lacks s ('.' :: brackets)) : Stays s s := by
  intro rest
  unfold Lacks at h
  generalize s.toList = text at h ⊢
  induction text with
  | nil => exact (congrFun Option.map_id _).symm
  | cons c cs ih =>
    have hmem : ¬ (c = '.' ∨ c = '<' ∨ c = '>') := by
      simpa [brackets] using h c List.mem_cons_self
    obtain ⟨hpoint, hbrackets⟩ := not_or.mp hmem
    have hcs := ih fun d hd => h d (List.mem_cons_of_mem _ hd)
    have hc : binaryCharacter c = c := if_neg hpoint
    -- neither point nor bracket, the character is kept as it is
    have hread : outsideBrackets? 0 (c :: (cs ++ rest))
        = (outsideBrackets? 0 (cs ++ rest)).map (c :: ·) := by
      obtain ⟨hopen, hclose⟩ := not_or.mp hbrackets
      simp [outsideBrackets?]
    rw [List.cons_append, hread, Option.map_map]
    calc (outsideBrackets? 0 (cs ++ rest)).map (List.map binaryCharacter ∘ (c :: ·))
        = ((outsideBrackets? 0 (cs ++ rest)).map (List.map binaryCharacter)).map (c :: ·) := by
          rw [Option.map_map]
          refine congrArg (fun f => Option.map f _) (funext fun ds => ?_)
          exact congrArg (· :: ds.map binaryCharacter) hc
      _ = _ := by
          rw [hcs, Option.map_map]
          rfl

/-- A point becomes a dollar sign. -/
theorem stays_point : Stays "." "$" := by
  intro rest
  show (outsideBrackets? 0 ('.' :: rest)).map _ = _
  have hread : outsideBrackets? 0 ('.' :: rest) = (outsideBrackets? 0 rest).map ('.' :: ·) := by
    simp [outsideBrackets?]
  rw [hread, Option.map_map, Option.map_map]
  rfl

/-- **Of a block in brackets nothing stays.** -/
theorem stays_angled {texts : List String} (h : ∀ s ∈ texts, Vanishes s) :
    Stays (angled texts) "" := by
  intro rest
  have hblock : outsideBrackets? 0 ((angled texts).toList ++ rest) = outsideBrackets? 0 rest := by
    unfold angled
    split
    · rfl
    · rw [String.toList_append, String.toList_append, List.append_assoc, List.append_assoc]
      show outsideBrackets? 1 ((String.join texts).toList ++ _) = _
      rw [vanishes_join h]
      rfl
  rw [hblock]
  exact (congrFun Option.map_id _).symm

theorem Stays.binaryText?_eq (h : Stays s kept) : binaryText? s = some kept := by
  have hs := h []
  rw [List.append_nil] at hs
  unfold binaryText?
  rw [show (fun cs => String.ofList (cs.map binaryCharacter))
      = String.ofList ∘ List.map binaryCharacter from rfl, ← Option.map_map, hs]
  show some (String.ofList (kept.toList ++ [])) = some kept
  rw [List.append_nil, String.ofList_toList]

end ClassFile.Signature

namespace ClassFile

open Signature

/-! ## Programs whose names have no brackets

A bracket in a name would be taken for one of the signature, and a point in
the name of a class for the start of an inner class. Packages may have points,
for these are slashes in an internal name. -/

/-- **A program without brackets in its names,** and without points in those
of its classes. The points of a package separate its segments. -/
structure Program.HasBracketFreeNames (p : Program) : Prop where
  simpleName : ∀ c ∈ p.classes, Lacks c.simpleName ('.' :: brackets)
  package : ∀ c ∈ p.classes, Lacks c.package brackets
  typeParameter : ∀ t ∈ p.typeParameters, Lacks t.name brackets

/-- **What an internal name consists of:** separators, simple names, and the
package without its points. -/
theorem mem_spell_internal {chain : List ClassDeclaration} {x : Char}
    (h : x ∈ (NameStyle.internal.spell chain).toList) :
    x = '/' ∨ x = '$' ∨ (∃ c ∈ chain, x ∈ c.simpleName.toList)
      ∨ ∃ c ∈ chain, x ∈ c.package.toList ∧ x ≠ '.' := by
  have hnames : x ∈ ("$".intercalate (chain.map (·.simpleName))).toList →
      x = '$' ∨ ∃ c ∈ chain, x ∈ c.simpleName.toList := by
    intro hx
    rw [toList_intercalate_simpleNames] at hx
    rcases mem_intercalate hx with hx | ⟨part, hpart, hx⟩
    · exact .inl (List.mem_singleton.mp hx)
    · obtain ⟨c, hc, rfl⟩ := List.mem_map.mp hpart
      exact .inr ⟨c, hc, hx⟩
  cases chain with
  | nil =>
    have hempty : x ∈ ("" : String).toList := h
    exact absurd hempty List.not_mem_nil
  | cons outermost inner =>
    rw [NameStyle.spell_internal_cons] at h
    split at h
    · rw [String.empty_append] at h
      exact .inr ((hnames h).imp_right .inl)
    · simp only [String.toList_append, List.mem_append, String.toList_map, List.mem_map] at h
      rcases h with (⟨y, hy, rfl⟩ | hx) | hx
      · split
        · exact .inl rfl
        · next hpoint => exact .inr (.inr (.inr ⟨outermost, List.mem_cons_self, hy, hpoint⟩))
      · exact .inl (List.mem_singleton.mp hx)
      · exact .inr ((hnames hx).imp_right .inl)

namespace Program

variable {p : Program}

/-- **Internal names have neither points nor brackets.** -/
theorem HasBracketFreeNames.internalName (names : p.HasBracketFreeNames) {id : ClassId}
    {name : String} (h : p.internalName id = .ok name) : Lacks name ('.' :: brackets) := by
  obtain ⟨chain, hchain, rfl⟩ := map_eq_ok h
  have hmem := (mem_of_nesting hchain).2
  intro x hx
  rcases mem_spell_internal hx with rfl | rfl | ⟨c, hc, hx⟩ | ⟨c, hc, hx, hpoint⟩
  · decide
  · decide
  · exact names.simpleName c (hmem c hc) x hx
  · exact fun hb => (List.mem_cons.mp hb).elim hpoint (names.package c (hmem c hc) x hx)

/-! ## Inside brackets

Whatever a type argument is, its text vanishes: all brackets in it are those
of its own type arguments. Nothing is asked of the argument for that, so it
need not follow any nesting. -/

mutual

/-- **The text of a type vanishes between brackets,** by recursion on the
type. -/
theorem HasBracketFreeNames.vanishes_typeText (names : p.HasBracketFreeNames) :
    ∀ (t : JavaType) {s : String}, p.typeText t = .ok s → Vanishes s
  | .primitive b, _, h => by
    cases h
    cases b <;> exact Lacks.vanishes (by decide)
  | .void, _, h => by
    cases h
    exact Lacks.vanishes (by decide)
  | .array t, _, h | .wildcardExtends t, _, h | .wildcardSuper t, _, h => by
    rw [typeText] at h
    obtain ⟨s, hs, rfl⟩ := bind_pure_eq_ok h
    exact (Lacks.vanishes (by decide)).append (names.vanishes_typeText t hs)
  | .declared ⟨⟨id, arguments, _⟩, outer⟩, _, h => by
    obtain ⟨head, hh, texts, ht, rfl⟩ := typeText_declared_ok h
    have hhead := names.vanishes_headText id outer hh
    have harguments := vanishes_angled (names.vanishes_argumentTexts arguments ht)
    exact (hhead.append harguments).append (Lacks.vanishes (by decide))
  | .typeVariable id _, _, h => by
    obtain ⟨parameter, hp, rfl⟩ := typeText_typeVariable_ok h
    have hname := (names.typeParameter parameter (mem_of_typeParameterOf hp)).vanishes
    have hmark : Vanishes "T" := Lacks.vanishes (by decide)
    exact (hmark.append hname).append (Lacks.vanishes (by decide))
  | .wildcard, _, h => by
    cases h
    exact Lacks.vanishes (by decide)
  | .intersection _, _, h => by cases h

/-- So do the texts of type arguments. -/
theorem HasBracketFreeNames.vanishes_argumentTexts (names : p.HasBracketFreeNames) :
    ∀ (ts : List JavaType) {texts : List String}, p.argumentTexts ts = .ok texts →
      ∀ s ∈ texts, Vanishes s
  | [], _, h => by
    cases h
    exact fun s hs => absurd hs List.not_mem_nil
  | t :: ts, _, h => by
    obtain ⟨first, hf, others, ho, rfl⟩ := argumentTexts_cons_ok h
    exact List.forall_mem_cons.mpr
      ⟨names.vanishes_typeText t hf, names.vanishes_argumentTexts ts ho⟩

/-- So does what stands in front of the type arguments of a class. -/
theorem HasBracketFreeNames.vanishes_headText (names : p.HasBracketFreeNames) (id : ClassId) :
    ∀ (outer : List ClassPart) {s : String}, p.headText id outer = .ok s → Vanishes s
  | outer, s, h => by
    by_cases hp : outer.any ClassPart.hasArguments = true
    · match outer, hp, h with
      | ⟨outerId, arguments, annotations⟩ :: further, hp, h =>
        obtain ⟨head, hh, texts, ht, c, hc, rfl⟩ := headText_cons_ok hp h
        have hhead := names.vanishes_headText outerId further hh
        have harguments := vanishes_angled (names.vanishes_argumentTexts arguments ht)
        have hpoint : Vanishes "." := Lacks.vanishes (by decide)
        exact ((hhead.append harguments).append hpoint).append
          (names.simpleName c (mem_of_classOf hc)).ofPoint.vanishes
    · rw [headText_plain (Bool.not_eq_true _ ▸ hp)] at h
      obtain ⟨name, hn, rfl⟩ := bind_pure_eq_ok h
      have hmark : Vanishes "L" := Lacks.vanishes (by decide)
      exact hmark.append (names.internalName hn).ofPoint.vanishes

end

/-! ## Outside brackets

A class type begins with the internal name of the outermost enclosing part
that has arguments, or with that of the class if none has. Where each part
lies in the one around it, the simple names that follow continue the internal
name. -/

/-- A part of a class type lies in another one: it uses a class that is nested
in the class the other one uses. Its arguments are of no concern. -/
def LiesIn (p : Program) (part outer : ClassPart) : Prop :=
  ∃ c, p.classOf part.id = .ok c ∧ c.enclosing = some outer.id

/-- **A class type follows the nesting of the classes:** every part of it that
is enclosed in another one lies in that one. -/
def FollowsNesting (p : Program) (t : ClassType) : Prop := t.parts.IsChain p.LiesIn

/-- **What stays of the front of a class type is the internal name of the
class,** by recursion outwards over the parts around it. -/
theorem HasBracketFreeNames.stays_headText (names : p.HasBracketFreeNames) :
    ∀ (part : ClassPart) (outer : List ClassPart) {s : String},
      (part :: outer).IsChain p.LiesIn → p.headText part.id outer = .ok s →
      ∃ name, p.internalName part.id = .ok name ∧ Stays s ("L" ++ name)
  | part, outer, s, hchain, h => by
    by_cases hp : outer.any ClassPart.hasArguments = true
    · match outer, hp, h with
      | around :: further, hp, h =>
        obtain ⟨head, hh, texts, ht, c, hc, rfl⟩ := headText_cons_ok hp h
        obtain ⟨⟨c', hc', henclosing⟩, hfurther⟩ := List.isChain_cons_cons.mp hchain
        obtain rfl : c = c' := Except.ok.inj (hc.symm.trans hc')
        obtain ⟨name, hname, hstays⟩ := names.stays_headText around further hfurther hh
        have harguments := stays_angled (names.vanishes_argumentTexts around.arguments ht)
        have hsimple := (names.simpleName c (mem_of_classOf hc)).stays
        refine ⟨name ++ "$" ++ c.simpleName, nameOf_of_enclosing hc henclosing hname, ?_⟩
        have hall := ((hstays.append harguments).append stays_point).append hsimple
        simpa only [String.append_empty, String.append_assoc] using hall
    · rw [headText_plain (Bool.not_eq_true _ ▸ hp)] at h
      obtain ⟨name, hn, rfl⟩ := bind_pure_eq_ok h
      have hmark : Stays "L" "L" := Lacks.stays (by decide)
      exact ⟨name, hn, hmark.append (names.internalName hn).stays⟩

/-- The descriptor of a class is its internal name. -/
theorem descriptorText_declared (t : ClassType) :
    p.descriptorText (.declared t) = do return "L" ++ (← p.internalName t.id) ++ ";" := by
  rw [descriptorText]
  unfold erasedText elementText
  dsimp only
  cases p.internalName t.id with
  | error e => rfl
  | ok name =>
    show Except.ok ("" ++ ("L" ++ name ++ ";")) = Except.ok ("L" ++ name ++ ";")
    rw [String.empty_append]

/-- **What stays of a class type is its descriptor.** -/
theorem HasBracketFreeNames.stays_typeText (names : p.HasBracketFreeNames) {t : ClassType}
    {s : String} (h : p.FollowsNesting t) (hs : p.typeText (.declared t) = .ok s) :
    ∃ d, p.descriptorText (.declared t) = .ok d ∧ Stays s d := by
  obtain ⟨⟨id, arguments, annotations⟩, outer⟩ := t
  obtain ⟨head, hh, texts, ht, rfl⟩ := typeText_declared_ok hs
  obtain ⟨name, hname, hstays⟩ := names.stays_headText ⟨id, arguments, annotations⟩ outer h hh
  refine ⟨"L" ++ name ++ ";", ?_, ?_⟩
  · rw [descriptorText_declared]
    exact congrArg (fun x => x >>= _) hname
  · have harguments := stays_angled (names.vanishes_argumentTexts arguments ht)
    have hall := (hstays.append harguments).append (show Stays ";" ";" from Lacks.stays (by decide))
    rwa [String.append_empty] at hall

/-- Array brackets stay. -/
theorem HasBracketFreeNames.stays_arrays (names : p.HasBracketFreeNames) {t : ClassType}
    (h : p.FollowsNesting t) (layers : Nat) {s : String}
    (hs : p.typeText ((JavaType.declared t).arrays layers) = .ok s) :
    ∃ d, p.descriptorText ((JavaType.declared t).arrays layers) = .ok d ∧ Stays s d := by
  induction layers generalizing s with
  | zero => exact names.stays_typeText h hs
  | succ n ih =>
    rw [JavaType.arrays, typeText] at hs
    obtain ⟨u, hu, rfl⟩ := bind_pure_eq_ok hs
    obtain ⟨d, hd, hstays⟩ := ih hu
    refine ⟨"[" ++ d, ?_, (show Stays "[" "[" from Lacks.stays (by decide)).append hstays⟩
    rw [JavaType.arrays, descriptorText, hd]
    rfl

/-! ## Signatures and descriptors -/

/-- **Signature and descriptor of a class type name the same class.** Under
arrays or not, with type arguments on whichever levels: where the type follows
the nesting of the classes and has a signature, it has a descriptor, and this
is the signature without its type arguments. -/
theorem typeDescriptor_of_typeSignature (names : p.HasBracketFreeNames) (t : ClassType)
    (h : p.FollowsNesting t) (layers : Nat) (s : String)
    (hs : p.typeSignature ((JavaType.declared t).arrays layers) = .ok s) :
    ∃ d, p.typeDescriptor ((JavaType.declared t).arrays layers) = .ok d
      ∧ Signature.binaryText? s = some d := by
  rw [p.typeSignature_eq] at hs
  obtain ⟨d, hd, hstays⟩ := names.stays_arrays h layers hs
  exact ⟨d, (p.typeDescriptor_eq _).trans hd, hstays.binaryText?_eq⟩

/-- Four levels of which the outermost but one and the innermost have
arguments, one of them a class type with arguments of its own. -/
theorem typeDescriptor_of_typeSignature_levels :
    let nested (outer : Nat) (name : String) : ClassDeclaration :=
      { ClassDeclaration.bare .ordinary "" name with enclosing := some ⟨outer⟩ }
    let p : Program :=
      { classes := Program.initial.classes ++
          #[.bare .ordinary "a.b" "A", nested 6 "B", nested 7 "C", nested 8 "D"]
        typeParameters := #[⟨"X", .declared (.plain .object), none, []⟩] }
    let b : ClassPart := ⟨⟨7⟩, [.wildcardSuper (.typeVariable ⟨0⟩ [])], []⟩
    let t : ClassType :=
      ⟨⟨⟨9⟩, [.declared ⟨⟨⟨8⟩, [], []⟩, [b]⟩], []⟩, [.plain ⟨8⟩, b, .plain ⟨6⟩]⟩
    let s := "[La/b/A$B<-TX;>.C.D<La/b/A$B<-TX;>.C;>;"
    p.HasBracketFreeNames ∧ p.FollowsNesting t
      ∧ p.typeSignature ((JavaType.declared t).arrays 1) = .ok s
      ∧ p.typeDescriptor ((JavaType.declared t).arrays 1) = .ok "[La/b/A$B$C$D;"
      ∧ Signature.binaryText? s = some "[La/b/A$B$C$D;" := by
  intro nested p b t s
  have names : p.HasBracketFreeNames := ⟨by decide, by decide, by decide⟩
  have hnesting : p.FollowsNesting t :=
    .cons_cons ⟨_, rfl, rfl⟩ (.cons_cons ⟨_, rfl, rfl⟩ (.cons_cons ⟨_, rfl, rfl⟩ (.singleton _)))
  have hs : p.typeSignature ((JavaType.declared t).arrays 1) = .ok s := by decide +kernel
  have hd : p.typeDescriptor ((JavaType.declared t).arrays 1) = .ok "[La/b/A$B$C$D;" := by
    decide +kernel
  obtain ⟨d, hd', hbinary⟩ := typeDescriptor_of_typeSignature names t hnesting 1 s hs
  cases Except.ok.inj (hd.symm.trans hd')
  exact ⟨names, hnesting, hs, hd, hbinary⟩

end Program

end ClassFile
