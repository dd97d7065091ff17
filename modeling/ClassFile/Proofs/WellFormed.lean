import ClassFile.Program.Erasure
import ClassFile.Proofs.Nesting

/-!
# Well-formed programs

Nothing is checked when a declaration is added to a program, and so whoever
follows its handles may find that one names nothing, that a class lies within
itself or that bounds run in a circle, that a type stands where it has no
meaning. A program in which nothing of this kind is to be found is well-formed
(`Program.IsWellFormed`).

Most of it is a matter of looking at each declaration by itself, at all that is
mentioned in it down to the annotations on the annotations' types. This is
computed: a program *admits* a type if its handles name something and if
wildcards occur in it only as type arguments and intersections not at all. That
chains of classes and of bounds end is a matter of the whole program, and is said
with relations.

What follows here is that in a well-formed program every class has its names and
every type its erasure. Both are found by going on until the way ends, and that it
ends is not obvious from how far one goes. A climb that has run out of steps would
have led to a class that lies within itself
(`Program.IsWellFormed.nesting_succeeds`). Erasure would have to meet a type
parameter that is no longer among those that it may meet, and these always include
all to which bounds lead from where it is
(`Program.IsWellFormed.erasureAmong_succeeds`).
-/

namespace ClassFile

/-- The type parameter at which a way to the left ends, if it ends at one. -/
def Leftmost.parameter? : Leftmost → Option TypeParameterId
  | .typeVariable id => some id
  | .erased _ | .declared _ => none

/-- A recursion that asks the same of each item of a list asks it of all. The
functions below recurse on lists by themselves, since they are mutual with
those on the items. -/
theorem forall_mem_iff {α : Type} {f : List α → Bool} {g : α → Bool} (hnil : f [] = true)
    (hcons : ∀ x xs, f (x :: xs) = (g x && f xs)) (l : List α) :
    f l = true ↔ ∀ x ∈ l, g x = true := by
  induction l with
  | nil => exact ⟨fun _ _ h => absurd h List.not_mem_nil, fun _ => hnil⟩
  | cons x xs ih => rw [hcons, Bool.and_eq_true, ih, List.forall_mem_cons]

namespace Program

variable {p : Program}

/-! ## What a program admits

Whether something is admitted is computed by recursion on it, and handles are
not followed: they are only asked to name something. So annotations on
annotation types are no matter of the types that bear them, and there is no
danger of running in a circle. -/

/-- Whether a handle names a class. -/
def knows (p : Program) (id : ClassId) : Bool := id.index < p.classes.size

/-- Whether a handle names a type parameter. -/
def knowsParameter (p : Program) (id : TypeParameterId) : Bool :=
  id.index < p.typeParameters.size

mutual

/-- **Whether a type may stand by itself, or as a type argument.** Everything that
it mentions is known, wildcards are type arguments or nowhere, their bounds stand
by themselves, and there is no intersection. -/
def admits (p : Program) (asArgument : Bool) : JavaType → Bool
  | .primitive _ | .void => true
  | .array c => p.admits false c
  | .declared ⟨part, outer⟩ => p.admitsPart part && p.admitsParts outer
  | .typeVariable id annotations => p.knowsParameter id && p.admitsGroup annotations
  | .wildcard => asArgument
  | .wildcardExtends bound | .wildcardSuper bound => asArgument && p.admits false bound
  | .intersection _ => false

/-- Type arguments. -/
def admitsArguments (p : Program) : List JavaType → Bool
  | [] => true
  | t :: ts => p.admits true t && p.admitsArguments ts

/-- One level of a class type. -/
def admitsPart (p : Program) : ClassPart → Bool
  | ⟨id, arguments, annotations⟩ =>
    p.knows id && p.admitsArguments arguments && p.admitsGroup annotations

/-- The levels around one. -/
def admitsParts (p : Program) : List ClassPart → Bool
  | [] => true
  | part :: parts => p.admitsPart part && p.admitsParts parts

/-- Annotations, down to the types in their values. -/
def admitsGroup (p : Program) : List Annotation → Bool
  | [] => true
  | a :: group => p.admitsInGroup a && p.admitsGroup group

/-- One annotation of a group. -/
def admitsInGroup (p : Program) : Annotation → Bool
  | ⟨⟨part, outer⟩, elements⟩ =>
    p.admitsPart part && p.admitsParts outer && p.admitsElements elements

/-- Named values. -/
def admitsElements (p : Program) : List Element → Bool
  | [] => true
  | ⟨_, value⟩ :: elements => p.admitsValue value && p.admitsElements elements

/-- A value: a class literal is a type that stands by itself. -/
def admitsValue (p : Program) : ElementValue → Bool
  | .constant _ | .primitiveArray _ => true
  | .classLiteral t => p.admits false t
  | .enumConstant id _ => p.knows id
  | .nested a => p.admitsInGroup a
  | .array values => p.admitsValues values

/-- The values of an array. -/
def admitsValues (p : Program) : List ElementValue → Bool
  | [] => true
  | value :: values => p.admitsValue value && p.admitsValues values

end

/-- A field and its type. -/
def admitsField (p : Program) (f : FieldDeclaration) : Bool :=
  p.admits false f.type && p.admitsGroup f.annotations

/-- A parameter of a method and its type. -/
def admitsParameter (p : Program) (q : Parameter) : Bool :=
  p.admits false q.type && p.admitsGroup q.annotations

/-- A method and all types in it. -/
def admitsMethod (p : Program) (m : MethodDeclaration) : Bool :=
  m.typeParameters.all p.knowsParameter && m.parameters.all p.admitsParameter
    && p.admits false m.result && m.thrown.all (p.admits false) && p.admitsGroup m.annotations

/-- A member; a nested class is known. -/
def admitsMember (p : Program) : Member → Bool
  | .field f => p.admitsField f
  | .method m => p.admitsMethod m
  | .nested id => p.knows id

/-- **Whether all that a class mentions is admitted.** -/
def admitsDeclaration (p : Program) (c : ClassDeclaration) : Bool :=
  c.enclosing.all p.knows && c.typeParameters.all p.knowsParameter
    && c.supertypes.all (fun t => p.admits false (.declared t)) && p.admitsGroup c.annotations
    && c.members.all p.admitsMember

/-- **Whether all that a type parameter mentions is admitted.** Its bounds are those
of an intersection, if that is its upper bound, and it has no lower bound. -/
def admitsTypeParameter (p : Program) (t : TypeParameter) : Bool :=
  t.bounds.all (p.admits false) && t.lowerBound.isNone && p.admitsGroup t.annotations

/-! ## Chains

From a class one goes to the class around it, and from a type parameter to the
one in its bound, any number of times. What is asked of these chains is to run
in no circle; that they end follows, as there are only so many handles. -/

/-- The way to the left in the bound of a type parameter ends at another one.
Only this one can be met when a type is erased; the other bounds and the type
arguments may mention what they like. -/
def LeadsTo (p : Program) (id next : TypeParameterId) : Prop :=
  ∃ t, p.typeParameterOf id = .ok t ∧ t.upperBound.leftmost.2 = .typeVariable next

/-- **A well-formed program.** -/
structure IsWellFormed (p : Program) : Prop where
  /-- The classes of the language are there, as they always are. -/
  language : Program.initial.classes.size ≤ p.classes.size
  classes : ∀ c ∈ p.classes, p.admitsDeclaration c
  typeParameters : ∀ t ∈ p.typeParameters, p.admitsTypeParameter t
  /-- No class lies within itself. -/
  nesting : ∀ id, ¬ Relation.TransGen p.NestedIn id id
  /-- No bounds run in a circle. -/
  bounds : ∀ id, ¬ Relation.TransGen p.LeadsTo id id
  /-- What a thrown type erases to is a class. -/
  thrown : ∀ c ∈ p.classes, ∀ m ∈ c.methods, ∀ t ∈ m.thrown, ∀ e, p.erasure t = .ok e →
    ∃ id, e = ⟨0, .declared id⟩

/-! ## Known handles -/

theorem classOf_succeeds {id : ClassId} (h : p.knows id = true) : Succeeds (p.classOf id) :=
  ⟨_, classOf_of_lt (of_decide_eq_true h)⟩

theorem knows_of_classOf {id : ClassId} {c : ClassDeclaration} (h : p.classOf id = .ok c) :
    p.knows id = true := decide_eq_true (index_lt_of_classOf h)

theorem typeParameterOf_succeeds {id : TypeParameterId} (h : p.knowsParameter id = true) :
    Succeeds (p.typeParameterOf id) := ⟨_, typeParameterOf_of_lt (of_decide_eq_true h)⟩

/-- A handle that names no class is not found. -/
theorem classOf_of_not_knows {id : ClassId} (h : p.knows id = false) :
    p.classOf id = .error (.unresolvedClass id) := by
  cases hc : p.classOf id with
  | error e => rw [eq_unresolved_of_classOf hc]
  | ok c => exact absurd (knows_of_classOf hc) (ne_true_of_eq_false h)

theorem not_knows_of_classOf {id : ClassId} {e : Error} (h : p.classOf id = .error e) :
    p.knows id = false := by
  refine eq_false_of_ne_true fun hknown => ?_
  obtain ⟨c, hc⟩ := classOf_succeeds hknown
  rw [hc] at h
  cases h

/-- A handle that names no type parameter is not found. -/
theorem typeParameterOf_of_not_knows {id : TypeParameterId} (h : p.knowsParameter id = false) :
    p.typeParameterOf id = .error (.unresolvedTypeParameter id) := by
  cases ht : p.typeParameterOf id with
  | error e => rw [eq_unresolved_of_typeParameterOf ht]
  | ok t =>
    exact absurd (decide_eq_true (index_lt_of_typeParameterOf ht)) (ne_true_of_eq_false h)

theorem not_knows_of_typeParameterOf {id : TypeParameterId} {e : Error}
    (h : p.typeParameterOf id = .error e) : p.knowsParameter id = false := by
  refine eq_false_of_ne_true fun hknown => ?_
  obtain ⟨t, ht⟩ := typeParameterOf_succeeds hknown
  rw [ht] at h
  cases h

/-! ## Chains that end

How a program is built up usually shows that it has no circles: a class is
added after the one that it lies in, and a type parameter after those in its
bound. That is checked by looking at each declaration once. -/

/-- A relation that goes down in rank runs in no circle. -/
theorem not_transGen_self {α : Type} {r : α → α → Prop} (rank : α → Nat)
    (h : ∀ a b, r a b → rank b < rank a) (a : α) : ¬ Relation.TransGen r a a := by
  have hdown : ∀ {b}, Relation.TransGen r a b → rank b < rank a := by
    intro b hb
    induction hb with
    | single hstep => exact h _ _ hstep
    | tail _ hstep ih => exact Nat.lt_trans (h _ _ hstep) ih
  exact fun hcircle => Nat.lt_irrefl _ (hdown hcircle)

/-- **Classes that lie in classes added before them** do not lie within
themselves. -/
theorem not_nestedIn_self_of_earlier
    (h : ∀ i : Fin p.classes.size, p.classes[i].enclosing.all (·.index < i.val)) (id : ClassId) :
    ¬ Relation.TransGen p.NestedIn id id := by
  refine not_transGen_self ClassId.index (fun i outer hstep => ?_) id
  obtain ⟨c, hc, ho⟩ := hstep
  have hlt := index_lt_of_classOf hc
  rw [classOf_of_lt hlt] at hc
  cases hc
  have hi : (p.classes[i.index]).enclosing.all (·.index < i.index) = true := h ⟨i.index, hlt⟩
  rw [ho] at hi
  exact of_decide_eq_true hi

/-- **Bounds that lead to type parameters added before** run in no circle. -/
theorem not_leadsTo_self_of_earlier
    (h : ∀ i : Fin p.typeParameters.size,
      p.typeParameters[i].upperBound.leftmost.2.parameter?.all (·.index < i.val))
    (id : TypeParameterId) : ¬ Relation.TransGen p.LeadsTo id id := by
  refine not_transGen_self TypeParameterId.index (fun i next hstep => ?_) id
  obtain ⟨t, ht, hleft⟩ := hstep
  have hlt := index_lt_of_typeParameterOf ht
  rw [typeParameterOf_of_lt hlt] at ht
  cases ht
  have hi : (p.typeParameters[i.index]).upperBound.leftmost.2.parameter?.all
      (·.index < i.index) = true := h ⟨i.index, hlt⟩
  rw [hleft] at hi
  exact of_decide_eq_true hi

/-! ## What is admitted with a type

What is admitted was computed in one go for all that a type consists of. These
lemmas take it apart again. -/

theorem admitsGroup_iff {group : List Annotation} :
    p.admitsGroup group = true ↔ ∀ a ∈ group, p.admitsInGroup a = true :=
  forall_mem_iff rfl (fun _ _ => rfl) group

/-- What is admitted with a level of a class type. -/
theorem of_admitsPart {q : ClassPart} (h : p.admitsPart q = true) :
    (∀ t ∈ q.arguments, p.admits true t = true) ∧ p.admitsGroup q.annotations = true := by
  obtain ⟨id, arguments, annotations⟩ := q
  simp only [admitsPart, Bool.and_eq_true] at h
  exact ⟨(forall_mem_iff rfl (fun _ _ => rfl) arguments).mp h.1.2, h.2⟩

/-- What is admitted with an annotation. -/
theorem of_admitsInGroup {a : Annotation} (h : p.admitsInGroup a = true) :
    p.knows a.type.id = true ∧ p.admitsElements a.elements = true := by
  obtain ⟨⟨⟨id, arguments, annotations⟩, outer⟩, elements⟩ := a
  simp only [admitsInGroup, admitsPart, Bool.and_eq_true] at h
  exact ⟨h.1.1.1.1, h.2⟩

/-- Of a class type that is admitted the class is known. -/
theorem knows_of_admits {asArgument : Bool} {t : ClassType}
    (h : p.admits asArgument (.declared t) = true) : p.knows t.id = true := by
  obtain ⟨⟨id, arguments, annotations⟩, outer⟩ := t
  simp only [admits, admitsPart, Bool.and_eq_true] at h
  exact h.1.1.1

/-- Whether a type is an interface can be found out. -/
theorem isInterface_succeeds {asArgument : Bool} :
    ∀ {t : JavaType}, p.admits asArgument t = true → Succeeds (p.isInterface t)
  | .declared t, h => by
    rw [isInterface]
    exact (classOf_succeeds (knows_of_admits h)).map
  | .primitive _, _ | .void, _ | .array _, _ | .typeVariable _ _, _ | .wildcard, _
  | .wildcardExtends _, _ | .wildcardSuper _, _ => .ok false
  | .intersection _, h => by
    rw [admits] at h
    cases h

/-! ## Climbs

A climb may end for three reasons. In a well-formed program two of them are
out of the question: every handle on the way is known, and running out of
steps is running into a circle. -/

namespace IsWellFormed

theorem knows_language (wf : p.IsWellFormed) {id : ClassId}
    (h : id.index < Program.initial.classes.size) : p.knows id = true :=
  decide_eq_true (Nat.lt_of_lt_of_le h wf.language)

/-- The class around a known one is known. -/
theorem knows_enclosing (wf : p.IsWellFormed) {id outer : ClassId} {c : ClassDeclaration}
    (hc : p.classOf id = .ok c) (ho : c.enclosing = some outer) : p.knows outer = true := by
  have h := wf.classes c (mem_of_classOf hc)
  simp only [admitsDeclaration, Bool.and_eq_true, ho, Option.all_some] at h
  exact h.1.1.1.1

/-- A climb ends or runs out of steps. -/
theorem outwards_succeeds_or (wf : p.IsWellFormed) (n : Nat) {id : ClassId}
    (h : p.knows id = true) :
    Succeeds (p.outwards n id) ∨ p.outwards n id = .error (.unsupported .selfNesting) := by
  induction n generalizing id with
  | zero =>
    obtain ⟨c, hc⟩ := classOf_succeeds h
    exact .inr (outwards_zero_of_known hc)
  | succ n ih =>
    obtain ⟨c, hc⟩ := classOf_succeeds h
    cases ho : c.enclosing with
    | none =>
      left
      simp only [outwards, hc, ho, bind, Except.bind]
      exact .ok [c]
    | some outer =>
      -- the class around is known too, and the climb from there has one step fewer
      rw [outwards_of_enclosing hc ho]
      refine (ih (wf.knows_enclosing hc ho)).imp (fun hs => hs.bind fun _ _ => .ok _)
        fun hself => ?_
      rw [hself]
      rfl

/-- **Every known class lies in a chain of classes that ends.** -/
theorem nesting_succeeds (wf : p.IsWellFormed) {id : ClassId} (h : p.knows id = true) :
    Succeeds (p.nesting id) := by
  refine ((wf.outwards_succeeds_or p.classes.size h).resolve_right fun hself => ?_).map
  obtain ⟨i, _, hcircle⟩ := exists_circle_of_selfNesting hself (Nat.le_refl _)
  exact wf.nesting i hcircle

/-- **Every known class has its names.** -/
theorem nameOf_succeeds (wf : p.IsWellFormed) (style : NameStyle) {id : ClassId}
    (h : p.knows id = true) : Succeeds (p.nameOf style id) := (wf.nesting_succeeds h).map

end IsWellFormed

/-! ## Ways to the left

The way to the left is what is followed to find an erasure. It stops at a type
parameter, if that is what it comes to, and goes on in the bound of it; so it
is first said where it may stop, and then that going on is possible as often
as need be. -/

/-- Whether what an erased type has under its layers is known. -/
def knowsElement (p : Program) : ErasedElement → Bool
  | .primitive _ | .void => true
  | .declared id => p.knows id

/-- Whether the end of a way to the left is known. -/
def knowsEnd (p : Program) : Leftmost → Bool
  | .erased e => p.knowsElement e
  | .declared id => p.knows id
  | .typeVariable id => p.knowsParameter id

/-- **The way to the left inside a type that is admitted** ends at something
known, by recursion on the type. -/
theorem knowsEnd_leftmost (hobject : p.knows .object = true) :
    ∀ {asArgument : Bool} {t : JavaType}, p.admits asArgument t = true →
      p.knowsEnd t.leftmost.2 = true
  | _, .primitive _, _ | _, .void, _ => rfl
  | _, .array c, h => by
    rw [admits] at h
    exact knowsEnd_leftmost hobject (t := c) h
  | _, .declared t, h => knows_of_admits h
  | _, .typeVariable id _, h => by
    rw [admits, Bool.and_eq_true] at h
    exact h.1
  | _, .wildcard, _ | _, .wildcardSuper _, _ => hobject
  | _, .wildcardExtends bound, h => by
    rw [admits, Bool.and_eq_true] at h
    exact knowsEnd_leftmost hobject (t := bound) h.2
  | _, .intersection _, h => by
    rw [admits] at h
    cases h

/-- So does the way inside an intersection whose members are admitted. -/
theorem knowsEnd_leftmost_intersection (hobject : p.knows .object = true)
    {members : List JavaType} (h : ∀ t ∈ members, p.admits false t = true) :
    p.knowsEnd (JavaType.intersection members).leftmost.2 = true := by
  cases members with
  | nil => exact hobject
  | cons first further =>
    show p.knowsEnd first.leftmost.2 = true
    exact knowsEnd_leftmost hobject (h first List.mem_cons_self)

/-- So does the way inside the bound of a type parameter that is admitted. -/
theorem knowsEnd_leftmost_upperBound (hobject : p.knows .object = true) {t : TypeParameter}
    (h : ∀ bound ∈ t.bounds, p.admits false bound = true) :
    p.knowsEnd t.upperBound.leftmost.2 = true := by
  unfold TypeParameter.bounds at h
  split at h
  · next members he =>
    rw [he]
    exact knowsEnd_leftmost_intersection hobject h
  · exact knowsEnd_leftmost hobject (h _ List.mem_cons_self)

namespace IsWellFormed

theorem knows_object (wf : p.IsWellFormed) : p.knows .object = true :=
  wf.knows_language (by decide)

/-- The bounds of a type parameter are admitted. -/
theorem admits_bounds (wf : p.IsWellFormed) {id : TypeParameterId} {t : TypeParameter}
    (h : p.typeParameterOf id = .ok t) : ∀ bound ∈ t.bounds, p.admits false bound = true := by
  have ht := wf.typeParameters t (mem_of_typeParameterOf h)
  simp only [admitsTypeParameter, Bool.and_eq_true, List.all_eq_true] at ht
  exact ht.1.1

/-- Bounds lead from known type parameters to known ones. -/
theorem knowsParameter_of_reflTransGen (wf : p.IsWellFormed) {id next : TypeParameterId}
    (h : Relation.ReflTransGen p.LeadsTo id next) (hid : p.knowsParameter id = true) :
    p.knowsParameter next = true := by
  induction h with
  | refl => exact hid
  | tail _ hstep _ =>
    obtain ⟨t, ht, hleft⟩ := hstep
    have hend := knowsEnd_leftmost_upperBound wf.knows_object (wf.admits_bounds ht)
    rw [hleft] at hend
    exact hend

/-- **A type has an erasure** if all type parameters to which bounds lead from
it may still be met. By recursion on those that may, with the hypothesis for a
circle: what has been met cannot be met again, so taking it away takes nothing
that is needed. -/
theorem erasureAmong_succeeds (wf : p.IsWellFormed) (unseen : List TypeParameterId)
    {t : JavaType} (hend : p.knowsEnd t.leftmost.2 = true)
    (hreach : ∀ id next, t.leftmost.2 = .typeVariable id →
      Relation.ReflTransGen p.LeadsTo id next → next ∈ unseen) :
    ∃ e, p.erasureAmong unseen t = .ok e ∧ p.knowsElement e.element = true := by
  rw [erasureAmong]
  generalize t.leftmost = way at hend hreach ⊢
  obtain ⟨layers, l⟩ := way
  cases l with
  | erased e => exact ⟨_, rfl, hend⟩
  | declared id =>
    obtain ⟨c, hc⟩ := classOf_succeeds hend
    dsimp only
    rw [hc]
    exact ⟨_, rfl, hend⟩
  | typeVariable id =>
    obtain ⟨parameter, hparameter⟩ := typeParameterOf_succeeds hend
    have hmem : id ∈ unseen := hreach id id rfl .refl
    obtain ⟨e, he, hknown⟩ := wf.erasureAmong_succeeds (unseen.erase id) (t := parameter.upperBound)
      (knowsEnd_leftmost_upperBound wf.knows_object (wf.admits_bounds hparameter))
      fun next j hnext hj => by
        -- what bounds lead to from here they lead to from `id`, which is not among it
        have hstep : p.LeadsTo id next := ⟨parameter, hparameter, hnext⟩
        refine (List.mem_erase_of_ne fun hne => ?_).mpr (hreach id j rfl (.head hstep hj))
        rw [hne] at hj
        exact wf.bounds id (.head' hstep hj)
    dsimp only
    rw [hparameter]
    dsimp only
    rw [dif_pos hmem, he]
    exact ⟨_, rfl, hknown⟩
termination_by unseen.length
decreasing_by
  rw [List.length_erase_of_mem hmem]
  exact Nat.sub_lt (List.length_pos_of_mem hmem) Nat.one_pos

/-- **A type has an erasure** if the way to the left inside it ends at something
known. -/
theorem erasure_succeeds (wf : p.IsWellFormed) {t : JavaType}
    (hend : p.knowsEnd t.leftmost.2 = true) :
    ∃ e, p.erasure t = .ok e ∧ p.knowsElement e.element = true := by
  refine wf.erasureAmong_succeeds _ hend fun id next hid hnext => ?_
  rw [hid] at hend
  exact mem_typeParameterIds.mpr (of_decide_eq_true (wf.knowsParameter_of_reflTransGen hnext hend))

end IsWellFormed

end Program

end ClassFile
