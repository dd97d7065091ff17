import ClassFile.Program.Erasure
import ClassFile.Proofs.Nesting

/-!
# Programs that grow

Nothing is checked when a class or a type parameter is added, so what was added
first may refer to what is added later, or never. Asked about such a program one
may be told that a handle names nothing, and that is the only answer that can
change when the program grows (`Kept`). Everything else, be it a result or a
reason why there is none, was found out without the handles that were missing and
is found out again.

For most functions this is so because their steps are. Two of them look at the
size of the program. A climb through nested classes has as many steps as there
are classes, and in a larger program more; but those that the smaller program
gave it were enough, whether the climb ended or not
(`Program.outwards_of_size_le`). Erasure keeps a list of the type parameters that
it may still meet, which is longer in a larger program; but of the type
parameters that it does meet, the same have been met.
-/

namespace ClassFile

/-! ## Answers that are kept

An answer may only change if it was that a handle names nothing. That is kept
by going on: if the first answer changes, the whole was that same error
before; if it does not, the rest goes on from the same result. -/

/-- Whether an error says that a handle names nothing. -/
def Error.isUnresolved : Error → Bool
  | unresolvedClass _ | unresolvedTypeParameter _ => true
  | _ => false

section

variable {α β ι : Type}

/-- **An answer that is kept:** the later one is the same, unless the earlier one
was that a handle names nothing. -/
def Kept (earlier later : Except Error α) : Prop :=
  later = earlier ∨ ∃ e : Error, e.isUnresolved ∧ earlier = .error e

namespace Kept

variable {x y z : Except Error α}

theorem refl (x : Except Error α) : Kept x x := .inl rfl

/-- A result is kept as it is. -/
theorem eq_ok {a : α} (h : Kept (.ok a) y) : y = .ok a := by
  rcases h with h | ⟨e, _, h⟩
  · exact h
  · cases h

/-- So is a reason other than that a handle names nothing. -/
theorem eq_error {e : Error} (h : Kept (.error e) y) (he : e.isUnresolved = false) :
    y = .error e := by
  rcases h with h | ⟨e', he', h⟩
  · exact h
  · cases h
    exact absurd he' (he ▸ Bool.false_ne_true)

theorem trans (h : Kept x y) (k : Kept y z) : Kept x z := by
  rcases h with rfl | h
  · exact k
  · exact .inr h

/-- **What goes on from a kept answer** in ways that keep theirs is kept. An
unresolved handle in the first answer is one in the whole, so nothing is asked
of the rest then. -/
theorem bind {f g : α → Except Error β} (h : Kept x y) (k : ∀ a, Kept (f a) (g a)) :
    Kept (x >>= f) (y >>= g) := by
  rcases h with rfl | ⟨e, he, rfl⟩
  · cases y with
    | error e => exact .refl _
    | ok a => exact k a
  · exact .inr ⟨e, he, rfl⟩

theorem map {f : α → β} (h : Kept x y) : Kept (x.map f) (y.map f) := by
  rcases h with rfl | ⟨e, he, rfl⟩
  · exact .refl _
  · exact .inr ⟨e, he, rfl⟩

/-- **A list of answers is kept** where each of them is. -/
theorem mapM {f g : ι → Except Error α} (h : ∀ i, Kept (f i) (g i)) (l : List ι) :
    Kept (l.mapM f) (l.mapM g) := by
  induction l with
  | nil => exact .refl _
  | cons i l ih =>
    rw [List.mapM_cons, List.mapM_cons]
    exact (h i).bind fun a => ih.bind fun as => .refl _

end Kept

end

namespace Program

variable {p q : Program}

/-! ## Growing

`Grows` says how a larger program comes about, and `Extends` what of it
matters: handles that named something name the same as before. All that
follows is about `Extends`. -/

/-- **The programs that grow out of a program** by adding classes and type
parameters, whatever these refer to. -/
inductive Grows (p : Program) : Program → Prop
  | refl : Grows p p
  | addClass {q : Program} (h : Grows p q) (c : ClassDeclaration) : Grows p (q.addClass c).1
  | addTypeParameter {q : Program} (h : Grows p q) (name : String) (upperBound : JavaType) :
    Grows p (q.addTypeParameter name upperBound).1

/-- **A program that knows all that another one knows,** and under the same
handles. -/
structure Extends (p q : Program) : Prop where
  classes : p.classes.size ≤ q.classes.size
  typeParameters : p.typeParameters.size ≤ q.typeParameters.size
  classOf : ∀ id, Kept (p.classOf id) (q.classOf id)
  typeParameterOf : ∀ id, Kept (p.typeParameterOf id) (q.typeParameterOf id)

/-- A further class is behind the others. -/
theorem classOf_addClass (p : Program) (c : ClassDeclaration) (id : ClassId) :
    Kept (p.classOf id) ((p.addClass c).1.classOf id) := by
  by_cases h : id.index < p.classes.size
  · left
    unfold Program.classOf addClass
    rw [Array.getElem?_push_lt h, Array.getElem?_eq_getElem h]
  · right
    unfold Program.classOf
    rw [Array.getElem?_eq_none (Nat.le_of_not_lt h)]
    exact ⟨_, rfl, rfl⟩

/-- So is a further type parameter. -/
theorem typeParameterOf_addTypeParameter (p : Program) (name : String) (upperBound : JavaType)
    (id : TypeParameterId) :
    Kept (p.typeParameterOf id) ((p.addTypeParameter name upperBound).1.typeParameterOf id) := by
  by_cases h : id.index < p.typeParameters.size
  · left
    unfold Program.typeParameterOf addTypeParameter
    rw [Array.getElem?_push_lt h, Array.getElem?_eq_getElem h]
  · right
    unfold Program.typeParameterOf
    rw [Array.getElem?_eq_none (Nat.le_of_not_lt h)]
    exact ⟨_, rfl, rfl⟩

/-- A further class takes nothing away from what a program knows. -/
theorem Extends.addClass (h : Extends p q) (c : ClassDeclaration) :
    Extends p (q.addClass c).1 where
  classes := by
    unfold Program.addClass
    rw [Array.size_push]
    exact Nat.le_succ_of_le h.classes
  typeParameters := h.typeParameters
  classOf id := (h.classOf id).trans (q.classOf_addClass c id)
  typeParameterOf := h.typeParameterOf

/-- Neither does a further type parameter. -/
theorem Extends.addTypeParameter (h : Extends p q) (name : String) (upperBound : JavaType) :
    Extends p (q.addTypeParameter name upperBound).1 where
  classes := h.classes
  typeParameters := by
    unfold Program.addTypeParameter
    rw [Array.size_push]
    exact Nat.le_succ_of_le h.typeParameters
  classOf := h.classOf
  typeParameterOf id :=
    (h.typeParameterOf id).trans (q.typeParameterOf_addTypeParameter name upperBound id)

/-- **A program that grows knows what it knew,** by induction on the additions. -/
theorem Grows.extends (h : p.Grows q) : Extends p q := by
  induction h with
  | refl => exact ⟨Nat.le_refl _, Nat.le_refl _, fun _ => .refl _, fun _ => .refl _⟩
  | addClass _ c ih => exact ih.addClass c
  | addTypeParameter _ name upperBound ih => exact ih.addTypeParameter name upperBound

/-! ## Programs that are built

A program is not put down anyhow. It begins with the classes of the language,
and to these others are added. What was added can be changed later, which is
how a class can refer to one that comes after it. No step gives a handle
back. -/

/-- **The programs that can be built:** what comes of the initial one by adding classes
and type parameters and by changing those that were added. -/
inductive IsBuilt : Program → Prop
  | initial : IsBuilt .initial
  | addClass {p : Program} (h : IsBuilt p) (c : ClassDeclaration) : IsBuilt (p.addClass c).1
  | addTypeParameter {p : Program} (h : IsBuilt p) (name : String) (upperBound : JavaType) :
    IsBuilt (p.addTypeParameter name upperBound).1
  | modifyClass {p q : Program} {id : ClassId} {f : ClassDeclaration → ClassDeclaration} :
    IsBuilt p → p.modifyClass id f = .ok q → IsBuilt q
  | modifyTypeParameter {p q : Program} {id : TypeParameterId}
    {f : TypeParameter → TypeParameter} :
    IsBuilt p → p.modifyTypeParameter id f = .ok q → IsBuilt q

/-- **The built-in classes are there to stay.** No step takes a class away, so a program
that was built has at least those that it began with. -/
theorem IsBuilt.size_initial_le (h : p.IsBuilt) :
    Program.initial.classes.size ≤ p.classes.size := by
  induction h with
  | initial => exact Nat.le_refl _
  | @addClass p _ c ih =>
    show _ ≤ (p.classes.push c).size
    rw [Array.size_push]
    exact Nat.le_succ_of_le ih
  | addTypeParameter _ _ _ ih => exact ih
  | @modifyClass p _ id f _ hq ih =>
    obtain ⟨_, _, rfl⟩ := map_eq_ok hq
    show _ ≤ (p.classes.modify id.index f).size
    rw [Array.size_modify]
    exact ih
  | modifyTypeParameter _ hq ih =>
    obtain ⟨_, _, rfl⟩ := map_eq_ok hq
    exact ih

namespace Extends

/-! ## Names -/

/-- A climb of as many steps is kept, by induction on the steps. -/
theorem outwards (h : Extends p q) (steps : Nat) (id : ClassId) :
    Kept (p.outwards steps id) (q.outwards steps id) := by
  induction steps generalizing id with
  | zero => exact (h.classOf id).bind fun _ => .refl _
  | succ steps ih =>
    refine (h.classOf id).bind fun c => ?_
    cases c.enclosing with
    | none => exact .refl _
    | some outer => exact (ih outer).bind fun _ => .refl _

/-- **The classes around a class are kept,** and that it lies within itself.
The larger program climbs further, but the smaller one has climbed far enough
to know. -/
theorem nesting (h : Extends p q) (id : ClassId) : Kept (p.nesting id) (q.nesting id) := by
  unfold Program.nesting
  rw [← outwards_of_size_le h.classes]
  exact (h.outwards q.classes.size id).map

/-- **The name of a class is kept.** -/
theorem nameOf (h : Extends p q) (style : NameStyle) (id : ClassId) :
    Kept (p.nameOf style id) (q.nameOf style id) := (h.nesting id).map

/-- That a type is an interface is kept, and that it is none. -/
theorem isInterface (h : Extends p q) : ∀ t : JavaType, Kept (p.isInterface t) (q.isInterface t)
  | .declared t => by
    rw [Program.isInterface, Program.isInterface]
    exact (h.classOf t.id).map
  | .intersection (first :: _) => by
    rw [Program.isInterface, Program.isInterface]
    exact h.isInterface first
  | .primitive _ | .void | .array _ | .typeVariable _ _ | .wildcard | .wildcardExtends _
  | .wildcardSuper _ | .intersection [] => .refl _

/-! ## Erasure -/

/-- **Erasure is kept** where the type parameters that may still be met are the
same among those that the smaller program knows. By recursion on them. -/
theorem erasureAmong (h : Extends p q) (unseen unseen' : List TypeParameterId)
    (hnodup : unseen.Nodup) (hnodup' : unseen'.Nodup)
    (hsame : ∀ id, id.index < p.typeParameters.size → (id ∈ unseen ↔ id ∈ unseen'))
    (t : JavaType) : Kept (p.erasureAmong unseen t) (q.erasureAmong unseen' t) := by
  rw [Program.erasureAmong, Program.erasureAmong]
  obtain ⟨layers, l⟩ := t.leftmost
  cases l with
  | erased e => exact .refl _
  | declared id => exact (h.classOf id).map
  | typeVariable id =>
    dsimp only
    cases hp : p.typeParameterOf id with
    | error e => exact .inr ⟨e, by rw [eq_unresolved_of_typeParameterOf hp]; rfl, rfl⟩
    | ok parameter =>
      -- a type parameter that the smaller program knows is the same in the larger one
      have hq := h.typeParameterOf id
      rw [hp] at hq
      rw [hq.eq_ok]
      dsimp only
      have hid := hsame id (index_lt_of_typeParameterOf hp)
      by_cases hmem : id ∈ unseen
      · -- both strike it off, so they still agree on what the smaller program knows
        rw [dif_pos hmem, dif_pos (hid.mp hmem)]
        refine (h.erasureAmong (unseen.erase id) (unseen'.erase id) (hnodup.erase id)
          (hnodup'.erase id) (fun i hi => ?_) parameter.upperBound).map
        rw [hnodup.mem_erase_iff, hnodup'.mem_erase_iff, hsame i hi]
      · rw [dif_neg hmem, dif_neg fun hmem' => hmem (hid.mpr hmem')]
        exact .refl _
termination_by unseen.length
decreasing_by
  rw [List.length_erase_of_mem hmem]
  exact Nat.sub_lt (List.length_pos_of_mem hmem) Nat.one_pos

/-- **The erasure of a type is kept,** and that it has none. In the larger
program more type parameters may be met, but those that the smaller one knows
may be met in both. -/
theorem erasure (h : Extends p q) (t : JavaType) : Kept (p.erasure t) (q.erasure t) := by
  refine h.erasureAmong _ _ p.nodup_typeParameterIds q.nodup_typeParameterIds (fun id hid => ?_) t
  rw [mem_typeParameterIds, mem_typeParameterIds]
  exact ⟨fun _ => Nat.lt_of_lt_of_le hid h.typeParameters, fun _ => hid⟩

end Extends

end Program

end ClassFile
