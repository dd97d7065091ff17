import ClassFile.Program.Naming
import ClassFile.Proofs.Agreement

/-!
# Programs that name things alike

What is written of a class where it is merely used is its name, and the name is
spelled by the classes around it; what is written of a type parameter is its
name as well. So two programs may differ in almost everything and still be
written alike. `Program.NamesAlike` says what they must not differ in: in the
kind, the names and the nesting of the classes, and in the names of the type
parameters. Everything that is found out of names alone is then the same, and so
is the reason where it cannot be found out.
-/

namespace ClassFile

/-- **Classes that are alike where they are used:** of one kind and one name, and
nested in the same class. -/
structure ClassDeclaration.NamedAlike (c d : ClassDeclaration) : Prop where
  kind : c.kind = d.kind
  package : c.package = d.package
  simpleName : c.simpleName = d.simpleName
  enclosing : c.enclosing = d.enclosing

/-- **Programs that name things alike:** handles name classes that are alike,
and type parameters of the same name. Where one program has nothing at a
handle, the other has nothing there for the same reason. -/
structure Program.NamesAlike (p q : Program) : Prop where
  size : p.classes.size = q.classes.size
  classOf : ∀ id, Agree ClassDeclaration.NamedAlike (p.classOf id) (q.classOf id)
  typeParameterOf : ∀ id,
    Agree (fun s t => s.name = t.name) (p.typeParameterOf id) (q.typeParameterOf id)

/-- A name is spelled by the package of the outermost class and by the simple
names, so classes that agree in these spell the same. -/
theorem NameStyle.spell_congr (style : NameStyle) {chain chain' : List ClassDeclaration}
    (h : List.Forall₂ ClassDeclaration.NamedAlike chain chain') :
    style.spell chain = style.spell chain' := by
  have hnames : chain.map (·.simpleName) = chain'.map (·.simpleName) := by
    induction h with
    | nil => rfl
    | cons hcd _ ih => rw [List.map_cons, List.map_cons, hcd.simpleName, ih]
  have hpackage : chain.head?.map (·.package) = chain'.head?.map (·.package) := by
    cases h with
    | nil => rfl
    | cons hcd _ => exact congrArg some hcd.package
  unfold spell
  rw [hnames, hpackage]

namespace Program.NamesAlike

variable {p q : Program}

/-- The way outwards leads past classes that are alike. -/
theorem outwards (h : NamesAlike p q) : ∀ (steps : Nat) (id : ClassId),
    Agree (List.Forall₂ ClassDeclaration.NamedAlike) (p.outwards steps id) (q.outwards steps id)
  | 0, id => (h.classOf id).bind fun _ _ _ => .error _
  | steps + 1, id => by
    refine (h.classOf id).bind fun c d hcd => ?_
    rw [hcd.enclosing]
    cases d.enclosing with
    | none => exact .ok (.cons hcd .nil)
    | some outer =>
      exact (h.outwards steps outer).bind fun _ _ hchain => .ok (.cons hcd hchain)

/-- **A class has the same name in both programs.** -/
theorem nameOf_eq (h : NamesAlike p q) (style : NameStyle) (id : ClassId) :
    p.nameOf style id = q.nameOf style id := by
  unfold nameOf nesting
  rw [h.size]
  exact (((h.outwards _ id).map fun _ _ => List.forall₂_reverse_iff.mpr).map
    fun _ _ => style.spell_congr).eq

theorem internalName_eq (h : NamesAlike p q) (id : ClassId) :
    p.internalName id = q.internalName id := h.nameOf_eq .internal id

theorem qualifiedName_eq (h : NamesAlike p q) (id : ClassId) :
    p.qualifiedName id = q.qualifiedName id := h.nameOf_eq .qualified id

/-- **A type is an interface in both programs or in none.** -/
theorem isInterface_eq (h : NamesAlike p q) : ∀ t : JavaType, p.isInterface t = q.isInterface t
  | .declared t => by
    rw [isInterface, isInterface]
    exact ((h.classOf t.id).map fun _ _ hcd => congrArg ClassKind.isInterface hcd.kind).eq
  | .intersection (first :: _) => by
    rw [isInterface, isInterface, h.isInterface_eq first]
  | .primitive _ | .void | .array _ | .typeVariable _ _ | .wildcard | .wildcardExtends _
  | .wildcardSuper _ | .intersection [] => rfl

end Program.NamesAlike

end ClassFile
