import Mathlib
import ClassFile.Proofs.Signature.DeclarationReadBack
import ClassFile.Proofs.Signature.DeclarationText
import ClassFile.Proofs.Signature.Structure

/-!
# The structure of a declaration

What a reader should find in the signature of a class or a method: the type
parameters in the order of their declaration, each with its name and all its
bounds, and then the supertypes, or the parameters, the result and the
exceptions (`Program.classTree?`, `Program.methodTree?`). A class without a
superclass extends `java.lang.Object`, and exceptions are there only if one of
them is a type variable.

The grammar has one place for a class bound and places for interface bounds
behind it. The encoder decides for each bound by itself which of the two it is,
so the declaration must be one in which only the first bound can be a class
(`Program.IsBounded`). Such declarations are read back
(`Program.declarations_read_back`).
-/

namespace ClassFile

open Signature

/-! ## Declarations as a compiler forms them

A compiler forms no others, but declarations can be put together by hand. Two
things would go wrong then: a class behind the first bound would stand there
without the colon that begins a bound, and a type parameter that is listed
again would be named where a declaration is expected. -/

/-- Whether a type can be thrown: a class or a type variable. -/
def JavaType.isThrowable : JavaType → Bool
  | .declared _ | .typeVariable _ _ => true
  | _ => false

namespace Program

/-- **A type parameter with bounds** of which all but the first are
interfaces. -/
structure IsBounded (p : Program) (t : TypeParameter) : Prop where
  ne_nil : t.bounds ≠ []
  fits : ∀ bound ∈ t.bounds, bound.fits .reference = true
  interfaces : ∀ bound ∈ t.bounds.tail, p.isInterface bound = .ok true

/-- Type parameters of one declaration: no two are the same. -/
structure AreFormals (p : Program) (ids : List TypeParameterId) : Prop where
  nodup : ids.Nodup
  bounded : ∀ id ∈ ids, ∀ t, p.typeParameterOf id = .ok t → p.IsBounded t

/-- **A class in its parts:** the supertypes are formed as they should be. -/
structure ClassFits (p : Program) (c : ClassDeclaration) : Prop where
  formals : p.AreFormals c.typeParameters
  superclass : ∀ t ∈ c.superclass, (JavaType.declared t).fits .reference = true
  interfaces : ∀ t ∈ c.interfaces, (JavaType.declared t).fits .reference = true

/-- **A method in its parts:** all types stand where they may. -/
structure MethodFits (p : Program) (m : MethodDeclaration) : Prop where
  formals : p.AreFormals m.typeParameters
  parameters : ∀ t ∈ m.parameterTypes, t.fits .value = true
  result : m.result.fits .result = true
  thrown : ∀ t ∈ m.thrown, t.isThrowable = true ∧ t.fits .reference = true

/-! ## Trees of declarations

The trees are found from the declarations, not from the texts, and no reader
is mentioned here. Where the tree of a part does not exist, that of the whole
does not. -/

/-- The tree of a reference type. -/
def referenceTree? (p : Program) (t : JavaType) : Option ReferenceTree := do
  (← p.typeTree? t).reference?

/-- **The tree of a type parameter:** the first bound is the class bound unless
it is an interface. -/
def formalTree? (p : Program) (id : TypeParameterId) : Option FormalTree := do
  let parameter ← (p.typeParameterOf id).toOption
  match parameter.bounds with
  | [] => none
  | first :: others => do
    let firstTree ← p.referenceTree? first
    let otherTrees ← others.mapM p.referenceTree?
    if ← (p.isInterface first).toOption then
      return ⟨parameter.name, none, firstTree :: otherTrees⟩
    else return ⟨parameter.name, some firstTree, otherTrees⟩

/-- **The tree of a class.** -/
def classTree? (p : Program) (c : ClassDeclaration) : Option ClassTree := do
  let formals ← c.typeParameters.mapM p.formalTree?
  let superclass ← p.referenceTree? (.declared (c.superclass.getD .object))
  let interfaces ← c.interfaces.mapM fun t => p.referenceTree? (.declared t)
  return ⟨formals, superclass, interfaces⟩

/-- **The tree of a method.** -/
def methodTree? (p : Program) (m : MethodDeclaration) : Option MethodTree := do
  let formals ← m.typeParameters.mapM p.formalTree?
  let parameters ← m.parameterTypes.mapM p.typeTree?
  let result ← p.resultTree? m.result
  let thrown ← (if m.throwsVariable then m.thrown else []).mapM p.referenceTree?
  return ⟨formals, parameters, result, thrown⟩

variable {p : Program}

/-! ## The parts of a declaration

For each part of a declaration the same is shown: if it has a text, it has a
tree, which is clean and whose text this is. For lists there is one lemma,
which makes such a statement on the items into one on the list
(`trees_of_forall₂`). -/

/-- **Trees of the items of a list** whose texts are known one by one. -/
theorem trees_of_forall₂ {ι β : Type} {f : ι → Except Error String} {g : ι → Option β}
    {clean : β → Prop} (text : β → String) {l : List ι} {texts : List String}
    (hl : List.Forall₂ (fun i s => f i = .ok s) l texts)
    (h : ∀ i ∈ l, ∀ s, f i = .ok s → ∃ b, g i = some b ∧ clean b ∧ text b = s) :
    ∃ bs, l.mapM g = some bs ∧ (∀ b ∈ bs, clean b) ∧ bs.map text = texts := by
  induction hl with
  | nil => exact ⟨[], rfl, fun b hb => absurd hb List.not_mem_nil, rfl⟩
  | @cons i s l texts hi _ ih =>
    obtain ⟨b, hb, hclean, rfl⟩ := h i List.mem_cons_self s hi
    obtain ⟨bs, hbs, hcleans, rfl⟩ := ih fun j hj => h j (List.mem_cons_of_mem _ hj)
    refine ⟨b :: bs, ?_, List.forall_mem_cons.mpr ⟨hclean, hcleans⟩, rfl⟩
    rw [List.mapM_cons, hb, hbs]
    rfl

/-- The text of a reference type that fits is the text of its tree. -/
theorem HasCleanNames.hasReference (names : p.HasCleanNames) {t : JavaType} {s : String}
    (hfits : t.fits .reference = true) (h : p.typeText t = .ok s) :
    ∃ r, p.referenceTree? t = some r ∧ r.IsClean ∧ r.text = s := by
  obtain ⟨r, hr, hclean, htext⟩ :=
    ((names.hasTrees t h).value (JavaType.fits_value hfits)).reference hfits
  refine ⟨r, ?_, hclean, htext⟩
  unfold referenceTree?
  rw [hr]
  rfl

/-- The tree of a class is accepted where there must be a class. -/
theorem isClass_of_referenceTree? {t : ClassType} {r : ReferenceTree}
    (h : p.referenceTree? (.declared t) = some r) : r.isClass = true := by
  obtain ⟨tree, htree, h⟩ := Option.bind_eq_some_iff.mp h
  obtain ⟨head, inner, rfl⟩ := typeTree?_declared htree
  cases h
  rfl

theorem isThrowable_of_referenceTree? {t : JavaType} {r : ReferenceTree}
    (ht : t.isThrowable = true) (h : p.referenceTree? t = some r) : r.isThrowable = true := by
  obtain ⟨tree, htree, h⟩ := Option.bind_eq_some_iff.mp h
  cases t with
  | declared t =>
    obtain ⟨head, inner, rfl⟩ := typeTree?_declared htree
    cases h
    rfl
  | typeVariable id annotations =>
    obtain ⟨name, rfl⟩ := typeTree?_typeVariable htree
    cases h
    rfl
  | primitive _ | void | array _ | wildcard | wildcardExtends _ | wildcardSuper _
  | intersection _ => cases ht

theorem boundText_ok {bound : JavaType} {s : String} (h : p.boundText bound = .ok s) :
    ∃ i, p.isInterface bound = .ok i ∧
      ∃ u, p.typeText bound = .ok u ∧ (if i then ":" else "") ++ u = s := by
  obtain ⟨i, hi, h⟩ := bind_eq_ok h
  exact ⟨i, hi, bind_pure_eq_ok h⟩

/-- The tree of a type parameter, from those of its bounds. -/
theorem formalTree?_eq {id : TypeParameterId} {parameter : TypeParameter} {first : JavaType}
    {others : List JavaType} {r : ReferenceTree} {rs : List ReferenceTree} {i : Bool}
    (hp : p.typeParameterOf id = .ok parameter) (hbounds : parameter.bounds = first :: others)
    (hr : p.referenceTree? first = some r) (hrs : others.mapM p.referenceTree? = some rs)
    (hi : p.isInterface first = .ok i) :
    p.formalTree? id = some
      (if i then ⟨parameter.name, none, r :: rs⟩ else ⟨parameter.name, some r, rs⟩) := by
  unfold formalTree?
  rw [hp]
  show (match parameter.bounds with | [] => none | first :: others => _) = _
  rw [hbounds]
  dsimp only
  rw [hr, hrs, hi]
  cases i <;> rfl

/-- **The texts of interface bounds** are those of their trees, each marked as
an interface. -/
theorem HasCleanNames.hasInterfaceBounds (names : p.HasCleanNames) {bounds : List JavaType}
    {texts : List String} (hfits : ∀ bound ∈ bounds, bound.fits .reference = true)
    (hinterfaces : ∀ bound ∈ bounds, p.isInterface bound = .ok true)
    (h : List.Forall₂ (fun bound s => p.boundText bound = .ok s) bounds texts) :
    ∃ rs, bounds.mapM p.referenceTree? = some rs ∧ (∀ r ∈ rs, r.IsClean)
      ∧ (rs.map fun r => ":" ++ r.text) = texts := by
  refine trees_of_forall₂ (fun r : ReferenceTree => ":" ++ r.text) h fun bound hbound s hs => ?_
  obtain ⟨i, hi, u, hu, rfl⟩ := boundText_ok hs
  cases hi.symm.trans (hinterfaces bound hbound)
  obtain ⟨r, hr, hclean, rfl⟩ := names.hasReference (hfits bound hbound) hu
  exact ⟨r, hr, hclean, rfl⟩

/-- **The text of a type parameter is the text of its tree,** where it is
declared. -/
theorem HasCleanNames.hasFormal (names : p.HasCleanNames) {declared : List TypeParameterId}
    {id : TypeParameterId} {s : String} (hfresh : id ∉ declared)
    (hbounded : ∀ t, p.typeParameterOf id = .ok t → p.IsBounded t)
    (h : p.formalText declared id = .ok s) :
    ∃ f, p.formalTree? id = some f ∧ f.IsClean ∧ f.text = s := by
  obtain ⟨parameter, hp, h⟩ := bind_eq_ok h
  rw [if_neg hfresh] at h
  split at h
  · cases h
  obtain ⟨boundTexts, hbounds, rfl⟩ := bind_pure_eq_ok h
  obtain ⟨hne, hfits, hinterfaces⟩ := hbounded parameter hp
  have hname := names.typeParameter parameter (mem_of_typeParameterOf hp)
  obtain ⟨first, others, hcons⟩ := List.exists_cons_of_ne_nil hne
  rw [hcons] at hbounds hfits hinterfaces
  cases mapM_eq_ok hbounds with
  | @cons _ firstText _ otherTexts hfirst hothers =>
  obtain ⟨i, hi, u, hu, rfl⟩ := boundText_ok hfirst
  obtain ⟨r, hr, hclean, rfl⟩ := names.hasReference (hfits first List.mem_cons_self) hu
  obtain ⟨rs, hrs, hcleans, rfl⟩ := names.hasInterfaceBounds
    (fun bound hbound => hfits bound (List.mem_cons_of_mem _ hbound)) hinterfaces hothers
  -- an interface in front leaves the place of the class bound empty
  refine ⟨_, formalTree?_eq hp hcons hr hrs hi, ?_, ?_⟩
  · cases i with
    | true => exact ⟨hname, fun b hb => (by cases hb), List.forall_mem_cons.mpr ⟨hclean, hcleans⟩⟩
    | false => exact ⟨hname, fun b hb => Option.some.inj hb ▸ hclean, hcleans⟩
  · cases i with
    | true =>
      show parameter.name ++ ":" ++ "" ++ String.join ((r :: rs).map fun r => ":" ++ r.text) = _
      rw [String.append_empty]
      rfl
    | false =>
      show parameter.name ++ ":" ++ r.text ++ String.join (rs.map fun r => ":" ++ r.text)
        = parameter.name ++ ":" ++ String.join (("" ++ r.text) :: rs.map fun r => ":" ++ r.text)
      rw [String.join_cons, String.empty_append]
      simp only [String.append_assoc]

theorem formalText_fresh {declared : List TypeParameterId} {id : TypeParameterId}
    (h : id ∉ declared) : p.formalText declared id = p.formalText [] id := by
  unfold formalText
  simp only [if_neg h, List.not_mem_nil, if_false]

/-- **Distinct type parameters are all declared,** none is merely named. -/
theorem formalTexts_ok {ids : List TypeParameterId} (hnodup : ids.Nodup) :
    ∀ {declared : List TypeParameterId} {texts : List String}, (∀ id ∈ ids, id ∉ declared) →
      p.formalTexts declared ids = .ok texts →
      List.Forall₂ (fun id s => p.formalText [] id = .ok s) ids texts := by
  induction ids with
  | nil =>
    intro declared texts _ h
    cases h
    exact .nil
  | cons id ids ih =>
    intro declared texts hfresh h
    obtain ⟨hid, hids⟩ := List.nodup_cons.mp hnodup
    obtain ⟨first, hf, h⟩ := bind_eq_ok h
    obtain ⟨others, ho, rfl⟩ := bind_pure_eq_ok h
    rw [formalText_fresh (hfresh id List.mem_cons_self)] at hf
    refine .cons hf (ih hids ?_ ho)
    -- a further one is neither the one just declared nor one of those before
    intro other hother hmem
    rcases List.mem_cons.mp hmem with rfl | hmem
    · exact hid hother
    · exact hfresh other (List.mem_cons_of_mem _ hother) hmem

/-- The texts of the type parameters of a declaration are those of their
trees. -/
theorem HasCleanNames.hasFormals (names : p.HasCleanNames) {ids : List TypeParameterId}
    (hids : p.AreFormals ids) {texts : List String} (h : p.formalTexts [] ids = .ok texts) :
    ∃ fs, ids.mapM p.formalTree? = some fs ∧ (∀ f ∈ fs, f.IsClean)
      ∧ fs.map FormalTree.text = texts :=
  trees_of_forall₂ FormalTree.text (formalTexts_ok hids.nodup (fun _ _ => List.not_mem_nil) h)
    fun id hid _ hs => names.hasFormal List.not_mem_nil (hids.bounded id hid) hs

/-! ## Classes and methods

A declaration has a text if all its parts have one, so the trees of the parts
are there and can be put together. -/

/-- **The text of a class is the text of its tree.** -/
theorem HasCleanNames.hasClass (names : p.HasCleanNames) {c : ClassDeclaration} {s : String}
    (hc : p.ClassFits c) (h : p.declarationText c = .ok s) :
    ∃ tree, p.classTree? c = some tree ∧ tree.IsClean ∧ tree.text = s := by
  obtain ⟨formalTexts, hformals, h⟩ := bind_eq_ok h
  obtain ⟨superclassText, hsuperclass, h⟩ := bind_eq_ok h
  obtain ⟨interfaceTexts, hinterfaces, rfl⟩ := bind_pure_eq_ok h
  obtain ⟨fs, hfs, hcleanFormals, rfl⟩ := names.hasFormals hc.formals hformals
  have hfits : (JavaType.declared (c.superclass.getD .object)).fits .reference = true := by
    cases hs : c.superclass with
    | none => rfl
    | some t => exact hc.superclass t hs
  obtain ⟨r, hr, hclean, rfl⟩ := names.hasReference hfits hsuperclass
  have hinterface : ∀ t ∈ c.interfaces, ∀ s, p.typeText (.declared t) = .ok s →
      ∃ r, p.referenceTree? (.declared t) = some r
        ∧ (r.IsClean ∧ r.isClass = true) ∧ r.text = s := by
    intro t ht s hs
    obtain ⟨r, hr, hclean, rfl⟩ := names.hasReference (hc.interfaces t ht) hs
    exact ⟨r, hr, ⟨hclean, isClass_of_referenceTree? hr⟩, rfl⟩
  obtain ⟨rs, hrs, hcleans, rfl⟩ :=
    trees_of_forall₂ ReferenceTree.text (mapM_eq_ok hinterfaces) hinterface
  refine ⟨⟨fs, r, rs⟩, ?_, ⟨hcleanFormals, ⟨hclean, isClass_of_referenceTree? hr⟩, hcleans⟩, rfl⟩
  unfold classTree?
  rw [hfs, hr, hrs]
  rfl

/-- The text of what a method throws is the text of the trees of it. -/
theorem HasCleanNames.hasThrown (names : p.HasCleanNames) {m : MethodDeclaration} {s : String}
    (hthrown : ∀ t ∈ m.thrown, t.isThrowable = true ∧ t.fits .reference = true)
    (h : p.thrownText m = .ok s) :
    ∃ rs, (if m.throwsVariable then m.thrown else []).mapM p.referenceTree? = some rs
      ∧ (∀ r ∈ rs, r.IsClean ∧ r.isThrowable = true)
      ∧ String.join (rs.map fun r => "^" ++ r.text) = s := by
  unfold thrownText at h
  -- exceptions are written if one of them is a type variable, and then all of them
  by_cases hm : m.throwsVariable = true
  · rw [if_pos hm] at h ⊢
    obtain ⟨texts, ht, rfl⟩ := bind_pure_eq_ok h
    have hone : ∀ t ∈ m.thrown, ∀ s, (do return "^" ++ (← p.typeText t)) = Except.ok s →
        ∃ r, p.referenceTree? t = some r
          ∧ (r.IsClean ∧ r.isThrowable = true) ∧ "^" ++ r.text = s := by
      intro t ht s hs
      obtain ⟨u, hu, rfl⟩ := bind_pure_eq_ok hs
      obtain ⟨hthrowable, hfits⟩ := hthrown t ht
      obtain ⟨r, hr, hclean, rfl⟩ := names.hasReference hfits hu
      exact ⟨r, hr, ⟨hclean, isThrowable_of_referenceTree? hthrowable hr⟩, rfl⟩
    obtain ⟨rs, hrs, hcleans, rfl⟩ :=
      trees_of_forall₂ (fun r : ReferenceTree => "^" ++ r.text) (mapM_eq_ok ht) hone
    exact ⟨rs, hrs, hcleans, rfl⟩
  · rw [if_neg hm] at h ⊢
    cases h
    exact ⟨[], rfl, fun r hr => absurd hr List.not_mem_nil, rfl⟩

/-- **The text of a method is the text of its tree.** -/
theorem HasCleanNames.hasMethod (names : p.HasCleanNames) {m : MethodDeclaration} {s : String}
    (hm : p.MethodFits m) (h : p.methodText m = .ok s) :
    ∃ tree, p.methodTree? m = some tree ∧ tree.IsClean ∧ tree.text = s := by
  obtain ⟨formalTexts, hformals, h⟩ := bind_eq_ok h
  obtain ⟨shape, hshape, h⟩ := bind_eq_ok h
  obtain ⟨thrownText, hthrown, rfl⟩ := bind_pure_eq_ok h
  obtain ⟨texts, ht, last, hlast, rfl⟩ := shapeText_ok hshape
  obtain ⟨fs, hfs, hcleanFormals, rfl⟩ := names.hasFormals hm.formals hformals
  obtain ⟨ts, hts, hcleans, rfl⟩ := trees_of_forall₂ TypeTree.text ht
    fun t ht s hs => (names.hasTrees t hs).value (hm.parameters t ht)
  obtain ⟨result, hresult, hclean, rfl⟩ := names.hasResult hm.result hlast
  obtain ⟨rs, hrs, hcleanThrown, rfl⟩ := names.hasThrown hm.thrown hthrown
  refine ⟨⟨fs, ts, result, rs⟩, ?_, ⟨hcleanFormals, hcleans, hclean, hcleanThrown⟩, ?_⟩
  · unfold methodTree?
    rw [hfs, hts, hresult, hrs]
    rfl
  · unfold MethodTree.text
    simp only [String.append_assoc]

/-! ## Reading back

What is written is the text of the tree, and that is what the reader finds in
it. -/

/-- **Signatures of classes and methods can be read back.** Under clean names,
the reader takes the whole of the signature and finds the declaration: type
parameters with all their bounds, and superclass and interfaces, or
parameters, result and exceptions. -/
theorem declarations_read_back (names : p.HasCleanNames) :
    (∀ (id : ClassId) (c : ClassDeclaration) (s : String), p.classOf id = .ok c →
        p.ClassFits c → p.classSignature? id = .ok (some s) →
        ∃ tree, p.classTree? c = some tree ∧ ClassTree.read? s = some tree)
      ∧ ∀ (m : MethodDeclaration) (s : String), p.MethodFits m → p.methodSignature m = .ok s →
        ∃ tree, p.methodTree? m = some tree ∧ MethodTree.read? s = some tree := by
  refine ⟨fun id c s hc hfits h => ?_, fun m s hfits h => ?_⟩
  · rw [p.classSignature?_eq, hc] at h
    by_cases hneeds : c.needsSignature = true
    · obtain ⟨text, htext, h⟩ := bind_pure_eq_ok ((if_pos hneeds).symm.trans h)
      cases h
      obtain ⟨tree, htree, hclean, htext⟩ := names.hasClass hfits htext
      exact ⟨tree, htree, ClassTree.read?_eq_some_iff.mpr ⟨hclean, htext⟩⟩
    · cases (if_neg hneeds).symm.trans h
  · rw [p.methodSignature_eq] at h
    obtain ⟨tree, htree, hclean, htext⟩ := names.hasMethod hfits h
    exact ⟨tree, htree, MethodTree.read?_eq_some_iff.mpr ⟨hclean, htext⟩⟩

/-- A class with a type parameter that has a bound of each kind and one that
has only an interface bound, and a method of it that throws one of them. -/
theorem declarations_read_back_bounds :
    let x : JavaType := .typeVariable ⟨0⟩ []
    let i : ClassType := ⟨⟨⟨6⟩, [x], []⟩, []⟩
    let c : ClassDeclaration := { ClassDeclaration.bare .ordinary "a" "C" with
      typeParameters := [⟨0⟩, ⟨1⟩], interfaces := [i, .plain ⟨6⟩] }
    let p : Program :=
      { classes := Program.initial.classes ++ #[.bare .interface "a" "I", c]
        typeParameters :=
          #[⟨"X", .intersection [.declared .object, .declared i], none, []⟩,
            ⟨"Y", .declared i, none, []⟩] }
    let m : MethodDeclaration :=
      { name := "m", isConstructor := false, modifiers := [], isVarargs := false,
        typeParameters := [⟨1⟩], parameters := [⟨"a", .primitive .int, []⟩, ⟨"b", .array x, []⟩],
        result := .void, thrown := [.declared .object, x], annotations := [] }
    let s := "<X:Ljava/lang/Object;:La/I<TX;>;Y::La/I<TX;>;>Ljava/lang/Object;La/I<TX;>;La/I;"
    let s' := "<Y::La/I<TX;>;>(I[TX;)V^Ljava/lang/Object;^TX;"
    let object : ReferenceTree := .declared ⟨"java/lang/Object", []⟩ []
    let iOfX : ReferenceTree := .declared ⟨"a/I", [.exactly (.typeVariable "X")]⟩ []
    let tree : ClassTree := ⟨[⟨"X", some object, [iOfX]⟩, ⟨"Y", none, [iOfX]⟩], object,
      [iOfX, .declared ⟨"a/I", []⟩ []]⟩
    let tree' : MethodTree := ⟨[⟨"Y", none, [iOfX]⟩],
      [.base .int, .reference (.array (.reference (.typeVariable "X")))], .void,
      [object, .typeVariable "X"]⟩
    p.HasCleanNames
      ∧ (p.classOf ⟨7⟩ = .ok c ∧ p.ClassFits c ∧ p.classSignature? ⟨7⟩ = .ok (some s)
        ∧ p.classTree? c = some tree ∧ ClassTree.read? s = some tree)
      ∧ (p.MethodFits m ∧ p.methodSignature m = .ok s'
        ∧ p.methodTree? m = some tree' ∧ MethodTree.read? s' = some tree') := by
  intro x i c p m s s' object iOfX tree tree'
  have names : p.HasCleanNames := ⟨by decide, by decide, by decide⟩
  have hx : p.IsBounded ⟨"X", .intersection [.declared .object, .declared i], none, []⟩ :=
    ⟨List.cons_ne_nil _ _, by decide, List.forall_mem_singleton.mpr rfl⟩
  have hy : p.IsBounded ⟨"Y", .declared i, none, []⟩ :=
    ⟨List.cons_ne_nil _ _, by decide, fun bound h => absurd h List.not_mem_nil⟩
  have hbounded : ∀ id ∈ [(⟨0⟩ : TypeParameterId), ⟨1⟩], ∀ t, p.typeParameterOf id = .ok t →
      p.IsBounded t :=
    List.forall_mem_cons.mpr ⟨fun t ht => Except.ok.inj ht ▸ hx,
      List.forall_mem_singleton.mpr fun t ht => Except.ok.inj ht ▸ hy⟩
  have hc : p.ClassFits c := ⟨⟨by decide, hbounded⟩, fun t ht => (by cases ht), by decide⟩
  have hm : p.MethodFits m := ⟨⟨by decide, fun id hid => hbounded id (List.mem_cons_of_mem _ hid)⟩,
    by decide, rfl, by decide⟩
  have hs : p.classSignature? ⟨7⟩ = .ok (some s) := by cbv
  have hs' : p.methodSignature m = .ok s' := by cbv
  have htree : p.classTree? c = some tree := by cbv
  have htree' : p.methodTree? m = some tree' := by cbv
  obtain ⟨hclasses, hmethods⟩ := declarations_read_back names
  obtain ⟨read, hread, hfound⟩ := hclasses ⟨7⟩ c s rfl hc hs
  obtain ⟨read', hread', hfound'⟩ := hmethods m s' hm hs'
  cases Option.some.inj (hread.symm.trans htree)
  cases Option.some.inj (hread'.symm.trans htree')
  exact ⟨names, ⟨rfl, hc, hs, htree, hfound⟩, ⟨hm, hs', htree', hfound'⟩⟩

end Program

end ClassFile
