import ClassFile.Proofs.Signature.BinaryText
import ClassFile.Proofs.Signature.Parts
import ClassFile.Walk.Class

/-!
# The supertypes in header and signature

A class file names the supertypes of a class twice, in its header by their
internal names and in its signature with their type arguments. The two are
found in different ways. The signature asks whether a superclass is declared;
the header asks first what kind of class it is, for interfaces extend
`java.lang.Object` whatever they declare.

What the signature names is to be read off it: `Signature.namedClasses?` takes
out everything in angle brackets, the type parameters among it, and cuts what is
left at its semicolons. The result is the declared superclass and then the
interfaces of the header, for a class of any kind
(`Program.classSignature?_names`). So the two agree on the interfaces always,
and on the superclass unless an interface declares one.
-/

namespace ClassFile

open Signature

namespace Signature

/-! ## The classes that a signature names

Nothing of the program is needed to find the names: a signature is stripped of
what is in angle brackets and cut at its semicolons, and from each piece the
letter in front is taken. -/

/-- The names of some classes, of which the descriptors stand one after another
and have been cut at their semicolons. -/
def descriptorNames? : List (List Char) → Option (List String)
  | [[]] => some []
  | ('L' :: name) :: others => (descriptorNames? others).map (String.ofList name :: ·)
  | _ => none

/-- **The classes that a signature names** outside all angle brackets. There is
no result if it has anything else outside of them. -/
def namedClasses? (s : String) : Option (List String) := do
  let outside ← binaryText? s
  descriptorNames? (outside.toList.splitOn ';')

example : namedClasses? "<T:LA;>LB<TT;>.C;LD;" = some ["B$C", "D"] := by decide

/-- Texts of which something stays leave it behind one after another. -/
theorem stays_join {texts names : List String} {kept : String → String}
    (h : List.Forall₂ (fun s n => Stays s (kept n)) texts names) :
    Stays (String.join texts) (String.join (names.map kept)) := by
  induction h with
  | nil => exact Lacks.stays (by decide)
  | cons h _ ih =>
    rw [List.map_cons, String.join_cons, String.join_cons]
    exact h.append ih

/-- The descriptor of the class of a name. -/
def classDescriptorOf (name : String) : String := "L" ++ name ++ ";"

/-- **Descriptors come apart again,** by induction on the list. The names have
no semicolons, so each is cut at its end. -/
theorem descriptorNames?_join {names : List String} (h : ∀ name ∈ names, ';' ∉ name.toList) :
    descriptorNames? ((String.join (names.map classDescriptorOf)).toList.splitOn ';')
      = some names := by
  induction names with
  | nil => rfl
  | cons name names ih =>
    have htext : (String.join ((name :: names).map classDescriptorOf)).toList
        = ('L' :: name.toList) ++ ';' :: (String.join (names.map classDescriptorOf)).toList := by
      rw [List.map_cons, String.join_cons, classDescriptorOf]
      simp only [String.toList_append, List.append_assoc]
      rfl
    have hname : ';' ∉ 'L' :: name.toList := fun hmem =>
      (List.mem_cons.mp hmem).elim (by decide) (h name List.mem_cons_self)
    rw [htext, List.splitOn_append_cons_self_of_not_mem hname]
    show (descriptorNames? _).map (String.ofList name.toList :: ·) = _
    rw [ih fun n hn => h n (List.mem_cons_of_mem _ hn), String.ofList_toList]
    rfl

end Signature

namespace Program

variable {p : Program}

/-- **The signature of a class names some supertypes:** behind the type
parameters it consists of class types, one for each of them, that without their
type arguments are the descriptors of these. -/
def SignatureNames (p : Program) (c : ClassDeclaration) (s : String) (supertypes : List String) :
    Prop :=
  ∃ formals texts, p.formalPart c.typeParameters = .ok formals
    ∧ s = formals ++ String.join texts
    ∧ List.Forall₂ (fun text name => binaryText? text = some (classDescriptorOf name))
        texts supertypes

/-! ## What stays of the parts of a signature

Type parameters stand in brackets and vanish as a whole, bounds included. Of a
supertype its descriptor stays. -/

/-- **Clean names are free of brackets.** -/
theorem HasCleanNames.hasBracketFreeNames (names : p.HasCleanNames) : p.HasBracketFreeNames := by
  have hpoint : '.' :: brackets ⊆ reserved := by simp [brackets, reserved]
  have hreserved : brackets ⊆ reserved := List.subset_of_cons_subset hpoint
  refine ⟨fun c hc x hx hb => (names.simpleName c hc).2 x hx (hpoint hb),
    fun c hc x hx hb => ?_, fun t ht x hx hb => (names.typeParameter t ht).2 x hx (hreserved hb)⟩
  rcases names.package c hc with hempty | hpath
  · rw [hempty] at hx
    exact List.not_mem_nil hx
  · rcases hpath.eq_or_notMem hx with rfl | hn
    · exact absurd hb (by decide)
    · exact hn (hreserved hb)

/-- Internal names have no semicolons. -/
theorem HasCleanNames.semicolon_notMem (names : p.HasCleanNames) {id : ClassId} {name : String}
    (h : p.internalName id = .ok name) : ';' ∉ name.toList := fun hmem =>
  ((names.isPath_internalName h).eq_or_notMem hmem).elim (by decide) fun hn => hn (by decide)

/-- A bound vanishes between brackets. -/
theorem HasBracketFreeNames.vanishes_boundText (names : p.HasBracketFreeNames)
    {bound : JavaType} {s : String} (h : p.boundText bound = .ok s) : Vanishes s := by
  obtain ⟨interface, _, h⟩ := bind_eq_ok h
  obtain ⟨text, ht, rfl⟩ := bind_pure_eq_ok h
  refine Vanishes.append ?_ (names.vanishes_typeText bound ht)
  split
  · exact Lacks.vanishes (by decide)
  · exact vanishes_empty

/-- So does a type parameter, declared or named. -/
theorem HasBracketFreeNames.vanishes_formalText (names : p.HasBracketFreeNames)
    {declared : List TypeParameterId} {id : TypeParameterId} {s : String}
    (h : p.formalText declared id = .ok s) : Vanishes s := by
  obtain ⟨parameter, hp, h⟩ := bind_eq_ok h
  have hname := (names.typeParameter parameter (mem_of_typeParameterOf hp)).vanishes
  split at h
  · cases h
    have hmark : Vanishes "T" := Lacks.vanishes (by decide)
    exact (hmark.append hname).append (Lacks.vanishes (by decide))
  · split at h
    · cases h
    · obtain ⟨bounds, hb, rfl⟩ := bind_pure_eq_ok h
      refine (hname.append (Lacks.vanishes (by decide))).append (vanishes_join fun s hs => ?_)
      obtain ⟨bound, _, hbound⟩ := exists_of_mem_mapM hb hs
      exact names.vanishes_boundText hbound

/-- So does each of a list of type parameters, by induction on the list. -/
theorem HasBracketFreeNames.vanishes_formalTexts (names : p.HasBracketFreeNames)
    (ids : List TypeParameterId) : ∀ {declared : List TypeParameterId} {texts : List String},
      p.formalTexts declared ids = .ok texts → ∀ s ∈ texts, Vanishes s := by
  induction ids with
  | nil =>
    intro _ _ h s hs
    cases h
    exact absurd hs List.not_mem_nil
  | cons id ids ih =>
    intro _ _ h
    obtain ⟨first, hf, h⟩ := bind_eq_ok h
    obtain ⟨others, ho, rfl⟩ := bind_pure_eq_ok h
    exact List.forall_mem_cons.mpr ⟨names.vanishes_formalText hf, ih ho⟩

/-- **A supertype is its descriptor,** which has the name that the header
gives. -/
theorem HasBracketFreeNames.stays_supertype (names : p.HasBracketFreeNames) {t : ClassType}
    {s : String} (h : p.FollowsNesting t) (hs : p.typeText (.declared t) = .ok s) :
    ∃ name, p.internalName t.id = .ok name ∧ Stays s (classDescriptorOf name) := by
  obtain ⟨d, hd, hstays⟩ := names.stays_typeText h hs
  rw [descriptorText_declared] at hd
  obtain ⟨name, hname, rfl⟩ := bind_pure_eq_ok hd
  exact ⟨name, hname, hstays⟩

/-- The interfaces of the signature are those of the header, one by one. -/
theorem HasBracketFreeNames.stays_interfaces (names : p.HasBracketFreeNames)
    {interfaces : List ClassType} (h : ∀ t ∈ interfaces, p.FollowsNesting t)
    {texts interfaceNames : List String}
    (ht : List.Forall₂ (fun t s => p.typeText (.declared t) = .ok s) interfaces texts)
    (hn : List.Forall₂ (fun t n => p.internalName t.id = .ok n) interfaces interfaceNames) :
    List.Forall₂ (fun s n => Stays s (classDescriptorOf n)) texts interfaceNames := by
  induction ht generalizing interfaceNames with
  | nil =>
    cases hn
    exact .nil
  | cons hs _ ih =>
    cases hn with
    | cons hname hn =>
      obtain ⟨name, hname', hstays⟩ := names.stays_supertype (h _ List.mem_cons_self) hs
      cases Except.ok.inj (hname.symm.trans hname')
      exact .cons hstays (ih (fun t ht => h t (List.mem_cons_of_mem _ ht)) hn)

/-- **The classes that a signature names are read off it** as those of which the
descriptors stay of its parts. -/
theorem HasBracketFreeNames.namedClasses?_eq (names : p.HasBracketFreeNames)
    {ids : List TypeParameterId} {formals texts classes : List String}
    (hformals : p.formalTexts [] ids = .ok formals)
    (hstays : List.Forall₂ (fun s n => Stays s (classDescriptorOf n)) texts classes)
    (hclean : ∀ name ∈ classes, ';' ∉ name.toList) :
    namedClasses? (angled formals ++ String.join texts) = some classes := by
  have hwhole := (stays_angled (names.vanishes_formalTexts _ hformals)).append (stays_join hstays)
  rw [String.empty_append] at hwhole
  unfold namedClasses?
  rw [hwhole.binaryText?_eq]
  exact descriptorNames?_join hclean

/-! ## Header and signature

Both are asked for the supertypes and differ in one case, where the header
does not ask what is declared. -/

/-- The superclass in the header is the declared one, or `java.lang.Object` for an
interface. -/
theorem superName_eq_some_iff {id : ClassId} {c : ClassDeclaration} (hid : id ≠ .object)
    {superName : Option String} (hsuper : p.superName id c = .ok superName) {declared : String}
    (hdeclared : p.internalName (c.superclass.getD .object).id = .ok declared) :
    superName = some declared
      ↔ (c.kind.isInterface → p.internalName .object = .ok declared) := by
  unfold Program.superName at hsuper
  rw [if_neg hid] at hsuper
  obtain ⟨name, hname, rfl⟩ := map_eq_ok hsuper
  rw [Option.some.injEq]
  cases hk : c.kind.isInterface with
  | true =>
    rw [hk, if_pos rfl] at hname
    rw [show p.internalName ClassId.object = .ok name from hname]
    simp
  | false =>
    rw [hk, if_neg Bool.false_ne_true, hdeclared] at hname
    cases hname
    simp

/-- **The signature of a class names the declared superclass and the interfaces
of the header.** It consists of that many class types behind the type
parameters, and nothing else stands outside angle brackets. The header names the
same superclass unless the class is an interface, for which it has
`java.lang.Object`. -/
theorem classSignature?_names (names : p.HasCleanNames) {id : ClassId} {c : ClassDeclaration}
    (hc : p.classOf id = .ok c) (hid : id ≠ .object)
    (hnesting : ∀ t ∈ c.supertypes, p.FollowsNesting t) {s : String} {superName : Option String}
    {interfaces : List String} (hs : p.classSignature? id = .ok (some s))
    (hsuper : p.superName id c = .ok superName)
    (hinterfaces : p.interfaceNames c = .ok interfaces) :
    ∃ declared, p.internalName (c.superclass.getD .object).id = .ok declared
      ∧ p.SignatureNames c s (declared :: interfaces)
      ∧ namedClasses? s = some (declared :: interfaces)
      ∧ interfaces.length = c.interfaces.length
      ∧ (superName = some declared
          ↔ (c.kind.isInterface → p.internalName .object = .ok declared)) := by
  have hfree := names.hasBracketFreeNames
  obtain ⟨formals, superclass, texts, hf, hsuperclass, htexts, rfl⟩ :=
    classSignature?_eq_some hc hs
  -- a class that declares no superclass extends one that is enclosed in nothing
  have hsupernesting : p.FollowsNesting (c.superclass.getD .object) := by
    cases ho : c.superclass with
    | none => exact .singleton _
    | some t => exact hnesting t (List.mem_append_left _ (by simp [ho]))
  obtain ⟨declared, hdeclared, hstays⟩ := hfree.stays_supertype hsupernesting hsuperclass
  have hnames := mapM_eq_ok hinterfaces
  have hinterfacesStay := hfree.stays_interfaces
    (fun t ht => hnesting t (List.mem_append_right _ ht)) htexts hnames
  have hall : List.Forall₂ (fun s n => Stays s (classDescriptorOf n)) (superclass :: texts)
      (declared :: interfaces) := .cons hstays hinterfacesStay
  refine ⟨declared, hdeclared, ⟨angled formals, superclass :: texts, ?_, rfl, ?_⟩, ?_,
    hnames.length_eq.symm, ?_⟩
  · rw [p.formalPart_eq, hf]
    rfl
  · exact hall.imp fun _ _ h => h.binaryText?_eq
  · refine hfree.namedClasses?_eq hf hall (List.forall_mem_cons.mpr
      ⟨names.semicolon_notMem hdeclared, fun name hname => ?_⟩)
    obtain ⟨t, _, ht⟩ := exists_of_mem_mapM hinterfaces hname
    exact names.semicolon_notMem ht
  · exact superName_eq_some_iff hid hsuper hdeclared

/-- A class with a parameterized inner class of a parameterized class as its
superclass, and with two interfaces. -/
theorem classSignature?_names_inner :
    let declaration (name : String) : ClassDeclaration := .bare .ordinary "a.b" name
    let c : ClassDeclaration :=
      { declaration "C" with
        typeParameters := [⟨0⟩]
        superclass := some ⟨⟨⟨7⟩, [.wildcard], []⟩, [⟨⟨6⟩, [.ofParameter ⟨0⟩], []⟩]⟩
        interfaces := [⟨⟨⟨8⟩, [.ofParameter ⟨0⟩], []⟩, []⟩, .plain ⟨8⟩] }
    let p : Program :=
      { classes := Program.initial.classes ++
          #[declaration "A", { declaration "B" with enclosing := some ⟨6⟩ },
            .bare .interface "a" "I", c]
        typeParameters := #[⟨"T", .declared .object, none, []⟩] }
    let s := "<T:Ljava/lang/Object;>La/b/A<TT;>.B<*>;La/I<TT;>;La/I;"
    p.HasCleanNames ∧ p.classSignature? ⟨9⟩ = .ok (some s)
      ∧ Signature.namedClasses? s = some ["a/b/A$B", "a/I", "a/I"] := by
  intro declaration c p s
  have names : p.HasCleanNames := ⟨by decide +kernel, by decide +kernel, by decide +kernel⟩
  have hc : p.classOf ⟨9⟩ = .ok c := rfl
  have hnesting : ∀ t ∈ c.supertypes, p.FollowsNesting t :=
    List.forall_mem_cons.mpr ⟨.cons_cons ⟨_, rfl, rfl⟩ (.singleton _), List.forall_mem_cons.mpr
      ⟨.singleton _, List.forall_mem_cons.mpr ⟨.singleton _, fun _ h => nomatch h⟩⟩⟩
  have hs : p.classSignature? ⟨9⟩ = .ok (some s) := by decide +kernel
  have hsuper : p.superName ⟨9⟩ c = .ok (some "a/b/A$B") := by decide +kernel
  have hinterfaces : p.interfaceNames c = .ok ["a/I", "a/I"] := by decide +kernel
  obtain ⟨declared, hdeclared, _, hnamed, _⟩ :=
    classSignature?_names names hc (by decide) hnesting hs hsuper hinterfaces
  have hb : p.internalName ⟨7⟩ = .ok "a/b/A$B" := by decide +kernel
  cases Except.ok.inj (hb.symm.trans hdeclared)
  exact ⟨names, hs, hnamed⟩

/-- **An interface that declares a superclass has two of them,** that one in its
signature and `java.lang.Object` in its header. -/
theorem superclass_of_interface_differs :
    let i : ClassDeclaration :=
      { ClassDeclaration.bare .interface "a" "I" with
        typeParameters := [⟨0⟩], superclass := some .string }
    let p : Program :=
      { classes := Program.initial.classes.push i
        typeParameters := #[⟨"T", .declared .object, none, []⟩] }
    let s := "<T:Ljava/lang/Object;>Ljava/lang/String;"
    p.HasCleanNames ∧ p.classOf ⟨6⟩ = .ok i ∧ ⟨6⟩ ≠ ClassId.object
      ∧ (∀ t ∈ i.supertypes, p.FollowsNesting t)
      ∧ p.classSignature? ⟨6⟩ = .ok (some s)
      ∧ p.superName ⟨6⟩ i = .ok (some "java/lang/Object") ∧ p.interfaceNames i = .ok []
      ∧ ¬ p.SignatureNames i s ["java/lang/Object"] := by
  intro i p s
  refine ⟨⟨by decide +kernel, by decide +kernel, by decide +kernel⟩, rfl, by decide,
    List.forall_mem_cons.mpr ⟨.singleton _, fun _ h => nomatch h⟩, by decide +kernel,
    by decide +kernel, rfl, ?_⟩
  -- there is one class type behind the type parameters, and it is not that of the header
  rintro ⟨formals, texts, hf, he, hnames⟩
  have hformals : p.formalPart [⟨0⟩] = .ok "<T:Ljava/lang/Object;>" := by decide +kernel
  cases Except.ok.inj (hformals.symm.trans hf)
  obtain ⟨text, _, htext, hrest, rfl⟩ := List.forall₂_cons_right_iff.mp hnames
  cases hrest
  obtain rfl : "Ljava/lang/String;" = text := by
    refine (String.append_right_inj "<T:Ljava/lang/Object;>").mp (he.trans ?_)
    rw [String.join_cons]
    exact congrArg _ (String.append_empty)
  revert htext
  decide

end Program

end ClassFile
