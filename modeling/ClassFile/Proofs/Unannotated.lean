import ClassFile.Proofs.DescriptorErasure
import ClassFile.Proofs.Signature.Dependence
import ClassFile.Walk.Member

/-!
# Annotations are not encoded

A use of a type may carry annotations on every level: on the type itself, on its
arguments and enclosing types, on the bounds of wildcards, and, where a type
variable is used, on the bounds of its type parameter. None of them is seen in a
descriptor or a signature, nor in anything else that is found out of types.

The annotations on the innermost level can be taken away by themselves
(`Program.normalized?`), but that does not reach the others, so it is no way to
state this. `JavaType.stripped` takes them away at every depth, and
`Program.stripped` does so for all that is declared. Each function is then shown to
be the same for what is stripped as for what is not; two programs and two types
that are the same when stripped give the same results
(`Program.annotations_are_not_encoded`).
-/

namespace ClassFile

open Signature (Call)

/-! ## Without annotations

Types, their arguments and the levels of class types are defined by one
recursion, and so is what takes the annotations away from them. Everything
else is left in place. -/

mutual

/-- **A type without annotations,** at whatever depth. -/
def JavaType.stripped : JavaType → JavaType
  | .primitive b => .primitive b
  | .void => .void
  | .array c => .array c.stripped
  | .declared t => .declared t.stripped
  | .typeVariable id _ => .typeVariable id []
  | .wildcard => .wildcard
  | .wildcardExtends bound => .wildcardExtends bound.stripped
  | .wildcardSuper bound => .wildcardSuper bound.stripped
  | .intersection members => .intersection (JavaType.allStripped members)

/-- Types without annotations. -/
def JavaType.allStripped : List JavaType → List JavaType
  | [] => []
  | t :: ts => t.stripped :: JavaType.allStripped ts

/-- A class type without annotations. -/
def ClassType.stripped : ClassType → ClassType
  | ⟨part, outer⟩ => ⟨part.stripped, ClassPart.allStripped outer⟩

/-- One level of a class type without annotations. -/
def ClassPart.stripped : ClassPart → ClassPart
  | ⟨id, arguments, _⟩ => ⟨id, JavaType.allStripped arguments, []⟩

/-- Levels of a class type without annotations. -/
def ClassPart.allStripped : List ClassPart → List ClassPart
  | [] => []
  | part :: ps => part.stripped :: ClassPart.allStripped ps

end

/-- A type parameter without annotations, on itself and on its bounds. -/
def TypeParameter.stripped (t : TypeParameter) : TypeParameter :=
  { t with
    upperBound := t.upperBound.stripped
    lowerBound := t.lowerBound.map JavaType.stripped
    annotations := [] }

/-- A field without annotations. -/
def FieldDeclaration.stripped (f : FieldDeclaration) : FieldDeclaration :=
  { f with type := f.type.stripped, annotations := [] }

/-- A parameter without annotations. -/
def Parameter.stripped (x : Parameter) : Parameter :=
  { x with type := x.type.stripped, annotations := [] }

/-- A method without annotations. -/
def MethodDeclaration.stripped (m : MethodDeclaration) : MethodDeclaration :=
  { m with
    parameters := m.parameters.map Parameter.stripped
    result := m.result.stripped
    thrown := m.thrown.map JavaType.stripped
    annotations := [] }

/-- A member without annotations. -/
def Member.stripped : Member → Member
  | field f => field f.stripped
  | method m => method m.stripped
  | nested id => nested id

/-- A class without annotations, on itself, its supertypes and its members. -/
def ClassDeclaration.stripped (c : ClassDeclaration) : ClassDeclaration :=
  { c with
    superclass := c.superclass.map ClassType.stripped
    interfaces := c.interfaces.map ClassType.stripped
    annotations := []
    members := c.members.map Member.stripped }

/-- **A program without annotations.** -/
def Program.stripped (p : Program) : Program where
  classes := p.classes.map ClassDeclaration.stripped
  typeParameters := p.typeParameters.map TypeParameter.stripped

/-! ## What is seen of a type by itself

Whether a type is generic, whether it is a wildcard and where the way to the
left inside it ends: each of these looks at a type without a program. Wherever
it takes a type apart it discards the annotations, so the equations are the
cases of its own definition. -/

theorem JavaType.allStripped_eq_map (ts : List JavaType) :
    allStripped ts = ts.map stripped := by
  induction ts with
  | nil => rfl
  | cons t ts ih => rw [allStripped, ih, List.map_cons]

theorem ClassType.id_stripped : ∀ t : ClassType, t.stripped.id = t.id
  | ⟨⟨_, _, _⟩, _⟩ => rfl

theorem JavaType.isEmpty_allStripped (ts : List JavaType) :
    (allStripped ts).isEmpty = ts.isEmpty := by
  cases ts <;> rfl

theorem ClassPart.any_hasArguments_allStripped (ps : List ClassPart) :
    (allStripped ps).any hasArguments = ps.any hasArguments := by
  induction ps with
  | nil => rfl
  | cons part ps ih =>
    obtain ⟨id, arguments, annotations⟩ := part
    rw [allStripped, List.any_cons, List.any_cons, ih, stripped, hasArguments, hasArguments,
      JavaType.isEmpty_allStripped]

/-- Type arguments stay where they are. -/
theorem ClassType.isParameterized_stripped : ∀ t : ClassType,
    t.stripped.isParameterized = t.isParameterized
  | ⟨part, outer⟩ => ClassPart.any_hasArguments_allStripped (part :: outer)

theorem JavaType.isWildcard_stripped (t : JavaType) : t.stripped.isWildcard = t.isWildcard := by
  cases t <;> rfl

theorem JavaType.argumentMark_stripped (t : JavaType) :
    t.stripped.argumentMark = t.argumentMark := by
  rw [argumentMark, argumentMark, t.isWildcard_stripped]

theorem JavaType.isVariable_stripped (t : JavaType) : t.stripped.isVariable = t.isVariable := by
  cases t <;> rfl

/-- **A type is generic with its annotations or without.** -/
theorem JavaType.isGeneric_stripped : ∀ t : JavaType, t.stripped.isGeneric = t.isGeneric
  | .array c => by rw [stripped, isGeneric, isGeneric, isGeneric_stripped c]
  | .declared t => t.isParameterized_stripped
  | .primitive _ | .void | .typeVariable _ _ | .wildcard | .wildcardExtends _ | .wildcardSuper _
  | .intersection _ => rfl

theorem JavaType.isWildcardArray_stripped :
    ∀ t : JavaType, t.stripped.isWildcardArray = t.isWildcardArray
  | .array c => by rw [stripped, isWildcardArray, isWildcardArray, isWildcardArray_stripped c]
  | .primitive _ | .void | .declared _ | .typeVariable _ _ | .wildcard | .wildcardExtends _
  | .wildcardSuper _ | .intersection _ => rfl

/-- The way to the left passes no annotation. -/
theorem JavaType.leftmost_stripped : ∀ t : JavaType, t.stripped.leftmost = t.leftmost
  | .primitive _ | .void | .typeVariable _ _ => rfl
  | .declared t => by rw [stripped, leftmost, leftmost, t.id_stripped]
  | .array c => by rw [stripped, leftmost, leftmost, leftmost_stripped c]
  | .wildcard | .wildcardSuper _ | .intersection [] => rfl
  | .wildcardExtends bound => by rw [stripped, leftmost, leftmost, leftmost_stripped bound]
  | .intersection (first :: others) => by
    rw [stripped, allStripped, leftmost, leftmost, leftmost_stripped first]

theorem TypeParameter.bounds_stripped (t : TypeParameter) :
    t.stripped.bounds = t.bounds.map JavaType.stripped := by
  obtain ⟨name, upperBound, lowerBound, annotations⟩ := t
  cases upperBound with
  | intersection members => exact JavaType.allStripped_eq_map members
  | primitive _ | void | array _ | declared _ | typeVariable _ _ | wildcard | wildcardExtends _
  | wildcardSuper _ => rfl

theorem MethodDeclaration.parameterTypes_stripped (m : MethodDeclaration) :
    m.stripped.parameterTypes = m.parameterTypes.map JavaType.stripped := by
  show (m.parameters.map Parameter.stripped).map Parameter.type = (m.parameters.map _).map _
  rw [List.map_map, List.map_map]
  rfl

theorem MethodDeclaration.throwsVariable_stripped (m : MethodDeclaration) :
    m.stripped.throwsVariable = m.throwsVariable := by
  show (m.thrown.map JavaType.stripped).any JavaType.isVariable = _
  rw [List.any_map]
  exact congrArg m.thrown.any (funext JavaType.isVariable_stripped)

/-- **A method needs a signature with its annotations or without.** -/
theorem MethodDeclaration.needsSignature_stripped (m : MethodDeclaration) :
    m.stripped.needsSignature = m.needsSignature := by
  have hparameters : m.stripped.parameterTypes.any JavaType.isGeneric
      = m.parameterTypes.any JavaType.isGeneric := by
    rw [m.parameterTypes_stripped, List.any_map]
    exact congrArg m.parameterTypes.any (funext JavaType.isGeneric_stripped)
  have hresult : m.stripped.result.isGeneric = m.result.isGeneric := m.result.isGeneric_stripped
  unfold needsSignature
  rw [hparameters, hresult, m.throwsVariable_stripped]
  rfl

/-- **A class needs a signature with its annotations or without.** -/
theorem ClassDeclaration.needsSignature_stripped (c : ClassDeclaration) :
    c.stripped.needsSignature = c.needsSignature := by
  -- what makes a signature needed are type parameters and the arguments of supertypes
  have hsuperclass : c.stripped.superclass.any ClassType.isParameterized
      = c.superclass.any ClassType.isParameterized := by
    show (c.superclass.map ClassType.stripped).any _ = _
    rw [Option.any_map]
    exact congrArg (Option.any · c.superclass) (funext ClassType.isParameterized_stripped)
  have hinterfaces : c.stripped.interfaces.any ClassType.isParameterized
      = c.interfaces.any ClassType.isParameterized := by
    show (c.interfaces.map ClassType.stripped).any _ = _
    rw [List.any_map]
    exact congrArg c.interfaces.any (funext ClassType.isParameterized_stripped)
  unfold needsSignature
  rw [hsuperclass, hinterfaces]
  rfl

namespace Program

variable (p : Program)

/-! ## What is seen of a program

Looking up a handle in a program without annotations finds what was declared
there, without its own. -/

theorem classOf_stripped (id : ClassId) :
    p.stripped.classOf id = (p.classOf id).map ClassDeclaration.stripped := by
  unfold classOf stripped
  rw [Array.getElem?_map]
  cases p.classes[id.index]? <;> rfl

theorem typeParameterOf_stripped (id : TypeParameterId) :
    p.stripped.typeParameterOf id = (p.typeParameterOf id).map TypeParameter.stripped := by
  unfold typeParameterOf stripped
  rw [Array.getElem?_map]
  cases p.typeParameters[id.index]? <;> rfl

/-- Annotations have nothing to do with names. -/
theorem namesAlike_stripped : NamesAlike p.stripped p where
  size := Array.size_map
  classOf id := by
    rw [p.classOf_stripped]
    cases p.classOf id with
    | error e => exact .error e
    | ok c => exact .ok ⟨rfl, rfl, rfl, rfl⟩
  typeParameterOf id := by
    rw [p.typeParameterOf_stripped]
    cases p.typeParameterOf id with
    | error e => exact .error e
    | ok parameter => exact .ok rfl

/-- **A type is an interface with its annotations or without.** -/
theorem isInterface_stripped : ∀ t : JavaType, p.isInterface t.stripped = p.isInterface t
  | .declared t => by rw [JavaType.stripped, isInterface, isInterface, t.id_stripped]
  | .intersection (first :: others) => by
    rw [JavaType.stripped, JavaType.allStripped, isInterface, isInterface,
      isInterface_stripped first]
  | .primitive _ | .void | .array _ | .typeVariable _ _ | .wildcard | .wildcardExtends _
  | .wildcardSuper _ | .intersection [] => rfl

/-! ## Signatures of types

There is one equation for each of the functions that write a type, with the
recursion of that function. The bounds of a type parameter are looked up in
the program, so the program is stripped as well. -/

mutual

/-- **The signature of a type shows no annotation,** by recursion on the type.
On the left it is written in the program as it is: a type is written without a
look at what is declared, names apart. -/
theorem typeCalls_stripped : ∀ t : JavaType, p.typeCalls t.stripped = p.typeCalls t
  | .primitive _ | .void | .wildcard | .intersection _ => rfl
  | .typeVariable id _ => by rw [JavaType.stripped, typeCalls, typeCalls]
  | .array c => by rw [JavaType.stripped, typeCalls, typeCalls, typeCalls_stripped c]
  | .declared ⟨⟨id, arguments, _⟩, outer⟩ => by
    rw [JavaType.stripped, ClassType.stripped, ClassPart.stripped, typeCalls, typeCalls,
      headCalls_stripped id outer, argumentCalls_stripped arguments]
  | .wildcardExtends bound => by
    rw [JavaType.stripped, typeCalls, typeCalls, typeCalls_stripped bound]
  | .wildcardSuper bound => by
    rw [JavaType.stripped, typeCalls, typeCalls, typeCalls_stripped bound]

/-- Neither do type arguments. -/
theorem argumentCalls_stripped : ∀ ts : List JavaType,
    p.argumentCalls (JavaType.allStripped ts) = p.argumentCalls ts
  | [] => rfl
  | t :: ts => by
    rw [JavaType.allStripped, argumentCalls, argumentCalls, typeCalls_stripped t,
      argumentCalls_stripped ts, t.argumentMark_stripped]

/-- Neither does the beginning of a class type. -/
theorem headCalls_stripped (id : ClassId) : ∀ outer : List ClassPart,
    p.headCalls id (ClassPart.allStripped outer) = p.headCalls id outer
  | [] => rfl
  | ⟨outerId, arguments, annotations⟩ :: further => by
    have hparameterized := (ClassType.mk ⟨outerId, arguments, annotations⟩
      further).isParameterized_stripped
    rw [ClassType.stripped, ClassPart.stripped] at hparameterized
    rw [ClassPart.allStripped, ClassPart.stripped, headCalls, headCalls, hparameterized,
      headCalls_stripped outerId further, argumentCalls_stripped arguments]

end

theorem boundCalls_stripped (bound : JavaType) :
    p.stripped.boundCalls bound.stripped = p.boundCalls bound := by
  rw [p.namesAlike_stripped.boundCalls_eq, boundCalls, boundCalls, p.isInterface_stripped,
    p.typeCalls_stripped]

/-- **A type parameter is declared alike,** whatever annotations its bounds have. -/
theorem declaresAlike_stripped (id : TypeParameterId) : DeclaresAlike p.stripped p id := by
  unfold DeclaresAlike
  rw [p.typeParameterOf_stripped]
  cases p.typeParameterOf id with
  | error e => exact .error e
  | ok parameter =>
    refine .ok ⟨rfl, Option.isSome_map, ?_⟩
    rw [parameter.bounds_stripped, List.mapM_map]
    exact congrArg (parameter.bounds.mapM ·) (funext p.boundCalls_stripped)

/-- Declaring the variable of a type shows no annotation on the type. -/
theorem declaringCalls_stripped : ∀ t : JavaType,
    p.declaringCalls t.stripped = p.declaringCalls t
  | .array c => by
    rw [JavaType.stripped, declaringCalls, declaringCalls, declaringCalls_stripped c]
  | .typeVariable _ _ => rfl
  | .primitive b => p.typeCalls_stripped (.primitive b)
  | .void => p.typeCalls_stripped .void
  | .declared t => p.typeCalls_stripped (.declared t)
  | .wildcard => p.typeCalls_stripped .wildcard
  | .wildcardExtends bound => p.typeCalls_stripped (.wildcardExtends bound)
  | .wildcardSuper bound => p.typeCalls_stripped (.wildcardSuper bound)
  | .intersection members => p.typeCalls_stripped (.intersection members)

/-- Neither does a segment by itself. -/
theorem segmentCalls_stripped : ∀ t : JavaType, p.segmentCalls t.stripped = p.segmentCalls t
  | .array c => by
    rw [JavaType.stripped, segmentCalls, segmentCalls, segmentCalls_stripped c]
  | .declared ⟨⟨id, arguments, annotations⟩, outer⟩ => by
    rw [JavaType.stripped, ClassType.stripped, ClassPart.stripped, segmentCalls, segmentCalls]
    dsimp only [ClassType.id]
    rw [p.argumentCalls_stripped arguments]
  | .typeVariable id annotations => p.typeCalls_stripped (.typeVariable id annotations)
  | .primitive b => p.typeCalls_stripped (.primitive b)
  | .void => p.typeCalls_stripped .void
  | .wildcard => p.typeCalls_stripped .wildcard
  | .wildcardExtends bound => p.typeCalls_stripped (.wildcardExtends bound)
  | .wildcardSuper bound => p.typeCalls_stripped (.wildcardSuper bound)
  | .intersection members => p.typeCalls_stripped (.intersection members)

/-! ## Erasures and descriptors

An erasure passes from a type variable to the bound of its type parameter, so
here the program is stripped along with the type. By `erasureAmong_congr` it
is enough that the ways to the left are the same. -/

/-- **The erasure of a type has nothing to do with annotations.** -/
theorem erasure_stripped (t : JavaType) : p.stripped.erasure t.stripped = p.erasure t := by
  have hids : p.stripped.typeParameterIds = p.typeParameterIds := by
    unfold typeParameterIds stripped
    rw [Array.size_map]
  unfold erasure
  rw [hids]
  -- the bounds that are passed on the way are stripped, too, and lead to the left alike
  refine erasureAmong_congr (fun id => ?_) (fun id => ?_) _ t.leftmost_stripped
  · exact (p.namesAlike_stripped.classOf id).mono fun _ _ _ => trivial
  · rw [p.typeParameterOf_stripped]
    cases p.typeParameterOf id with
    | error e => exact .error e
    | ok parameter => exact .ok ⟨rfl, parameter.upperBound.leftmost_stripped⟩

theorem descriptorCalls_stripped (terminated : Bool) (t : JavaType) :
    p.stripped.descriptorCalls terminated t.stripped = p.descriptorCalls terminated t :=
  p.namesAlike_stripped.descriptorCalls_congr terminated t.isWildcardArray_stripped
    (p.erasure_stripped t)

/-- **A type is written without its annotations,** in whatever mode. -/
theorem calls_stripped (t : JavaType) (mode : EncodingMode) :
    p.stripped.calls t.stripped mode = p.calls t mode := by
  -- every type parameter is declared alike, so it does not matter which ones are declared
  have hsignature : ∀ (m : EncodingMode), m.isDescriptor = false →
      p.stripped.calls t.stripped m = p.calls t.stripped m := fun m hm =>
    p.namesAlike_stripped.calls_eq t.stripped hm fun id _ => p.declaresAlike_stripped id
  cases mode with
  | descriptor => exact p.descriptorCalls_stripped true t
  | descriptorUnterminated => exact p.descriptorCalls_stripped false t
  | signature => exact (hsignature .signature rfl).trans (p.typeCalls_stripped t)
  | signatureWithBounds =>
    exact (hsignature .signatureWithBounds rfl).trans (p.declaringCalls_stripped t)
  | signatureSimple => exact (hsignature .signatureSimple rfl).trans (p.segmentCalls_stripped t)

theorem encode_stripped (t : JavaType) (mode : EncodingMode) :
    p.stripped.encode t.stripped mode = p.encode t mode := by
  rw [encode, encode, p.calls_stripped]

theorem thrownName_stripped (t : JavaType) : p.stripped.thrownName t.stripped = p.thrownName t := by
  unfold thrownName
  rw [p.erasure_stripped]
  simp only [p.namesAlike_stripped.internalName_eq]

/-! ## Fields -/

theorem storesConstant_stripped (t : JavaType) :
    p.stripped.storesConstant t.stripped = p.storesConstant t := by
  cases t with
  | declared t =>
    rw [JavaType.stripped, storesConstant, storesConstant, t.id_stripped]
    simp only [p.namesAlike_stripped.qualifiedName_eq]
  | primitive _ | void | array _ | typeVariable _ _ | wildcard | wildcardExtends _
  | wildcardSuper _ | intersection _ => rfl

/-- **A field stores the same constant** whatever annotations its type has. -/
theorem fieldConstant_stripped (isStaticFinal : Bool) (t : JavaType)
    (initializer : Option Constant) :
    p.stripped.fieldConstant isStaticFinal t.stripped initializer
      = p.fieldConstant isStaticFinal t initializer := by
  unfold fieldConstant
  rw [p.storesConstant_stripped]

/-! ## Methods and classes

A method and a class are written as lists of types, each of which shows no
annotation. -/

/-- What is done with each of some types is done with what is stripped. -/
theorem mapM_stripped {α : Type} {f g : JavaType → Except Error α}
    (h : ∀ t, f t.stripped = g t) (ts : List JavaType) :
    (ts.map JavaType.stripped).mapM f = ts.mapM g := by
  rw [List.mapM_map]
  exact congrArg (ts.mapM ·) (funext h)

theorem parameterList_stripped (types : List JavaType) (mode : EncodingMode) :
    p.stripped.parameterList (types.map JavaType.stripped) mode = p.parameterList types mode := by
  rw [parameterList, parameterList, mapM_stripped fun t => p.calls_stripped t mode]

theorem shapeCalls_stripped (parameters : List JavaType) (result : JavaType)
    (mode : EncodingMode) :
    p.stripped.shapeCalls (parameters.map JavaType.stripped) result.stripped mode
      = p.shapeCalls parameters result mode := by
  rw [shapeCalls, shapeCalls, p.calls_stripped, mapM_stripped fun t => by rw [p.calls_stripped]]

theorem formalsCalls_stripped : ∀ (types : List JavaType) (declared : List TypeParameterId),
    p.formalsCalls declared (types.map JavaType.stripped) = p.formalsCalls declared types
  | [], _ => rfl
  | .typeVariable id _ :: ts, declared => by
    rw [List.map_cons, JavaType.stripped, formalsCalls, formalsCalls,
      formalsCalls_stripped ts (id :: declared)]
  | .primitive _ :: _, _ | .void :: _, _ | .array _ :: _, _ | .declared _ :: _, _
  | .wildcard :: _, _ | .wildcardExtends _ :: _, _ | .wildcardSuper _ :: _, _
  | .intersection _ :: _, _ => rfl

/-- A method is written without the annotations on any of its types. -/
theorem methodCalls_stripped (typeParameters parameters : List JavaType) (result : JavaType)
    (mode : EncodingMode) :
    p.stripped.methodCalls (typeParameters.map JavaType.stripped)
        (parameters.map JavaType.stripped) result.stripped mode
      = p.methodCalls typeParameters parameters result mode := by
  have hformals : p.stripped.formalsCalls [] (typeParameters.map JavaType.stripped)
      = p.formalsCalls [] typeParameters :=
    (NamesAlike.formalsCalls_eq _ [] fun id _ => p.declaresAlike_stripped id).trans
      (p.formalsCalls_stripped typeParameters [])
  rw [methodCalls, methodCalls, p.shapeCalls_stripped, p.shapeCalls_stripped, hformals]

theorem encodeMethod_stripped (typeParameters parameters : List JavaType) (result : JavaType)
    (mode : EncodingMode) :
    p.stripped.encodeMethod (typeParameters.map JavaType.stripped)
        (parameters.map JavaType.stripped) result.stripped mode
      = p.encodeMethod typeParameters parameters result mode := by
  rw [encodeMethod, encodeMethod, p.methodCalls_stripped]

theorem methodDescriptor_stripped (m : MethodDeclaration) :
    p.stripped.methodDescriptor m.stripped = p.methodDescriptor m := by
  rw [methodDescriptor, methodDescriptor, m.parameterTypes_stripped]
  exact p.encodeMethod_stripped [] m.parameterTypes m.result .descriptor

theorem thrownCalls_stripped (m : MethodDeclaration) :
    p.stripped.thrownCalls m.stripped = p.thrownCalls m := by
  have hthrown : ∀ t : JavaType, p.stripped.typeCalls t.stripped = p.typeCalls t :=
    fun t => p.calls_stripped t .signature
  rw [thrownCalls, thrownCalls, m.throwsVariable_stripped]
  show (if m.throwsVariable then (m.thrown.map JavaType.stripped).mapM _ >>= _ else _) = _
  rw [mapM_stripped fun t => by rw [hthrown t]]

/-- **The signature of a method shows no annotation.** -/
theorem methodSignature_stripped (m : MethodDeclaration) :
    p.stripped.methodSignature m.stripped = p.methodSignature m := by
  -- type parameters are handed on as types that have no annotations to begin with
  have hformals : (m.typeParameters.map JavaType.ofParameter).map JavaType.stripped
      = m.typeParameters.map JavaType.ofParameter := by
    rw [List.map_map]
    rfl
  have hmethod := p.methodCalls_stripped (m.typeParameters.map .ofParameter) m.parameterTypes
    m.result .signature
  rw [hformals, ← m.parameterTypes_stripped] at hmethod
  unfold methodSignature
  rw [p.thrownCalls_stripped]
  exact congrArg (· >>= _) hmethod

/-- **The signature of a class shows no annotation,** neither on its type
parameters nor on its supertypes. -/
theorem declarationCalls_stripped (c : ClassDeclaration) :
    p.stripped.declarationCalls c.stripped = p.declarationCalls c := by
  have htype : ∀ t : ClassType,
      p.stripped.typeCalls (.declared t.stripped) = p.typeCalls (.declared t) :=
    fun t => p.calls_stripped (.declared t) .signature
  have hsuperclass : c.stripped.superclass.getD .object
      = (c.superclass.getD .object).stripped := by
    show (c.superclass.map ClassType.stripped).getD ClassType.object.stripped = _
    exact Option.getD_map ..
  have hinterfaces :
      c.stripped.interfaces.mapM (fun t => do
          return Call.interface :: (← p.stripped.typeCalls (.declared t)))
        = c.interfaces.mapM fun t => do return .interface :: (← p.typeCalls (.declared t)) := by
    show (c.interfaces.map ClassType.stripped).mapM _ = _
    rw [List.mapM_map]
    exact congrArg (c.interfaces.mapM ·) (funext fun t => by simp only [Function.comp, htype])
  unfold declarationCalls
  rw [hsuperclass, htype, hinterfaces,
    NamesAlike.formalsCalls_eq _ [] fun id _ => p.declaresAlike_stripped id]
  rfl

/-- Looked up in a program without annotations, a class has the signature that
it had. -/
theorem classSignature?_stripped (id : ClassId) :
    p.stripped.classSignature? id = p.classSignature? id := by
  unfold classSignature?
  rw [p.classOf_stripped]
  cases p.classOf id with
  | error e => rfl
  | ok c =>
    show (if c.stripped.needsSignature then _ else _)
      = (if c.needsSignature then _ else _ : Except _ _)
    rw [c.needsSignature_stripped, p.declarationCalls_stripped]

/-! ## Two programs

An equation between what is stripped and what is not is an equation between
any two that are the same when stripped. -/

/-- Taking away the annotations on the innermost level takes away annotations only. -/
theorem stripped_normalized? {t u : JavaType} (h : p.normalized? t = some u) :
    u.stripped = t.stripped := by
  cases t with
  | declared t =>
    rw [normalized?] at h
    -- nothing is taken from a class type that has no annotation on its innermost level
    split at h
    · cases h
    · obtain ⟨bare, hbare, rfl⟩ := Option.map_eq_some_iff.mp h
      unfold unannotated? at hbare
      split at hbare
      · obtain ⟨⟨id, arguments, annotations⟩, outer⟩ := t
        cases hbare
        rfl
      · cases hbare
  | primitive _ | void | array _ | typeVariable _ _ | wildcard | wildcardExtends _
  | wildcardSuper _ | intersection _ => cases h

/-- **What is the same for what is stripped** is the same for two things that are
the same when stripped. -/
theorem eq_of_stripped {α β : Type} {strip : α → α} {f : Program → α → β}
    (hf : ∀ p a, f p.stripped (strip a) = f p a) {p q : Program} (h : p.stripped = q.stripped)
    {a b : α} (hab : strip a = strip b) : f p a = f q b := by
  rw [← hf p a, ← hf q b, h, hab]

/-- **Two classes have the same signature** if they are the same without their annotations,
whatever handles they have. -/
theorem classSignature?_congr {p q : Program} (h : p.stripped = q.stripped) {id id' : ClassId}
    {c d : ClassDeclaration} (hc : p.classOf id = .ok c) (hd : q.classOf id' = .ok d)
    (hcd : c.stripped = d.stripped) : p.classSignature? id = q.classSignature? id' := by
  have hcalls : p.declarationCalls c = q.declarationCalls d :=
    eq_of_stripped declarationCalls_stripped h hcd
  have hneeds : c.needsSignature = d.needsSignature := by
    rw [← c.needsSignature_stripped, hcd, d.needsSignature_stripped]
  unfold classSignature?
  rw [hc, hd]
  show (if c.needsSignature then _ else _) = (if d.needsSignature then _ else _ : Except _ _)
  rw [hneeds, hcalls]

/-- **Annotations are not encoded.** Two programs that are the same without their
annotations have the same descriptors and signatures, erasures and constants, and
fail for the same reasons: for types, parameter lists, fields, methods and classes
that are the same without theirs, and a class need not even have the same handle in
both. Normalizing a type is to take away some of its annotations, so it changes
nothing either. -/
theorem annotations_are_not_encoded {p q : Program} (h : p.stripped = q.stripped) :
    (∀ t u : JavaType, t.stripped = u.stripped →
      (∀ mode, p.encode t mode = q.encode u mode) ∧ p.erasure t = q.erasure u
        ∧ p.isInterface t = q.isInterface u ∧ p.thrownName t = q.thrownName u
        ∧ t.isGeneric = u.isGeneric)
    ∧ (∀ s t : ClassType, s.stripped = t.stripped → p.classDescriptor s = q.classDescriptor t)
    ∧ (∀ ts us : List JavaType, ts.map JavaType.stripped = us.map JavaType.stripped →
      p.parametersDescriptor ts = q.parametersDescriptor us
        ∧ p.parametersSignature ts = q.parametersSignature us)
    ∧ (∀ fs gs ts us : List JavaType, ∀ t u : JavaType,
      fs.map JavaType.stripped = gs.map JavaType.stripped →
        ts.map JavaType.stripped = us.map JavaType.stripped → t.stripped = u.stripped →
          ∀ mode, p.encodeMethod fs ts t mode = q.encodeMethod gs us u mode)
    ∧ (∀ f g : FieldDeclaration, f.stripped = g.stripped →
      p.fieldConstant f.isStaticFinal f.type f.initializer
        = q.fieldConstant g.isStaticFinal g.type g.initializer)
    ∧ (∀ m n : MethodDeclaration, m.stripped = n.stripped →
      p.methodDescriptor m = q.methodDescriptor n ∧ p.methodSignature m = q.methodSignature n
        ∧ m.needsSignature = n.needsSignature)
    ∧ (∀ c d : ClassDeclaration, c.stripped = d.stripped → c.needsSignature = d.needsSignature)
    ∧ (∀ (id id' : ClassId) (c d : ClassDeclaration), p.classOf id = .ok c →
      q.classOf id' = .ok d → c.stripped = d.stripped →
        p.classSignature? id = q.classSignature? id')
    ∧ (∀ id : ClassId, p.classSignature? id = q.classSignature? id)
    ∧ ∀ t u : JavaType, p.normalized? t = some u → u.stripped = t.stripped := by
  refine ⟨fun t u htu => ⟨fun mode => ?_, ?_, ?_, ?_, ?_⟩, fun s t hst => ?_,
    fun ts us htus => ⟨?_, ?_⟩, fun fs gs ts us t u hfs hts htu mode => ?_, fun f g hfg => ?_,
    fun m n hmn => ⟨?_, ?_, ?_⟩, fun c d hcd => ?_,
    fun id id' c d hc hd hcd => classSignature?_congr h hc hd hcd, fun id => ?_,
    fun t u => p.stripped_normalized?⟩
  · exact eq_of_stripped (f := fun p t => p.encode t mode) (fun p t => p.encode_stripped t mode)
      h htu
  · exact eq_of_stripped erasure_stripped h htu
  · refine eq_of_stripped (fun p t => ?_) h htu
    rw [p.namesAlike_stripped.isInterface_eq, p.isInterface_stripped]
  · exact eq_of_stripped thrownName_stripped h htu
  · rw [← t.isGeneric_stripped, htu, u.isGeneric_stripped]
  · exact eq_of_stripped (fun p t => p.encode_stripped (.declared t) .descriptor) h hst
  · exact eq_of_stripped (fun p ts => p.parameterList_stripped ts .descriptor) h htus
  · exact eq_of_stripped (fun p ts => p.parameterList_stripped ts .signature) h htus
  · rw [← p.encodeMethod_stripped, ← q.encodeMethod_stripped, h, hfs, hts, htu]
  · refine eq_of_stripped (f := fun p f => p.fieldConstant f.isStaticFinal f.type f.initializer)
      (fun p f => ?_) h hfg
    exact p.fieldConstant_stripped f.isStaticFinal f.type f.initializer
  · exact eq_of_stripped methodDescriptor_stripped h hmn
  · exact eq_of_stripped methodSignature_stripped h hmn
  · rw [← m.needsSignature_stripped, hmn, n.needsSignature_stripped]
  · rw [← c.needsSignature_stripped, hcd, d.needsSignature_stripped]
  · rw [← p.classSignature?_stripped, ← q.classSignature?_stripped, h]

/-- Annotations on an array's component, its argument, the type around it and the
bound of a type variable, and a program without any of them. The class is there twice,
once with annotations on what it extends and once without. -/
theorem annotations_are_not_encoded_depths :
    let a : Annotation := ⟨.plain .retention, []⟩
    let type (annotations : List Annotation) : JavaType :=
      .array (.declared
        ⟨⟨.string, [.wildcardExtends (.typeVariable ⟨0⟩ annotations)], annotations⟩,
          [⟨.object, [.wildcard], annotations⟩]⟩)
    let method (annotations : List Annotation) : MethodDeclaration :=
      ⟨"m", false, [], false, [⟨0⟩], [⟨"x", type annotations, annotations⟩], .void, [], annotations⟩
    let c (annotations : List Annotation) : ClassDeclaration :=
      { ClassDeclaration.bare .ordinary "pkg" "C" with
        typeParameters := [⟨0⟩]
        superclass := some ⟨⟨.object, [], annotations⟩, []⟩
        interfaces := [⟨⟨.string, [type annotations], annotations⟩, []⟩]
        annotations }
    let declaring (annotations : List Annotation) : Program :=
      { classes := Program.initial.classes ++ #[c annotations, c []]
        typeParameters :=
          #[⟨"T", .declared ⟨⟨.object, [.declared ⟨⟨.string, [], annotations⟩, []⟩], annotations⟩,
            []⟩, none, annotations⟩] }
    (declaring [a]).stripped = (declaring []).stripped
      ∧ (type [a]).stripped = (type []).stripped
      ∧ (∀ mode, (declaring [a]).encode (type [a]) mode = (declaring []).encode (type []) mode)
      ∧ (declaring []).encode (type []) .signature
        = .ok "[Ljava/lang/Object<*>.String<+TT;>;"
      ∧ (method [a]).stripped = (method []).stripped
      ∧ (declaring [a]).methodSignature (method [a]) = (declaring []).methodSignature (method [])
      ∧ (declaring []).methodSignature (method [])
        = .ok "<T:Ljava/lang/Object<Ljava/lang/String;>;>([Ljava/lang/Object<*>.String<+TT;>;)V"
      ∧ (c [a]).stripped = (c []).stripped
      ∧ (declaring [a]).classOf ⟨6⟩ = .ok (c [a])
      ∧ (declaring []).classOf ⟨7⟩ = .ok (c [])
      ∧ (declaring [a]).classSignature? ⟨6⟩ = (declaring []).classSignature? ⟨7⟩
      ∧ (declaring []).classSignature? ⟨7⟩
        = .ok (some ("<T:Ljava/lang/Object<Ljava/lang/String;>;>Ljava/lang/Object;"
          ++ "Ljava/lang/String<[Ljava/lang/Object<*>.String<+TT;>;>;")) := by
  intro a type method c declaring
  have h : (declaring [a]).stripped = (declaring []).stripped := by
    simp only [declaring, stripped, Array.map_append, List.map_toArray]
    rfl
  have htype : (type [a]).stripped = (type []).stripped := rfl
  have hmethod : (method [a]).stripped = (method []).stripped := rfl
  have hclass : (c [a]).stripped = (c []).stripped := rfl
  obtain ⟨types, _, _, _, _, methods, _, classes, _⟩ := annotations_are_not_encoded h
  exact ⟨h, htype, (types _ _ htype).1, by cbv, hmethod, (methods _ _ hmethod).2.1, by cbv,
    hclass, rfl, rfl, classes ⟨6⟩ ⟨7⟩ _ _ rfl rfl hclass, by cbv⟩

end Program

end ClassFile
