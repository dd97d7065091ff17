import ClassFile.Proofs.Signature.DeclarationText

/-!
# Declarations in parts

One writer writes a whole declaration, and everything it remembers – that a list
of type parameters is open, that a parameter list is, which class types are
unfinished, which type parameters have been declared – is handed from one part to
the next. Nevertheless each part could have been written by a writer of its own:
the signature of a class or of a method consists of the signatures of its types,
encoded one by one and put together with brackets and marks
(`Program.declarations_written_in_parts`). The only thing that a part has to know
of the others is whether a type parameter has been listed before, and that is to
be seen in the list.

Parameter lists are written in two ways, with a writer of their own and as a part
of a method. In both they are the same text, or fail for the same reason.
-/

namespace ClassFile

open Signature

/-- Some types in parentheses, each of them encoded by itself. -/
def parenthesized (encode : JavaType → Except Error String) (types : List JavaType) :
    Except Error String := do
  return "(" ++ String.join (← types.mapM encode) ++ ")"

/-- The type parameters at the head of a list of types, up to the first type that
is no variable. -/
def JavaType.leadingParameters : List JavaType → List TypeParameterId
  | typeVariable id _ :: ts => id :: JavaType.leadingParameters ts
  | _ => []

namespace Program

variable (p : Program)

/-! ## Type parameters

The position of a type parameter in its list is all that has to be known of
the others. It is given together with the type parameter, and the text is
found without any state. -/

/-- A bound with its mark: whether it is an interface is asked first. -/
def boundPiece (bound : JavaType) : Except Error String := do
  let mark := if ← p.isInterface bound then ":" else ""
  return mark ++ (← p.typeSignature bound)

/-- **The piece of a type parameter in a list,** by its position: it is declared
where it comes first, and named where it comes again. -/
def formalPiece (ids : List TypeParameterId) (position : TypeParameterId × Nat) :
    Except Error String := do
  let parameter ← p.typeParameterOf position.1
  if position.1 ∈ ids.take position.2 then
    return "T" ++ parameter.name ++ ";"
  else if parameter.lowerBound.isSome then
    throw (.unsupported .lowerBound)
  else
    return parameter.name ++ ":" ++ String.join (← parameter.bounds.mapM p.boundPiece)

/-- **A list of type parameters,** piece by piece. -/
def formalPart (ids : List TypeParameterId) : Except Error String := do
  return angled (← ids.zipIdx.mapM (p.formalPiece ids))

/-- Signatures of single types are texts. -/
theorem typeSignature_eq_typeText : p.typeSignature = p.typeText := funext p.typeSignature_eq

theorem boundPiece_eq_boundText : p.boundPiece = p.boundText := by
  funext bound
  rw [boundPiece, boundText, p.typeSignature_eq]

/-- What has been declared before a position is what the list has before it. -/
theorem formalPiece_eq {declared ids : List TypeParameterId} {id : TypeParameterId} {n : Nat}
    (h : id ∈ ids.take n ↔ id ∈ declared) :
    p.formalPiece ids (id, n) = p.formalText declared id := by
  unfold formalPiece formalText
  simp only [h, p.boundPiece_eq_boundText]

/-- The texts of type parameters are their pieces, by induction on the list behind
those that come before. -/
theorem formalTexts_eq (ids : List TypeParameterId) :
    ∀ before declared : List TypeParameterId, (∀ id, id ∈ before ↔ id ∈ declared) →
      p.formalTexts declared ids
        = (ids.zipIdx before.length).mapM (p.formalPiece (before ++ ids)) := by
  -- the writer adds to `declared` in front and the list grows behind `before`, so that they
  -- have the same members is all that can be kept
  induction ids with
  | nil => exact fun _ _ _ => rfl
  | cons id ids ih =>
    intro before declared h
    have hfirst : p.formalPiece (before ++ id :: ids) (id, before.length)
        = p.formalText declared id := by
      refine p.formalPiece_eq ?_
      rw [List.take_left]
      exact h id
    have hothers := ih (before ++ [id]) (id :: declared) fun i => by
      rw [List.mem_append, List.mem_singleton, List.mem_cons, h, or_comm]
    rw [List.append_assoc, List.singleton_append, List.length_append, List.length_singleton]
      at hothers
    rw [formalTexts, List.zipIdx_cons, List.mapM_cons, hfirst, hothers]

theorem formalPart_eq (ids : List TypeParameterId) :
    p.formalPart ids = do return angled (← p.formalTexts [] ids) := by
  rw [formalPart, p.formalTexts_eq ids [] [] fun _ => Iff.rfl]
  rfl

example :
    let p : Program := { Program.initial with
      typeParameters := #[⟨"T", .declared .object, none, []⟩] }
    p.formalPart [⟨0⟩, ⟨0⟩] = .ok "<T:Ljava/lang/Object;TT;>" := by
  decide +kernel

/-! ## Parameters

The text is the same whether the parentheses are set by a writer that has
nothing else to write or by one that has written type parameters before. -/

theorem calls_signature_agree (t : JavaType) :
    Agree Writes (p.calls t .signature) (p.typeSignature t) := by
  rw [p.typeSignature_eq]
  exact (p.typeCalls_agree t).mono fun _ _ h => h.writes

theorem calls_descriptor_agree (t : JavaType) :
    Agree Writes (p.calls t .descriptor) (p.typeDescriptor t) := by
  rw [p.typeDescriptor_eq]
  exact p.descriptorCalls_agree t

/-- A list of parameters is its types in parentheses. -/
theorem parameterList_eq {mode : EncodingMode} {encode : JavaType → Except Error String}
    (h : ∀ t, Agree Writes (p.calls t mode) (encode t)) (types : List JavaType) :
    p.parameterList types mode = parenthesized encode types := by
  refine ((Agree.mapM h types).bind fun css texts hcss => .ok ?_).eq
  rw [(writes_flatten hcss).textOf_eq]

/-- **Parameters and result** are written as the parameters by themselves and
then the result. -/
theorem shapeCalls_agree_parts {mode : EncodingMode} {encode : JavaType → Except Error String}
    (h : ∀ t, Agree Writes (p.calls t mode) (encode t)) (parameters : List JavaType)
    (result : JavaType) :
    Agree WritesShape (p.shapeCalls parameters result mode)
      (do return (← p.parameterList parameters mode) ++ (← encode result)) := by
  rw [p.parameterList_eq h]
  have hshape := p.shapeCalls_agree h parameters result
  unfold shapeText at hshape
  unfold parenthesized
  simpa only [bind_assoc, pure_bind] using hshape

/-! ## Methods

A signature and a descriptor of a method are made by the same function, which
is given the type parameters as types. In a signature they come first, and a
descriptor does not mention them. -/

/-- **Type parameters that are given as types** are declared up to the first type
that is no variable, and there they fail. -/
theorem formalsCalls_eq_leading (types : List JavaType) : ∀ declared : List TypeParameterId,
    p.formalsCalls declared types = (do
      let formals ← p.formalsCalls declared ((JavaType.leadingParameters types).map .ofParameter)
      if types.all JavaType.isVariable then return formals
      else throw (.unsupported .formalNotVariable)) := by
  induction types with
  | nil => exact fun _ => rfl
  | cons t ts ih =>
    intro declared
    cases t with
    | typeVariable id annotations =>
      rw [formalsCalls, JavaType.leadingParameters, List.map_cons, JavaType.ofParameter,
        formalsCalls, ih]
      simp only [bind_assoc, pure_bind]
      refine congrArg (_ >>= ·) (funext fun first => congrArg (_ >>= ·) (funext fun others => ?_))
      rw [List.all_cons, JavaType.isVariable, Bool.true_and]
      split <;> rfl
    | primitive _ | void | array _ | declared _ | wildcard | wildcardExtends _ | wildcardSuper _
    | intersection _ => rfl

/-- The descriptor of a method has no other parts than parameters and result. -/
theorem encodeMethod_descriptor (typeParameters parameters : List JavaType) (result : JavaType)
    {mode : EncodingMode} (hmode : mode.isDescriptor = true) :
    p.encodeMethod typeParameters parameters result mode
      = do return (← p.parametersDescriptor parameters) ++ (← p.typeDescriptor result) := by
  unfold encodeMethod methodCalls
  rw [if_pos hmode]
  exact (p.shapeCalls_agree_parts p.calls_descriptor_agree parameters result).map_eq
    fun _ _ hs => hs.textOf_eq

/-- In a signature the type parameters go ahead. -/
theorem encodeMethod_signature (typeParameters parameters : List JavaType) (result : JavaType)
    {mode : EncodingMode} (hmode : mode.isDescriptor = false) :
    p.encodeMethod typeParameters parameters result mode = (do
      let formals ← p.formalPart (JavaType.leadingParameters typeParameters)
      if typeParameters.all JavaType.isVariable then
        return formals ++ (← p.parametersSignature parameters) ++ (← p.typeSignature result)
      else throw (.unsupported .formalNotVariable)) := by
  unfold encodeMethod methodCalls
  rw [if_neg (hmode ▸ Bool.false_ne_true), formalsCalls_eq_leading, formalPart_eq]
  simp only [bind_assoc, pure_bind]
  -- the type parameters ahead of the first type that is no variable may fail before it does
  refine ((p.formalsCalls_agree_all _).bind fun fs texts hf => ?_).map_eq
    fun cs s (h : textOf cs = s) => h
  by_cases hall : typeParameters.all JavaType.isVariable
  · have hshape := p.shapeCalls_agree_parts p.calls_signature_agree parameters result
    rw [if_pos hall, if_pos hall, pure_bind]
    have hagree := hshape.bind (S := fun cs s => textOf cs = s)
      (f := fun shape => pure (fs ++ shape)) (g := fun shape => pure (angled texts ++ shape))
      fun cs s hs => .ok (hf.textOf_shape hs)
    simpa only [parametersSignature, bind_assoc, pure_bind, ← String.append_assoc] using hagree
  · rw [if_neg hall, if_neg hall]
    exact .error _

/-- What a method throws is written type by type, or not at all. -/
theorem thrownText_eq (m : MethodDeclaration) :
    p.thrownText m = do
      return String.join (← (if m.throwsVariable then m.thrown else []).mapM fun t =>
        return "^" ++ (← p.typeSignature t)) := by
  unfold thrownText
  rw [typeSignature_eq_typeText]
  split <;> rfl

/-- **The signature of a method,** part by part. -/
theorem methodSignature_eq_parts (m : MethodDeclaration) :
    p.methodSignature m = (do
      let formals ← p.formalPart m.typeParameters
      let parameters ← p.parametersSignature m.parameterTypes
      let result ← p.typeSignature m.result
      let thrown ← (if m.throwsVariable then m.thrown else []).mapM fun t =>
        return "^" ++ (← p.typeSignature t)
      return formals ++ parameters ++ result ++ String.join thrown) := by
  rw [p.methodSignature_eq, parametersSignature, p.parameterList_eq p.calls_signature_agree]
  simp only [methodText, thrownText_eq, shapeText, parenthesized, formalPart_eq,
    typeSignature_eq_typeText, bind_assoc, pure_bind, String.append_assoc]

/-! ## Everything that is written by one writer

The parts are equations between results, so they say of errors too where they
come from: from the first part that has one. -/

/-- **Declarations are written in parts.** What one writer writes of a
declaration is what each of its parts is by itself, put together in order, and
the reason why it cannot be written is that of the first part that cannot be.
This goes for the signature of a class and of a method with all their type
parameters, for parameter lists by themselves and within a method, and for the
descriptor of a method. -/
theorem declarations_written_in_parts :
    (∀ id : ClassId, p.classSignature? id = do
      let c ← p.classOf id
      if c.needsSignature then
        let formals ← p.formalPart c.typeParameters
        let superclass ← p.typeSignature (.declared (c.superclass.getD .object))
        let interfaces ← c.interfaces.mapM fun t => p.typeSignature (.declared t)
        return some (formals ++ superclass ++ String.join interfaces)
      else return none)
    ∧ (∀ m : MethodDeclaration, p.methodSignature m = do
      let formals ← p.formalPart m.typeParameters
      let parameters ← p.parametersSignature m.parameterTypes
      let result ← p.typeSignature m.result
      let thrown ← (if m.throwsVariable then m.thrown else []).mapM fun t =>
        return "^" ++ (← p.typeSignature t)
      return formals ++ parameters ++ result ++ String.join thrown)
    ∧ (∀ types : List JavaType,
      p.parametersDescriptor types = parenthesized p.typeDescriptor types
        ∧ p.parametersSignature types = parenthesized p.typeSignature types)
    ∧ (∀ m : MethodDeclaration, p.methodDescriptor m
      = do return (← p.parametersDescriptor m.parameterTypes) ++ (← p.typeDescriptor m.result))
    ∧ ∀ (typeParameters parameters : List JavaType) (result : JavaType) (mode : EncodingMode),
      p.encodeMethod typeParameters parameters result mode
        = if mode.isDescriptor then do
            return (← p.parametersDescriptor parameters) ++ (← p.typeDescriptor result)
          else (do
            let formals ← p.formalPart (JavaType.leadingParameters typeParameters)
            if typeParameters.all JavaType.isVariable then
              return formals ++ (← p.parametersSignature parameters) ++ (← p.typeSignature result)
            else throw (.unsupported .formalNotVariable)) := by
  refine ⟨fun id => ?_, fun m => ?_, fun types => ?_, fun m => ?_, fun types ps result mode => ?_⟩
  · rw [p.classSignature?_eq]
    refine congrArg (_ >>= ·) (funext fun c => ?_)
    simp only [declarationText, formalPart_eq, typeSignature_eq_typeText, bind_assoc, pure_bind]
  · exact p.methodSignature_eq_parts m
  · exact ⟨p.parameterList_eq p.calls_descriptor_agree types,
      p.parameterList_eq p.calls_signature_agree types⟩
  · exact p.encodeMethod_descriptor [] m.parameterTypes m.result rfl
  · split
    · next hmode => exact p.encodeMethod_descriptor types ps result hmode
    · next hmode => exact p.encodeMethod_signature types ps result (Bool.eq_false_iff.mpr hmode)

end Program

end ClassFile
