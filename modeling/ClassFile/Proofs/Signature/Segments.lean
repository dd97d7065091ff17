import ClassFile.Proofs.Signature.Text

/-!
# Class types are written segment by segment

A class inside a parameterized one has no name of its own in a signature. It is
written as a segment behind the class around it, and the segment can be asked for by
itself (`EncodingMode.signatureSimple`). This module says that the two are the same
text, although three writers are at work: one that writes the whole type and closes
the type arguments around it on the way, one that writes the enclosing type and ends
it, and one that writes the segment and has no class to leave.

What is shared is the text of a class type up to the semicolon (`Program.openText`).
Behind a parameterized class it goes on with the text of the next segment
(`Program.openText_cons`), and so with as many segments as there are parts
(`Program.openText_within`). All of this holds of failures as well: what fails first
in the parts fails in the whole.
-/

namespace ClassFile

open Signature

/-! ## Writing a segment by itself

A segment can be written where there is no class for it to be in. The writer
then has nothing to leave, and that is all the difference there is. -/

/-- A segment that nothing was written before has its name behind a point. There is
no class to leave, so no bracket is closed. -/
theorem Signature.WritesArguments.textOf_segment {cs : List Call} {texts : List String}
    (h : WritesArguments cs texts) (name : String) :
    textOf (.innerClassType name :: cs ++ [.close]) = "." ++ name ++ angled texts ++ ";" := by
  unfold textOf
  rw [List.cons_append, Writer.writeAll_cons, Writer.writeAll_append]
  show ((((Writer.empty.put ("." ++ name)).enterClass.writeAll cs).endArguments).put ";").text = _
  rw [h.endArguments_eq, Writer.put_put, Writer.put_put, ← String.append_assoc]
  show "" ++ ("." ++ name ++ angled texts ++ ";") = _
  rw [String.empty_append]

/-! ## Parts inside a class type

The parts of a class type are listed from the inside outwards, so further ones
go in front. -/

namespace ClassType

/-- **A class type with further parts inside it,** the innermost first. -/
def within (o : ClassType) : List ClassPart → ClassType
  | [] => o
  | part :: inner => ⟨part, (o.within inner).parts⟩

theorem eq_within_of_enclosing? {d o : ClassType} (h : d.enclosing? = some o) :
    d = o.within [d.part] := by
  obtain ⟨part, outer⟩ := d
  cases outer with
  | nil => cases h
  | cons q further =>
    cases h
    rfl

/-- Parts inside a parameterized class do not make it less so. -/
theorem isParameterized_within {o : ClassType} (h : o.isParameterized = true)
    (inner : List ClassPart) : (o.within inner).isParameterized = true := by
  induction inner with
  | nil => exact h
  | cons part inner ih =>
    show (part.hasArguments || (o.within inner).isParameterized) = true
    rw [ih, Bool.or_true]

end ClassType

/-! ## The text of a class type up to its end

The semicolon is left out at first: a class type with another one inside it is
not ended where its own text ends. -/

namespace Program

/-- **The text of a segment** up to its end. -/
def segmentText (p : Program) (part : ClassPart) : Except Error String := do
  let c ← p.classOf part.id
  return "." ++ c.simpleName ++ angled (← p.argumentTexts part.arguments)

/-- **The text of a class type** up to its end. -/
def openText (p : Program) (t : ClassType) : Except Error String := do
  let head ← p.headText t.id t.outer
  return head ++ angled (← p.argumentTexts t.part.arguments)

/-- The signature of a class type ends it. -/
theorem typeSignature_declared (p : Program) (t : ClassType) :
    p.typeSignature (.declared t) = (p.openText t).map (· ++ ";") := by
  obtain ⟨⟨id, arguments, annotations⟩, outer⟩ := t
  rw [typeSignature_eq, typeText]
  show _ = Except.map (· ++ ";") (p.headText id outer >>= _)
  cases p.headText id outer with
  | error e => rfl
  | ok head =>
    show _ = Except.map (· ++ ";") (p.argumentTexts arguments >>= _)
    cases p.argumentTexts arguments <;> rfl

/-- So does the segment by itself. -/
theorem encode_signatureSimple (p : Program) (t : ClassType) :
    p.encode (.declared t) .signatureSimple = (p.segmentText t.part).map (· ++ ";") := by
  unfold encode
  rw [calls, segmentCalls, segmentText]
  show Except.map textOf (p.classOf t.part.id >>= _) = _
  cases p.classOf t.part.id with
  | error e => rfl
  | ok c =>
    have harguments := p.argumentCalls_agree t.part.arguments
    show Except.map textOf (p.argumentCalls t.part.arguments >>= _)
      = Except.map _ (p.argumentTexts t.part.arguments >>= _)
    generalize p.argumentCalls t.part.arguments = cs at harguments
    generalize p.argumentTexts t.part.arguments = texts at harguments
    cases harguments with
    | error e => rfl
    | ok h => exact congrArg Except.ok (h.textOf_segment c.simpleName)

/-- **Behind a parameterized class comes the text of the next segment.** -/
theorem openText_cons (p : Program) {o : ClassType} (h : o.isParameterized = true)
    (part : ClassPart) :
    p.openText ⟨part, o.parts⟩ = do return (← p.openText o) ++ (← p.segmentText part) := by
  obtain ⟨⟨outerId, arguments, annotations⟩, further⟩ := o
  unfold openText segmentText
  show (p.headText part.id (⟨outerId, arguments, annotations⟩ :: further) >>= _) = _
  rw [headText, if_pos h]
  simp only [bind_assoc, pure_bind, String.append_assoc]
  rfl

/-- **Behind a parameterized class come the texts of all segments inside it,** from
the outside inwards, by induction on the parts. -/
theorem openText_within (p : Program) {o : ClassType} (h : o.isParameterized = true)
    (inner : List ClassPart) :
    p.openText (o.within inner)
      = do return (← p.openText o) ++ String.join (← inner.reverse.mapM p.segmentText) := by
  induction inner with
  | nil =>
    show p.openText o = _
    cases p.openText o with
    | error e => rfl
    | ok s => exact congrArg Except.ok String.append_empty.symm
  | cons part inner ih =>
    -- the innermost part stands first among the parts and last in the text
    show p.openText ⟨part, (o.within inner).parts⟩ = _
    rw [p.openText_cons (ClassType.isParameterized_within h inner), ih, List.reverse_cons,
      List.mapM_append]
    simp only [bind_assoc, pure_bind, List.mapM_cons, List.mapM_nil, String.join_append,
      String.join_cons, String.join_nil, String.append_empty, String.append_assoc]

/-- **The signature of a class type with parts inside a parameterized one** is the
text of that one, all their segments, and one semicolon. -/
theorem typeSignature_within (p : Program) {o : ClassType} (h : o.isParameterized = true)
    (inner : List ClassPart) :
    p.typeSignature (.declared (o.within inner)) = do
      let outer ← p.openText o
      let segments ← inner.reverse.mapM p.segmentText
      return outer ++ String.join segments ++ ";" := by
  rw [typeSignature_declared, p.openText_within h]
  cases p.openText o with
  | error e => rfl
  | ok outer =>
    show Except.map _ (inner.reverse.mapM p.segmentText >>= _)
      = (inner.reverse.mapM p.segmentText >>= _)
    cases inner.reverse.mapM p.segmentText <;> rfl

/-- Of the last segment it does not matter by which writer it is written. -/
theorem typeSignature_eq_openText_append (p : Program) {d o : ClassType}
    (henclosing : d.enclosing? = some o) (h : o.isParameterized = true) :
    p.typeSignature (.declared d)
      = do return (← p.openText o) ++ (← p.encode (.declared d) .signatureSimple) := by
  rw [p.encode_signatureSimple, ClassType.eq_within_of_enclosing? henclosing]
  show p.typeSignature (.declared ⟨d.part, o.parts⟩) = _
  rw [typeSignature_declared, p.openText_cons h]
  show Except.map _ (p.openText o >>= _) = (p.openText o >>= _)
  cases p.openText o with
  | error e => rfl
  | ok outer =>
    show Except.map _ (p.segmentText d.part >>= _) = (Except.map _ (p.segmentText d.part) >>= _)
    cases p.segmentText d.part with
    | error e => rfl
    | ok segment => exact congrArg Except.ok String.append_assoc

/-- **Signatures of nested classes are put together.** Where the enclosing type is
parameterized, a class type has a signature if the enclosing type has one and the
segment can be written by itself, and then it is the one without its semicolon and
the other behind it. If one of the two fails, the error is that of the enclosing
type, or else that of the segment. -/
theorem typeSignature_of_enclosing (p : Program) {d o : ClassType}
    (henclosing : d.enclosing? = some o) (h : o.isParameterized = true) :
    (Succeeds (p.typeSignature (.declared d)) ↔
        Succeeds (p.typeSignature (.declared o))
          ∧ Succeeds (p.encode (.declared d) .signatureSimple))
      ∧ (∀ outer segment, p.typeSignature (.declared o) = .ok outer →
        p.encode (.declared d) .signatureSimple = .ok segment →
          ∃ unended, outer = unended ++ ";"
            ∧ p.typeSignature (.declared d) = .ok (unended ++ segment))
      ∧ ∀ e, p.typeSignature (.declared d) = .error e ↔
        p.typeSignature (.declared o) = .error e
          ∨ Succeeds (p.typeSignature (.declared o))
            ∧ p.encode (.declared d) .signatureSimple = .error e := by
  rw [p.typeSignature_eq_openText_append henclosing h, p.typeSignature_declared o]
  refine ⟨⟨fun ⟨s, hs⟩ => ?_, fun ⟨houter, hsegment⟩ => ?_⟩, fun outer segment ho hs => ?_,
    fun e => ?_⟩
  · obtain ⟨unended, hu, hs⟩ := bind_eq_ok hs
    obtain ⟨segment, hsegment, _⟩ := bind_pure_eq_ok hs
    exact ⟨Succeeds.map ⟨unended, hu⟩, segment, hsegment⟩
  · exact (Succeeds.map_iff.mp houter).bind fun _ _ => hsegment.bind fun _ _ => .ok _
  · obtain ⟨unended, hu, rfl⟩ := map_eq_ok ho
    refine ⟨unended, rfl, ?_⟩
    rw [hu, hs]
    rfl
  · rw [Succeeds.map_iff, map_eq_error_iff]
    -- the enclosing type comes first, and its error is the one that counts
    cases p.openText o with
    | error e' => exact ⟨fun h => .inl h, fun h => h.resolve_right fun ⟨⟨_, ho⟩, _⟩ => nomatch ho⟩
    | ok unended =>
      show ((p.encode (.declared d) .signatureSimple >>= _) = .error e) ↔ _
      cases p.encode (.declared d) .signatureSimple with
      | error e' => exact ⟨fun h => .inr ⟨⟨_, rfl⟩, h⟩, fun h => (h.resolve_left nofun).2⟩
      | ok segment => exact ⟨nofun, fun h => nomatch (h.resolve_left nofun).2⟩

/-- Three levels, of which the middle one has no type arguments. -/
theorem typeSignature_of_enclosing_levels :
    let p := Program.initial
    let o : ClassType := ⟨.plain .retention, [⟨.object, [.wildcard], []⟩]⟩
    let d : ClassType := ⟨⟨.string, [.wildcardExtends (.declared .string)], []⟩, o.parts⟩
    d.enclosing? = some o ∧ o.isParameterized = true
      ∧ p.typeSignature (.declared o) = .ok "Ljava/lang/Object<*>.Retention;"
      ∧ p.encode (.declared d) .signatureSimple = .ok ".String<+Ljava/lang/String;>;"
      ∧ p.typeSignature (.declared d)
        = .ok "Ljava/lang/Object<*>.Retention.String<+Ljava/lang/String;>;" := by
  intro p o d
  have ho : p.typeSignature (.declared o) = .ok "Ljava/lang/Object<*>.Retention;" := by
    decide +kernel
  have hsegment : p.encode (.declared d) .signatureSimple
      = .ok ".String<+Ljava/lang/String;>;" := by decide +kernel
  obtain ⟨-, htext, -⟩ := p.typeSignature_of_enclosing (d := d) (o := o) rfl rfl
  obtain ⟨unended, hu, hd⟩ := htext _ _ ho hsegment
  refine ⟨rfl, rfl, ho, hsegment, hd.trans (congrArg Except.ok ?_)⟩
  obtain rfl : unended = "Ljava/lang/Object<*>.Retention" := by
    refine String.toList_injective ((List.append_left_inj ";".toList).mp ?_)
    rw [← String.toList_append, ← hu]
    decide
  decide

end Program

end ClassFile
