import ClassFile.Proofs.Descriptor.MethodText
import ClassFile.Proofs.Signature.Errors
import ClassFile.Proofs.Signature.Omission
import ClassFile.Proofs.Signature.Supertypes

/-!
# Descriptors that are written and read back

The descriptor of a type or of a method is written as a text, which is then read
as a descriptor. What was read has the same text, and together with the signature
it says what the two texts say (`signed_agrees_with_texts`).

What is written is not always read as what was meant, for a semicolon in the name
of a class ends the name. In a program whose names have none
(`Program.HasReadableNames`) the descriptor of a type is the text of the
descriptor of a field, with one exception: the letter for none, which may be
behind brackets (`Program.HasReadableNames.descriptorText_cases`). A list of
parameters then comes apart where it was put together, and what cannot be read is
the exception, where it is the type of a parameter or in arrays of the result.

That a text cannot be read is found out only where there is one. A parameter of no
type does not keep the next one from having no descriptor at all, and then the
error is that of the next one (`signed_void_hidden`).
-/

namespace ClassFile

/-! ## Letters for none behind brackets

What is written for a type is the text of a field or arrays of nothing. The
reader stops at arrays of nothing wherever they stand, so a list of parameters
with them in it has no reading, and one without them has exactly one. -/

namespace FieldDescriptor

/-- There are no arrays of nothing at the front of a text. -/
theorem scan_brackets_void (n : Nat) (rest : List Char) :
    scan ((arrayBrackets n ++ "V").toList ++ rest) = none := by
  induction n with
  | zero => rfl
  | succ n ih =>
    rw [arrayBrackets_succ_append, String.toList_append]
    show scan ('[' :: ((arrayBrackets n ++ "V").toList ++ rest)) = none
    rw [scan, ih]
    rfl

/-- Arrays of nothing have no text of a descriptor. -/
theorem text_ne_brackets_void {d : FieldDescriptor} (h : d.IsWellNamed) (n : Nat) :
    d.text ≠ arrayBrackets n ++ "V" := by
  intro he
  have hread := readChars?_text h
  rw [he, readChars?_brackets_void] at hread
  cases hread

end FieldDescriptor

/-- **The text of a field, or of arrays of nothing.** -/
def IsFieldOrVoid (s : String) : Prop :=
  (∃ n, s = arrayBrackets n ++ "V") ∨ ∃ d : FieldDescriptor, d.IsWellNamed ∧ d.text = s

/-- What cannot be read of these is arrays of nothing. -/
theorem IsFieldOrVoid.read_eq_error_iff {s : String} (h : IsFieldOrVoid s) :
    FieldDescriptor.read s = .error .invalidDescriptor ↔ ∃ n, s = arrayBrackets n ++ "V" := by
  constructor
  · intro herror
    refine h.resolve_right fun ⟨d, hd⟩ => ?_
    rw [FieldDescriptor.read_eq_ok_iff.mpr hd.symm] at herror
    cases herror
  · rintro ⟨n, rfl⟩
    exact congrArg requireDescriptor (FieldDescriptor.readChars?_brackets_void n)

/-- A method can also return nothing, but no arrays of it. -/
theorem IsFieldOrVoid.exists_result {s : String} (h : IsFieldOrVoid s)
    (hvoid : ¬ ∃ n, s = arrayBrackets (n + 1) ++ "V") :
    ∃ r : ReturnDescriptor, r.IsWellNamed ∧ r.text = s := by
  rcases h with ⟨n, rfl⟩ | ⟨d, hd, htext⟩
  · cases n with
    | zero => exact ⟨.void, trivial, rfl⟩
    | succ n => exact absurd ⟨n, rfl⟩ hvoid
  · exact ⟨.value d, hd, htext⟩

theorem ReturnDescriptor.text_ne_brackets_void {r : ReturnDescriptor} (h : r.IsWellNamed)
    (n : Nat) : r.text ≠ arrayBrackets (n + 1) ++ "V" := by
  cases r with
  | value d => exact FieldDescriptor.text_ne_brackets_void h _
  | void =>
    rw [arrayBrackets_succ_append]
    intro he
    have hlist := congrArg String.toList he
    rw [toList_text_void, String.toList_append] at hlist
    exact absurd (List.cons.inj hlist).1 (by decide)

namespace MethodDescriptor

open FieldDescriptor (listText listText_cons)

/-- Nor are there in a list of parameters. -/
theorem scanParameters_brackets_void (n : Nat) (rest : List Char) :
    scanParameters ((arrayBrackets n ++ "V").toList ++ rest) = none := by
  have hscan := FieldDescriptor.scan_brackets_void n rest
  have hfirst : ∃ c cs, (arrayBrackets n ++ "V").toList = c :: cs ∧ c ≠ ')' := by
    cases n with
    | zero => exact ⟨'V', [], rfl, by decide⟩
    | succ n =>
      refine ⟨'[', (arrayBrackets n ++ "V").toList, ?_, by decide⟩
      rw [arrayBrackets_succ_append, String.toList_append]
      rfl
  obtain ⟨c, cs, hcs, hc⟩ := hfirst
  rw [hcs, List.cons_append] at hscan ⊢
  rw [scanParameters.eq_3 c _ hc]
  split
  · rfl
  · next hsome => cases hscan.symm.trans hsome

/-- **Texts that are read as a list of parameters are the texts of the
parameters.** -/
theorem texts_eq_of_listText {texts : List String} (h : ∀ s ∈ texts, IsFieldOrVoid s)
    {ds : List FieldDescriptor} (hd : ∀ d ∈ ds, d.IsWellNamed) {rest rest' : List Char}
    (he : listText ds ++ ')' :: rest = (String.join texts).toList ++ ')' :: rest') :
    texts = ds.map FieldDescriptor.text ∧ rest' = rest := by
  induction texts generalizing ds with
  | nil =>
    obtain ⟨rfl, hrest⟩ := listText_append_inj hd (List.forall_mem_nil _) he
    exact ⟨rfl, hrest.symm⟩
  | cons s texts ih =>
    obtain ⟨hs, hothers⟩ := List.forall_mem_cons.mp h
    have hscan := congrArg scanParameters he
    rw [scanParameters_listText hd, String.join_cons, String.toList_append,
      List.append_assoc] at hscan
    -- arrays of nothing would not have been read, and a field is read off the front
    rcases hs with ⟨n, rfl⟩ | ⟨d, hd', rfl⟩
    · rw [scanParameters_brackets_void] at hscan
      cases hscan
    · rw [scanParameters_of_scan (FieldDescriptor.scan_text_append hd' _)] at hscan
      obtain ⟨⟨es, r⟩, hes, hcons⟩ := Option.map_eq_some_iff.1 hscan.symm
      cases hcons
      obtain ⟨htext, hnames⟩ := scanParameters_eq_some_iff.mp hes
      obtain ⟨rfl, hrest⟩ := ih hothers hnames htext
      exact ⟨rfl, hrest⟩

/-- **A method is read as its parts,** whichever texts of fields it was put together
of. -/
theorem parts_of_read {texts : List String} (h : ∀ s ∈ texts, IsFieldOrVoid s) {last : String}
    {d : MethodDescriptor} (hd : read ("(" ++ String.join texts ++ ")" ++ last) = .ok d) :
    d.IsWellNamed ∧ texts = d.parameters.map FieldDescriptor.text ∧ last = d.result.text := by
  obtain ⟨htext, hnames⟩ := read_eq_ok_iff.mp hd
  have hlist := congrArg String.toList htext
  rw [toList_text] at hlist
  simp only [String.toList_append, List.append_assoc] at hlist
  obtain ⟨htexts, hlast⟩ := texts_eq_of_listText h hnames.parameters (List.cons.inj hlist).2
  exact ⟨hnames, htexts, String.toList_injective hlast⟩

/-- Where there are no arrays of nothing among the texts of parameters, all of them
are descriptors. -/
theorem exists_parameters {texts : List String} (h : ∀ s ∈ texts, IsFieldOrVoid s)
    (hvoid : ¬ ∃ s ∈ texts, ∃ n, s = arrayBrackets n ++ "V") :
    ∃ ds : List FieldDescriptor,
      (∀ d ∈ ds, d.IsWellNamed) ∧ ds.map FieldDescriptor.text = texts := by
  induction texts with
  | nil => exact ⟨[], List.forall_mem_nil _, rfl⟩
  | cons s texts ih =>
    obtain ⟨hs, hothers⟩ := List.forall_mem_cons.mp h
    obtain ⟨d, hd, rfl⟩ := hs.resolve_left fun hn => hvoid ⟨s, List.mem_cons_self, hn⟩
    obtain ⟨ds, hds, rfl⟩ := ih hothers fun ⟨u, hu, hn⟩ => hvoid ⟨u, List.mem_cons_of_mem _ hu, hn⟩
    exact ⟨d :: ds, List.forall_mem_cons.mpr ⟨hd, hds⟩, rfl⟩

/-- **What cannot be read of methods** has arrays of nothing in it, or a parameter of
no type. -/
theorem read_eq_error_iff {texts : List String} (h : ∀ s ∈ texts, IsFieldOrVoid s) {last : String}
    (hlast : IsFieldOrVoid last) :
    read ("(" ++ String.join texts ++ ")" ++ last) = .error .invalidDescriptor
      ↔ (∃ s ∈ texts, ∃ n, s = arrayBrackets n ++ "V")
        ∨ ∃ n, last = arrayBrackets (n + 1) ++ "V" := by
  constructor
  · intro herror
    by_contra hvoid
    obtain ⟨hparameters, hresult⟩ := not_or.mp hvoid
    obtain ⟨ds, hds, rfl⟩ := exists_parameters h hparameters
    obtain ⟨r, hr, rfl⟩ := hlast.exists_result hresult
    have hread : read (MethodDescriptor.text ⟨ds, r⟩) = .ok ⟨ds, r⟩ :=
      read_eq_ok_iff.mpr ⟨rfl, hds, hr⟩
    cases hread.symm.trans herror
  · intro hvoid
    refine requireDescriptor_of_ne fun d hd => ?_
    obtain ⟨hnames, rfl, rfl⟩ := parts_of_read h hd
    rcases hvoid with ⟨_, hs, n, hn⟩ | ⟨n, hn⟩
    · obtain ⟨t, ht, rfl⟩ := List.mem_map.mp hs
      exact FieldDescriptor.text_ne_brackets_void (hnames.parameters t ht) n hn
    · exact ReturnDescriptor.text_ne_brackets_void hnames.result n hn

end MethodDescriptor

namespace Program

/-! ## Descriptors of types

Through the erasure a type has a descriptor of one of three forms: a letter, a
class or nothing, behind brackets. The first two are those of fields. -/

/-- **A program whose classes have names** that can be read in descriptors. -/
def HasReadableNames (p : Program) : Prop :=
  ∀ id name, p.internalName id = .ok name → IsClassName name

variable {p : Program}

/-- Clean names can be read. -/
theorem HasCleanNames.hasReadableNames (names : p.HasCleanNames) : p.HasReadableNames := by
  refine fun id name h => ⟨fun hempty => ?_, names.semicolon_notMem h⟩
  exact (names.isPath_internalName h).ne_nil (congrArg String.toList hempty)

/-- The text of an erasure is brackets and behind them a letter, a class or
the letter for none. -/
theorem HasReadableNames.erasedText_cases (names : p.HasReadableNames) {e : ErasedType} {s : String}
    (h : p.erasedText e = .ok s) : IsFieldOrVoid s := by
  obtain ⟨layers, element⟩ := e
  obtain ⟨text, ht, rfl⟩ := bind_pure_eq_ok h
  have hfield : ∀ d : FieldDescriptor, d.IsWellNamed →
      IsFieldOrVoid (arrayBrackets layers ++ d.text) :=
    fun d hd => .inr ⟨d.arrays layers, FieldDescriptor.isWellNamed_arrays hd layers,
      d.text_arrays layers⟩
  cases element with
  | primitive b =>
    cases ht
    exact hfield (.base b) trivial
  | void =>
    cases ht
    exact .inl ⟨layers, rfl⟩
  | declared id =>
    obtain ⟨name, hname, rfl⟩ := bind_pure_eq_ok ht
    exact hfield (.object name) (names id name hname)

/-- **The descriptor of a type is that of a field, or that of nothing** behind
brackets. -/
theorem HasReadableNames.descriptorText_cases (names : p.HasReadableNames) :
    ∀ (t : JavaType) {s : String}, p.descriptorText t = .ok s → IsFieldOrVoid s
  | .primitive b, _, h => by
    cases h
    exact .inr ⟨.base b, trivial, rfl⟩
  | .void, _, h => by
    cases h
    exact .inl ⟨0, rfl⟩
  | .array c, _, h => by
    rw [descriptorText] at h
    obtain ⟨s, hs, rfl⟩ := bind_pure_eq_ok h
    rcases descriptorText_cases names c hs with ⟨n, rfl⟩ | ⟨d, hd, rfl⟩
    · exact .inl ⟨n + 1, (arrayBrackets_succ_append n "V").symm⟩
    · exact .inr ⟨.array d, hd, rfl⟩
  | .declared t, _, h => names.erasedText_cases h
  | .wildcard, _, h | .wildcardExtends _, _, h | .wildcardSuper _, _, h => by cases h
  | .typeVariable _ _, _, h | .intersection _, _, h => by
    rw [descriptorText] at h
    obtain ⟨e, _, h⟩ := bind_eq_ok h
    exact names.erasedText_cases h

end Program

/-! ## Reading what was written

A descriptor is written, read, and kept together with the signature. Writing
has no error in common with reading (`ReadsNoText`), so the error tells which
of the two it was. -/

namespace Signed

section

variable {Descriptor : Type} {read : String → Except Error Descriptor} {text : Descriptor → String}
  {descriptor signature : Except Error String} {signature? : Except Error (Option String)}
  {m : Signed Descriptor}

/-- A text that was read, with the signature. -/
theorem parts_of_eq_ok
    (h : (do return ⟨← read (← descriptor), ← signature?⟩ : Except Error _) = .ok m) :
    ∃ s, descriptor = .ok s ∧ read s = .ok m.descriptor ∧ signature? = .ok m.signature := by
  obtain ⟨s, hs, h⟩ := bind_eq_ok h
  obtain ⟨d, hd, h⟩ := bind_eq_ok h
  obtain ⟨g, hg, rfl⟩ := bind_pure_eq_ok h
  exact ⟨s, hs, hd, hg⟩

/-- That a text cannot be read is an error of the text. -/
theorem eq_error_iff (hdescriptor : ReadsNoText descriptor) (hsignature : ReadsNoText signature?) :
    (do return ⟨← read (← descriptor), ← signature?⟩ : Except Error (Signed Descriptor))
        = .error .invalidDescriptor
      ↔ ∃ s, descriptor = .ok s ∧ read s = .error .invalidDescriptor := by
  cases descriptor with
  | error e =>
    exact iff_of_false (fun h => hdescriptor (congrArg _ (Except.error.inj h))) nofun
  | ok s =>
    simp only [Except.ok.injEq, exists_eq_left']
    show (read s >>= fun d => signature? >>= fun g => pure (⟨d, g⟩ : Signed Descriptor))
      = .error .invalidDescriptor ↔ _
    cases read s with
    | error e =>
      exact ⟨fun h => congrArg _ (Except.error.inj h), fun h => congrArg _ (Except.error.inj h)⟩
    | ok d => exact iff_of_false (hsignature.bind fun _ => .ok _) nofun

/-- **Signature or descriptor:** the text of the signature, where one is left out only
if it is the same text. -/
theorem eq_signatureOr {needed : Bool}
    (h : (if needed then signature.map some else return none) = .ok m.signature)
    (hsame : needed = false → signature = descriptor)
    (hdescriptor : descriptor = .ok (text m.descriptor)) :
    signature = .ok (m.signatureOr text) := by
  unfold signatureOr
  cases needed with
  | true =>
    obtain ⟨s, hs, he⟩ := map_eq_ok h
    rw [← he, hs]
    rfl
  | false =>
    rw [← Except.ok.inj h, hsame rfl, hdescriptor]
    rfl

end

end Signed

namespace Program

variable (p : Program)

/-- The signature of a type is left out only where it is the descriptor. -/
theorem ofType_eq_ok {t : JavaType} {m : Signed FieldDescriptor} (h : Signed.ofType p t = .ok m) :
    p.typeDescriptor t = .ok m.descriptor.text
      ∧ p.typeSignature t = .ok (m.signatureOr FieldDescriptor.text) := by
  obtain ⟨s, hs, hread, hsignature⟩ := Signed.parts_of_eq_ok h
  obtain ⟨rfl, -⟩ := FieldDescriptor.read_eq_ok_iff.mp hread
  refine ⟨hs, Signed.eq_signatureOr hsignature (fun hplain => ?_) hs⟩
  rw [typeSignature_eq, typeDescriptor_eq, typeText_eq_descriptorText t hplain]

/-- The signature of a method is left out only where it is the descriptor. -/
theorem ofMethod_eq_ok {d : MethodDeclaration} {m : Signed MethodDescriptor}
    (h : Signed.ofMethod p d = .ok m) :
    p.methodDescriptor d = .ok m.descriptor.text
      ∧ p.methodSignature d = .ok (m.signatureOr MethodDescriptor.text) := by
  obtain ⟨s, hs, hread, hsignature⟩ := Signed.parts_of_eq_ok h
  obtain ⟨rfl, -⟩ := MethodDescriptor.read_eq_ok_iff.mp hread
  refine ⟨hs, Signed.eq_signatureOr hsignature (fun hplain => ?_) hs⟩
  rw [methodSignature_eq, methodDescriptor_eq, methodText_eq_shapeText hplain]

theorem readsNoText_typeSignature? (t : JavaType) : ReadsNoText (p.typeSignature? t) := by
  unfold typeSignature?
  split
  · rw [typeSignature_eq]
    exact (p.readsNoText_typeText t).map
  · exact .ok _

theorem readsNoText_methodSignature? (m : MethodDeclaration) :
    ReadsNoText (p.methodSignature? m) := by
  unfold methodSignature?
  split
  · rw [methodSignature_eq]
    exact (p.readsNoText_methodText m).map
  · exact .ok _

theorem readsNoText_methodDescriptor (m : MethodDeclaration) :
    ReadsNoText (p.methodDescriptor m) := by
  rw [methodDescriptor_eq]
  exact readsNoText_shapeText p.readsNoText_descriptorText _ _

variable {p}

/-- **What the descriptor of a method consists of:** the descriptors of its types,
each that of a field or of nothing. -/
theorem HasReadableNames.methodDescriptor_parts (names : p.HasReadableNames)
    {m : MethodDeclaration} {s : String} (h : p.methodDescriptor m = .ok s) :
    ∃ texts last, List.Forall₂ (fun q u => p.typeDescriptor q.type = .ok u) m.parameters texts
      ∧ p.typeDescriptor m.result = .ok last ∧ (∀ u ∈ texts, IsFieldOrVoid u)
      ∧ IsFieldOrVoid last ∧ s = "(" ++ String.join texts ++ ")" ++ last := by
  rw [methodDescriptor_eq] at h
  obtain ⟨texts, ht, last, hlast, rfl⟩ := shapeText_ok h
  have hcases : ∀ u ∈ texts, IsFieldOrVoid u := by
    clear h
    generalize m.parameterTypes = types at ht
    induction ht with
    | nil => exact List.forall_mem_nil _
    | cons hfirst _ ih => exact List.forall_mem_cons.mpr ⟨names.descriptorText_cases _ hfirst, ih⟩
  simp only [typeDescriptor_eq]
  exact ⟨texts, last, List.forall₂_map_left_iff.mp ht, hlast, hcases,
    names.descriptorText_cases _ hlast, rfl⟩

/-- **A type cannot be read** exactly if it is nothing in some number of
arrays. If it has no descriptor there is another error. -/
theorem HasReadableNames.ofType_eq_error_iff (names : p.HasReadableNames) (t : JavaType) :
    Signed.ofType p t = .error .invalidDescriptor
      ↔ ∃ n, p.typeDescriptor t = .ok (arrayBrackets n ++ "V") := by
  have hdescriptor : ReadsNoText (p.typeDescriptor t) := by
    rw [typeDescriptor_eq]
    exact p.readsNoText_descriptorText t
  refine (Signed.eq_error_iff hdescriptor (p.readsNoText_typeSignature? t)).trans ?_
  constructor
  · rintro ⟨s, hs, hread⟩
    have hs' := hs
    rw [typeDescriptor_eq] at hs'
    obtain ⟨n, rfl⟩ := (names.descriptorText_cases t hs').read_eq_error_iff.mp hread
    exact ⟨n, hs⟩
  · rintro ⟨n, hn⟩
    exact ⟨_, hn, congrArg requireDescriptor (FieldDescriptor.readChars?_brackets_void n)⟩

/-- The descriptors of some types are among their texts. -/
theorem exists_mem_iff_of_forall₂ {α β : Type} {f : α → Except Error β} {as : List α} {bs : List β}
    (h : List.Forall₂ (fun a b => f a = .ok b) as bs) (P : β → Prop) :
    (∃ b ∈ bs, P b) ↔ ∃ a ∈ as, ∃ b, f a = .ok b ∧ P b := by
  induction h with
  | nil => simp
  | cons hfirst _ ih => simp [hfirst, ih]

/-- **A method cannot be read** exactly if it has a descriptor and a parameter is
nothing in some number of arrays or the result is arrays of nothing. -/
theorem HasReadableNames.ofMethod_eq_error_iff (names : p.HasReadableNames)
    (m : MethodDeclaration) :
    Signed.ofMethod p m = .error .invalidDescriptor
      ↔ (∃ s, p.methodDescriptor m = .ok s)
        ∧ ((∃ q ∈ m.parameters, ∃ n, p.typeDescriptor q.type = .ok (arrayBrackets n ++ "V"))
          ∨ ∃ n, p.typeDescriptor m.result = .ok (arrayBrackets (n + 1) ++ "V")) := by
  refine (Signed.eq_error_iff (p.readsNoText_methodDescriptor m)
    (p.readsNoText_methodSignature? m)).trans ?_
  rw [← exists_and_right]
  refine exists_congr fun s => and_congr_right fun hs => ?_
  obtain ⟨texts, last, ht, hlast, htexts, hresult, rfl⟩ := names.methodDescriptor_parts hs
  rw [MethodDescriptor.read_eq_error_iff htexts hresult, exists_mem_iff_of_forall₂ ht, hlast]
  simp

/-- **The parameters of a method that was read are its parameters,** each read by
itself, and so is the result. -/
theorem HasReadableNames.parts_of_ofMethod (names : p.HasReadableNames) {d : MethodDeclaration}
    {m : Signed MethodDescriptor} (h : Signed.ofMethod p d = .ok m) :
    List.Forall₂ (fun q f => ∃ s, p.typeDescriptor q.type = .ok s ∧ FieldDescriptor.read s = .ok f)
        d.parameters m.descriptor.parameters
      ∧ ∃ s, p.typeDescriptor d.result = .ok s
        ∧ ReturnDescriptor.read s = .ok m.descriptor.result := by
  obtain ⟨s, hs, hread, -⟩ := Signed.parts_of_eq_ok h
  obtain ⟨texts, last, ht, hlast, htexts, -, rfl⟩ := names.methodDescriptor_parts hs
  obtain ⟨hnames, rfl, rfl⟩ := MethodDescriptor.parts_of_read htexts hread
  refine ⟨?_, _, hlast, ReturnDescriptor.read_eq_ok_iff.mpr ⟨rfl, hnames.result⟩⟩
  have hread : ∀ f ∈ m.descriptor.parameters, FieldDescriptor.read f.text = .ok f :=
    fun f hf => FieldDescriptor.read_eq_ok_iff.mpr ⟨rfl, hnames.parameters f hf⟩
  have hparts := (List.forall₂_and_left _ _).mpr ⟨hread, (List.forall₂_map_right_iff.mp ht).flip⟩
  exact hparts.flip.imp fun q f ⟨hf, hq⟩ => ⟨_, hq, hf⟩

/-! ## Agreement

The error of a method depends on more than which of its types cannot be read:
all of them have to be written before the first one is read. -/

/-- **A parameter of no type need not be noticed.** The next one has no descriptor,
so there is no text that could not be read. -/
theorem signed_void_hidden :
    let p := Program.initial
    let d : MethodDeclaration :=
      { name := "m", isConstructor := false, modifiers := [], isVarargs := false,
        typeParameters := [], result := .void, thrown := [], annotations := [],
        parameters := [⟨"a", .void, []⟩, ⟨"b", .declared (.plain ⟨9⟩), []⟩] }
    p.HasReadableNames ∧ Signed.ofMethod p d = .error (.unresolvedClass ⟨9⟩)
      ∧ ¬ (Signed.ofMethod p d = .error .invalidDescriptor
        ↔ (∃ q ∈ d.parameters, ∃ n, p.typeDescriptor q.type = .ok (arrayBrackets n ++ "V"))
          ∨ ∃ n, p.typeDescriptor d.result = .ok (arrayBrackets (n + 1) ++ "V")) := by
  intro p d
  have names : p.HasCleanNames := ⟨by decide, by decide, by decide⟩
  have herror : Signed.ofMethod p d = .error (.unresolvedClass ⟨9⟩) := by cbv
  have hvoid : p.typeDescriptor .void = .ok (arrayBrackets 0 ++ "V") := by cbv
  refine ⟨names.hasReadableNames, herror, fun h => ?_⟩
  have hinvalid := h.mpr (.inl ⟨_, List.mem_cons_self, 0, hvoid⟩)
  cases herror.symm.trans hinvalid

/-- **What is read back agrees with what was written.** The descriptor of a type or
of a method has the text that is written for it, and with the signature, or
without one, it has the text of the signature. In a program whose names can be
read, a method that was read has the parameters that were declared, each of them
what is read of its own descriptor. A type cannot be read exactly if it is nothing
in some number of arrays, and a method exactly if it has a descriptor and one of
its parameters is such a type or its result is arrays of nothing. -/
theorem signed_agrees_with_texts (p : Program) :
    (∀ (t : JavaType) (m : Signed FieldDescriptor), Signed.ofType p t = .ok m →
        p.typeDescriptor t = .ok m.descriptor.text
          ∧ p.typeSignature t = .ok (m.signatureOr FieldDescriptor.text))
      ∧ (∀ (d : MethodDeclaration) (m : Signed MethodDescriptor), Signed.ofMethod p d = .ok m →
        p.methodDescriptor d = .ok m.descriptor.text
          ∧ p.methodSignature d = .ok (m.signatureOr MethodDescriptor.text))
      ∧ (p.HasReadableNames →
        (∀ (d : MethodDeclaration) (m : Signed MethodDescriptor), Signed.ofMethod p d = .ok m →
          List.Forall₂ (fun q f =>
              ∃ s, p.typeDescriptor q.type = .ok s ∧ FieldDescriptor.read s = .ok f)
            d.parameters m.descriptor.parameters)
        ∧ (∀ t : JavaType, Signed.ofType p t = .error .invalidDescriptor
          ↔ ∃ n, p.typeDescriptor t = .ok (arrayBrackets n ++ "V"))
        ∧ ∀ d : MethodDeclaration, Signed.ofMethod p d = .error .invalidDescriptor
          ↔ (∃ s, p.methodDescriptor d = .ok s)
            ∧ ((∃ q ∈ d.parameters, ∃ n, p.typeDescriptor q.type = .ok (arrayBrackets n ++ "V"))
              ∨ ∃ n, p.typeDescriptor d.result = .ok (arrayBrackets (n + 1) ++ "V"))) :=
  ⟨fun _ _ => p.ofType_eq_ok, fun _ _ => p.ofMethod_eq_ok, fun names =>
    ⟨fun _ _ h => (names.parts_of_ofMethod h).1, names.ofType_eq_error_iff,
      names.ofMethod_eq_error_iff⟩⟩

/-- A method with a variable, the descriptor of which is that of its bound, and with
arrays; and a method that returns an array of nothing. -/
theorem signed_agrees_with_texts_variable :
    let p : Program := { Program.initial with
      typeParameters := #[⟨"X", .declared (.plain .string), none, []⟩] }
    let t : JavaType := .array (.typeVariable ⟨0⟩ [])
    let d : MethodDeclaration :=
      { name := "m", isConstructor := false, modifiers := [], isVarargs := false,
        typeParameters := [], parameters := [⟨"a", t, []⟩, ⟨"b", .primitive .int, []⟩],
        result := .void, thrown := [], annotations := [] }
    let array : FieldDescriptor := .array (.object "java/lang/String")
    let m : Signed MethodDescriptor := ⟨⟨[array, .base .int], .void⟩, some "([TX;I)V"⟩
    p.HasReadableNames
      ∧ (Signed.ofType p t = .ok ⟨array, some "[TX;"⟩ ∧ p.typeDescriptor t = .ok array.text
        ∧ p.typeSignature t = .ok "[TX;")
      ∧ (Signed.ofMethod p d = .ok m ∧ p.methodDescriptor d = .ok m.descriptor.text
        ∧ p.methodSignature d = .ok "([TX;I)V"
        ∧ List.Forall₂ (fun q f =>
            ∃ s, p.typeDescriptor q.type = .ok s ∧ FieldDescriptor.read s = .ok f)
          d.parameters m.descriptor.parameters)
      ∧ Signed.ofType p (.array .void) = .error .invalidDescriptor
      ∧ Signed.ofMethod p { d with result := .array .void } = .error .invalidDescriptor := by
  intro p t d array m
  have names : p.HasCleanNames := ⟨by decide, by decide, by decide⟩
  have ht : Signed.ofType p t = .ok ⟨array, some "[TX;"⟩ := by cbv
  have hd : Signed.ofMethod p d = .ok m := by cbv
  have hvoid : p.typeDescriptor (.array .void) = .ok (arrayBrackets 1 ++ "V") := by cbv
  have htext : p.methodDescriptor { d with result := .array .void }
      = .ok "([Ljava/lang/String;I)[V" := by cbv
  obtain ⟨htypes, hmethods, hreads⟩ := signed_agrees_with_texts p
  obtain ⟨hparameters, htypeError, hmethodError⟩ := hreads names.hasReadableNames
  obtain ⟨htd, hts⟩ := htypes t _ ht
  obtain ⟨hmd, hms⟩ := hmethods d m hd
  exact ⟨names.hasReadableNames, ⟨ht, htd, hts⟩, ⟨hd, hmd, hms, hparameters d m hd⟩,
    (htypeError _).mpr ⟨1, hvoid⟩, (hmethodError _).mpr ⟨⟨_, htext⟩, .inr ⟨0, hvoid⟩⟩⟩

end Program

end ClassFile
