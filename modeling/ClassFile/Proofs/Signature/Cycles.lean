import ClassFile.Proofs.Agreement
import ClassFile.Signature.Declaration

/-!
# Types meet no cycle

A type variable leads to its type parameter, the type parameter to its bounds,
and from the bounds the way may lead back. Erasure has to watch out for that;
writing a type in a signature does not, for a variable is only named. It is a
recursion on the type, so the error that is kept for circles cannot occur
(`MeetsNoCycle`), and what is written is no longer than the type is large
(`Program.meetsNoCycle_typeCalls`).
-/

namespace ClassFile

open Signature (Call)

/-! ## Computations that meet no cycle

What a computation yields if it is successful is stated along with the errors
that it does not have: the parts of a computation are put together once, for
both. -/

section

variable {α β : Type}

/-- **A computation that meets no cycle:** it fails for another reason, or has a
result of some kind. -/
inductive MeetsNoCycle (P : α → Prop) : Except Error α → Prop
  | error {e : Error} (h : ∀ name, e ≠ .cyclicBound name) : MeetsNoCycle P (.error e)
  | ok {a : α} (h : P a) : MeetsNoCycle P (.ok a)

namespace MeetsNoCycle

variable {P : α → Prop} {Q : β → Prop} {x : Except Error α}

theorem bind {f : α → Except Error β} (h : MeetsNoCycle P x)
    (k : ∀ a, x = .ok a → P a → MeetsNoCycle Q (f a)) : MeetsNoCycle Q (x >>= f) := by
  cases h with
  | error he => exact .error he
  | ok ha => exact k _ rfl ha

theorem map {f : α → β} (h : MeetsNoCycle P x) (k : ∀ a, P a → Q (f a)) :
    MeetsNoCycle Q (x.map f) := by
  cases h with
  | error he => exact .error he
  | ok ha => exact .ok (k _ ha)

/-- What is known of a result may depend on the computation being a success. -/
theorem of_ok (h : MeetsNoCycle P x) {P' : α → Prop} (k : ∀ a, x = .ok a → P a → P' a) :
    MeetsNoCycle P' x := by
  cases h with
  | error he => exact .error he
  | ok ha => exact .ok (k _ rfl ha)

theorem mono {P' : α → Prop} (h : MeetsNoCycle P x) (k : ∀ a, P a → P' a) : MeetsNoCycle P' x :=
  h.of_ok fun a _ => k a

theorem mapM {ι : Type} {f : ι → Except Error α} {R : ι → α → Prop}
    (h : ∀ i, MeetsNoCycle (R i) (f i)) (l : List ι) :
    MeetsNoCycle (List.Forall₂ R l) (l.mapM f) := by
  induction l with
  | nil => exact .ok .nil
  | cons i l ih =>
    rw [List.mapM_cons]
    exact (h i).bind fun a _ ha => ih.bind fun as _ has => .ok (.cons ha has)

/-- The error is not that of a cycle. -/
theorem ne_cyclicBound (h : MeetsNoCycle P x) (name : String) : x ≠ .error (.cyclicBound name) := by
  cases h with
  | error he => exact fun heq => he name (Except.error.inj heq)
  | ok _ => exact fun heq => nomatch heq

end MeetsNoCycle

end

/-! ## Sizes

The size of a type is chosen so that it bounds the number of calls that write
it. A cycle of bounds adds nothing to it, for the size of a type variable is
one. -/

mutual

/-- **The size of a type:** how many types and levels of class types it is
written with. A type in a list counts twice, for it is announced. -/
def JavaType.size : JavaType → Nat
  | .primitive _ | .void | .typeVariable _ _ | .wildcard => 1
  | .array c => 1 + c.size
  | .declared ⟨⟨_, arguments, _⟩, outer⟩ =>
    2 + JavaType.sizeOfAll arguments + ClassPart.sizeOfAll outer
  | .wildcardExtends bound | .wildcardSuper bound => 1 + bound.size
  | .intersection members => JavaType.sizeOfAll members

/-- The size of a list of types. -/
def JavaType.sizeOfAll : List JavaType → Nat
  | [] => 0
  | t :: ts => 1 + t.size + JavaType.sizeOfAll ts

/-- The size of the levels around a class type. -/
def ClassPart.sizeOfAll : List ClassPart → Nat
  | [] => 0
  | ⟨_, arguments, _⟩ :: ps => 1 + JavaType.sizeOfAll arguments + ClassPart.sizeOfAll ps

end

theorem JavaType.sizeOfAll_append (ts us : List JavaType) :
    sizeOfAll (ts ++ us) = sizeOfAll ts + sizeOfAll us := by
  induction ts with
  | nil => exact (Nat.zero_add _).symm
  | cons t ts ih =>
    rw [List.cons_append, sizeOfAll, sizeOfAll, ih]
    omega

/-- **Calls that declare a type parameter** or announce one of its bounds. -/
def Signature.Call.declares : Call → Bool
  | .formalTypeParameter _ | .classBound | .interfaceBound => true
  | _ => false

/-- **Calls that only mention things,** and not many of them. -/
structure Mentions (n : Nat) (cs : List Call) : Prop where
  length_le : cs.length ≤ n
  declares_eq : ∀ c ∈ cs, c.declares = false

namespace Mentions

variable {m n : Nat} {c : Call} {cs ds : List Call}

theorem nil : Mentions 0 [] := ⟨Nat.le_refl 0, fun _ h => nomatch h⟩

theorem cons (hc : c.declares = false) (h : Mentions n cs) : Mentions (1 + n) (c :: cs) where
  length_le := by
    rw [List.length_cons]
    have := h.length_le
    omega
  declares_eq := List.forall_mem_cons.mpr ⟨hc, h.declares_eq⟩

theorem append (hc : Mentions m cs) (hd : Mentions n ds) : Mentions (m + n) (cs ++ ds) where
  length_le := by
    rw [List.length_append]
    exact Nat.add_le_add hc.length_le hd.length_le
  declares_eq := List.forall_mem_append.mpr ⟨hc.declares_eq, hd.declares_eq⟩

theorem mono (h : Mentions m cs) (hmn : m ≤ n) : Mentions n cs :=
  ⟨Nat.le_trans h.length_le hmn, h.declares_eq⟩

theorem single (hc : c.declares = false) : Mentions 1 [c] := nil.cons hc

/-- Nothing is declared by mentioning. -/
theorem filter_eq (h : Mentions n cs) : cs.filter Call.declares = [] :=
  List.filter_eq_nil_iff.mpr fun c hc => by
    rw [h.declares_eq c hc]
    exact Bool.false_ne_true

end Mentions

namespace Program

variable (p : Program)

theorem meetsNoCycle_classOf (id : ClassId) : MeetsNoCycle (fun _ => True) (p.classOf id) := by
  unfold classOf
  split
  · exact .ok trivial
  · exact .error fun _ h => nomatch h

theorem meetsNoCycle_typeParameterOf (id : TypeParameterId) :
    MeetsNoCycle (fun _ => True) (p.typeParameterOf id) := by
  unfold typeParameterOf
  split
  · exact .ok trivial
  · exact .error fun _ h => nomatch h

/-- The way outwards ends with an error of its own if it runs in a circle,
which is not that of bounds. -/
theorem meetsNoCycle_outwards (steps : Nat) :
    ∀ id, MeetsNoCycle (fun _ => True) (p.outwards steps id) := by
  induction steps with
  | zero =>
    exact fun id => (p.meetsNoCycle_classOf id).bind fun _ _ _ => .error fun _ h => nomatch h
  | succ n ih =>
    refine fun id => (p.meetsNoCycle_classOf id).bind fun c _ _ => ?_
    split
    · exact .ok trivial
    · exact (ih _).bind fun _ _ _ => .ok trivial

theorem meetsNoCycle_internalName (id : ClassId) :
    MeetsNoCycle (fun _ => True) (p.internalName id) :=
  ((p.meetsNoCycle_outwards _ id).map fun _ h => h).map fun _ h => h

theorem meetsNoCycle_isInterface :
    ∀ t : JavaType, MeetsNoCycle (fun _ => True) (p.isInterface t)
  | .declared t => (p.meetsNoCycle_classOf t.id).map fun _ h => h
  | .intersection (first :: _) => by
    rw [isInterface]
    exact meetsNoCycle_isInterface first
  | .primitive _ | .void | .array _ | .typeVariable _ _ | .wildcard | .wildcardExtends _
  | .wildcardSuper _ | .intersection [] => .ok trivial

/-- A class type begins with the name of a class. -/
theorem meetsNoCycle_classType (id : ClassId) (n : Nat) :
    MeetsNoCycle (Mentions (1 + n)) (do return [.classType (← p.internalName id)]) :=
  (p.meetsNoCycle_internalName id).bind fun _ _ _ =>
    .ok ((Mentions.single rfl).mono (Nat.le_add_right 1 n))

theorem mentions_argumentMark (t : JavaType) : Mentions 1 t.argumentMark := by
  unfold JavaType.argumentMark
  split
  · exact Mentions.nil.mono (Nat.zero_le 1)
  · exact .single rfl

mutual

/-- **Writing a type meets no cycle:** by recursion on the type, for a variable is
only named. It takes no more calls than the type is large. -/
theorem meetsNoCycle_typeCalls : ∀ t : JavaType, MeetsNoCycle (Mentions t.size) (p.typeCalls t)
  | .primitive _ | .void | .wildcard => .ok (.single rfl)
  | .array c => by
    rw [typeCalls, JavaType.size]
    exact (meetsNoCycle_typeCalls c).bind fun _ _ h => .ok (h.cons rfl)
  | .declared ⟨⟨id, arguments, _⟩, outer⟩ => by
    rw [typeCalls, JavaType.size]
    refine (meetsNoCycle_headCalls id outer).bind fun _ _ hh =>
      (meetsNoCycle_argumentCalls arguments).bind fun _ _ ha => .ok ?_
    exact ((hh.append ha).append (.single rfl)).mono (by omega)
  | .typeVariable id _ => (p.meetsNoCycle_typeParameterOf id).bind fun _ _ _ => .ok (.single rfl)
  | .wildcardExtends bound | .wildcardSuper bound => by
    rw [typeCalls, JavaType.size]
    exact (meetsNoCycle_typeCalls bound).bind fun _ _ h => .ok (h.cons rfl)
  | .intersection _ => .error fun _ h => nomatch h

/-- So does writing type arguments. -/
theorem meetsNoCycle_argumentCalls :
    ∀ ts : List JavaType, MeetsNoCycle (Mentions (JavaType.sizeOfAll ts)) (p.argumentCalls ts)
  | [] => .ok .nil
  | t :: ts => by
    rw [argumentCalls, JavaType.sizeOfAll]
    exact (meetsNoCycle_typeCalls t).bind fun _ _ h =>
      (meetsNoCycle_argumentCalls ts).bind fun _ _ hs =>
        .ok (((mentions_argumentMark t).append h).append hs)

/-- So does writing the beginning of a class type. -/
theorem meetsNoCycle_headCalls (id : ClassId) : ∀ outer : List ClassPart,
    MeetsNoCycle (Mentions (1 + ClassPart.sizeOfAll outer)) (p.headCalls id outer)
  | [] => p.meetsNoCycle_classType id 0
  | ⟨outerId, arguments, annotations⟩ :: further => by
    rw [headCalls, ClassPart.sizeOfAll]
    split
    · refine (meetsNoCycle_headCalls outerId further).bind fun _ _ hh =>
        (meetsNoCycle_argumentCalls arguments).bind fun _ _ ha =>
          (p.meetsNoCycle_classOf id).bind fun _ _ _ => .ok ?_
      exact ((hh.append ha).append (.single rfl)).mono (by omega)
    · exact p.meetsNoCycle_classType id _

end

/-- So does writing the innermost segment of a class type. -/
theorem meetsNoCycle_segmentCalls :
    ∀ t : JavaType, MeetsNoCycle (Mentions t.size) (p.segmentCalls t)
  | .array c => by
    rw [segmentCalls, JavaType.size]
    exact (meetsNoCycle_segmentCalls c).bind fun _ _ h => .ok (h.cons rfl)
  | .declared ⟨⟨id, arguments, _⟩, outer⟩ => by
    rw [segmentCalls, JavaType.size]
    refine (p.meetsNoCycle_classOf id).bind fun _ _ _ =>
      (p.meetsNoCycle_argumentCalls arguments).bind fun _ _ ha => .ok ?_
    exact ((ha.cons rfl).append (.single rfl)).mono (by omega)
  | .primitive b => p.meetsNoCycle_typeCalls (.primitive b)
  | .void => p.meetsNoCycle_typeCalls .void
  | .typeVariable id annotations => p.meetsNoCycle_typeCalls (.typeVariable id annotations)
  | .wildcard => p.meetsNoCycle_typeCalls .wildcard
  | .wildcardExtends bound => p.meetsNoCycle_typeCalls (.wildcardExtends bound)
  | .wildcardSuper bound => p.meetsNoCycle_typeCalls (.wildcardSuper bound)
  | .intersection members => p.meetsNoCycle_typeCalls (.intersection members)

end Program

end ClassFile
