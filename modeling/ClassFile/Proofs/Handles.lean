import Mathlib.Data.List.Nodup
import ClassFile.Program.Erasure

/-!
# Handles

A handle is a position in what a program lists, and nothing more: it names
something if the list is long enough, and then an item of the list. That a handle
names nothing is the only reason why what it names is not found, and the error
says which handle it was.

The type parameters that an erasure may meet are all that the program lists, each
once (`Program.mem_typeParameterIds`).
-/

namespace ClassFile

namespace Program

variable {p : Program} {e : Error}

/-! ## Handles of classes -/

section

variable {id : ClassId} {c : ClassDeclaration}

/-- A handle of a class is a position in the list of classes. -/
theorem classOf_of_lt (h : id.index < p.classes.size) :
    p.classOf id = .ok p.classes[id.index] := by
  unfold classOf
  rw [Array.getElem?_eq_getElem h]

theorem index_lt_of_classOf (h : p.classOf id = .ok c) : id.index < p.classes.size := by
  unfold classOf at h
  split at h
  · next hd => exact (Array.getElem?_eq_some_iff.mp hd).1
  · cases h

theorem mem_of_classOf (h : p.classOf id = .ok c) : c ∈ p.classes := by
  have hlt := index_lt_of_classOf h
  rw [classOf_of_lt hlt] at h
  cases h
  exact Array.getElem_mem hlt

/-- A class that is not found is unknown. -/
theorem eq_unresolved_of_classOf (h : p.classOf id = .error e) : e = .unresolvedClass id := by
  unfold classOf at h
  split at h <;> cases h
  rfl

end

/-! ## Handles of type parameters -/

section

variable {id : TypeParameterId} {t : TypeParameter}

theorem typeParameterOf_of_lt (h : id.index < p.typeParameters.size) :
    p.typeParameterOf id = .ok p.typeParameters[id.index] := by
  unfold typeParameterOf
  rw [Array.getElem?_eq_getElem h]

theorem index_lt_of_typeParameterOf (h : p.typeParameterOf id = .ok t) :
    id.index < p.typeParameters.size := by
  unfold typeParameterOf at h
  split at h
  · next ht => exact (Array.getElem?_eq_some_iff.mp ht).1
  · cases h

theorem mem_of_typeParameterOf (h : p.typeParameterOf id = .ok t) : t ∈ p.typeParameters := by
  have hlt := index_lt_of_typeParameterOf h
  rw [typeParameterOf_of_lt hlt] at h
  cases h
  exact Array.getElem_mem hlt

/-- A type parameter that is not found is unknown. -/
theorem eq_unresolved_of_typeParameterOf (h : p.typeParameterOf id = .error e) :
    e = .unresolvedTypeParameter id := by
  unfold typeParameterOf at h
  split at h <;> cases h
  rfl

/-- The type parameters that may be met are those that there are. -/
theorem mem_typeParameterIds : id ∈ p.typeParameterIds ↔ id.index < p.typeParameters.size := by
  unfold typeParameterIds
  rw [List.mem_map]
  constructor
  · rintro ⟨index, h, rfl⟩
    exact List.mem_range.mp h
  · exact fun h => ⟨id.index, List.mem_range.mpr h, rfl⟩

theorem nodup_typeParameterIds (p : Program) : p.typeParameterIds.Nodup :=
  List.nodup_range.map fun _ _ h => TypeParameterId.mk.inj h

end

end Program

end ClassFile
