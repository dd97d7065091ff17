import ClassFile.Descriptor.Basic

/-!
# The order of descriptors

Primitive types come before classes and classes before arrays; classes are
compared by the bytes of their names, arrays by their components. Methods are
compared by their parameters, of which a proper initial part comes first, and
then by what they return; nothing comes after every value.
-/

namespace ClassFile

/-- The order of names: that of their UTF-8 bytes. -/
def compareNames (a b : String) : Ordering :=
  compare a.toUTF8.data.toList b.toUTF8.data.toList

/-- **The order of field descriptors.** -/
def FieldDescriptor.compareWith : FieldDescriptor → FieldDescriptor → Ordering
  | .base p, .base q => compare p q
  | .base _, _ => .lt
  | .object _, .base _ => .gt
  | .object m, .object n => compareNames m n
  | .object _, .array _ => .lt
  | .array c, .array d => c.compareWith d
  | .array _, _ => .gt

instance : Ord FieldDescriptor := ⟨FieldDescriptor.compareWith⟩

/-- The order of what methods return. -/
def ReturnDescriptor.compareWith : ReturnDescriptor → ReturnDescriptor → Ordering
  | .value s, .value t => compare s t
  | .value _, .void => .lt
  | .void, .value _ => .gt
  | .void, .void => .eq

instance : Ord ReturnDescriptor := ⟨ReturnDescriptor.compareWith⟩

/-- The order of methods: parameters first. -/
def MethodDescriptor.compareWith (d e : MethodDescriptor) : Ordering :=
  (compare d.parameters e.parameters).then (compare d.result e.result)

instance : Ord MethodDescriptor := ⟨MethodDescriptor.compareWith⟩

example : compare (FieldDescriptor.base .long) (.object "A") = .lt := rfl
example : compare (FieldDescriptor.array (.base .int)) (.object "A") = .gt := rfl

end ClassFile
