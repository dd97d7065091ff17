import ClassFile.Program.Type

/-!
# Equality of types

Two uses of types are the same when they are written the same, annotations
included. The one exception are floating-point values in annotations, which
are compared as numbers: so a type with a NaN in it is not even the same as
itself, and the two zeros are one.
-/

namespace ClassFile

mutual

/-- **Equality of types.** -/
def JavaType.same : JavaType → JavaType → Bool
  | .primitive p, .primitive q => p == q
  | .void, .void => true
  | .array c, .array d => c.same d
  | .declared s, .declared t => s.same t
  | .typeVariable i as, .typeVariable j bs => i == j && Annotation.sameAll as bs
  | .wildcard, .wildcard => true
  | .wildcardExtends b, .wildcardExtends c => b.same c
  | .wildcardSuper b, .wildcardSuper c => b.same c
  | .intersection bs, .intersection cs => JavaType.sameAll bs cs
  | _, _ => false

def JavaType.sameAll : List JavaType → List JavaType → Bool
  | [], [] => true
  | s :: ss, t :: ts => s.same t && JavaType.sameAll ss ts
  | _, _ => false

/-- Equality of one level of a class type. -/
def ClassPart.same : ClassPart → ClassPart → Bool
  | ⟨i, ss, as⟩, ⟨j, ts, bs⟩ => i == j && JavaType.sameAll ss ts && Annotation.sameAll as bs

def ClassPart.sameAll : List ClassPart → List ClassPart → Bool
  | [], [] => true
  | p :: ps, q :: qs => p.same q && ClassPart.sameAll ps qs
  | _, _ => false

def ClassType.same : ClassType → ClassType → Bool
  | ⟨p, ps⟩, ⟨q, qs⟩ => p.same q && ClassPart.sameAll ps qs

def Annotation.same : Annotation → Annotation → Bool
  | ⟨s, es⟩, ⟨t, fs⟩ => s.same t && Element.sameAll es fs

def Annotation.sameAll : List Annotation → List Annotation → Bool
  | [], [] => true
  | a :: as, b :: bs => a.same b && Annotation.sameAll as bs
  | _, _ => false

def Element.same : Element → Element → Bool
  | ⟨m, v⟩, ⟨n, w⟩ => m == n && v.same w

def Element.sameAll : List Element → List Element → Bool
  | [], [] => true
  | e :: es, f :: fs => e.same f && Element.sameAll es fs
  | _, _ => false

def ElementValue.same : ElementValue → ElementValue → Bool
  | .constant c, .constant d => c.same d
  | .classLiteral s, .classLiteral t => s.same t
  | .enumConstant i m, .enumConstant j n => i == j && m == n
  | .nested a, .nested b => a.same b
  | .array vs, .array ws => ElementValue.sameAll vs ws
  | .primitiveArray xs, .primitiveArray ys => xs.same ys
  | _, _ => false

def ElementValue.sameAll : List ElementValue → List ElementValue → Bool
  | [], [] => true
  | v :: vs, w :: ws => v.same w && ElementValue.sameAll vs ws
  | _, _ => false

end

end ClassFile
