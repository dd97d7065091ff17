/-!
# Access flags

The modifiers of a declaration and the kind of a class become bits of one
16-bit word. Several modifiers have no bit, and two pairs of meanings share
one: which of the two is meant depends on what the word belongs to.
-/

namespace ClassFile

/-- A word of access flags. Bits without a meaning are kept. -/
structure AccessFlags where
  bits : UInt16
  deriving DecidableEq, Repr

namespace AccessFlags

def none : AccessFlags := ⟨0⟩

/-- The flags of either word. -/
def union (a b : AccessFlags) : AccessFlags := ⟨a.bits ||| b.bits⟩

/-- The flags of the first word that the second lacks. -/
def without (a b : AccessFlags) : AccessFlags := ⟨a.bits &&& ~~~b.bits⟩

/-- Whether every flag of the second word is in the first. -/
def contains (a b : AccessFlags) : Bool := a.bits &&& b.bits == b.bits

def publicAccess : AccessFlags := ⟨0x0001⟩
def privateAccess : AccessFlags := ⟨0x0002⟩
def protectedAccess : AccessFlags := ⟨0x0004⟩
def static : AccessFlags := ⟨0x0008⟩
def final : AccessFlags := ⟨0x0010⟩
/-- On a class: calls to methods of the superclass are resolved anew. -/
def super : AccessFlags := ⟨0x0020⟩
/-- On a method. -/
def synchronized : AccessFlags := ⟨0x0020⟩
/-- On a field. -/
def volatile : AccessFlags := ⟨0x0040⟩
/-- On a field. -/
def transient : AccessFlags := ⟨0x0080⟩
/-- On a method: its last parameter takes any number of arguments. -/
def varargs : AccessFlags := ⟨0x0080⟩
def native : AccessFlags := ⟨0x0100⟩
def interface : AccessFlags := ⟨0x0200⟩
def abstract : AccessFlags := ⟨0x0400⟩
def strict : AccessFlags := ⟨0x0800⟩
def annotationType : AccessFlags := ⟨0x2000⟩
def enumeration : AccessFlags := ⟨0x4000⟩

end AccessFlags

inductive Modifier where
  | publicAccess
  | protectedAccess
  | privateAccess
  | abstract
  | defaultMethod
  | static
  | sealed
  | nonSealed
  | final
  | transient
  | volatile
  | synchronized
  | native
  | strictfp
  deriving DecidableEq, Repr

/-- The flag of a modifier. Default methods and sealed types are marked by
other means. -/
def Modifier.flag : Modifier → AccessFlags
  | publicAccess => .publicAccess
  | protectedAccess => .protectedAccess
  | privateAccess => .privateAccess
  | abstract => .abstract
  | static => .static
  | final => .final
  | transient => .transient
  | volatile => .volatile
  | synchronized => .synchronized
  | native => .native
  | strictfp => .strict
  | defaultMethod | sealed | nonSealed => .none

def AccessFlags.ofModifiers (modifiers : List Modifier) : AccessFlags :=
  modifiers.foldl (fun flags m => flags.union m.flag) .none

inductive ClassKind where
  | ordinary
  | interface
  | enumeration
  | annotationType
  | record
  deriving DecidableEq, Repr

namespace ClassKind

/-- Whether classes of this kind are interfaces; annotation types are. -/
def isInterface : ClassKind → Bool
  | interface | annotationType => true
  | ordinary | enumeration | record => false

/-- The flags that a kind brings with it. -/
def flags : ClassKind → AccessFlags
  | ordinary | record => .none
  | interface => AccessFlags.interface.union .abstract
  | annotationType => (AccessFlags.interface.union .abstract).union .annotationType
  | enumeration => .enumeration

end ClassKind

end ClassFile
