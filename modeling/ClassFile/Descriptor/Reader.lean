import ClassFile.Descriptor.Basic
import ClassFile.Error

/-!
# Reading descriptors

There are two readers of field descriptors. One takes as much of a text as a
descriptor needs and hands back the rest, which is strictly shorter; a parameter
list is read by it, one descriptor after another until the closing parenthesis.
The other one reads a text that is to be a descriptor as a whole, as that of a
field is and what stands behind the parentheses of a method.

The name of a class ends at the first `;` and may hold any other character,
a bracket or a parenthesis included; an empty name is refused.
-/

namespace ClassFile

/-- **One field descriptor at the start of a text,** and the rest of it. -/
def FieldDescriptor.scan : List Char → Option (FieldDescriptor × List Char)
  | [] => none
  | '[' :: cs => (scan cs).map fun (d, rest) => (.array d, rest)
  | 'L' :: cs =>
    match cs.takeWhile (· != ';'), cs.dropWhile (· != ';') with
    | c :: name, _ :: rest => some (.object (String.ofList (c :: name)), rest)
    | _, _ => none
  | c :: cs => (Primitive.ofLetter? c).map fun p => (.base p, cs)

/-- What is left over is shorter than the text. -/
theorem FieldDescriptor.length_lt_of_scan {cs rest : List Char} {d : FieldDescriptor}
    (h : scan cs = some (d, rest)) : rest.length < cs.length := by
  fun_induction scan cs generalizing d with
  | case1 => cases h
  | case2 cs ih =>
    obtain ⟨⟨c, r⟩, hc, he⟩ := Option.map_eq_some_iff.1 h
    cases he
    exact Nat.lt_succ_of_lt (ih hc)
  | case3 cs _ _ _ _ hdrop _ =>
    cases h
    have : (cs.dropWhile (· != ';')).length ≤ cs.length :=
      (List.dropWhile_sublist _).length_le
    rw [hdrop] at this
    simp only [List.length_cons] at this ⊢
    omega
  | case4 => cases h
  | case5 c cs =>
    obtain ⟨p, _, he⟩ := Option.map_eq_some_iff.1 h
    cases he
    simp

/-- **A parameter list up to its closing parenthesis,** and the rest of the
text behind it. -/
def MethodDescriptor.scanParameters :
    List Char → Option (List FieldDescriptor × List Char)
  | [] => none
  | ')' :: cs => some ([], cs)
  | c :: cs =>
    match _h : FieldDescriptor.scan (c :: cs) with
    | none => none
    | some (d, rest) =>
      (scanParameters rest).map fun (ds, rest) => (d :: ds, rest)
termination_by cs => cs.length
decreasing_by exact FieldDescriptor.length_lt_of_scan _h

/-- **Reads a text that is one field descriptor.** A class has its semicolon at
the end of the text, and a letter is all there is. -/
def FieldDescriptor.readChars? : List Char → Option FieldDescriptor
  | '[' :: cs => (readChars? cs).map .array
  | 'L' :: cs =>
    match cs.takeWhile (· != ';'), cs.dropWhile (· != ';') with
    | c :: name, [_] => some (.object (String.ofList (c :: name)))
    | _, _ => none
  | [c] => (Primitive.ofLetter? c).map .base
  | _ => none

/-- Reads a text that says what a method returns. -/
def ReturnDescriptor.readChars? (cs : List Char) : Option ReturnDescriptor :=
  if cs = [voidLetter] then some .void
  else (FieldDescriptor.readChars? cs).map .value

/-- Reads a text that is the descriptor of a method. -/
def MethodDescriptor.readChars? : List Char → Option MethodDescriptor
  | '(' :: cs => do
    let (parameters, rest) ← scanParameters cs
    let result ← ReturnDescriptor.readChars? rest
    return ⟨parameters, result⟩
  | _ => none

/-- What reading gave, or the error that the text is no descriptor. -/
def requireDescriptor {α : Type} : Option α → Except Error α
  | some d => .ok d
  | none => .error .invalidDescriptor

def FieldDescriptor.read (s : String) : Except Error FieldDescriptor :=
  requireDescriptor (readChars? s.toList)

def ReturnDescriptor.read (s : String) : Except Error ReturnDescriptor :=
  requireDescriptor (readChars? s.toList)

def MethodDescriptor.read (s : String) : Except Error MethodDescriptor :=
  requireDescriptor (readChars? s.toList)

/-- Reads the letter of a primitive type. -/
def Primitive.read (c : Char) : Except Error Primitive :=
  requireDescriptor (ofLetter? c)

end ClassFile
