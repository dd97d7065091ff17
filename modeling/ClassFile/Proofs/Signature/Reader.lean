import ClassFile.Proofs.Names
import ClassFile.Signature.Grammar

/-!
# Reading signatures

Whoever reads a class file has the grammar of signatures and nothing else: no
classes, no type parameters, only the characters. This is such a reader, one
function for each rule of the grammar. It is a specification: the encoder is
right if this reader finds in a text what the encoder was given.

A reader returns what it has read together with the characters that are left
(`Reading`), of which there are fewer than there were; this is why the
functions end, which call each other as the rules do. Which rule applies is
decided by the next character throughout, with one exception: behind the colon
of a type parameter, a class bound can only be told from the next type
parameter by the character behind the next name (`beginsBound`).
-/

namespace ClassFile.Signature

variable {α β : Type} {m n : Nat}

/-! ## Readings

That something has been read is part of a reading, in the form of a bound on
what is left. The bound is the length of the text, or one more where nothing
need be read. -/

/-- **A reading:** a value and what is left of a text behind it, which is
shorter than the text was. -/
structure Reading (α : Type) (bound : Nat) where
  value : α
  rest : List Char
  shorter : rest.length < bound

/-- The same reading with another value. -/
def Reading.map (f : α → β) (r : Reading α n) : Reading β n := ⟨f r.value, r.rest, r.shorter⟩

/-- What is read behind a reading, as part of the same text. -/
def Reading.andThen (r : Reading α n) (s : Reading β r.rest.length) : Reading β n :=
  ⟨s.value, s.rest, Nat.lt_trans s.shorter r.shorter⟩

/-- A type that must be a reference type. -/
def Reading.reference? : Reading TypeTree n → Option (Reading ReferenceTree n)
  | ⟨.base _, _, _⟩ => none
  | ⟨.reference r, rest, h⟩ => some ⟨r, rest, h⟩

/-- The value of a reading that leaves nothing. -/
def whole? (x : Option (Reading α n)) : Option α :=
  x.bind fun r => if r.rest = [] then some r.value else none

/-- Reads a character. -/
def readCharacter (c : Char) : (cs : List Char) → Option (Reading Unit cs.length)
  | [] => none
  | d :: cs => if d = c then some ⟨(), cs, Nat.lt_succ_self _⟩ else none

/-! ## Names

What is a name is not decided while it is read. All characters that can be in
a name are taken, and then it is looked whether they are one. -/

/-- The characters of internal names. -/
def isNameCharacter (c : Char) : Bool := c == '/' || !reserved.contains c

/-- What a name of a class is: inside another class an identifier, otherwise
an internal name. -/
def IsName (inside : Bool) (cs : List Char) : Prop :=
  if inside then IsIdentifier cs else IsPath '/' cs

instance (inside : Bool) : DecidablePred (IsName inside) :=
  fun cs => inferInstanceAs (Decidable (if inside then IsIdentifier cs else IsPath '/' cs))

theorem IsName.ne_nil {inside : Bool} {cs : List Char} (h : IsName inside cs) : cs ≠ [] := by
  cases inside with
  | false => exact IsPath.ne_nil h
  | true => exact And.left h

/-- Reads the name of a class. -/
def readName (inside : Bool) (cs : List Char) : Option (Reading String cs.length) :=
  if h : IsName inside (cs.takeWhile isNameCharacter) then
    some ⟨String.ofList (cs.takeWhile isNameCharacter), cs.dropWhile isNameCharacter, by
      have hpos := List.length_pos_iff.mpr h.ne_nil
      have hlength := congrArg List.length (@List.takeWhile_append_dropWhile _ isNameCharacter cs)
      rw [List.length_append] at hlength
      omega⟩
  else none

/-! ## Types

The functions call each other, on the same text only where a type argument or
a list of them begins. -/

mutual

/-- **Reads a type.** -/
def readType : (cs : List Char) → Option (Reading TypeTree cs.length)
  | [] => none
  | c :: cs =>
    if c = '[' then do
      let component ← readType cs
      return ⟨.reference (.array component.value), component.rest,
        Nat.lt_succ_of_lt component.shorter⟩
    else if c = 'T' then do
      let name ← readName true cs
      let last ← readCharacter ';' name.rest
      return ⟨.reference (.typeVariable name.value), last.rest,
        Nat.lt_succ_of_lt (name.andThen last).shorter⟩
    else if c = 'L' then do
      let head ← readSegment false cs
      let inner ← readInner head.rest
      return ⟨.reference (.declared head.value inner.value), inner.rest,
        Nat.lt_succ_of_lt (head.andThen inner).shorter⟩
    else (Primitive.ofLetter? c).map fun b => ⟨.base b, cs, Nat.lt_succ_self _⟩
termination_by cs => 3 * cs.length
decreasing_by
  · simp only [List.length_cons]; omega
  · simp only [List.length_cons]; omega
  · have := head.shorter
    simp only [List.length_cons]; omega

/-- Reads a name of a class with its type arguments. -/
def readSegment (inside : Bool) (cs : List Char) : Option (Reading Segment cs.length) := do
  let name ← readName inside cs
  match readCharacter '<' name.rest with
  | none => return name.map (⟨·, []⟩)
  | some opened => do
    let arguments ← readArguments opened.rest
    return (name.andThen (opened.andThen arguments)).map (⟨name.value, ·⟩)
termination_by 3 * cs.length
decreasing_by
  have := name.shorter
  have := opened.shorter
  omega

/-- Reads the classes inside a class, to the end of the type. -/
def readInner (cs : List Char) : Option (Reading (List Segment) cs.length) :=
  match readCharacter ';' cs with
  | some last => some (last.map fun _ => [])
  | none => do
    let point ← readCharacter '.' cs
    let first ← readSegment true point.rest
    let others ← readInner first.rest
    return (point.andThen (first.andThen others)).map (first.value :: ·)
termination_by 3 * cs.length
decreasing_by
  · have := point.shorter
    omega
  · have := point.shorter
    have := first.shorter
    omega

/-- Reads type arguments, at least one, to the closing bracket. -/
def readArguments (cs : List Char) : Option (Reading (List ArgumentTree) cs.length) := do
  let first ← readArgument cs
  match readCharacter '>' first.rest with
  | some closed => return (first.andThen closed).map fun _ => [first.value]
  | none => do
    let others ← readArguments first.rest
    return (first.andThen others).map (first.value :: ·)
termination_by 3 * cs.length + 2
decreasing_by
  · omega
  · have := first.shorter
    omega

/-- Reads a type argument. -/
def readArgument (cs : List Char) : Option (Reading ArgumentTree cs.length) :=
  match readCharacter '*' cs, readCharacter '+' cs, readCharacter '-' cs with
  | some any, _, _ => some (any.map fun _ => .any)
  | _, some mark, _ => do
    let bound ← (← readType mark.rest).reference?
    return (mark.andThen bound).map .subtypeOf
  | _, _, some mark => do
    let bound ← (← readType mark.rest).reference?
    return (mark.andThen bound).map .supertypeOf
  | none, none, none => do
    let type ← (← readType cs).reference?
    return type.map .exactly
termination_by 3 * cs.length + 1
decreasing_by
  · have := mark.shorter
    omega
  · have := mark.shorter
    omega
  · omega

end

/-- Reads a reference type. -/
def readReference (cs : List Char) : Option (Reading ReferenceTree cs.length) := do
  (← readType cs).reference?

/-- Reads what a method returns, a type or nothing. -/
def readResult (cs : List Char) : Option (Reading ResultTree cs.length) :=
  match readCharacter voidLetter cs with
  | some void => some (void.map fun _ => .void)
  | none => (readType cs).map (·.map .value)

/-- **Reads a text that is the signature of a type.** -/
def ResultTree.read? (s : String) : Option ResultTree := whole? (readResult s.toList)

end ClassFile.Signature
