import ClassFile.Proofs.Signature.Reader

/-!
# Reading the signatures of declarations

The rules of the grammar for classes and methods: formal type parameters in
angle brackets, and behind them the supertypes of a class, or the parameters,
the result and the exceptions of a method. Their parts are types, which
`readType` reads; what is added here is where one part ends and the next
begins, and most of it is one rule, that a list goes on while the next
character can start an item (`readMany`).

One thing is not decided by the next character. Behind the colon of a type
parameter there may be a class bound or, if there is none, the next type
parameter, and both may begin with the same letters. They are told apart by
the first character that cannot belong to a name (`beginsBound`).
-/

namespace ClassFile.Signature

variable {α : Type} {m n : Nat}

/-! ## Lists of items -/

/-- Reads something behind a character. -/
def readBehind (c : Char) (item : (cs : List Char) → Option (Reading α cs.length))
    (cs : List Char) : Option (Reading α cs.length) := do
  let mark ← readCharacter c cs
  return mark.andThen (← item mark.rest)

/-- **Reads a list of items,** on to the first character that cannot start
one. -/
def readMany (starts : Char → Bool) (item : (cs : List Char) → Option (Reading α cs.length))
    (cs : List Char) : Option (Reading (List α) (cs.length + 1)) :=
  if cs.head?.any starts then do
    let first ← item cs
    let others ← readMany starts item first.rest
    return ⟨first.value :: others.value, others.rest,
      Nat.lt_trans others.shorter (Nat.succ_lt_succ first.shorter)⟩
  else some ⟨[], cs, Nat.lt_succ_self _⟩
termination_by cs.length
decreasing_by exact first.shorter

/-- Reads a reference type of a certain kind. -/
def readKind (accepts : ReferenceTree → Bool) (cs : List Char) :
    Option (Reading ReferenceTree cs.length) := do
  let r ← readReference cs
  if accepts r.value then some r else none

/-! ## Formal type parameters -/

/-- Whether a reference type begins here and not the name of a type
parameter. -/
def beginsBound (cs : List Char) : Bool :=
  (cs.dropWhile isNameCharacter).head?.any fun c => c != ':' && c != '>'

/-- Reads a class bound, if there is one. -/
def readClassBound (cs : List Char) : Option (Reading (Option ReferenceTree) (cs.length + 1)) :=
  if beginsBound cs then
    (readReference cs).map fun r => ⟨some r.value, r.rest, Nat.lt_succ_of_lt r.shorter⟩
  else some ⟨none, cs, Nat.lt_succ_self _⟩

/-- **Reads a type parameter** with its bounds. -/
def readFormal (cs : List Char) : Option (Reading FormalTree cs.length) := do
  let name ← readName true cs
  let colon ← readCharacter ':' name.rest
  let classBound ← readClassBound colon.rest
  let bounds ← readMany (· == ':') (readBehind ':' readReference) classBound.rest
  return ⟨⟨name.value, classBound.value, bounds.value⟩, bounds.rest, by
    have := name.shorter
    have := colon.shorter
    have := classBound.shorter
    have := bounds.shorter
    omega⟩

/-- Reads the type parameters of a declaration, in brackets if there are
any. -/
def readFormals (cs : List Char) : Option (Reading (List FormalTree) (cs.length + 1)) :=
  match readCharacter '<' cs with
  | none => some ⟨[], cs, Nat.lt_succ_self _⟩
  | some opened => do
    let first ← readFormal opened.rest
    let others ← readMany (· != '>') readFormal first.rest
    let closed ← readCharacter '>' others.rest
    return ⟨first.value :: others.value, closed.rest, by
      have := opened.shorter
      have := first.shorter
      have := others.shorter
      have := closed.shorter
      omega⟩

/-! ## Declarations -/

/-- Whether a reference type is a class. -/
def ReferenceTree.isClass : ReferenceTree → Bool
  | .declared _ _ => true
  | .typeVariable _ | .array _ => false

/-- Whether a reference type can be thrown: a class or a type variable. -/
def ReferenceTree.isThrowable : ReferenceTree → Bool
  | .declared _ _ | .typeVariable _ => true
  | .array _ => false

/-- **Reads the signature of a class.** -/
def readClass (cs : List Char) : Option (Reading ClassTree (cs.length + 1)) := do
  let formals ← readFormals cs
  let superclass ← readKind ReferenceTree.isClass formals.rest
  let interfaces ← readMany (fun _ => true) (readKind ReferenceTree.isClass) superclass.rest
  return ⟨⟨formals.value, superclass.value, interfaces.value⟩, interfaces.rest, by
    have := formals.shorter
    have := superclass.shorter
    have := interfaces.shorter
    omega⟩

/-- **Reads the signature of a method.** -/
def readMethod (cs : List Char) : Option (Reading MethodTree (cs.length + 1)) := do
  let formals ← readFormals cs
  let opened ← readCharacter '(' formals.rest
  let parameters ← readMany (· != ')') readType opened.rest
  let closed ← readCharacter ')' parameters.rest
  let result ← readResult closed.rest
  let thrown ← readMany (fun _ => true) (readBehind '^' (readKind ReferenceTree.isThrowable))
    result.rest
  return ⟨⟨formals.value, parameters.value, result.value, thrown.value⟩, thrown.rest, by
    have := formals.shorter
    have := opened.shorter
    have := parameters.shorter
    have := closed.shorter
    have := result.shorter
    have := thrown.shorter
    omega⟩

/-- Reads a text that is the signature of a class. -/
def ClassTree.read? (s : String) : Option ClassTree := whole? (readClass s.toList)

/-- Reads a text that is the signature of a method. -/
def MethodTree.read? (s : String) : Option MethodTree := whole? (readMethod s.toList)

end ClassFile.Signature
