import ClassFile.Walk.Annotations

/-!
# What an annotation says

A visitor that accepts every scope learns what an annotation says, and nothing
of how it was written. What it learns is a `ToldValue`: a class literal, the
type of an enumeration and the type of a nested annotation are descriptors, and
an array of one primitive type is an array of its values. Where all of these
descriptors can be found, the events are those of the told values in their order
(`ToldElement.annotationEvents`), so annotations that say the same are told the same.

The converse is a reader. A scope ends with an event of its own, whatever is in
it, so one pass over the events with the scopes that are open is enough to read
the values back, and it stops at the end of the annotation, whatever comes
behind it (`ToldElement.read?_annotationEvents`).
-/

namespace ClassFile

/-! ## Told values -/

mutual

/-- **A value as a visitor gets to know it.** -/
inductive ToldValue where
  | scalar (value : Scalar)
  | enumConstant (descriptor constant : String)
  | nested (descriptor : String) (elements : List ToldElement)
  | array (values : List ToldValue)

/-- A named value as a visitor gets to know it. -/
structure ToldElement where
  name : String
  value : ToldValue

end

namespace Program

mutual

/-- **What an element value says,** or the error of the first of its types that
has no descriptor. -/
def toldValue (p : Program) : ElementValue → Except Error ToldValue
  | .constant c => return .scalar (.constant c)
  | .classLiteral t => return .scalar (.classLiteral (← p.typeDescriptor t))
  | .enumConstant id constant => return .enumConstant (← p.classDescriptor (.plain id)) constant
  | .nested ⟨type, elements⟩ => do
    let descriptor ← p.classDescriptor type
    return .nested descriptor (← p.toldElements elements)
  | .array values => return .array (← p.toldValues values)
  | .primitiveArray values => return .array (values.elements.map fun c => .scalar (.constant c))

/-- What the values of an array say. -/
def toldValues (p : Program) : List ElementValue → Except Error (List ToldValue)
  | [] => return []
  | v :: vs => do
    let first ← p.toldValue v
    return first :: (← p.toldValues vs)

/-- What named values say. -/
def toldElements (p : Program) : List Element → Except Error (List ToldElement)
  | [] => return []
  | ⟨name, v⟩ :: es => do
    let first ← p.toldValue v
    return ⟨name, first⟩ :: (← p.toldElements es)

end

end Program

mutual

/-- The events of a told value, under a name or under none. -/
def ToldValue.events (name : Option String) : ToldValue → List Event
  | .scalar value => [.scalar name value]
  | .enumConstant descriptor constant => [.enumConstant name descriptor constant]
  | .nested descriptor elements =>
    .nested name descriptor :: (ToldElement.allEvents elements ++ [.finish .nested])
  | .array values => .array name :: (ToldValue.allEvents values ++ [.finish .array])

/-- The events of the values of an array. -/
def ToldValue.allEvents : List ToldValue → List Event
  | [] => []
  | v :: vs => v.events none ++ ToldValue.allEvents vs

/-- The events of named values. -/
def ToldElement.allEvents : List ToldElement → List Event
  | [] => []
  | ⟨name, v⟩ :: es => v.events (some name) ++ ToldElement.allEvents es

end

/-- **The events of what an annotation says,** with its end. -/
def ToldElement.annotationEvents (es : List ToldElement) : List Event :=
  ToldElement.allEvents es ++ [.finish .annotated]

/-! ## Reading told values back -/

/-- What has been read of a scope: the elements of an annotation, or the values
of an array. -/
inductive ScopeContent where
  | elements (read : List ToldElement)
  | values (read : List ToldValue)

namespace ScopeContent

/-- One more value. Only the elements of an annotation have names. -/
def add? : ScopeContent → Option String → ToldValue → Option ScopeContent
  | elements read, some name, v => some (elements (read ++ [⟨name, v⟩]))
  | values read, none, v => some (values (read ++ [v]))
  | _, _, _ => none

end ScopeContent

/-- **A scope that is open:** how it was opened, and what had been read of the
scope around it. -/
inductive OpenScope where
  | nested (name : Option String) (descriptor : String) (before : ScopeContent)
  | array (name : Option String) (before : ScopeContent)

/-- What has been read of the scope around one that ends. -/
def OpenScope.close? : OpenScope → ScopeContent → Option ScopeContent
  | .nested name descriptor before, .elements read => before.add? name (.nested descriptor read)
  | .array name before, .values read => before.add? name (.array read)
  | _, _ => none

/-- Reads events up to the end of the annotation, inside some open scopes. An
end is the end of the innermost scope, whatever it says it is the end of. -/
def ToldElement.readInside? :
    List OpenScope → ScopeContent → List Event → Option (List ToldElement × List Event)
  | _, _, [] => none
  | scopes, content, e :: rest =>
    match e with
    | .scalar name value =>
      (content.add? name (.scalar value)).bind fun c => readInside? scopes c rest
    | .enumConstant name descriptor constant =>
      (content.add? name (.enumConstant descriptor constant)).bind fun c =>
        readInside? scopes c rest
    | .nested name descriptor =>
      readInside? (.nested name descriptor content :: scopes) (.elements []) rest
    | .array name => readInside? (.array name content :: scopes) (.values []) rest
    | .finish _ =>
      match scopes, content with
      | scope :: scopes, content =>
        (scope.close? content).bind fun c => readInside? scopes c rest
      | [], .elements read => some (read, rest)
      | [], .values _ => none
    | _ => none

/-- **Reads what an annotation says** from its events up to its end, and returns
the events behind it. -/
def ToldElement.read? (events : List Event) : Option (List ToldElement × List Event) :=
  readInside? [] (.elements []) events

open ToldElement (readInside?)

mutual

/-- **The events of a value are read as the value,** whichever scopes are open:
by recursion on the value. -/
theorem ToldValue.readInside?_events (scopes : List OpenScope) (name : Option String)
    {content added : ScopeContent} (rest : List Event) :
    ∀ v : ToldValue, content.add? name v = some added →
      readInside? scopes content (v.events name ++ rest) = readInside? scopes added rest
  | .scalar _, h | .enumConstant _ _, h => by
    rw [ToldValue.events, List.singleton_append, readInside?]
    rw [h, Option.bind_some]
  | .nested descriptor elements, h => by
    rw [ToldValue.events, List.cons_append, List.append_assoc, readInside?]
    rw [ToldElement.readInside?_allEvents, List.nil_append, List.singleton_append, readInside?]
    -- the end of the scope hands what has been read in it to the scope around it
    show (content.add? name _).bind _ = _
    rw [h, Option.bind_some]
  | .array values, h => by
    rw [ToldValue.events, List.cons_append, List.append_assoc, readInside?]
    rw [ToldValue.readInside?_allEvents, List.nil_append, List.singleton_append, readInside?]
    show (content.add? name _).bind _ = _
    rw [h, Option.bind_some]

/-- So are those of the values of an array. -/
theorem ToldValue.readInside?_allEvents (scopes : List OpenScope) (rest : List Event) :
    ∀ (vs : List ToldValue) (read : List ToldValue),
      readInside? scopes (.values read) (ToldValue.allEvents vs ++ rest)
        = readInside? scopes (.values (read ++ vs)) rest
  | [], read => by
    rw [ToldValue.allEvents, List.nil_append, List.append_nil]
  | v :: vs, read => by
    rw [ToldValue.allEvents, List.append_assoc,
      v.readInside?_events scopes none _ (show _ = some (.values (read ++ [v])) from rfl),
      ToldValue.readInside?_allEvents scopes rest vs, List.append_assoc, List.singleton_append]

/-- So are those of named values. -/
theorem ToldElement.readInside?_allEvents (scopes : List OpenScope) (rest : List Event) :
    ∀ (es : List ToldElement) (read : List ToldElement),
      readInside? scopes (.elements read) (ToldElement.allEvents es ++ rest)
        = readInside? scopes (.elements (read ++ es)) rest
  | [], read => by
    rw [ToldElement.allEvents, List.nil_append, List.append_nil]
  | ⟨name, v⟩ :: es, read => by
    rw [ToldElement.allEvents, List.append_assoc,
      v.readInside?_events scopes (some name) _
        (show _ = some (.elements (read ++ [⟨name, v⟩])) from rfl),
      ToldElement.readInside?_allEvents scopes rest es, List.append_assoc, List.singleton_append]

end

/-- **What an annotation says is read back,** whatever follows it. -/
theorem ToldElement.read?_annotationEvents (es : List ToldElement) (rest : List Event) :
    ToldElement.read? (ToldElement.annotationEvents es ++ rest) = some (es, rest) := by
  unfold ToldElement.read? ToldElement.annotationEvents
  rw [List.append_assoc, ToldElement.readInside?_allEvents, List.nil_append,
    List.singleton_append, readInside?]

end ClassFile
