import ClassFile.Signature.Grammar
import Mathlib.Data.List.Forall2

/-!
# What complete types write

A writer remembers which class types are unfinished, and a call may set a
bracket on account of what was written long before it. The calls of a
complete type cannot: wherever a type may stand they append one text, the
same for every writer, and leave the writer as it was. This module states
that rule by rule, for any calls that are put together the way the calls of
types are – those of syntax trees and those of the types of a program alike.

A type may stand where the writer is *settled*, that is, where it is not
right behind the name of a class: there the first type argument is still to
set a bracket. A type argument may stand in both places, and behind the name
of a class it sets the bracket itself.
-/

namespace ClassFile.Signature

namespace Writer

/-- **A writer is settled** where it is not right behind the name of a class. -/
def IsSettled (w : Writer) : Prop := w.argumentsOpen.head? ≠ some false

theorem isSettled_empty : empty.IsSettled := by
  unfold IsSettled empty
  simp

@[simp] theorem put_formalsOpen (w : Writer) (s : String) :
    (w.put s).formalsOpen = w.formalsOpen := rfl

@[simp] theorem put_parametersOpen (w : Writer) (s : String) :
    (w.put s).parametersOpen = w.parametersOpen := rfl

/-- Appending twice is appending once. -/
@[simp] theorem put_put (w : Writer) (s t : String) : (w.put s).put t = w.put (s ++ t) := by
  unfold put
  rw [String.append_assoc]

@[simp] theorem put_nothing (w : Writer) : w.put "" = w := by
  unfold put
  rw [String.append_empty]

/-- Text does not unsettle a writer. -/
@[simp] theorem isSettled_put {w : Writer} {s : String} : (w.put s).IsSettled ↔ w.IsSettled :=
  Iff.rfl

/-- In a settled writer there are no type arguments to begin. -/
theorem IsSettled.beginArguments_eq {w : Writer} (h : w.IsSettled) : w.beginArguments = w := by
  unfold IsSettled at h
  unfold beginArguments
  split
  · next open_ => rw [open_] at h; exact absurd rfl h
  · rfl

/-- Beginning the type arguments settles a writer. -/
theorem isSettled_beginArguments (w : Writer) : w.beginArguments.IsSettled := by
  unfold IsSettled beginArguments
  split
  · simp
  · next h =>
    intro hd
    obtain ⟨outer, ho⟩ := List.head?_eq_some_iff.mp hd
    exact h outer ho

/-- Leaving a class that was only entered changes nothing. -/
@[simp] theorem endArguments_enterClass (w : Writer) : w.enterClass.endArguments = w := rfl

/-- Leaving a class whose type arguments have begun closes them. -/
theorem endArguments_begun (w : Writer) (s : String) :
    (w.enterClass.beginArguments.put s).endArguments = w.put ("<" ++ s ++ ">") := by
  show ((w.put "<").put s).put ">" = _
  rw [put_put, put_put, String.append_assoc]

end Writer

/-! ## Types

The statements have the writer as a variable. There is a lemma for each rule
by which calls are put together, and none of them looks inside the calls. -/

/-- **What calls write as a type:** in every settled writer they append the
text and change nothing else. -/
def Writes (cs : List Call) (s : String) : Prop :=
  ∀ w : Writer, w.IsSettled → w.writeAll cs = w.put s

/-- A new writer has nothing but the text. -/
theorem Writes.textOf_eq {cs : List Call} {s : String} (h : Writes cs s) : textOf cs = s := by
  unfold textOf
  rw [h _ Writer.isSettled_empty]
  exact String.empty_append

theorem writes_baseType (c : Char) : Writes [.baseType c] c.toString :=
  fun _ _ => rfl

theorem writes_typeVariable (name : String) :
    Writes [.typeVariable name] ("T" ++ name ++ ";") :=
  fun _ _ => rfl

/-- The component of an array is written behind its bracket. -/
theorem Writes.array {cs : List Call} {s : String} (h : Writes cs s) :
    Writes (.arrayType :: cs) ("[" ++ s) := by
  intro w hw
  show (w.put "[").writeAll cs = _
  rw [h _ (Writer.isSettled_put.mpr hw), Writer.put_put]

/-! ## Type arguments

The bracket in front of type arguments is set by the first of them. The list
is therefore described by what it leaves behind when its class is left: all
texts in brackets, or nothing. -/

/-- **What calls write as a type argument:** they begin the type arguments
where that is still to be done, and append the text. -/
def WritesArgument (cs : List Call) (s : String) : Prop :=
  ∀ w : Writer, w.writeAll cs = w.beginArguments.put s

/-- Where a type may stand, a type argument is written like a type. -/
theorem WritesArgument.writes {cs : List Call} {s : String} (h : WritesArgument cs s) :
    Writes cs s := by
  intro w hw
  rw [h w, hw.beginArguments_eq]

theorem writesArgument_unbounded : WritesArgument [.unboundedArgument] "*" :=
  fun _ => rfl

/-- A bound is written behind the mark of its kind. -/
theorem Writes.bound {cs : List Call} {s : String} (h : Writes cs s) {variance : Char}
    (hv : variance ≠ '=') :
    WritesArgument (.argument variance :: cs) (variance.toString ++ s) := by
  intro w
  have hcall : w.write (.argument variance) = w.beginArguments.put variance.toString := by
    unfold Writer.write
    simp only [hv, if_false]
  rw [Writer.writeAll_cons, hcall,
    h _ (Writer.isSettled_put.mpr w.isSettled_beginArguments), Writer.put_put]

/-- A type that is itself the argument has no mark. -/
theorem Writes.exactly {cs : List Call} {s : String} (h : Writes cs s) :
    WritesArgument (.argument '=' :: cs) s := by
  intro w
  have hcall : w.write (.argument '=') = w.beginArguments := rfl
  rw [Writer.writeAll_cons, hcall, h _ w.isSettled_beginArguments]

/-- **What calls write as a list of type arguments:** nothing for none. -/
def WritesArguments (cs : List Call) (texts : List String) : Prop :=
  ∀ w : Writer, w.writeAll cs =
    if texts.isEmpty then w else w.beginArguments.put (String.join texts)

theorem writesArguments_nil : WritesArguments [] [] :=
  fun _ => rfl

/-- The arguments are written one behind the other. -/
theorem WritesArguments.cons {cs ds : List Call} {s : String} {texts : List String}
    (h : WritesArgument cs s) (hs : WritesArguments ds texts) :
    WritesArguments (cs ++ ds) (s :: texts) := by
  intro w
  -- the bracket is set by the first argument, so the others find it there
  have hset : (w.beginArguments.put s).beginArguments = w.beginArguments.put s :=
    (Writer.isSettled_put.mpr w.isSettled_beginArguments).beginArguments_eq
  rw [Writer.writeAll_append, h w, hs _, hset]
  cases texts with
  | nil => simp
  | cons t ts => simp [String.join_cons]

/-! ## Class types

A class that is entered puts an entry on top of those that are unfinished, and
leaving it takes the entry off. Between the two there may be type arguments
and the classes inside. -/

/-- **What calls write as the beginning of a class type:** they append the
text and enter a class. -/
def OpensClass (cs : List Call) (s : String) : Prop :=
  ∀ w : Writer, w.IsSettled → w.writeAll cs = (w.put s).enterClass

theorem opensClass_classType (name : String) : OpensClass [.classType name] ("L" ++ name) :=
  fun _ _ => rfl

/-- Behind the name of a class, type arguments and the end of the class are
written as the arguments in angle brackets. -/
theorem WritesArguments.endArguments_eq {cs : List Call} {texts : List String}
    (h : WritesArguments cs texts) (w : Writer) :
    (w.enterClass.writeAll cs).endArguments = w.put (angled texts) := by
  rw [h]
  unfold angled
  split
  · rw [Writer.endArguments_enterClass, Writer.put_nothing]
  · exact w.endArguments_begun _

/-- A class inside another is written behind the arguments of that one. -/
theorem OpensClass.inner {cs ds : List Call} {s : String} {texts : List String}
    (h : OpensClass cs s) (ha : WritesArguments ds texts) (name : String) :
    OpensClass (cs ++ ds ++ [.innerClassType name]) (s ++ angled texts ++ "." ++ name) := by
  intro w hw
  rw [Writer.writeAll_append, Writer.writeAll_append, h w hw]
  show ((((w.put s).enterClass.writeAll ds).endArguments).put ("." ++ name)).enterClass = _
  rw [ha.endArguments_eq, Writer.put_put, Writer.put_put]
  simp only [String.append_assoc]

/-- **A class type is complete** when its innermost class is closed. -/
theorem OpensClass.close {cs ds : List Call} {s : String} {texts : List String}
    (h : OpensClass cs s) (ha : WritesArguments ds texts) :
    Writes (cs ++ ds ++ [.close]) (s ++ angled texts ++ ";") := by
  intro w hw
  rw [Writer.writeAll_append, Writer.writeAll_append, h w hw]
  show (((w.put s).enterClass.writeAll ds).endArguments).put ";" = _
  rw [ha.endArguments_eq, Writer.put_put, Writer.put_put, String.append_assoc]

/-! ## Lists of complete types

Bounds, interfaces and thrown types follow one another with nothing between
them but what announces each. -/

theorem Writes.classBound {cs : List Call} {s : String} (h : Writes cs s) :
    Writes (.classBound :: cs) s :=
  fun w hw => h w hw

theorem Writes.interfaceBound {cs : List Call} {s : String} (h : Writes cs s) :
    Writes (.interfaceBound :: cs) (":" ++ s) := by
  intro w hw
  show (w.put ":").writeAll cs = _
  rw [h _ (Writer.isSettled_put.mpr hw), Writer.put_put]

theorem Writes.interface {cs : List Call} {s : String} (h : Writes cs s) :
    Writes (.interface :: cs) s :=
  fun w hw => h w hw

theorem Writes.exceptionType {cs : List Call} {s : String} (h : Writes cs s) :
    Writes (.exceptionType :: cs) ("^" ++ s) := by
  intro w hw
  show (w.put "^").writeAll cs = _
  rw [h _ (Writer.isSettled_put.mpr hw), Writer.put_put]

theorem Writes.append {cs ds : List Call} {s t : String} (h : Writes cs s) (h' : Writes ds t) :
    Writes (cs ++ ds) (s ++ t) := by
  intro w hw
  rw [Writer.writeAll_append, h w hw, h' _ (Writer.isSettled_put.mpr hw), Writer.put_put]

/-- What is written one after another is written in all. -/
theorem writes_flatten {css : List (List Call)} {texts : List String}
    (h : List.Forall₂ Writes css texts) : Writes css.flatten (String.join texts) := by
  induction h with
  | nil => exact fun w _ => w.put_nothing.symm
  | cons h _ ih =>
    rw [List.flatten_cons, String.join_cons]
    exact h.append ih

/-! ## Formal type parameters

Their list is opened by the first and closed by whatever comes behind it, so
for them as well the brackets are not part of what a single one writes. -/

namespace Writer

/-- Begins the list of formal type parameters, if it has not begun. -/
def beginFormals (w : Writer) : Writer :=
  if w.formalsOpen then w else { w.put "<" with formalsOpen := true }

@[simp] theorem argumentsOpen_beginFormals (w : Writer) :
    w.beginFormals.argumentsOpen = w.argumentsOpen := by
  unfold beginFormals
  split <;> rfl

theorem formalsOpen_beginFormals (w : Writer) : w.beginFormals.formalsOpen = true := by
  unfold beginFormals
  split
  · assumption
  · rfl

theorem beginFormals_of_open {w : Writer} (h : w.formalsOpen = true) : w.beginFormals = w := by
  unfold beginFormals
  rw [if_pos h]

theorem beginFormals_of_closed {w : Writer} (h : w.formalsOpen = false) :
    w.beginFormals = { w.put "<" with formalsOpen := true } := by
  unfold beginFormals
  rw [if_neg (ne_true_of_eq_false h)]

@[simp] theorem argumentsOpen_endFormals (w : Writer) :
    w.endFormals.argumentsOpen = w.argumentsOpen := by
  unfold endFormals
  split <;> rfl

@[simp] theorem parametersOpen_endFormals (w : Writer) :
    w.endFormals.parametersOpen = w.parametersOpen := by
  unfold endFormals
  split <;> rfl

theorem formalsOpen_endFormals (w : Writer) : w.endFormals.formalsOpen = false := by
  unfold endFormals
  split
  · rfl
  · next h => exact eq_false_of_ne_true h

theorem endFormals_of_closed {w : Writer} (h : w.formalsOpen = false) : w.endFormals = w := by
  unfold endFormals
  rw [if_neg (ne_true_of_eq_false h)]

theorem IsSettled.beginFormals {w : Writer} (h : w.IsSettled) : w.beginFormals.IsSettled := by
  unfold IsSettled
  rw [argumentsOpen_beginFormals]
  exact h

theorem IsSettled.endFormals {w : Writer} (h : w.IsSettled) : w.endFormals.IsSettled := by
  unfold IsSettled
  rw [argumentsOpen_endFormals]
  exact h

end Writer

/-- **What calls write as one more formal type parameter:** the text, where
the list of them has begun. -/
def ContinuesFormals (cs : List Call) (s : String) : Prop :=
  ∀ w : Writer, w.IsSettled → w.formalsOpen = true → w.writeAll cs = w.put s

/-- **What calls write as the declaration of a type parameter:** the text,
and the bracket before it if it is the first. -/
def WritesFormal (cs : List Call) (s : String) : Prop :=
  ∀ w : Writer, w.IsSettled → w.writeAll cs = w.beginFormals.put s

theorem Writes.continuesFormals {cs : List Call} {s : String} (h : Writes cs s) :
    ContinuesFormals cs s :=
  fun w hw _ => h w hw

theorem WritesFormal.continuesFormals {cs : List Call} {s : String} (h : WritesFormal cs s) :
    ContinuesFormals cs s := by
  intro w hw ho
  rw [h w hw, Writer.beginFormals_of_open ho]

theorem ContinuesFormals.append {cs ds : List Call} {s t : String} (h : ContinuesFormals cs s)
    (h' : ContinuesFormals ds t) : ContinuesFormals (cs ++ ds) (s ++ t) := by
  intro w hw ho
  rw [Writer.writeAll_append, h w hw ho, h' _ (Writer.isSettled_put.mpr hw) ho, Writer.put_put]

/-- The bounds of a type parameter are written behind its name. -/
theorem Writes.formal {cs : List Call} {s : String} (h : Writes cs s) (name : String) :
    WritesFormal (.formalTypeParameter name :: cs) (name ++ ":" ++ s) := by
  intro w hw
  show (w.beginFormals.put (name ++ ":")).writeAll cs = _
  rw [h _ (Writer.isSettled_put.mpr hw.beginFormals), Writer.put_put]

/-- Behind the first type parameter the list is open for the others. -/
theorem WritesFormal.append {cs ds : List Call} {s t : String} (h : WritesFormal cs s)
    (h' : ContinuesFormals ds t) : WritesFormal (cs ++ ds) (s ++ t) := by
  intro w hw
  rw [Writer.writeAll_append, h w hw,
    h' _ (Writer.isSettled_put.mpr hw.beginFormals) w.formalsOpen_beginFormals, Writer.put_put]

/-- **What calls write as formal type parameters:** once the list is closed,
the texts in angle brackets, or nothing if there are none. -/
def WritesFormals (cs : List Call) (texts : List String) : Prop :=
  ∀ w : Writer, w.IsSettled → w.formalsOpen = false →
    (w.writeAll cs).endFormals = w.put (angled texts)

/-- No type parameters, no brackets. -/
theorem writesFormals_nil : WritesFormals [] [] := by
  intro w _ ho
  rw [Writer.writeAll_nil, Writer.endFormals_of_closed ho]
  exact w.put_nothing.symm

/-- The first type parameter opens the list, and what follows the list closes
it. -/
theorem WritesFormal.writesFormals {cs : List Call} {first : String} {others : List String}
    (h : WritesFormal cs (first ++ String.join others)) :
    WritesFormals cs (first :: others) := by
  intro w hw ho
  rw [h w hw, ← String.join_cons, Writer.beginFormals_of_closed ho]
  have hangled : w.put (angled (first :: others))
      = ((w.put "<").put (String.join (first :: others))).put ">" := by
    rw [Writer.put_put, Writer.put_put, ← String.append_assoc]
    rfl
  rw [hangled]
  show Writer.mk _ false _ _ = Writer.mk _ w.formalsOpen _ _
  rw [ho]
  rfl

/-! ## Parameters and result

A parameter closes the list of type parameters, and the first one opens the
parentheses. Without any parameter the result does both. -/

namespace Writer

/-- Begins the list of parameters, if it has not begun. -/
def beginParameters (w : Writer) : Writer :=
  if w.parametersOpen then w else { w.put "(" with parametersOpen := true }

theorem beginParameters_of_open {w : Writer} (h : w.parametersOpen = true) :
    w.beginParameters = w := by
  unfold beginParameters
  rw [if_pos h]

theorem beginParameters_of_closed {w : Writer} (h : w.parametersOpen = false) :
    w.beginParameters = { w.put "(" with parametersOpen := true } := by
  unfold beginParameters
  rw [if_neg (ne_true_of_eq_false h)]

@[simp] theorem argumentsOpen_beginParameters (w : Writer) :
    w.beginParameters.argumentsOpen = w.argumentsOpen := by
  unfold beginParameters
  split <;> rfl

@[simp] theorem formalsOpen_beginParameters (w : Writer) :
    w.beginParameters.formalsOpen = w.formalsOpen := by
  unfold beginParameters
  split <;> rfl

theorem parametersOpen_beginParameters (w : Writer) : w.beginParameters.parametersOpen = true := by
  unfold beginParameters
  split
  · assumption
  · rfl

theorem IsSettled.beginParameters {w : Writer} (h : w.IsSettled) :
    w.beginParameters.IsSettled := by
  unfold IsSettled
  rw [argumentsOpen_beginParameters]
  exact h

end Writer

/-- **What calls write as a parameter:** the text behind the parenthesis,
which the first one opens. The formal type parameters are closed by then. -/
def WritesParameter (cs : List Call) (s : String) : Prop :=
  ∀ w : Writer, w.IsSettled → w.writeAll cs = w.endFormals.beginParameters.put s

theorem Writes.parameter {cs : List Call} {s : String} (h : Writes cs s) :
    WritesParameter (.parameterType :: cs) s :=
  fun _ hw => h _ hw.endFormals.beginParameters

/-- Parameters are written one behind the other, and none leave no trace. -/
theorem writeAll_parameters {css : List (List Call)} {texts : List String}
    (h : List.Forall₂ WritesParameter css texts) :
    ∀ w : Writer, w.IsSettled → w.writeAll css.flatten =
      if texts.isEmpty then w else w.endFormals.beginParameters.put (String.join texts) := by
  induction h with
  | nil => exact fun _ _ => rfl
  | @cons cs s css texts h _ ih =>
    intro w hw
    -- nothing is left to be closed or opened for the other parameters
    have hothers : (w.endFormals.beginParameters.put s).endFormals.beginParameters
        = w.endFormals.beginParameters.put s := by
      rw [Writer.endFormals_of_closed (by simpa using w.formalsOpen_endFormals),
        Writer.beginParameters_of_open
          (by simpa using w.endFormals.parametersOpen_beginParameters)]
    rw [List.flatten_cons, Writer.writeAll_append, h w hw,
      ih _ (Writer.isSettled_put.mpr hw.endFormals.beginParameters), hothers]
    cases texts with
    | nil => simp
    | cons t ts => simp [String.join_cons]

/-- **What calls write as the shape of a method:** the text behind the formal
type parameters. What they leave in the writer besides is whether there was a
parameter, which nothing looks at any more. -/
def WritesShape (cs : List Call) (s : String) : Prop :=
  ∀ w : Writer, w.IsSettled → w.parametersOpen = false →
    ∃ opened, w.writeAll cs = { w.endFormals.put s with parametersOpen := opened }

/-- Parameters are written in parentheses and the result behind them. -/
theorem Writes.shape {css : List (List Call)} {texts : List String} {cs : List Call}
    {s : String} (hs : List.Forall₂ WritesParameter css texts) (h : Writes cs s) :
    WritesShape (css.flatten ++ .returnType :: cs) ("(" ++ String.join texts ++ ")" ++ s) := by
  intro w hw ho
  have hc : w.endFormals.parametersOpen = false := by rw [Writer.parametersOpen_endFormals, ho]
  rw [Writer.writeAll_append, writeAll_parameters hs w hw]
  -- no parameter has opened the parentheses, so the result sets both of them
  cases texts with
  | nil =>
    refine ⟨false, ?_⟩
    have hret : w.write .returnType = w.endFormals.put "()" := by
      unfold Writer.write
      dsimp only
      rw [hc]
      rfl
    show (w.write .returnType).writeAll cs = _
    rw [hret, h _ (Writer.isSettled_put.mpr hw.endFormals), Writer.put_put, ← hc]
    rfl
  | cons t ts =>
    refine ⟨true, ?_⟩
    have hv : w.endFormals.beginParameters
        = { w.endFormals.put "(" with parametersOpen := true } :=
      Writer.beginParameters_of_closed hc
    have hret : (w.endFormals.beginParameters.put (String.join (t :: ts))).write .returnType
        = (w.endFormals.beginParameters.put (String.join (t :: ts))).put ")" := by
      unfold Writer.write
      dsimp only
      rw [Writer.endFormals_of_closed (by simpa using w.formalsOpen_endFormals),
        if_pos (by simpa using w.endFormals.parametersOpen_beginParameters)]
    show ((w.endFormals.beginParameters.put (String.join (t :: ts))).write .returnType).writeAll cs
      = _
    rw [hret,
      h _ (Writer.isSettled_put.mpr (Writer.isSettled_put.mpr hw.endFormals.beginParameters)),
      Writer.put_put, Writer.put_put, hv]
    simp only [Writer.put, String.append_assoc]

/-! ## Whole declarations

A new writer is settled and has nothing open, and what is written into it part
after part is the text. -/

/-- **The signature of a method is written** from its formal type parameters,
its shape and what it throws. -/
theorem WritesFormals.textOf_method {fs cs ds : List Call} {texts : List String} {s t : String}
    (hf : WritesFormals fs texts) (hs : WritesShape cs s) (ht : Writes ds t) :
    textOf (fs ++ cs ++ ds) = angled texts ++ s ++ t := by
  have hclosed := hf Writer.empty Writer.isSettled_empty rfl
  -- the writer behind the formal type parameters, before anything closes them
  generalize hv : Writer.empty.writeAll fs = v at hclosed
  have hsettled : v.IsSettled := by
    unfold Writer.IsSettled
    rw [← Writer.argumentsOpen_endFormals, hclosed]
    exact Writer.isSettled_empty
  have hparameters : v.parametersOpen = false := by
    rw [← Writer.parametersOpen_endFormals, hclosed]
    rfl
  obtain ⟨opened, hshape⟩ := hs v hsettled hparameters
  have hthrown := ht { v.endFormals.put s with parametersOpen := opened } hsettled.endFormals
  unfold textOf
  rw [Writer.writeAll_append, Writer.writeAll_append, hv, hshape, hthrown, hclosed]
  show "" ++ angled texts ++ s ++ t = _
  rw [String.empty_append]

/-- A method that throws nothing is written from the other two. -/
theorem WritesFormals.textOf_shape {fs cs : List Call} {texts : List String} {s : String}
    (hf : WritesFormals fs texts) (hs : WritesShape cs s) :
    textOf (fs ++ cs) = angled texts ++ s := by
  have hnothing : Writes [] "" := fun w _ => w.put_nothing.symm
  have htext := hf.textOf_method hs hnothing
  rwa [List.append_nil, String.append_empty] at htext

/-- **A shape by itself** is its text. -/
theorem WritesShape.textOf_eq {cs : List Call} {s : String} (hs : WritesShape cs s) :
    textOf cs = s := by
  have htext := writesFormals_nil.textOf_shape hs
  rwa [List.nil_append] at htext

/-- **The signature of a class is written** from its formal type parameters,
its superclass and its interfaces. -/
theorem WritesFormals.textOf_class {fs cs ds : List Call} {texts : List String} {s t : String}
    (hf : WritesFormals fs texts) (hs : Writes cs s) (ht : Writes ds t) :
    textOf (fs ++ .superclass :: cs ++ ds) = angled texts ++ s ++ t := by
  have hclosed := hf Writer.empty Writer.isSettled_empty rfl
  have hsettled : (Writer.empty.put (angled texts)).IsSettled := Writer.isSettled_empty
  unfold textOf
  rw [Writer.writeAll_append, Writer.writeAll_append, Writer.writeAll_cons]
  show (((Writer.empty.writeAll fs).endFormals.writeAll cs).writeAll ds).text = _
  rw [hclosed, hs _ hsettled, ht _ (Writer.isSettled_put.mpr hsettled)]
  show "" ++ angled texts ++ s ++ t = _
  rw [String.empty_append]

end ClassFile.Signature
