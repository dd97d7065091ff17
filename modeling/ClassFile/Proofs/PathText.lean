import ClassFile.TypeAnnotation.Path

/-!
# The text of a path says which path it is

The path to an annotated part of a type is told as a text: one character for
each step, except that a step to a type argument is a decimal number with a
semicolon behind it. With numbers of one, two or three digits among them, steps
have texts of different lengths. The steps can be told apart all the same, for
the other characters are no digits and the semicolon ends a number.

`TypePath.read?` does that, with the digits that have come so far as its state.
It reads the text of a path and nothing else (`TypePath.read?_eq_some_iff`), so
numbers that begin with a zero or are too large are not read.
-/

namespace ClassFile

/-- The index with these decimal digits, if it is written so. -/
def PathStep.readIndex? (digits : List Char) : Option UInt8 :=
  let index := UInt8.ofNat (Nat.ofDigitChars 10 digits 0)
  if Nat.toDigits 10 index.toNat = digits then some index else none

namespace PathStep

theorem toList_text_argument (index : UInt8) :
    (argument index).text.toList = Nat.toDigits 10 index.toNat ++ [';'] := by
  show (index.toNat.repr ++ ";").toList = _
  rw [String.toList_append, Nat.toList_repr]
  rfl

/-- An index is read from its digits. -/
theorem readIndex?_toDigits (index : UInt8) :
    readIndex? (Nat.toDigits 10 index.toNat) = some index := by
  unfold readIndex?
  rw [Nat.ofDigitChars_ten_toDigits, UInt8.ofNat_toNat]
  exact if_pos rfl

/-- Digits from which an index is read are those of the index. -/
theorem toDigits_of_readIndex? {digits : List Char} {index : UInt8}
    (h : readIndex? digits = some index) : Nat.toDigits 10 index.toNat = digits := by
  unfold readIndex? at h
  dsimp only at h
  split at h
  · next hdigits =>
    rwa [Option.some.inj h] at hdigits
  · cases h

end PathStep

namespace TypePath

/-- Reads a path from a text, in front of which the digits of an index have
come. With digits in front only a digit or a semicolon can come next; a step
that is a character is not read between them. -/
def readFrom? : (digits : List Char) → List Char → Option TypePath
  | [], [] => some []
  | _ :: _, [] => none
  | [], '[' :: cs => (readFrom? [] cs).map (.component :: ·)
  | [], '.' :: cs => (readFrom? [] cs).map (.inwards :: ·)
  | [], '*' :: cs => (readFrom? [] cs).map (.bound :: ·)
  | digits, c :: cs =>
    if c = ';' then
      (PathStep.readIndex? digits).bind fun index => (readFrom? [] cs).map (.argument index :: ·)
    else if c.isDigit then readFrom? (digits ++ [c]) cs
    else none

/-- **Reads the text of a path.** -/
def read? (s : String) : Option TypePath := readFrom? [] s.toList

example : read? "[1;12;*." = some [.component, .argument 1, .argument 12, .bound, .inwards] := by
  decide

/-! ## Paths are read from their texts

The digits of an index are gathered one by one, so what is read behind some of
them depends on all. For a whole step there are none left over, and the reader
is back in the state in which it began. -/

theorem readFrom?_semicolon (digits cs : List Char) :
    readFrom? digits (';' :: cs)
      = (PathStep.readIndex? digits).bind fun index =>
          (readFrom? [] cs).map (.argument index :: ·) := by
  cases digits <;> rfl

/-- A digit goes to those in front of it, whatever there are. -/
theorem readFrom?_digit {d : Char} (hd : d.isDigit) (digits cs : List Char) :
    readFrom? digits (d :: cs) = readFrom? (digits ++ [d]) cs := by
  have hother : ∀ c, c.isDigit = false → d ≠ c := by
    rintro c hc rfl
    exact absurd hd (by rw [hc]; decide)
  rw [readFrom?]
  · rw [if_neg (hother ';' rfl), if_pos hd]
  all_goals
    intro _
    exact hother _ rfl

theorem readFrom?_digits {ds : List Char} (hds : ∀ c ∈ ds, c.isDigit) (digits cs : List Char) :
    readFrom? digits (ds ++ cs) = readFrom? (digits ++ ds) cs := by
  induction ds generalizing digits with
  | nil => rw [List.append_nil, List.nil_append]
  | cons d ds ih =>
    have hrest := ih (fun c hc => hds c (List.mem_cons_of_mem d hc)) (digits ++ [d])
    rw [List.cons_append, readFrom?_digit (hds d List.mem_cons_self), hrest, List.append_assoc,
      List.singleton_append]

/-- **The text of a step is read as the step,** whatever follows it. -/
theorem readFrom?_text_append (step : PathStep) (cs : List Char) :
    readFrom? [] (step.text.toList ++ cs) = (readFrom? [] cs).map (step :: ·) := by
  cases step with
  | component => rfl
  | inwards => rfl
  | bound => rfl
  | argument index =>
    -- an index is written in decimal digits, and the semicolon behind them is none
    have hdigits : ∀ c ∈ Nat.toDigits 10 index.toNat, c.isDigit := fun c hc =>
      Nat.isDigit_of_mem_toDigits (by decide) (by decide) hc
    rw [PathStep.toList_text_argument, List.append_assoc, readFrom?_digits hdigits,
      List.nil_append, List.singleton_append, readFrom?_semicolon, PathStep.readIndex?_toDigits]
    rfl

theorem text_cons (step : PathStep) (path : TypePath) :
    text (step :: path) = step.text ++ path.text := by
  unfold text
  rw [List.map_cons, String.join_cons]

theorem text_append (path path' : TypePath) : text (path ++ path') = path.text ++ path'.text := by
  unfold text
  rw [List.map_append, String.join_append]

/-- Every path is read from its text. -/
theorem read?_text (path : TypePath) : read? path.text = some path := by
  unfold read?
  induction path with
  | nil => rfl
  | cons step path ih =>
    rw [text_cons, String.toList_append, readFrom?_text_append, ih]
    rfl

/-! ## What is read is the text of a path

In the other direction it is not enough that a path has been read: it must not
be read from any other text. The digits of an index are compared with the
canonical ones, and that excludes zeros in front. -/

/-- A step that is a character, in front of a path that is read. -/
theorem toList_text_of_map (step : PathStep) {c : Char} {cs : List Char} {path : TypePath}
    {x : Option TypePath} (hstep : step.text.toList = [c])
    (hx : ∀ {path'}, x = some path' → cs = path'.text.toList)
    (h : x.map (step :: ·) = some path) : c :: cs = path.text.toList := by
  obtain ⟨path', hpath', rfl⟩ := Option.map_eq_some_iff.mp h
  rw [text_cons, String.toList_append, hstep, ← hx hpath']
  rfl

/-- **A text that is read is the text of what is read,** digits in front of it
included. By induction on the text, with the digits as they come. -/
theorem toList_text_of_readFrom? {digits cs : List Char} {path : TypePath}
    (h : readFrom? digits cs = some path) : digits ++ cs = path.text.toList := by
  fun_induction readFrom? digits cs generalizing path with
  | case1 =>
    cases h
    rfl
  | case2 => cases h
  | case3 cs ih => exact toList_text_of_map .component rfl ih h
  | case4 cs ih => exact toList_text_of_map .inwards rfl ih h
  | case5 cs ih => exact toList_text_of_map .bound rfl ih h
  -- the digits in front are those of the index that the semicolon ends
  | case6 digits cs _ _ _ ih =>
    obtain ⟨index, hindex, hrest⟩ := Option.bind_eq_some_iff.mp h
    obtain ⟨path', hpath', rfl⟩ := Option.map_eq_some_iff.mp hrest
    rw [text_cons, String.toList_append, PathStep.toList_text_argument,
      PathStep.toDigits_of_readIndex? hindex, ← ih hpath', List.append_assoc]
    rfl
  | case7 digits c cs _ _ _ _ _ ih =>
    rw [← ih h, List.append_assoc]
    rfl
  | case8 => cases h

/-- **Exactly the texts of paths are read.** -/
theorem read?_eq_some_iff {s : String} {path : TypePath} :
    read? s = some path ↔ s = path.text := by
  constructor
  · intro h
    exact String.toList_injective (toList_text_of_readFrom? h)
  · rintro rfl
    exact path.read?_text

/-! ## Paths and their texts -/

/-- **The text of a path identifies it.** Paths of equal texts are equal; there is a
reader that finds the steps of a path in its text, and in no other text; and the text
of two paths one behind the other is that of the one and then that of the other. -/
theorem paths_identified_by_text (path path' : TypePath) :
    (path.text = path'.text ↔ path = path')
      ∧ (∀ s, read? s = some path ↔ s = path.text)
      ∧ text (path ++ path') = path.text ++ path'.text := by
  refine ⟨⟨fun h => ?_, congrArg text⟩, fun s => read?_eq_some_iff, text_append path path'⟩
  have hread := path.read?_text
  rw [h, path'.read?_text] at hread
  exact (Option.some.inj hread).symm

end TypePath

end ClassFile
