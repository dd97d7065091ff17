import ClassFile.Proofs.Descriptor.FieldText

/-!
# Method descriptors are read as they are written

A method descriptor has its parameters side by side, with nothing between them.
They come apart again because no text of a field descriptor is the beginning of
another one, and because none begins with the parenthesis that ends the list:
what is read as a list of parameters is what is written there
(`MethodDescriptor.scanParameters_eq_some_iff`). What the method returns is read
by the other reader, which wants all of the text that is left.

A name of a class may have a parenthesis in it, so the list of a method whose
names break the rule may seem to end inside of a name. Nothing is gained by that.
The name goes on to a semicolon behind which there is more, and where a method
returns something a semicolon is the end (`FieldDescriptor.eq_nil_of_semicolon`).
So there is no method behind the descriptor of which something could follow and
the whole be read.
-/

namespace ClassFile

/-- **A method descriptor in which all classes have names** that a descriptor can
hold. -/
structure MethodDescriptor.IsWellNamed (d : MethodDescriptor) : Prop where
  parameters : ∀ t ∈ d.parameters, t.IsWellNamed
  result : d.result.IsWellNamed

instance : DecidablePred MethodDescriptor.IsWellNamed := fun d =>
  decidable_of_iff ((∀ t ∈ d.parameters, t.IsWellNamed) ∧ d.result.IsWellNamed)
    ⟨fun ⟨h, k⟩ => ⟨h, k⟩, fun h => ⟨h.parameters, h.result⟩⟩

namespace FieldDescriptor

/-- The texts of some descriptors, one after another. -/
def listText (ds : List FieldDescriptor) : List Char := ds.flatMap (·.text.toList)

theorem listText_cons (d : FieldDescriptor) (ds : List FieldDescriptor) :
    listText (d :: ds) = d.text.toList ++ listText ds := List.flatMap_cons

theorem toList_join_text (ds : List FieldDescriptor) :
    (String.join (ds.map text)).toList = listText ds := by
  induction ds with
  | nil => rfl
  | cons d ds ih => rw [List.map_cons, String.join_cons, String.toList_append, ih, listText_cons]

end FieldDescriptor

namespace MethodDescriptor

open FieldDescriptor (listText listText_cons)

theorem toList_text (d : MethodDescriptor) :
    d.text.toList = '(' :: (listText d.parameters ++ ')' :: d.result.text.toList) := by
  show ("(" ++ String.join (d.parameters.map FieldDescriptor.text) ++ ")" ++ _).toList = _
  simp only [String.toList_append, FieldDescriptor.toList_join_text, List.append_assoc]
  rfl

/-! ## Lists of parameters

The list ends at the first parenthesis that is not inside of a descriptor. No
text of a field begins with one, so the reader can ask for the parenthesis
first and for a parameter else. -/

/-- A parameter that can be read is the first of the list. -/
theorem scanParameters_of_scan {cs rest : List Char} {d : FieldDescriptor}
    (h : FieldDescriptor.scan cs = some (d, rest)) :
    scanParameters cs = (scanParameters rest).map fun (ds, r) => (d :: ds, r) := by
  cases cs with
  | nil => cases h
  | cons c cs =>
    have hc : c ≠ ')' := by
      rintro rfl
      cases h
    rw [scanParameters.eq_3 c cs hc]
    split
    · next hnone => cases h.symm.trans hnone
    · next hsome =>
      cases h.symm.trans hsome
      rfl

/-- **The texts of parameters are read one after another,** up to the
parenthesis behind them. -/
theorem scanParameters_listText {ds : List FieldDescriptor} (h : ∀ d ∈ ds, d.IsWellNamed)
    (rest : List Char) : scanParameters (listText ds ++ ')' :: rest) = some (ds, rest) := by
  induction ds with
  | nil => exact scanParameters.eq_2 rest
  | cons d ds ih =>
    have hd := FieldDescriptor.scan_text_append (h d List.mem_cons_self)
      (listText ds ++ ')' :: rest)
    rw [listText_cons, List.append_assoc, scanParameters_of_scan hd,
      ih fun e he => h e (List.mem_cons_of_mem _ he)]
    rfl

/-- **What is read as parameters is what is written there,** by induction on
what the reader does, parameter by parameter. -/
theorem listText_of_scanParameters {cs rest : List Char} {ds : List FieldDescriptor}
    (h : scanParameters cs = some (ds, rest)) :
    listText ds ++ ')' :: rest = cs ∧ ∀ d ∈ ds, d.IsWellNamed := by
  fun_induction scanParameters cs generalizing ds with
  | case1 => cases h
  | case2 cs =>
    cases h
    exact ⟨rfl, nofun⟩
  | case3 => cases h
  | case4 c cs _ d rest' hscan ih =>
    obtain ⟨⟨others, r⟩, hothers, he⟩ := Option.map_eq_some_iff.1 h
    cases he
    obtain ⟨htext, hname⟩ := FieldDescriptor.text_append_of_scan hscan
    obtain ⟨htexts, hnames⟩ := ih hothers
    refine ⟨?_, List.forall_mem_cons.mpr ⟨hname, hnames⟩⟩
    rw [listText_cons, List.append_assoc, htexts, htext]

/-- **A list of parameters is read as it is written,** up to the parenthesis that
ends it. -/
theorem scanParameters_eq_some_iff {cs rest : List Char} {ds : List FieldDescriptor} :
    scanParameters cs = some (ds, rest)
      ↔ listText ds ++ ')' :: rest = cs ∧ ∀ d ∈ ds, d.IsWellNamed :=
  ⟨listText_of_scanParameters, fun ⟨htext, hnames⟩ => htext ▸ scanParameters_listText hnames rest⟩

/-- **A list of parameters comes apart in one way only.** -/
theorem listText_append_inj {ds es : List FieldDescriptor} (hd : ∀ d ∈ ds, d.IsWellNamed)
    (he : ∀ e ∈ es, e.IsWellNamed) {rest rest' : List Char}
    (h : listText ds ++ ')' :: rest = listText es ++ ')' :: rest') : ds = es ∧ rest = rest' := by
  have hscan := scanParameters_listText hd rest
  rw [h, scanParameters_listText he rest'] at hscan
  cases hscan
  exact ⟨rfl, rfl⟩

/-! ## Whole methods -/

/-- **The characters of a descriptor are read as the descriptor** and no
others are, as long as no name in it could end too early. -/
theorem readChars?_eq_some_iff {cs : List Char} {d : MethodDescriptor} :
    readChars? cs = some d ↔ d.text.toList = cs ∧ d.IsWellNamed := by
  rw [toList_text]
  constructor
  · intro h
    unfold readChars? at h
    split at h
    · next cs =>
      obtain ⟨⟨parameters, rest⟩, hparameters, h⟩ := Option.bind_eq_some_iff.1 h
      obtain ⟨result, hresult, he⟩ := Option.bind_eq_some_iff.1 h
      cases he
      obtain ⟨rfl, hnames⟩ := scanParameters_eq_some_iff.mp hparameters
      obtain ⟨rfl, hname⟩ := ReturnDescriptor.readChars?_eq_some_iff.mp hresult
      exact ⟨rfl, hnames, hname⟩
    · cases h
  · rintro ⟨rfl, hnames, hname⟩
    have hresult := ReturnDescriptor.readChars?_eq_some_iff.mpr ⟨rfl, hname⟩
    rw [readChars?, scanParameters_listText hnames]
    show (ReturnDescriptor.readChars? d.result.text.toList).bind _ = _
    rw [hresult]
    rfl

/-- **Reading is the inverse of writing.** -/
theorem read_eq_ok_iff {s : String} {d : MethodDescriptor} :
    read s = .ok d ↔ d.text = s ∧ d.IsWellNamed := by
  unfold read
  rw [requireDescriptor_eq_ok_iff, readChars?_eq_some_iff, String.toList_inj]

end MethodDescriptor

/-! ## Semicolons

Here names may be anything. What can still be said is where semicolons are: a
descriptor whose names are in order has one only at its end, so characters in
which something follows a semicolon are not what a method returns. -/

namespace FieldDescriptor

/-- Only at its end the text of a descriptor has a semicolon. -/
theorem semicolon_notMem_dropLast {d : FieldDescriptor} (h : d.IsWellNamed) :
    ';' ∉ d.text.toList.dropLast := by
  induction d with
  | base p =>
    rw [toList_text_base]
    exact List.not_mem_nil
  | object name =>
    rw [toList_text_object, ← List.cons_append, List.dropLast_concat]
    exact List.not_mem_cons_of_ne_of_not_mem (by decide) h.2
  | array c ih =>
    obtain ⟨x, xs, hxs, _⟩ := c.exists_toList_text
    rw [toList_text_array, hxs, List.dropLast_cons_cons, ← hxs]
    exact List.not_mem_cons_of_ne_of_not_mem (by decide) (ih h)

/-- **A semicolon is the end** of the text of a descriptor. -/
theorem eq_nil_of_semicolon {d : FieldDescriptor} (h : d.IsWellNamed)
    {before after : List Char} (he : d.text.toList = before ++ ';' :: after) : after = [] := by
  have hfree := semicolon_notMem_dropLast h
  rw [he, List.dropLast_append_cons] at hfree
  cases after with
  | nil => rfl
  | cons c cs =>
    rw [List.dropLast_cons_cons] at hfree
    exact absurd (List.mem_append_right _ List.mem_cons_self) hfree

/-- A descriptor that breaks the rule for names has a class in it, and ends with
its semicolon. -/
theorem exists_toList_text_of_not_isWellNamed {d : FieldDescriptor} (h : ¬ d.IsWellNamed) :
    ∃ inside, d.text.toList = inside ++ [';'] := by
  induction d with
  | base p => exact absurd trivial h
  | object name => exact ⟨'L' :: name.toList, toList_text_object name⟩
  | array c ih =>
    obtain ⟨inside, hinside⟩ := ih h
    exact ⟨'[' :: inside, by rw [toList_text_array, hinside, List.cons_append]⟩

/-- **Behind a semicolon in a list of descriptors** are the texts of the
descriptors that are left. -/
theorem exists_listText_of_semicolon {ds : List FieldDescriptor} (h : ∀ d ∈ ds, d.IsWellNamed)
    {before after : List Char} (he : listText ds = before ++ ';' :: after) :
    ∃ es, (∀ e ∈ es, e.IsWellNamed) ∧ listText es = after := by
  induction ds generalizing before with
  | nil => exact absurd he (by simp [listText])
  | cons d ds ih =>
    obtain ⟨hd, hds⟩ := List.forall_mem_cons.mp h
    rw [listText_cons] at he
    rcases List.append_eq_append_iff.mp he with ⟨between, _, hbetween⟩ | ⟨between, htext, hafter⟩
    · exact ih hds hbetween
    · cases between with
      | nil => exact ih hds (show listText ds = [] ++ ';' :: after from hafter.symm)
      | cons c between =>
        -- the semicolon is in the text of the first descriptor, so it is its last character
        obtain ⟨rfl, rfl⟩ := List.cons.inj hafter
        obtain rfl := eq_nil_of_semicolon hd htext
        exact ⟨ds, hds, rfl⟩

end FieldDescriptor

/-- A semicolon is the end of what a method returns. -/
theorem ReturnDescriptor.eq_nil_of_semicolon {r : ReturnDescriptor} (h : r.IsWellNamed)
    {before after : List Char} (he : r.text.toList = before ++ ';' :: after) : after = [] := by
  cases r with
  | value t => exact FieldDescriptor.eq_nil_of_semicolon h he
  | void =>
    rw [toList_text_void, List.singleton_eq_append_iff] at he
    rcases he with ⟨_, he⟩ | ⟨_, he⟩
    · exact (List.cons.inj he).2
    · cases he

namespace MethodDescriptor

open FieldDescriptor (listText listText_cons)

/-- **Where a list of parameters seems to end,** whatever names are in it:
where it does, or in front of a semicolon behind which there is more. By
induction on the list that may break the rule: a parameter that does not is
the first on the other side as well, and of one that does the last semicolon
falls into the other list or behind it. -/
theorem eq_or_semicolon_of_listText (ps : List FieldDescriptor) {ds : List FieldDescriptor}
    (hd : ∀ d ∈ ds, d.IsWellNamed) {rest rest' : List Char}
    (h : listText ps ++ ')' :: rest = listText ds ++ ')' :: rest') :
    rest' = rest ∨ ∃ before after, after ≠ [] ∧ rest' = before ++ ';' :: after := by
  induction ps generalizing ds with
  | nil => exact .inl (listText_append_inj (List.forall_mem_nil _) hd h).2.symm
  | cons p ps ih =>
    rw [listText_cons, List.append_assoc] at h
    by_cases hp : p.IsWellNamed
    · have hscan := scanParameters_listText hd rest'
      rw [← h, scanParameters_of_scan (FieldDescriptor.scan_text_append hp _)] at hscan
      obtain ⟨⟨es, r⟩, hes, he⟩ := Option.map_eq_some_iff.1 hscan
      cases he
      obtain ⟨htext, hnames⟩ := scanParameters_eq_some_iff.mp hes
      exact ih hnames htext.symm
    · obtain ⟨inside, hinside⟩ := FieldDescriptor.exists_toList_text_of_not_isWellNamed hp
      rw [hinside, List.append_assoc, List.singleton_append] at h
      rcases List.append_eq_append_iff.mp h with ⟨between, hds, hafter⟩ | ⟨between, _, hrest⟩
      · cases between with
        | nil => cases hafter
        | cons c between =>
          -- the list is read to the end of the parameter and beyond
          obtain ⟨rfl, hothers⟩ := List.cons.inj hafter
          obtain ⟨es, hnames, rfl⟩ := FieldDescriptor.exists_listText_of_semicolon hd hds
          exact ih hnames hothers
      · cases between with
        | nil => cases hrest
        | cons c between =>
          obtain ⟨_, hrest⟩ := List.cons.inj hrest
          have hafter : listText ps ++ ')' :: rest ≠ [] :=
            List.append_ne_nil_of_right_ne_nil _ (List.cons_ne_nil _ _)
          exact .inr ⟨between, _, hafter, hrest⟩

/-- **Nothing can follow a method,** whatever names are in it. -/
theorem text_append_ne {d e : MethodDescriptor} (he : e.IsWellNamed) {rest : List Char}
    (hrest : rest ≠ []) : e.text.toList ≠ d.text.toList ++ rest := by
  intro h
  rw [toList_text, toList_text, List.cons_append, List.append_assoc, List.cons_append] at h
  -- where the list of the broken method ends is not known, but there are only two possibilities,
  -- and what is left behind it has to be something to return
  rcases eq_or_semicolon_of_listText d.parameters he.parameters (List.cons.inj h).2.symm with
    hresult | ⟨before, after, hafter, hresult⟩
  · by_cases hd : d.result.IsWellNamed
    · exact hrest (ReturnDescriptor.eq_nil_of_text_append hd he.result hresult.symm)
    · cases hvalue : d.result with
      | void => exact hd (hvalue ▸ trivial)
      | value t =>
        rw [hvalue] at hd hresult
        obtain ⟨inside, hinside⟩ := FieldDescriptor.exists_toList_text_of_not_isWellNamed hd
        rw [ReturnDescriptor.text_value, hinside, List.append_assoc,
          List.singleton_append] at hresult
        exact hrest (ReturnDescriptor.eq_nil_of_semicolon he.result hresult)
  · exact hafter (ReturnDescriptor.eq_nil_of_semicolon he.result hresult)

end MethodDescriptor

/-! ## Reading and writing -/

theorem ReturnDescriptor.text_ne_empty (r : ReturnDescriptor) : r.text ≠ "" := by
  intro h
  have hlist := congrArg String.toList h
  cases r with
  | void =>
    rw [toList_text_void] at hlist
    cases hlist
  | value t =>
    obtain ⟨c, cs, hcs, _⟩ := t.exists_toList_text
    rw [text_value, hcs] at hlist
    cases hlist

/-- **Texts of methods are read exactly as they are written.** A text is read as a
descriptor if it is the text of the descriptor and all classes in it have names
that are not empty and have no semicolon, and only then. So descriptors with the
same text are the same, and a list of parameters comes apart in only one way.
Nothing can be read that has something behind the descriptor of a method,
whatever names are in that; in particular a further descriptor, for none is
empty. -/
theorem methodText_read_exactly :
    (∀ (s : String) (d : MethodDescriptor),
        MethodDescriptor.read s = .ok d ↔ d.text = s ∧ d.IsWellNamed)
      ∧ (∀ d e : MethodDescriptor, d.IsWellNamed → e.IsWellNamed → d.text = e.text → d = e)
      ∧ (∀ (ds es : List FieldDescriptor) (rest rest' : String), (∀ d ∈ ds, d.IsWellNamed) →
        (∀ e ∈ es, e.IsWellNamed) →
        String.join (ds.map FieldDescriptor.text) ++ ")" ++ rest
          = String.join (es.map FieldDescriptor.text) ++ ")" ++ rest' → ds = es ∧ rest = rest')
      ∧ (∀ (d : MethodDescriptor) (rest : String), rest ≠ "" →
        MethodDescriptor.read (d.text ++ rest) = .error .invalidDescriptor)
      ∧ ∀ further : ReturnDescriptor, further.text ≠ "" := by
  refine ⟨fun _ _ => MethodDescriptor.read_eq_ok_iff, fun d e hd he h => ?_,
    fun ds es rest rest' hd he h => ?_, fun d rest hrest => ?_, ReturnDescriptor.text_ne_empty⟩
  · -- one text cannot be read as two descriptors
    have hread := MethodDescriptor.read_eq_ok_iff.mpr ⟨h, hd⟩
    rw [MethodDescriptor.read_eq_ok_iff.mpr ⟨rfl, he⟩] at hread
    exact (Except.ok.inj hread).symm
  · have hlist := congrArg String.toList h
    simp only [String.toList_append, FieldDescriptor.toList_join_text, List.append_assoc] at hlist
    obtain ⟨rfl, hrest⟩ := MethodDescriptor.listText_append_inj hd he hlist
    exact ⟨rfl, String.toList_injective hrest⟩
  · refine requireDescriptor_of_ne fun e he => ?_
    obtain ⟨htext, hnames⟩ := MethodDescriptor.read_eq_ok_iff.mp he
    refine MethodDescriptor.text_append_ne (d := d) hnames
      (fun hnil => hrest (String.toList_injective hnil)) ?_
    rw [htext, String.toList_append]

/-- A parameter the name of which has a parenthesis and a bracket in it; and a
method the only parameter of which breaks the rule for names, with the text of
another method. -/
theorem methodText_read_exactly_parenthesis :
    let d : MethodDescriptor := ⟨[.array (.object "a)V[b"), .base .int], .value (.object "c")⟩
    let broken : MethodDescriptor := ⟨[.object "a;Lb"], .void⟩
    let other : MethodDescriptor := ⟨[.object "a", .object "b"], .void⟩
    d.IsWellNamed ∧ MethodDescriptor.read "([La)V[b;I)Lc;" = .ok d
      ∧ MethodDescriptor.read "([La)V[b;I)Lc;V" = .error .invalidDescriptor
      ∧ broken.text = other.text ∧ MethodDescriptor.read broken.text = .ok other
      ∧ MethodDescriptor.read (broken.text ++ "V") = .error .invalidDescriptor := by
  intro d broken other
  obtain ⟨hread, -, -, hrest, -⟩ := methodText_read_exactly
  have hnames : d.IsWellNamed := by decide
  have hother : other.IsWellNamed := by decide
  exact ⟨hnames, (hread _ d).mpr ⟨rfl, hnames⟩, hrest d "V" (by decide), rfl,
    (hread _ other).mpr ⟨rfl, hother⟩, hrest broken "V" (by decide)⟩

end ClassFile
