import ClassFile.Program.Naming
import ClassFile.Proofs.Agreement
import ClassFile.Proofs.Handles

/-!
# Clean names

The grammar of signatures keeps a few characters for itself and tells names
from what is around them by these alone. A program whose names have none of
them is one whose signatures can be read back: its simple names and the names
of its type parameters are identifiers, and its packages identifiers with
points between them (`Program.HasCleanNames`). The internal names of its
classes are then identifiers with slashes between them
(`Program.HasCleanNames.isPath_internalName`), for the dollar sign between a
class and one nested in it is a character like others.
-/

namespace ClassFile

/-- The characters that the grammar keeps for itself. -/
def reserved : List Char := ['.', ';', '[', '/', '<', '>', ':']

/-- **An identifier:** some characters, and none that the grammar keeps for
itself. -/
def IsIdentifier (cs : List Char) : Prop := cs ≠ [] ∧ ∀ c ∈ cs, c ∉ reserved

-- the characters of a name are looked at, not all there are
instance : DecidablePred IsIdentifier :=
  fun cs => @instDecidableAnd _ _ inferInstance (List.decidableBAll (· ∉ reserved) cs)

/-- **A path:** identifiers with a separator between them, at least one. -/
def IsPath (separator : Char) (cs : List Char) : Prop :=
  ∀ part ∈ cs.splitOn separator, IsIdentifier part

instance (separator : Char) : DecidablePred (IsPath separator) :=
  fun _ => inferInstanceAs (Decidable (∀ _ ∈ _, _))

/-! ## Identifiers and paths

Being a path is what holds of names: it passes from a name to what is nested
in it, and it says which characters can be in a name. -/

/-- What is joined by separators consists of the separator and the parts. -/
theorem mem_intercalate {separator : List Char} {parts : List (List Char)} {c : Char}
    (h : c ∈ separator.intercalate parts) : c ∈ separator ∨ ∃ part ∈ parts, c ∈ part := by
  induction parts with
  | nil => exact absurd h List.not_mem_nil
  | cons part parts ih =>
    cases parts with
    | nil =>
      rw [List.intercalate_singleton] at h
      exact .inr ⟨part, List.mem_singleton_self _, h⟩
    | cons next further =>
      rw [List.intercalate_cons_cons, List.mem_append, List.mem_append] at h
      rcases h with (h | h) | h
      · exact .inr ⟨part, List.mem_cons_self, h⟩
      · exact .inl h
      · rcases ih h with h | ⟨q, hq, hc⟩
        · exact .inl h
        · exact .inr ⟨q, List.mem_cons_of_mem _ hq, hc⟩

/-- Identifiers that are joined by free characters are an identifier. -/
theorem IsIdentifier.intercalate {separator : List Char} {parts : List (List Char)}
    (hs : ∀ c ∈ separator, c ∉ reserved) (hne : parts ≠ [])
    (h : ∀ part ∈ parts, IsIdentifier part) : IsIdentifier (separator.intercalate parts) := by
  constructor
  · obtain ⟨part, further, rfl⟩ := List.exists_cons_of_ne_nil hne
    have hpart := (h part List.mem_cons_self).1
    cases further with
    | nil => rwa [List.intercalate_singleton]
    | cons next others =>
      rw [List.intercalate_cons_cons]
      simp [hpart]
  · intro c hc
    rcases mem_intercalate hc with hc | ⟨part, hp, hc⟩
    · exact hs c hc
    · exact (h part hp).2 c hc

/-- An identifier is a path of one part. -/
theorem IsIdentifier.isPath {separator : Char} {cs : List Char} (h : IsIdentifier cs)
    (hs : separator ∈ reserved) : IsPath separator cs := by
  unfold IsPath
  rw [List.splitOn_eq_singleton fun hc => h.2 _ hc hs]
  intro part hp
  rw [List.mem_singleton.mp hp]
  exact h

/-- A path can be lengthened by an identifier. -/
theorem IsPath.append {separator : Char} {cs name : List Char} (h : IsPath separator cs)
    (hn : IsIdentifier name) (hs : separator ∈ reserved) :
    IsPath separator (cs ++ separator :: name) := by
  unfold IsPath
  rw [List.splitOn_append_cons_self]
  intro part hp
  rcases List.mem_append.mp hp with hp | hp
  · exact h part hp
  · exact hn.isPath hs part hp

/-- **A path consists of separators and free characters.** It is how the end
of a name is found in a text: the first reserved character other than the
separator is behind it. -/
theorem IsPath.eq_or_notMem {separator : Char} {cs : List Char} (h : IsPath separator cs)
    {c : Char} (hc : c ∈ cs) : c = separator ∨ c ∉ reserved := by
  have hparts : c ∈ [separator].intercalate (cs.splitOn separator) := by
    rw [List.intercalate_splitOn]
    exact hc
  rcases mem_intercalate hparts with hc | ⟨part, hp, hc⟩
  · exact .inl (List.mem_singleton.mp hc)
  · exact .inr ((h part hp).2 c hc)

theorem IsPath.ne_nil {separator : Char} {cs : List Char} (h : IsPath separator cs) :
    cs ≠ [] := by
  rintro rfl
  exact (h [] (by simp)).1 rfl

/-- A list has the same parts after its separator has been replaced by a new
one. The new one must not have been in it, or it would split a part. -/
theorem splitOn_map_replace {old new : Char} {cs : List Char} (h : new ∉ cs) :
    (cs.map fun c => if c = old then new else c).splitOn new = cs.splitOn old := by
  induction cs with
  | nil => rfl
  | cons c cs ih =>
    have hc : c ≠ new := fun e => h (e ▸ List.mem_cons_self)
    have hcs : new ∉ cs := fun e => h (List.mem_cons_of_mem _ e)
    rw [List.map_cons, List.splitOn_cons_eq_if_modifyHead, List.splitOn_cons_eq_if_modifyHead,
      ih hcs]
    -- the character is a separator on both sides or on neither
    by_cases ho : c = old
    · simp [ho]
    · simp [ho, hc]

/-! ## Spelled names

Spelling takes a chain of classes from the outermost one inwards and the way
of spelling as a parameter, so that both kinds of names are the same text with
other separators. -/

/-- **What a chain of classes spells out:** the package of the outermost one, if it has
one, and the names of all. -/
theorem NameStyle.spell_cons (style : NameStyle) (outermost : ClassDeclaration)
    (inner : List ClassDeclaration) :
    style.spell (outermost :: inner)
      = (if outermost.package = "" then ""
        else (outermost.package.map fun c => if c = '.' then style.packageSeparator else c)
          ++ style.packageSeparator.toString)
        ++ style.nestingSeparator.intercalate ((outermost :: inner).map (·.simpleName)) := by
  unfold spell
  dsimp only [List.head?_cons, Option.map_some, Option.getD_some]
  by_cases h : outermost.package = ""
  · rw [if_pos h, if_pos (String.isEmpty_iff.mpr h), String.empty_append]
  · rw [if_neg h, if_neg (h ∘ String.isEmpty_iff.mp)]

/-- In internal names the separators are slashes and dollars. -/
theorem NameStyle.spell_internal_cons (outermost : ClassDeclaration)
    (inner : List ClassDeclaration) :
    internal.spell (outermost :: inner)
      = (if outermost.package = "" then ""
        else (outermost.package.map fun c => if c = '.' then '/' else c) ++ "/")
        ++ "$".intercalate ((outermost :: inner).map (·.simpleName)) :=
  internal.spell_cons outermost inner

/-- In qualified names all separators are points, as those in packages are. -/
theorem NameStyle.spell_qualified_cons (outermost : ClassDeclaration)
    (inner : List ClassDeclaration) :
    qualified.spell (outermost :: inner)
      = (if outermost.package = "" then "" else outermost.package ++ ".")
        ++ ".".intercalate ((outermost :: inner).map (·.simpleName)) := by
  have hpoints : (outermost.package.map fun c => if c = '.' then '.' else c)
      = outermost.package := by
    apply String.toList_injective
    rw [String.toList_map]
    exact (List.map_congr_left fun c _ => ite_eq_right_iff.mpr Eq.symm).trans (List.map_id _)
  rw [spell_cons]
  unfold qualified
  rw [hpoints]
  rfl

/-- The simple names of a chain of classes, joined. -/
theorem toList_intercalate_simpleNames (separator : String) (chain : List ClassDeclaration) :
    (separator.intercalate (chain.map (·.simpleName))).toList
      = separator.toList.intercalate (chain.map (·.simpleName.toList)) := by
  rw [String.toList_intercalate, List.map_map]
  rfl

/-! ## Programs with clean names

It is the names of all classes and type parameters that are asked to be clean,
whether or not anything refers to them. Hence it holds of whatever a climb
passes. -/

/-- **A program whose names are clean.** -/
structure Program.HasCleanNames (p : Program) : Prop where
  simpleName : ∀ c ∈ p.classes, IsIdentifier c.simpleName.toList
  package : ∀ c ∈ p.classes, c.package = "" ∨ IsPath '.' c.package.toList
  typeParameter : ∀ t ∈ p.typeParameters, IsIdentifier t.name.toList

namespace Program

variable {p : Program}

/-- The climb from a class collects classes of the program, at least one. By
induction on the steps it is given. -/
theorem mem_of_outwards {steps : Nat} {id : ClassId} {chain : List ClassDeclaration}
    (h : p.outwards steps id = .ok chain) : chain ≠ [] ∧ ∀ c ∈ chain, c ∈ p.classes := by
  induction steps generalizing id chain with
  | zero =>
    obtain ⟨_, _, h⟩ := bind_eq_ok h
    cases h
  | succ steps ih =>
    obtain ⟨c, hc, h⟩ := bind_eq_ok h
    have hmem := mem_of_classOf hc
    cases ho : c.enclosing with
    | none =>
      rw [ho] at h
      cases h
      exact ⟨List.cons_ne_nil _ _, fun d hd => List.mem_singleton.mp hd ▸ hmem⟩
    | some outer =>
      rw [ho] at h
      obtain ⟨further, hf, h⟩ := bind_eq_ok h
      cases h
      exact ⟨List.cons_ne_nil _ _, List.forall_mem_cons.mpr ⟨hmem, (ih hf).2⟩⟩

/-- The classes around a class are classes of the program, at least one. -/
theorem mem_of_nesting {id : ClassId} {chain : List ClassDeclaration}
    (h : p.nesting id = .ok chain) : chain ≠ [] ∧ ∀ c ∈ chain, c ∈ p.classes := by
  obtain ⟨climb, hclimb, rfl⟩ := map_eq_ok h
  obtain ⟨hne, hmem⟩ := mem_of_outwards hclimb
  exact ⟨List.reverse_ne_nil_iff.mpr hne, fun c hc => hmem c (List.mem_reverse.mp hc)⟩

/-- The package and the simple names of a chain of classes spell a path. -/
theorem HasCleanNames.isPath_spell (names : p.HasCleanNames) {chain : List ClassDeclaration}
    (hne : chain ≠ []) (hmem : ∀ c ∈ chain, c ∈ p.classes) :
    IsPath '/' (NameStyle.internal.spell chain).toList := by
  -- the names of the classes are one identifier, which ends the path
  have hnames : IsIdentifier ("$".intercalate (chain.map (·.simpleName))).toList := by
    rw [toList_intercalate_simpleNames]
    refine IsIdentifier.intercalate (by simp [reserved]) (by simpa using hne) ?_
    intro part hp
    obtain ⟨c, hc, rfl⟩ := List.mem_map.mp hp
    exact names.simpleName c (hmem c hc)
  obtain ⟨outermost, inner, rfl⟩ := List.exists_cons_of_ne_nil hne
  rw [NameStyle.spell_internal_cons]
  split
  · rw [String.empty_append]
    exact hnames.isPath (by decide)
  · next hpackage =>
    have hpath := (names.package outermost (hmem _ List.mem_cons_self)).resolve_left hpackage
    have hslash : '/' ∉ outermost.package.toList := fun hc =>
      (hpath.eq_or_notMem hc).elim (by decide) fun hn => hn (by decide)
    have hreplaced : IsPath '/'
        (outermost.package.toList.map fun c => if c = '.' then '/' else c) := by
      unfold IsPath
      rw [splitOn_map_replace hslash]
      exact hpath
    have hall := hreplaced.append hnames (by decide)
    rw [String.toList_append, String.toList_append, String.toList_map, List.append_assoc]
    exact hall

/-- **Internal names are paths.** -/
theorem HasCleanNames.isPath_internalName (names : p.HasCleanNames) {id : ClassId}
    {name : String} (h : p.internalName id = .ok name) : IsPath '/' name.toList := by
  obtain ⟨chain, hc, rfl⟩ := map_eq_ok h
  obtain ⟨hne, hmem⟩ := mem_of_nesting hc
  exact names.isPath_spell hne hmem

end Program

end ClassFile
