import ClassFile.Proofs.Lineage

/-!
# Internal names tell classes apart

An internal name is one text, put together from a package and a list of simple
names. Where these leave its separators alone it can be taken apart again: the last
slash stands in front of the simple names, and of these each ends at the next
dollar. So classes with the same internal name have the same outermost package and
the same simple names from the outside inwards, and a class never shares its name
with one that lies deeper or less deep.

The slash in front of the simple names is there only if there is a package. This is
why the empty package is told from others by the number of parts between the
slashes: it has none, whereas every other package has at least one
(`packageParts_injective`). The package of a nested class is no part of any name.

Points in a package become slashes, and a package without slashes has them back when
slashes become points again. The qualified name can therefore be read off the
internal one, if there is no dollar in the package (`NameStyle.map_spell_internal`).
-/

namespace ClassFile

/-- **The names of a class leave the separators of internal names alone.** A package may
have points, which separate its parts, and dollars. -/
def ClassDeclaration.SparesSeparators (c : ClassDeclaration) : Prop :=
  '/' ∉ c.package.toList ∧ '/' ∉ c.simpleName.toList ∧ '$' ∉ c.simpleName.toList

instance : DecidablePred ClassDeclaration.SparesSeparators :=
  fun _ => inferInstanceAs (Decidable (_ ∧ _))

/-! ## Taking a name apart

First the name is cut at its slashes. The last part has all simple names,
joined by dollars, and what is in front of it is the package. Then the last
part is cut at its dollars. That no class is mistaken for one deeper or less
deep is in this second cut, for it gives the list of simple names, and with it
their number. -/

/-- The parts that a package contributes to an internal name. -/
def packageParts (package : String) : List (List Char) :=
  if package = "" then [] else package.toList.splitOn '.'

/-- **A package is told by its parts.** The empty package has none and every
other one has at least one, so the two are not mixed up; and where there are
parts, the points between them are put back. -/
theorem packageParts_injective : Function.Injective packageParts := by
  intro s t h
  unfold packageParts at h
  split at h <;> split at h
  · next hs ht => rw [hs, ht]
  · exact absurd h.symm (List.splitOn_ne_nil _ _)
  · exact absurd h (List.splitOn_ne_nil _ _)
  · apply String.toList_injective
    calc s.toList = ['.'].intercalate (s.toList.splitOn '.') := (List.intercalate_splitOn '.').symm
      _ = ['.'].intercalate (t.toList.splitOn '.') := congrArg _ h
      _ = t.toList := List.intercalate_splitOn '.'

section

variable {outermost other : ClassDeclaration} {inner further : List ClassDeclaration}

/-- **The parts between the slashes** of an internal name are those of the package and,
as the last one, the simple names. -/
theorem NameStyle.splitOn_spell_internal
    (h : ∀ c ∈ outermost :: inner, c.SparesSeparators) :
    (internal.spell (outermost :: inner)).toList.splitOn '/'
      = packageParts outermost.package
        ++ [['$'].intercalate ((outermost :: inner).map (·.simpleName.toList))] := by
  have hnames :
      ('/' : Char) ∉ ['$'].intercalate ((outermost :: inner).map (·.simpleName.toList)) := by
    -- neither the dollars between simple names nor the names have a slash in them
    intro hslash
    rcases mem_intercalate hslash with hslash | ⟨name, hname, hslash⟩
    · exact absurd hslash (by decide)
    · obtain ⟨c, hc, rfl⟩ := List.mem_map.mp hname
      exact (h c hc).2.1 hslash
  have hlast := List.splitOn_eq_singleton hnames
  rw [spell_internal_cons, String.toList_append, toList_intercalate_simpleNames]
  unfold packageParts
  split
  · exact hlast
  · -- points have become slashes, and there were no other slashes in the package
    have hpackage : (outermost.package.toList.map fun c => if c = '.' then '/' else c).splitOn '/'
        = outermost.package.toList.splitOn '.' :=
      splitOn_map_replace (h outermost List.mem_cons_self).1
    rw [String.toList_append, String.toList_map, List.append_assoc]
    show ((outermost.package.toList.map fun c => if c = '.' then '/' else c)
      ++ '/' :: ['$'].intercalate _).splitOn '/' = _
    rw [List.splitOn_append_cons_self, hpackage, hlast]

/-- **Simple names are told by what they are joined to.** -/
theorem simpleNames_of_intercalate {chain others : List ClassDeclaration} (hne : chain ≠ [])
    (hne' : others ≠ []) (h : ∀ c ∈ chain, c.SparesSeparators)
    (h' : ∀ c ∈ others, c.SparesSeparators)
    (he : ['$'].intercalate (chain.map (·.simpleName.toList))
      = ['$'].intercalate (others.map (·.simpleName.toList))) :
    chain.map (·.simpleName) = others.map (·.simpleName) := by
  have hsplit : ∀ l : List ClassDeclaration, l ≠ [] → (∀ c ∈ l, c.SparesSeparators) →
      (['$'].intercalate (l.map (·.simpleName.toList))).splitOn '$'
        = l.map (·.simpleName.toList) := fun l hl hspares =>
    List.splitOn_intercalate '$' (List.forall_mem_map.mpr fun c hc => (hspares c hc).2.2)
      (hl ∘ List.map_eq_nil_iff.mp)
  have hlists := congrArg (List.splitOn '$') he
  rw [hsplit chain hne h, hsplit others hne' h'] at hlists
  refine List.map_injective_iff.mpr (fun _ _ => String.toList_injective) ?_
  rw [List.map_map, List.map_map]
  exact hlists

/-- **A chain of classes is told by its internal name,** up to what the name
does not show: the packages of the inner classes, and everything but names of
the outermost. -/
theorem NameStyle.spell_internal_eq_iff (h : ∀ c ∈ outermost :: inner, c.SparesSeparators)
    (h' : ∀ c ∈ other :: further, c.SparesSeparators) :
    internal.spell (outermost :: inner) = internal.spell (other :: further)
      ↔ outermost.package = other.package
        ∧ (outermost :: inner).map (·.simpleName) = (other :: further).map (·.simpleName) := by
  constructor
  · intro he
    have hparts := congrArg (fun s : String => s.toList.splitOn '/') he
    rw [splitOn_spell_internal h, splitOn_spell_internal h'] at hparts
    obtain ⟨hpackage, hnames⟩ := List.append_inj' hparts rfl
    exact ⟨packageParts_injective hpackage,
      simpleNames_of_intercalate (List.cons_ne_nil _ _) (List.cons_ne_nil _ _) h h'
        (List.singleton_inj.mp hnames)⟩
  · rintro ⟨hpackage, hnames⟩
    rw [spell_internal_cons, spell_internal_cons, hpackage, hnames]

/-! ## Points for slashes and dollars

Replacing separators cannot be undone, and the qualified name tells less than
the internal one. In this direction it is a function of the characters. -/

/-- A point for each separator of an internal name. -/
def pointFor (c : Char) : Char := if c = '/' ∨ c = '$' then '.' else c

theorem pointFor_of_ne {c : Char} (h : c ≠ '/') (h' : c ≠ '$') : pointFor c = c :=
  if_neg (not_or.mpr ⟨h, h'⟩)

/-- Replacing characters in joined texts is replacing them in the texts and between
them. -/
theorem map_intercalate (f : Char → Char) (separator : List Char) (parts : List (List Char)) :
    (separator.intercalate parts).map f = (separator.map f).intercalate (parts.map (·.map f)) := by
  induction parts with
  | nil => rfl
  | cons part parts ih =>
    cases parts with
    | nil => rw [List.map_singleton, List.intercalate_singleton, List.intercalate_singleton]
    | cons next further =>
      rw [List.map_cons] at ih
      rw [List.intercalate_cons_cons, List.map_append, List.map_append, ih, List.map_cons,
        List.map_cons, List.intercalate_cons_cons]

/-- **With points for its separators an internal name is the qualified one.** -/
theorem NameStyle.map_spell_internal (h : ∀ c ∈ outermost :: inner, c.SparesSeparators)
    (hdollar : '$' ∉ outermost.package.toList) :
    (internal.spell (outermost :: inner)).map pointFor = qualified.spell (outermost :: inner) := by
  -- texts without separators stay as they are
  have hkept : ∀ {cs : List Char}, '/' ∉ cs → '$' ∉ cs → cs.map pointFor = cs := fun hs hd =>
    (List.map_congr_left fun c hc => pointFor_of_ne (fun e => hs (e ▸ hc))
      fun e => hd (e ▸ hc)).trans (List.map_id _)
  have hnames : (['$'].intercalate ((outermost :: inner).map (·.simpleName.toList))).map pointFor
      = ['.'].intercalate ((outermost :: inner).map (·.simpleName.toList)) := by
    rw [map_intercalate, List.map_map]
    refine congrArg _ (List.map_congr_left fun c hc => ?_)
    exact hkept (h c hc).2.1 (h c hc).2.2
  -- a point that became a slash is a point again
  have hpackage : (outermost.package.toList.map fun c => if c = '.' then '/' else c).map pointFor
      = outermost.package.toList := by
    rw [List.map_map]
    refine (List.map_congr_left fun c hc => ?_).trans (List.map_id _)
    show pointFor (if c = '.' then '/' else c) = c
    split
    · next hpoint => exact hpoint.symm
    · exact pointFor_of_ne (fun e => (h outermost List.mem_cons_self).1 (e ▸ hc))
        fun e => hdollar (e ▸ hc)
  apply String.toList_injective
  rw [String.toList_map, spell_internal_cons, spell_qualified_cons, String.toList_append,
    String.toList_append, toList_intercalate_simpleNames, toList_intercalate_simpleNames,
    List.map_append]
  refine congrArg₂ _ ?_ hnames
  split
  · rfl
  · rw [String.toList_append, String.toList_append, List.map_append, String.toList_map, hpackage]
    rfl

end

namespace Program

variable {p : Program}

/-- **Internal names tell classes apart.** Where all names of a program spare the
separators, two classes have the same internal name exactly if their outermost classes
are in the same package and the simple names around them are the same, down to their
own. So a class never shares its name with one that lies less deep or deeper. If
there are no dollars in packages either, the qualified name is the internal one with
points for its separators. -/
theorem internalName_eq_iff (h : ∀ c ∈ p.classes, c.SparesSeparators) {a b : ClassId}
    {m n : String} (ha : p.internalName a = .ok m) (hb : p.internalName b = .ok n) :
    ∃ outermost inner other further,
      p.nesting a = .ok (outermost :: inner) ∧ p.nesting b = .ok (other :: further)
        ∧ (m = n ↔ outermost.package = other.package
          ∧ (outermost :: inner).map (·.simpleName) = (other :: further).map (·.simpleName))
        ∧ (m = n → inner.length = further.length)
        ∧ ((∀ c ∈ p.classes, '$' ∉ c.package.toList) → p.qualifiedName a
          = .ok (m.map fun c => if c = '/' ∨ c = '$' then '.' else c)) := by
  obtain ⟨chain, hchain, rfl⟩ := map_eq_ok ha
  obtain ⟨others, hothers, rfl⟩ := map_eq_ok hb
  obtain ⟨hne, hmem⟩ := mem_of_nesting hchain
  obtain ⟨hne', hmem'⟩ := mem_of_nesting hothers
  obtain ⟨outermost, inner, rfl⟩ := List.exists_cons_of_ne_nil hne
  obtain ⟨other, further, rfl⟩ := List.exists_cons_of_ne_nil hne'
  -- all classes around one that is known are classes of the program
  have hspares : ∀ c ∈ outermost :: inner, c.SparesSeparators := fun c hc => h c (hmem c hc)
  have hiff := NameStyle.spell_internal_eq_iff hspares fun c hc => h c (hmem' c hc)
  refine ⟨outermost, inner, other, further, hchain, hothers, hiff, fun he => ?_, fun hdollar => ?_⟩
  · have hlengths := congrArg List.length (hiff.mp he).2
    rw [List.length_map, List.length_map] at hlengths
    exact Nat.succ.inj hlengths
  · unfold qualifiedName nameOf
    rw [hchain]
    exact congrArg Except.ok (NameStyle.map_spell_internal hspares
      (hdollar outermost (hmem _ List.mem_cons_self))).symm

/-- A nested class and a class of a package that is named like the class around it: their
qualified names are the same, their internal names are not. -/
theorem internalName_eq_iff_entry :
    let p : Program := { Program.initial with
      classes := Program.initial.classes ++ #[.bare .interface "java.util" "Map",
        { ClassDeclaration.bare .interface "elsewhere" "Entry" with enclosing := some ⟨6⟩ },
        .bare .interface "java.util.Map" "Entry"] }
    (∀ c ∈ p.classes, c.SparesSeparators)
      ∧ p.internalName ⟨7⟩ = .ok "java/util/Map$Entry"
      ∧ p.internalName ⟨8⟩ = .ok "java/util/Map/Entry"
      ∧ p.qualifiedName ⟨7⟩ = .ok "java.util.Map.Entry"
      ∧ p.qualifiedName ⟨8⟩ = .ok "java.util.Map.Entry"
      ∧ ∃ outermost inner other further,
        p.nesting ⟨7⟩ = .ok (outermost :: inner) ∧ p.nesting ⟨8⟩ = .ok (other :: further)
          ∧ ¬ (outermost.package = other.package
            ∧ (outermost :: inner).map (·.simpleName) = (other :: further).map (·.simpleName)) := by
  intro p
  have hspares : ∀ c ∈ p.classes, c.SparesSeparators := by decide
  have hdollar : ∀ c ∈ p.classes, '$' ∉ c.package.toList := by decide
  have ha : p.internalName ⟨7⟩ = .ok "java/util/Map$Entry" := by cbv
  have hb : p.internalName ⟨8⟩ = .ok "java/util/Map/Entry" := by cbv
  obtain ⟨outermost, inner, other, further, hchain, hothers, hiff, -, hqualified⟩ :=
    internalName_eq_iff hspares ha hb
  obtain ⟨_, _, _, _, _, _, _, -, hqualified'⟩ := internalName_eq_iff hspares hb ha
  exact ⟨hspares, ha, hb, (hqualified hdollar).trans (by cbv), (hqualified' hdollar).trans (by cbv),
    outermost, inner, other, further, hchain, hothers, mt hiff.mpr (by decide)⟩

end Program

end ClassFile
