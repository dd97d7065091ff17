import Mathlib
import ClassFile.Proofs.Signature.ReadBack
import ClassFile.Proofs.Signature.Text

/-!
# The structure of a type

What a reader should find in the signature of a type is the type, as far as
the grammar can say it: array layers, type variables by name, type arguments
in their order, each wildcard with its bound, and for a class a segment for
each level that is written. `Program.resultTree?` gives this tree. It is
read off the type and knows nothing of texts, calls or writers.

Not every type has such a tree, for the grammar has places for wildcards,
for primitive types and for nothing at all, and a compiler forms types
accordingly (`JavaType.fits`). For those that fit, the signature is the text of
the tree, and a reader finds the tree (`Program.typeSignature_reads_back`).
-/

namespace ClassFile

open Signature

/-! ## Types in their places

The grammar has places for each kind of type. Nothing but the places is
checked: names are clean or not by themselves, and handles may name nothing,
since then there is no text to be read. -/

/-- **Where a type stands,** as far as it matters for what may stand there. -/
inductive Place where
  /-- What a method returns, or a type on its own. -/
  | result
  /-- A parameter, or the component of an array. -/
  | value
  /-- The bound of a wildcard or of a type parameter. -/
  | reference
  /-- A type argument. -/
  | argument
  deriving DecidableEq, Repr

mutual

/-- **Whether a type may stand in a place,** and all types inside it in
theirs. About the members of intersections nothing is said. -/
def JavaType.fits : JavaType → Place → Bool
  | .primitive _, place => place == .result || place == .value
  | .void, place => place == .result
  | .array c, _ => c.fits .value
  | .declared ⟨⟨_, arguments, _⟩, outer⟩, _ => JavaType.allFit arguments && ClassPart.allFit outer
  | .typeVariable _ _, _ | .intersection _, _ => true
  | .wildcard, place => place == .argument
  | .wildcardExtends bound, place | .wildcardSuper bound, place =>
    place == .argument && bound.fits .reference

/-- Whether types may stand as type arguments. -/
def JavaType.allFit : List JavaType → Bool
  | [] => true
  | t :: ts => t.fits .argument && JavaType.allFit ts

/-- Whether the type arguments of all parts may stand there. -/
def ClassPart.allFit : List ClassPart → Bool
  | [] => true
  | ⟨_, arguments, _⟩ :: parts => JavaType.allFit arguments && ClassPart.allFit parts

end

/-! ## Trees of types

What makes the tree of a class type is the rule by which its levels are
written: from the outside inwards, beginning under its internal name with the
outermost one that has arguments, or with the class itself if none has. -/

/-- A reference type, if it is one. -/
def Signature.TypeTree.reference? : TypeTree → Option ReferenceTree
  | .base _ => none
  | .reference r => some r

/-- One level of a class type: a class and what stands for its type
arguments. -/
structure Level where
  id : ClassId
  arguments : List ArgumentTree

/-- Whether the level has type arguments. -/
def Level.hasArguments (l : Level) : Bool := !l.arguments.isEmpty

/-- **The levels of a class type that are written,** from the inside outwards:
up to the first around which nothing is parameterized. -/
def Level.written : List Level → List Level
  | [] => []
  | l :: ls => if ls.any Level.hasArguments then l :: Level.written ls else [l]

namespace Program

/-- The segment of a level around which there are others: it has its simple
name. -/
def innerSegment? (p : Program) (l : Level) : Option Segment := do
  return ⟨(← (p.classOf l.id).toOption).simpleName, l.arguments⟩

/-- **The segments of a class type** with these levels: the outermost that is
written, under its internal name, and those inside it. -/
def segments? (p : Program) (levels : List Level) : Option (Segment × List Segment) :=
  match (Level.written levels).reverse with
  | [] => none
  | outermost :: inside => do
    let name ← (p.internalName outermost.id).toOption
    return (⟨name, outermost.arguments⟩, ← inside.mapM p.innerSegment?)

mutual

/-- **The tree of a type** that is a value. -/
def typeTree? (p : Program) : JavaType → Option TypeTree
  | .primitive b => some (.base b)
  | .array c => do return .reference (.array (← p.typeTree? c))
  | .declared ⟨⟨id, arguments, _⟩, outer⟩ => do
    let arguments ← p.argumentTrees? arguments
    let (head, inner) ← p.segments? (⟨id, arguments⟩ :: (← p.levels? outer))
    return .reference (.declared head inner)
  | .typeVariable id _ => do
    return .reference (.typeVariable (← (p.typeParameterOf id).toOption).name)
  | .void | .wildcard | .wildcardExtends _ | .wildcardSuper _ | .intersection _ => none

/-- The trees of type arguments. -/
def argumentTrees? (p : Program) : List JavaType → Option (List ArgumentTree)
  | [] => some []
  | .wildcard :: ts => do return .any :: (← p.argumentTrees? ts)
  | .wildcardExtends bound :: ts => do
    let bound ← (← p.typeTree? bound).reference?
    return .subtypeOf bound :: (← p.argumentTrees? ts)
  | .wildcardSuper bound :: ts => do
    let bound ← (← p.typeTree? bound).reference?
    return .supertypeOf bound :: (← p.argumentTrees? ts)
  | t :: ts => do
    let type ← (← p.typeTree? t).reference?
    return .exactly type :: (← p.argumentTrees? ts)

/-- The levels of the parts of a class type. -/
def levels? (p : Program) : List ClassPart → Option (List Level)
  | [] => some []
  | ⟨id, arguments, _⟩ :: parts => do
    let arguments ← p.argumentTrees? arguments
    return ⟨id, arguments⟩ :: (← p.levels? parts)

end

/-- **The tree of a type** that may be nothing. -/
def resultTree? (p : Program) : JavaType → Option ResultTree
  | .void => some .void
  | t => (p.typeTree? t).map .value

end Program

/-! ## Segments

Going from a level to the one inside it adds a segment at the end, as soon as
there are type arguments further out. Otherwise the inner level starts anew
with a name of its own. -/

variable {p : Program}

/-- A level around which nothing is parameterized is the only one written. -/
theorem Program.segments?_plain {l : Level} {ls : List Level} {name : String}
    (hls : ls.any Level.hasArguments = false) (h : p.internalName l.id = .ok name) :
    p.segments? (l :: ls) = some (⟨name, l.arguments⟩, []) := by
  unfold segments?
  rw [Level.written, if_neg (by rw [hls]; exact Bool.false_ne_true)]
  show (do
    let name ← (p.internalName l.id).toOption
    return (Segment.mk name l.arguments, [])) = _
  rw [h]
  rfl

/-- **A level inside a parameterized one is the last segment.** -/
theorem Program.segments?_cons {l : Level} {ls : List Level} {c : ClassDeclaration}
    {head : Segment} {inner : List Segment} (hls : ls.any Level.hasArguments = true)
    (h : p.segments? ls = some (head, inner)) (hc : p.classOf l.id = .ok c) :
    p.segments? (l :: ls) = some (head, inner ++ [⟨c.simpleName, l.arguments⟩]) := by
  unfold segments? at h ⊢
  rw [Level.written, if_pos hls, List.reverse_cons]
  -- the outermost level that is written stays the first, and the new one becomes the last
  cases hr : (Level.written ls).reverse with
  | nil =>
    rw [hr] at h
    cases h
  | cons outermost inside =>
    rw [hr] at h
    obtain ⟨name, hn, h⟩ := Option.bind_eq_some_iff.mp h
    obtain ⟨segments, hs, h⟩ := Option.bind_eq_some_iff.mp h
    cases h
    have hl : p.innerSegment? l = some ⟨c.simpleName, l.arguments⟩ := by
      unfold innerSegment?
      rw [hc]
      rfl
    show (do
      let name ← (p.internalName outermost.id).toOption
      return (Segment.mk name outermost.arguments, ← (inside ++ [l]).mapM p.innerSegment?)) = _
    rw [hn, List.mapM_append, hs, List.mapM_cons, hl]
    rfl

/-- Parts without type arguments are levels without them. -/
theorem Program.levels?_plain : ∀ {outer : List ClassPart},
    outer.any ClassPart.hasArguments = false →
    ∃ levels, p.levels? outer = some levels ∧ levels.any Level.hasArguments = false
  | [], _ => ⟨[], rfl, rfl⟩
  | ⟨id, arguments, annotations⟩ :: further, h => by
    obtain ⟨hown, hfurther⟩ := Bool.or_eq_false_iff.mp h
    obtain ⟨levels, hlevels, hany⟩ := levels?_plain hfurther
    have harguments : arguments = [] := by simpa [ClassPart.hasArguments] using hown
    subst harguments
    refine ⟨⟨id, []⟩ :: levels, ?_, hany⟩
    rw [levels?, argumentTrees?, hlevels]
    rfl

/-- A class further inside is written behind the others, with a point. -/
theorem Signature.Segment.innerText_append (ss : List Segment) (s : Segment) :
    Segment.innerText (ss ++ [s]) = Segment.innerText ss ++ "." ++ s.text := by
  induction ss with
  | nil =>
    show "." ++ s.text ++ "" = "" ++ "." ++ s.text
    rw [String.append_empty, String.empty_append]
  | cons t ss ih =>
    rw [List.cons_append, Segment.innerText, ih, Segment.innerText]
    simp only [String.append_assoc]

theorem Signature.Segment.allClean_append {ss : List Segment} {s : Segment}
    (hss : Segment.AllClean ss) (hs : s.IsClean true) : Segment.AllClean (ss ++ [s]) := by
  induction ss with
  | nil => exact ⟨hs, trivial⟩
  | cons t ss ih => exact ⟨hss.1, ih hss.2⟩

/-! ## Places

These are the ways in which one place allows no less than another. -/

theorem JavaType.fits_value : ∀ {t : JavaType}, t.fits .reference = true → t.fits .value = true
  | .declared ⟨⟨_, _, _⟩, _⟩, h => h
  | .array _, h | .typeVariable _ _, h | .intersection _, h => h
  | .primitive _, h | .void, h | .wildcard, h | .wildcardExtends _, h | .wildcardSuper _, h => by
    cases h

/-- A type argument is a wildcard or a reference type. -/
theorem JavaType.fits_reference : ∀ {t : JavaType}, t.fits .argument = true →
    t.isWildcard = false → t.fits .reference = true
  | .declared ⟨⟨_, _, _⟩, _⟩, h, _ => h
  | .array _, h, _ | .typeVariable _ _, h, _ | .intersection _, h, _ => h
  | .primitive _, h, _ | .void, h, _ => by cases h
  | .wildcard, _, h | .wildcardExtends _, _, h | .wildcardSuper _, _, h => by cases h

/-- A type argument that is no wildcard stands for itself. -/
theorem Program.argumentTrees?_cons {t : JavaType} (ht : t.isWildcard = false)
    (ts : List JavaType) : p.argumentTrees? (t :: ts) = do
      let type ← (← p.typeTree? t).reference?
      return .exactly type :: (← p.argumentTrees? ts) := by
  cases t <;> first | rfl | cases ht

theorem JavaType.fits_value_of_result : ∀ {t : JavaType}, t.fits .result = true →
    t ≠ .void → t.fits .value = true
  | .declared ⟨⟨_, _, _⟩, _⟩, h, _ => h
  | .primitive _, _, _ => rfl
  | .array _, h, _ | .typeVariable _ _, h, _ | .intersection _, h, _ => h
  | .void, _, h => absurd rfl h
  | .wildcard, h, _ | .wildcardExtends _, h, _ | .wildcardSuper _, h, _ => by cases h

/-- The tree of a class is one of a class. -/
theorem Program.typeTree?_declared {t : ClassType} {tree : TypeTree}
    (h : p.typeTree? (.declared t) = some tree) :
    ∃ head inner, tree = .reference (.declared head inner) := by
  obtain ⟨⟨id, arguments, annotations⟩, outer⟩ := t
  rw [typeTree?] at h
  obtain ⟨as, _, h⟩ := Option.bind_eq_some_iff.mp h
  obtain ⟨levels, _, h⟩ := Option.bind_eq_some_iff.mp h
  obtain ⟨⟨head, inner⟩, _, h⟩ := Option.bind_eq_some_iff.mp h
  exact ⟨head, inner, (Option.some.inj h).symm⟩

theorem Program.typeTree?_typeVariable {id : TypeParameterId} {annotations : List Annotation}
    {tree : TypeTree} (h : p.typeTree? (.typeVariable id annotations) = some tree) :
    ∃ name, tree = .reference (.typeVariable name) := by
  obtain ⟨parameter, _, h⟩ := Option.bind_eq_some_iff.mp h
  exact ⟨parameter.name, (Option.some.inj h).symm⟩

/-- Only a primitive type has the tree of one. -/
theorem Program.typeTree?_eq_base {t : JavaType} {b : Primitive}
    (h : p.typeTree? t = some (.base b)) : t = .primitive b := by
  cases t with
  | primitive b' =>
    cases h
    rfl
  | array c =>
    obtain ⟨_, _, h⟩ := Option.bind_eq_some_iff.mp h
    cases h
  | declared t =>
    obtain ⟨head, inner, h⟩ := typeTree?_declared h
    cases h
  | typeVariable id annotations =>
    obtain ⟨name, h⟩ := typeTree?_typeVariable h
    cases h
  | void | wildcard | wildcardExtends _ | wildcardSuper _ | intersection _ => cases h

/-! ## The text of the tree

A type, a type argument and the levels of a class type each have their own
statement about text and tree, with a common recursion. Wildcards have no tree
as types, so what is said of them is said of them as type arguments. -/

/-- **A type has a tree for a text:** the text is that of the tree, and the
names in the tree are clean. -/
def Program.HasTree (p : Program) (t : JavaType) (s : String) : Prop :=
  ∃ tree, p.typeTree? t = some tree ∧ tree.IsClean ∧ tree.text = s

/-- The tree of a reference type is one of a reference type. -/
theorem Program.HasTree.reference {t : JavaType} {s : String} (h : p.HasTree t s)
    (ht : t.fits .reference = true) :
    ∃ r, p.typeTree? t = some (.reference r) ∧ r.IsClean ∧ r.text = s := by
  obtain ⟨tree, htree, hclean, htext⟩ := h
  cases tree with
  | base b =>
    rw [typeTree?_eq_base htree] at ht
    cases ht
  | reference r => exact ⟨r, htree, hclean, htext⟩

/-- A type stands for a type argument in a list of them. -/
def Program.HasArgument (p : Program) (t : JavaType) (s : String) : Prop :=
  ∃ a : ArgumentTree, a.IsClean ∧ a.text = s
    ∧ ∀ ts, p.argumentTrees? (t :: ts) = (p.argumentTrees? ts).map (a :: ·)

/-- **What a text says of a type** in the places where it may stand. -/
structure Program.HasTrees (p : Program) (t : JavaType) (s : String) : Prop where
  value : t.fits .value = true → p.HasTree t s
  argument : t.fits .argument = true → p.HasArgument t s

/-- A type that is no wildcard stands for itself as a type argument. -/
theorem Program.HasTrees.ofValue {t : JavaType} {s : String} (ht : t.isWildcard = false)
    (h : t.fits .value = true → p.HasTree t s) : p.HasTrees t s where
  value := h
  argument := by
    intro hfits
    have href := JavaType.fits_reference hfits ht
    obtain ⟨r, hr, hclean, htext⟩ := (h (JavaType.fits_value href)).reference href
    refine ⟨.exactly r, hclean, htext, fun ts => ?_⟩
    rw [argumentTrees?_cons ht, hr]
    cases p.argumentTrees? ts <;> rfl

/-- A wildcard with a bound stands nowhere else. -/
theorem Program.HasTrees.ofBound {bound : JavaType} {s : String} (h : p.HasTrees bound s) :
    p.HasTrees (.wildcardExtends bound) ("+" ++ s)
      ∧ p.HasTrees (.wildcardSuper bound) ("-" ++ s) := by
  refine ⟨⟨fun hfits => (by cases hfits), fun hfits => ?_⟩,
    ⟨fun hfits => (by cases hfits), fun hfits => ?_⟩⟩
  all_goals
    have hbound : bound.fits .reference = true := hfits
    obtain ⟨r, hr, hclean, rfl⟩ := (h.value (JavaType.fits_value hbound)).reference hbound
  · refine ⟨.subtypeOf r, hclean, rfl, fun ts => ?_⟩
    rw [argumentTrees?, hr]
    cases p.argumentTrees? ts <;> rfl
  · refine ⟨.supertypeOf r, hclean, rfl, fun ts => ?_⟩
    rw [argumentTrees?, hr]
    cases p.argumentTrees? ts <;> rfl

namespace Program

mutual

/-- **The text of a type that fits is the text of its tree,** by recursion on
the type. -/
theorem HasCleanNames.hasTrees (names : p.HasCleanNames) : ∀ (t : JavaType) {s : String},
    p.typeText t = .ok s → p.HasTrees t s
  | .primitive b, _, h => by
    cases h
    exact .ofValue rfl fun _ => ⟨.base b, rfl, trivial, rfl⟩
  | .array c, _, h => by
    rw [typeText] at h
    obtain ⟨u, hu, rfl⟩ := bind_pure_eq_ok h
    refine .ofValue rfl fun hfits => ?_
    obtain ⟨tree, htree, hclean, rfl⟩ := (names.hasTrees c hu).value hfits
    refine ⟨.reference (.array tree), ?_, hclean, rfl⟩
    rw [typeTree?, htree]
    rfl
  | .declared ⟨⟨id, arguments, _⟩, outer⟩, _, h => by
    obtain ⟨front, hfront, texts, htexts, rfl⟩ := typeText_declared_ok h
    refine .ofValue rfl fun hfits => ?_
    obtain ⟨hown, houter⟩ := Bool.and_eq_true_iff.mp hfits
    obtain ⟨as, has, hcleans, rfl, _⟩ := names.hasArguments arguments hown htexts
    obtain ⟨levels, hlevels, _, hlevel⟩ := names.hasLevels id outer houter hfront
    obtain ⟨head, inner, hsegments, hclean, htext⟩ := hlevel as hcleans
    refine ⟨.reference (.declared head inner), ?_, hclean, ?_⟩
    · rw [typeTree?, has, hlevels]
      show (p.segments? (⟨id, as⟩ :: levels)).bind _ = _
      rw [hsegments]
      rfl
    · exact congrArg (· ++ ";") htext
  | .typeVariable id _, _, h => by
    obtain ⟨parameter, hp, rfl⟩ := typeText_typeVariable_ok h
    have hname := names.typeParameter parameter (mem_of_typeParameterOf hp)
    refine .ofValue rfl fun _ => ⟨.reference (.typeVariable parameter.name), ?_, hname, rfl⟩
    rw [typeTree?, hp]
    rfl
  | .wildcard, _, h => by
    cases h
    refine ⟨fun hfits => (by cases hfits), fun _ => ⟨.any, trivial, rfl, fun ts => ?_⟩⟩
    rw [argumentTrees?]
    cases p.argumentTrees? ts <;> rfl
  | .wildcardExtends bound, _, h => by
    rw [typeText] at h
    obtain ⟨u, hu, rfl⟩ := bind_pure_eq_ok h
    exact (names.hasTrees bound hu).ofBound.1
  | .wildcardSuper bound, _, h => by
    rw [typeText] at h
    obtain ⟨u, hu, rfl⟩ := bind_pure_eq_ok h
    exact (names.hasTrees bound hu).ofBound.2
  | .void, _, _ => .ofValue rfl fun hfits => by cases hfits
  | .intersection _, _, h => by cases h

/-- The texts of type arguments that fit are those of their trees. -/
theorem HasCleanNames.hasArguments (names : p.HasCleanNames) :
    ∀ (ts : List JavaType) {texts : List String}, JavaType.allFit ts = true →
      p.argumentTexts ts = .ok texts →
      ∃ as, p.argumentTrees? ts = some as ∧ ArgumentTree.AllClean as
        ∧ ArgumentTree.texts as = texts ∧ as.isEmpty = ts.isEmpty
  | [], _, _, h => by
    cases h
    exact ⟨[], rfl, trivial, rfl, rfl⟩
  | t :: ts, _, hfits, h => by
    obtain ⟨hfirst, hothers⟩ := Bool.and_eq_true_iff.mp hfits
    obtain ⟨first, hf, others, ho, rfl⟩ := argumentTexts_cons_ok h
    obtain ⟨a, hclean, rfl, hcons⟩ := (names.hasTrees t hf).argument hfirst
    obtain ⟨as, has, hcleans, rfl, _⟩ := names.hasArguments ts hothers ho
    refine ⟨a :: as, ?_, ⟨hclean, hcleans⟩, rfl, rfl⟩
    rw [hcons, has]
    rfl

/-- **What stands in front of the type arguments of a class** is, with them,
the text of its segments: by recursion outwards over the parts around it. -/
theorem HasCleanNames.hasLevels (names : p.HasCleanNames) (id : ClassId) :
    ∀ (outer : List ClassPart) {s : String}, ClassPart.allFit outer = true →
      p.headText id outer = .ok s →
      ∃ levels, p.levels? outer = some levels
        ∧ levels.any Level.hasArguments = outer.any ClassPart.hasArguments
        ∧ ∀ as, ArgumentTree.AllClean as → ∃ head inner,
          p.segments? (⟨id, as⟩ :: levels) = some (head, inner)
          ∧ (head.IsClean false ∧ Segment.AllClean inner)
          ∧ "L" ++ head.text ++ Segment.innerText inner = s ++ angled (ArgumentTree.texts as)
  | outer, s, hfits, h => by
    by_cases hp : outer.any ClassPart.hasArguments = true
    · match outer, hp, hfits, h with
      | ⟨outerId, arguments, annotations⟩ :: further, hp, hfits, h =>
        obtain ⟨hown, hfurther⟩ := Bool.and_eq_true_iff.mp hfits
        obtain ⟨front, hfront, texts, htexts, c, hc, rfl⟩ := headText_cons_ok hp h
        obtain ⟨bs, hbs, hcleans, rfl, hempty⟩ := names.hasArguments arguments hown htexts
        obtain ⟨levels, hlevels, hany, hlevel⟩ := names.hasLevels outerId further hfurther hfront
        obtain ⟨head, inner, hsegments, hclean, htext⟩ := hlevel bs hcleans
        have hanyAll : (⟨outerId, bs⟩ :: levels).any Level.hasArguments
            = (⟨outerId, arguments, annotations⟩ :: further).any ClassPart.hasArguments := by
          rw [List.any_cons, List.any_cons, hany]
          exact congrArg (fun e => !e || further.any ClassPart.hasArguments) hempty
        refine ⟨⟨outerId, bs⟩ :: levels, ?_, hanyAll, fun as has => ?_⟩
        · rw [levels?, hbs, hlevels]
          rfl
        · refine ⟨head, inner ++ [⟨c.simpleName, as⟩], ?_, ⟨hclean.1, ?_⟩, ?_⟩
          · exact segments?_cons (hanyAll.trans hp) hsegments hc
          · exact Segment.allClean_append hclean.2 ⟨names.simpleName c (mem_of_classOf hc), has⟩
          · rw [Segment.innerText_append, ← String.append_assoc, ← String.append_assoc, htext]
            show _ ++ "." ++ (c.simpleName ++ angled (ArgumentTree.texts as)) = _
            simp only [String.append_assoc]
    · have hplain := Bool.eq_false_iff.mpr hp
      rw [headText_plain hplain] at h
      obtain ⟨name, hn, rfl⟩ := bind_pure_eq_ok h
      obtain ⟨levels, hlevels, hany⟩ := levels?_plain (p := p) hplain
      -- nothing further out has arguments: the level is the only segment
      refine ⟨levels, hlevels, hany.trans hplain.symm, fun as has => ?_⟩
      refine ⟨⟨name, as⟩, [], segments?_plain hany hn, ?_, ?_⟩
      · exact ⟨⟨names.isPath_internalName hn, has⟩, trivial⟩
      · show "L" ++ (name ++ angled (ArgumentTree.texts as)) ++ "" = _
        rw [String.append_empty, String.append_assoc]

end

/-- The text of a result that fits is the text of its tree. -/
theorem HasCleanNames.hasResult (names : p.HasCleanNames) {t : JavaType} {s : String}
    (hfits : t.fits .result = true) (h : p.typeText t = .ok s) :
    ∃ tree, p.resultTree? t = some tree ∧ tree.IsClean ∧ tree.text = s := by
  by_cases hvoid : t = .void
  · subst hvoid
    cases h
    exact ⟨.void, rfl, trivial, rfl⟩
  · obtain ⟨tree, htree, hclean, htext⟩ :=
      (names.hasTrees t h).value (JavaType.fits_value_of_result hfits hvoid)
    refine ⟨.value tree, ?_, hclean, htext⟩
    rw [resultTree?, htree]
    · rfl
    · exact hvoid

/-! ## Reading back -/

/-- **Signatures of types can be read back.** Under clean names, whatever the
signature of a type that fits is, the reader takes the whole of it and finds
the structure of the type. -/
theorem typeSignature_reads_back (names : p.HasCleanNames) (t : JavaType)
    (hfits : t.fits .result = true) (s : String) (h : p.typeSignature t = .ok s) :
    ∃ tree, p.resultTree? t = some tree ∧ ResultTree.read? s = some tree := by
  rw [p.typeSignature_eq] at h
  obtain ⟨tree, htree, hclean, htext⟩ := names.hasResult hfits h
  exact ⟨tree, htree, ResultTree.read?_eq_some_iff.mpr ⟨hclean, htext⟩⟩

/-- A class in a parameterized one in a plain one in a parameterized one: the
name begins with all of them, and two levels have arguments. -/
theorem typeSignature_reads_back_nested :
    let nested (outer : Nat) (name : String) : ClassDeclaration :=
      { ClassDeclaration.bare .ordinary "" name with enclosing := some ⟨outer⟩ }
    let p : Program :=
      { classes := Program.initial.classes ++
          #[.bare .ordinary "a.b" "A", nested 6 "B", nested 7 "C", nested 8 "D"]
        typeParameters := #[⟨"X", .declared (.plain .object), none, []⟩] }
    let x : JavaType := .typeVariable ⟨0⟩ []
    let t : JavaType := .array (.declared
      ⟨⟨⟨9⟩, [.wildcardExtends (.array (.primitive .int)), .wildcard, x], []⟩,
        [.plain ⟨8⟩, ⟨⟨7⟩, [.wildcardSuper (.array x)], []⟩, .plain ⟨6⟩]⟩)
    let s := "[La/b/A$B<-[TX;>.C.D<+[I*TX;>;"
    let tree : ResultTree := .value (.reference (.array (.reference (.declared
      ⟨"a/b/A$B", [.supertypeOf (.array (.reference (.typeVariable "X")))]⟩
      [⟨"C", []⟩,
        ⟨"D", [.subtypeOf (.array (.base .int)), .any, .exactly (.typeVariable "X")]⟩]))))
    p.HasCleanNames ∧ t.fits .result = true ∧ p.typeSignature t = .ok s
      ∧ p.resultTree? t = some tree ∧ ResultTree.read? s = some tree := by
  intro nested p x t s tree
  have names : p.HasCleanNames := ⟨by decide, by decide, by decide⟩
  have hfits : t.fits .result = true := by decide
  have hs : p.typeSignature t = .ok s := by cbv
  have htree : p.resultTree? t = some tree := by cbv
  obtain ⟨tree', htree', hread⟩ := typeSignature_reads_back names t hfits s hs
  cases Option.some.inj (htree'.symm.trans htree)
  exact ⟨names, hfits, hs, htree, hread⟩

end Program

end ClassFile
