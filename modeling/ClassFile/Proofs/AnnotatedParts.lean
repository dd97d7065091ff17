import ClassFile.Proofs.Agreement
import ClassFile.TypeAnnotation.Path
import Mathlib.Data.List.Lex

/-!
# Where the annotated parts of a type are

A path is read by following it from the whole type (`JavaType.follow`). One
starts at the outermost level of a class type, whichever level the type was
written from, and each step leads to a component, a bound, an argument or one
level inwards, or nowhere. No step leads into an intersection.

The parts that `JavaType.annotatedParts` lists are those that can be followed to
and carry annotations, each by the path that leads to it, and they are listed in
the order of their paths (`AnnotatedPart.Lists`). The order is the
lexicographic one, in which the arguments of a level come before the levels
inside it. So an outer part comes before an inner one and the annotations of a
part before those in its arguments, for a path comes before whatever it can be
extended to; and it is strict, so no path is listed twice.

A path can tell apart `TypePath.argumentLimit` arguments. The parts can be
listed exactly if no part that can be followed to has more
(`JavaType.annotatedParts_isOk_iff`).
-/

namespace ClassFile

/-! ## Following a path

A position is more than a part of a type: of a class type it also has the
levels inside the one it is at, since a step inwards leads to them. Climbing
from the innermost level, as which a class type is given, collects these
levels. -/

/-- **A position in a type:** the part that is there, with all that it is
enclosed in, and the levels of the class type that lie further inside, the
nearest first. Only a class type has such levels. -/
structure Position where
  type : JavaType
  inner : List ClassPart

namespace Position

/-- The annotations on the part at a position. -/
def annotations (x : Position) : List Annotation := x.type.ownAnnotations

/-- The type arguments of the part at a position. -/
def arguments (x : Position) : List JavaType :=
  match x.type with
  | .declared t => t.part.arguments
  | _ => []

/-- The outermost level of a class type, found by climbing. -/
def climb (p : ClassPart) (inner : List ClassPart) : List ClassPart → Position
  | [] => ⟨.declared ⟨p, []⟩, inner⟩
  | q :: outer => climb q (p :: inner) outer

end Position

/-- Where a path starts in a type. -/
def JavaType.start : JavaType → Position
  | .declared t => .climb t.part [] t.outer
  | t => ⟨t, []⟩

namespace Position

/-- **Where a step leads.** -/
def step (x : Position) : PathStep → Option Position
  | .component =>
    match x.type with
    | .array c => some c.start
    | _ => none
  | .inwards =>
    match x.type, x.inner with
    | .declared t, q :: inner => some ⟨.declared ⟨q, t.parts⟩, inner⟩
    | _, _ => none
  | .bound =>
    match x.type with
    | .wildcardExtends b | .wildcardSuper b => some b.start
    | _ => none
  | .argument index => (x.arguments[index.toNat]?).map JavaType.start

/-- **Where a path leads,** if it leads anywhere. -/
def follow (x : Position) : TypePath → Option Position
  | [] => some x
  | s :: rest => (x.step s).bind fun y => y.follow rest

end Position

/-- Where a path leads in a type. -/
def JavaType.follow (t : JavaType) (path : TypePath) : Option Position := t.start.follow path

/-! ## The order of paths

Only arguments and the next level stand side by side. A component and a bound
are the only part that their type has, so no order is needed between them. -/

/-- **Which of two steps to parts of one type comes first:** arguments come one
after another, and all of them before the next level. -/
def PathStep.Before : PathStep → PathStep → Prop
  | .argument i, .argument j => i < j
  | .argument _, .inwards => True
  | _, _ => False

/-- An argument comes before a later one, as long as a path can tell them
apart. -/
theorem PathStep.argument_before_argument {i j : Nat} (hij : i < j)
    (hj : j < TypePath.argumentLimit) :
    (argument (UInt8.ofNat i)).Before (argument (UInt8.ofNat j)) := by
  refine UInt8.lt_iff_toNat_lt.mpr ?_
  rwa [UInt8.toNat_ofNat_of_lt' (hij.trans hj), UInt8.toNat_ofNat_of_lt' hj]

/-- **The order of paths:** at the first step that differs, or one of them goes
on where the other one ends. -/
def TypePath.Before : TypePath → TypePath → Prop := List.Lex PathStep.Before

theorem PathStep.not_before_self : ∀ s : PathStep, ¬ s.Before s
  | .component, h | .inwards, h | .bound, h => h
  | .argument i, h => UInt8.lt_irrefl i h

/-- What comes first does not extend what comes later. -/
theorem TypePath.Before.not_prefix {first later : TypePath} (h : first.Before later) :
    ¬ later <+: first := by
  induction h with
  | nil => exact fun hprefix => List.cons_ne_nil _ _ (List.prefix_nil.mp hprefix)
  | rel h =>
    intro hprefix
    obtain ⟨rfl, -⟩ := List.cons_prefix_cons.mp hprefix
    exact PathStep.not_before_self _ h
  | cons _ ih => exact fun hprefix => ih (List.cons_prefix_cons.mp hprefix).2

/-! ## Lists of annotated parts

`AnnotatedPart.Lists` says of a list everything that is wanted of one: what is
in it, in which order, and that nothing had to be left out. It is about any
relation between paths and positions, so the lists of the parts of a type are
put together by rules – what one is at, what a step leads to, one list in
front of another – and each rule keeps all three. -/

/-- **A list of annotated parts of what some paths lead to.** It holds what
carries annotations, in order, and no part has too many type arguments. -/
structure AnnotatedPart.Lists (found : List AnnotatedPart) (Leads : TypePath → Position → Prop) :
    Prop where
  mem_iff : ∀ path annotations, ⟨path, annotations⟩ ∈ found ↔
    annotations ≠ [] ∧ ∃ x, Leads path x ∧ x.annotations = annotations
  ordered : (found.map AnnotatedPart.path).Pairwise TypePath.Before
  fits : ∀ {path x}, Leads path x → x.arguments.length ≤ TypePath.argumentLimit

namespace AnnotatedPart

variable {found others : List AnnotatedPart} {R S : TypePath → Position → Prop}

namespace Lists

theorem congr (h : Lists found R) (hRS : ∀ path x, S path x ↔ R path x) : Lists found S where
  mem_iff path annotations :=
    (h.mem_iff path annotations).trans
      (and_congr_right fun _ => exists_congr fun x => and_congr_left fun _ => (hRS path x).symm)
  ordered := h.ordered
  fits hx := h.fits ((hRS _ _).mp hx)

theorem nil (hR : ∀ path x, ¬ R path x) : Lists [] R where
  mem_iff path _ := iff_of_false List.not_mem_nil fun ⟨_, x, hx, _⟩ => hR path x hx
  ordered := .nil
  fits hx := absurd hx (hR _ _)

/-- The part that one is at. -/
theorem whole {x : Position} (hx : x.arguments.length ≤ TypePath.argumentLimit) :
    Lists (AnnotatedPart.whole x.annotations) fun path y => path = [] ∧ y = x where
  -- a part without annotations is at its position, but it is not listed
  mem_iff path annotations := by
    unfold AnnotatedPart.whole
    split
    · next h =>
      refine iff_of_false List.not_mem_nil ?_
      rintro ⟨hne, y, ⟨_, rfl⟩, rfl⟩
      exact hne (List.isEmpty_iff.mp h)
    · next h =>
      rw [List.mem_singleton]
      constructor
      · rintro heq
        cases heq
        exact ⟨fun hnil => h (List.isEmpty_iff.mpr hnil), x, ⟨rfl, rfl⟩, rfl⟩
      · rintro ⟨_, y, ⟨rfl, rfl⟩, rfl⟩
        rfl
  ordered := by
    unfold AnnotatedPart.whole
    split
    · exact .nil
    · exact List.pairwise_singleton _ _
  fits := by
    rintro path y ⟨_, rfl⟩
    exact hx

/-- **What one step leads to** is what is listed there, each path with the
step in front. -/
theorem under (h : Lists found R) (s : PathStep) :
    Lists (found.map (·.under [s])) fun path x => ∃ rest, path = s :: rest ∧ R rest x where
  mem_iff path annotations := by
    rw [List.mem_map]
    constructor
    · rintro ⟨⟨rest, as⟩, hmem, heq⟩
      cases heq
      obtain ⟨hne, x, hx, ha⟩ := (h.mem_iff _ _).mp hmem
      exact ⟨hne, x, ⟨rest, rfl, hx⟩, ha⟩
    · rintro ⟨hne, x, ⟨rest, rfl, hx⟩, ha⟩
      exact ⟨⟨rest, annotations⟩, (h.mem_iff _ _).mpr ⟨hne, x, hx, ha⟩, rfl⟩
  ordered := by
    have hordered := List.pairwise_map.mp h.ordered
    rw [List.map_map, List.pairwise_map]
    exact hordered.imp fun hbefore => List.Lex.cons hbefore
  fits := by
    rintro path x ⟨rest, rfl, hx⟩
    exact h.fits hx

/-- **Parts in front of other ones.** That the paths of the one list come
before those of the other is asked of the relations, not of the lists, for
there it is seen from the first step. -/
theorem append (hR : Lists found R) (hS : Lists others S)
    (hbefore : ∀ {path x path' x'}, R path x → S path' x' → path.Before path') :
    Lists (found ++ others) fun path x => R path x ∨ S path x where
  mem_iff path annotations := by
    rw [List.mem_append, hR.mem_iff, hS.mem_iff]
    constructor
    · rintro (⟨hne, x, hx, ha⟩ | ⟨hne, x, hx, ha⟩)
      · exact ⟨hne, x, .inl hx, ha⟩
      · exact ⟨hne, x, .inr hx, ha⟩
    · rintro ⟨hne, x, hx | hx, ha⟩
      · exact .inl ⟨hne, x, hx, ha⟩
      · exact .inr ⟨hne, x, hx, ha⟩
  ordered := by
    rw [List.map_append, List.pairwise_append]
    refine ⟨hR.ordered, hS.ordered, fun path hpath path' hpath' => ?_⟩
    obtain ⟨part, hpart, rfl⟩ := List.mem_map.mp hpath
    obtain ⟨part', hpart', rfl⟩ := List.mem_map.mp hpath'
    obtain ⟨_, _, hx, _⟩ := (hR.mem_iff part.path part.annotations).mp hpart
    obtain ⟨_, _, hx', _⟩ := (hS.mem_iff part'.path part'.annotations).mp hpart'
    exact hbefore hx hx'
  fits := by
    rintro path x (hx | hx)
    · exact hR.fits hx
    · exact hS.fits hx

/-- **A part is listed in front of what it encloses:** no later path is the
beginning of an earlier one. -/
theorem not_prefix (h : Lists found R) :
    (found.map AnnotatedPart.path).Pairwise fun first later => ¬ later <+: first :=
  h.ordered.imp TypePath.Before.not_prefix

/-- No path is listed twice. -/
theorem nodup (h : Lists found R) : (found.map AnnotatedPart.path).Nodup := by
  refine h.not_prefix.imp ?_
  rintro path _ hprefix rfl
  exact hprefix List.prefix_rfl

end Lists

end AnnotatedPart

/-! ## Levels from the outside inwards

A class type is given from the inside outwards, and its parts are listed the
other way round: first what is on the outermost level. The definition gets
there by recursion on the levels outside; for a path it is the levels inside
that matter. `levelsInwards` is the list as it is seen by a path, and
`annotatedLevels_eq_ok` says that both are the same. -/

/-- The parts in type arguments, of which the first has the given index. -/
def ArgumentsLead (index : Nat) (ts : List JavaType) (path : TypePath) (x : Position) : Prop :=
  ∃ i t rest, ts[i]? = some t ∧ path = .argument (UInt8.ofNat (index + i)) :: rest
    ∧ t.follow rest = some x

/-- The first argument is led to by its index, and the others as if they were
counted from the next index. -/
theorem argumentsLead_cons {index : Nat} {t : JavaType} {ts : List JavaType} {path : TypePath}
    {x : Position} :
    ArgumentsLead index (t :: ts) path x ↔
      (∃ rest, path = .argument (UInt8.ofNat index) :: rest ∧ t.follow rest = some x)
        ∨ ArgumentsLead (index + 1) ts path x := by
  constructor
  · rintro ⟨_ | i, u, rest, hi, rfl, hx⟩
    · cases hi
      exact .inl ⟨rest, rfl, hx⟩
    · exact .inr ⟨i, u, rest, hi, by rw [Nat.succ_add_eq_add_succ], hx⟩
  · rintro (⟨rest, rfl, hx⟩ | ⟨i, u, rest, hi, rfl, hx⟩)
    · exact ⟨0, t, rest, rfl, rfl, hx⟩
    · exact ⟨i + 1, u, rest, hi, by rw [Nat.succ_add_eq_add_succ], hx⟩

/-- The annotated parts on a level of a class type and in its arguments. -/
def ClassPart.annotatedOwn (p : ClassPart) : Except Error (List AnnotatedPart) := do
  return AnnotatedPart.whole p.annotations ++ (← annotatedArguments 0 p.arguments)

/-- The annotated parts on several levels, given from the outside inwards with
those of each level by itself. -/
def levelsInwards : List (List AnnotatedPart) → List AnnotatedPart
  | [] => []
  | own :: inner => own ++ (levelsInwards inner).map (·.under [.inwards])

/-- The innermost level comes last, and to it lead as many steps as there are
levels around it. -/
theorem levelsInwards_concat (owns : List (List AnnotatedPart)) (own : List AnnotatedPart) :
    levelsInwards (owns ++ [own]) =
      levelsInwards owns ++ own.map (·.under (List.replicate owns.length .inwards)) := by
  induction owns with
  | nil =>
    show own ++ [] = [] ++ own.map (·.under [])
    rw [List.append_nil, List.nil_append]
    exact (List.map_id own).symm
  | cons o owns ih =>
    rw [List.cons_append, levelsInwards, ih, List.map_append, List.map_map, levelsInwards,
      List.append_assoc]
    rfl

/-- **The levels of a class type, from the outside inwards.** The recursion
adds the innermost level at the end, under as many steps as there are levels
around it, and that is where it is in the list that goes inwards. -/
theorem annotatedLevels_eq_ok : ∀ {ps : List ClassPart} {found : List AnnotatedPart},
    annotatedLevels ps = .ok found →
      ∃ owns, List.Forall₂ (fun p own => ClassPart.annotatedOwn p = .ok own) ps.reverse owns
        ∧ found = levelsInwards owns
  | [], found, h => by
    cases h
    exact ⟨[], .nil, rfl⟩
  | ⟨id, arguments, annotations⟩ :: ps, found, h => by
    rw [annotatedLevels] at h
    obtain ⟨further, hfurther, h⟩ := bind_eq_ok h
    obtain ⟨inner, hinner, rfl⟩ := bind_pure_eq_ok h
    obtain ⟨owns, howns, rfl⟩ := annotatedLevels_eq_ok hfurther
    refine ⟨owns ++ [AnnotatedPart.whole annotations ++ inner], ?_, ?_⟩
    · rw [List.reverse_cons]
      refine List.rel_append howns (.cons ?_ .nil)
      rw [ClassPart.annotatedOwn, hinner]
      rfl
    · rw [levelsInwards_concat, ← howns.length_eq, List.length_reverse]

/-- Climbing ends at the outermost level. -/
theorem Position.climb_eq : ∀ (outer : List ClassPart) (p : ClassPart) (inner : List ClassPart),
    ∃ q further, (p :: outer).reverse ++ inner = q :: further
      ∧ climb p inner outer = ⟨.declared ⟨q, []⟩, further⟩
  | [], p, inner => ⟨p, inner, rfl, rfl⟩
  | q :: outer, p, inner => by
    obtain ⟨r, further, hr, hclimb⟩ := climb_eq outer q (p :: inner)
    refine ⟨r, further, ?_, hclimb⟩
    rw [← hr, List.reverse_cons, List.append_assoc]
    rfl

/-- A class type starts at the first of its levels from the outside inwards. -/
theorem JavaType.start_declared (t : ClassType) :
    ∃ p inner, t.parts.reverse = p :: inner
      ∧ (JavaType.declared t).start = ⟨.declared ⟨p, []⟩, inner⟩ := by
  obtain ⟨p, inner, hp, hclimb⟩ := Position.climb_eq t.outer t.part []
  exact ⟨p, inner, (List.append_nil _).symm.trans hp, hclimb⟩

/-! ## What is listed can be followed to -/

namespace AnnotatedPart

/-- The type arguments of a part, each of which lists what can be followed to. -/
theorem Lists.arguments : ∀ {ts : List JavaType}
    (_ : ∀ t ∈ ts, ∀ {found}, t.annotatedParts = .ok found →
      Lists found fun path x => t.follow path = some x)
    {index : Nat} (_ : index ≤ TypePath.argumentLimit) {found : List AnnotatedPart},
    annotatedArguments index ts = .ok found →
      index + ts.length ≤ TypePath.argumentLimit ∧ Lists found (ArgumentsLead index ts)
  | [], _, index, hindex, found, h => by
    cases h
    refine ⟨hindex, .nil ?_⟩
    rintro path x ⟨i, t, _, hi, _⟩
    cases hi
  | t :: ts, ih, index, hindex, found, h => by
    rw [annotatedArguments] at h
    split at h
    · next hlt =>
      obtain ⟨first, hfirst, h⟩ := bind_eq_ok h
      obtain ⟨others, hothers, rfl⟩ := bind_pure_eq_ok h
      obtain ⟨hlength, hlists⟩ :=
        Lists.arguments (fun u hu => ih u (List.mem_cons_of_mem t hu)) hlt hothers
      refine ⟨by rw [List.length_cons]; omega, ?_⟩
      have hhead := (ih t List.mem_cons_self hfirst).under (.argument (UInt8.ofNat index))
      refine (hhead.append hlists ?_).congr fun path x => argumentsLead_cons
      -- as there are not too many arguments, no index wraps around to an earlier one
      rintro path x path' x' ⟨rest, rfl, _⟩ ⟨i, u, rest', hi, rfl, _⟩
      have hi := (List.getElem?_eq_some_iff.mp hi).1
      exact List.Lex.rel (PathStep.argument_before_argument (by omega) (by omega))
    · cases h

end AnnotatedPart

/-- **Where paths lead from a level of a class type:** to the level, to its
arguments, or inwards. -/
theorem Position.follow_level {p : ClassPart} {outer inner : List ClassPart}
    (hp : p.arguments.length ≤ TypePath.argumentLimit) {path : TypePath} {y : Position} :
    (⟨.declared ⟨p, outer⟩, inner⟩ : Position).follow path = some y ↔
      ((path = [] ∧ y = ⟨.declared ⟨p, outer⟩, inner⟩) ∨ ArgumentsLead 0 p.arguments path y)
        ∨ ∃ rest, path = .inwards :: rest ∧ ∃ q further, inner = q :: further
          ∧ (⟨.declared ⟨q, p :: outer⟩, further⟩ : Position).follow rest = some y := by
  constructor
  · intro h
    -- the first step decides where a path leads from a level
    match path with
    | [] =>
      cases h
      exact .inl (.inl ⟨rfl, rfl⟩)
    | .component :: _ | .bound :: _ => cases h
    | .inwards :: rest =>
      cases inner with
      | nil => cases h
      | cons q further => exact .inr ⟨rest, rfl, q, further, rfl, h⟩
    | .argument index :: rest =>
      obtain ⟨z, hz, hrest⟩ := Option.bind_eq_some_iff.mp h
      obtain ⟨t, ht, rfl⟩ := Option.map_eq_some_iff.mp hz
      refine .inl (.inr ⟨index.toNat, t, rest, ht, ?_, hrest⟩)
      rw [Nat.zero_add, UInt8.ofNat_toNat]
  · rintro ((⟨rfl, rfl⟩ | ⟨i, t, rest, hi, rfl, hx⟩) | ⟨rest, rfl, q, further, rfl, hx⟩)
    · rfl
    · have hlt : i < TypePath.argumentLimit :=
        (List.getElem?_eq_some_iff.mp hi).1.trans_le hp
      refine Option.bind_eq_some_iff.mpr ⟨t.start, Option.map_eq_some_iff.mpr ⟨t, ?_, rfl⟩, hx⟩
      rwa [Nat.zero_add, UInt8.toNat_ofNat_of_lt' hlt]
    · exact hx

namespace AnnotatedPart

/-- The parts on a level and in its arguments, in front of those on the levels
inside it. -/
theorem Lists.level {p : ClassPart} (outer : List ClassPart) {inner : List ClassPart}
    {args others : List AnnotatedPart}
    (hp : p.arguments.length ≤ TypePath.argumentLimit)
    (hargs : Lists args (ArgumentsLead 0 p.arguments))
    (hothers : Lists others fun path y => ∃ q further, inner = q :: further
      ∧ (⟨.declared ⟨q, p :: outer⟩, further⟩ : Position).follow path = some y) :
    Lists (AnnotatedPart.whole p.annotations ++ args ++ others.map (·.under [.inwards]))
      fun path y => (⟨.declared ⟨p, outer⟩, inner⟩ : Position).follow path = some y := by
  have hown := (Lists.whole (x := ⟨.declared ⟨p, outer⟩, inner⟩) hp).append hargs ?_
  -- the empty path leads to the level, and a path to an argument begins with its index
  · refine (hown.append (hothers.under .inwards) ?_).congr fun path y => Position.follow_level hp
    rintro path y path' y' (⟨rfl, _⟩ | ⟨i, t, rest, _, rfl, _⟩) ⟨rest', rfl, _⟩
    · exact .nil
    · exact .rel trivial
  · rintro path y path' y' ⟨rfl, _⟩ ⟨i, t, rest, _, rfl, _⟩
    exact .nil

/-- **The levels of a class type list what can be followed to,** from each of
them on. By induction on the levels inwards, with those further outside
generalized, since a position knows them. -/
theorem Lists.levels {ps : List ClassPart} {owns : List (List AnnotatedPart)}
    (h : List.Forall₂ (fun p own => ClassPart.annotatedOwn p = .ok own) ps owns)
    (ih : ∀ p ∈ ps, ∀ t ∈ p.arguments, ∀ {found}, t.annotatedParts = .ok found →
      Lists found fun path x => t.follow path = some x) (outer : List ClassPart) :
    Lists (levelsInwards owns) fun path y => ∃ q further, ps = q :: further
      ∧ (⟨.declared ⟨q, outer⟩, further⟩ : Position).follow path = some y := by
  -- the level that one leaves is outside of the next one
  induction h generalizing outer with
  | nil =>
    refine .nil ?_
    rintro path y ⟨_, _, h, _⟩
    cases h
  | @cons p own ps owns hown _ ihothers =>
    obtain ⟨args, hargs, rfl⟩ := bind_pure_eq_ok hown
    obtain ⟨hlength, hlists⟩ := Lists.arguments (ih p List.mem_cons_self) (Nat.zero_le _) hargs
    rw [Nat.zero_add] at hlength
    have hothers := ihothers (fun q hq => ih q (List.mem_cons_of_mem p hq)) (p :: outer)
    refine (Lists.level outer hlength hlists hothers).congr fun path y => ?_
    constructor
    · rintro ⟨_, _, heq, hy⟩
      cases heq
      exact hy
    · exact fun hy => ⟨p, ps, rfl, hy⟩

end AnnotatedPart

/-! ## Induction on what can be followed to

Members of an intersection are parts of a type, too, but no path leads to
them. So the induction has no hypothesis for them, and it has one for the
arguments on every level of a class type, which the constructors do not
give. -/

/-- The type arguments of a class type are smaller, on whichever level. -/
theorem ClassType.sizeOf_argument_lt {t : ClassType} {p : ClassPart} (hp : p ∈ t.parts)
    {a : JavaType} (ha : a ∈ p.arguments) : sizeOf a < sizeOf (JavaType.declared t) := by
  obtain ⟨part, outer⟩ := t
  have hpart : sizeOf a < sizeOf p := by
    obtain ⟨id, arguments, annotations⟩ := p
    have harguments : sizeOf a < sizeOf arguments := List.sizeOf_lt_of_mem ha
    rw [ClassPart.mk.sizeOf_spec]
    omega
  rw [JavaType.declared.sizeOf_spec, ClassType.mk.sizeOf_spec]
  rcases List.mem_cons.mp hp with rfl | hp
  · omega
  · have houter : sizeOf p < sizeOf outer := List.sizeOf_lt_of_mem hp
    omega

section Induction

variable {motive : JavaType → Prop}
  (array : ∀ c, motive c → motive (.array c))
  (wildcardExtends : ∀ b, motive b → motive (.wildcardExtends b))
  (wildcardSuper : ∀ b, motive b → motive (.wildcardSuper b))
  (declared : ∀ t : ClassType, (∀ p ∈ t.parts, ∀ a ∈ p.arguments, motive a) →
    motive (.declared t))
  (typeVariable : ∀ id annotations, motive (.typeVariable id annotations))
  (primitive : ∀ b, motive (.primitive b)) (void : motive .void) (wildcard : motive .wildcard)
  (intersection : ∀ ts, motive (.intersection ts))

include array wildcardExtends wildcardSuper declared typeVariable primitive void wildcard
  intersection

/-- **Induction along the parts of a type that can carry annotations.** It
goes into the type arguments of all levels of a class type at once, and not
into intersections, in which there is nothing to follow. -/
@[elab_as_elim]
theorem JavaType.partsInduction : ∀ t, motive t
  | .array c => array c (partsInduction c)
  | .wildcardExtends b => wildcardExtends b (partsInduction b)
  | .wildcardSuper b => wildcardSuper b (partsInduction b)
  | .declared t => declared t fun _ _ a _ => partsInduction a
  | .typeVariable id annotations => typeVariable id annotations
  | .primitive b => primitive b
  | .void => void
  | .wildcard => wildcard
  | .intersection ts => intersection ts
termination_by t => sizeOf t
decreasing_by
  · decreasing_tactic
  · decreasing_tactic
  · decreasing_tactic
  · exact ClassType.sizeOf_argument_lt ‹_ ∈ t.parts› ‹_›

end Induction

namespace Position

/-- From where no step leads on, one cannot be led away. -/
theorem follow_of_no_step {x : Position} (hx : ∀ s, x.step s = none) {path : TypePath}
    {y : Position} : x.follow path = some y ↔ path = [] ∧ y = x := by
  cases path with
  | nil => exact ⟨fun h => ⟨rfl, (Option.some.inj h).symm⟩, fun h => congrArg some h.2.symm⟩
  | cons s rest =>
    refine iff_of_false (fun h => ?_) fun h => List.cons_ne_nil s rest h.1
    rw [follow, hx s] at h
    cases h

/-- From where a single step leads on, one is led further by what follows it,
and by nothing else. This is the way into arrays and wildcards. -/
theorem follow_of_step {x y : Position} {s : PathStep} (hs : x.step s = some y)
    (hx : ∀ s', s' ≠ s → x.step s' = none) {path : TypePath} {z : Position} :
    x.follow path = some z ↔
      (path = [] ∧ z = x) ∨ ∃ rest, path = s :: rest ∧ y.follow rest = some z := by
  cases path with
  | nil =>
    refine ⟨fun h => .inl ⟨rfl, (Option.some.inj h).symm⟩, ?_⟩
    rintro (⟨_, rfl⟩ | ⟨_, h, _⟩)
    · rfl
    · cases h
  | cons s' rest =>
    rw [follow]
    -- another first step leads nowhere, by hypothesis
    by_cases heq : s' = s
    · subst heq
      rw [hs]
      refine ⟨fun h => .inr ⟨rest, rfl, h⟩, ?_⟩
      rintro (⟨h, _⟩ | ⟨_, h, hy⟩)
      · cases h
      · cases h
        exact hy
    · rw [hx s' heq]
      refine iff_of_false (fun h => by cases h) ?_
      rintro (⟨h, _⟩ | ⟨_, h, _⟩)
      · cases h
      · cases h
        exact heq rfl

end Position

namespace AnnotatedPart

variable {found : List AnnotatedPart}

/-- A type that encloses nothing. -/
theorem Lists.leaf {t : JavaType} (hfound : found = AnnotatedPart.whole t.start.annotations)
    (harguments : t.start.arguments = []) (ht : ∀ s, t.start.step s = none) :
    Lists found fun path x => t.follow path = some x := by
  have hfits : t.start.arguments.length ≤ TypePath.argumentLimit := by
    rw [harguments]
    exact Nat.zero_le _
  rw [hfound]
  exact (Lists.whole hfits).congr fun path x => Position.follow_of_no_step ht

/-- A type that encloses another one and carries no annotations. -/
theorem Lists.around {t u : JavaType} (hannotations : t.start.annotations = [])
    (harguments : t.start.arguments = []) {s : PathStep} (hs : t.start.step s = some u.start)
    (hother : ∀ s', s' ≠ s → t.start.step s' = none)
    (h : Lists found fun path x => u.follow path = some x) :
    Lists (found.map (·.under [s])) fun path x => t.follow path = some x := by
  have hfits : t.start.arguments.length ≤ TypePath.argumentLimit := by
    rw [harguments]
    exact Nat.zero_le _
  have happend := (Lists.whole hfits).append (h.under s) ?_
  · rw [hannotations] at happend
    exact happend.congr fun path x => Position.follow_of_step hs hother
  · rintro path x path' x' ⟨rfl, _⟩ ⟨rest, rfl, _⟩
    exact .nil

end AnnotatedPart

/-- The levels of a class type, as its annotated parts are listed. -/
theorem JavaType.annotatedParts_declared (t : ClassType) :
    (JavaType.declared t).annotatedParts = annotatedLevels t.parts := by
  obtain ⟨⟨id, arguments, annotations⟩, outer⟩ := t
  rfl

open AnnotatedPart in
/-- **What is listed of a type is what can be followed to and is annotated,**
in the order of the paths. By induction on what can be followed to: a class
type lists its levels, an array and a wildcard are around the type they
enclose, and everything else encloses nothing. -/
theorem JavaType.annotatedParts_lists (t : JavaType) {found : List AnnotatedPart}
    (h : t.annotatedParts = .ok found) : Lists found fun path x => t.follow path = some x := by
  induction t using JavaType.partsInduction generalizing found with
  | declared t ih =>
    rw [annotatedParts_declared] at h
    obtain ⟨owns, howns, rfl⟩ := annotatedLevels_eq_ok h
    obtain ⟨p, inner, hparts, hstart⟩ := start_declared t
    have hlevels := Lists.levels howns (fun p hp => ih p (List.mem_reverse.mp hp)) []
    refine hlevels.congr fun path x => ?_
    -- both start at the outermost level, which the levels are listed from
    rw [JavaType.follow, hstart, hparts]
    constructor
    · exact fun hx => ⟨p, inner, rfl, hx⟩
    · rintro ⟨_, _, heq, hx⟩
      cases heq
      exact hx
  | array c ih =>
    obtain ⟨inner, hinner, rfl⟩ := bind_pure_eq_ok h
    refine Lists.around (s := .component) rfl rfl rfl (fun s hs => ?_) (ih hinner)
    cases s with
    | component => exact absurd rfl hs
    | _ => rfl
  | wildcardExtends b ih | wildcardSuper b ih =>
    obtain ⟨inner, hinner, rfl⟩ := bind_pure_eq_ok h
    refine Lists.around (s := .bound) rfl rfl rfl (fun s hs => ?_) (ih hinner)
    cases s with
    | bound => exact absurd rfl hs
    | _ => rfl
  | typeVariable _ _ | primitive _ | void | wildcard | intersection _ =>
    cases h
    exact Lists.leaf rfl rfl fun s => by cases s <;> rfl

/-! ## What can be listed

The only reason for parts not to be listed is a type argument that a path has
no number for. It has to be one that a path leads to; inside of an
intersection there may be any number of them. -/

/-- **No part that can be followed to has too many type arguments.** -/
def Position.Fits (x : Position) : Prop :=
  ∀ path y, x.follow path = some y → y.arguments.length ≤ TypePath.argumentLimit

namespace Position

variable {x y : Position}

theorem Fits.step (h : x.Fits) {s : PathStep} (hs : x.step s = some y) : y.Fits := by
  intro path z hz
  refine h (s :: path) z ?_
  rw [follow, hs]
  exact hz

/-- If a level of a class type fits, then the levels inside it do. -/
theorem Fits.levels : ∀ {inner : List ClassPart} {p : ClassPart} {outer : List ClassPart},
    (⟨.declared ⟨p, outer⟩, inner⟩ : Position).Fits → ∀ q ∈ p :: inner,
      q.arguments.length ≤ TypePath.argumentLimit ∧ ∀ a ∈ q.arguments, a.start.Fits
  | inner, p, outer, h, q, hq => by
    rcases List.mem_cons.mp hq with rfl | hq
    · have hlength : q.arguments.length ≤ TypePath.argumentLimit := h [] _ rfl
      refine ⟨hlength, fun a ha => ?_⟩
      obtain ⟨i, hi, rfl⟩ := List.getElem_of_mem ha
      have htoNat : (UInt8.ofNat i).toNat = i := UInt8.toNat_ofNat_of_lt' (hi.trans_le hlength)
      refine h.step (s := .argument (UInt8.ofNat i)) ?_
      show (q.arguments[(UInt8.ofNat i).toNat]?).map JavaType.start = _
      rw [htoNat, List.getElem?_eq_getElem hi]
      rfl
    · cases inner with
      | nil => cases hq
      | cons r inner => exact Fits.levels (h.step (s := .inwards) rfl) q hq

end Position

/-- The parts in type arguments are listed if each argument has a list and
there are not too many of them. -/
theorem annotatedArguments_total : ∀ {ts : List JavaType} {index : Nat},
    index + ts.length ≤ TypePath.argumentLimit →
      (∀ t ∈ ts, ∃ found, t.annotatedParts = .ok found) →
      ∃ found, annotatedArguments index ts = .ok found
  | [], index, _, _ => ⟨[], rfl⟩
  | t :: ts, index, hlength, h => by
    rw [List.length_cons] at hlength
    obtain ⟨first, hfirst⟩ := h t List.mem_cons_self
    obtain ⟨others, hothers⟩ : ∃ others, annotatedArguments (index + 1) ts = .ok others :=
      annotatedArguments_total (by omega) fun u hu => h u (List.mem_cons_of_mem t hu)
    rw [annotatedArguments, if_pos (by omega), hfirst, hothers]
    exact ⟨_, rfl⟩

/-- So are those in the levels of a class type, if the type arguments of each
level are. -/
theorem annotatedLevels_total : ∀ {ps : List ClassPart},
    (∀ p ∈ ps, ∃ found, annotatedArguments 0 p.arguments = .ok found) →
      ∃ found, annotatedLevels ps = .ok found
  | [], _ => ⟨[], rfl⟩
  | ⟨id, arguments, annotations⟩ :: ps, h => by
    obtain ⟨inner, hinner⟩ := h _ List.mem_cons_self
    obtain ⟨further, hfurther⟩ :=
      annotatedLevels_total fun p hp => h p (List.mem_cons_of_mem _ hp)
    rw [annotatedLevels, hfurther]
    change annotatedArguments 0 arguments = .ok inner at hinner
    rw [hinner]
    exact ⟨_, rfl⟩

/-- If everything fits, the annotated parts can be listed. That a position
fits is handed on to wherever a step leads from it, so the induction is that
of the list. -/
theorem JavaType.annotatedParts_total (t : JavaType) (h : t.start.Fits) :
    ∃ found, t.annotatedParts = .ok found := by
  induction t using JavaType.partsInduction with
  | declared t ih =>
    obtain ⟨p, inner, hparts, hstart⟩ := start_declared t
    rw [hstart] at h
    rw [annotatedParts_declared]
    refine annotatedLevels_total fun q hq => ?_
    have hq' : q ∈ p :: inner := hparts ▸ List.mem_reverse.mpr hq
    obtain ⟨hlength, harguments⟩ := h.levels q hq'
    rw [← Nat.zero_add q.arguments.length] at hlength
    exact annotatedArguments_total hlength fun a ha => ih q hq a ha (harguments a ha)
  | array c ih =>
    obtain ⟨found, hfound⟩ := ih (h.step (s := .component) rfl)
    rw [annotatedParts, hfound]
    exact ⟨_, rfl⟩
  | wildcardExtends b ih | wildcardSuper b ih =>
    obtain ⟨found, hfound⟩ := ih (h.step (s := .bound) rfl)
    rw [annotatedParts, hfound]
    exact ⟨_, rfl⟩
  | typeVariable _ _ | primitive _ | void | wildcard | intersection _ => exact ⟨_, rfl⟩

/-- **The annotated parts of a type can be listed exactly if everything that
can be followed to fits.** A list that exists says so itself, which is the
other direction. -/
theorem JavaType.annotatedParts_isOk_iff (t : JavaType) :
    (∃ found, t.annotatedParts = .ok found) ↔ t.start.Fits :=
  ⟨fun ⟨_, h⟩ _ _ hx => (t.annotatedParts_lists h).fits hx, t.annotatedParts_total⟩

end ClassFile
