import ClassFile.Proofs.Signature.Parts
import ClassFile.Proofs.Names
import ClassFile.Walk.Annotations

/-!
# The numbers of bounds

An annotation on a bound of a type parameter is stored with the number of the
bound, and whoever reads it back finds the bound in the signature. There the
bounds have no numbers: they stand one after another, a class bound behind one
colon and an interface bound behind two if it is the first and behind one if it
is not. So the number of a bound is what the colons in front of it say, and
number 0 is that of a class bound even where there is none.

The walk does not look at the signature. It asks once whether the first bound is
an interface and counts from there. That this comes to the same
(`Program.numbersAlike_of_declared`) rests on the other bounds being interfaces,
each of which brings a colon of its own.

What a colon is, is a question of what writes it, for a name may have colons in
it. So the declaration of a type parameter is taken apart into tokens, of which
some are separators. Where names are clean the separators are the colons of the
text.
-/

namespace ClassFile

namespace TypeReference

/-! ## Reading a place

A place is packed into one word and read from it again by division. Each
number in it has room for a byte, so none runs over into the next. -/

/-- The index of the bound, in the byte below that of the parameter. -/
def boundIndex (r : TypeReference) : UInt8 := UInt8.ofNat (r.value.toNat / 0x100)

variable (sort index bound : UInt8)

/-- The bytes of a place in a bound have room in a word. -/
theorem value_ofBound : (ofBound sort index bound).value.toNat
    = ((sort.toNat * 256 + index.toNat) * 256 + bound.toNat) * 256 := by
  have hsort := sort.toNat_lt
  have hindex := index.toNat_lt
  have hbound := bound.toNat_lt
  refine (UInt32.toNat_ofNat_of_lt' ?_).trans (Nat.add_zero _)
  rw [UInt32.size, UInt8.toNat_zero]
  omega

/-- A byte is what a number ends in. -/
theorem ofNat_eq_of_eq_add {value : Nat} (high : Nat) {low : UInt8}
    (h : value = high * 256 + low.toNat) : UInt8.ofNat value = low := by
  have hlow := low.toNat_lt
  rw [← UInt8.toNat_inj, UInt8.toNat_ofNat']
  omega

/-- **What was packed is read:** the sort of the place, the index of the
parameter and the index of the bound. -/
theorem reads_ofBound : (ofBound sort index bound).sort = sort
    ∧ (ofBound sort index bound).parameterIndex = index
    ∧ (ofBound sort index bound).boundIndex = bound := by
  have hindex := index.toNat_lt
  have hbound := bound.toNat_lt
  unfold TypeReference.sort parameterIndex boundIndex
  rw [value_ofBound]
  refine ⟨ofNat_eq_of_eq_add 0 ?_, ofNat_eq_of_eq_add sort.toNat ?_,
    ofNat_eq_of_eq_add (sort.toNat * 256 + index.toNat) ?_⟩
  all_goals omega

end TypeReference

namespace Signature

/-! ## The declaration of a type parameter

Tokens say what a colon in a text stands for, which the text does not if names
may have colons. -/

/-- What the declaration of a type parameter consists of. -/
inductive FormalToken where
  | name (text : String)
  /-- A colon that is part of no name. -/
  | separator
  | bound (text : String)
  deriving DecidableEq, Repr

namespace FormalToken

/-- The text of a token. -/
def text : FormalToken → String
  | name s | bound s => s
  | separator => ":"

/-- The text of several tokens. -/
def textOf (tokens : List FormalToken) : String := String.join (tokens.map text)

/-- **The separators in front of each bound,** counted from a number of them
that have been passed. -/
def separatorsInFront (passed : Nat) : List FormalToken → List Nat
  | [] => []
  | name _ :: tokens => separatorsInFront passed tokens
  | separator :: tokens => separatorsInFront (passed + 1) tokens
  | bound _ :: tokens => passed :: separatorsInFront passed tokens

/-- The texts in front of the bounds, behind a text that has been passed. -/
def textsInFront (passed : String) : List FormalToken → List String
  | [] => []
  | bound s :: tokens => passed :: textsInFront (passed ++ s) tokens
  | token :: tokens => textsInFront (passed ++ token.text) tokens

example : separatorsInFront 0 [.name "T", .separator, .separator, .bound "LI;", .separator,
    .bound "LJ;"] = [2, 3] := by decide

theorem textOf_cons (token : FormalToken) (tokens : List FormalToken) :
    textOf (token :: tokens) = token.text ++ textOf tokens := by
  unfold textOf
  rw [List.map_cons, String.join_cons]

theorem textOf_append (tokens others : List FormalToken) :
    textOf (tokens ++ others) = textOf tokens ++ textOf others := by
  unfold textOf
  rw [List.map_append, String.join_append]

/-- **Separators are colons** where no name and no bound has any. -/
theorem count_textsInFront {tokens : List FormalToken}
    (h : ∀ token ∈ tokens, token ≠ .separator → ':' ∉ token.text.toList) (passed : String) :
    (textsInFront passed tokens).map (·.toList.count ':')
      = separatorsInFront (passed.toList.count ':') tokens := by
  induction tokens generalizing passed with
  | nil => rfl
  | cons token tokens ih =>
    have hcount : (passed ++ token.text).toList.count ':'
        = passed.toList.count ':' + token.text.toList.count ':' := by
      rw [String.toList_append, List.count_append]
    have hothers := ih (fun t ht => h t (List.mem_cons_of_mem _ ht)) (passed ++ token.text)
    cases token with
    | separator =>
      rw [hcount] at hothers
      exact hothers
    | name s | bound s =>
      have hfree := List.count_eq_zero.mpr (h _ List.mem_cons_self (by simp))
      rw [hcount, hfree, Nat.add_zero] at hothers
      first | exact hothers | exact congrArg (_ :: ·) hothers

end FormalToken

end Signature

/-- The scripts of several things may be found in another way. -/
theorem Script.forEach_congr {α : Type} {xs : List α} {f g : α → Script}
    (h : ∀ x ∈ xs, f x = g x) : forEach xs f = forEach xs g := by
  induction xs with
  | nil => rfl
  | cons x xs ih =>
    show f x ++ forEach xs f = g x ++ forEach xs g
    rw [h x List.mem_cons_self, ih fun y hy => h y (List.mem_cons_of_mem _ hy)]

namespace Program

open Signature

variable (p : Program)

/-! ## Tokens of a declaration

The tokens are found in the same way as the text, and fail for the same
reasons. -/

/-- The tokens of a bound: an interface has a separator of its own. -/
def boundTokens (bound : JavaType) : Except Error (List FormalToken) := do
  let mark := if ← p.isInterface bound then [.separator] else []
  return mark ++ [.bound (← p.typeSignature bound)]

/-- **The tokens of the declaration of a type parameter.** -/
def formalTokens (parameter : TypeParameter) : Except Error (List FormalToken) := do
  return .name parameter.name :: .separator :: (← parameter.bounds.mapM p.boundTokens).flatten

variable {p}
variable {ids : List TypeParameterId} {id : TypeParameterId} {parameter : TypeParameter}
variable {bound : JavaType} {bounds : List JavaType} {position : Nat}

/-- What a bound consists of. -/
theorem boundTokens_ok {tokens : List FormalToken} (h : p.boundTokens bound = .ok tokens) :
    ∃ interface text, p.isInterface bound = .ok interface ∧ p.typeSignature bound = .ok text
      ∧ tokens = (if interface then [.separator] else []) ++ [.bound text] := by
  obtain ⟨interface, hi, h⟩ := bind_eq_ok h
  obtain ⟨text, ht, rfl⟩ := bind_pure_eq_ok h
  exact ⟨interface, text, hi, ht, rfl⟩

theorem boundTokens_agree (p : Program) (bound : JavaType) :
    Agree (fun tokens s => FormalToken.textOf tokens = s) (p.boundTokens bound)
      (p.boundPiece bound) := by
  refine (Agree.refl _).bind fun interface interface' he => ?_
  subst he
  refine (Agree.refl _).bind fun text text' he => .ok ?_
  subst he
  rw [FormalToken.textOf_append]
  cases interface <;> rfl

/-- **The tokens of a list of bounds** have the texts of the bounds with their
marks. -/
theorem mapM_boundTokens_agree (p : Program) (bounds : List JavaType) :
    Agree (fun tokens texts => FormalToken.textOf tokens.flatten = String.join texts)
      (bounds.mapM p.boundTokens) (bounds.mapM p.boundPiece) := by
  refine (Agree.mapM p.boundTokens_agree bounds).mono fun tokens texts h => ?_
  induction h with
  | nil => rfl
  | cons hfirst _ ih =>
    rw [List.flatten_cons, FormalToken.textOf_append, hfirst, ih, String.join_cons]

/-- **The piece of a type parameter that comes first in a list** is the text of
its tokens. -/
theorem formalTokens_of_formalPiece (hfirst : id ∉ ids.take position)
    (hp : p.typeParameterOf id = .ok parameter) {piece : String}
    (h : p.formalPiece ids (id, position) = .ok piece) :
    ∃ tokens, p.formalTokens parameter = .ok tokens ∧ FormalToken.textOf tokens = piece := by
  obtain ⟨parameter', hp', h⟩ := bind_eq_ok h
  obtain rfl : parameter = parameter' := Except.ok.inj (hp.symm.trans hp')
  rw [if_neg hfirst] at h
  split at h
  · cases h
  · obtain ⟨texts, ht, rfl⟩ := bind_pure_eq_ok h
    have hagree := mapM_boundTokens_agree p parameter.bounds
    rw [ht] at hagree
    generalize hb : parameter.bounds.mapM p.boundTokens = tokens at hagree
    cases hagree with
    | @ok tokens _ htext =>
      refine ⟨.name parameter.name :: .separator :: tokens.flatten, ?_, ?_⟩
      · unfold formalTokens
        rw [hb]
        rfl
      · rw [FormalToken.textOf_cons, FormalToken.textOf_cons, htext, ← String.append_assoc]
        rfl

/-! ## The separators of a declaration

One separator stands behind the name and one in front of each interface. All
bounds but the first are interfaces, so the number of separators in front of a
bound grows by one from each bound to the next. -/

/-- A bound has the separators in front of it that have been passed, and its own
if it is an interface. -/
theorem separatorsInFront_bound {interface : Bool} {text : String} {passed : Nat}
    {others : List FormalToken} :
    FormalToken.separatorsInFront passed
        (((if interface then [.separator] else []) ++ [.bound text]) ++ others)
      = (passed + interface.toNat)
        :: FormalToken.separatorsInFront (passed + interface.toNat) others := by
  cases interface <;> rfl

/-- Each of several interfaces has one separator more in front of it. -/
theorem separatorsInFront_interfaces {tokens : List (List FormalToken)}
    (h : bounds.mapM p.boundTokens = .ok tokens)
    (hinterfaces : ∀ bound ∈ bounds, p.isInterface bound = .ok true) (passed : Nat) :
    FormalToken.separatorsInFront passed tokens.flatten
      = List.range' (passed + 1) bounds.length := by
  have hall := mapM_eq_ok h
  clear h
  induction hall generalizing passed with
  | nil => rfl
  | cons hfirst _ ih =>
    obtain ⟨interface, text, hi, _, rfl⟩ := boundTokens_ok hfirst
    cases Except.ok.inj (hi.symm.trans (hinterfaces _ List.mem_cons_self))
    rw [List.flatten_cons, separatorsInFront_bound,
      ih (fun b hb => hinterfaces b (List.mem_cons_of_mem _ hb)), List.length_cons,
      List.range'_succ]
    rfl

/-- **The separators of a declaration count the bounds,** from one more than the
number at which the walk begins. -/
theorem separatorsInFront_formalTokens {tokens : List FormalToken}
    (h : p.formalTokens parameter = .ok tokens)
    (hfurther : ∀ bound ∈ parameter.bounds.tail, p.isInterface bound = .ok true) :
    ∃ start, start ≤ 1 ∧ p.firstBoundIndex parameter.bounds = .ok start
      ∧ FormalToken.separatorsInFront 0 tokens
        = List.range' (start + 1) parameter.bounds.length := by
  obtain ⟨all, hall, rfl⟩ := bind_pure_eq_ok h
  show ∃ start, _ ∧ _ ∧ FormalToken.separatorsInFront 1 all.flatten = _
  generalize parameter.bounds = bounds at hall hfurther ⊢
  -- an interface in front shifts the numbers by one, for the walk as for the separators
  cases bounds with
  | nil =>
    cases hall
    exact ⟨0, Nat.zero_le 1, rfl, rfl⟩
  | cons first further =>
    rw [List.mapM_cons] at hall
    obtain ⟨tokens, ht, hall⟩ := bind_eq_ok hall
    obtain ⟨others, ho, rfl⟩ := bind_pure_eq_ok hall
    obtain ⟨interface, text, hi, _, rfl⟩ := boundTokens_ok ht
    refine ⟨interface.toNat, Bool.toNat_le interface, ?_, ?_⟩
    · show (p.isInterface first).map _ = _
      rw [hi]
      cases interface <;> rfl
    · rw [List.flatten_cons, separatorsInFront_bound, separatorsInFront_interfaces ho hfurther,
        Nat.add_comm 1, List.length_cons, List.range'_succ]

/-! ## Colons

Clean names have no colons, and of its own accord the signature of a type has
none either. What remains are the separators. -/

theorem colon_notMem_identifier {s : String} (h : IsIdentifier s.toList) : ':' ∉ s.toList :=
  fun hc => h.2 _ hc (by decide)

theorem colon_notMem_append {s t : String} (hs : ':' ∉ s.toList) (ht : ':' ∉ t.toList) :
    ':' ∉ (s ++ t).toList := by
  rw [String.toList_append, List.mem_append]
  exact not_or.mpr ⟨hs, ht⟩

theorem colon_notMem_angled {texts : List String} (h : ∀ s ∈ texts, ':' ∉ s.toList) :
    ':' ∉ (angled texts).toList := by
  have hjoin : ':' ∉ (String.join texts).toList := by
    induction texts with
    | nil => decide
    | cons s texts ih =>
      rw [String.join_cons]
      exact colon_notMem_append (h s List.mem_cons_self)
        (ih fun t ht => h t (List.mem_cons_of_mem _ ht))
  unfold angled
  split
  · decide
  · exact colon_notMem_append (colon_notMem_append (by decide) hjoin) (by decide)

mutual

/-- **The signature of a type has no colons** where names are clean, by recursion
on the type. -/
theorem HasCleanNames.colon_notMem_typeText (names : p.HasCleanNames) :
    ∀ (t : JavaType) {s : String}, p.typeText t = .ok s → ':' ∉ s.toList
  | .primitive b, _, h => by
    cases h
    cases b <;> decide
  | .void, _, h => by
    cases h
    decide
  | .array t, _, h | .wildcardExtends t, _, h | .wildcardSuper t, _, h => by
    rw [typeText] at h
    obtain ⟨s, hs, rfl⟩ := bind_pure_eq_ok h
    exact colon_notMem_append (by decide) (names.colon_notMem_typeText t hs)
  | .declared ⟨⟨id, arguments, _⟩, outer⟩, _, h => by
    obtain ⟨head, hh, texts, ht, rfl⟩ := typeText_declared_ok h
    have harguments := colon_notMem_angled (names.colon_notMem_argumentTexts arguments ht)
    exact colon_notMem_append
      (colon_notMem_append (names.colon_notMem_headText id outer hh) harguments) (by decide)
  | .typeVariable id _, _, h => by
    obtain ⟨parameter, hp, rfl⟩ := typeText_typeVariable_ok h
    have hname := colon_notMem_identifier (names.typeParameter _ (mem_of_typeParameterOf hp))
    exact colon_notMem_append (colon_notMem_append (by decide) hname) (by decide)
  | .wildcard, _, h => by
    cases h
    decide
  | .intersection _, _, h => by cases h

/-- So have those of type arguments. -/
theorem HasCleanNames.colon_notMem_argumentTexts (names : p.HasCleanNames) :
    ∀ (ts : List JavaType) {texts : List String}, p.argumentTexts ts = .ok texts →
      ∀ s ∈ texts, ':' ∉ s.toList
  | [], _, h => by
    cases h
    exact fun s hs => absurd hs List.not_mem_nil
  | t :: ts, _, h => by
    obtain ⟨first, hf, others, ho, rfl⟩ := argumentTexts_cons_ok h
    exact List.forall_mem_cons.mpr
      ⟨names.colon_notMem_typeText t hf, names.colon_notMem_argumentTexts ts ho⟩

/-- So has what stands in front of the type arguments of a class. -/
theorem HasCleanNames.colon_notMem_headText (names : p.HasCleanNames) (id : ClassId) :
    ∀ (outer : List ClassPart) {s : String}, p.headText id outer = .ok s → ':' ∉ s.toList
  | outer, s, h => by
    by_cases hp : outer.any ClassPart.hasArguments = true
    · match outer, hp, h with
      | ⟨outerId, arguments, annotations⟩ :: further, hp, h =>
        obtain ⟨head, hh, texts, ht, c, hc, rfl⟩ := headText_cons_ok hp h
        have hhead := names.colon_notMem_headText outerId further hh
        have harguments := colon_notMem_angled (names.colon_notMem_argumentTexts arguments ht)
        have hsimple := colon_notMem_identifier (names.simpleName c (mem_of_classOf hc))
        exact colon_notMem_append
          (colon_notMem_append (colon_notMem_append hhead harguments) (by decide)) hsimple
    · rw [headText_plain (Bool.not_eq_true _ ▸ hp)] at h
      obtain ⟨name, hn, rfl⟩ := bind_pure_eq_ok h
      refine colon_notMem_append (by decide) fun hc => ?_
      exact ((names.isPath_internalName hn).eq_or_notMem hc).elim (by decide)
        fun hfree => hfree (by decide)

end

/-- **The separators of a declaration are the colons in its text** where names
are clean. -/
theorem HasCleanNames.count_formalTokens (names : p.HasCleanNames)
    (hp : p.typeParameterOf id = .ok parameter) {tokens : List FormalToken}
    (h : p.formalTokens parameter = .ok tokens) :
    (FormalToken.textsInFront "" tokens).map (·.toList.count ':')
      = FormalToken.separatorsInFront 0 tokens := by
  refine FormalToken.count_textsInFront (fun token ht hseparator => ?_) ""
  obtain ⟨all, hall, rfl⟩ := bind_pure_eq_ok h
  rcases List.mem_cons.mp ht with rfl | ht
  · exact colon_notMem_identifier (names.typeParameter _ (mem_of_typeParameterOf hp))
  rcases List.mem_cons.mp ht with rfl | ht
  · exact absurd rfl hseparator
  obtain ⟨bound, hbound, hmem⟩ := List.mem_flatten.mp ht
  obtain ⟨b, _, hb⟩ := exists_of_mem_mapM hall hbound
  obtain ⟨interface, text, _, htext, rfl⟩ := boundTokens_ok hb
  rcases List.mem_append.mp hmem with hmark | htoken
  · cases interface with
    | true => exact absurd (List.mem_singleton.mp hmark) hseparator
    | false => exact absurd hmark List.not_mem_nil
  · rw [List.mem_singleton.mp htoken]
    rw [p.typeSignature_eq] at htext
    exact names.colon_notMem_typeText b htext

/-! ## The walk

The walk has a byte for the position and one for the number. What is shown is
that a position and numbers below 256 are told as they are. -/

theorem byteIndex_of_lt {index : Nat} (h : index < 256) (tooMany : Unsupported) :
    byteIndex index tooMany = .ok (UInt8.ofNat index) := if_pos h

theorem wideIndex_of_lt {index : Nat} (h : index < 65536) (tooMany : Unsupported) :
    wideIndex index tooMany = .ok (UInt16.ofNat index) := if_pos h

/-- The first bound has the number 0 or 1. -/
theorem firstBoundIndex_le {bounds : List JavaType} {start : Nat}
    (h : p.firstBoundIndex bounds = .ok start) : start ≤ 1 := by
  cases bounds with
  | nil =>
    cases h
    exact Nat.zero_le 1
  | cons first bounds =>
    obtain ⟨interface, -, rfl⟩ := map_eq_ok h
    cases interface <;> decide

/-- **What is told about a type parameter** if its bounds can be numbered. -/
theorem typeParameterScript_eq (sort : UInt8) (hposition : position < 256)
    (hp : p.typeParameterOf id = .ok parameter) {start : Nat}
    (hstart : p.firstBoundIndex parameter.bounds = .ok start)
    (hlength : start + parameter.bounds.length ≤ 256) :
    p.typeParameterScript sort position id
      = p.typeGroup (.ofTypeParameter sort (UInt8.ofNat position)) [] parameter.annotations
        ++ .forEach (parameter.bounds.zipIdx start) fun (bound, number) =>
          p.typeScript (.ofBound (boundSort sort) (UInt8.ofNat position) (UInt8.ofNat number))
            bound := by
  unfold typeParameterScript
  rw [byteIndex_of_lt hposition, hp]
  show _ ++ Script.given (p.firstBoundIndex parameter.bounds) _ = _
  rw [hstart]
  refine congrArg (_ ++ ·) (Script.forEach_congr fun x hx => ?_)
  have hnumber : x.2 < 256 := by
    have hlt := (List.mem_zipIdx hx).2.1
    omega
  show Script.given (byteIndex x.2 _) _ = _
  rw [byteIndex_of_lt hnumber]
  rfl

/-! ## Signature and walk

Both number the bounds of a type parameter from the same list, the one by
counting and the other by writing. The type parameter may be listed more than
once; the bounds are written where it comes first. -/

/-- **A walk and a signature number the bounds of a type parameter alike.** The
signature begins with the pieces of the list, one for each type parameter; the
walk goes through the bounds with one place for each. The number in the place of
a bound is one less than the separators in front of the bound in the declaration
of the type parameter, which is the first of its pieces; and these are the colons
of the text where no name has any. -/
def NumbersAlike (p : Program) (sort : UInt8) (ids : List TypeParameterId) (id : TypeParameterId)
    (position : Nat) (parameter : TypeParameter) (s : String) : Prop :=
  ∃ pieces rest tokens, ∃ places : List TypeReference,
    ids.zipIdx.mapM (p.formalPiece ids) = .ok pieces ∧ s = angled pieces ++ rest
    ∧ p.formalTokens parameter = .ok tokens
    ∧ pieces[ids.idxOf id]? = some (FormalToken.textOf tokens)
    ∧ p.typeParameterScript sort position id
      = p.typeGroup (.ofTypeParameter sort (UInt8.ofNat position)) [] parameter.annotations
        ++ .forEach (parameter.bounds.zip places) (fun (bound, place) => p.typeScript place bound)
    ∧ places.length = parameter.bounds.length
    ∧ places.map (·.boundIndex.toNat + 1) = FormalToken.separatorsInFront 0 tokens
    ∧ (p.HasCleanNames → (FormalToken.textsInFront "" tokens).map (·.toList.count ':')
      = FormalToken.separatorsInFront 0 tokens)
    ∧ ∀ place ∈ places, place.parameterIndex.toNat = position ∧ place.sort = boundSort sort

/-- The places of the bounds from a number on. -/
def boundPlaces (sort : UInt8) (position start count : Nat) : List TypeReference :=
  (List.range' start count).map fun number =>
    .ofBound (boundSort sort) (UInt8.ofNat position) (UInt8.ofNat number)

/-- What the places of bounds hold. -/
theorem boundPlaces_reads (sort : UInt8) {start count : Nat} (hposition : position < 256)
    (h : start + count ≤ 256) :
    (boundPlaces sort position start count).map (·.boundIndex.toNat + 1)
        = List.range' (start + 1) count
      ∧ ∀ place ∈ boundPlaces sort position start count,
        place.parameterIndex.toNat = position ∧ place.sort = boundSort sort := by
  constructor
  · rw [boundPlaces, List.map_map, Nat.add_comm, ← List.map_add_range' start count 1]
    refine List.map_congr_left fun number hnumber => ?_
    have hlt := (List.mem_range'_1.mp hnumber).2
    show (TypeReference.ofBound _ _ _).boundIndex.toNat + 1 = 1 + number
    rw [(TypeReference.reads_ofBound _ _ _).2.2, UInt8.toNat_ofNat_of_lt' (by
      rw [UInt8.size]
      omega), Nat.add_comm]
  · intro place hplace
    obtain ⟨number, _, rfl⟩ := List.mem_map.mp hplace
    obtain ⟨hsort, hindex, _⟩ :=
      TypeReference.reads_ofBound (boundSort sort) (UInt8.ofNat position) (UInt8.ofNat number)
    rw [hindex, UInt8.toNat_ofNat_of_lt' hposition]
    exact ⟨rfl, hsort⟩

/-- The type parameter at the first position of a handle has not come before. -/
theorem notMem_take_idxOf (ids : List TypeParameterId) (id : TypeParameterId) :
    id ∉ ids.take (ids.idxOf id) := by
  intro hmem
  obtain ⟨i, hi, he⟩ := List.mem_take_iff_getElem.mp hmem
  have hne := List.not_of_lt_findIdx (Nat.lt_of_lt_of_le hi (Nat.min_le_left _ _))
  exact ne_of_beq_false hne he

/-- **What declares a type parameter numbers its bounds as the walk does.** -/
theorem numbersAlike_of_formalPart (sort : UInt8) (hid : id ∈ ids) (hposition : position < 256)
    (hp : p.typeParameterOf id = .ok parameter) (hlength : parameter.bounds.length ≤ 254)
    (hfurther : ∀ bound ∈ parameter.bounds.tail, p.isInterface bound = .ok true)
    {formals rest : String} (h : p.formalPart ids = .ok formals) :
    p.NumbersAlike sort ids id position parameter (formals ++ rest) := by
  obtain ⟨pieces, hpieces, rfl⟩ := bind_pure_eq_ok h
  have hall := mapM_eq_ok hpieces
  -- the declaration is the piece at the first place of the type parameter
  have hindex : ids.idxOf id < ids.length := List.idxOf_lt_length_iff.mpr hid
  have hpiece : ids.idxOf id < pieces.length := by
    rw [← hall.length_eq, List.length_zipIdx]
    exact hindex
  have hformal : p.formalPiece ids (id, ids.idxOf id) = .ok pieces[ids.idxOf id] := by
    have hget := hall.get (by rwa [List.length_zipIdx]) hpiece
    simpa using hget
  obtain ⟨tokens, htokens, htext⟩ :=
    formalTokens_of_formalPiece (notMem_take_idxOf ids id) hp hformal
  obtain ⟨start, hstart, hfirst, hseparators⟩ := separatorsInFront_formalTokens htokens hfurther
  -- with at most 254 bounds the last number is in a byte, even if the first is 1
  have hroom : start + parameter.bounds.length ≤ 256 := by omega
  obtain ⟨hnumbers, hplaces⟩ := boundPlaces_reads sort hposition hroom
  refine ⟨pieces, rest, tokens, boundPlaces sort position start parameter.bounds.length, hpieces,
    rfl, htokens, ?_, ?_, ?_, hnumbers.trans hseparators.symm,
    fun names => names.count_formalTokens hp htokens, hplaces⟩
  · rw [List.getElem?_eq_getElem hpiece, htext]
  · rw [typeParameterScript_eq sort hposition hp hfirst hroom, boundPlaces,
      List.zipIdx_eq_zip_range', List.zip_map_right]
    unfold Script.forEach
    rw [List.foldr_map]
    rfl
  · rw [boundPlaces, List.length_map, List.length_range']

/-- **The numbers of bounds are those of the signature.** Where a type parameter
has at most 254 bounds and all behind the first are interfaces, and where it is
declared in the signature of a class or of a method, the walk has for each of its
bounds a place with the position of the type parameter in the list, and with the
number that the separators of its declaration give the bound. -/
theorem numbersAlike_of_declared (sort : UInt8) (hid : (id, position) ∈ ids.zipIdx)
    (hposition : position < 256) (hp : p.typeParameterOf id = .ok parameter)
    (hlength : parameter.bounds.length ≤ 254)
    (hfurther : ∀ bound ∈ parameter.bounds.tail, p.isInterface bound = .ok true) :
    (∀ (classId : ClassId) (c : ClassDeclaration) (s : String), p.classOf classId = .ok c →
      c.typeParameters = ids → p.classSignature? classId = .ok (some s) →
      p.NumbersAlike sort ids id position parameter s)
    ∧ ∀ (m : MethodDeclaration) (s : String), m.typeParameters = ids →
      p.methodSignature m = .ok s → p.NumbersAlike sort ids id position parameter s := by
  have hmem : id ∈ ids := List.fst_mem_of_mem_zipIdx hid
  constructor
  · rintro classId c s hc rfl hs
    obtain ⟨formals, superclass, interfaces, hf, _, _, rfl⟩ := classSignature?_eq_some hc hs
    refine numbersAlike_of_formalPart sort hmem hposition hp hlength hfurther ?_
    rw [p.formalPart_eq, hf]
    rfl
  · rintro m s rfl hs
    rw [p.methodSignature_eq_parts] at hs
    obtain ⟨formals, hf, hs⟩ := bind_eq_ok hs
    obtain ⟨parameters, _, hs⟩ := bind_eq_ok hs
    obtain ⟨result, _, hs⟩ := bind_eq_ok hs
    obtain ⟨thrown, _, rfl⟩ := bind_pure_eq_ok hs
    rw [String.append_assoc, String.append_assoc]
    exact numbersAlike_of_formalPart sort hmem hposition hp hlength hfurther hf

/-- The second type parameter of a class, with two interfaces as its bounds. The
first of them is bound number 1, for there is no class bound, and an annotation on it
is told there, behind two separators; one on the other is told under number 2. -/
theorem numbersAlike_of_declared_interfaces :
    let a : Annotation := ⟨.plain .retention, []⟩
    let c : ClassDeclaration :=
      { ClassDeclaration.bare .ordinary "a" "C" with typeParameters := [⟨0⟩, ⟨1⟩] }
    let bound (id : ClassId) : JavaType := .declared ⟨⟨id, [], [a]⟩, []⟩
    let t : TypeParameter := ⟨"T", .intersection [bound ⟨6⟩, bound ⟨7⟩], none, []⟩
    let p : Program :=
      { classes := Program.initial.classes ++
          #[.bare .interface "a" "I", .bare .interface "a" "J", c]
        typeParameters := #[⟨"S", .declared .object, none, []⟩, t] }
    let s := "<S:Ljava/lang/Object;T::La/I;:La/J;>Ljava/lang/Object;"
    let v : Visitor (List Event) := ⟨fun told e => told ++ [e], fun _ _ => true⟩
    let told (bound : UInt8) : List Event :=
      [.typeAnnotated (.ofBound TypeReference.classTypeParameterBound 1 bound) none
        ⟨"Ljava/lang/annotation/Retention;", true⟩, .finish .annotated]
    p.classSignature? ⟨8⟩ = .ok (some s)
      ∧ p.formalTokens t = .ok [.name "T", .separator, .separator, .bound "La/I;", .separator,
        .bound "La/J;"]
      ∧ p.NumbersAlike TypeReference.classTypeParameter [⟨0⟩, ⟨1⟩] ⟨1⟩ 1 t s
      ∧ v.run (p.typeParameterScript TypeReference.classTypeParameter 1 ⟨1⟩) []
        = (told 1 ++ told 2, .ok ()) := by
  intro a c bound t p s v told
  have hs : p.classSignature? ⟨8⟩ = .ok (some s) := by decide +kernel
  have hinterfaces : ∀ bound ∈ t.bounds.tail, p.isInterface bound = .ok true := by
    intro bound hbound
    rw [List.mem_singleton.mp hbound]
    rfl
  have hlisted : ((⟨1⟩ : TypeParameterId), 1) ∈ [(⟨0⟩ : TypeParameterId), ⟨1⟩].zipIdx := by decide
  have ht : p.typeParameterOf ⟨1⟩ = .ok t := rfl
  have hnumbers := (numbersAlike_of_declared TypeReference.classTypeParameter hlisted (by decide)
    ht (by decide) hinterfaces).1 ⟨8⟩ c s rfl rfl hs
  exact ⟨hs, by decide +kernel, hnumbers, by decide +kernel⟩

end Program

end ClassFile
