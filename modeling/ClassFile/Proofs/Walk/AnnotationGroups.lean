import ClassFile.Proofs.Walk.Announcing
import ClassFile.Proofs.Walk.MethodPlaces

/-!
# Annotations are told by the group

Annotations written in one place are told together. Of each it is found first whether
it is kept, and of those that are kept what their types are called, and the errors that
this fails with are a list (`Program.groupFailures`). If there is one, the first of them
is the outcome and the visitor is told nothing, however late in the group it is. If
there is none, the visitor is told of the annotations that are kept, one after another,
up to the first that it wants the values of and that breaks off
(`Program.BreaksOffAt`, `Program.TellsGroups`). For a visitor that accepts every scope
that is the first of them with a value the type of which has no descriptor.

It is all the same for annotations on a declaration and annotations on a type, which
differ in the event that opens an annotation. The proof goes along the group: the script
of a group is that of its first annotation, if that is kept, and then that of the others
(`Program.groupScript_append`).
-/

namespace ClassFile

open Script

variable {State : Type}

/-- **What is said about an annotation** is the descriptor of its type, and whether it
is kept until run time. -/
structure AnnotationHeader.Describes (h : AnnotationHeader) (p : Program) (a : Annotation) :
    Prop where
  descriptor : ∃ name, p.internalName a.type.id = .ok name ∧ h.descriptor = "L" ++ name ++ ";"
  visible : h.visible = true ↔ p.retention a = .ok .runtime

/-- There is one thing to say about an annotation. -/
theorem AnnotationHeader.Describes.unique {p : Program} {a : Annotation} {h h' : AnnotationHeader}
    (hh : h.Describes p a) (hh' : h'.Describes p a) : h = h' := by
  obtain ⟨name, hname, hdescriptor⟩ := hh.descriptor
  obtain ⟨name', hname', hdescriptor'⟩ := hh'.descriptor
  cases hname.symm.trans hname'
  have hvisible : h.visible = h'.visible :=
    Bool.eq_iff_iff.mpr (hh.visible.trans hh'.visible.symm)
  cases h
  cases h'
  cases hdescriptor.trans hdescriptor'.symm
  cases hvisible
  rfl

/-- Whether an event tells of an annotation on something. -/
def Event.annotates (e : Event) : Bool := e.annotationContent?.isSome

/-- **The annotations that are told,** each as the event that opens it. What is told of
their values is left out. -/
def openedAnnotations (w : List Visit) : List Event :=
  (w.map Visit.event).filter Event.annotates

theorem openedAnnotations_append (u w : List Visit) :
    openedAnnotations (u ++ w) = openedAnnotations u ++ openedAnnotations w := by
  unfold openedAnnotations
  rw [List.map_append, List.filter_append]

namespace Program

/-! ## What is wrong about a group

Of an annotation that is not kept no more is asked than how long it is kept,
so it may be of a type that has no name. Values are not asked for yet. -/

section

variable (p : Program)

/-- **What is wrong about an annotation,** apart from its values: its type is not known,
or the annotation is kept and its type has no name. -/
def headerFailures (a : Annotation) : List Error :=
  failureOf (p.classOf a.type.id)
    ++ if p.keeps a then failureOf (p.internalName a.type.id) else []

/-- What is wrong about the annotations of a group, in their order. -/
def groupFailures (group : List Annotation) : List Error := group.flatMap p.headerFailures

/-- What is wrong about the first annotation comes first. -/
theorem groupFailures_cons (a : Annotation) (group : List Annotation) :
    p.groupFailures (a :: group) = failureOf (p.classOf a.type.id)
      ++ ((if p.keeps a then failureOf (p.internalName a.type.id) else [])
        ++ p.groupFailures group) := by
  show p.headerFailures a ++ p.groupFailures group = _
  unfold headerFailures
  rw [List.append_assoc]

/-- Nothing is wrong about a group if nothing is wrong about its parts. -/
theorem groupFailures_append_eq_nil {group others : List Annotation} :
    p.groupFailures (group ++ others) = []
      ↔ p.groupFailures group = [] ∧ p.groupFailures others = [] := by
  unfold groupFailures
  rw [List.flatMap_append, List.append_eq_nil_iff]

/-- The descriptor of a class is there if its name is. -/
theorem classDescriptor_finds (t : ClassType) :
    Finds (p.classDescriptor t) (failureOf (p.internalName t.id))
      fun d => ∃ name, p.internalName t.id = .ok name ∧ d = "L" ++ name ++ ";" := by
  have htext : p.classDescriptor t = do return "L" ++ (← p.internalName t.id) ++ ";" := by
    refine (p.typeDescriptor_eq _).trans ?_
    rw [descriptorText, erasedText, elementText]
    cases p.internalName t.id with
    | error e => rfl
    | ok name => exact congrArg Except.ok String.empty_append
  rw [htext]
  exact (Finds.of _).bind_pure fun name hname => ⟨name, hname, rfl⟩

end

variable {p : Program}

/-- It is known how long an annotation is kept if its type is known. -/
theorem retention_finds (hretention : Succeeds (p.qualifiedName .retention)) (a : Annotation) :
    Finds (p.retention a) (failureOf (p.classOf a.type.id)) fun r => p.retention a = .ok r := by
  obtain ⟨name, hname⟩ := hretention
  unfold retention metaValue? metaAnnotation?
  rw [hname]
  cases p.classOf a.type.id with
  | error e => rfl
  | ok c => exact ⟨_, rfl, rfl⟩

theorem keeps_iff_of_retention {a : Annotation} {policy : RetentionPolicy}
    (h : p.retention a = .ok policy) : p.keeps a = true ↔ policy ≠ .source := by
  unfold keeps
  rw [h]
  cases policy <;> decide

/-- The first annotation of a group is looked at before the others, and its
descriptor is found before any of them is looked at. -/
theorem retained_cons (a : Annotation) (group : List Annotation) :
    p.retained (a :: group) = p.retention a >>= fun policy =>
      if policy = .source then p.retained group
      else do
        let descriptor ← p.classDescriptor a.type
        return ⟨a, ⟨descriptor, policy == .runtime⟩⟩ :: (← p.retained group) := by
  rw [retained, visibility?]
  cases p.retention a with
  | error e => rfl
  | ok policy => cases policy <;> rfl

/-- **What reaches the class file** are the annotations that are kept, with what is said
about them, and it is found if nothing is wrong about any annotation of the group. By
induction on the group. -/
theorem retained_finds (hretention : Succeeds (p.qualifiedName .retention))
    (group : List Annotation) :
    Finds (p.retained group) (p.groupFailures group) fun kept =>
      List.Forall₂ (fun a r => r.source = a ∧ r.header.Describes p a) (group.filter p.keeps)
        kept := by
  induction group with
  | nil => exact .pure .nil
  | cons a group ih =>
    rw [groupFailures_cons, retained_cons]
    refine (retention_finds hretention a).bind fun policy hpolicy => ?_
    by_cases hsource : policy = .source
    · have hnot : ¬ p.keeps a = true := fun h => (keeps_iff_of_retention hpolicy).mp h hsource
      rw [if_pos hsource, if_neg hnot, List.filter_cons_of_neg hnot]
      exact ih
    · have hkept : p.keeps a = true := (keeps_iff_of_retention hpolicy).mpr hsource
      rw [if_neg hsource, if_pos hkept, List.filter_cons_of_pos hkept]
      -- the descriptor is found first, so its failure comes before those of the others
      refine (p.classDescriptor_finds a.type).bind fun d hd => ih.bind_pure fun kept hall =>
        .cons ⟨rfl, hd, ?_⟩ hall
      rw [hpolicy]
      exact beq_iff_eq.trans ⟨congrArg Except.ok, Except.ok.inj⟩

/-! ## Telling one annotation

In the values of an annotation there may be annotations as well, but these are
opened by another event. So a single annotation is told by a single event that
counts. -/

/-- An annotation is told by one event that opens it. -/
theorem openedAnnotations_scope {o : Event} (ho : o.annotates = true)
    {a : Annotation} {w : List Visit} {r : Except Error Unit}
    (h : (Script.scope o (p.annotationScript a) .done).Tells w r) : openedAnnotations w = [o] := by
  have hinside : ∀ {accepted : Bool} {u : List Visit},
      (∀ x ∈ u, x.event.annotationContent? = none) →
        openedAnnotations (⟨o, accepted⟩ :: u) = [o] := by
    intro accepted u hu
    have hnone : (u.map Visit.event).filter Event.annotates = [] := by
      refine List.filter_eq_nil_iff.mpr (List.forall_mem_map.mpr fun x hx => ?_)
      unfold Event.annotates
      rw [hu x hx]
      exact Bool.false_ne_true
    unfold openedAnnotations
    rw [List.map_cons, List.filter_cons_of_pos ho, hnone]
  -- declined, told to the end or broken off: the event that opens the scope has been told
  cases h with
  | declined _ _ h =>
    cases h
    exact hinside (List.forall_mem_nil _)
  | accepted _ hcontent h =>
    cases h
    rw [List.append_nil]
    exact hinside (p.annotationScript_quiet hcontent)
  | broken _ _ hcontent => exact hinside (p.annotationScript_quiet hcontent)

/-- How telling a scope ends, behind which there is nothing. -/
theorem run_scope_snd (o : Event) (c : Script) (v : Visitor State) (s : State) :
    (v.run (.scope o c .done) s).2 = if v.wants s o then (v.run c (v.visit s o)).2 else .ok () := by
  rw [Visitor.run]
  split
  · rcases v.run c (v.visit s o) with ⟨t, _ | _⟩ <;> rfl
  · rfl

/-- **The values break off where one of them cannot be encoded,** if nothing is declined. -/
theorem run_annotationScript_of_acceptsAll {v : Visitor State} {s : State} (hv : v.AcceptsAll s)
    (a : Annotation) :
    (v.run (p.annotationScript a) s).2 = (p.toldElements a.elements).map fun _ => () := by
  have hthrough := p.annotationScript_goesThrough a
  have hsteps := p.annotationSteps_leadTo a
  cases h : p.toldElements a.elements with
  | error e => exact (hthrough.hears_error hv (h ▸ hsteps)).1
  | ok es => exact congrArg Prod.snd (hthrough.hears_ok hv (h ▸ hsteps))

/-! ## Telling a group

A group in which nothing is wrong is told annotation by annotation, and can be
cut between any two. That is how it is followed to the place where it breaks
off. -/

/-- The event that opens an annotation with what is said about it. -/
def OpensWith (p : Program) (opening : AnnotationHeader → Event) (a : Annotation) (e : Event) :
    Prop :=
  ∃ h : AnnotationHeader, h.Describes p a ∧ e = opening h

/-- **A group breaks off at an annotation.** The visitor is told of the
annotations in front to the end, it wants the values of this one, and they
break off. What stands behind it plays no part. -/
def BreaksOffAt (p : Program) (opening : AnnotationHeader → Event)
    (script : List Annotation → Script) (v : Visitor State) (s : State) (front : List Annotation)
    (a : Annotation) (e : Error) : Prop :=
  p.keeps a = true ∧ ∃ (t : State) (h : AnnotationHeader), v.run (script front) s = (t, .ok ())
    ∧ h.Describes p a ∧ v.wants t (opening h) = true
    ∧ (v.run (p.annotationScript a) (v.visit t (opening h))).2 = .error e

/-- **How groups of annotations are told** to a visitor, each annotation by an event that
opens it. If something is wrong about an annotation of the group, the visitor is told
nothing and stays as it was. If nothing is, it is told of those that are kept, up to the
one at which the group breaks off. For a visitor that accepts every scope that is the
first of them of which a value cannot be encoded. -/
structure TellsGroups (p : Program) (opening : AnnotationHeader → Event)
    (script : List Annotation → Script) (v : Visitor State) (s : State) : Prop where
  silent : ∀ (group : List Annotation) (e : Error) (others : List Error),
    p.groupFailures group = e :: others →
      v.visits (script group) s = [] ∧ v.run (script group) s = (s, .error e)
  complete : ∀ group : List Annotation, p.groupFailures group = [] →
    (∀ front a after e, group = front ++ a :: after →
      ¬ p.BreaksOffAt opening script v s front a e) →
      (v.run (script group) s).2 = .ok ()
        ∧ List.Forall₂ (p.OpensWith opening) (group.filter p.keeps)
          (openedAnnotations (v.visits (script group) s))
  broken : ∀ (front : List Annotation) (a : Annotation) (after : List Annotation) (e : Error),
    p.groupFailures (front ++ a :: after) = [] → p.BreaksOffAt opening script v s front a e →
      (v.run (script (front ++ a :: after)) s).2 = .error e
        ∧ List.Forall₂ (p.OpensWith opening) ((front ++ [a]).filter p.keeps)
          (openedAnnotations (v.visits (script (front ++ a :: after)) s))
  accepting : v.AcceptsAll s → ∀ (front : List Annotation) (a : Annotation) (e : Error),
    p.groupFailures (front ++ [a]) = [] →
      (p.BreaksOffAt opening script v s front a e
        ↔ p.keeps a = true
          ∧ (∀ b ∈ front, p.keeps b = true → Succeeds (p.toldElements b.elements))
          ∧ p.toldElements a.elements = .error e)

section

variable {opening : AnnotationHeader → Event}

/-- What is kept of two groups is found group by group, and the first error is
that of the first group if it has one. -/
theorem retained_append (group others : List Annotation) :
    p.retained (group ++ others) = do return (← p.retained group) ++ (← p.retained others) := by
  induction group with
  | nil =>
    show p.retained others = _
    cases p.retained others <;> rfl
  | cons a group ih =>
    rw [List.cons_append, retained, retained, ih]
    cases p.visibility? a with
    | error e => rfl
    | ok visible? =>
      cases visible? with
      | none => rfl
      | some visible =>
        cases p.classDescriptor a.type with
        | error e => rfl
        | ok descriptor =>
          cases p.retained group with
          | error e => rfl
          | ok kept => cases p.retained others <;> rfl

variable (hretention : Succeeds (p.qualifiedName .retention))

include hretention

/-- **The script of a group in two parts.** -/
theorem groupScript_append {group others : List Annotation}
    (h : p.groupFailures (group ++ others) = []) :
    p.groupScript opening (group ++ others)
      = p.groupScript opening group ++ p.groupScript opening others := by
  obtain ⟨hgroup, hothers⟩ := p.groupFailures_append_eq_nil.mp h
  have hfinds := retained_finds hretention group
  have hfinds' := retained_finds hretention others
  rw [hgroup] at hfinds
  rw [hothers] at hfinds'
  obtain ⟨kept, hkept, -⟩ := hfinds
  obtain ⟨kept', hkept', -⟩ := hfinds'
  unfold groupScript
  rw [retained_append, hkept, hkept']
  exact forEach_append kept kept' _

/-- **The script of one annotation** is that of its scope, or there is nothing to tell. -/
theorem groupScript_singleton (opening : AnnotationHeader → Event) {a : Annotation}
    (h : p.groupFailures [a] = []) :
    (p.keeps a = false ∧ p.groupScript opening [a] = .done)
      ∨ (p.keeps a = true ∧ ∃ header : AnnotationHeader, header.Describes p a
        ∧ p.groupScript opening [a] = .scope (opening header) (p.annotationScript a) .done) := by
  have hfinds := retained_finds hretention [a]
  rw [h] at hfinds
  obtain ⟨kept, hkept, hall⟩ := hfinds
  unfold groupScript
  rw [hkept]
  cases hkeeps : p.keeps a with
  | false =>
    rw [List.filter_cons_of_neg (Bool.eq_false_iff.mp hkeeps)] at hall
    cases hall
    exact .inl ⟨rfl, rfl⟩
  | true =>
    rw [List.filter_cons_of_pos hkeeps] at hall
    cases hall with
    | cons hr hnone =>
      cases hnone
      obtain ⟨rfl, hdescribes⟩ := hr
      exact .inr ⟨rfl, _, hdescribes, rfl⟩

/-- An annotation that is kept is told by the event that opens it, however it ends. -/
theorem openedAnnotations_singleton (hopens : ∀ h, (opening h).annotates = true)
    {a : Annotation} (h : p.groupFailures [a] = []) (v : Visitor State) (s : State) :
    List.Forall₂ (p.OpensWith opening) ([a].filter p.keeps)
      (openedAnnotations (v.visits (p.groupScript opening [a]) s)) := by
  rcases groupScript_singleton hretention opening h with
    ⟨hkeeps, hscript⟩ | ⟨hkeeps, header, hdescribes, hscript⟩
  · rw [hscript, List.filter_cons_of_neg (Bool.eq_false_iff.mp hkeeps)]
    exact .nil
  · rw [hscript, List.filter_cons_of_pos hkeeps,
      openedAnnotations_scope (hopens header) (v.tells _ s)]
    exact .cons ⟨header, hdescribes, rfl⟩ .nil

/-- **A group that is told to the end** is told annotation by annotation. By induction on
the group. -/
theorem openedAnnotations_of_run_ok (hopens : ∀ h, (opening h).annotates = true)
    {group : List Annotation} (h : p.groupFailures group = []) (v : Visitor State) (s : State)
    (hrun : (v.run (p.groupScript opening group) s).2 = .ok ()) :
    List.Forall₂ (p.OpensWith opening) (group.filter p.keeps)
      (openedAnnotations (v.visits (p.groupScript opening group) s)) := by
  induction group generalizing s with
  | nil => exact .nil
  | cons a group ih =>
    rw [← List.singleton_append] at h hrun ⊢
    obtain ⟨hfirst, hgroup⟩ := p.groupFailures_append_eq_nil.mp h
    rw [groupScript_append hretention h, v.run_append] at hrun
    rw [groupScript_append hretention h, v.visits_append, openedAnnotations_append,
      List.filter_append]
    refine List.rel_append (openedAnnotations_singleton hretention hopens hfirst v s) ?_
    rcases hone : v.run (p.groupScript opening [a]) s with ⟨t, e | _⟩
    · rw [hone] at hrun
      cases hrun
    · rw [hone] at hrun
      exact ih hgroup t hrun

/-- **A group that breaks off** does so at one of its annotations. By induction on the
group. -/
theorem exists_breaksOffAt {group : List Annotation} (h : p.groupFailures group = [])
    (v : Visitor State) (s : State) {e : Error}
    (hrun : (v.run (p.groupScript opening group) s).2 = .error e) :
    ∃ front a after, group = front ++ a :: after
      ∧ p.BreaksOffAt opening (p.groupScript opening) v s front a e := by
  induction group generalizing s with
  | nil => cases hrun
  | cons a group ih =>
    rw [← List.singleton_append] at h hrun
    obtain ⟨hfirst, hgroup⟩ := p.groupFailures_append_eq_nil.mp h
    rw [groupScript_append hretention h, v.run_append] at hrun
    rcases hone : v.run (p.groupScript opening [a]) s with ⟨t, e' | _⟩
    · -- it breaks off at once, so the annotation is kept and its values are wanted
      rw [hone] at hrun
      cases hrun
      refine ⟨[], a, group, rfl, ?_⟩
      rcases groupScript_singleton hretention opening hfirst with
        ⟨-, hscript⟩ | ⟨hkeeps, header, hdescribes, hscript⟩
      · rw [hscript] at hone
        cases hone
      · have hend := run_scope_snd (opening header) (p.annotationScript a) v s
        rw [← hscript, hone] at hend
        cases hwants : v.wants s (opening header) with
        | false =>
          rw [hwants] at hend
          cases hend
        | true =>
          rw [hwants] at hend
          exact ⟨hkeeps, s, header, rfl, hdescribes, hwants, hend.symm⟩
    · rw [hone] at hrun
      obtain ⟨front, a', after, rfl, hkeeps, t', header, hreached, hbreak⟩ := ih hgroup t hrun
      refine ⟨a :: front, a', after, rfl, hkeeps, t', header, ?_, hbreak⟩
      rw [← List.append_assoc, groupFailures_append_eq_nil] at h
      rw [← List.singleton_append, groupScript_append hretention h.1, v.run_append, hone]
      exact hreached

/-- What is told of a group that breaks off. -/
theorem openedAnnotations_of_breaksOffAt (hopens : ∀ h, (opening h).annotates = true)
    {front after : List Annotation} {a : Annotation}
    (h : p.groupFailures (front ++ a :: after) = [])
    {v : Visitor State} {s : State} {e : Error}
    (hbreak : p.BreaksOffAt opening (p.groupScript opening) v s front a e) :
    (v.run (p.groupScript opening (front ++ a :: after)) s).2 = .error e
      ∧ List.Forall₂ (p.OpensWith opening) ((front ++ [a]).filter p.keeps)
        (openedAnnotations (v.visits (p.groupScript opening (front ++ a :: after)) s)) := by
  obtain ⟨hkeeps, t, header, hreached, hdescribes, hwants, hbroken⟩ := hbreak
  rw [← List.singleton_append] at h ⊢
  obtain ⟨hfront, hrest⟩ := p.groupFailures_append_eq_nil.mp h
  obtain ⟨hone, -⟩ := p.groupFailures_append_eq_nil.mp hrest
  have hscript : p.groupScript opening [a]
      = .scope (opening header) (p.annotationScript a) .done := by
    rcases groupScript_singleton hretention opening hone with
      ⟨hnot, -⟩ | ⟨-, header', hdescribes', hscript⟩
    · cases hnot.symm.trans hkeeps
    · rw [hdescribes.unique hdescribes', hscript]
  have hend : (v.run (p.groupScript opening [a]) t).2 = .error e := by
    rw [hscript, run_scope_snd, if_pos hwants, hbroken]
  obtain ⟨t', ht'⟩ : ∃ t', v.run (p.groupScript opening [a]) t = (t', .error e) :=
    ⟨_, Prod.ext rfl hend⟩
  -- nothing is told of the annotations behind it
  obtain ⟨hvisits, hrun⟩ :=
    Script.StopsWith.append _ (p.groupScript opening after) _ v t t' e ht'
  rw [groupScript_append hretention h, groupScript_append hretention hrest, v.run_append,
    v.visits_append, hreached]
  refine ⟨congrArg Prod.snd hrun, ?_⟩
  show List.Forall₂ _ _ (openedAnnotations (_ ++ v.visits (_ ++ _) t))
  rw [hvisits, openedAnnotations_append, List.filter_append]
  refine List.rel_append (openedAnnotations_of_run_ok hretention hopens hfront v s ?_)
    (openedAnnotations_singleton hretention hopens hone v t)
  rw [hreached]

/-- **A visitor that accepts every scope** is told a group to the end if the values of
all annotations that are kept can be encoded. By induction on the group. -/
theorem run_groupScript_eq_ok_iff (hscope : ∀ h, (opening h).opensScope = true)
    {group : List Annotation} (h : p.groupFailures group = []) {v : Visitor State} {s : State}
    (hv : v.AcceptsAll s) :
    (v.run (p.groupScript opening group) s).2 = .ok ()
      ↔ ∀ a ∈ group, p.keeps a = true → Succeeds (p.toldElements a.elements) := by
  induction group generalizing s with
  | nil => exact ⟨fun _ => List.forall_mem_nil _, fun _ => rfl⟩
  | cons a group ih =>
    rw [← List.singleton_append] at h ⊢
    obtain ⟨hfirst, hgroup⟩ := p.groupFailures_append_eq_nil.mp h
    have hone : (v.run (p.groupScript opening [a]) s).2 = .ok ()
        ↔ (p.keeps a = true → Succeeds (p.toldElements a.elements)) := by
      rcases groupScript_singleton hretention opening hfirst with
        ⟨hkeeps, hscript⟩ | ⟨hkeeps, header, -, hscript⟩
      · rw [hscript, hkeeps]
        exact ⟨fun _ => nofun, fun _ => rfl⟩
      · have hwants : v.wants s (opening header) = true := hv [] _ (hscope header)
        rw [hscript, run_scope_snd, if_pos hwants, run_annotationScript_of_acceptsAll (hv.visit _),
          imp_iff_right hkeeps]
        cases p.toldElements a.elements with
        | error e => exact ⟨nofun, nofun⟩
        | ok es => exact ⟨fun _ => .ok es, fun _ => rfl⟩
    rw [groupScript_append hretention h, v.run_append, List.forall_mem_append,
      List.forall_mem_singleton, ← hone]
    have hthere := hv.run (p.groupScript opening [a])
    -- the others are told to a visitor that accepts every scope still
    generalize v.run (p.groupScript opening [a]) s = first at hthere ⊢
    obtain ⟨t, _ | _⟩ := first
    · exact ⟨nofun, nofun⟩
    · exact (ih hgroup hthere).trans (and_iff_right rfl).symm

/-- **All groups are told like this,** whatever event opens an annotation. -/
theorem groupScript_tellsGroups (hscope : ∀ h, (opening h).opensScope = true)
    (hopens : ∀ h, (opening h).annotates = true) (v : Visitor State) (s : State) :
    p.TellsGroups opening (p.groupScript opening) v s where
  silent group e others h := by
    have hfinds := retained_finds hretention group
    rw [h] at hfinds
    have hfails : p.groupScript opening group = .fail e := by
      unfold groupScript
      rw [show p.retained group = .error e from hfinds]
      rfl
    rw [hfails]
    exact ⟨rfl, rfl⟩
  complete group h hnowhere := by
    have hok : (v.run (p.groupScript opening group) s).2 = .ok () := by
      cases hrun : (v.run (p.groupScript opening group) s).2 with
      | ok => rfl
      | error e =>
        -- if it had failed, it would have done so at one of the annotations
        obtain ⟨front, a, after, hgroup, hbreak⟩ := exists_breaksOffAt hretention h v s hrun
        exact absurd hbreak (hnowhere front a after e hgroup)
    exact ⟨hok, openedAnnotations_of_run_ok hretention hopens h v s hok⟩
  broken _ _ _ _ h hbreak := openedAnnotations_of_breaksOffAt hretention hopens h hbreak
  accepting hv front a e h := by
    obtain ⟨hfront, hone⟩ := p.groupFailures_append_eq_nil.mp h
    refine and_congr_right fun hkeeps => ?_
    rw [← run_groupScript_eq_ok_iff hretention hscope hfront hv]
    have hends : ∀ {t : State} (header : AnnotationHeader), v.AcceptsAll t →
        ((v.run (p.annotationScript a) (v.visit t (opening header))).2 = .error e
          ↔ p.toldElements a.elements = .error e) := by
      intro t header ht
      rw [run_annotationScript_of_acceptsAll (ht.visit _), map_eq_error_iff]
    have hthere := hv.run (p.groupScript opening front)
    constructor
    · rintro ⟨t, header, hreached, -, -, hbroken⟩
      rw [hreached] at hthere ⊢
      exact ⟨rfl, (hends header hthere).mp hbroken⟩
    · rintro ⟨hreached, hfails⟩
      rcases groupScript_singleton hretention opening hone with
        ⟨hnot, -⟩ | ⟨-, header, hdescribes, -⟩
      · cases hnot.symm.trans hkeeps
      · exact ⟨_, header, Prod.ext rfl hreached, hdescribes, hthere [] _ (hscope header),
          (hends header hthere).mpr hfails⟩

end

/-- **Annotations are told all or none.** If something is wrong about an annotation of a
group, be it the last, nobody is told anything and the outcome is the first thing that is
wrong. Otherwise a visitor is told of the annotations that are kept, in their order and
with repeats, each with the descriptor of its type and visible if it is kept until run
time, up to the first that the visitor wants the values of and that breaks off. That goes
for annotations on a declaration and for annotations on a type. -/
theorem annotation_groups_all_or_none (p : Program)
    (hretention : Succeeds (p.qualifiedName .retention)) {State : Type} (v : Visitor State)
    (s : State) :
    p.TellsGroups .annotated p.declarationGroup v s
      ∧ ∀ (place : TypeReference) (path : TypePath),
        p.TellsGroups (.typeAnnotated place (toldPath path)) (p.typeGroup place path) v s :=
  ⟨groupScript_tellsGroups hretention (fun _ => rfl) (fun _ => rfl) v s,
    fun _ _ => groupScript_tellsGroups hretention (fun _ => rfl) (fun _ => rfl) v s⟩

/-- Two annotations of one type that is visible at run time, of which the second has a
class literal of an unknown class. One with the same value stands in front of it, but it
is only kept in the source, and that its type has no name does not matter either. What
stands behind does not change where the group breaks off, unless something is wrong about
it: an annotation that is kept of a type that has no name, or one of an unknown type. -/
theorem annotation_groups_all_or_none_recorded :
    let kind (name : String) (enclosing : Option ClassId) (annotations : List Annotation) :
        ClassDeclaration :=
      { ClassDeclaration.bare .annotationType "a" name with enclosing, annotations }
    let kinds := #[kind "R" none [.retention .runtime], kind "U" none [],
      kind "S" (some ⟨99⟩) [.retention .source], kind "N" (some ⟨99⟩) []]
    let p : Program := { Program.initial with classes := Program.initial.classes ++ kinds }
    let note (id : Nat) (elements : List Element) : Annotation := ⟨.plain ⟨id⟩, elements⟩
    let broken : Element := ⟨"value", .classLiteral (.declared (.plain ⟨99⟩))⟩
    let front := [note 6 [], note 8 [broken], note 7 []]
    let last := note 6 [broken]
    let v := recorder fun _ => .record
    let start : Recording := ⟨[], false⟩
    let script := p.declarationGroup (front ++ last :: [note 7 []])
    let nameless := p.declarationGroup (front ++ last :: [note 9 []])
    let unknown := p.typeGroup (.ofSort TypeReference.methodReturn) [.component]
      (front ++ last :: [note 42 [], note 9 []])
    Succeeds (p.qualifiedName .retention)
      ∧ p.BreaksOffAt .annotated p.declarationGroup v start front last (.unresolvedClass ⟨99⟩)
      ∧ (v.run script start).2 = .error (.unresolvedClass ⟨99⟩)
      ∧ openedAnnotations (v.visits script start)
        = [.annotated ⟨"La/R;", true⟩, .annotated ⟨"La/U;", false⟩, .annotated ⟨"La/R;", true⟩]
      ∧ (v.visits nameless start = []
        ∧ v.run nameless start = (start, .error (.unresolvedClass ⟨99⟩)))
      ∧ v.visits unknown start = []
      ∧ v.run unknown start = (start, .error (.unresolvedClass ⟨42⟩)) := by
  intro kind kinds p note broken front last v start script nameless unknown
  have hretention : Succeeds (p.qualifiedName .retention) :=
    ⟨"java.lang.annotation.Retention", by decide +kernel⟩
  have hv : v.AcceptsAll start := recorder_acceptsAll fun _ => rfl
  obtain ⟨hgroups, hparts⟩ := annotation_groups_all_or_none p hretention v start
  have hfront : ∀ b ∈ front, p.keeps b = true → Succeeds (p.toldElements b.elements) := by
    have hsource : p.keeps (note 8 [broken]) = false := by decide +kernel
    exact List.forall_mem_cons.mpr ⟨fun _ => .ok [], List.forall_mem_cons.mpr
      ⟨fun hkeeps => absurd (hsource.symm.trans hkeeps) Bool.false_ne_true,
        List.forall_mem_singleton.mpr fun _ => .ok []⟩⟩
  have hbroken : p.toldElements last.elements = .error (.unresolvedClass ⟨99⟩) := rfl
  have hbreak :
      p.BreaksOffAt .annotated p.declarationGroup v start front last (.unresolvedClass ⟨99⟩) :=
    (hgroups.accepting hv _ _ _ (by decide +kernel)).mpr ⟨by decide +kernel, hfront, hbroken⟩
  obtain ⟨hrun, -⟩ := hgroups.broken _ _ [note 7 []] _ (by decide +kernel) hbreak
  refine ⟨hretention, hbreak, hrun, by decide +kernel, hgroups.silent _ _ [] ?_, ?_⟩
  · decide +kernel
  · exact (hparts _ _).silent _ _ [.unresolvedClass ⟨42⟩, .unresolvedClass ⟨99⟩] (by decide +kernel)

end Program

end ClassFile
