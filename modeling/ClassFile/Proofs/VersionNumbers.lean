import ClassFile.Version
import Mathlib.Tactic.IntervalCases

/-!
# A version is its pair of numbers

A class file says which format it has by a pair of numbers, and a version says
so by a constructor. Nothing is lost between the two: a pair is read if it is
one of a released format, and the version then has these numbers and no
others (`Version.ofNumbers_isReading`). Nor is anything lost when both numbers
are packed into one word (`Version.word_eq_iff`).

Versions are ordered as their constructors are listed, and numbers are
ordered as numbers. That the two orders agree is because the major number
counts the constructors: it is 45 and the place of the constructor in the list
(`Version.toNat_major_eq`), and only the last constructor, which stands for
several releases, goes on counting inside. The minor number decides between
versions of one release alone. So the order is the lexicographic one of the
pairs of numbers (`Version.compare_eq_numbers`).
-/

namespace ClassFile

namespace Version

/-! ## Reading a pair of numbers

A version is read by the major number, and the minor number is looked at
afterwards. So a major number of a released format with a wrong minor number
is an error as well, and it is the same error. -/

/-- **The pairs of numbers of released formats.** -/
def IsReleased (major minor : UInt16) : Prop :=
  major.toNat = 45
    ∨ (46 ≤ major.toNat ∧ major.toNat ≤ 55 ∧ minor = 0)
    ∨ (firstLaterMajor ≤ major.toNat ∧ major.toNat ≤ lastMajor
      ∧ (minor = 0 ∨ minor = previewMinor))

/-- **What comes of reading a pair of numbers:** a version with these numbers
if they are of a released format, and else an error that names them. -/
inductive IsReading (major minor : UInt16) : Except Error Version → Prop
  | version {v : Version} (h : IsReleased major minor) (hmajor : v.major = major)
    (hminor : v.minor = minor) : IsReading major minor (.ok v)
  | unsupported (h : ¬ IsReleased major minor) :
    IsReading major minor (.error (.unsupportedVersion major minor))

variable {v w : Version} {major minor : UInt16}

/-- A format with one minor number is read with that one only. -/
theorem isReading_fixed (h : 46 ≤ major.toNat ∧ major.toNat ≤ 55) (hmajor : v.major = major)
    (hminor : v.minor = 0) :
    IsReading major minor
      (if minor = 0 then .ok v else .error (.unsupportedVersion major minor)) := by
  split
  · next hzero =>
    exact .version (.inr (.inl ⟨h.1, h.2, hzero⟩)) hmajor (hminor.trans hzero.symm)
  · next hother =>
    refine .unsupported ?_
    rintro (hfirst | ⟨-, -, hzero⟩ | ⟨hlater, -⟩)
    · omega
    · exact hother hzero
    · unfold firstLaterMajor at hlater
      omega

/-- A later format is read with either of two minor numbers. -/
theorem isReading_later {release : Fin 13}
    (hmajor : UInt16.ofNat (firstLaterMajor + release) = major)
    (h : firstLaterMajor ≤ major.toNat ∧ major.toNat ≤ lastMajor) :
    IsReading major minor
      (if minor = 0 then .ok (later release false)
      else if minor = previewMinor then .ok (later release true)
      else .error (.unsupportedVersion major minor)) := by
  split
  · next hzero =>
    exact .version (.inr (.inr ⟨h.1, h.2, .inl hzero⟩)) hmajor hzero.symm
  split
  · next hpreview =>
    exact .version (.inr (.inr ⟨h.1, h.2, .inr hpreview⟩)) hmajor hpreview.symm
  · -- neither minor number fits, and the major number belongs to no earlier format
    next hzero hpreview =>
    have hfirst := h.1
    unfold firstLaterMajor at hfirst
    refine .unsupported ?_
    rintro (hmajor | ⟨-, hearly, -⟩ | ⟨-, -, hminor⟩)
    · omega
    · omega
    · exact hminor.elim hzero hpreview

/-- **Reading a pair of numbers** gives the version with these numbers exactly
if they are of a released format. -/
theorem ofNumbers_isReading (major minor : UInt16) :
    IsReading major minor (ofNumbers major minor) := by
  have hword : ∀ {n}, major.toNat = n → UInt16.ofNat n = major := by
    rintro _ rfl
    exact UInt16.ofNat_toNat
  unfold ofNumbers
  dsimp only
  split
  case h_1 h => exact .version (.inl h) (hword h) rfl
  case h_12 =>
    split
    · next h => exact isReading_later (hword (Nat.add_sub_of_le h.1).symm) h
    · next h =>
      refine .unsupported ?_
      rintro (hfirst | ⟨hlow, hhigh, -⟩ | ⟨hlow, hhigh, -⟩)
      · contradiction
      · interval_cases major.toNat <;> contradiction
      · exact h ⟨hlow, hhigh⟩
  -- the formats between have one minor number each
  all_goals
    next h => exact isReading_fixed (by omega) (hword h) rfl

theorem ofNumbers_isOk_iff : (∃ v, ofNumbers major minor = .ok v) ↔ IsReleased major minor := by
  have hreading := ofNumbers_isReading major minor
  constructor
  · rintro ⟨v, hv⟩
    rw [hv] at hreading
    cases hreading with
    | version h => exact h
  · intro h
    generalize ofNumbers major minor = x at hreading
    cases hreading with
    | version => exact ⟨_, rfl⟩
    | unsupported hnot => exact absurd h hnot

/-- What is read has the numbers it was read from. -/
theorem numbers_of_ofNumbers (h : ofNumbers major minor = .ok v) :
    v.major = major ∧ v.minor = minor := by
  have hreading := ofNumbers_isReading major minor
  rw [h] at hreading
  cases hreading with
  | version _ hmajor hminor => exact ⟨hmajor, hminor⟩

/-- The error names the pair that is not read. -/
theorem eq_unsupported_of_ofNumbers {e : Error} (h : ofNumbers major minor = .error e) :
    e = .unsupportedVersion major minor := by
  have hreading := ofNumbers_isReading major minor
  rw [h] at hreading
  cases hreading with
  | unsupported => rfl

/-- **Every version is read** from its numbers. -/
theorem ofNumbers_numbers (v : Version) : ofNumbers v.major v.minor = .ok v := by
  cases v with
  | jdk1_1 minor => rfl
  | later release preview => decide +revert
  | _ => rfl

/-- A version is its pair of numbers. -/
theorem eq_of_numbers (hmajor : v.major = w.major) (hminor : v.minor = w.minor) : v = w := by
  have hv := v.ofNumbers_numbers
  rw [hmajor, hminor, w.ofNumbers_numbers] at hv
  exact (Except.ok.inj hv).symm

/-! ## Both numbers in one word

Both numbers have 16 bits, so shifting the one by 16 leaves room for the
other. -/

/-- **The word is the sum** of the major number and 65536 times the minor number. -/
theorem toNat_word (v : Version) : v.word.toNat = v.minor.toNat * 65536 + v.major.toNat := by
  have hmajor : v.major.toNat < 2 ^ 16 := v.major.toNat_lt
  have hminor : v.minor.toNat < 2 ^ 16 := v.minor.toNat_lt
  have hshift : (v.minor.toUInt32 <<< 16).toNat = v.minor.toNat <<< 16 := by
    have hplaces : (16 : UInt32).toNat % 32 = 16 := rfl
    rw [UInt32.toNat_shiftLeft, UInt16.toNat_toUInt32, hplaces, Nat.shiftLeft_eq]
    -- nothing is shifted out
    exact Nat.mod_eq_of_lt (by omega)
  unfold word
  rw [UInt32.toNat_or, hshift, UInt16.toNat_toUInt32, ← Nat.shiftLeft_add_eq_or_of_lt hmajor,
    Nat.shiftLeft_eq]

/-- **Words are equal** only if both numbers are. -/
theorem word_eq_iff : v.word = w.word ↔ v.major = w.major ∧ v.minor = w.minor := by
  have hv := v.major.toNat_lt
  have hw := w.major.toNat_lt
  rw [← UInt32.toNat_inj, toNat_word, toNat_word, ← UInt16.toNat_inj, ← UInt16.toNat_inj]
  omega

/-! ## The order of versions

The order on versions comes with the type: constructors as they are listed,
and within one constructor its arguments. It is compared with the order on
numbers by looking at two versions at once, in the four ways in which they may
stand to each other (`Standing`). What there is to know of formats with one
minor number is the same for all ten of them (`IsFixed`). -/

theorem ctorIdx_le (v : Version) : v.ctorIdx ≤ 11 := by
  cases v <;> exact Nat.le_of_ble_eq_true rfl

theorem toNat_major_later (release : Fin 13) (preview : Bool) :
    (later release preview).major.toNat = firstLaterMajor + release := by
  refine UInt16.toNat_ofNat_of_lt' ?_
  show 56 + release.val < 65536
  omega

/-- **The major number counts the formats,** from 45 on; the releases of the last format
are counted on from there. -/
theorem toNat_major_eq (h : v.ctorIdx < 11) : v.major.toNat = 45 + v.ctorIdx := by
  cases v with
  | later => exact absurd h (Nat.lt_irrefl 11)
  | _ => rfl

theorem le_toNat_major (v : Version) : 45 + v.ctorIdx ≤ v.major.toNat := by
  cases v with
  | later release preview =>
    rw [toNat_major_later]
    exact Nat.le_add_right 56 release
  | _ => exact Nat.le_refl _

theorem major_lt_of_ctorIdx_lt (h : v.ctorIdx < w.ctorIdx) : v.major < w.major := by
  have hv := toNat_major_eq (Nat.lt_of_lt_of_le h w.ctorIdx_le)
  have hw := w.le_toNat_major
  rw [UInt16.lt_iff_toNat_lt]
  omega

/-- A format that has one minor number for its one major number. -/
structure IsFixed (v : Version) : Prop where
  minor : v.minor = 0
  compare_self : compare v v = .eq
  partialCompare_self : v.partialCompare v = some .eq

theorem exists_of_ctorIdx_first (h : v.ctorIdx = 0) : ∃ minor, v = jdk1_1 minor := by
  cases v with
  | jdk1_1 minor => exact ⟨minor, rfl⟩
  | _ => contradiction

theorem exists_of_ctorIdx_last (h : v.ctorIdx = 11) :
    ∃ release preview, v = later release preview := by
  cases v with
  | later release preview => exact ⟨release, preview, rfl⟩
  | _ => contradiction

theorem isFixed_of_ctorIdx (hfirst : v.ctorIdx ≠ 0) (hlast : v.ctorIdx ≠ 11) : v.IsFixed := by
  cases v with
  | jdk1_1 | later => contradiction
  | _ => exact ⟨rfl, rfl, rfl⟩

/-- **How two versions may stand to each other:** they are of different formats, or of
the first, or later ones, or the same. -/
inductive Standing : Version → Version → Prop
  | apart {v w : Version} (h : v.ctorIdx ≠ w.ctorIdx) : Standing v w
  | first (minor minor' : UInt16) : Standing (jdk1_1 minor) (jdk1_1 minor')
  | later (release release' : Fin 13) (preview preview' : Bool) :
    Standing (later release preview) (later release' preview')
  | same {v : Version} (h : v.IsFixed) : Standing v v

/-- **Any two versions stand to each other in one of these ways.** Which one
is a question of the constructors. -/
theorem standing (v w : Version) : Standing v w := by
  by_cases h : v.ctorIdx = w.ctorIdx
  case neg => exact .apart h
  by_cases hfirst : v.ctorIdx = 0
  · obtain ⟨minor, rfl⟩ := exists_of_ctorIdx_first hfirst
    obtain ⟨minor', rfl⟩ := exists_of_ctorIdx_first h.symm
    exact .first minor minor'
  by_cases hlast : v.ctorIdx = 11
  · obtain ⟨release, preview, rfl⟩ := exists_of_ctorIdx_last hlast
    obtain ⟨release', preview', rfl⟩ := exists_of_ctorIdx_last h.symm
    exact .later release release' preview preview'
  -- of the formats between, the place in the list says both numbers
  · have hv := isFixed_of_ctorIdx hfirst hlast
    have hw := isFixed_of_ctorIdx (h ▸ hfirst) (h ▸ hlast)
    have hlt : v.ctorIdx < 11 := Nat.lt_of_le_of_ne v.ctorIdx_le hlast
    have hmajor : v.major = w.major := by
      rw [← UInt16.toNat_inj, toNat_major_eq hlt, toNat_major_eq (h ▸ hlt), h]
    obtain rfl := eq_of_numbers hmajor (hv.minor.trans hw.minor.symm)
    exact .same hv

/-- Different formats are compared as the places at which they are listed. -/
theorem compare_of_ctorIdx_ne (h : v.ctorIdx ≠ w.ctorIdx) :
    compare v w = compare v.ctorIdx w.ctorIdx := by
  show instOrdVersion.ord v w = _
  unfold instOrdVersion.ord
  split
  · next hlt => exact hlt.symm
  · next hgt => exact hgt.symm
  · next heq => exact absurd (Nat.compare_eq_eq.mp heq) h

theorem compare_first (minor minor' : UInt16) :
    compare (jdk1_1 minor) (jdk1_1 minor') = compare minor minor' :=
  Ordering.then_eq

theorem compare_later (release release' : Fin 13) (preview preview' : Bool) :
    compare (later release preview) (later release' preview')
      = (compare release release').then (compare preview preview') :=
  congrArg (compare release release').then Ordering.then_eq

theorem thenCompare_some (o o' : Ordering) : thenCompare (some o) (some o') = some (o.then o') := by
  cases o <;> rfl

/-- **Any two versions can be compared.** -/
theorem partialCompare_eq (v w : Version) : v.partialCompare w = some (compare v w) := by
  cases standing v w with
  | apart h =>
    unfold partialCompare
    split
    · exact absurd rfl h
    · exact absurd rfl h
    · exact congrArg some (compare_of_ctorIdx_ne h).symm
  | first minor minor' => exact congrArg some (compare_first minor minor').symm
  | later release release' preview preview' =>
    rw [compare_later, ← thenCompare_some]
    rfl
  | same h => rw [h.compare_self, h.partialCompare_self]

/-- The later releases are compared as their major numbers are. -/
theorem compare_major_later (release release' : Fin 13) (preview preview' : Bool) :
    compare (later release preview).major (later release' preview').major
      = compare release release' := by
  rw [UInt16.compare_eq_toNat_compare_toNat, toNat_major_later, toNat_major_later,
    ← cmp_eq_compare, cmp_add_left, cmp_eq_compare]
  rfl

/-- The minor number of a later release tells whether it is a preview. -/
theorem compare_minor_later (release release' : Fin 13) (preview preview' : Bool) :
    compare (later release preview).minor (later release' preview').minor
      = compare preview preview' := by
  cases preview <;> cases preview' <;> rfl

/-- **Versions are compared as their numbers are,** the major numbers first. -/
theorem compare_eq_numbers (v w : Version) :
    compare v w = lexOrd.compare (v.major, v.minor) (w.major, w.minor) := by
  show _ = (compare v.major w.major).then (compare v.minor w.minor)
  cases standing v w with
  | apart h =>
    rw [compare_of_ctorIdx_ne h]
    rcases Nat.lt_or_gt_of_ne h with hlt | hgt
    · -- different formats have different major numbers, and the minor ones do not count
      have hmajor := major_lt_of_ctorIdx_lt hlt
      rw [Std.compare_eq_lt.mpr hlt, Std.compare_eq_lt.mpr hmajor]
      rfl
    · have hmajor := major_lt_of_ctorIdx_lt hgt
      rw [Std.compare_eq_gt.mpr hgt, Std.compare_eq_gt.mpr hmajor]
      rfl
  | first minor minor' => exact compare_first minor minor'
  | later release release' preview preview' =>
    rw [compare_later, compare_major_later, compare_minor_later]
  | same h =>
    rw [h.compare_self, Std.compare_self, Std.compare_self]
    rfl

/-! ## Versions and numbers

What is read is compared through its numbers, so every statement about two
versions below is one about the pairs that they were read from. -/

/-- **A version is its pair of numbers.** A pair is read if it is of a released
format, and otherwise the error names it. The version that is read has the numbers it
was read from. The word of a version is made of both numbers and tells different pairs
apart. Two versions that were read can be compared, and compare as their pairs of
numbers do, lexicographically. -/
theorem versions_agree_with_numbers (major minor : UInt16) :
    ((∃ v, ofNumbers major minor = .ok v) ↔ IsReleased major minor)
      ∧ (∀ e, ofNumbers major minor = .error e → e = .unsupportedVersion major minor)
      ∧ ∀ v, ofNumbers major minor = .ok v →
        v.major = major ∧ v.minor = minor
          ∧ v.word.toNat = minor.toNat * 65536 + major.toNat
          ∧ ∀ major' minor' w, ofNumbers major' minor' = .ok w →
            (v.word = w.word → major = major' ∧ minor = minor')
              ∧ v.partialCompare w = some (compare v w)
              ∧ compare v w = lexOrd.compare (major, minor) (major', minor') := by
  refine ⟨ofNumbers_isOk_iff, fun e he => ?_, fun v hv => ?_⟩
  · exact eq_unsupported_of_ofNumbers he
  · obtain ⟨rfl, rfl⟩ := numbers_of_ofNumbers hv
    refine ⟨rfl, rfl, v.toNat_word, fun major' minor' w hw => ?_⟩
    obtain ⟨rfl, rfl⟩ := numbers_of_ofNumbers hw
    exact ⟨word_eq_iff.mp, v.partialCompare_eq w, v.compare_eq_numbers w⟩

/-- Files of JDK 17 with and without features in preview. The former come later, and the
word of theirs has all bits of its upper half. -/
theorem versions_agree_with_numbers_preview :
    ofNumbers 61 65535 = .ok (later 5 true) ∧ ofNumbers 61 0 = .ok (later 5 false)
      ∧ (later 5 true).word.toNat = 0xFFFF003D
      ∧ (later 5 true).partialCompare (later 5 false) = some .gt := by
  have hpreview : ofNumbers 61 65535 = .ok (later 5 true) := by decide
  have hrelease : ofNumbers 61 0 = .ok (later 5 false) := by decide
  obtain ⟨-, -, hread⟩ := versions_agree_with_numbers 61 65535
  obtain ⟨-, -, hword, hothers⟩ := hread _ hpreview
  obtain ⟨-, hdefined, hcompare⟩ := hothers 61 0 _ hrelease
  refine ⟨hpreview, hrelease, hword, ?_⟩
  rw [hdefined, hcompare]
  rfl

end Version

end ClassFile
