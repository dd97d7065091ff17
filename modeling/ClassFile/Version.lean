import ClassFile.Error

/-!
# Class-file versions

A class file starts with a pair of numbers, minor and major, and only some
pairs belong to a released format. `Version` has exactly the released ones:
every minor number is one of the first format, the formats up to JDK 11 have
minor number 0, and the later ones have a second minor number for files that
depend on features in preview.
-/

namespace ClassFile

/-- A released class-file format. The later formats are counted from JDK 12,
whose major number is 56, and there are thirteen of them. A program that puts
a version of a later format together without `ofNumbers`, to write a class file
with it, could give it a major number outside of 56 to 68. That belongs to no
release, and versions like it are left out. -/
inductive Version where
  | jdk1_1 (minor : UInt16)
  | jdk1_2
  | jdk1_3
  | jdk1_4
  | jdk5
  | jdk6
  | jdk7
  | jdk8
  | jdk9
  | jdk10
  | jdk11
  | later (release : Fin 13) (preview : Bool)
  deriving DecidableEq, Repr, Ord

namespace Version

/-- The format written when none is asked for. -/
def default : Version := jdk8

/-- The major number of JDK 12. -/
def firstLaterMajor : Nat := 56

/-- The major number of the last release. -/
def lastMajor : Nat := 68

/-- The minor number of files that depend on features in preview. -/
def previewMinor : UInt16 := 65535

/-- **The format of a pair of numbers,** if there is one. -/
def ofNumbers (major minor : UInt16) : Except Error Version :=
  let unsupported := .error (.unsupportedVersion major minor)
  let fixed (v : Version) : Except Error Version := if minor = 0 then .ok v else unsupported
  match major.toNat with
  | 45 => .ok (jdk1_1 minor)
  | 46 => fixed jdk1_2
  | 47 => fixed jdk1_3
  | 48 => fixed jdk1_4
  | 49 => fixed jdk5
  | 50 => fixed jdk6
  | 51 => fixed jdk7
  | 52 => fixed jdk8
  | 53 => fixed jdk9
  | 54 => fixed jdk10
  | 55 => fixed jdk11
  -- the later releases are consecutive, and the two minor numbers of one are the one for released
  -- features and the one for features in preview
  | n =>
    if h : firstLaterMajor ≤ n ∧ n ≤ lastMajor then
      let release : Fin 13 :=
        ⟨n - firstLaterMajor, Nat.lt_succ_of_le (Nat.sub_le_sub_right h.2 firstLaterMajor)⟩
      if minor = 0 then .ok (later release false)
      else if minor = previewMinor then .ok (later release true)
      else unsupported
    else unsupported

def major : Version → UInt16
  | jdk1_1 _ => 45
  | jdk1_2 => 46
  | jdk1_3 => 47
  | jdk1_4 => 48
  | jdk5 => 49
  | jdk6 => 50
  | jdk7 => 51
  | jdk8 => 52
  | jdk9 => 53
  | jdk10 => 54
  | jdk11 => 55
  | later release _ => UInt16.ofNat (firstLaterMajor + release)

/-- Whether the file may depend on features in preview. -/
def isPreview : Version → Bool
  | later _ preview => preview
  | _ => false

def minor : Version → UInt16
  | jdk1_1 minor => minor
  | later _ true => previewMinor
  | _ => 0

/-- Both numbers in one word, the minor number in its upper half. -/
def word (v : Version) : UInt32 := v.minor.toUInt32 <<< 16 ||| v.major.toUInt32

/-- Goes by the first of two comparisons, unless that finds things equal. Where
it is undefined, so is the whole. -/
def thenCompare (first second : Option Ordering) : Option Ordering :=
  match first with
  | some .eq => second
  | decided => decided

/-- **How versions compare:** by their formats, in the order in which these are
listed, and within one format by what it holds, from the front. -/
def partialCompare : Version → Version → Option Ordering
  | jdk1_1 minor, jdk1_1 minor' => some (compare minor minor')
  | later release preview, later release' preview' =>
    thenCompare (some (compare release release')) (some (compare preview preview'))
  | v, w => some (compare v.ctorIdx w.ctorIdx)

/-- The text of a version: major and minor number. -/
def text (v : Version) : String := toString v.major ++ "." ++ toString v.minor

end Version

end ClassFile
