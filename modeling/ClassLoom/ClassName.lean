/-!
# Class names

A class is named with dots (`a.b.C`) at run time and with slashes (`a/b/C`)
inside class files and archives. The two spellings name the same class, so a
`ClassName` keeps one of them, the dotted one, and every comparison of names in
the library is a comparison of dotted spellings.

The normal form is part of the type: a `ClassName` cannot hold a slash. Hence
`ClassName.of` is the only way in from free text, and asking it again for a name
it already produced changes nothing.
-/

namespace ClassLoom

/-- The separator of the dotted spelling, for either separator. -/
def dotFor (c : Char) : Char :=
  if c = '/' then '.' else c

/-- The separator of the internal spelling, for either separator. -/
def slashFor (c : Char) : Char :=
  if c = '.' then '/' else c

theorem dotFor_ne_slash (c : Char) : dotFor c ≠ '/' := by
  unfold dotFor
  split
  · decide
  · assumption

/-- The dotted spelling of a name or of a name's beginning. -/
def normalize (text : String) : String :=
  String.ofList (text.toList.map dotFor)

theorem toList_normalize (text : String) :
    (normalize text).toList = text.toList.map dotFor := by
  simp [normalize]

theorem slash_notMem_normalize (text : String) : '/' ∉ (normalize text).toList := by
  intro h
  rw [toList_normalize, List.mem_map] at h
  obtain ⟨c, _, hc⟩ := h
  exact dotFor_ne_slash c hc

/-- Whether `text` begins with `start`. -/
def startsWith (text start : String) : Bool :=
  start.toList.isPrefixOf text.toList

/-- A class name, kept in its dotted spelling. -/
structure ClassName where
  /-- The name with its packages separated by dots. -/
  dotted : String
  /-- The dotted spelling has no slash. -/
  noSlash : '/' ∉ dotted.toList
  deriving DecidableEq

namespace ClassName

/-- The class that `text` names, in whichever spelling. -/
def of (text : String) : ClassName :=
  ⟨normalize text, slash_notMem_normalize text⟩

instance : Inhabited ClassName := ⟨of ""⟩

/-- The name with its packages separated by slashes, as class files hold it. -/
def internal (n : ClassName) : String :=
  String.ofList (n.dotted.toList.map slashFor)

/-- The ending of a class file's path. -/
def suffix : String := ".class"

/-- The path of the class file below a class path root. -/
def resourcePath (n : ClassName) : String :=
  n.internal ++ suffix

/-- The text before `ending`, if `text` ends with it. -/
def dropEnding? (text ending : String) : Option String :=
  if ending.toList.isSuffixOf text.toList then
    some (String.ofList (text.toList.take (text.toList.length - ending.toList.length)))
  else
    none

/-- The class whose file is at `path`; none if the path is no class file's. -/
def ofResourcePath? (path : String) : Option ClassName :=
  (dropEnding? path suffix).map of

/-- The part after the last dot, or the whole name if it has no dot. -/
def simpleName (n : ClassName) : String :=
  String.ofList (n.dotted.toList.reverse.takeWhile (· ≠ '.')).reverse

/-- The part before the last dot, empty if the name has no dot. -/
def package (n : ClassName) : String :=
  String.ofList ((n.dotted.toList.reverse.dropWhile (· ≠ '.')).drop 1).reverse

/-- Names are ordered by the code points of their dotted spellings. -/
def order (a b : ClassName) : Ordering :=
  compareOfLessAndEq a.dotted b.dotted

end ClassName

end ClassLoom
