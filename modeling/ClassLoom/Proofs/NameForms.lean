import ClassLoom.ClassName
import Mathlib.Data.List.Forall2
import Mathlib.Data.List.TakeWhile

/-!
# The forms of a class name

A class name shows itself with dots, with slashes, as the path of a class file, and cut into
package and simple name. The first three lead back to the name, and this file says which texts
are forms of which name (`ClassName.forms_agree`). Package and simple name are determined by
the name but do not always tell it, since the empty package may have had a dot after it.

Two facts about single characters carry it. Normalizing confuses a character with its
exchange and with nothing else (`exchanged_iff`), so texts name the same class just when they
are respellings of each other. And normalizing does not see whether slashes were written for
dots before (`dotFor_slashFor`), so it undoes that. In the other direction slashes are written
for every dot, and a path that has a dot before its ending is not the path of its class.
-/

namespace ClassLoom

/-! ## Separators -/

section Separators

variable {c d : Char} {text other : String}

theorem slashFor_ne_dot (c : Char) : slashFor c ≠ '.' := by
  unfold slashFor
  split
  · decide
  · assumption

theorem slashFor_of_ne (h : c ≠ '.') : slashFor c = c := if_neg h

theorem dotFor_of_ne (h : c ≠ '/') : dotFor c = c := if_neg h

theorem dotFor_slashFor (c : Char) : dotFor (slashFor c) = dotFor c := by
  by_cases hdot : c = '.'
  · rw [hdot]
    decide
  · rw [slashFor_of_ne hdot]

theorem slashFor_dotFor (c : Char) : slashFor (dotFor c) = slashFor c := by
  by_cases hslash : c = '/'
  · rw [hslash]
    decide
  · rw [dotFor_of_ne hslash]

/-- The characters are the same, or they are the two separators. -/
inductive Exchanged : Char → Char → Prop
  | same (c : Char) : Exchanged c c
  | toSlash : Exchanged '.' '/'
  | toDot : Exchanged '/' '.'

/-- The texts differ at most in that dots and slashes are exchanged at some positions. -/
def Respelled (text other : String) : Prop :=
  List.Forall₂ Exchanged text.toList other.toList

theorem exchanged_iff : Exchanged c d ↔ dotFor c = dotFor d := by
  constructor
  · rintro (_ | _ | _)
    · rfl
    · decide
    · decide
  · intro h
    by_cases hc : c = '/' <;> by_cases hd : d = '/'
    · rw [hc, hd]
      exact .same _
    · rw [hc, dotFor_of_ne hd] at h
      rw [hc, ← h]
      exact .toDot
    · rw [dotFor_of_ne hc, hd] at h
      rw [h, hd]
      exact .toSlash
    · rw [dotFor_of_ne hc, dotFor_of_ne hd] at h
      rw [h]
      exact .same _

theorem normalize_eq_iff : normalize text = normalize other ↔ Respelled text other := by
  rw [← String.toList_inj, toList_normalize, toList_normalize, ← List.forall₂_eq_eq_eq,
    List.forall₂_map_left_iff, List.forall₂_map_right_iff]
  simp only [← exchanged_iff]
  rfl

theorem map_eq_self_iff {f : Char → Char} {cs : List Char} :
    cs.map f = cs ↔ ∀ c ∈ cs, f c = c := by
  simpa using List.map_inj_left (f := f) (g := id) (l := cs)

theorem normalize_of_notMem (h : '/' ∉ text.toList) : normalize text = text := by
  rw [← String.toList_inj, toList_normalize, map_eq_self_iff]
  exact fun c hc => dotFor_of_ne fun hslash => h (hslash ▸ hc)

theorem normalize_normalize (text : String) : normalize (normalize text) = normalize text :=
  normalize_of_notMem (slash_notMem_normalize text)

end Separators

/-! ## Cutting at a character -/

section Cut

variable {stop : Char} {front text : List Char}

theorem ne_of_notMem (h : stop ∉ text) : ∀ c ∈ text, decide (c ≠ stop) = true := by
  intro c hc
  exact decide_eq_true fun hsame => h (hsame ▸ hc)

theorem takeWhile_cut (hfront : stop ∉ front) (rest : List Char) :
    (front ++ stop :: rest).takeWhile (· ≠ stop) = front := by
  rw [List.takeWhile_append_of_pos (ne_of_notMem hfront)]
  simp

theorem dropWhile_cut (hfront : stop ∉ front) (rest : List Char) :
    (front ++ stop :: rest).dropWhile (· ≠ stop) = stop :: rest := by
  rw [List.dropWhile_append_of_pos (ne_of_notMem hfront)]
  simp

theorem takeWhile_of_notMem (h : stop ∉ text) : text.takeWhile (· ≠ stop) = text :=
  List.takeWhile_eq_self_iff.mpr (ne_of_notMem h)

theorem dropWhile_of_notMem (h : stop ∉ text) : text.dropWhile (· ≠ stop) = [] :=
  List.dropWhile_eq_nil_iff.mpr (ne_of_notMem h)

theorem exists_cut_at_last (h : stop ∈ text) :
    ∃ before after, text = before ++ stop :: after ∧ stop ∉ after := by
  obtain ⟨after, before, hsplit, hafter⟩ := List.eq_append_cons_of_mem (List.mem_reverse.mpr h)
  refine ⟨before.reverse, after.reverse, ?_, fun hmem => hafter (List.mem_reverse.mp hmem)⟩
  rw [← List.reverse_reverse text, hsplit]
  simp

end Cut

namespace ClassName

/-! ## Both spellings -/

theorem dotted_inj {m n : ClassName} : m.dotted = n.dotted ↔ m = n := by
  rw [ClassName.mk.injEq]

theorem of_eq_iff_respelled {text other : String} : of text = of other ↔ Respelled text other := by
  rw [← dotted_inj]
  exact normalize_eq_iff

theorem of_dotted (n : ClassName) : of n.dotted = n :=
  dotted_inj.mp (normalize_of_notMem n.noSlash)

theorem toList_internal (n : ClassName) : n.internal.toList = n.dotted.toList.map slashFor := by
  simp [internal]

theorem toList_internal_of (text : String) :
    (of text).internal.toList = text.toList.map slashFor := by
  show (String.ofList ((normalize text).toList.map slashFor)).toList = _
  rw [String.toList_ofList, toList_normalize, List.map_map]
  exact List.map_congr_left fun c _ => slashFor_dotFor c

theorem of_internal (n : ClassName) : of n.internal = n := by
  refine Eq.trans (dotted_inj.mp ?_) n.of_dotted
  show normalize n.internal = normalize n.dotted
  rw [← String.toList_inj, toList_normalize, toList_normalize, toList_internal, List.map_map]
  exact List.map_congr_left fun c _ => dotFor_slashFor c

theorem internal_of_eq_self_iff {text : String} :
    (of text).internal = text ↔ '.' ∉ text.toList := by
  rw [← String.toList_inj, toList_internal_of, map_eq_self_iff]
  constructor
  · exact fun h hdot => slashFor_ne_dot '.' (h '.' hdot)
  · exact fun h c hc => slashFor_of_ne fun hdot => h (hdot ▸ hc)

/-! ## Resource paths -/

section Paths

variable {text ending stem path : String}

theorem toList_resourcePath (n : ClassName) :
    n.resourcePath.toList = n.dotted.toList.map slashFor ++ suffix.toList := by
  simp [resourcePath, toList_internal]

theorem dropEnding?_eq_some_iff : dropEnding? text ending = some stem ↔ text = stem ++ ending := by
  unfold dropEnding?
  constructor
  · intro h
    split at h
    · next hends =>
        obtain ⟨front, hfront⟩ := List.isSuffixOf_iff_suffix.mp hends
        rw [← hfront, List.take_left' (by simp)] at h
        rw [← String.toList_inj, ← hfront, ← Option.some.inj h]
        simp
    · cases h
  · rintro rfl
    have hends : ending.toList.isSuffixOf (stem ++ ending).toList = true := by
      rw [List.isSuffixOf_iff_suffix, String.toList_append]
      exact List.suffix_append _ _
    rw [if_pos hends, String.toList_append, List.take_left' (by simp), String.ofList_toList]

theorem ofResourcePath?_eq_some_iff {n : ClassName} :
    ofResourcePath? path = some n ↔ ∃ stem, path = stem ++ suffix ∧ of stem = n := by
  rw [ofResourcePath?, Option.map_eq_some_iff]
  simp only [dropEnding?_eq_some_iff]

theorem ofResourcePath?_append (stem : String) :
    ofResourcePath? (stem ++ suffix) = some (of stem) :=
  ofResourcePath?_eq_some_iff.mpr ⟨stem, rfl, rfl⟩

theorem isSome_ofResourcePath?_iff :
    (ofResourcePath? path).isSome = true ↔ ∃ stem, path = stem ++ suffix := by
  rw [Option.isSome_iff_exists]
  simp only [ofResourcePath?_eq_some_iff]
  constructor
  · rintro ⟨-, stem, hpath, -⟩
    exact ⟨stem, hpath⟩
  · rintro ⟨stem, hpath⟩
    exact ⟨of stem, stem, hpath, rfl⟩

theorem ofResourcePath?_resourcePath (n : ClassName) : ofResourcePath? n.resourcePath = some n :=
  ofResourcePath?_eq_some_iff.mpr ⟨n.internal, rfl, n.of_internal⟩

theorem resourcePath_of_eq_iff : (of stem).resourcePath = stem ++ suffix ↔ '.' ∉ stem.toList := by
  rw [resourcePath, String.append_left_inj, internal_of_eq_self_iff]

end Paths

/-! ## Package and simple name -/

/-- The last dot of the dotted name separates the package from the simple name; a name without
a dot is a simple name, and its package is empty. -/
structure Parts (dotted package simple : String) : Prop where
  dot_notMem : '.' ∉ simple.toList
  qualified : '.' ∈ dotted.toList → dotted = package ++ "." ++ simple
  bare : '.' ∉ dotted.toList → package = "" ∧ dotted = simple

section Parts

variable {n : ClassName} {package simple : String}

theorem parts_of_qualified (h : n.dotted = package ++ "." ++ simple)
    (hlast : '.' ∉ simple.toList) : n.package = package ∧ n.simpleName = simple := by
  have hreverse : n.dotted.toList.reverse =
      simple.toList.reverse ++ '.' :: package.toList.reverse := by
    rw [h]
    simp
  have hstop : '.' ∉ simple.toList.reverse := fun hmem => hlast (List.mem_reverse.mp hmem)
  constructor
  · rw [ClassName.package, hreverse, dropWhile_cut hstop]
    simp
  · rw [simpleName, hreverse, takeWhile_cut hstop]
    simp

theorem parts_of_bare (h : '.' ∉ n.dotted.toList) :
    n.package = "" ∧ n.simpleName = n.dotted := by
  have hstop : '.' ∉ n.dotted.toList.reverse := fun hmem => h (List.mem_reverse.mp hmem)
  constructor
  · rw [ClassName.package, dropWhile_of_notMem hstop]
    rfl
  · rw [simpleName, takeWhile_of_notMem hstop]
    simp

theorem parts_self (n : ClassName) : Parts n.dotted n.package n.simpleName := by
  by_cases hdot : '.' ∈ n.dotted.toList
  · obtain ⟨before, after, hcut, hlast⟩ := exists_cut_at_last hdot
    have hdotted : n.dotted = String.ofList before ++ "." ++ String.ofList after := by
      rw [← String.toList_inj, hcut]
      simp
    obtain ⟨hpackage, hsimple⟩ := parts_of_qualified hdotted (by simpa using hlast)
    rw [hpackage, hsimple]
    exact ⟨by simpa using hlast, fun _ => hdotted, fun hbare => absurd hdot hbare⟩
  · obtain ⟨hpackage, hsimple⟩ := parts_of_bare hdot
    rw [hpackage, hsimple]
    exact ⟨hdot, fun hqualified => absurd hqualified hdot, fun _ => ⟨rfl, rfl⟩⟩

theorem parts_iff : Parts n.dotted package simple ↔
    package = n.package ∧ simple = n.simpleName := by
  constructor
  · intro h
    by_cases hdot : '.' ∈ n.dotted.toList
    · obtain ⟨hpackage, hsimple⟩ := parts_of_qualified (h.qualified hdot) h.dot_notMem
      exact ⟨hpackage.symm, hsimple.symm⟩
    · obtain ⟨hempty, hwhole⟩ := h.bare hdot
      obtain ⟨hpackage, hsimple⟩ := parts_of_bare hdot
      exact ⟨hempty.trans hpackage.symm, hwhole.symm.trans hsimple.symm⟩
  · rintro ⟨rfl, rfl⟩
    exact n.parts_self

end Parts

-- A dot in front makes another name of the same parts.
example : Parts (of ".A").dotted "" "A" ∧ Parts (of "A").dotted "" "A" ∧ of ".A" ≠ of "A" := by
  rw [parts_iff, parts_iff]
  decide +kernel

/-! ## All forms -/

/-- However a class is named, the dotted name has no slash, and it, the name with slashes and
the resource path lead back to the name. Package and simple name are the only texts that make
up the dotted name in the way `Parts` says. Texts name the same class just when they differ in
no more than exchanged separators. A path is a class file's just when it ends in `.class`, and
it is the resource path of that class just when no dot stands before this ending. -/
theorem forms_agree (text other path : String) :
    let n := of text
    '/' ∉ n.dotted.toList ∧
    of n.dotted = n ∧ of n.internal = n ∧
    ofResourcePath? n.resourcePath = some n ∧
    (∀ package simple, Parts n.dotted package simple ↔
      package = n.package ∧ simple = n.simpleName) ∧
    (of text = of other ↔ Respelled text other) ∧
    ((ofResourcePath? path).isSome = true ↔ ∃ stem, path = stem ++ ".class") ∧
    ∀ stem, ofResourcePath? (stem ++ ".class") = some (of stem) ∧
      ((of stem).resourcePath = stem ++ ".class" ↔ '.' ∉ stem.toList) := by
  intro n
  exact ⟨slash_notMem_normalize text, n.of_dotted, n.of_internal, n.ofResourcePath?_resourcePath,
    fun _ _ => parts_iff, of_eq_iff_respelled, isSome_ofResourcePath?_iff,
    fun stem => ⟨ofResourcePath?_append stem, resourcePath_of_eq_iff⟩⟩

-- The path of a class in a folder with a dot in its name is not the path that was given.
example : (ofResourcePath? "v1.2/A.class").map resourcePath = some "v1/2/A.class" := by
  decide +kernel

end ClassName

end ClassLoom
