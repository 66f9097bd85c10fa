import ClassLoom.ClassFile.Verify
import ClassLoom.Proofs.NameForms
import Mathlib.Algebra.GroupWithZero.Nat

/-!
# What a descriptor is

The recognizer cuts a text at characters: it sweeps over the brackets of an array,
looks for the next semicolon, and for a method it looks for the first closing
parenthesis before it has seen a single argument. This file says which texts come
through, in terms of a grammar that knows of no cutting. `IsFieldType` is the
grammar of field types, and a `MethodType` is a method descriptor taken apart.

Everything rests on one property of field types: each of them tells by its own text
where it ends, so no field type is the beginning of another
(`IsFieldType.append_inj`). From it follow that the recognizer finds what the grammar
has put together, that a text is put together in one way only, and what the early
cut at a closing parenthesis costs. Class names may contain that character. A type
with such a name is a good type of a field and a good result, and there is no way
to read it as an argument (`MethodType.text_ne`).
-/

namespace ClassLoom

namespace Descriptor

/-! ## Field types -/

/-- The field types: a letter, a class name between `L` and a semicolon, or a
bracket in front of a field type. -/
inductive IsFieldType : List Char → Prop
  | base {c : Char} (letter : c ∈ ['B', 'C', 'D', 'F', 'I', 'J', 'S', 'Z']) :
      IsFieldType [c]
  | object {name : List Char} (named : name ≠ []) (plain : ';' ∉ name) :
      IsFieldType ('L' :: (name ++ [';']))
  | array {element : List Char} (type : IsFieldType element) :
      IsFieldType ('[' :: element)

theorem isBaseType_iff {c : Char} :
    isBaseType c = true ↔ c ∈ ['B', 'C', 'D', 'F', 'I', 'J', 'S', 'Z'] := by
  unfold isBaseType
  exact List.contains_iff_mem

theorem splitClassName?_cut {name : List Char} (hname : name ≠ []) (hplain : ';' ∉ name)
    (tail : List Char) :
    splitClassName? (name ++ ';' :: tail) = some (name ++ [';'], tail) := by
  unfold splitClassName?
  rw [takeWhile_cut hplain, dropWhile_cut hplain]
  cases name with
  | nil => exact absurd rfl hname
  | cons c cs => rfl

theorem exists_of_splitClassName? {text closed tail : List Char}
    (h : splitClassName? text = some (closed, tail)) :
    ∃ name, name ≠ [] ∧ ';' ∉ name ∧ closed = name ++ [';'] := by
  by_cases hmem : ';' ∈ text
  · obtain ⟨name, rest, htext, hplain⟩ := List.eq_append_cons_of_mem hmem
    rw [htext] at h
    have hname : name ≠ [] := by
      intro hnil
      rw [hnil] at h
      cases h
    rw [splitClassName?_cut hname hplain] at h
    cases h
    exact ⟨name, hname, hplain, rfl⟩
  · unfold splitClassName? at h
    rw [dropWhile_of_notMem hmem] at h
    split at h
    · cases h
    · cases h
    · next hdrop _ => cases hdrop

/-! The four ways in which a text can begin. -/

section Beginnings

variable {c : Char} (rest : List Char)

theorem splitType?_base (h : isBaseType c = true) :
    splitType? (c :: rest) = some ([c], rest) := by
  have hc : c ≠ '[' := by
    intro hsame
    rw [hsame] at h
    exact absurd h (by decide)
  simp [splitType?, hc, h]

theorem splitType?_object :
    splitType? ('L' :: rest) =
      (splitClassName? rest).map fun (name, tail) => ('L' :: name, tail) := by
  simp [splitType?, isBaseType]

/-- All brackets are swept over at once, and the sweep is the same as one bracket
after the other. -/
theorem splitType?_array :
    splitType? ('[' :: rest) =
      (splitType? rest).map fun (element, tail) => ('[' :: element, tail) := by
  unfold splitType?
  simp only [List.takeWhile_cons, List.dropWhile_cons, beq_self_eq_true, if_true]
  split
  · rfl
  · split
    · rfl
    · split
      · simp [Function.comp_def]
      · rfl

theorem splitType?_other (hbase : isBaseType c = false) (hobject : c ≠ 'L')
    (harray : c ≠ '[') : splitType? (c :: rest) = none := by
  simp [splitType?, hbase, hobject, harray]

end Beginnings

theorem IsFieldType.splitType?_append {type : List Char} (h : IsFieldType type)
    (tail : List Char) : splitType? (type ++ tail) = some (type, tail) := by
  induction h with
  | base letter => exact splitType?_base tail (isBaseType_iff.mpr letter)
  | object named plain =>
      rw [List.cons_append, List.append_assoc, splitType?_object, List.singleton_append,
        splitClassName?_cut named plain]
      rfl
  | array _ ih =>
      rw [List.cons_append, splitType?_array, ih]
      rfl

theorem isFieldType_of_splitType? {text type tail : List Char}
    (h : splitType? text = some (type, tail)) : IsFieldType type := by
  induction text generalizing type tail with
  | nil => cases h
  | cons c rest ih =>
      by_cases hbase : isBaseType c = true
      · rw [splitType?_base rest hbase] at h
        cases h
        exact .base (isBaseType_iff.mp hbase)
      by_cases hobject : c = 'L'
      · rw [hobject, splitType?_object, Option.map_eq_some_iff] at h
        obtain ⟨⟨closed, after⟩, hclosed, hsame⟩ := h
        obtain ⟨name, hname, hplain, rfl⟩ := exists_of_splitClassName? hclosed
        cases hsame
        exact .object hname hplain
      by_cases harray : c = '['
      · rw [harray, splitType?_array, Option.map_eq_some_iff] at h
        obtain ⟨⟨element, after⟩, helement, hsame⟩ := h
        cases hsame
        exact .array (ih helement)
      · rw [splitType?_other rest (Bool.eq_false_iff.mpr hbase) hobject harray] at h
        cases h

theorem splitType?_eq_some_iff {text type tail : List Char} :
    splitType? text = some (type, tail) ↔ IsFieldType type ∧ type ++ tail = text := by
  constructor
  · intro h
    exact ⟨isFieldType_of_splitType? h, splitType?_append h⟩
  · rintro ⟨htype, rfl⟩
    exact htype.splitType?_append tail

theorem isType_iff {text : List Char} : isType text = true ↔ IsFieldType text := by
  constructor
  · intro h
    unfold isType at h
    split at h
    · next type hsplit =>
        obtain ⟨htype, hwhole⟩ := splitType?_eq_some_iff.mp hsplit
        rw [List.append_nil] at hwhole
        exact hwhole ▸ htype
    · cases h
  · intro h
    have hsplit := h.splitType?_append []
    rw [List.append_nil] at hsplit
    unfold isType
    rw [hsplit]

theorem isResult_iff {text : List Char} :
    isResult text = true ↔ text = ['V'] ∨ IsFieldType text := by
  unfold isResult
  rw [Bool.or_eq_true, decide_eq_true_eq, isType_iff]

/-- A field type tells by its own text where it ends. -/
theorem IsFieldType.append_inj {type type' tail tail' : List Char} (h : IsFieldType type)
    (h' : IsFieldType type') (hsame : type ++ tail = type' ++ tail') :
    type = type' ∧ tail = tail' := by
  have hsplit := h.splitType?_append tail
  rw [hsame, h'.splitType?_append tail'] at hsplit
  cases hsplit
  exact ⟨rfl, rfl⟩

theorem IsFieldType.append_ne_close {type : List Char} (h : IsFieldType type)
    (rest tail : List Char) : type ++ rest ≠ ')' :: tail := by
  intro hclose
  cases h with
  | base letter =>
      injection hclose with hc _
      rw [hc] at letter
      exact absurd letter (by decide)
  | object _ _ =>
      injection hclose with hc _
      exact absurd hc (by decide)
  | array _ =>
      injection hclose with hc _
      exact absurd hc (by decide)

/-! ## Rows of field types -/

theorem slotsFrom?_nil (slots : Nat) : slotsFrom? slots [] = some slots := by
  rw [slotsFrom?]
  rfl

theorem slotsFrom?_append {type : List Char} (h : IsFieldType type) (slots : Nat)
    (tail : List Char) :
    slotsFrom? slots (type ++ tail) = slotsFrom? (slots + width type) tail := by
  have hsplit := h.splitType?_append tail
  rw [slotsFrom?]
  split
  · next hfound =>
      rw [hsplit] at hfound
      cases hfound
      rfl
  · next hfound =>
      rw [hsplit] at hfound
      cases hfound

theorem slotsFrom?_flatten {types : List (List Char)}
    (h : ∀ type ∈ types, IsFieldType type) (slots : Nat) :
    slotsFrom? slots types.flatten = some (slots + (types.map width).sum) := by
  induction types generalizing slots with
  | nil => exact slotsFrom?_nil slots
  | cons type types ih =>
      rw [List.forall_mem_cons] at h
      rw [List.flatten_cons, slotsFrom?_append h.1, ih h.2, List.map_cons, List.sum_cons,
        Nat.add_assoc]

theorem exists_of_slotsFrom? (slots n : Nat) (text : List Char) :
    slotsFrom? slots text = some n →
      ∃ types : List (List Char),
        (∀ type ∈ types, IsFieldType type) ∧ types.flatten = text := by
  fun_induction slotsFrom? slots text with
  | case1 slots text type tail hsplit ih =>
      intro h
      obtain ⟨htype, hwhole⟩ := splitType?_eq_some_iff.mp hsplit
      obtain ⟨types, htypes, hflatten⟩ := ih h
      refine ⟨type :: types, List.forall_mem_cons.mpr ⟨htype, htypes⟩, ?_⟩
      rw [List.flatten_cons, hflatten, hwhole]
  | case2 slots =>
      intro _
      exact ⟨[], List.forall_mem_nil _, rfl⟩
  | case3 slots text hsplit hne =>
      intro h
      cases h

/-- Where no type of the first of two rows has a closing parenthesis, the one behind
it tells where both of them end. -/
theorem flatten_close_inj {types types' : List (List Char)} {tail tail' : List Char}
    (h : ∀ type ∈ types, IsFieldType type) (h' : ∀ type ∈ types', IsFieldType type)
    (hopen : ∀ type ∈ types, ')' ∉ type)
    (hsame : types.flatten ++ ')' :: tail = types'.flatten ++ ')' :: tail') :
    types = types' ∧ tail = tail' := by
  induction types generalizing types' with
  | nil =>
      cases types' with
      | nil =>
          injection hsame with _ htail
          exact ⟨rfl, htail⟩
      | cons type' types' =>
          -- One row ends where the other goes on, so a type would begin with the parenthesis.
          rw [List.forall_mem_cons] at h'
          rw [List.flatten_cons, List.append_assoc] at hsame
          exact absurd hsame.symm (h'.1.append_ne_close _ _)
  | cons type types ih =>
      rw [List.forall_mem_cons] at h hopen
      rw [List.flatten_cons, List.append_assoc] at hsame
      cases types' with
      | nil => exact absurd hsame (h.1.append_ne_close _ _)
      | cons type' types' =>
          rw [List.forall_mem_cons] at h'
          rw [List.flatten_cons, List.append_assoc] at hsame
          obtain ⟨rfl, hrest⟩ := h.1.append_inj h'.1 hsame
          obtain ⟨rfl, htail⟩ := ih h.2 h'.2 hopen.2 hrest
          exact ⟨rfl, htail⟩

/-! ## Method descriptors -/

/-- A method descriptor, taken apart. -/
@[ext]
structure MethodType where
  /-- The types of the arguments. -/
  arguments : List (List Char)
  /-- The type of the result, or `V` for none. -/
  result : List Char
  arguments_type : ∀ type ∈ arguments, IsFieldType type
  /-- A closing parenthesis would end the arguments in the middle of a type. -/
  arguments_open : ∀ type ∈ arguments, ')' ∉ type
  result_type : result = ['V'] ∨ IsFieldType result

namespace MethodType

/-- The descriptor. -/
def text (t : MethodType) : List Char :=
  '(' :: (t.arguments.flatten ++ ')' :: t.result)

/-- The number of local slots that the arguments take. -/
def slots (t : MethodType) : Nat :=
  (t.arguments.map width).sum

theorem text_inj {t t' : MethodType} (h : t.text = t'.text) : t = t' := by
  injection h with _ h
  obtain ⟨harguments, hresult⟩ :=
    flatten_close_inj t.arguments_type t'.arguments_type t.arguments_open h
  exact MethodType.ext harguments hresult

/-- A type with a closing parenthesis is no argument, wherever it is put. -/
theorem text_ne {types : List (List Char)} {type : List Char}
    (htypes : ∀ type ∈ types, IsFieldType type) (hmem : type ∈ types)
    (hclose : ')' ∈ type) (result : List Char) (t : MethodType) :
    t.text ≠ '(' :: (types.flatten ++ ')' :: result) := by
  intro h
  injection h with _ h
  obtain ⟨rfl, _⟩ := flatten_close_inj t.arguments_type htypes t.arguments_open h
  exact t.arguments_open type hmem hclose

theorem close_notMem_arguments (t : MethodType) : ')' ∉ t.arguments.flatten := by
  intro h
  obtain ⟨type, htype, hclose⟩ := List.mem_flatten.mp h
  exact t.arguments_open type htype hclose

end MethodType

theorem argumentSlots?_cut {d : String} {arguments result : List Char}
    (hd : d.toList = '(' :: (arguments ++ ')' :: result)) (hopen : ')' ∉ arguments) :
    argumentSlots? d = if isResult result then slotsFrom? 0 arguments else none := by
  unfold argumentSlots?
  rw [hd]
  simp only
  rw [dropWhile_cut hopen, takeWhile_cut hopen]

theorem exists_cut_of_argumentSlots? {d : String} {n : Nat}
    (h : argumentSlots? d = some n) :
    ∃ arguments result,
      d.toList = '(' :: (arguments ++ ')' :: result) ∧ ')' ∉ arguments := by
  unfold argumentSlots? at h
  split at h
  · next rest hd =>
      by_cases hmem : ')' ∈ rest
      · obtain ⟨arguments, result, hrest, hopen⟩ := List.eq_append_cons_of_mem hmem
        exact ⟨arguments, result, hrest ▸ hd, hopen⟩
      · rw [dropWhile_of_notMem hmem] at h
        cases h
  · cases h

theorem MethodType.argumentSlots?_eq (t : MethodType) {d : String}
    (h : t.text = d.toList) : argumentSlots? d = some t.slots := by
  rw [argumentSlots?_cut h.symm t.close_notMem_arguments,
    if_pos (isResult_iff.mpr t.result_type), slotsFrom?_flatten t.arguments_type,
    Nat.zero_add]
  rfl

theorem exists_methodType {d : String} {n : Nat} (h : argumentSlots? d = some n) :
    ∃ t : MethodType, t.text = d.toList := by
  obtain ⟨arguments, result, hd, hopen⟩ := exists_cut_of_argumentSlots? h
  rw [argumentSlots?_cut hd hopen] at h
  split at h
  · next hresult =>
      obtain ⟨types, htypes, rfl⟩ := exists_of_slotsFrom? 0 n arguments h
      refine ⟨⟨types, result, htypes, ?_, isResult_iff.mp hresult⟩, hd.symm⟩
      intro type htype hclose
      exact hopen (List.mem_flatten_of_mem htype hclose)
  · cases h

theorem argumentSlots?_eq_some_iff {d : String} {n : Nat} :
    argumentSlots? d = some n ↔ ∃ t : MethodType, t.text = d.toList ∧ t.slots = n := by
  constructor
  · intro h
    obtain ⟨t, ht⟩ := exists_methodType h
    rw [t.argumentSlots?_eq ht] at h
    exact ⟨t, ht, Option.some.inj h⟩
  · rintro ⟨t, ht, rfl⟩
    exact t.argumentSlots?_eq ht

theorem argumentSlots?_eq_none_iff {d : String} :
    argumentSlots? d = none ↔ ∀ t : MethodType, t.text ≠ d.toList := by
  constructor
  · intro h t ht
    rw [t.argumentSlots?_eq ht] at h
    cases h
  · intro h
    cases hslots : argumentSlots? d with
    | none => rfl
    | some n =>
        obtain ⟨t, ht⟩ := exists_methodType hslots
        exact absurd ht (h t)

theorem isMethod_iff {d : String} :
    isMethod d = true ↔ ∃ t : MethodType, t.text = d.toList := by
  unfold isMethod
  rw [Option.isSome_iff_exists]
  constructor
  · rintro ⟨n, h⟩
    exact exists_methodType h
  · rintro ⟨t, ht⟩
    exact ⟨t.slots, t.argumentSlots?_eq ht⟩

/-- A text is a field descriptor just when it is a field type, and a method
descriptor just when it can be taken apart into a method type. There is then only
one way to do so, which tells the slots of the arguments. -/
theorem descriptor_grammar (d : String) :
    (isField d = true ↔ IsFieldType d.toList) ∧
    (∀ n, argumentSlots? d = some n ↔
      ∃ t : MethodType, t.text = d.toList ∧ t.slots = n) ∧
    (isMethod d = true ↔ ∃! t : MethodType, t.text = d.toList) ∧
    (argumentSlots? d = none ↔ ∀ t : MethodType, t.text ≠ d.toList) := by
  refine ⟨isType_iff, fun n => argumentSlots?_eq_some_iff, ?_, argumentSlots?_eq_none_iff⟩
  rw [isMethod_iff]
  constructor
  · rintro ⟨t, ht⟩
    exact ⟨t, ht, fun t' ht' => MethodType.text_inj (ht'.trans ht.symm)⟩
  · exact ExistsUnique.exists

/-! ## Field types as arguments -/

/-- The method descriptor with these arguments and this result. -/
def ofTypes (arguments : List String) (result : String) : String :=
  "(" ++ String.join arguments ++ ")" ++ result

theorem toList_ofTypes (arguments : List String) (result : String) :
    (ofTypes arguments result).toList =
      '(' :: ((arguments.map String.toList).flatten ++ ')' :: result.toList) := by
  simp [ofTypes, String.toList_join, List.flatMap_def]

theorem argumentSlots?_flatten {types : List (List Char)} {result : List Char} {d : String}
    (htypes : ∀ type ∈ types, IsFieldType type)
    (hresult : result = ['V'] ∨ IsFieldType result)
    (hd : d.toList = '(' :: (types.flatten ++ ')' :: result)) :
    argumentSlots? d =
      if ∀ type ∈ types, ')' ∉ type then some (types.map width).sum else none := by
  by_cases hclosed : ∃ type ∈ types, ')' ∈ type
  · obtain ⟨type, hmem, hclose⟩ := hclosed
    rw [if_neg fun hopen => hopen type hmem hclose, argumentSlots?_eq_none_iff, hd]
    exact MethodType.text_ne htypes hmem hclose result
  · have hopen : ∀ type ∈ types, ')' ∉ type :=
      fun type hmem hclose => hclosed ⟨type, hmem, hclose⟩
    rw [if_pos hopen]
    exact MethodType.argumentSlots?_eq ⟨types, result, htypes, hopen, hresult⟩ hd.symm

theorem width_toList (type : String) :
    width type.toList = if type = "J" ∨ type = "D" then 2 else 1 := by
  have hj : type.toList = ['J'] ↔ type = "J" := @String.toList_inj type "J"
  have hd : type.toList = ['D'] ↔ type = "D" := @String.toList_inj type "D"
  unfold width
  simp only [hj, hd]

theorem argumentSlots?_ofTypes {types : List String} {result : String}
    (htypes : ∀ type ∈ types, isField type = true)
    (hresult : result = "V" ∨ isField result = true) :
    argumentSlots? (ofTypes types result) =
      if ∀ type ∈ types, ')' ∉ type.toList then
        some (types.map fun type => if type = "J" ∨ type = "D" then 2 else 1).sum
      else none := by
  have hlists : ∀ type ∈ types.map String.toList, IsFieldType type := by
    intro type hmem
    obtain ⟨t, ht, rfl⟩ := List.mem_map.mp hmem
    exact isType_iff.mp (htypes t ht)
  have hresults : result.toList = ['V'] ∨ IsFieldType result.toList := by
    rcases hresult with rfl | hresult
    · exact .inl rfl
    · exact .inr (isType_iff.mp hresult)
  rw [argumentSlots?_flatten hlists hresults (toList_ofTypes types result)]
  simp only [List.forall_mem_map, List.map_map, Function.comp_def, width_toList]

end Descriptor

theorem Method.verify_eq_invalidMethodDescriptor_iff (m : Method) :
    m.verify = .error (.invalidMethodDescriptor m.name m.descriptor) ↔
      (isInitializerName m.name = true ∨ isMemberName m.name.toList = true) ∧
        Descriptor.argumentSlots? m.descriptor = none := by
  have hnone : Descriptor.argumentSlots? m.descriptor = none ↔
      Descriptor.isMethod m.descriptor = false := by
    unfold Descriptor.isMethod
    rw [Option.isSome_eq_false_iff, Option.isNone_iff_eq_none]
  unfold Method.verify
  rw [hnone]
  grind

namespace Descriptor

/-- Field types stand for arguments just when none of them has a closing parenthesis
in it: then their slots add up, and otherwise there is no method descriptor, and a
method with it is refused. -/
theorem fieldTypes_as_arguments {types : List String} {result : String}
    (htypes : ∀ type ∈ types, isField type = true)
    (hresult : result = "V" ∨ isField result = true) :
    argumentSlots? (ofTypes types result) =
        (if ∀ type ∈ types, ')' ∉ type.toList then
          some (types.map fun type => if type = "J" ∨ type = "D" then 2 else 1).sum
        else none) ∧
      ∀ m : Method, m.descriptor = ofTypes types result →
        (m.verify = .error (.invalidMethodDescriptor m.name m.descriptor) ↔
          (isInitializerName m.name = true ∨ isMemberName m.name.toList = true) ∧
            ∃ type ∈ types, ')' ∈ type.toList) := by
  have hslots := argumentSlots?_ofTypes htypes hresult
  refine ⟨hslots, ?_⟩
  intro m hm
  rw [m.verify_eq_invalidMethodDescriptor_iff, hm, hslots]
  simp

/-- A method with an argument of each kind. -/
def threeArguments : Method :=
  ⟨Access.isPublic, "f", ofTypes ["J", "[J", "La;"] "V", 0, 0, [], []⟩

theorem fieldTypes_as_arguments_three :
    (∀ type ∈ ["J", "[J", "La;"], isField type = true) ∧
      argumentSlots? "(J[JLa;)V" = some 4 ∧
      threeArguments.verify ≠ .error (.invalidMethodDescriptor "f" "(J[JLa;)V") := by
  have htypes : ∀ type ∈ ["J", "[J", "La;"], isField type = true := by decide
  obtain ⟨hslots, hverify⟩ := fieldTypes_as_arguments htypes (.inl rfl)
  refine ⟨htypes, hslots, ?_⟩
  intro hrefused
  obtain ⟨_, type, hmem, hclose⟩ := (hverify threeArguments rfl).mp hrefused
  revert type
  decide

/-- A class that has a field of this type, and a method with this descriptor. -/
def classWith (field descriptor : String) : Class :=
  { Class.new "A" with
    fields := [⟨Access.isPublic, "x", field, []⟩]
    methods := [⟨Access.isPublic, "f", descriptor, 0, 0, [], []⟩] }

/-- Not every field type stands for an argument: with a closing parenthesis in its
name it is good for a field and for a result, and refused between parentheses. -/
theorem closed_name_no_argument :
    (classWith "La)b;" "()La)b;").verify = .ok () ∧
      (classWith "La)b;" "(La)b;)V").verify =
        .error (.invalidMethodDescriptor "f" "(La)b;)V") ∧
      ¬ ∀ (types : List String) (result : String),
        (∀ type ∈ types, isField type = true) →
          (result = "V" ∨ isField result = true) →
            argumentSlots? (ofTypes types result) =
              some (types.map fun type => if type = "J" ∨ type = "D" then 2 else 1).sum := by
  refine ⟨by decide +kernel, by decide +kernel, ?_⟩
  intro h
  have hslots := h ["La)b;"] "V" (by decide) (.inl rfl)
  have hnone : argumentSlots? (ofTypes ["La)b;"] "V") = none := by decide +kernel
  rw [hnone] at hslots
  cases hslots

end Descriptor

end ClassLoom
