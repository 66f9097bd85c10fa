/-!
# Descriptors

A descriptor writes the type of a field or of a method as text. A field type is
any number of `[` (one per array dimension) before a base type letter or a class
type `L…;`. A method descriptor is a parenthesis of argument types followed by
the result type, `V` for no result.

Arguments end at the first closing parenthesis, so a class type among them
cannot have one in its name. Everything works on lists of characters: array
dimensions are skipped in one sweep, and a list of arguments is walked from left
to right, each step on a strictly shorter rest.
-/

namespace ClassLoom.Descriptor

/-- Whether `c` alone is a field type. -/
def isBaseType (c : Char) : Bool :=
  ['B', 'C', 'D', 'F', 'I', 'J', 'S', 'Z'].contains c

/-- Splits the class type after its `L`: the name with its semicolon, and what
follows. None if the name is empty or has no end. -/
def splitClassName? (text : List Char) : Option (List Char × List Char) :=
  match text.takeWhile (· ≠ ';'), text.dropWhile (· ≠ ';') with
  | [], _ => none
  | _, [] => none
  | name, semicolon :: tail => some (name ++ [semicolon], tail)

/-- Splits one field type off the front of `text`. -/
def splitType? (text : List Char) : Option (List Char × List Char) :=
  let dimensions := text.takeWhile (· == '[')
  match text.dropWhile (· == '[') with
  | [] => none
  | c :: rest =>
    if isBaseType c then
      some (dimensions ++ [c], rest)
    else if c = 'L' then
      (splitClassName? rest).map fun (name, tail) => (dimensions ++ c :: name, tail)
    else
      none

theorem splitClassName?_append {text name tail : List Char}
    (h : splitClassName? text = some (name, tail)) : name ++ tail = text := by
  unfold splitClassName? at h
  have split := List.takeWhile_append_dropWhile (p := (· ≠ ';')) (l := text)
  revert h
  generalize text.takeWhile (· ≠ ';') = front at split ⊢
  generalize text.dropWhile (· ≠ ';') = back at split ⊢
  intro h
  match front, back, h with
  | c :: cs, semicolon :: rest, h =>
    simp only [Option.some.injEq, Prod.mk.injEq] at h
    obtain ⟨rfl, rfl⟩ := h
    simpa using split

theorem splitType?_append {text type tail : List Char}
    (h : splitType? text = some (type, tail)) : type ++ tail = text := by
  unfold splitType? at h
  have split := List.takeWhile_append_dropWhile (p := (· == '[')) (l := text)
  revert h
  generalize text.takeWhile (· == '[') = front at split ⊢
  generalize text.dropWhile (· == '[') = back at split ⊢
  intro h
  match back, h with
  | c :: rest, h =>
    simp only at h
    split at h
    · simp only [Option.some.injEq, Prod.mk.injEq] at h
      obtain ⟨rfl, rfl⟩ := h
      simpa using split
    · split at h
      · rw [Option.map_eq_some_iff] at h
        obtain ⟨⟨name, after⟩, found, same⟩ := h
        simp only [Prod.mk.injEq] at same
        obtain ⟨rfl, rfl⟩ := same
        rw [← splitClassName?_append found] at split
        simpa using split
      · exact absurd h (by simp)

theorem splitType?_ne_nil {text type tail : List Char}
    (h : splitType? text = some (type, tail)) : type ≠ [] := by
  unfold splitType? at h
  simp only at h
  split at h
  · exact absurd h (by simp)
  · split at h
    · simp only [Option.some.injEq, Prod.mk.injEq] at h
      rw [← h.1]
      simp
    · split at h
      · rw [Option.map_eq_some_iff] at h
        obtain ⟨⟨name, after⟩, _, same⟩ := h
        simp only [Prod.mk.injEq] at same
        rw [← same.1]
        simp
      · exact absurd h (by simp)

theorem splitType?_length_lt {text type tail : List Char}
    (h : splitType? text = some (type, tail)) : tail.length < text.length := by
  have nonempty := List.length_pos_iff.mpr (splitType?_ne_nil h)
  have whole := congrArg List.length (splitType?_append h)
  rw [List.length_append] at whole
  omega

/-- Whether `text` is exactly one field type. -/
def isType (text : List Char) : Bool :=
  match splitType? text with
  | some (_, []) => true
  | _ => false

/-- The number of local slots that a value of the type takes: two for `long` and
`double`, one for all others, arrays of these two included. -/
def width (type : List Char) : Nat :=
  if type = ['J'] ∨ type = ['D'] then 2 else 1

/-- The slots of the field types that `text` consists of, on top of `slots`. -/
def slotsFrom? (slots : Nat) (text : List Char) : Option Nat :=
  match _ : splitType? text with
  | some (type, tail) => slotsFrom? (slots + width type) tail
  | none => if text = [] then some slots else none
termination_by text.length
decreasing_by exact splitType?_length_lt ‹_›

/-- Whether `text` may stand for a method's result. -/
def isResult (text : List Char) : Bool :=
  text = ['V'] || isType text

/-- The number of local slots that the arguments of a method descriptor take;
none if the descriptor is malformed. -/
def argumentSlots? (descriptor : String) : Option Nat :=
  match descriptor.toList with
  | '(' :: rest =>
    match rest.dropWhile (· ≠ ')') with
    | _ :: result =>
      if isResult result then slotsFrom? 0 (rest.takeWhile (· ≠ ')')) else none
    | [] => none
  | _ => none

/-- Whether `descriptor` is a field descriptor: exactly one field type. -/
def isField (descriptor : String) : Bool :=
  isType descriptor.toList

/-- Whether `descriptor` is a method descriptor. -/
def isMethod (descriptor : String) : Bool :=
  (argumentSlots? descriptor).isSome

end ClassLoom.Descriptor
