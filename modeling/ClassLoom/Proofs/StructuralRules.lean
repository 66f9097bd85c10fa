import ClassLoom.Proofs.DescriptorGrammar
import ClassLoom.Proofs.LocalHints

/-!
# Which rules a class is checked against

The check walks over a class and stops at the first thing that is wrong. Here the
rules are written down as data, in the order in which they are promised: `Class.rules`
lists, for each part of a class, what is demanded of it and the error of a class that
breaks it. The names are described by how they are put together, the descriptors by
their grammar, and that members are different by looking back over the list, so
nothing here is said in terms of the check.

`Reports` reads such a list from the front and stops at the first rule that is broken.
Lists can be put end to end (`Reports.append`), and so the check is followed part by
part: each loop of it reports the rules of what it walks over. What is left is a fact
about the rules alone, that they hold together just when the class is `WellFormed`.
-/

namespace ClassLoom

open Descriptor (IsFieldType MethodType)

/-! ## Names -/

/-- The texts that may name a field. -/
def IsSimpleName (name : List Char) : Prop :=
  name ≠ [] ∧ ∀ c ∈ name, c ∉ ['.', ';', '[', '/', '<', '>']

/-- The texts that may name a class: simple names with slashes between them. -/
def IsClassName (name : String) : Prop :=
  ∃ segments : List (List Char), segments ≠ [] ∧ (∀ s ∈ segments, IsSimpleName s) ∧
    name.toList = ['/'].intercalate segments

/-- The texts that may name a method. -/
def IsMethodName (name : String) : Prop :=
  name = "<init>" ∨ name = "<clinit>" ∨ IsSimpleName name.toList

theorem isMemberName_iff {name : List Char} :
    isMemberName name = true ↔ IsSimpleName name := by
  unfold isMemberName isNameChar IsSimpleName
  simp

theorem isInternalName_iff {name : String} :
    isInternalName name = true ↔ IsClassName name := by
  unfold isInternalName IsClassName
  rw [List.all_eq_true]
  simp only [isMemberName_iff]
  constructor
  · intro h
    exact ⟨name.toList.splitOn '/', List.splitOn_ne_nil '/' _, h,
      (List.intercalate_splitOn '/').symm⟩
  · rintro ⟨segments, hne, hsegments, hname⟩
    rw [hname, List.splitOn_intercalate]
    · exact hsegments
    · intro s hs hslash
      exact (hsegments s hs).2 '/' hslash (by decide)
    · exact hne

theorem isMethodName_iff {name : String} :
    (isInitializerName name || isMemberName name.toList) = true ↔ IsMethodName name := by
  unfold isInitializerName IsMethodName
  simp only [Bool.or_eq_true, beq_iff_eq, isMemberName_iff, or_assoc]

/-! ## Rules -/

/-- A rule, with the error of a class that breaks it. -/
structure Rule where
  /-- What is demanded. -/
  Holds : Prop
  error : VerifyError

/-- The result of going through the rules from the front, up to the first that is
broken. -/
inductive Reports : List Rule → Except VerifyError Unit → Prop
  | done : Reports [] (.ok ())
  | kept {rule : Rule} {rules : List Rule} {result : Except VerifyError Unit}
      (holds : rule.Holds) (rest : Reports rules result) : Reports (rule :: rules) result
  | broken {rule : Rule} {rules : List Rule} (breaks : ¬ rule.Holds) :
      Reports (rule :: rules) (.error rule.error)

namespace Reports

variable {rules rules' : List Rule} {result result' : Except VerifyError Unit}

theorem eq_ok_iff (h : Reports rules result) :
    result = .ok () ↔ ∀ rule ∈ rules, rule.Holds := by
  induction h with
  | done => simp
  | kept holds _ ih => rw [ih, List.forall_mem_cons, and_iff_right holds]
  | broken breaks =>
      rw [List.forall_mem_cons]
      constructor
      · intro h
        cases h
      · intro h
        exact absurd h.1 breaks

theorem eq_error_iff (h : Reports rules result) {e : VerifyError} :
    result = .error e ↔
      ∃ before rule after, rules = before ++ rule :: after ∧
        (∀ earlier ∈ before, earlier.Holds) ∧ ¬ rule.Holds ∧ rule.error = e := by
  induction h with
  | done =>
      constructor
      · intro h
        cases h
      · rintro ⟨before, rule, after, hrules, _⟩
        simp at hrules
  | @kept rule rules result holds _ ih =>
      rw [ih]
      constructor
      · rintro ⟨before, broken, after, rfl, hbefore, hbroken⟩
        exact ⟨rule :: before, broken, after, rfl,
          List.forall_mem_cons.mpr ⟨holds, hbefore⟩, hbroken⟩
      · rintro ⟨before, broken, after, hrules, hbefore, hbreaks, herror⟩
        cases before with
        | nil =>
            injection hrules with hrule _
            exact absurd (hrule ▸ holds) hbreaks
        | cons first before =>
            injection hrules with _ hrules
            exact ⟨before, broken, after, hrules, (List.forall_mem_cons.mp hbefore).2,
              hbreaks, herror⟩
  | @broken rule rules breaks =>
      constructor
      · intro h
        injection h with h
        exact ⟨[], rule, rules, rfl, List.forall_mem_nil _, breaks, h⟩
      · rintro ⟨before, broken, after, hrules, hbefore, _, herror⟩
        cases before with
        | nil =>
            injection hrules with hrule _
            rw [hrule, herror]
        | cons first before =>
            injection hrules with hrule _
            exact absurd (hbefore first List.mem_cons_self) (hrule ▸ breaks)

/-- A test in front of the rest of a check, which fails where the rule is broken. -/
theorem cons_ite {broken : Prop} [Decidable broken] {rule : Rule}
    (hrule : broken ↔ ¬ rule.Holds) (h : Reports rules result) :
    Reports (rule :: rules) (if broken then .error rule.error else result) := by
  split
  · next hbroken => exact .broken (hrule.mp hbroken)
  · next hkept => exact .kept (not_not.mp fun hholds => hkept (hrule.mpr hholds)) h

theorem append (h : Reports rules result) (h' : Reports rules' result') :
    Reports (rules ++ rules') (result >>= fun _ => result') := by
  induction h with
  | done => exact h'
  | kept holds _ ih => exact .kept holds ih
  | broken breaks => exact .broken breaks

end Reports

/-! ## Members -/

section Members

variable {α : Type} (own : α → List Rule) (identity : α → String × String)
  (duplicate : String → String → VerifyError)

/-- The rules of members that come after `earlier`: for each of them, its own, and
then that no member in front of it has its name and descriptor. -/
def memberRules : List α → List α → List Rule
  | _, [] => []
  | earlier, member :: later =>
      own member ++
        ⟨∀ m ∈ earlier, identity m ≠ identity member,
          duplicate (identity member).1 (identity member).2⟩ ::
        memberRules (earlier ++ [member]) later

variable {own identity duplicate}

theorem memberRules_hold_iff {earlier members : List α} :
    (∀ rule ∈ memberRules own identity duplicate earlier members, rule.Holds) ↔
      (∀ m ∈ members, ∀ rule ∈ own m, rule.Holds) ∧
        members.Pairwise (fun m m' => identity m ≠ identity m') ∧
        ∀ m ∈ earlier, ∀ m' ∈ members, identity m ≠ identity m' := by
  induction members generalizing earlier with
  | nil => simp [memberRules]
  | cons member members ih =>
      rw [memberRules]
      -- Both sides speak of the same pairs: with `earlier`, with `member`, among the rest.
      simp only [List.forall_mem_append, List.forall_mem_cons, ih, List.pairwise_cons]
      grind

/-- The names that the check remembers are those of the members that it has passed. -/
theorem reports_verifyMembers {check : α → Except VerifyError Unit}
    (hcheck : ∀ m, Reports (own m) (check m)) {seen : List (String × String)}
    {earlier : List α} (hseen : ∀ p, p ∈ seen ↔ ∃ m ∈ earlier, identity m = p)
    (members : List α) :
    Reports (memberRules own identity duplicate earlier members)
      (verifyMembers check identity duplicate seen members) := by
  induction members generalizing seen earlier with
  | nil => exact .done
  | cons member members ih =>
      rw [memberRules, verifyMembers]
      refine (hcheck member).append ?_
      refine .cons_ite ?_ (ih ?_)
      · rw [List.contains_iff_mem, hseen]
        simp
      · intro p
        simp only [List.mem_cons, hseen, List.mem_append, List.not_mem_nil, or_false]
        grind

end Members

/-! ## The parts of a class -/

/-- The rule of a class name. -/
def nameRule (name : String) : Rule :=
  ⟨IsClassName name, .invalidName name⟩

theorem reports_verifyClassNames (names : List String) :
    Reports (names.map nameRule) (verifyClassNames names) := by
  induction names with
  | nil => exact .done
  | cons name names ih =>
      rw [List.map_cons, verifyClassNames, verifyClassName]
      split
      · next h => exact .kept (isInternalName_iff.mp h) ih
      · next h => exact .broken fun hholds => h (isInternalName_iff.mpr hholds)

/-- What a field is known by. -/
def Field.identity (f : Field) : String × String :=
  (f.name, f.descriptor)

/-- The rules of a field by itself. -/
def Field.rules (f : Field) : List Rule :=
  [⟨IsSimpleName f.name.toList, .invalidName f.name⟩,
    ⟨IsFieldType f.descriptor.toList, .invalidFieldDescriptor f.name f.descriptor⟩]

theorem Field.reports_verify (f : Field) : Reports f.rules f.verify := by
  unfold Field.rules Field.verify Descriptor.isField
  refine .cons_ite ?_ (.cons_ite ?_ .done)
  · simp [← isMemberName_iff]
  · simp [← Descriptor.isType_iff]

/-- What a method is known by. -/
def Method.identity (m : Method) : String × String :=
  (m.name, m.descriptor)

/-- The rules of a method by itself. -/
def Method.rules (m : Method) : List Rule :=
  [⟨IsMethodName m.name, .invalidName m.name⟩,
    ⟨∃ t : MethodType, t.text = m.descriptor.toList,
      .invalidMethodDescriptor m.name m.descriptor⟩,
    ⟨Access.has m.access Access.isAbstract = true ∨
        Access.has m.access Access.isNative = true → m.code = [],
      .unexpectedCode m.name m.descriptor⟩]

theorem Method.isBodiless_iff (m : Method) :
    m.isBodiless = true ↔
      Access.has m.access Access.isAbstract = true ∨
        Access.has m.access Access.isNative = true := by
  have hboth : m.access &&& (Access.isAbstract ||| Access.isNative) =
      (m.access &&& Access.isAbstract) ||| (m.access &&& Access.isNative) := by
    rw [← UInt16.toBitVec_inj]
    exact BitVec.and_or_distrib_left
  unfold Method.isBodiless Access.has
  rw [hboth, bne_iff_ne, bne_iff_ne, bne_iff_ne, ne_eq, UInt16.or_eq_zero_iff, not_and_or]

theorem Method.reports_verify (m : Method) : Reports m.rules m.verify := by
  unfold Method.rules Method.verify
  refine .cons_ite ?_ (.cons_ite ?_ (.cons_ite ?_ .done))
  · simp [← isMethodName_iff]
  · simp [← Descriptor.isMethod_iff]
  · simp [← Method.isBodiless_iff]

/-! ## Classes -/

namespace Class

/-- The structural rules, in the order in which they are checked. -/
def rules (c : Class) : List Rule :=
  (c.name :: c.superName.toList ++ c.interfaces).map nameRule ++
    (memberRules Field.rules Field.identity .duplicateField [] c.fields ++
      memberRules Method.rules Method.identity .duplicateMethod [] c.methods)

theorem reports_verify (c : Class) : Reports c.rules c.verify := by
  refine (reports_verifyClassNames _).append (Reports.append ?_ ?_)
  · exact reports_verifyMembers Field.reports_verify (by simp) c.fields
  · exact reports_verifyMembers Method.reports_verify (by simp) c.methods

/-- A class that obeys the structural rules. -/
structure WellFormed (c : Class) : Prop where
  name : IsClassName c.name
  superName : ∀ name ∈ c.superName, IsClassName name
  interfaces : ∀ name ∈ c.interfaces, IsClassName name
  fieldName : ∀ f ∈ c.fields, IsSimpleName f.name.toList
  fieldDescriptor : ∀ f ∈ c.fields, IsFieldType f.descriptor.toList
  fields_differ : c.fields.Pairwise fun f f' => f.identity ≠ f'.identity
  methodName : ∀ m ∈ c.methods, IsMethodName m.name
  methodDescriptor : ∀ m ∈ c.methods, ∃ t : MethodType, t.text = m.descriptor.toList
  methodCode : ∀ m ∈ c.methods,
    Access.has m.access Access.isAbstract = true ∨
      Access.has m.access Access.isNative = true → m.code = []
  methods_differ : c.methods.Pairwise fun m m' => m.identity ≠ m'.identity

theorem wellFormed_iff (c : Class) : c.WellFormed ↔ ∀ rule ∈ c.rules, rule.Holds := by
  unfold rules
  simp only [List.forall_mem_append, List.forall_mem_map, List.forall_mem_cons,
    memberRules_hold_iff, Field.rules, Method.rules, nameRule, Option.mem_toList,
    List.not_mem_nil, false_imp_iff, implies_true, and_true]
  constructor
  · intro h
    refine ⟨⟨⟨h.name, h.superName⟩, h.interfaces⟩, ⟨?_, h.fields_differ⟩, ?_, h.methods_differ⟩
    · intro f hf
      exact ⟨h.fieldName f hf, h.fieldDescriptor f hf⟩
    · intro m hm
      exact ⟨h.methodName m hm, h.methodDescriptor m hm, h.methodCode m hm⟩
  · rintro ⟨⟨⟨hname, hsuper⟩, hinterfaces⟩, ⟨hfields, hfieldsDiffer⟩, hmethods, hmethodsDiffer⟩
    exact {
      name := hname
      superName := hsuper
      interfaces := hinterfaces
      fieldName := fun f hf => (hfields f hf).1
      fieldDescriptor := fun f hf => (hfields f hf).2
      fields_differ := hfieldsDiffer
      methodName := fun m hm => (hmethods m hm).1
      methodDescriptor := fun m hm => (hmethods m hm).2.1
      methodCode := fun m hm => (hmethods m hm).2.2
      methods_differ := hmethodsDiffer }

theorem verify_eq_ok_iff (c : Class) : c.verify = .ok () ↔ c.WellFormed :=
  c.reports_verify.eq_ok_iff.trans c.wellFormed_iff.symm

end Class

/-! ## What the rules look at -/

/-- The field without what no rule looks at. -/
def Field.outline (f : Field) : Field :=
  { f with access := 0, attributes := [] }

/-- The method without what no rule looks at: of its flags only whether it may have a
body is left, and of its body only whether there is one. -/
def Method.outline (m : Method) : Method :=
  { m with
    access := if m.isBodiless then Access.isAbstract else 0
    maxStack := 0
    maxLocals := 0
    code := if m.code.isEmpty then [] else [0]
    attributes := [] }

theorem Method.isBodiless_outline (m : Method) : m.outline.isBodiless = m.isBodiless := by
  show Access.has (if m.isBodiless then Access.isAbstract else 0) _ = _
  cases m.isBodiless with
  | false => rfl
  | true => rfl

theorem Method.isEmpty_code_outline (m : Method) :
    m.outline.code.isEmpty = m.code.isEmpty := by
  show (if m.code.isEmpty then [] else [0] : Bytes).isEmpty = _
  cases m.code.isEmpty with
  | false => rfl
  | true => rfl

theorem Method.verify_outline (m : Method) : m.outline.verify = m.verify := by
  unfold Method.verify
  rw [m.isBodiless_outline, m.isEmpty_code_outline]
  rfl

namespace Class

/-- The class without what no rule looks at. -/
def outline (c : Class) : Class :=
  { c with
    minorVersion := 0
    majorVersion := 0
    access := 0
    fields := c.fields.map Field.outline
    methods := c.methods.map Method.outline
    attributes := [] }

theorem verify_outline (c : Class) : c.outline.verify = c.verify := by
  unfold Class.verify outline
  dsimp only
  rw [verifyMembers_map (f := Field.outline) (fun _ => rfl) (fun _ => rfl),
    verifyMembers_map Method.verify_outline (fun _ => rfl)]

/-- The check accepts the well-formed classes, names the first rule that any other
class breaks, and sees no more of a class than its outline. -/
theorem verify_first_broken (c : Class) :
    (c.verify = .ok () ↔ c.WellFormed) ∧
      (∀ e, c.verify = .error e ↔
        ∃ before rule after, c.rules = before ++ rule :: after ∧
          (∀ earlier ∈ before, earlier.Holds) ∧ ¬ rule.Holds ∧ rule.error = e) ∧
      c.outline.verify = c.verify :=
  ⟨c.verify_eq_ok_iff, fun _ => c.reports_verify.eq_error_iff, c.verify_outline⟩

example :
    ({ Class.new "A" with
        interfaces := ["a/B"]
        fields := [⟨0, "x", "I", []⟩, ⟨0, "x", "J", []⟩, ⟨0, "x", "I", []⟩, ⟨0, "", "", []⟩]
        methods := [⟨0, "<init>", "", 0, 0, [], []⟩] }).verify =
      .error (.duplicateField "x" "I") := by
  decide +kernel

end Class

end ClassLoom
