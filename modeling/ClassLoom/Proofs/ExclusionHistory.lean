import ClassLoom.Transformer
import Mathlib.Data.List.Nodup

/-!
# What a registry of exclusions has been told

A registry keeps what it is told in forms of its own: prefixes in normal form, each once,
with a counter beside one of the lists, and two sets of class names. Here it is compared
with the plain history of the calls made to it. The registered prefixes are read off the
history by dropping everything but the registrations of a kind, the marked classes by
looking for a mark of the same name, and neither cares how a name was spelled.

`ExclusionCall.Answers` says what each call has to be answered after a given history. The
registry is related to its history by `Reflects`, which one step preserves whatever the call
is, so the answers are right in every place of every sequence of calls. The one step with
something in it registers a prefix: then the list of first occurrences grows by the prefix
if that is new and stays as it is otherwise, and the counter with it.
-/

namespace ClassLoom

/-- A call to a registry of exclusions. Whether a class is excluded from loading, or from
being transformed, is asked with `isExcluded`. -/
inductive ExclusionCall where
  | exclude (kind : ExclusionKind) (text : String)
  | prefixes (kind : ExclusionKind)
  | generation
  | isExcluded (kind : ExclusionKind) (name : String) (transformed : Option String)
  | isClassExcluded (name : String) (transformed : Option String)
  | restrictions (name : String)
  | markLoaded (name : String)
  | isLoaded (name : String)
  | markInvalid (name : String)
  | isInvalid (name : String)
  deriving DecidableEq

namespace ExclusionCall

/-- What the registry answers, and the registry afterwards. -/
def perform (e : Exclusions) : ExclusionCall → Reply × Exclusions
  | exclude kind text => (.flag (e.exclude kind text).1, (e.exclude kind text).2)
  | prefixes kind => (.texts (e.prefixes kind), e)
  | generation => (.number e.generation, e)
  | isExcluded kind name transformed => (.flag (e.isExcluded kind name transformed), e)
  | isClassExcluded name transformed => (.flag (e.isClassExcluded name transformed), e)
  | restrictions name => (.text (e.restrictions name), e)
  | markLoaded name => (.done, e.markLoaded name)
  | isLoaded name => (.flag (e.isLoaded name), e)
  | markInvalid name => (.done, e.markInvalid name)
  | isInvalid name => (.flag (e.isInvalid name), e)

/-- The answers to calls made one after the other, and the registry afterwards. -/
def performAll (e : Exclusions) : List ExclusionCall → List Reply × Exclusions
  | [] => ([], e)
  | call :: calls =>
    let (reply, e) := call.perform e
    let (replies, e) := performAll e calls
    (reply :: replies, e)

/-! ## The answers that a history asks for -/

/-- The prefix that the call registers, if it is of the kind. -/
def start? (kind : ExclusionKind) : ExclusionCall → Option String
  | exclude k text => if k = kind then some (normalize text) else none
  | _ => none

/-- The prefixes of the kind that the calls register, as often as they do. -/
def registered (kind : ExclusionKind) (past : List ExclusionCall) : List String :=
  past.filterMap (start? kind)

/-- Some registered prefix of the kind begins the one name or, if it is given, the other. -/
def Covers (past : List ExclusionCall) (kind : ExclusionKind) (name : String)
    (transformed : Option String) : Prop :=
  ∃ start ∈ registered kind past, ∃ n ∈ name :: transformed.toList,
    start.toList <+: (normalize n).toList

instance (past : List ExclusionCall) (kind : ExclusionKind) (name : String)
    (transformed : Option String) : Decidable (Covers past kind name transformed) :=
  inferInstanceAs (Decidable (∃ start ∈ registered kind past, _))

/-- The reply is a flag, and tells whether something holds. -/
def Tells (reply : Reply) (holds : Prop) : Prop :=
  ∃ value, reply = .flag value ∧ (value = true ↔ holds)

/-- After the calls of `past` this is how the call has to be answered. -/
def Answers (past : List ExclusionCall) : ExclusionCall → Reply → Prop
  | exclude kind text, reply => Tells reply (normalize text ∉ registered kind past)
  | prefixes kind, reply => reply = .texts (registered kind past).eraseDups
  | generation, reply => reply = .number (registered .transform past).eraseDups.length
  | isExcluded kind name transformed, reply => Tells reply (Covers past kind name transformed)
  | isClassExcluded name transformed, reply =>
    Tells reply (Covers past .load name transformed ∨ Covers past .transform name transformed)
  | restrictions name, reply =>
    reply = .text (",".intercalate
      ((if Covers past .load name none then ["PACKAGE_CLASSLOADER_EXCLUSION"] else []) ++
        if Covers past .transform name none then ["PACKAGE_TRANSFORMER_EXCLUSION"] else []))
  | isLoaded name, reply => Tells reply (∃ m, markLoaded m ∈ past ∧ normalize m = normalize name)
  | isInvalid name, reply => Tells reply (∃ m, markInvalid m ∈ past ∧ normalize m = normalize name)
  | markLoaded _, reply | markInvalid _, reply => reply = .done

end ExclusionCall

/-! ## A registry and its history -/

namespace Exclusions

open ExclusionCall (registered start? Covers Tells Answers)

/-- The registry holds what the calls have told it. -/
structure Reflects (e : Exclusions) (past : List ExclusionCall) : Prop where
  prefixes_eq : ∀ kind, e.prefixes kind = (registered kind past).eraseDups
  nodup : ∀ kind, (e.prefixes kind).Nodup
  generation_eq : e.generation = (e.prefixes .transform).length
  isLoaded_iff : ∀ name,
    e.isLoaded name = true ↔ ∃ m, .markLoaded m ∈ past ∧ normalize m = normalize name
  isInvalid_iff : ∀ name,
    e.isInvalid name = true ↔ ∃ m, .markInvalid m ∈ past ∧ normalize m = normalize name

theorem reflects_empty : empty.Reflects [] where
  prefixes_eq kind := by cases kind <;> rfl
  nodup kind := by cases kind <;> exact List.nodup_nil
  generation_eq := rfl
  isLoaded_iff name := by simp [isLoaded, empty]
  isInvalid_iff name := by simp [isInvalid, empty]

variable {e : Exclusions} {past : List ExclusionCall} {kind : ExclusionKind}

/-! ### What a history asks for, call by call -/

theorem registered_concat (call : ExclusionCall) :
    registered kind (past ++ [call]) = registered kind past ++ (start? kind call).toList := by
  unfold registered
  rw [List.filterMap_append]
  cases hstart : start? kind call <;> simp [hstart]

theorem eraseDups_concat (texts : List String) (text : String) :
    (texts ++ [text]).eraseDups =
      texts.eraseDups ++ if text ∈ texts then [] else [text] := by
  rw [List.eraseDups_append]
  split
  · next h => simp [List.removeAll, h]
  · next h => simp [List.removeAll, h, List.eraseDups_cons]

/-- A call that registers no prefix leaves the registry as it should be if it marks what it
says it marks. -/
theorem Reflects.concat {e' : Exclusions} (h : e.Reflects past) {call : ExclusionCall}
    (hstart : ∀ kind, start? kind call = none) (hprefixes : e'.prefixes = e.prefixes)
    (hgeneration : e'.generation = e.generation)
    (hloaded : ∀ name, e'.isLoaded name = true ↔
      e.isLoaded name = true ∨ ∃ m, .markLoaded m = call ∧ normalize m = normalize name)
    (hinvalid : ∀ name, e'.isInvalid name = true ↔
      e.isInvalid name = true ∨ ∃ m, .markInvalid m = call ∧ normalize m = normalize name) :
    e'.Reflects (past ++ [call]) where
  prefixes_eq kind := by
    rw [registered_concat, hstart, Option.toList_none, List.append_nil, hprefixes]
    exact h.prefixes_eq kind
  nodup := hprefixes ▸ h.nodup
  generation_eq := by rw [hgeneration, hprefixes, h.generation_eq]
  isLoaded_iff name := by
    rw [hloaded, h.isLoaded_iff]
    simp [or_and_right, exists_or]
  isInvalid_iff name := by
    rw [hinvalid, h.isInvalid_iff]
    simp [or_and_right, exists_or]

/-- A question becomes part of the history and changes nothing. -/
theorem Reflects.ask (h : e.Reflects past) {call : ExclusionCall}
    (hstart : ∀ kind, start? kind call = none) (hloaded : ∀ m, .markLoaded m ≠ call)
    (hinvalid : ∀ m, .markInvalid m ≠ call) : e.Reflects (past ++ [call]) :=
  h.concat hstart rfl rfl (by simp [hloaded]) (by simp [hinvalid])

/-! ### Registering a prefix -/

/-- The prefix is added at the end of its list if it is new there. -/
theorem prefixes_exclude (e : Exclusions) (kind : ExclusionKind) (text : String)
    (k : ExclusionKind) :
    (e.exclude kind text).2.prefixes k =
      e.prefixes k ++ if kind = k ∧ normalize text ∉ e.prefixes k then [normalize text] else [] := by
  by_cases hold : normalize text ∈ e.prefixes kind
  · have hsame : ¬ (kind = k ∧ normalize text ∉ e.prefixes k) := by
      rintro ⟨rfl, hnew⟩
      exact hnew hold
    simp [exclude, hold, hsame]
  · cases kind <;> cases k <;> simp_all [exclude, prefixes]

theorem generation_exclude (e : Exclusions) (kind : ExclusionKind) (text : String) :
    (e.exclude kind text).2.generation =
      e.generation +
        if kind = .transform ∧ normalize text ∉ e.prefixes .transform then 1 else 0 := by
  cases kind <;> by_cases hold : normalize text ∈ e.prefixes .transform <;>
    simp_all [exclude, prefixes] <;> split <;> rfl

theorem marks_exclude (e : Exclusions) (kind : ExclusionKind) (text : String) :
    (e.exclude kind text).2.loaded = e.loaded ∧ (e.exclude kind text).2.invalid = e.invalid := by
  unfold exclude
  dsimp only
  split
  · exact ⟨rfl, rfl⟩
  · cases kind <;> exact ⟨rfl, rfl⟩

theorem Reflects.mem_prefixes (h : e.Reflects past) {start : String} :
    start ∈ e.prefixes kind ↔ start ∈ registered kind past := by
  rw [h.prefixes_eq, List.mem_eraseDups]

theorem Reflects.exclude (h : e.Reflects past) (kind : ExclusionKind) (text : String) :
    (e.exclude kind text).2.Reflects (past ++ [.exclude kind text]) where
  prefixes_eq k := by
    rw [prefixes_exclude, registered_concat]
    by_cases hkind : kind = k
    · subst hkind
      rw [show start? kind (.exclude kind text) = some (normalize text) from if_pos rfl,
        Option.toList_some, eraseDups_concat, ← h.prefixes_eq]
      simp [h.mem_prefixes]
    · rw [show start? k (.exclude kind text) = none from if_neg hkind]
      simp [hkind, h.prefixes_eq]
  nodup k := by
    rw [prefixes_exclude]
    split
    · next hnew =>
        rw [← List.concat_eq_append]
        exact List.Nodup.concat hnew.2 (h.nodup k)
    · rw [List.append_nil]
      exact h.nodup k
  generation_eq := by
    rw [generation_exclude, prefixes_exclude, h.generation_eq]
    split <;> simp
  isLoaded_iff name := by
    have hsame : (e.exclude kind text).2.isLoaded name = e.isLoaded name := by
      unfold isLoaded
      rw [(marks_exclude e kind text).1]
    rw [hsame, h.isLoaded_iff]
    simp
  isInvalid_iff name := by
    have hsame : (e.exclude kind text).2.isInvalid name = e.isInvalid name := by
      unfold isInvalid
      rw [(marks_exclude e kind text).2]
    rw [hsame, h.isInvalid_iff]
    simp

/-! ### Marking a class -/

theorem of_eq_of_iff {name m : String} :
    ClassName.of name = ClassName.of m ↔ normalize m = normalize name := by
  rw [ClassName.mk.injEq]
  exact eq_comm

theorem isLoaded_markLoaded (e : Exclusions) (m name : String) :
    (e.markLoaded m).isLoaded name = true ↔
      e.isLoaded name = true ∨ normalize m = normalize name := by
  simp [markLoaded, isLoaded, of_eq_of_iff, or_comm]

theorem isInvalid_markInvalid (e : Exclusions) (m name : String) :
    (e.markInvalid m).isInvalid name = true ↔
      e.isInvalid name = true ∨ normalize m = normalize name := by
  simp [markInvalid, isInvalid, of_eq_of_iff, or_comm]

/-! ### Answering -/

theorem Reflects.isExcluded_iff (h : e.Reflects past) (kind : ExclusionKind) (name : String)
    (transformed : Option String) :
    e.isExcluded kind name transformed = true ↔ Covers past kind name transformed := by
  unfold isExcluded Covers
  rw [List.any_eq_true]
  cases transformed <;> simp [startsWith, h.mem_prefixes]

theorem Reflects.restrictions_eq (h : e.Reflects past) (name : String) :
    e.restrictions name = ",".intercalate
      ((if Covers past .load name none then ["PACKAGE_CLASSLOADER_EXCLUSION"] else []) ++
        if Covers past .transform name none then ["PACKAGE_TRANSFORMER_EXCLUSION"] else []) := by
  simp only [← h.isExcluded_iff]
  unfold restrictions ExclusionKind.all
  cases hload : e.isExcluded .load name none <;>
    cases htransform : e.isExcluded .transform name none <;>
      simp [hload, htransform, ExclusionKind.label]

/-- One call is answered as its history asks, and becomes part of the history. -/
theorem Reflects.perform (h : e.Reflects past) (call : ExclusionCall) :
    Answers past call (call.perform e).1 ∧ (call.perform e).2.Reflects (past ++ [call]) := by
  cases call with
  | exclude kind text =>
      refine ⟨⟨_, rfl, ?_⟩, h.exclude kind text⟩
      rw [← h.mem_prefixes]
      by_cases hold : normalize text ∈ e.prefixes kind
      · simp [Exclusions.exclude, hold]
      · cases kind <;> simp [Exclusions.exclude, hold]
  | prefixes kind =>
      exact ⟨congrArg Reply.texts (h.prefixes_eq kind), h.ask (by simp [start?]) (by simp) (by simp)⟩
  | generation =>
      refine ⟨congrArg Reply.number ?_, h.ask (by simp [start?]) (by simp) (by simp)⟩
      rw [h.generation_eq, h.prefixes_eq]
  | isExcluded kind name transformed =>
      exact ⟨⟨_, rfl, h.isExcluded_iff kind name transformed⟩,
        h.ask (by simp [start?]) (by simp) (by simp)⟩
  | isClassExcluded name transformed =>
      refine ⟨⟨_, rfl, ?_⟩, h.ask (by simp [start?]) (by simp) (by simp)⟩
      unfold Exclusions.isClassExcluded isLoadExcluded isTransformExcluded
      rw [Bool.or_eq_true, h.isExcluded_iff, h.isExcluded_iff]
  | restrictions name =>
      exact ⟨congrArg Reply.text (h.restrictions_eq name),
        h.ask (by simp [start?]) (by simp) (by simp)⟩
  | markLoaded m =>
      refine ⟨rfl, h.concat (fun _ => rfl) ?_ rfl ?_ (by simp [ExclusionCall.perform, isInvalid,
        Exclusions.markLoaded])⟩
      · funext kind
        cases kind <;> rfl
      · simpa [ExclusionCall.perform] using e.isLoaded_markLoaded m
  | isLoaded name =>
      exact ⟨⟨_, rfl, h.isLoaded_iff name⟩, h.ask (by simp [start?]) (by simp) (by simp)⟩
  | markInvalid m =>
      refine ⟨rfl, h.concat (fun _ => rfl) ?_ rfl (by simp [ExclusionCall.perform, isLoaded,
        Exclusions.markInvalid]) ?_⟩
      · funext kind
        cases kind <;> rfl
      · simpa [ExclusionCall.perform] using e.isInvalid_markInvalid m
  | isInvalid name =>
      exact ⟨⟨_, rfl, h.isInvalid_iff name⟩, h.ask (by simp [start?]) (by simp) (by simp)⟩

/-! ### Along a history -/

theorem Reflects.performAll (h : e.Reflects past) (calls : List ExclusionCall) :
    (ExclusionCall.performAll e calls).1.length = calls.length ∧
      (∀ before call after, calls = before ++ call :: after →
        ∃ reply, (ExclusionCall.performAll e calls).1[before.length]? = some reply ∧
          Answers (past ++ before) call reply) ∧
      (ExclusionCall.performAll e calls).2.Reflects (past ++ calls) := by
  induction calls generalizing e past with
  | nil => exact ⟨rfl, by simp, by rwa [List.append_nil]⟩
  | cons call calls ih =>
      obtain ⟨hanswer, hstep⟩ := h.perform call
      obtain ⟨hlength, hanswers, hreflects⟩ := ih hstep
      refine ⟨congrArg (· + 1) hlength, ?_, ?_⟩
      · intro before c after hcalls
        cases before with
        | nil =>
            cases hcalls
            exact ⟨_, rfl, by rwa [List.append_nil]⟩
        | cons first before =>
            cases hcalls
            obtain ⟨reply, hreply, hright⟩ := hanswers before c after rfl
            refine ⟨reply, hreply, ?_⟩
            rwa [List.append_assoc] at hright
      · rwa [List.append_assoc] at hreflects

/-- Whatever is called on an empty registry, in whatever order and spelling, every call is
answered as the calls before it ask. In the end the prefixes of a kind are the first
occurrences of the normalized prefixes that were registered for it, in order and each once,
the generation counts those of the one kind, and the classes that are marked are those whose
names have been marked in some spelling. -/
theorem performAll_empty (calls : List ExclusionCall) :
    let (replies, e) := ExclusionCall.performAll empty calls
    replies.length = calls.length ∧
      (∀ before call after, calls = before ++ call :: after →
        ∃ reply, replies[before.length]? = some reply ∧ Answers before call reply) ∧
      (∀ kind, e.prefixes kind = (registered kind calls).eraseDups ∧ (e.prefixes kind).Nodup) ∧
      e.generation = (e.prefixes .transform).length ∧
      (∀ name, e.isLoaded name = true ↔
        ∃ m, .markLoaded m ∈ calls ∧ normalize m = normalize name) ∧
      ∀ name, e.isInvalid name = true ↔
        ∃ m, .markInvalid m ∈ calls ∧ normalize m = normalize name := by
  obtain ⟨hlength, hanswers, hreflects⟩ := reflects_empty.performAll calls
  exact ⟨hlength, hanswers, fun kind => ⟨hreflects.prefixes_eq kind, hreflects.nodup kind⟩,
    hreflects.generation_eq, hreflects.isLoaded_iff, hreflects.isInvalid_iff⟩

end Exclusions

end ClassLoom
