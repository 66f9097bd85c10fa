import ClassLoom.Proofs.NameForms
import ClassLoom.Proofs.Success
import ClassLoom.Source.Directory
import Mathlib.Data.List.Basic

/-!
# What a class path directory can reach

The file of a class is looked up at the resource path of the class, joined to the root of
the directory. A resource path never leads up: its only dot is that of the ending, so none
of its names is the one of the directory above. What can lead out of the directory is
joining, because a path that begins with a slash replaces the root. Resource paths do so
for the names that begin with a dot or a slash, and for no others.

For the other names the directory at the root is all that matters. Names that do not lead
up lead from a place in the tree to where they lead from the top of what is there
(`target_append`), so two file systems with the same directory at the root give the same
answer, and what is found is a file in that directory.
-/

namespace ClassLoom

/-! ## Names and paths -/

theorem flatten_splitOn {α : Type} [BEq α] (c : α) (xs : List α) :
    (xs.splitOn c).flatten = xs.filter fun x => !(x == c) := by
  induction xs with
  | nil => rfl
  | cons x xs ih =>
      obtain ⟨first, rest, hsplit⟩ := List.exists_cons_of_ne_nil (List.splitOn_ne_nil c xs)
      rw [hsplit] at ih
      rw [List.splitOn_cons_eq_if_modifyHead, hsplit]
      split
      · next hsame => simp [hsame, ← ih]
      · next hother => simp [hother, ← ih]

namespace Path

/-- The path begins with the names of the root, further names follow, and none of these
leads up. -/
def Below (root path : String) : Prop :=
  ∃ rest, segments path = segments root ++ rest ∧ rest ≠ [] ∧ up ∉ rest

theorem segments_append_slash (root path : String) :
    segments (root ++ "/" ++ path) = segments root ++ segments path := by
  have hsplit : (root ++ "/" ++ path).toList = root.toList ++ '/' :: path.toList := by simp
  unfold segments
  rw [hsplit, List.splitOn_append_cons_self, List.filter_append, List.map_append]

theorem segments_join {path : String} (h : startsWith path "/" = false) (root : String) :
    segments (join root path) = segments root ++ segments path := by
  unfold join
  rw [if_neg (by simp [h]), segments_append_slash]

theorem join_of_top {path : String} (h : startsWith path "/" = true) (root : String) :
    join root path = path := by
  unfold join
  rw [if_pos h]

end Path

namespace ClassName

theorem count_dot_resourcePath (n : ClassName) : n.resourcePath.toList.count '.' = 1 := by
  have hnone : (n.dotted.toList.map slashFor).count '.' = 0 := by
    rw [List.count_eq_zero, List.mem_map]
    rintro ⟨c, -, hc⟩
    exact slashFor_ne_dot c hc
  rw [toList_resourcePath, List.count_append, hnone]
  decide

theorem up_notMem_segments (n : ClassName) : Path.up ∉ Path.segments n.resourcePath := by
  intro h
  obtain ⟨piece, hpiece, hup⟩ := List.mem_map.mp h
  have htwo : piece.count '.' = 2 := by
    rw [← String.toList_ofList (l := piece), hup]
    decide
  have hsublist : piece.Sublist n.resourcePath.toList := by
    refine (List.sublist_flatten_of_mem (List.mem_of_mem_filter hpiece)).trans ?_
    rw [flatten_splitOn]
    exact List.filter_sublist
  have hle := hsublist.count_le '.'
  rw [htwo, count_dot_resourcePath] at hle
  omega

theorem segments_resourcePath_ne_nil (n : ClassName) : Path.segments n.resourcePath ≠ [] := by
  have hletter : 'c' ∈ (n.resourcePath.toList.splitOn '/').flatten := by
    rw [flatten_splitOn, toList_resourcePath, List.filter_append]
    exact List.mem_append_right _ (by decide)
  obtain ⟨piece, hpiece, hc⟩ := List.mem_flatten.mp hletter
  refine List.ne_nil_of_mem (List.mem_map_of_mem (List.mem_filter.mpr ⟨hpiece, ?_⟩))
  simpa using List.ne_nil_of_mem hc

/-- The name begins with a separator, so the path of the class file begins at the top. -/
def startsAtTop (text : String) : Bool :=
  startsWith text "." || startsWith text "/"

theorem startsWith_resourcePath (text : String) :
    startsWith (of text).resourcePath "/" = startsAtTop text := by
  have hlist : (of text).resourcePath.toList = text.toList.map slashFor ++ suffix.toList := by
    rw [resourcePath, String.toList_append, toList_internal_of]
  unfold startsAtTop startsWith
  rw [hlist]
  cases text.toList with
  | nil => decide
  | cons c cs =>
      have hfirst : ('/' == slashFor c) = ('.' == c || '/' == c) := by
        by_cases hdot : c = '.'
        · rw [hdot]
          decide
        · have hother : ('.' == c) = false := beq_eq_false_iff_ne.mpr (Ne.symm hdot)
          rw [slashFor_of_ne hdot, hother, Bool.false_or]
      simp [List.isPrefixOf, hfirst]

end ClassName

/-! ## Walks that do not lead up -/

section Walks

variable {s s' : Spot} {name : String} {names rest : List String}

/-- Where a step leads depends on what is here and not on the way, unless it leads up. -/
theorem map_here_follow (hsame : s.here = s'.here) (hup : name ≠ Path.up) :
    (s.follow name).map Spot.here = (s'.follow name).map Spot.here := by
  unfold Spot.follow
  rw [← hsame]
  cases s.here with
  | file data => rfl
  | directory entries =>
      dsimp only
      by_cases hself : name = Path.self
      · rw [if_pos hself, if_pos hself]
        exact congrArg Except.ok hsame
      · rw [if_neg hself, if_neg hself, if_neg hup, if_neg hup]
        split
        · rfl
        · cases entries.lookup name with
          | some below => rfl
          | none => rfl

theorem map_here_walk (hsame : s.here = s'.here) (hup : Path.up ∉ names) :
    (names.foldlM Spot.follow s).map Spot.here = (names.foldlM Spot.follow s').map Spot.here := by
  induction names generalizing s s' with
  | nil => exact congrArg Except.ok hsame
  | cons name names ih =>
      have hfirst := map_here_follow hsame fun hname : name = Path.up =>
        hup (hname ▸ List.mem_cons_self)
      rw [List.foldlM_cons, List.foldlM_cons]
      generalize s.follow name = x at hfirst
      generalize s'.follow name = x' at hfirst
      match x, x', hfirst with
      | .error fault, .error _, hfirst =>
          cases hfirst
          rfl
      | .ok t, .ok t', hfirst =>
          exact ih (Except.ok.inj hfirst) fun hmem => hup (List.mem_cons_of_mem name hmem)

/-- What names lead to from the top. -/
def Tree.target (t : Tree) (names : List String) : Except IoFault Tree :=
  (t.spot names).map Spot.here

theorem target_append (t : Tree) (names : List String) (hup : Path.up ∉ rest) :
    t.target (names ++ rest) = (t.target names).bind fun below => below.target rest := by
  unfold Tree.target Tree.spot
  rw [List.foldlM_append]
  cases names.foldlM Spot.follow ⟨t, []⟩ with
  | error fault => rfl
  | ok s =>
      have htop : s.here = (Spot.mk s.here []).here := rfl
      exact map_here_walk htop hup

/-- What is read where a path leads to something. -/
def Tree.contents (path : String) : Tree → Except IoFault Bytes
  | .directory _ => .error .isDirectory
  | .file data => if Path.endsInSlash path then .error .notDirectory else .ok data

theorem eq_file_of_contents {t : Tree} {path : String} {data : Bytes}
    (h : t.contents path = .ok data) : t = .file data := by
  cases t with
  | directory entries => cases h
  | file held =>
      simp only [Tree.contents] at h
      split at h
      · cases h
      · cases h
        rfl

theorem read_eq (t : Tree) (path : String) :
    t.read path =
      (Path.names path).bind fun names => (t.target names).bind (Tree.contents path) := by
  unfold Tree.read Tree.target
  cases Path.names path with
  | error fault => rfl
  | ok names =>
      show (t.spot names).bind _ = ((t.spot names).map Spot.here).bind _
      cases t.spot names with
      | error fault => rfl
      | ok s => rfl

theorem names_eq_ok {path : String} (h : Path.names path = .ok names) :
    names = Path.segments path := by
  unfold Path.names at h
  split at h
  · cases h
  · split at h
    · cases h
    · cases h
      rfl

theorem read_congr {t t' : Tree} {path : String}
    (h : t.target (Path.segments path) = t'.target (Path.segments path)) :
    t.read path = t'.read path := by
  rw [read_eq, read_eq]
  cases hnames : Path.names path with
  | error fault => rfl
  | ok names =>
      rw [names_eq_ok hnames]
      exact congrArg (Except.bind · _) h

/-- A file is read just when the file system takes the path and the path leads to the file. -/
theorem read_eq_ok {t : Tree} {path : String} {data : Bytes}
    (hopen : Path.endsInSlash path = false) :
    t.read path = .ok data ↔
      (∃ names, Path.names path = .ok names) ∧
        t.target (Path.segments path) = .ok (.file data) := by
  rw [read_eq]
  constructor
  · intro h
    obtain ⟨names, hnames, h⟩ := except_bind_eq_ok.mp h
    obtain ⟨found, hfound, hcontents⟩ := except_bind_eq_ok.mp h
    refine ⟨⟨names, hnames⟩, ?_⟩
    rw [← names_eq_ok hnames, hfound, eq_file_of_contents hcontents]
  · rintro ⟨⟨names, hnames⟩, hfound⟩
    rw [← names_eq_ok hnames] at hfound
    refine except_bind_eq_ok.mpr ⟨names, hnames, except_bind_eq_ok.mpr ⟨_, hfound, ?_⟩⟩
    simp [Tree.contents, hopen]

end Walks

/-! ## Class path directories -/

namespace Directory

theorem find_eq_some {d : Directory} {n : ClassName} {data : Bytes} :
    d.find n = .ok (some data) ↔ d.files.read (d.path n) = .ok data := by
  unfold find
  cases d.files.read (d.path n) with
  | ok held => simp
  | error fault => cases fault <;> simp

section Paths

variable {d : Directory} {text : String}

theorem path_of_top (h : ClassName.startsAtTop text = true) :
    d.path (.of text) = (ClassName.of text).resourcePath :=
  Path.join_of_top ((ClassName.startsWith_resourcePath text).trans h) d.root

theorem segments_path (h : ClassName.startsAtTop text = false) :
    Path.segments (d.path (.of text)) =
      Path.segments d.root ++ Path.segments (ClassName.of text).resourcePath :=
  Path.segments_join ((ClassName.startsWith_resourcePath text).trans h) d.root

theorem below_path_iff :
    Path.Below d.root (d.path (.of text)) ↔
      ClassName.startsAtTop text = false ∨
        Path.Below d.root (ClassName.of text).resourcePath := by
  cases htop : ClassName.startsAtTop text with
  | true => simp [path_of_top htop]
  | false =>
      refine iff_of_true ?_ (Or.inl rfl)
      exact ⟨_, segments_path htop, ClassName.segments_resourcePath_ne_nil _,
        ClassName.up_notMem_segments _⟩

/-- The path leads to what the resource path leads to from the root. -/
theorem target_path (files : Tree) (h : ClassName.startsAtTop text = false) :
    files.target (Path.segments (d.path (.of text))) =
      (files.target (Path.segments d.root)).bind fun below =>
        below.target (Path.segments (ClassName.of text).resourcePath) := by
  rw [segments_path h, target_append _ _ (ClassName.up_notMem_segments _)]

theorem endsInSlash_path (n : ClassName) : Path.endsInSlash (d.path n) = false := by
  obtain ⟨front, hfront⟩ : ∃ front, (d.path n).toList = front ++ ClassName.suffix.toList := by
    unfold path Path.join
    split
    · exact ⟨_, n.toList_resourcePath⟩
    · exact ⟨(d.root ++ "/").toList ++ n.dotted.toList.map slashFor, by
        rw [String.toList_append, n.toList_resourcePath, List.append_assoc]⟩
  unfold Path.endsInSlash
  rw [hfront, Bool.eq_false_iff, Ne, List.isSuffixOf_iff_suffix]
  rintro ⟨before, hsame⟩
  have hletter : ClassName.suffix.toList.getLast? = some 's' := by decide
  have hlast := congrArg List.getLast? hsame
  rw [List.getLast?_append, List.getLast?_append, hletter] at hlast
  simp at hlast

theorem find_congr {d' : Directory} {n : ClassName}
    (h : d'.files.read (d'.path n) = d.files.read (d.path n)) : d'.find n = d.find n := by
  unfold find
  rw [h]

end Paths

/-- A class whose name begins with neither a dot nor a slash is looked up below the root: what
is found is the file to which the resource path leads from the directory at the root, if the
file system takes the path, and nothing but that directory matters. Where the name begins with
one of them, the class is looked up from the top, whatever the root is. -/
theorem find_within_root (d : Directory) (text : String) :
    let n := ClassName.of text
    (Path.Below d.root (d.path n) ↔
      ClassName.startsAtTop text = false ∨ Path.Below d.root n.resourcePath) ∧
    (ClassName.startsAtTop text = false →
      (∀ data, d.find n = .ok (some data) ↔
        (∃ names, Path.names (d.path n) = .ok names) ∧
          ∃ below, d.files.target (Path.segments d.root) = .ok below ∧
            below.target (Path.segments n.resourcePath) = .ok (.file data)) ∧
      ∀ files, files.target (Path.segments d.root) = d.files.target (Path.segments d.root) →
        find ⟨files, d.root⟩ n = d.find n) ∧
    (ClassName.startsAtTop text = true → ∀ root, find ⟨d.files, root⟩ n = d.find n) := by
  dsimp only
  refine ⟨below_path_iff, fun hbelow => ⟨fun data => ?_, fun files hsame => ?_⟩,
    fun htop root => ?_⟩
  · rw [find_eq_some, read_eq_ok (endsInSlash_path _), target_path d.files hbelow,
      ← except_bind_eq_ok]
    rfl
  · refine find_congr (read_congr ?_)
    show files.target (Path.segments (d.path (.of text))) = _
    rw [target_path files hbelow, target_path d.files hbelow, hsame]
  · refine find_congr ?_
    rw [path_of_top htop, path_of_top htop]

/-- A class path directory with one class, and with another class beside it. -/
def stocked : Directory where
  files := .directory
    [("dev", .directory [("null", .file [])]),
      ("tmp", .directory
        [("Secret.class", .file [1]), ("class-path", .directory [("C.class", .file [2])])])]
  root := "/tmp/class-path"

theorem stocked_within_root :
    Path.Below stocked.root (stocked.path (.of "C")) ∧
      (∃ below, stocked.files.target (Path.segments stocked.root) = .ok below ∧
        below.target ["C.class"] = .ok (.file [2])) ∧
      (∀ files, files.target (Path.segments stocked.root) =
          stocked.files.target (Path.segments stocked.root) →
        find ⟨files, stocked.root⟩ (.of "C") = .ok (some [2])) ∧
      ∀ root, find ⟨stocked.files, root⟩ (.of "/tmp/Secret") = .ok (some [1]) := by
  obtain ⟨hpath, hbelow, -⟩ := find_within_root stocked "C"
  obtain ⟨-, -, htop⟩ := find_within_root stocked "/tmp/Secret"
  have hname : ClassName.startsAtTop "C" = false := by decide +kernel
  have hfound : stocked.find (.of "C") = .ok (some [2]) := by decide +kernel
  have houtside : stocked.find (.of "/tmp/Secret") = .ok (some [1]) := by decide +kernel
  obtain ⟨hfile, hsame⟩ := hbelow hname
  refine ⟨hpath.mpr (Or.inl hname), ?_, fun files h => (hsame files h).trans hfound, fun root => ?_⟩
  · obtain ⟨-, below, hroot, hclass⟩ := (hfile [2]).mp hfound
    have hsegments : Path.segments (ClassName.of "C").resourcePath = ["C.class"] := by
      decide +kernel
    exact ⟨below, hroot, hsegments ▸ hclass⟩
  · exact (htop (by decide +kernel) root).trans houtside

/-- Names that begin with a slash lead out of the directory, here through a file that is no
directory and to a class beside it. -/
theorem stocked_not_within_root :
    stocked.find (.of "/dev/null/A") = .error .notDirectory ∧
      stocked.find (.of "/tmp/Secret") = .ok (some [1]) ∧
      ¬ Path.Below stocked.root (stocked.path (.of "/dev/null/A")) ∧
      ¬ Path.Below stocked.root (stocked.path (.of "/tmp/Secret")) := by
  have hroot : Path.segments stocked.root = ["tmp", "class-path"] := by decide +kernel
  have hnull : Path.segments (stocked.path (.of "/dev/null/A")) = ["dev", "null", "A.class"] := by
    decide +kernel
  have hsecret : Path.segments (stocked.path (.of "/tmp/Secret")) = ["tmp", "Secret.class"] := by
    decide +kernel
  refine ⟨by decide +kernel, by decide +kernel, ?_, ?_⟩
  · rintro ⟨rest, hsegments, -⟩
    rw [hroot, hnull] at hsegments
    simp at hsegments
  · rintro ⟨rest, hsegments, -⟩
    rw [hroot, hsecret] at hsegments
    simp at hsegments

end Directory

end ClassLoom
