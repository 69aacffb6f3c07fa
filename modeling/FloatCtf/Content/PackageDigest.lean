import FloatCtf.Content.PackageZip
import FloatCtf.Net.Record
import Mathlib.Data.List.Destutter
import Mathlib.Data.List.Sort
import Mathlib.Data.String.Basic

/-!
# The digest of a package

`compute_package_digest` hashes `meta.toml` and the files below the included directories, each with
its path, sorted by the text that stands for the path.

`digest_exact_iff` says for which paths the digest tells two packages apart when their files differ,
and only then.  The text of a path has a slash for every backslash and U+FFFD for what is not UTF-8;
the digest is exact for the paths that these two replacements keep apart.
-/

namespace FloatCtf.Content.PackageDigest

open List
open PackageZip (PackageError)

/-! ## Trees of files -/

/-- A name in a directory. -/
@[ext] structure Name where
  bytes : List UInt8
  ne_nil : bytes ≠ []
  no_slash : 47 ∉ bytes
  no_nul : 0 ∉ bytes
  ne_dot : bytes ≠ [46]
  ne_dots : bytes ≠ [46, 46]
  deriving DecidableEq

/-- A path below the package root. -/
abbrev Path := List Name

/-- The bytes of a file, with a length that a `u64` holds. -/
@[ext] structure Contents where
  bytes : List UInt8
  length_lt : bytes.length < 256 ^ 8
  deriving DecidableEq

/-- A file without a byte. -/
def Contents.empty : Contents := ⟨[], by decide⟩

mutual

/-- What a name stands for; a link has behind it what it leads to, and `special` is neither a file
nor a directory, or nothing at all behind a link. -/
inductive Node where
  | file (contents : Contents)
  | dir (entries : Entries)
  | link (target : Node)
  | special

/-- A directory in the order it is listed in. -/
inductive Entries where
  | nil
  | cons (name : Name) (node : Node) (rest : Entries)

end

/-- What a path leads to once symlinks are followed. -/
def Node.resolve : Node → Node
  | .link target => target.resolve
  | node => node

/-- The entry of this name. -/
def Entries.get (name : Name) : Entries → Option Node
  | .nil => none
  | .cons name' node rest => if name' = name then some node else rest.get name

/-- What is at the path below a node, behind all links. -/
def Node.find : Node → Path → Option Node
  | node, [] => some node.resolve
  | node, name :: path =>
    match node.resolve with
    | .dir entries => (entries.get name).bind fun child => child.find path
    | _ => none

/-! ## `compute_package_digest` -/

/-- The name `meta.toml`. -/
def metaToml : Name where
  bytes := [109, 101, 116, 97, 46, 116, 111, 109, 108]
  ne_nil := by decide
  no_slash := by decide
  no_nul := by decide
  ne_dot := by decide
  ne_dots := by decide

/-- The bytes of a path below the package. -/
def pathBytes (path : Path) : List UInt8 := [47].intercalate (path.map Name.bytes)

/-- `to_string_lossy`. -/
def toStringLossy (path : Path) : String := Text.decodeLossy (pathBytes path)

/-- A backslash is read as a slash. -/
def slashed (c : Char) : Char := if c = '\\' then '/' else c

/-- The text that stands for a path. -/
def relText (path : Path) : String := .ofList ((toStringLossy path).toList.map slashed)

mutual

/-- `collect_tree`: the files below a directory. -/
def collectTree (dir : Path) : Entries → Except PackageError (List (String × Path))
  | .nil => .ok []
  | .cons name node rest => do
    let files ← collectEntry (dir ++ [name]) node
    let others ← collectTree dir rest
    return files ++ others

/-- An entry: a symlink is refused, a directory is searched, a file is taken. -/
def collectEntry (path : Path) : Node → Except PackageError (List (String × Path))
  | .link _ => .error (.validation "INVALID_PATH: symlinks are not allowed in packages")
  | .dir entries => collectTree path entries
  | .file _ => .ok [(relText path, path)]
  | .special => .ok []

end

/-- The file that is in every digest, if there is one. -/
def metaFile (root : Node) : List (String × Path) :=
  match root.find [metaToml] with
  | some (.file _) => [("meta.toml", [metaToml])]
  | _ => []

/-- `collect_dir`: the files below an included directory; what is none has no files. -/
def collectDir (root : Node) (dir : Path) : Except PackageError (List (String × Path)) :=
  match root.find dir with
  | some (.dir entries) => collectTree dir entries
  | _ => .ok []

/-- The files of all included directories. -/
def collectDirs (root : Node) : List Path → Except PackageError (List (String × Path))
  | [] => .ok []
  | dir :: dirs => do
    let files ← collectDir root dir
    let others ← collectDirs root dirs
    return files ++ others

/-- Sorted by the text; of the files with one text, the first stays. -/
def sortFiles (files : List (String × Path)) : List (String × Path) :=
  (files.mergeSort fun a b => decide (a.1 ≤ b.1)).destutter fun a b => a.1 ≠ b.1

/-- What is hashed for a file. -/
def record (r : String × Contents) : List UInt8 :=
  (Text.encode r.1 ++ [0]) ++ 102 :: (Record.leBytes 8 r.2.bytes.length ++ r.2.bytes)

/-- The error of a read that finds no file. -/
def readError : Option Node → String
  | none => "No such file or directory (os error 2)"
  | some (.dir _) => "Is a directory (os error 21)"
  | some _ => "No such device or address (os error 6)"

/-- Name, length and contents of every file, one after the other. -/
def hashFiles (root : Node) : List (String × Path) → Except PackageError (List UInt8)
  | [] => .ok []
  | (rel, abs) :: files =>
    match root.find abs with
    | some (.file contents) => do
      let others ← hashFiles root files
      return record (rel, contents) ++ others
    | node => .error (.validation s!"INVALID_PACKAGE: read {rel}: {readError node}")

/-- The bytes that go into the hash. -/
def hashInput (root : Node) (includeDirs : List Path) : Except PackageError (List UInt8) := do
  let files ← collectDirs root includeDirs
  hashFiles root (sortFiles (metaFile root ++ files))

/-- `compute_package_digest`: the digest of the package as hexadecimal text. -/
def computePackageDigest (sha256 : List UInt8 → List UInt8) (root : Node)
    (includeDirs : List Path) : Except PackageError String := do
  let bytes ← hashInput root includeDirs
  return Record.hexEncode (sha256 bytes)

/-! ## Packages -/

mutual

/-- Nothing but files and directories. -/
def Node.Regular : Node → Prop
  | .file _ => True
  | .dir entries => entries.Regular
  | _ => False

/-- Files and directories only, under names of their own. -/
def Entries.Regular : Entries → Prop
  | .nil => True
  | .cons name node rest => rest.get name = none ∧ node.Regular ∧ rest.Regular

end

/-- A tree of directories and regular files. -/
structure Package where
  entries : Entries
  regular : entries.Regular

/-- The root directory of a package. -/
def Package.root (t : Package) : Node := .dir t.entries

/-- The paths that the digest is about. -/
def Included (includeDirs : List Path) (path : Path) : Prop :=
  path = [metaToml] ∨ ∃ dir ∈ includeDirs, dir <+: path ∧ dir ≠ path

/-- The files that the digest is about. -/
def Package.files (t : Package) (includeDirs : List Path) : Set (Path × Contents) :=
  {f | Included includeDirs f.1 ∧ t.root.find f.1 = some (.file f.2)}

/-- The digests of the two packages agree when their files do, and only then. -/
def Exact (includeDirs : List Path) (t u : Package) : Prop :=
  (hashInput t.root includeDirs = hashInput u.root includeDirs ↔
      t.files includeDirs = u.files includeDirs) ∧
    ∀ sha256 : List UInt8 → List UInt8,
      Set.InjOn sha256 {bytes | ∃ v : Package, hashInput v.root includeDirs = .ok bytes} →
      (computePackageDigest sha256 t.root includeDirs =
          computePackageDigest sha256 u.root includeDirs ↔
        t.files includeDirs = u.files includeDirs)

/-! ### Finding -/

theorem resolve_resolve : ∀ n : Node, n.resolve.resolve = n.resolve
  | .file _ | .dir _ | .special => rfl
  | .link target => by
    rw [Node.resolve]
    exact resolve_resolve target

theorem find_resolve (n : Node) (path : Path) : n.resolve.find path = n.find path := by
  cases path <;> simp [Node.find, resolve_resolve]

theorem find_append (n : Node) (p q : Path) :
    n.find (p ++ q) = (n.find p).bind fun m => m.find q := by
  induction p generalizing n with
  | nil => simp [Node.find, find_resolve]
  | cons name p ih =>
    rw [cons_append, Node.find, Node.find]
    split
    · rename_i entries _
      cases entries.get name with
      | none => rfl
      | some child => exact ih child
    · rfl

theorem Node.Regular.resolve {n : Node} (h : n.Regular) : n.resolve = n := by
  cases n with
  | link target => exact absurd h (by simp [Node.Regular])
  | _ => rfl

theorem Entries.Regular.get : ∀ {es : Entries} {name : Name} {n : Node}, es.Regular →
    es.get name = some n → n.Regular
  | .nil, _, _, _, h => by simp [Entries.get] at h
  | .cons name' node rest, name, n, hes, h => by
    rw [Entries.get] at h
    rw [Entries.Regular] at hes
    split at h
    · exact Option.some.inj h ▸ hes.2.1
    · exact Entries.Regular.get hes.2.2 h

theorem Node.Regular.find {n m : Node} {path : Path} (h : n.Regular)
    (hm : n.find path = some m) : m.Regular := by
  induction path generalizing n with
  | nil =>
    rw [Node.find, h.resolve] at hm
    exact Option.some.inj hm ▸ h
  | cons name path ih =>
    rw [Node.find, h.resolve] at hm
    split at hm
    · rename_i entries
      obtain ⟨child, hchild, hm⟩ := Option.bind_eq_some_iff.1 hm
      rw [Node.Regular] at h
      exact ih (h.get hchild) hm
    · cases hm

theorem find_file_eq_some_iff {c : Contents} {path : Path} {m : Node} :
    (Node.file c).find path = some m ↔ path = [] ∧ m = .file c := by
  cases path <;> simp [Node.find, Node.resolve, eq_comm]

theorem find_dir_cons {es : Entries} {name : Name} {path : Path} :
    (Node.dir es).find (name :: path) = (es.get name).bind fun child => child.find path := rfl

/-! ### Collecting -/

mutual

/-- The files below a node. -/
def Node.paths : Node → List Path
  | .file _ => [[]]
  | .dir entries => entries.paths
  | _ => []

/-- The paths of the files below. -/
def Entries.paths : Entries → List Path
  | .nil => []
  | .cons name node rest => node.paths.map (name :: ·) ++ rest.paths

end

mutual

theorem collectTree_eq : ∀ {es : Entries} (_ : es.Regular) (dir : Path),
    collectTree dir es = .ok (es.paths.map fun q => (relText (dir ++ q), dir ++ q))
  | .nil, _, _ => rfl
  | .cons name node rest, h, dir => by
    rw [Entries.Regular] at h
    simp [collectTree, collectEntry_eq h.2.1, collectTree_eq h.2.2, Entries.paths, Except.bind,
      bind, pure, Except.pure, Function.comp_def]

theorem collectEntry_eq : ∀ {n : Node} (_ : n.Regular) (path : Path),
    collectEntry path n = .ok (n.paths.map fun q => (relText (path ++ q), path ++ q))
  | .file _, _, _ => by simp [collectEntry, Node.paths]
  | .dir _, h, path => by
    rw [Node.Regular] at h
    rw [collectEntry, collectTree_eq h, Node.paths]
  | .link _, h, _ => absurd h (by simp [Node.Regular])
  | .special, h, _ => absurd h (by simp [Node.Regular])

end

mutual

theorem mem_paths_entries : ∀ {es : Entries} (_ : es.Regular) {q : Path},
    q ∈ es.paths ↔ ∃ c, (Node.dir es).find q = some (.file c)
  | .nil, _, q => by cases q <;> simp [Entries.paths, Node.find, Node.resolve, Entries.get]
  | .cons name node rest, h, q => by
    rw [Entries.Regular] at h
    cases q with
    | nil =>
      have hrest := mem_paths_entries h.2.2 (q := [])
      simpa [Entries.paths, Node.find, Node.resolve] using hrest
    | cons name' q =>
      have hrest := mem_paths_entries h.2.2 (q := name' :: q)
      rw [Entries.paths, mem_append, hrest]
      simp only [find_dir_cons, Entries.get, mem_map, cons.injEq, exists_eq_right_right]
      split
      · rename_i heq
        subst heq
        simp [h.1, mem_paths h.2.1]
      · rename_i hne
        simp [hne]

theorem mem_paths : ∀ {n : Node} (_ : n.Regular) {q : Path},
    q ∈ n.paths ↔ ∃ c, n.find q = some (.file c)
  | .file c, _, q => by
    simp [Node.paths, find_file_eq_some_iff]
  | .dir es, h, q => by
    rw [Node.Regular] at h
    rw [Node.paths, mem_paths_entries h]
  | .link _, h, _ => absurd h (by simp [Node.Regular])
  | .special, h, _ => absurd h (by simp [Node.Regular])

end

theorem Package.root_regular (t : Package) : t.root.Regular := by
  rw [Package.root, Node.Regular]
  exact t.regular

/-- An included directory adds the files below it. -/
theorem collectDir_eq (t : Package) (dir : Path) : ∃ fs, collectDir t.root dir = .ok fs ∧
    ∀ f, f ∈ fs ↔ f.1 = relText f.2 ∧ (dir <+: f.2 ∧ dir ≠ f.2) ∧
      ∃ c, t.root.find f.2 = some (.file c) := by
  unfold collectDir
  split
  · rename_i entries hfind
    have hreg : entries.Regular := by
      have h := t.root_regular.find hfind
      rwa [Node.Regular] at h
    refine ⟨_, collectTree_eq hreg dir, fun f => ?_⟩
    rw [mem_map]
    constructor
    · rintro ⟨q, hq, rfl⟩
      obtain ⟨c, hc⟩ := (mem_paths_entries hreg).1 hq
      have hne : q ≠ [] := by
        rintro rfl
        simp [Node.find, Node.resolve] at hc
      exact ⟨rfl, ⟨prefix_append dir q, by simpa using hne.symm⟩, c, by
        rw [find_append, hfind, Option.bind_some, hc]⟩
    · rintro ⟨hrel, ⟨⟨q, hq⟩, -⟩, c, hc⟩
      rw [← hq, find_append, hfind, Option.bind_some] at hc
      exact ⟨q, (mem_paths_entries hreg).2 ⟨c, hc⟩, by rw [hq, ← hrel]⟩
  · rename_i hnone
    refine ⟨[], rfl, fun f => ⟨by simp, ?_⟩⟩
    rintro ⟨-, ⟨⟨q, hq⟩, hne⟩, c, hc⟩
    rw [← hq, find_append] at hc
    obtain ⟨m, hm, hc⟩ := Option.bind_eq_some_iff.1 hc
    have hreg := t.root_regular.find hm
    cases m with
    | file c' => exact absurd (by simpa [(find_file_eq_some_iff.1 hc).1] using hq) hne
    | dir entries => exact absurd hm (hnone entries)
    | link target => exact absurd hreg (by simp [Node.Regular])
    | special => exact absurd hreg (by simp [Node.Regular])

theorem collectDirs_eq (t : Package) (includeDirs : List Path) :
    ∃ fs, collectDirs t.root includeDirs = .ok fs ∧
      ∀ f, f ∈ fs ↔ f.1 = relText f.2 ∧ (∃ dir ∈ includeDirs, dir <+: f.2 ∧ dir ≠ f.2) ∧
        ∃ c, t.root.find f.2 = some (.file c) := by
  induction includeDirs with
  | nil => exact ⟨[], rfl, by simp⟩
  | cons dir dirs ih =>
    obtain ⟨fs, hfs, hmem⟩ := collectDir_eq t dir
    obtain ⟨others, hothers, hmem'⟩ := ih
    refine ⟨fs ++ others, by rw [collectDirs, hfs, hothers]; rfl, fun f => ?_⟩
    rw [mem_append, hmem, hmem']
    simp only [exists_mem_cons_iff, or_and_right, and_or_left]

theorem relText_metaToml : relText [metaToml] = "meta.toml" := by
  decide +kernel

/-- The files of the package, in any order, with the texts of their paths. -/
theorem collected_eq (t : Package) (includeDirs : List Path) :
    ∃ fs, collectDirs t.root includeDirs = .ok fs ∧
      ∀ f, f ∈ metaFile t.root ++ fs ↔ f.1 = relText f.2 ∧ Included includeDirs f.2 ∧
        ∃ c, t.root.find f.2 = some (.file c) := by
  obtain ⟨fs, hfs, hmem⟩ := collectDirs_eq t includeDirs
  have hmeta : ∀ f, f ∈ metaFile t.root ↔
      f.1 = relText f.2 ∧ f.2 = [metaToml] ∧ ∃ c, t.root.find f.2 = some (.file c) := by
    rintro ⟨rel, path⟩
    unfold metaFile
    split
    · rename_i c hc
      simp only [mem_singleton, Prod.mk.injEq]
      constructor
      · rintro ⟨rfl, rfl⟩
        exact ⟨relText_metaToml.symm, rfl, c, hc⟩
      · rintro ⟨rfl, rfl, -⟩
        exact ⟨relText_metaToml, rfl⟩
    · rename_i hnone
      simp only [not_mem_nil, false_iff, not_and, not_exists]
      rintro - rfl c hc
      exact hnone c hc
  refine ⟨fs, hfs, fun f => ?_⟩
  rw [mem_append, hmeta, hmem, Included]
  simp only [or_and_right, and_or_left]

/-! ### Sorting -/

section Sorting

variable {fs : List (String × Path)}

theorem mem_of_mem_sortFiles {f : String × Path} (h : f ∈ sortFiles fs) : f ∈ fs :=
  (mergeSort_perm fs _).mem_iff.1 ((destutter_sublist _ _).subset h)

/-- Every text that is left out is there with another file. -/
theorem exists_mem_destutter' {α β : Type} [DecidableEq β] (key : α → β) (l : List α) (a : α) :
    ∀ b ∈ a :: l, ∃ c ∈ l.destutter' (fun a b => key a ≠ key b) a, key c = key b := by
  induction l generalizing a with
  | nil => simp
  | cons b l ih =>
    intro c hc
    rw [destutter'_cons]
    split
    · rcases mem_cons.1 hc with rfl | hc
      · exact ⟨c, mem_cons_self, rfl⟩
      · obtain ⟨d, hd, hkey⟩ := ih b c hc
        exact ⟨d, mem_cons_of_mem _ hd, hkey⟩
    · rename_i hab
      rcases mem_cons.1 hc with rfl | hc
      · exact ih c c mem_cons_self
      · rcases mem_cons.1 hc with rfl | hc
        · obtain ⟨d, hd, hkey⟩ := ih a a mem_cons_self
          exact ⟨d, hd, hkey.trans (not_not.1 hab)⟩
        · exact ih a c (mem_cons_of_mem _ hc)

theorem exists_mem_sortFiles {f : String × Path} (h : f ∈ fs) : ∃ g ∈ sortFiles fs, g.1 = f.1 := by
  rw [← (mergeSort_perm fs fun a b => decide (a.1 ≤ b.1)).mem_iff] at h
  unfold sortFiles
  cases hs : fs.mergeSort fun a b => decide (a.1 ≤ b.1) with
  | nil => simp [hs] at h
  | cons a l =>
    rw [hs] at h
    exact exists_mem_destutter' Prod.fst l a f h

theorem pairwise_sortFiles : (sortFiles fs).Pairwise fun a b => a.1 < b.1 := by
  have hle : (sortFiles fs).Pairwise fun a b => a.1 ≤ b.1 := by
    refine Pairwise.sublist (destutter_sublist _ _) ?_
    have h := @pairwise_mergeSort _ (fun a b : String × Path => decide (a.1 ≤ b.1))
      (fun a b c hab hbc => decide_eq_true ((of_decide_eq_true hab).trans (of_decide_eq_true hbc)))
      (fun a b => by simpa using le_total a.1 b.1) fs
    simpa using h
  have hne : (sortFiles fs).IsChain fun a b => a.1 ≠ b.1 := isChain_destutter _ _
  have : IsTrans (String × Path) fun a b => a.1 < b.1 := ⟨fun _ _ _ => lt_trans⟩
  refine isChain_iff_pairwise.1 (isChain_iff_getElem.2 fun i hi => lt_of_le_of_ne ?_ ?_)
  · exact isChain_iff_getElem.1 hle.isChain i hi
  · exact isChain_iff_getElem.1 hne i hi

end Sorting

/-! ### Records -/

/-- A record ends where it ends, unless its text has a NUL in it. -/
theorem selfDelimiting_record :
    Record.SelfDelimiting {r : String × Contents | 0 ∉ Text.encode r.1} record := by
  have htext : Record.SelfDelimiting {s : String | 0 ∉ Text.encode s}
      fun s => Text.encode s ++ [0] :=
    .of_endMark (fun _ h => h) Text.encode_injective.injOn
  have hbytes : Record.SelfDelimiting Set.univ
      ((fun u : List UInt8 => Record.leBytes 8 u.length ++ u) ∘ Contents.bytes) :=
    (Record.selfDelimiting_leBytes 8).of_lengthPrefix.comp (fun c _ => c.length_lt)
      fun _ _ _ _ h => Contents.ext h
  have h := htext.prod (hbytes.cons 102)
  intro r hr r' hr' x y heq
  exact h r ⟨hr, trivial⟩ r' ⟨hr', trivial⟩ x y heq

@[simp] theorem pathBytes_singleton (name : Name) : pathBytes [name] = name.bytes := by
  simp [pathBytes]

@[simp] theorem pathBytes_cons_cons (name name' : Name) (path : Path) :
    pathBytes (name :: name' :: path) = name.bytes ++ 47 :: pathBytes (name' :: path) := by
  simp [pathBytes, intercalate_cons_cons]

theorem notMem_pathBytes (path : Path) : 0 ∉ pathBytes path := by
  induction path with
  | nil => simp [pathBytes]
  | cons name path ih =>
    cases path with
    | nil => simpa using name.no_nul
    | cons name' path => simpa using ⟨name.no_nul, ih⟩

theorem notMem_encode_relText (path : Path) : 0 ∉ Text.encode (relText path) := by
  rw [relText, Text.encode_ofList, mem_flatMap]
  rintro ⟨c, hc, hb⟩
  obtain ⟨d, hd, rfl⟩ := mem_map.1 hc
  have hzero := (Text.mem_utf8EncodeChar_of_lt (by decide)).1 hb
  by_cases hslash : d = '\\'
  · rw [slashed, if_pos hslash] at hzero
    simp at hzero
  · rw [slashed, if_neg hslash] at hzero hb
    have hne : d ≠ '\uFFFD' := by
      rintro rfl
      simp at hzero
    exact notMem_pathBytes path (Text.mem_of_mem_decodeLossy hd hne hb)

theorem hashFiles_eq {root : Node} {fs : List (String × Path)} {contents : Path → Contents}
    (h : ∀ f ∈ fs, root.find f.2 = some (.file (contents f.2))) :
    hashFiles root fs = .ok ((fs.map fun f => (f.1, contents f.2)).flatMap record) := by
  induction fs with
  | nil => rfl
  | cons f fs ih =>
    obtain ⟨rel, abs⟩ := f
    rw [hashFiles, h (rel, abs) mem_cons_self]
    simp only
    rw [ih fun f hf => h f (mem_cons_of_mem _ hf)]
    rfl

/-! ### What is hashed -/

/-- The contents of the file at a path. -/
def contentsAt (root : Node) (path : Path) : Contents :=
  match root.find path with
  | some (.file c) => c
  | _ => .empty

section Hashed

variable {t u : Package} {includeDirs : List Path}

/-- The records are sorted by text, one for every text that a file has. -/
theorem hashInput_eq (t : Package) (includeDirs : List Path) : ∃ rs : List (String × Contents),
    hashInput t.root includeDirs = .ok (rs.flatMap record) ∧
      (rs.Pairwise fun a b => a.1 < b.1) ∧
      (∀ r ∈ rs, ∃ f ∈ t.files includeDirs, r = (relText f.1, f.2)) ∧
      ∀ f ∈ t.files includeDirs, ∃ g ∈ t.files includeDirs,
        relText g.1 = relText f.1 ∧ (relText g.1, g.2) ∈ rs := by
  obtain ⟨fs, hfs, hmem⟩ := collected_eq t includeDirs
  have hsorted : ∀ f ∈ sortFiles (metaFile t.root ++ fs), f.1 = relText f.2 ∧
      (f.2, contentsAt t.root f.2) ∈ t.files includeDirs := by
    intro f hf
    obtain ⟨hrel, hinc, c, hc⟩ := (hmem f).1 (mem_of_mem_sortFiles hf)
    exact ⟨hrel, hinc, by rw [contentsAt, hc]⟩
  refine ⟨(sortFiles (metaFile t.root ++ fs)).map fun f => (f.1, contentsAt t.root f.2),
    ?_, pairwise_map.2 pairwise_sortFiles, ?_, ?_⟩
  · rw [hashInput, hfs]
    exact hashFiles_eq fun f hf => (hsorted f hf).2.2
  · intro r hr
    obtain ⟨f, hf, rfl⟩ := mem_map.1 hr
    exact ⟨_, (hsorted f hf).2, by rw [(hsorted f hf).1]⟩
  · rintro ⟨path, c⟩ ⟨hinc, hc⟩
    obtain ⟨g, hg, hrel⟩ := exists_mem_sortFiles ((hmem (relText path, path)).2 ⟨rfl, hinc, c, hc⟩)
    obtain ⟨hgrel, hgfile⟩ := hsorted g hg
    exact ⟨_, hgfile, hgrel.symm.trans hrel, mem_map.2 ⟨g, hg, by rw [hgrel]⟩⟩

theorem eq_of_pairwise_lt {β : Type} {l l' : List (String × β)}
    (hl : l.Pairwise fun a b => a.1 < b.1) (hl' : l'.Pairwise fun a b => a.1 < b.1)
    (h : ∀ r, r ∈ l ↔ r ∈ l') : l = l' := by
  have : Std.Irrefl fun a b : String × β => a.1 < b.1 := ⟨fun a => lt_irrefl a.1⟩
  have : Std.Antisymm fun a b : String × β => a.1 < b.1 := ⟨fun _ _ hab hba =>
    absurd hba hab.not_gt⟩
  exact hl.eq_of_mem_iff hl' h

/-- The texts of the files tell their paths apart. -/
def Package.Legible (t : Package) (includeDirs : List Path) : Prop :=
  Set.InjOn relText {path | ∃ c, (path, c) ∈ t.files includeDirs}

/-- The records are those of the files. -/
theorem Package.Legible.hashInput_eq (h : t.Legible includeDirs) :
    ∃ rs : List (String × Contents), hashInput t.root includeDirs = .ok (rs.flatMap record) ∧
      (rs.Pairwise fun a b => a.1 < b.1) ∧
      ∀ r, r ∈ rs ↔ ∃ f ∈ t.files includeDirs, r = (relText f.1, f.2) := by
  obtain ⟨rs, heq, hsorted, hfiles, hrecords⟩ := PackageDigest.hashInput_eq t includeDirs
  refine ⟨rs, heq, hsorted, fun r => ⟨hfiles r, ?_⟩⟩
  rintro ⟨f, hf, rfl⟩
  obtain ⟨g, hg, hrel, hmem⟩ := hrecords f hf
  have hpath : g.1 = f.1 := h ⟨g.2, hg⟩ ⟨f.2, hf⟩ hrel
  have hcontents : g.2 = f.2 := by
    have hfind := hg.2
    rw [hpath, hf.2] at hfind
    simpa using hfind.symm
  rwa [hpath, hcontents] at hmem

/-- The texts of the files of both packages tell their paths apart. -/
def Distinguishable (includeDirs : List Path) (t u : Package) : Prop :=
  Set.InjOn relText {path | ∃ c, (path, c) ∈ t.files includeDirs ∪ u.files includeDirs}

theorem Distinguishable.symm (h : Distinguishable includeDirs t u) :
    Distinguishable includeDirs u t := by
  rwa [Distinguishable, Set.union_comm]

theorem Distinguishable.legible (h : Distinguishable includeDirs t u) :
    t.Legible includeDirs := by
  refine Set.InjOn.mono ?_ h
  rintro path ⟨c, hc⟩
  exact ⟨c, .inl hc⟩

theorem Distinguishable.files_subset (h : Distinguishable includeDirs t u)
    (hrecord : ∀ f ∈ t.files includeDirs, ∃ g ∈ u.files includeDirs,
      (relText f.1, f.2) = (relText g.1, g.2)) :
    t.files includeDirs ⊆ u.files includeDirs := by
  intro f hf
  obtain ⟨g, hg, heq⟩ := hrecord f hf
  obtain ⟨hrel, hcontents⟩ := Prod.mk.inj heq
  have hpath : f.1 = g.1 := h ⟨f.2, .inl hf⟩ ⟨g.2, .inr hg⟩ hrel
  rwa [Prod.ext hpath hcontents]

/-- One stream for two packages means one set of files. -/
theorem Distinguishable.hashInput_eq_iff (h : Distinguishable includeDirs t u) :
    hashInput t.root includeDirs = hashInput u.root includeDirs ↔
      t.files includeDirs = u.files includeDirs := by
  obtain ⟨rs, heq, hsorted, hmem⟩ := h.legible.hashInput_eq
  obtain ⟨rs', heq', hsorted', hmem'⟩ := h.symm.legible.hashInput_eq
  rw [heq, heq', Except.ok.injEq]
  constructor
  · intro hstream
    have hrs : rs = rs' := by
      refine selfDelimiting_record.flatMap_injOn (by simp [record]) ?_ ?_ hstream
      · intro r hr
        obtain ⟨f, -, rfl⟩ := (hmem r).1 hr
        exact notMem_encode_relText f.1
      · intro r hr
        obtain ⟨f, -, rfl⟩ := (hmem' r).1 hr
        exact notMem_encode_relText f.1
    subst hrs
    refine Set.Subset.antisymm (h.files_subset fun f hf => ?_) (h.symm.files_subset fun f hf => ?_)
    · exact (hmem' _).1 ((hmem _).2 ⟨f, hf, rfl⟩)
    · exact (hmem _).1 ((hmem' _).2 ⟨f, hf, rfl⟩)
  · intro hsame
    rw [eq_of_pairwise_lt hsorted hsorted' fun r => by rw [hmem, hmem', hsame]]

end Hashed

theorem digest_eq_iff {t u : Package} {includeDirs : List Path} {sha256 : List UInt8 → List UInt8}
    (h : Set.InjOn sha256 {bytes | ∃ v : Package, hashInput v.root includeDirs = .ok bytes}) :
    computePackageDigest sha256 t.root includeDirs =
        computePackageDigest sha256 u.root includeDirs ↔
      hashInput t.root includeDirs = hashInput u.root includeDirs := by
  obtain ⟨rs, heq, -⟩ := hashInput_eq t includeDirs
  obtain ⟨rs', heq', -⟩ := hashInput_eq u includeDirs
  rw [computePackageDigest, computePackageDigest, heq, heq', Except.ok.injEq]
  constructor
  · intro hdigest
    exact h ⟨t, heq⟩ ⟨u, heq'⟩ (Record.hexEncode_injective (Except.ok.inj hdigest))
  · intro hbytes
    rw [hbytes]

/-! ## Packages of one file -/

/-- A tree with one file. -/
def singleNode : Path → Contents → Node
  | [], c => .file c
  | name :: path, c => .dir (.cons name (singleNode path c) .nil)

theorem regular_singleNode (path : Path) (c : Contents) : (singleNode path c).Regular := by
  induction path with
  | nil => simp [singleNode, Node.Regular]
  | cons name path ih =>
    rw [singleNode, Node.Regular, Entries.Regular]
    exact ⟨rfl, ih, by simp [Entries.Regular]⟩

theorem find_singleNode {path : Path} {c : Contents} {q : Path} {c' : Contents} :
    (singleNode path c).find q = some (.file c') ↔ q = path ∧ c' = c := by
  induction path generalizing q with
  | nil =>
    rw [singleNode, find_file_eq_some_iff]
    simp
  | cons name path ih =>
    cases q with
    | nil => simp [singleNode, Node.find, Node.resolve]
    | cons name' q =>
      rw [singleNode, find_dir_cons, Entries.get]
      split
      · rename_i heq
        subst heq
        simp [ih]
      · rename_i hne
        simp [Entries.get, Ne.symm hne]

/-- The package with one file. -/
def single (name : Name) (path : Path) (c : Contents) : Package where
  entries := .cons name (singleNode path c) .nil
  regular := by
    rw [Entries.Regular]
    exact ⟨rfl, regular_singleNode path c, by simp [Entries.Regular]⟩

section Single

variable {includeDirs : List Path} {name : Name} {path : Path} {c : Contents}

theorem files_single (h : Included includeDirs (name :: path)) :
    (single name path c).files includeDirs = {(name :: path, c)} := by
  ext ⟨q, c'⟩
  have hfind : (single name path c).root.find q = some (.file c') ↔
      q = name :: path ∧ c' = c := @find_singleNode (name :: path) _ _ _
  simp only [Package.files, Set.mem_ofPred_eq, Set.mem_singleton_iff, Prod.mk.injEq, hfind]
  constructor
  · exact fun h => h.2
  · rintro ⟨rfl, rfl⟩
    exact ⟨h, rfl, rfl⟩

theorem hashInput_single (h : Included includeDirs (name :: path)) :
    hashInput (single name path c).root includeDirs = .ok (record (relText (name :: path), c)) := by
  have hlegible : (single name path c).Legible includeDirs := by
    rw [Package.Legible, files_single h]
    rintro p ⟨_, hp⟩ q ⟨_, hq⟩ -
    rw [(Prod.mk.inj hp).1, (Prod.mk.inj hq).1]
  obtain ⟨rs, heq, hsorted, hmem⟩ := hlegible.hashInput_eq
  rw [heq, eq_of_pairwise_lt hsorted (pairwise_singleton _ (relText (name :: path), c)) fun r => ?_]
  · simp
  · rw [hmem, files_single h]
    simp

end Single

/-! ## The digest is exact -/

/-- All files that the digest is about are at paths of the set. -/
def Package.Within (t : Package) (includeDirs : List Path) (S : Set Path) : Prop :=
  ∀ f ∈ t.files includeDirs, f.1 ∈ S

theorem Included.ne_nil {includeDirs : List Path} {path : Path} (h : Included includeDirs path) :
    path ≠ [] := by
  rintro rfl
  rcases h with h | ⟨dir, -, hdir, hne⟩
  · cases h
  · exact hne (prefix_nil.1 hdir)

/-- Two characters with one place in a text: the same, or both separators. -/
def Alike (c d : Char) : Prop := c = d ∨ (c ∈ ['/', '\\'] ∧ d ∈ ['/', '\\'])

theorem alike_iff {c d : Char} : Alike c d ↔ slashed c = slashed d := by
  unfold Alike slashed
  grind

/-- The texts of two paths are equal when the paths read alike, but for the separators. -/
theorem relText_eq_iff {p q : Path} :
    relText p = relText q ↔ Forall₂ Alike (toStringLossy p).toList (toStringLossy q).toList := by
  rw [relText, relText, String.ofList_inj, ← forall₂_eq_eq_eq, forall₂_map_left_iff,
    forall₂_map_right_iff]
  simp only [← alike_iff]

theorem Distinguishable.exact {includeDirs : List Path} {t u : Package}
    (h : Distinguishable includeDirs t u) : Exact includeDirs t u :=
  ⟨h.hashInput_eq_iff, fun _ hsha => (digest_eq_iff hsha).trans h.hashInput_eq_iff⟩

/-- The digest is exact for the packages with their files at some paths when no two of these paths,
among those that the digest is about, read alike. -/
theorem digest_exact_iff (includeDirs : List Path) (S : Set Path) :
    (∀ t u : Package, t.Within includeDirs S → u.Within includeDirs S → Exact includeDirs t u) ↔
      ∀ p ∈ S, ∀ q ∈ S, Included includeDirs p → Included includeDirs q →
        Forall₂ Alike (toStringLossy p).toList (toStringLossy q).toList → p = q := by
  simp only [← relText_eq_iff]
  constructor
  · intro h p hp q hq hpinc hqinc hrel
    obtain ⟨name, path, rfl⟩ := exists_cons_of_ne_nil hpinc.ne_nil
    obtain ⟨name', path', rfl⟩ := exists_cons_of_ne_nil hqinc.ne_nil
    have hexact := h (single name path .empty) (single name' path' .empty)
      (by simpa [Package.Within, files_single hpinc] using hp)
      (by simpa [Package.Within, files_single hqinc] using hq)
    rw [Exact, hashInput_single hpinc, hashInput_single hqinc, files_single hpinc,
      files_single hqinc, hrel] at hexact
    simpa using hexact.1
  · intro h t u ht hu
    have hdist : Distinguishable includeDirs t u := by
      rintro p ⟨c, hp⟩ q ⟨c', hq⟩ hrel
      refine h p (hp.elim (ht _) (hu _)) q (hq.elim (ht _) (hu _)) ?_ ?_ hrel
      · exact hp.elim (fun h => h.1) fun h => h.1
      · exact hq.elim (fun h => h.1) fun h => h.1
    exact hdist.exact

/-- The name `src`. -/
def src : Name := ⟨[115, 114, 99], by decide, by decide, by decide, by decide, by decide⟩

/-- The name `a\b`. -/
def aBackslashB : Name := ⟨[97, 92, 98], by decide, by decide, by decide, by decide, by decide⟩

/-- The name `a`. -/
def nameA : Name := ⟨[97], by decide, by decide, by decide, by decide, by decide⟩

/-- The name `b`. -/
def nameB : Name := ⟨[98], by decide, by decide, by decide, by decide, by decide⟩

/-- The file `a\b` in `src` reads as the file `b` in `src/a`. -/
theorem not_exact : ¬ ∀ (includeDirs : List Path) (t u : Package), Exact includeDirs t u := by
  intro h
  have hp : Included [[src]] [src, aBackslashB] := .inr (by decide)
  have hq : Included [[src]] [src, nameA, nameB] := .inr (by decide)
  have hrel : relText [src, aBackslashB] = relText [src, nameA, nameB] := by decide +kernel
  have hexact := (h [[src]] (single src [aBackslashB] .empty) (single src [nameA, nameB] .empty)).1
  rw [hashInput_single hp, hashInput_single hq, files_single hp, files_single hq, hrel] at hexact
  simp at hexact

/-! ## Plain names -/

/-- A name that is UTF-8 and has no backslash in it. -/
def Name.Plain (name : Name) : Prop := (∃ s, Text.encode s = name.bytes) ∧ 92 ∉ name.bytes

theorem pathBytes_injOn : Set.InjOn pathBytes {path | path ≠ []} := by
  intro p hp q hq h
  induction p generalizing q with
  | nil => exact absurd rfl hp
  | cons name p ih =>
    obtain ⟨name', q, rfl⟩ := exists_cons_of_ne_nil hq
    cases p with
    | nil =>
      cases q with
      | nil => simpa [Name.ext_iff] using h
      | cons _ _ =>
        refine absurd (?_ : 47 ∈ name.bytes) name.no_slash
        rw [← pathBytes_singleton, h]
        simp
    | cons name₁ p =>
      cases q with
      | nil =>
        refine absurd (?_ : 47 ∈ name'.bytes) name'.no_slash
        rw [← pathBytes_singleton, ← h]
        simp
      | cons name₂ q =>
        rw [pathBytes_cons_cons, pathBytes_cons_cons] at h
        obtain ⟨hname, hrest⟩ := Record.append_cons_inj name.no_slash name'.no_slash h
        rw [Name.ext hname, ih (cons_ne_nil _ _) (cons_ne_nil _ _) hrest]

theorem exists_encode_pathBytes {path : Path} (h : ∀ name ∈ path, name.Plain) :
    (∃ s, Text.encode s = pathBytes path) ∧ 92 ∉ pathBytes path := by
  induction path with
  | nil => exact ⟨⟨"", rfl⟩, by simp [pathBytes]⟩
  | cons name path ih =>
    rw [forall_mem_cons] at h
    obtain ⟨⟨s, hs⟩, hname⟩ := h.1
    obtain ⟨⟨t, ht⟩, hpath⟩ := ih h.2
    cases path with
    | nil => exact ⟨⟨s, by simpa using hs⟩, by simpa using hname⟩
    | cons name' path =>
      rw [pathBytes_cons_cons]
      exact ⟨⟨s ++ "/" ++ t, by
        rw [Text.encode_append, Text.encode_append, hs, ht]
        simp [show Text.encode "/" = [47] from by decide]⟩, by simpa using ⟨hname, hpath⟩⟩

/-- Plain names are told apart. -/
theorem relText_injOn_plain :
    Set.InjOn relText {path | path ≠ [] ∧ ∀ name ∈ path, name.Plain} := by
  have htext : ∀ path : Path, (∀ name ∈ path, name.Plain) →
      Text.encode (relText path) = pathBytes path := by
    intro path h
    obtain ⟨⟨s, hs⟩, hslash⟩ := exists_encode_pathBytes h
    have hlossy : toStringLossy path = s := by
      rw [toStringLossy, ← hs, Text.decodeLossy_encode]
    have hself : s.toList.map slashed = s.toList := by
      refine (map_congr_left fun c hc => if_neg ?_).trans (map_id _)
      rintro rfl
      refine hslash (hs ▸ ?_)
      rw [← s.ofList_toList, Text.encode_ofList]
      exact mem_flatMap.2 ⟨_, hc, (Text.mem_utf8EncodeChar_of_lt (by decide)).2 rfl⟩
    rw [relText, hlossy, hself, String.ofList_toList, hs]
  intro p hp q hq h
  refine pathBytes_injOn hp.1 hq.1 ?_
  rw [← htext p hp.2, ← htext q hq.2, h]

/-- The digest is exact for packages with plain names. -/
theorem exact_of_plain {includeDirs : List Path} {t u : Package}
    (h : ∀ f ∈ t.files includeDirs ∪ u.files includeDirs, ∀ name ∈ f.1, name.Plain) :
    Exact includeDirs t u := by
  refine Distinguishable.exact (relText_injOn_plain.mono ?_)
  rintro path ⟨c, hc⟩
  exact ⟨hc.elim (fun h => h.1.ne_nil) fun h => h.1.ne_nil, h _ hc⟩

end FloatCtf.Content.PackageDigest
