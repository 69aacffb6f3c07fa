import FloatCtf.Process.FileTree
import Mathlib.Algebra.GroupWithZero.Nat

/-!
# Extracting a package

`extract_package_zip` writes the entries of an archive below a new directory.

`extraction_meets_iff` says when an extraction is as limited as it should be.  It stays below the
directory, and the number and the length of the files are bounded; but the bound on the total
compares the sizes that the archive declares, so it holds when the contents of no accepted part of
the archive exceed it.
-/

namespace FloatCtf.Content.PackageZip

open FileTree

/-! ## Archives -/

/-- A path as its components. -/
abbrev PackagePath := FilePath String

/-- The disk with the log of what is done to it. -/
abbrev PackageDisk := Disk String UInt8

/-- A temporary directory, fresh and empty. -/
abbrev PackageDir := TempDir String UInt8

/-- A component of an entry's name. -/
inductive Component where
  | rootDir
  | curDir
  | parentDir
  | normal (name : String)
  deriving DecidableEq

/-- `dest.join(path)`, as the system resolves it. -/
def resolve (dest : PackagePath) : List Component → PackagePath
  | [] => dest
  | .rootDir :: rest => resolve [] rest
  | .curDir :: rest => resolve dest rest
  | .parentDir :: rest => resolve dest.dropLast rest
  | .normal name :: rest => resolve (dest ++ [name]) rest

/-- An entry: what the archive says of it, the path that the library makes of its name, and the
bytes that it unpacks to, with the error behind them if there is one. -/
structure ZipEntry where
  name : String
  isSymlink : Bool
  isDir : Bool
  size : ℕ
  enclosedName : Option (List Component)
  content : List UInt8
  broken : Option String
  nameless : name = "" → enclosedName.getD [] = []

/-- The file that is uploaded: its length, and its entries. -/
structure PackageFile where
  length : Except String ℕ
  opened : Except String (List (Except String ZipEntry))

/-- The errors of the extraction. -/
inductive PackageError where
  | validation (message : String)
  | internal (message : String)
  deriving DecidableEq

/-- The limit of the archive in bytes. -/
def maxArchiveBytes : ℕ := 256 * 1024 * 1024

/-- The limit of everything extracted in bytes. -/
def maxExtractedBytes : ℕ := 512 * 1024 * 1024

/-- The limit of the number of files. -/
def maxFiles : ℕ := 5000

/-- The limit of a single file in bytes. -/
def maxSingleFileBytes : ℕ := 64 * 1024 * 1024

/-! ## `extract_package_zip` -/

/-- The disk and the two counters. -/
structure Extraction where
  disk : PackageDisk
  totalExtracted : ℕ
  fileCount : ℕ

/-- `saturating_add` on 64 bits. -/
def saturatingAdd (a b : ℕ) : ℕ := min (a + b) (2 ^ 64 - 1)

/-- A step of the extraction, with the error that ends it. -/
abbrev Step := Extraction × Option PackageError

/-- Ends the extraction with a message. -/
def invalid (s : Extraction) (message : String) : Step := (s, some (.validation message))

/-- The text of the system's error is left out. -/
def failed (s : Extraction) (message : String) : Step := (s, some (.internal message))

/-- A component that stays inside the directory. -/
def Component.isPlain : Component → Bool
  | .normal _ | .curDir => true
  | _ => false

/-- The path of an entry below the directory. -/
def checkPath (e : ZipEntry) : Except String (List Component) :=
  if e.isSymlink then .error "INVALID_PATH: symlinks are not allowed in packages"
  else
    match e.enclosedName with
    | none => .error s!"INVALID_PATH: unsafe zip path: {e.name}"
    | some enclosed =>
      if enclosed.head? = some .rootDir then
        .error s!"INVALID_PATH: absolute path rejected: {e.name}"
      else if !enclosed.all Component.isPlain then
        .error s!"INVALID_PATH: path traversal rejected: {e.name}"
      else .ok enclosed

/-- The bytes of a file, up to one more than the limit. -/
def writeContent (outPath : PackagePath) (e : ZipEntry) (s : Extraction) : Step :=
  match s.disk.create outPath with
  | none => failed s "extract create file failed"
  | some disk =>
    let s := { s with disk }
    let buf := e.content.take (maxSingleFileBytes + 1)
    match if e.content.length ≤ maxSingleFileBytes then e.broken else none with
    | some error => invalid s s!"INVALID_PACKAGE: read entry: {error}"
    | none =>
      if maxSingleFileBytes < buf.length then
        invalid s
          s!"PACKAGE_TOO_LARGE: single file exceeds {maxSingleFileBytes} bytes: {e.name}"
      else ({ s with disk := s.disk.writeAll outPath buf }, none)

/-- A file whose directory is there. -/
def writeFile (outPath : PackagePath) (e : ZipEntry) (s : Extraction) : Step :=
  if maxSingleFileBytes < e.size then
    invalid s s!"PACKAGE_TOO_LARGE: single file exceeds {maxSingleFileBytes} bytes: {e.name}"
  else
    let s := { s with totalExtracted := saturatingAdd s.totalExtracted e.size }
    if maxExtractedBytes < s.totalExtracted then
      invalid s s!"PACKAGE_TOO_LARGE: extracted size exceeds {maxExtractedBytes} bytes"
    else writeContent outPath e s

/-- A file: counted, made room for, and written within what is left. -/
def extractFile (outPath : PackagePath) (e : ZipEntry) (s : Extraction) : Step :=
  let s := { s with fileCount := s.fileCount + 1 }
  if maxFiles < s.fileCount then
    invalid s s!"TOO_MANY_FILES: package exceeds {maxFiles} files"
  else
    match s.disk.createDirAll outPath.dropLast with
    | none => failed s "extract mkdir failed"
    | some disk => writeFile outPath e { s with disk }

/-- The body of the loop. -/
def extractEntry (dest : PackagePath) (e : ZipEntry) (s : Extraction) : Step :=
  if e.name = "" then (s, none)
  else
    match checkPath e with
    | .error message => invalid s message
    | .ok enclosed =>
      if e.isDir then
        match s.disk.createDirAll (resolve dest enclosed) with
        | none => failed s "extract mkdir failed"
        | some disk => ({ s with disk }, none)
      else extractFile (resolve dest enclosed) e s

/-- The entries in the order of the archive, up to the first error. -/
def extractEntries (dest : PackagePath) : List (Except String ZipEntry) → Extraction → Step
  | [], s => (s, none)
  | .error error :: _, s => invalid s s!"INVALID_PACKAGE: zip entry: {error}"
  | .ok e :: rest, s =>
    match extractEntry dest e s with
    | (s, some error) => (s, some error)
    | (s, none) => extractEntries dest rest s

/-- `extract_package_zip`: extracts an archive into the directory. -/
def extractPackageZip (zip : PackageFile) (dest : PackagePath) (disk : PackageDisk) :
    PackageDisk × Except PackageError Unit :=
  match zip.length with
  | .error error => (disk, .error (.validation s!"INVALID_PACKAGE: cannot read zip: {error}"))
  | .ok length =>
    if maxArchiveBytes < length then
      (disk, .error (.validation s!"PACKAGE_TOO_LARGE: archive exceeds {maxArchiveBytes} bytes"))
    else
      match zip.opened with
      | .error error => (disk, .error (.validation s!"INVALID_PACKAGE: invalid zip: {error}"))
      | .ok entries =>
        match extractEntries dest entries ⟨disk, 0, 0⟩ with
        | (s, some error) => (s.disk, .error error)
        | (s, none) => (s.disk, .ok ())

/-! ## The limits -/

/-- The name of a plain component. -/
def Component.name? : Component → Option String
  | .normal name => some name
  | _ => none

/-- The path of an entry in the directory. -/
def ZipEntry.relPath (e : ZipEntry) : PackagePath :=
  (e.enclosedName.getD []).filterMap Component.name?

/-- What an extraction may do. -/
structure Limited (dest : PackagePath) (log : List (Effect String UInt8)) : Prop where
  below : ∀ x ∈ log, dest <+: x.path ∧ x.path ≠ dest
  files : log.countP Effect.isCreate ≤ maxFiles
  single : ∀ path content, .write path content ∈ log → content.length ≤ maxSingleFileBytes
  total : (log.map Effect.bytes).sum ≤ maxExtractedBytes

/-- The content of every file is at its path, where the last one of a path counts. -/
def Found (dest : PackagePath) (entries : List (Except String ZipEntry)) (d : PackageDisk) : Prop :=
  ∀ pre e post, entries = pre ++ .ok e :: post → e.isDir = false →
    (∀ e', .ok e' ∈ post → e'.isDir = false → e'.relPath ≠ e.relPath) →
    d.node (dest ++ e.relPath) = some (.file e.content)

/-- What is claimed of an extraction: it keeps to the limits, and what it accepts is found below the
directory. -/
def Meets (zip : PackageFile) (t : PackageDir) : Prop :=
  Limited t.path (extractPackageZip zip t.path t.disk).1.log ∧
    ((extractPackageZip zip t.path t.disk).2 = .ok () →
      ∀ entries, zip.opened = .ok entries →
        Found t.path entries (extractPackageZip zip t.path t.disk).1)

/-- The entries that are files. -/
def fileEntries (es : List ZipEntry) : List ZipEntry :=
  es.filter fun e => e.name ≠ "" ∧ e.isDir = false

/-- The entries that are directories. -/
def dirEntries (es : List ZipEntry) : List ZipEntry :=
  es.filter fun e => e.name ≠ "" ∧ e.isDir = true

/-- The bytes that the headers declare. -/
def declaredBytes (es : List ZipEntry) : ℕ := ((fileEntries es).map (·.size)).sum

/-- The bytes that the files really have. -/
def contentBytes (es : List ZipEntry) : ℕ := ((fileEntries es).map (·.content.length)).sum

/-- The entries pass every check: their paths, their number, the sizes that they declare and the
length of each; and no path is that of a file and of a directory. -/
structure Accepted (es : List ZipEntry) : Prop where
  paths : ∀ e ∈ es, e.name ≠ "" → ∃ enclosed, checkPath e = .ok enclosed
  count : (fileEntries es).length ≤ maxFiles
  sizes : ∀ e ∈ fileEntries es, e.size ≤ maxSingleFileBytes
  declared : declaredBytes es ≤ maxExtractedBytes
  readable : ∀ e ∈ fileEntries es, e.content.length ≤ maxSingleFileBytes ∧ e.broken = none
  named : ∀ e ∈ fileEntries es, e.relPath ≠ []
  files : ∀ e ∈ fileEntries es, ∀ e' ∈ fileEntries es, e.relPath <+: e'.relPath →
    e.relPath = e'.relPath
  dirs : ∀ e ∈ fileEntries es, ∀ d ∈ dirEntries es, ¬ e.relPath <+: d.relPath

/-! ## One entry -/

section

variable {t : PackageDir} {es : List ZipEntry} {e : ZipEntry} {s : Extraction}

/-- The last content of a path. -/
def lastContent (es : List ZipEntry) (rel : PackagePath) : Option (List UInt8) :=
  ((fileEntries es).filter (·.relPath = rel)).getLast?.map (·.content)

/-- A directory that some entry names or needs. -/
def IsDirPath (es : List ZipEntry) (rel : PackagePath) : Prop :=
  rel = [] ∨ (∃ d ∈ dirEntries es, rel <+: d.relPath) ∨
    ∃ f ∈ fileEntries es, rel <+: f.relPath ∧ rel ≠ f.relPath

/-- After the entries `es`. -/
structure Extracted (t : PackageDir) (es : List ZipEntry) (s : Extraction) : Prop where
  count : s.fileCount = (fileEntries es).length
  total : s.totalExtracted = declaredBytes es
  logged : Logged t maxSingleFileBytes s.disk.log (fileEntries es).length (contentBytes es)
  view : View t s.disk (lastContent es) (IsDirPath es)

theorem resolve_of_plain {dest : PackagePath} {path : List Component}
    (h : path.all Component.isPlain = true) :
    resolve dest path = dest ++ path.filterMap Component.name? := by
  induction path generalizing dest with
  | nil => simp [resolve]
  | cons c path ih =>
    rw [List.all_cons, Bool.and_eq_true] at h
    cases c with
    | normal name => simp [resolve, ih h.2, Component.name?]
    | curDir => simp [resolve, ih h.2, List.filterMap_cons, Component.name?]
    | rootDir => cases h.1
    | parentDir => cases h.1

/-- The path of an entry that passes the checks is below the directory. -/
theorem resolve_of_checkPath {dest : PackagePath} {enclosed : List Component}
    (h : checkPath e = .ok enclosed) : resolve dest enclosed = dest ++ e.relPath := by
  unfold checkPath at h
  split_ifs at h
  cases henc : e.enclosedName with
  | none => simp [henc] at h
  | some path =>
    rw [henc] at h
    simp only at h
    split_ifs at h with habs hplain
    cases h
    rw [resolve_of_plain (by simpa using hplain), ZipEntry.relPath, henc]
    rfl

theorem lastContent_isSome {rel : PackagePath} :
    (∃ content, lastContent es rel = some content) ↔ ∃ f ∈ fileEntries es, f.relPath = rel := by
  simp only [lastContent, Option.map_eq_some_iff, List.getLast?_eq_some_iff]
  constructor
  · rintro ⟨_, f, ⟨front, hfront⟩, rfl⟩
    have hmem : f ∈ (fileEntries es).filter (·.relPath = rel) := by simp [hfront]
    exact ⟨f, by simpa using List.mem_filter.1 hmem⟩
  · rintro ⟨f, hf, rfl⟩
    have hne : (fileEntries es).filter (·.relPath = f.relPath) ≠ [] :=
      List.ne_nil_of_mem (List.mem_filter.2 ⟨hf, by simp⟩)
    exact ⟨_, _, ⟨_, (List.dropLast_append_getLast hne).symm⟩, rfl⟩

/-- What the loop does with the next entry: it goes on where the entries are accepted, and ends
within the limits on the files where they are not. -/
def Progress (t : PackageDir) (es : List ZipEntry) (e : ZipEntry) (r : Step) : Prop :=
  Accepted (es ++ [e]) ∧ r.2 = none ∧ Extracted t (es ++ [e]) r.1 ∨
    ¬ Accepted (es ++ [e]) ∧ r.2 ≠ none ∧
      ∃ files ≤ maxFiles, Logged t maxSingleFileBytes r.1.disk.log files (contentBytes es)

theorem Progress.error {r : Step} {files : ℕ} {error : PackageError} (h : ¬ Accepted (es ++ [e]))
    (hr : r.2 = some error) (hfiles : files ≤ maxFiles)
    (hlog : Logged t maxSingleFileBytes r.1.disk.log files (contentBytes es)) :
    Progress t es e r :=
  .inr ⟨h, by simp [hr], files, hfiles, hlog⟩

theorem Accepted.of_fileEntries_eq {es' : List ZipEntry} (hacc : Accepted es)
    (hpaths : ∀ e ∈ es', e.name ≠ "" → ∃ enclosed, checkPath e = .ok enclosed)
    (hfiles : fileEntries es' = fileEntries es)
    (hdirs : ∀ f ∈ fileEntries es, ∀ d ∈ dirEntries es', ¬ f.relPath <+: d.relPath) :
    Accepted es' where
  paths := hpaths
  count := by rw [hfiles]; exact hacc.count
  sizes := by rw [hfiles]; exact hacc.sizes
  declared := by rw [declaredBytes, hfiles]; exact hacc.declared
  readable := by rw [hfiles]; exact hacc.readable
  named := by rw [hfiles]; exact hacc.named
  files := by rw [hfiles]; exact hacc.files
  dirs := by rw [hfiles]; exact hdirs

theorem Extracted.of_fileEntries_eq {es' : List ZipEntry} (hs : Extracted t es s)
    {disk : PackageDisk} (hfiles : fileEntries es' = fileEntries es)
    (hlog : Logged t maxSingleFileBytes disk.log (fileEntries es).length (contentBytes es))
    (hview : View t disk (lastContent es) (IsDirPath es')) :
    Extracted t es' { s with disk } where
  count := by rw [hfiles]; exact hs.count
  total := by rw [declaredBytes, hfiles]; exact hs.total
  logged := by rw [contentBytes, hfiles]; exact hlog
  view := by
    have hlast : lastContent es' = lastContent es := by
      funext rel
      rw [lastContent, hfiles, lastContent]
    rw [hlast]
    exact hview

/-- An entry without a name is passed over. -/
theorem progress_skipped (hacc : Accepted es) (hs : Extracted t es s) (hname : e.name = "") :
    Progress t es e (extractEntry t.path e s) := by
  have hfiles : fileEntries (es ++ [e]) = fileEntries es := by simp [fileEntries, hname]
  have hdirs : dirEntries (es ++ [e]) = dirEntries es := by simp [dirEntries, hname]
  rw [extractEntry, if_pos hname]
  refine .inl ⟨hacc.of_fileEntries_eq ?_ hfiles (by rw [hdirs]; exact hacc.dirs), rfl,
    hs.of_fileEntries_eq hfiles hs.logged ?_⟩
  · refine List.forall_mem_append.2 ⟨hacc.paths, List.forall_mem_singleton.2 fun h => ?_⟩
    exact absurd hname h
  · exact hs.view.congr fun q => by rw [IsDirPath, IsDirPath, hfiles, hdirs]

/-- A directory. -/
theorem progress_dir (hacc : Accepted es) (hs : Extracted t es s) (hname : e.name ≠ "")
    {enclosed : List Component} (hpath : checkPath e = .ok enclosed) (hdir : e.isDir = true) :
    Progress t es e (extractEntry t.path e s) := by
  have hfiles : fileEntries (es ++ [e]) = fileEntries es := by simp [fileEntries, hdir]
  have hdirs : dirEntries (es ++ [e]) = dirEntries es ++ [e] := by
    simp [dirEntries, hname, hdir]
  rw [extractEntry, if_neg hname, hpath]
  simp only [hdir, if_true, resolve_of_checkPath hpath]
  obtain ⟨⟨rel', hrel', hcontent⟩, hmk⟩ | ⟨hfree, d', hmk, hlog, hview⟩ :=
    hs.view.createDirAll hs.logged e.relPath
  · rw [hmk]
    refine Progress.error (fun hacc' => ?_) rfl hacc.count hs.logged
    obtain ⟨f, hf, rfl⟩ := lastContent_isSome.1 hcontent
    exact hacc'.dirs f (hfiles ▸ hf) e (by simp [hdirs]) hrel'
  · rw [hmk]
    have hnot : ∀ f ∈ fileEntries es, ¬ f.relPath <+: e.relPath := by
      intro f hf hpre
      obtain ⟨content, hcontent⟩ := lastContent_isSome.2 ⟨f, hf, rfl⟩
      rw [hfree _ hpre] at hcontent
      cases hcontent
    refine .inl ⟨hacc.of_fileEntries_eq ?_ hfiles fun f hf => ?_, rfl,
      hs.of_fileEntries_eq hfiles hlog (hview.congr fun q => ?_)⟩
    · exact List.forall_mem_append.2
        ⟨hacc.paths, List.forall_mem_singleton.2 fun _ => ⟨enclosed, hpath⟩⟩
    · rw [hdirs]
      exact List.forall_mem_append.2 ⟨hacc.dirs f hf, List.forall_mem_singleton.2 (hnot f hf)⟩
    · simp only [IsDirPath, hfiles, hdirs, List.mem_append, List.mem_singleton, or_and_right,
        exists_or, exists_eq_left]
      rw [or_assoc, or_assoc, or_assoc, or_comm (a := ∃ f ∈ fileEntries es, _)]

theorem saturatingAdd_le_iff {a b : ℕ} :
    saturatingAdd a b ≤ maxExtractedBytes ↔ a + b ≤ maxExtractedBytes := by
  unfold saturatingAdd maxExtractedBytes
  omega

/-- What is written of a file. -/
theorem writeContent_of_readable {path : PackagePath} {disk : PackageDisk}
    (hcreate : s.disk.create path = some disk)
    (h : e.content.length ≤ maxSingleFileBytes ∧ e.broken = none) :
    writeContent path e s = ({ s with disk := disk.writeAll path e.content }, none) := by
  have htake : e.content.take (maxSingleFileBytes + 1) = e.content :=
    List.take_of_length_le (by omega)
  rw [writeContent, hcreate]
  simp only [h.1, if_true, h.2, htake]
  rw [if_neg (by omega)]

theorem writeContent_of_not_readable {path : PackagePath} {disk : PackageDisk}
    (hcreate : s.disk.create path = some disk)
    (h : ¬ (e.content.length ≤ maxSingleFileBytes ∧ e.broken = none)) :
    ∃ message, writeContent path e s = invalid { s with disk } message := by
  unfold writeContent
  rw [hcreate]
  by_cases hlen : e.content.length ≤ maxSingleFileBytes
  · obtain ⟨error, herror⟩ := Option.ne_none_iff_exists'.1 fun hnone => h ⟨hlen, hnone⟩
    simp [hlen, herror]
  · have hlong : maxSingleFileBytes < (e.content.take (maxSingleFileBytes + 1)).length := by
      rw [List.length_take]
      omega
    simp only [hlen, if_false, hlong, if_true]
    exact ⟨_, rfl⟩

/-- The declared sizes let the file pass, or it is not accepted. -/
theorem writeFile_cases (path : PackagePath)
    (hfiles : fileEntries (es ++ [e]) = fileEntries es ++ [e])
    (htotal : s.totalExtracted = declaredBytes es) :
    (e.size ≤ maxSingleFileBytes ∧ declaredBytes (es ++ [e]) ≤ maxExtractedBytes ∧
        writeFile path e s =
          writeContent path e { s with totalExtracted := declaredBytes (es ++ [e]) }) ∨
      ¬ Accepted (es ++ [e]) ∧ ∃ s' message, writeFile path e s = invalid s' message ∧
        s'.disk = s.disk := by
  have hdeclared : declaredBytes (es ++ [e]) = declaredBytes es + e.size := by
    simp [declaredBytes, hfiles]
  unfold writeFile
  split
  next hsize =>
    refine .inr ⟨fun hacc' => ?_, _, _, rfl, rfl⟩
    have := hacc'.sizes e (by simp [hfiles])
    omega
  next hsize =>
    simp only [htotal]
    split
    next hlarge =>
      refine .inr ⟨fun hacc' => ?_, _, _, rfl, rfl⟩
      have := hacc'.declared
      rw [hdeclared, ← saturatingAdd_le_iff] at this
      omega
    next hsmall =>
      rw [not_lt, saturatingAdd_le_iff] at hsmall
      have hsum : saturatingAdd (declaredBytes es) e.size = declaredBytes (es ++ [e]) := by
        rw [hdeclared, saturatingAdd]
        unfold maxExtractedBytes at hsmall
        omega
      rw [hsum]
      exact .inl ⟨by omega, by omega, rfl⟩

/-- A file at a path of its own. -/
theorem progress_writeFile (hacc : Accepted es) (hname : e.name ≠ "")
    {enclosed : List Component} (hpath : checkPath e = .ok enclosed) (hdir : e.isDir = false)
    (hcount : (fileEntries es).length + 1 ≤ maxFiles) {s' : Extraction}
    (hcount' : s'.fileCount = (fileEntries es).length + 1)
    (htotal' : s'.totalExtracted = declaredBytes es)
    (hlog : Logged t maxSingleFileBytes s'.disk.log (fileEntries es).length (contentBytes es))
    (hrel : e.relPath ≠ [])
    (hview : View t s'.disk (lastContent es) fun q => IsDirPath es q ∨ q <+: e.relPath.dropLast)
    (hfree : ∀ f ∈ fileEntries es, ¬ f.relPath <+: e.relPath.dropLast) :
    Progress t es e (writeFile (t.path ++ e.relPath) e s') := by
  have hfiles : fileEntries (es ++ [e]) = fileEntries es ++ [e] := by
    simp [fileEntries, hname, hdir]
  have hdirs : dirEntries (es ++ [e]) = dirEntries es := by simp [dirEntries, hdir]
  have hmem : e ∈ fileEntries (es ++ [e]) := by simp [hfiles]
  have hself : ¬ e.relPath <+: e.relPath.dropLast := fun h => ((prefix_dropLast_iff hrel).1 h).2 rfl
  obtain ⟨hsize, hdeclared, hwrite⟩ | ⟨hnot, s'', message, hwrite, hdisk⟩ :=
    writeFile_cases (t.path ++ e.relPath) hfiles htotal'
  rotate_left
  · rw [hwrite]
    refine Progress.error hnot rfl hacc.count ?_
    simpa only [invalid, hdisk] using hlog
  rw [hwrite]
  by_cases hd : IsDirPath es e.relPath ∨ e.relPath <+: e.relPath.dropLast
  · have hcreate : s'.disk.create (t.path ++ e.relPath) = none := if_pos (hview.isDir_iff.2 hd)
    simp only [writeContent, hcreate]
    refine Progress.error (fun hacc' => ?_) rfl hacc.count hlog
    obtain (hnil | ⟨d, hd, hpre⟩ | ⟨f, hf, hpre, hne⟩) | hbad := hd
    · exact hrel hnil
    · exact hacc'.dirs e hmem d (hdirs ▸ hd) hpre
    · exact hne (hacc'.files e hmem f (by simp [hfiles, hf]) hpre)
    · exact hself hbad
  let s₁ : Extraction := { s' with totalExtracted := declaredBytes (es ++ [e]) }
  have hcreate : s₁.disk.create (t.path ++ e.relPath) = some _ :=
    if_neg fun h => hd (hview.isDir_iff.1 h)
  have hcreated := hlog.append_create hrel
  by_cases hread : e.content.length ≤ maxSingleFileBytes ∧ e.broken = none
  · rw [show ({ s' with totalExtracted := _ } : Extraction) = s₁ from rfl,
      writeContent_of_readable hcreate hread]
    refine .inl ⟨⟨?_, ?_, ?_, hdeclared, ?_, ?_, ?_, ?_⟩, rfl, ⟨?_, rfl, ?_, ?_⟩⟩
    · exact List.forall_mem_append.2
        ⟨hacc.paths, List.forall_mem_singleton.2 fun _ => ⟨enclosed, hpath⟩⟩
    · rw [hfiles, List.length_append]
      exact hcount
    · rw [hfiles]
      exact List.forall_mem_append.2 ⟨hacc.sizes, List.forall_mem_singleton.2 hsize⟩
    · rw [hfiles]
      exact List.forall_mem_append.2 ⟨hacc.readable, List.forall_mem_singleton.2 hread⟩
    · rw [hfiles]
      exact List.forall_mem_append.2 ⟨hacc.named, List.forall_mem_singleton.2 hrel⟩
    · intro f hf f' hf' hpre
      rw [hfiles, List.mem_append, List.mem_singleton] at hf hf'
      obtain hf | rfl := hf
      · obtain hf' | rfl := hf'
        · exact hacc.files f hf f' hf' hpre
        · by_contra hne
          exact hfree f hf ((prefix_dropLast_iff hrel).2 ⟨hpre, hne⟩)
      · obtain hf' | rfl := hf'
        · by_contra hne
          exact hd (.inl (.inr (.inr ⟨f', hf', hpre, hne⟩)))
        · rfl
    · rw [hfiles, hdirs]
      refine List.forall_mem_append.2
        ⟨hacc.dirs, List.forall_mem_singleton.2 fun d hdmem hpre => ?_⟩
      exact hd (.inl (.inr (.inl ⟨d, hdmem, hpre⟩)))
    · rw [hfiles, List.length_append]
      exact hcount'
    · rw [hfiles, List.length_append, contentBytes, hfiles, List.map_append, List.sum_append]
      exact hcreated.append_write hrel hread.1
    · have hlast : lastContent (es ++ [e]) =
          Function.update (lastContent es) e.relPath (some e.content) := by
        funext rel
        rw [lastContent, hfiles, List.filter_append, Function.update_apply]
        split
        next heq => simp [heq]
        next hne => simp [Ne.symm hne, lastContent]
      rw [hlast]
      refine (hview.write hd ?_).congr fun q => ?_
      · exact Function.update_idem _ _ _
      · simp only [IsDirPath, hfiles, hdirs, List.mem_append, List.mem_singleton, or_and_right,
          exists_or, exists_eq_left, prefix_dropLast_iff hrel]
        rw [or_assoc, or_assoc]
  · obtain ⟨message, hbroken⟩ := writeContent_of_not_readable hcreate hread
    rw [show ({ s' with totalExtracted := _ } : Extraction) = s₁ from rfl, hbroken]
    refine Progress.error (fun hacc' => ?_) rfl hcount hcreated
    exact hread (hacc'.readable e hmem)

/-- A file. -/
theorem progress_file (hacc : Accepted es) (hs : Extracted t es s) (hname : e.name ≠ "")
    {enclosed : List Component} (hpath : checkPath e = .ok enclosed) (hdir : e.isDir = false) :
    Progress t es e (extractEntry t.path e s) := by
  have hfiles : fileEntries (es ++ [e]) = fileEntries es ++ [e] := by
    simp [fileEntries, hname, hdir]
  have hmem : e ∈ fileEntries (es ++ [e]) := by simp [hfiles]
  rw [extractEntry, if_neg hname, hpath]
  simp only [hdir, Bool.false_eq_true, if_false, resolve_of_checkPath hpath]
  rw [extractFile]
  simp only
  split
  next hmany =>
    refine Progress.error (fun hacc' => ?_) rfl hacc.count hs.logged
    have := hacc'.count
    rw [hfiles, List.length_append, List.length_singleton, ← hs.count] at this
    omega
  next hmany =>
    have hcount : (fileEntries es).length + 1 ≤ maxFiles := by
      rw [← hs.count]
      omega
    by_cases hrel : e.relPath = []
    · -- the directory itself
      have hnot : ¬ Accepted (es ++ [e]) := fun hacc' => hacc'.named e hmem hrel
      rw [hrel, List.append_nil]
      obtain ⟨d', hmk, hlog, hview⟩ := hs.view.createDirAll_above (List.dropLast_prefix t.path)
      have hcreate : d'.create t.path = none :=
        if_pos (by simp [Disk.isDir, hview.above _ (List.prefix_refl _)])
      rw [hmk]
      obtain ⟨-, -, hwrite⟩ | ⟨-, s', message, hwrite, hdisk⟩ := writeFile_cases
        (s := { s with disk := d', fileCount := s.fileCount + 1 }) t.path hfiles hs.total
      · simp only [hwrite, writeContent, hcreate]
        exact Progress.error hnot rfl hacc.count (hlog ▸ hs.logged)
      · simp only [hwrite]
        refine Progress.error hnot rfl hacc.count ?_
        simp only [invalid, hdisk, hlog]
        exact hs.logged
    · rw [List.dropLast_append_of_ne_nil hrel]
      obtain ⟨⟨rel', hrel', hcontent⟩, hmk⟩ | ⟨hfree, d', hmk, hlog, hview⟩ :=
        hs.view.createDirAll hs.logged e.relPath.dropLast
      · rw [hmk]
        refine Progress.error (fun hacc' => ?_) rfl hacc.count hs.logged
        obtain ⟨f, hf, rfl⟩ := lastContent_isSome.1 hcontent
        obtain ⟨hpre, hne⟩ := (prefix_dropLast_iff hrel).1 hrel'
        exact hne (hacc'.files f (by simp [hfiles, hf]) e hmem hpre)
      · rw [hmk]
        refine progress_writeFile hacc hname hpath hdir hcount (by simp [hs.count]) hs.total hlog
          hrel hview fun f hf hpre => ?_
        obtain ⟨content, hcontent⟩ := lastContent_isSome.2 ⟨f, hf, rfl⟩
        rw [hfree _ hpre] at hcontent
        cases hcontent

theorem extractEntry_progress (hacc : Accepted es) (hs : Extracted t es s) :
    Progress t es e (extractEntry t.path e s) := by
  by_cases hname : e.name = ""
  · exact progress_skipped hacc hs hname
  · cases hpath : checkPath e with
    | error message =>
      rw [extractEntry, if_neg hname, hpath]
      refine Progress.error (fun hacc' => ?_) rfl hacc.count hs.logged
      obtain ⟨enclosed, henclosed⟩ := hacc'.paths e (by simp) hname
      rw [hpath] at henclosed
      cases henclosed
    | ok enclosed =>
      cases hdir : e.isDir with
      | true => exact progress_dir hacc hs hname hpath hdir
      | false => exact progress_file hacc hs hname hpath hdir

/-! ## All entries -/

theorem fileEntries_append (es more : List ZipEntry) :
    fileEntries (es ++ more) = fileEntries es ++ fileEntries more :=
  List.filter_append ..

theorem Accepted.of_append {more : List ZipEntry} (h : Accepted (es ++ more)) : Accepted es := by
  have hfile : ∀ f ∈ fileEntries es, f ∈ fileEntries (es ++ more) := fun f hf => by
    rw [fileEntries_append]
    exact List.mem_append_left _ hf
  have hdir : ∀ d ∈ dirEntries es, d ∈ dirEntries (es ++ more) := fun d hd => by
    rw [dirEntries, List.filter_append]
    exact List.mem_append_left _ hd
  refine ⟨fun e he => h.paths e (List.mem_append_left _ he), ?_, fun f hf => h.sizes f (hfile f hf),
    ?_, fun f hf => h.readable f (hfile f hf), fun f hf => h.named f (hfile f hf),
    fun f hf f' hf' => h.files f (hfile f hf) f' (hfile f' hf'),
    fun f hf d hd => h.dirs f (hfile f hf) d (hdir d hd)⟩
  · have := h.count
    rw [fileEntries_append, List.length_append] at this
    omega
  · have := h.declared
    rw [declaredBytes, fileEntries_append, List.map_append, List.sum_append] at this
    rw [declaredBytes]
    omega

/-- The entries before the extraction ends are the longest accepted ones. -/
theorem extractEntries_spec (hacc : Accepted es) (hs : Extracted t es s)
    (rest : List (Except String ZipEntry)) :
    ∃ done, done.map .ok <+: rest ∧ Accepted (es ++ done) ∧
      ((extractEntries t.path rest s).2 = none ∧ done.map .ok = rest ∧
          Extracted t (es ++ done) (extractEntries t.path rest s).1 ∨
        (extractEntries t.path rest s).2 ≠ none ∧ done.map .ok ≠ rest ∧
          (∀ more, (done ++ more).map .ok <+: rest → Accepted (es ++ done ++ more) → more = []) ∧
          ∃ files ≤ maxFiles, Logged t maxSingleFileBytes
            (extractEntries t.path rest s).1.disk.log files (contentBytes (es ++ done))) := by
  induction rest generalizing es s with
  | nil =>
    refine ⟨[], List.prefix_refl _, by simpa using hacc, .inl ⟨rfl, rfl, ?_⟩⟩
    rw [List.append_nil]
    exact hs
  | cons entry rest ih =>
    cases entry with
    | error error =>
      refine ⟨[], List.nil_prefix, by simpa using hacc, .inr ⟨nofun, nofun, fun more hmore _ => ?_,
        _, hacc.count, by simpa [extractEntries, invalid] using hs.logged⟩⟩
      cases more with
      | nil => rfl
      | cons e more => cases (List.cons_prefix_cons.1 hmore).1
    | ok e =>
      obtain ⟨hacc', hgo, hs'⟩ | ⟨hnot, hstop, files, hfiles, hlog⟩ :=
        extractEntry_progress (e := e) hacc hs
      · have hrun : extractEntries t.path (.ok e :: rest) s =
            extractEntries t.path rest (extractEntry t.path e s).1 := by
          rw [extractEntries]
          revert hgo
          obtain ⟨s', r⟩ := extractEntry t.path e s
          rintro rfl
          rfl
        obtain ⟨done, hpre, hdone, hcases⟩ := ih hacc' hs'
        rw [hrun]
        refine ⟨e :: done, List.cons_prefix_cons.2 ⟨rfl, hpre⟩, by simpa using hdone, ?_⟩
        obtain ⟨hnone, hall, hext⟩ | ⟨hsome, hsome', hmore, files, hfiles, hlog⟩ := hcases
        · exact .inl ⟨hnone, by simp [hall], by simpa using hext⟩
        · refine .inr ⟨hsome, by simpa using hsome', fun more hpre hmoreAcc => ?_, files, hfiles,
            by simpa using hlog⟩
          exact hmore more (List.cons_prefix_cons.1 hpre).2 (by simpa using hmoreAcc)
      · have hrun : extractEntries t.path (.ok e :: rest) s = extractEntry t.path e s := by
          rw [extractEntries]
          revert hstop
          obtain ⟨s', r⟩ := extractEntry t.path e s
          cases r with
          | none => exact fun hstop => absurd rfl hstop
          | some error => exact fun _ => rfl
        rw [hrun]
        refine ⟨[], List.nil_prefix, by simpa using hacc, .inr ⟨hstop, nofun,
          fun more hmore hacc' => ?_, files, hfiles, by simpa using hlog⟩⟩
        cases more with
        | nil => rfl
        | cons e' more =>
          obtain ⟨heq, -⟩ := List.cons_prefix_cons.1 hmore
          cases heq
          refine absurd ?_ hnot
          rw [List.append_nil, ← List.singleton_append, ← List.append_assoc] at hacc'
          exact hacc'.of_append

/-- The archive is not too long and can be read. -/
def PackageFile.Opens (zip : PackageFile) (entries : List (Except String ZipEntry)) : Prop :=
  ∃ length ≤ maxArchiveBytes, zip.length = .ok length ∧ zip.opened = .ok entries

theorem extractPackageZip_of_opens {zip : PackageFile} {entries : List (Except String ZipEntry)}
    (h : zip.Opens entries) (dest : PackagePath) (disk : PackageDisk) :
    (extractPackageZip zip dest disk).1 = (extractEntries dest entries ⟨disk, 0, 0⟩).1.disk ∧
      ((extractPackageZip zip dest disk).2 = .ok () ↔
        (extractEntries dest entries ⟨disk, 0, 0⟩).2 = none) := by
  obtain ⟨length, hlength, hmeta, hopened⟩ := h
  rw [extractPackageZip, hmeta]
  simp only [Nat.not_lt.2 hlength, if_false, hopened]
  obtain ⟨s, r⟩ := extractEntries dest entries ⟨disk, 0, 0⟩
  cases r <;> simp

/-- Nothing is done with an archive that cannot be read. -/
theorem extractPackageZip_of_not_opens {zip : PackageFile} (h : ∀ entries, ¬ zip.Opens entries)
    (dest : PackagePath) (disk : PackageDisk) :
    (extractPackageZip zip dest disk).1 = disk ∧ (extractPackageZip zip dest disk).2 ≠ .ok () := by
  unfold extractPackageZip
  split
  · exact ⟨rfl, nofun⟩
  next length hlength =>
    split
    · exact ⟨rfl, nofun⟩
    next hshort =>
      split
      · exact ⟨rfl, nofun⟩
      next entries hopened => exact absurd ⟨length, by omega, hlength, hopened⟩ (h entries)

theorem extracted_nil (t : PackageDir) : Extracted t [] ⟨t.disk, 0, 0⟩ where
  count := rfl
  total := rfl
  logged := by constructor <;> simp [t.log, fileEntries, contentBytes]
  view := by
    refine ⟨t.above, fun rel content => ?_, fun rel => ?_⟩
    · by_cases hrel : rel = []
      · simp [hrel, t.above t.path (List.prefix_refl _), lastContent, fileEntries]
      · simp [t.empty rel hrel, lastContent, fileEntries]
    · by_cases hrel : rel = []
      · simp [hrel, t.above t.path (List.prefix_refl _), IsDirPath]
      · simp [t.empty rel hrel, IsDirPath, hrel, fileEntries, dirEntries]

theorem accepted_nil : Accepted [] := by
  constructor <;> simp [fileEntries, declaredBytes]

theorem limited_of_logged {log : List (Effect String UInt8)} {files bytes : ℕ}
    (h : Logged t maxSingleFileBytes log files bytes) (hfiles : files ≤ maxFiles)
    (hbytes : bytes ≤ maxExtractedBytes) : Limited t.path log :=
  ⟨h.below, h.created.trans_le hfiles, h.single, h.written.trans_le hbytes⟩

theorem contentBytes_append (es more : List ZipEntry) :
    contentBytes (es ++ more) = contentBytes es + contentBytes more := by
  simp [contentBytes, fileEntries_append]

/-- The files of an archive without nameless ones are found. -/
theorem found_of_extracted (hs : Extracted t es s)
    (hnames : ∀ e ∈ es, e.isDir = false → e.name ≠ "") :
    Found t.path (es.map .ok) s.disk := by
  intro pre e post heq hdir hlast
  obtain ⟨pre', rest, rfl, rfl, hrest⟩ := List.map_eq_append_iff.1 heq
  obtain ⟨e', post', rfl, he, rfl⟩ := List.map_eq_cons_iff.1 hrest
  cases he
  have hfile : fileEntries (e :: post') = e :: fileEntries post' :=
    List.filter_cons_of_pos (by simpa using ⟨hnames e (by simp) hdir, hdir⟩)
  have hpost : (fileEntries post').filter (·.relPath = e.relPath) = [] := by
    refine List.filter_eq_nil_iff.2 fun f hf => ?_
    obtain ⟨hmem, hkind⟩ := List.mem_filter.1 hf
    simpa using hlast f (List.mem_map.2 ⟨f, hmem, rfl⟩) (by simp_all)
  refine (hs.view.isFile _ _).2 ?_
  rw [lastContent, fileEntries_append, hfile, List.filter_append,
    List.filter_cons_of_pos (by simp), hpost, List.getLast?_concat]
  rfl

/-- A nameless file is not found. -/
theorem not_found_of_nameless (hs : Extracted t es s) (he : e ∈ es) (hdir : e.isDir = false)
    (hname : e.name = "") : ¬ Found t.path (es.map .ok) s.disk := by
  intro hfound
  have hnil : e.relPath = [] := by rw [ZipEntry.relPath, e.nameless hname]; rfl
  -- the last file at the path of the directory itself
  obtain ⟨x, hx⟩ : ∃ x, es.reverse.find? (fun x => x.isDir = false ∧ x.relPath = []) = some x :=
    Option.isSome_iff_exists.1
      (List.find?_isSome.2 ⟨e, List.mem_reverse.2 he, by simp [hdir, hnil]⟩)
  obtain ⟨hkind, post, pre, hsplit, hpost⟩ := List.find?_eq_some_iff_append.1 hx
  obtain ⟨hxdir, hxnil⟩ : x.isDir = false ∧ x.relPath = [] := by simpa using hkind
  have hes : es = pre.reverse ++ x :: post.reverse := by
    rw [← List.reverse_reverse es, hsplit]
    simp
  have hnode := hfound (pre.reverse.map .ok) x (post.reverse.map .ok) (by simp [hes]) hxdir
    fun e' he' hdir' hrel => by
      obtain ⟨y, hy, hye⟩ := List.mem_map.1 he'
      cases hye
      have := hpost e' (List.mem_reverse.1 hy)
      simp [hdir', hrel, hxnil] at this
  rw [hxnil, List.append_nil, hs.view.above _ (List.prefix_refl _)] at hnode
  cases hnode

theorem ok_injective : Function.Injective (Except.ok : ZipEntry → Except String ZipEntry) :=
  fun _ _ h => Except.ok.inj h

/-- What an extraction does, by the longest part of the archive that is accepted. -/
theorem extractEntries_longest (t : PackageDir) (entries : List (Except String ZipEntry)) :
    ∃ done, done.map .ok <+: entries ∧ Accepted done ∧
      (∀ es, es.map .ok <+: entries → Accepted es → es <+: done) ∧
      ((extractEntries t.path entries ⟨t.disk, 0, 0⟩).2 = none ∧ done.map .ok = entries ∧
          Extracted t done (extractEntries t.path entries ⟨t.disk, 0, 0⟩).1 ∨
        (extractEntries t.path entries ⟨t.disk, 0, 0⟩).2 ≠ none ∧ done.map .ok ≠ entries ∧
          ∃ files ≤ maxFiles,
            Logged t maxSingleFileBytes (extractEntries t.path entries ⟨t.disk, 0, 0⟩).1.disk.log
              files (contentBytes done)) := by
  obtain ⟨done, hpre, hacc, hcases⟩ :=
    extractEntries_spec accepted_nil (extracted_nil t) entries
  rw [List.nil_append] at hacc hcases
  refine ⟨done, hpre, hacc, fun es hes haccEs => ?_, ?_⟩
  · obtain hpre | hpre := List.prefix_or_prefix_of_prefix hes hpre
    · exact (List.prefix_map_iff_of_injective ok_injective).1 hpre
    · obtain ⟨more, rfl⟩ := (List.prefix_map_iff_of_injective ok_injective).1 hpre
      obtain ⟨-, hall, -⟩ | ⟨-, -, hmore, -⟩ := hcases
      · rw [← hall] at hes
        exact (List.prefix_map_iff_of_injective ok_injective).1 hes
      · rw [hmore more hes haccEs, List.append_nil]
  · obtain h | ⟨hsome, hnot, -, hlog⟩ := hcases
    · exact .inl h
    · exact .inr ⟨hsome, hnot, hlog⟩

variable {zip : PackageFile} {entries : List (Except String ZipEntry)}

theorem Meets.contentBytes_le (h : Meets zip t) (hopens : zip.Opens entries)
    (hes : es.map .ok <+: entries) (hacc : Accepted es) : contentBytes es ≤ maxExtractedBytes := by
  obtain ⟨done, -, -, hlongest, hcases⟩ := extractEntries_longest t entries
  have htotal := h.1.total
  rw [(extractPackageZip_of_opens hopens t.path t.disk).1] at htotal
  have hdone : contentBytes done ≤ maxExtractedBytes := by
    obtain ⟨-, -, hext⟩ | ⟨-, -, files, -, hlog⟩ := hcases
    · exact hext.logged.written.symm.trans_le htotal
    · exact hlog.written.symm.trans_le htotal
  obtain ⟨more, rfl⟩ := hlongest es hes hacc
  rw [contentBytes_append] at hdone
  omega

theorem Meets.names (h : Meets zip t) (hopens : zip.Opens (es.map .ok)) (hacc : Accepted es)
    (he : e ∈ es) (hdir : e.isDir = false) : e.name ≠ "" := by
  intro hname
  obtain ⟨done, hpre, -, hlongest, hcases⟩ := extractEntries_longest t (es.map .ok)
  have hdone : done = es :=
    ((List.prefix_map_iff_of_injective ok_injective).1 hpre).eq_of_length_le
      (hlongest es (List.prefix_refl _) hacc).length_le
  obtain ⟨hdisk, hok⟩ := extractPackageZip_of_opens hopens t.path t.disk
  obtain ⟨hnone, -, hext⟩ | ⟨-, hnot, -⟩ := hcases
  · obtain ⟨_, _, _, hopened⟩ := hopens
    have hfound := h.2 (hok.2 hnone) _ hopened
    rw [hdisk] at hfound
    exact not_found_of_nameless (hdone ▸ hext) he hdir hname hfound
  · exact hnot (by rw [hdone])

theorem meets_of_opens (hopens : zip.Opens entries)
    (hbytes : ∀ es, es.map .ok <+: entries → Accepted es → contentBytes es ≤ maxExtractedBytes)
    (hnames : ∀ es, entries = es.map .ok → Accepted es →
      ∀ e ∈ es, e.isDir = false → e.name ≠ "") : Meets zip t := by
  obtain ⟨done, hpre, hacc, -, hcases⟩ := extractEntries_longest t entries
  obtain ⟨hdisk, hok⟩ := extractPackageZip_of_opens hopens t.path t.disk
  have hdone := hbytes done hpre hacc
  rw [Meets, hdisk, hok]
  obtain ⟨hnone, hall, hext⟩ | ⟨hsome, -, files, hfiles, hlog⟩ := hcases
  · refine ⟨limited_of_logged hext.logged hacc.count hdone, fun _ entries' hopened' => ?_⟩
    obtain ⟨_, _, _, hopened⟩ := hopens
    obtain rfl := Except.ok.inj (hopened.symm.trans hopened')
    have hfound := found_of_extracted hext (hnames done hall.symm hacc)
    rwa [hall] at hfound
  · exact ⟨limited_of_logged hlog hfiles hdone, fun hnone => absurd hnone hsome⟩

/-- An extraction is limited exactly when no accepted part of the archive has more content than it
may have, and, where all of it is accepted, no file in it is nameless. -/
theorem extraction_meets_iff (zip : PackageFile) (t : PackageDir) :
    Meets zip t ↔ ∀ entries, zip.Opens entries →
      (∀ es, es.map .ok <+: entries → Accepted es → contentBytes es ≤ maxExtractedBytes) ∧
        ∀ es, entries = es.map .ok → Accepted es → ∀ e ∈ es, e.isDir = false → e.name ≠ "" := by
  constructor
  · intro h entries hopens
    refine ⟨fun es hes hacc => h.contentBytes_le hopens hes hacc, ?_⟩
    rintro es rfl hacc e he hdir
    exact h.names hopens hacc he hdir
  · intro hcond
    by_cases hopens : ∃ entries, zip.Opens entries
    · obtain ⟨entries, hopens⟩ := hopens
      exact meets_of_opens hopens (hcond entries hopens).1 (hcond entries hopens).2
    · push Not at hopens
      obtain ⟨hdisk, hnot⟩ := extractPackageZip_of_not_opens hopens t.path t.disk
      rw [Meets, hdisk]
      exact ⟨limited_of_logged (extracted_nil t).logged (Nat.zero_le _) (Nat.zero_le _),
        fun h => absurd h hnot⟩

end

/-! ## An archive that lies -/

/-- A file of 64 MiB that is declared as empty. -/
def lyingEntry (i : ℕ) : ZipEntry where
  name := String.ofList (List.replicate (i + 1) 'a')
  isSymlink := false
  isDir := false
  size := 0
  enclosedName := some [.normal (String.ofList (List.replicate (i + 1) 'a'))]
  content := List.replicate maxSingleFileBytes 0
  broken := none
  nameless h := by simp [List.replicate_succ] at h

/-- Nine entries that declare less than they have. -/
def lyingEntries : List ZipEntry := (List.range 9).map lyingEntry

theorem fileEntries_lyingEntries : fileEntries lyingEntries = lyingEntries := by
  refine List.filter_eq_self.2 fun e he => ?_
  obtain ⟨i, -, rfl⟩ := List.mem_map.1 he
  simp [lyingEntry, List.replicate_succ]

/-- An empty `/tmp`. -/
def tmpDir : PackageDir where
  path := ["tmp"]
  disk := ⟨fun q => if q <+: ["tmp"] then some .dir else none, []⟩
  above q hq := if_pos hq
  empty rel hrel := if_neg fun h => by simp_all [List.cons_prefix_cons]
  log := rfl

theorem accepted_lyingEntries : Accepted lyingEntries := by
  have hmem : ∀ e ∈ lyingEntries, ∃ i, e = lyingEntry i := fun e he => by
    obtain ⟨i, -, rfl⟩ := List.mem_map.1 he
    exact ⟨i, rfl⟩
  have hdirs : dirEntries lyingEntries = [] := by
    refine List.filter_eq_nil_iff.2 fun e he => ?_
    obtain ⟨i, rfl⟩ := hmem e he
    simp [lyingEntry]
  constructor
  case paths =>
    intro e he _
    obtain ⟨i, rfl⟩ := hmem e he
    exact ⟨_, rfl⟩
  case dirs => simp [hdirs]
  all_goals simp only [declaredBytes, fileEntries_lyingEntries]
  case count => simp [lyingEntries, maxFiles]
  case declared => simp [lyingEntries, Function.comp_def, lyingEntry]
  case sizes =>
    intro e he
    obtain ⟨i, rfl⟩ := hmem e he
    exact Nat.zero_le _
  case readable =>
    intro e he
    obtain ⟨i, rfl⟩ := hmem e he
    exact ⟨List.length_replicate.le, rfl⟩
  case named =>
    intro e he
    obtain ⟨i, rfl⟩ := hmem e he
    simp [ZipEntry.relPath, lyingEntry, Component.name?]
  case files =>
    intro e he e' he' hpre
    obtain ⟨i, rfl⟩ := hmem e he
    obtain ⟨i', rfl⟩ := hmem e' he'
    exact hpre.eq_of_length rfl

/-- Nine such files are written. -/
theorem not_extraction_meets : ¬ Meets ⟨.ok 4096, .ok (lyingEntries.map .ok)⟩ tmpDir := by
  intro h
  have hbytes := h.contentBytes_le ⟨4096, by decide, rfl, rfl⟩ (List.prefix_refl _)
    accepted_lyingEntries
  have hlen : contentBytes lyingEntries = 9 * maxSingleFileBytes := by
    rw [contentBytes, fileEntries_lyingEntries, lyingEntries, List.map_map]
    simp only [Function.comp_def, lyingEntry, List.length_replicate, List.map_const',
      List.length_range, List.sum_replicate_nat]
  rw [hlen] at hbytes
  exact absurd hbytes (by decide)

end FloatCtf.Content.PackageZip
