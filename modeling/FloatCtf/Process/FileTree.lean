import Mathlib.Algebra.BigOperators.Group.List.Basic
import Mathlib.Algebra.GroupWithZero.Nat
import Mathlib.Data.List.Infix
import Mathlib.Logic.Function.Basic

/-!
# A tree of files

A disk gives the node at every path, and keeps a log of what was done to it.  Directories are made
with all that are missing above them, and files are created and written.

`View` says what is below a new directory, and the rules of the operations say how a view changes
and when an operation fails.
-/

namespace FileTree

variable {ν β : Type}

/-- An absolute path. -/
abbrev FilePath (ν : Type) := List ν

/-- What stands at a path: a directory, or a file with its content. -/
inductive Node (β : Type) where
  | dir
  | file (content : List β)
  deriving DecidableEq

/-- What a writer has done to the disk. -/
inductive Effect (ν β : Type) where
  | mkdir (path : FilePath ν)
  | create (path : FilePath ν)
  | write (path : FilePath ν) (content : List β)
  deriving DecidableEq

/-- A file system, and what was done to it. -/
structure Disk (ν β : Type) where
  node : FilePath ν → Option (Node β)
  log : List (Effect ν β)

/-- A file stands at the path. -/
def Disk.isFile (d : Disk ν β) (path : FilePath ν) : Bool :=
  match d.node path with
  | some (.file _) => true
  | _ => false

/-- A directory stands at the path. -/
def Disk.isDir (d : Disk ν β) (path : FilePath ν) : Bool :=
  match d.node path with
  | some .dir => true
  | _ => false

variable [DecidableEq ν]

/-- `create_dir_all`; a file on the way is an error. -/
def Disk.createDirAll (path : FilePath ν) (d : Disk ν β) : Option (Disk ν β) :=
  if path.inits.any d.isFile then none
  else
    some {
      node := fun q => if q <+: path then some .dir else d.node q
      log := d.log ++ (path.inits.filter fun q => (d.node q).isNone).map .mkdir }

/-- `File::create`; a directory of that name is an error. -/
def Disk.create (path : FilePath ν) (d : Disk ν β) : Option (Disk ν β) :=
  if d.isDir path then none
  else some ⟨Function.update d.node path (some (.file [])), d.log ++ [.create path]⟩

/-- Writes the whole content of a file, whatever stood there. -/
def Disk.writeAll (path : FilePath ν) (content : List β) (d : Disk ν β) : Disk ν β :=
  ⟨Function.update d.node path (some (.file content)), d.log ++ [.write path content]⟩

/-! ## What was done -/

/-- The path that an effect touches. -/
def Effect.path : Effect ν β → FilePath ν
  | .mkdir path | .create path | .write path _ => path

/-- The effect opens a file. -/
def Effect.isCreate : Effect ν β → Bool
  | .create _ => true
  | _ => false

/-- The bytes that an effect puts on the disk. -/
def Effect.bytes : Effect ν β → ℕ
  | .write _ content => content.length
  | _ => 0

/-! ## The tree below a new directory -/

/-- A new directory. -/
structure TempDir (ν β : Type) where
  path : FilePath ν
  disk : Disk ν β
  above : ∀ q, q <+: path → disk.node q = some .dir
  empty : ∀ rel, rel ≠ [] → disk.node (path ++ rel) = none
  log : disk.log = []

/-- `file` and `dir` are what is below the directory. -/
structure View (t : TempDir ν β) (d : Disk ν β) (file : FilePath ν → Option (List β))
    (dir : FilePath ν → Prop) : Prop where
  above : ∀ q, q <+: t.path → d.node q = some .dir
  isFile : ∀ rel content, d.node (t.path ++ rel) = some (.file content) ↔ file rel = some content
  isDir : ∀ rel, d.node (t.path ++ rel) = some .dir ↔ dir rel

/-- The effects of an extraction that created `files` files and wrote `bytes` bytes. -/
structure Logged (t : TempDir ν β) (limit : ℕ) (log : List (Effect ν β)) (files bytes : ℕ) :
    Prop where
  below : ∀ x ∈ log, t.path <+: x.path ∧ x.path ≠ t.path
  single : ∀ path content, .write path content ∈ log → content.length ≤ limit
  created : log.countP Effect.isCreate = files
  written : (log.map Effect.bytes).sum = bytes

section

variable {t : TempDir ν β} {d d' : Disk ν β} {file : FilePath ν → Option (List β)}
  {dir : FilePath ν → Prop} {rel q : FilePath ν}
  {content : List β} {limit files bytes : ℕ}

omit [DecidableEq ν] in
theorem View.isFile_iff (h : View t d file dir) :
    d.isFile (t.path ++ rel) = true ↔ ∃ content, file rel = some content := by
  simp only [Disk.isFile, ← h.isFile]
  cases d.node (t.path ++ rel) with
  | none => simp
  | some node => cases node <;> simp

omit [DecidableEq ν] in
theorem prefix_append_cases (h : q <+: t.path ++ rel) :
    q <+: t.path ∨ ∃ rel', rel' ≠ [] ∧ rel' <+: rel ∧ q = t.path ++ rel' := by
  obtain hq | ⟨rel', rfl⟩ := List.prefix_or_prefix_of_prefix h (List.prefix_append t.path rel)
  · exact .inl hq
  · rw [List.prefix_append_right_inj] at h
    by_cases hnil : rel' = []
    · exact .inl (by simp [hnil])
    · exact .inr ⟨rel', hnil, h, rfl⟩

omit [DecidableEq ν] in
theorem Logged.append_mkdir {log : List (Effect ν β)} {paths : List (FilePath ν)}
    (h : Logged t limit log files bytes) (hpaths : ∀ q ∈ paths, t.path <+: q ∧ q ≠ t.path) :
    Logged t limit (log ++ paths.map .mkdir) files bytes := by
  have hcount : (paths.map (.mkdir : _ → Effect ν β)).countP Effect.isCreate = 0 := by
    simp [List.countP_eq_zero, Effect.isCreate]
  have hbytes : ((paths.map (.mkdir : _ → Effect ν β)).map Effect.bytes).sum = 0 := by
    simp [Function.comp_def, Effect.bytes]
  refine ⟨List.forall_mem_append.2 ⟨h.below, ?_⟩, fun path content hmem => ?_, ?_, ?_⟩
  · intro x hx
    obtain ⟨q, hq, rfl⟩ := List.mem_map.1 hx
    exact hpaths q hq
  · obtain hmem | hmem := List.mem_append.1 hmem
    · exact h.single path content hmem
    · simp at hmem
  · rw [List.countP_append, hcount, h.created]
    rfl
  · rw [List.map_append, List.sum_append, hbytes, h.written]
    rfl

omit [DecidableEq ν] in
theorem View.isDir_iff (h : View t d file dir) : d.isDir (t.path ++ rel) = true ↔ dir rel := by
  rw [← h.isDir, Disk.isDir]
  cases d.node (t.path ++ rel) with
  | none => simp
  | some node => cases node <;> simp

omit [DecidableEq ν] in
theorem View.congr {dir' : FilePath ν → Prop} (h : View t d file dir)
    (hdir : ∀ q, dir q ↔ dir' q) : View t d file dir' :=
  ⟨h.above, h.isFile, fun rel => (h.isDir rel).trans (hdir rel)⟩

/-- The directories above are there. -/
theorem View.createDirAll_above (h : View t d file dir) (hq : q <+: t.path) :
    ∃ d', d.createDirAll q = some d' ∧ d'.log = d.log ∧ View t d' file dir := by
  have hinits : ∀ q' ∈ q.inits, d.node q' = some .dir := fun q' hq' =>
    h.above q' (((List.mem_inits _ _).1 hq').trans hq)
  have hnode : (fun q' => if q' <+: q then some .dir else d.node q') = d.node := by
    funext q'
    split
    next hq' => exact (h.above q' (hq'.trans hq)).symm
    next => rfl
  have hnew : q.inits.filter (fun q' => (d.node q').isNone) = [] :=
    List.filter_eq_nil_iff.2 fun q' hq' => by simp [hinits q' hq']
  have hfree : ¬ q.inits.any d.isFile = true := by
    rw [List.any_eq_true]
    rintro ⟨q', hq', hfile⟩
    simp [Disk.isFile, hinits q' hq'] at hfile
  refine ⟨d, ?_, rfl, h⟩
  rw [Disk.createDirAll, if_neg hfree, hnode, hnew]
  simp

/-- A directory is made unless a file is on its way. -/
theorem View.createDirAll (h : View t d file dir) (hlog : Logged t limit d.log files bytes)
    (rel : FilePath ν) :
    ((∃ rel', rel' <+: rel ∧ ∃ content, file rel' = some content) ∧
        d.createDirAll (t.path ++ rel) = none) ∨
      (∀ rel', rel' <+: rel → file rel' = none) ∧
        ∃ d', d.createDirAll (t.path ++ rel) = some d' ∧ Logged t limit d'.log files bytes ∧
          View t d' file fun q => dir q ∨ q <+: rel := by
  by_cases hfile : ∃ rel', rel' <+: rel ∧ ∃ content, file rel' = some content
  · obtain ⟨rel', hrel', hcontent⟩ := hfile
    refine .inl ⟨⟨rel', hrel', hcontent⟩, if_pos ?_⟩
    exact List.any_eq_true.2 ⟨t.path ++ rel', (List.mem_inits _ _).2
      ((List.prefix_append_right_inj t.path).2 hrel'), h.isFile_iff.2 hcontent⟩
  · have hfree : ∀ rel', rel' <+: rel → file rel' = none := by
      intro rel' hrel'
      by_contra hne
      exact hfile ⟨rel', hrel', Option.ne_none_iff_exists'.1 hne⟩
    refine .inr ⟨hfree, _, if_neg ?_, ?_, ?_⟩
    · intro hany
      obtain ⟨q, hq, hfileq⟩ := List.any_eq_true.1 hany
      obtain hq | ⟨rel', -, hrel', rfl⟩ := prefix_append_cases ((List.mem_inits _ _).1 hq)
      · simp [Disk.isFile, h.above q hq] at hfileq
      · exact hfile ⟨rel', hrel', h.isFile_iff.1 hfileq⟩
    · exact hlog.append_mkdir fun q hq => by
        obtain ⟨hq, hnone⟩ := List.mem_filter.1 hq
        obtain hq | ⟨rel', hne, -, rfl⟩ := prefix_append_cases ((List.mem_inits _ _).1 hq)
        · simp [h.above q hq] at hnone
        · exact ⟨List.prefix_append _ _, by simpa using hne⟩
    · refine ⟨fun q hq => ?_, fun rel' content => ?_, fun rel' => ?_⟩
      · simp only [ite_eq_left_iff]
        exact fun _ => h.above q hq
      · simp only [List.prefix_append_right_inj]
        split
        next hrel' => simp [hfree rel' hrel']
        next => exact h.isFile rel' content
      · simp only [List.prefix_append_right_inj]
        split
        next hrel' => simp [hrel']
        next hrel' => simp [hrel', h.isDir rel']

omit [DecidableEq ν] in
theorem Logged.append_create {log : List (Effect ν β)} (h : Logged t limit log files bytes)
    (hrel : rel ≠ []) :
    Logged t limit (log ++ [.create (t.path ++ rel)]) (files + 1) bytes := by
  refine ⟨List.forall_mem_append.2 ⟨h.below, List.forall_mem_singleton.2 ?_⟩,
    fun path content hmem => h.single path content (by simpa using hmem), ?_, ?_⟩
  · exact ⟨List.prefix_append _ _, by simpa [Effect.path] using hrel⟩
  · rw [List.countP_append, h.created]
    rfl
  · rw [List.map_append, List.sum_append, h.written]
    rfl

omit [DecidableEq ν] in
theorem Logged.append_write {log : List (Effect ν β)} (h : Logged t limit log files bytes)
    (hrel : rel ≠ [])
    (hlen : content.length ≤ limit) :
    Logged t limit (log ++ [.write (t.path ++ rel) content]) files (bytes + content.length) := by
  refine ⟨List.forall_mem_append.2 ⟨h.below, List.forall_mem_singleton.2 ?_⟩,
    fun path content' hmem => ?_, ?_, ?_⟩
  · exact ⟨List.prefix_append _ _, by simpa [Effect.path] using hrel⟩
  · obtain hmem | hmem := List.mem_append.1 hmem
    · exact h.single path content' hmem
    · obtain ⟨-, rfl⟩ : path = t.path ++ rel ∧ content' = content := by simpa using hmem
      exact hlen
  · rw [List.countP_append, h.created]
    rfl
  · rw [List.map_append, List.sum_append, h.written]
    simp [Effect.bytes]

/-- A file is written where there is no directory. -/
theorem View.write (h : View t d file dir) (hdir : ¬ dir rel)
    (hnode : d'.node = Function.update d.node (t.path ++ rel) (some (.file content))) :
    View t d' (Function.update file rel (some content)) dir := by
  have hold : d.node (t.path ++ rel) ≠ some .dir := fun hd => hdir ((h.isDir rel).1 hd)
  have hrel (rel' : FilePath ν) : d'.node (t.path ++ rel') =
      if rel' = rel then some (.file content) else d.node (t.path ++ rel') := by
    rw [hnode, Function.update_apply]
    simp only [List.append_cancel_left_eq]
  refine ⟨fun q hq => ?_, fun rel' content' => ?_, fun rel' => ?_⟩
  · rw [hnode, Function.update_of_ne]
    · exact h.above q hq
    · rintro rfl
      exact hold (h.above _ hq)
  · rw [hrel, Function.update_apply]
    split
    · simp
    · exact h.isFile rel' content'
  · rw [hrel]
    split
    next heq => simp [heq, hdir]
    next => exact h.isDir rel'

end

theorem prefix_dropLast_iff {α : Type} {l path : List α} (h : path ≠ []) :
    l <+: path.dropLast ↔ l <+: path ∧ l ≠ path := by
  constructor
  · intro hl
    refine ⟨hl.trans (List.dropLast_prefix path), ?_⟩
    rintro rfl
    have := hl.length_le
    have := List.length_pos_iff.2 h
    rw [List.length_dropLast] at *
    omega
  · rintro ⟨⟨t, rfl⟩, hne⟩
    have ht : t ≠ [] := by
      rintro rfl
      exact hne (List.append_nil l).symm
    rw [List.dropLast_append_of_ne_nil ht]
    exact List.prefix_append _ _

end FileTree
