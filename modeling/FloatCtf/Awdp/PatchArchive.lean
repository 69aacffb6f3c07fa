import Mathlib

/-!
# The archive of a patch

`extract_patch_payload` and `build_patch_tar` of `service/patch_service.rs`: the entries of the
upload become a script and a list of files, and these become the archive that is copied into the
container.  An upload is the sequence of its entries.  The writer, of the `tar` crate, is a
parameter: it may refuse a path, or drop components `.` of it.

The paths of regular files are checked, but for components `.`.  The paths of symbolic links are
not.  So the payload of an upload is what it should be exactly when the writer keeps the paths of
its files, and its links have paths that the check accepts, other than that of the script.
-/

namespace FloatCtf.Awdp

/-! ## Entries -/

/-- A path of an archive. -/
abbrev Path := List Char

instance : LawfulBEq Path := inferInstance

/-- The types of entries that are told apart. -/
inductive EntryType where
  | regular
  | directory
  | symlink
  | other
  deriving DecidableEq

/-- An entry of an archive. -/
structure Entry where
  kind : EntryType
  path : Path
  content : ByteArray
  deriving DecidableEq

/-- The bytes of a request: whether they begin as gzip does, their digest, and the entries behind,
or the message of the reader. -/
structure Upload where
  gzip : Bool
  sha256 : String
  entries : List (Except String Entry)

/-- A file of a patch. -/
structure PatchFile where
  relativePath : Path
  content : ByteArray
  deriving DecidableEq

/-- What is taken from an upload. -/
structure PatchPayload where
  script : String
  files : List PatchFile
  archiveSha256 : String

/-- The name `patch.sh`. -/
def patchSh : Path := ['p', 'a', 't', 'c', 'h', '.', 's', 'h']

/-- The name `..`. -/
def dotDot : Path := ['.', '.']

/-- `split('/')`. -/
def components (path : Path) : List Path := path.splitOn '/'

/-- The name of a global pax header. -/
def paxHeader : Path := "pax_global_header".toList

/-- The path of a global pax header. -/
def isPaxHeader (raw : Path) : Bool := ('/' :: paxHeader) <:+ raw ∨ paxHeader <+: raw

/-- The check on the path of a regular file. -/
def legalPath (raw : Path) : Bool :=
  ¬(raw.head? = some '/' ∨ dotDot <:+: raw ∨ [] ∈ components raw)

/-! ## Reading -/

/-- What has been read so far. -/
structure Extracted where
  script : Option String
  files : List PatchFile

/-- `extract_entry`: directories are passed over, links and files are taken. -/
def extractEntry (e : Entry) (x : Extracted) : Except String Extracted :=
  if isPaxHeader e.path then .ok x
  else match e.kind with
  | .directory => .ok x
  | .symlink => .ok { x with files := x.files ++ [⟨e.path, e.content⟩] }
  | .other => .error s!"patch.tar.gz 不支持非普通文件: {String.ofList e.path}"
  | .regular =>
    if !legalPath e.path then .error s!"patch.tar.gz 路径不合法: {String.ofList e.path}"
    else if e.path = patchSh then
      match String.fromUTF8? e.content with
      | none => .error "patch.sh 必须是 UTF-8 文本脚本"
      | some s => .ok { x with script := some s }
    else .ok { x with files := x.files ++ [⟨e.path, e.content⟩] }

/-- The entries of an upload, up to the first error. -/
def extractEntries : List (Except String Entry) → Extracted → Except String Extracted
  | [], x => .ok x
  | .error message :: _, _ => .error message
  | .ok e :: rest, x => (extractEntry e x).bind (extractEntries rest)

/-- `extract_patch_payload`: the script and the files of an upload. -/
def extractPatchPayload (upload : Upload) : Except String PatchPayload :=
  if !upload.gzip then
    .error "请上传 patch.tar.gz（gzip 压缩的 tar 归档，内含根 patch.sh）"
  else
    (extractEntries upload.entries ⟨none, []⟩).bind fun x =>
      match x.script with
      | none => .error "patch.tar.gz 内缺少根 patch.sh 文件"
      | some script => .ok ⟨script, x.files, upload.sha256⟩

/-! ## Writing -/

/-- Every component is a name, and there is no null character. -/
def Tidy (path : Path) : Prop :=
  '\u0000' ∉ path ∧ ∀ part ∈ components path, part ≠ [] ∧ part ≠ ['.'] ∧ part ≠ dotDot

instance (path : Path) : Decidable (Tidy path) := inferInstanceAs (Decidable (_ ∧ ∀ _ ∈ _, _))

/-- The crate: `write` is the path of the entry that `append_data` makes for a path, or an error.
With a path it takes the directories above it, and what it wrote it writes again. -/
structure TarCrate where
  write : Path → Option Path
  tidy : ∀ path, Tidy path → write path = some path
  tidyDir : ∀ path, Tidy path → write (path ++ ['/']) = some (path ++ ['/'])
  parents : ∀ dir rest, dir ≠ [] → dotDot ∉ components dir → (write (dir ++ '/' :: rest)).isSome →
    (write (dir ++ ['/'])).isSome
  again : ∀ path path', write path = some path' → write path' = some path'

section Writer

variable (crate : TarCrate)

/-- `append_data`: appends an entry whose path the crate can write. -/
def appendData (kind : EntryType) (path : Path) (content : ByteArray) (archive : List Entry) :
    Option (List Entry) :=
  (crate.write path).map fun written => archive ++ [⟨kind, written, content⟩]

/-- An archive with the directories that it has. -/
structure Builder where
  archive : List Entry
  dirs : List Path

/-- The path of the next parent. -/
def joinPart (acc part : Path) : Path := if acc = [] then part else acc ++ '/' :: part

/-- The loop over the parents of a file: `acc` is the path so far. -/
def addParents : List Path → Path → Builder → Option Builder
  | [], _, b => some b
  | part :: rest, acc, b =>
    if part = [] then addParents rest acc b
    else if joinPart acc part ++ ['/'] ∈ b.dirs then addParents rest (joinPart acc part) b
    else
      (appendData crate .directory (joinPart acc part ++ ['/']) .empty b.archive).bind
        fun archive =>
          addParents rest (joinPart acc part) ⟨archive, (joinPart acc part ++ ['/']) :: b.dirs⟩

/-- The files of a patch, each behind its directories. -/
def addFiles : List PatchFile → Builder → Option Builder
  | [], b => some b
  | file :: rest, b =>
    (addParents crate (components file.relativePath).dropLast [] b).bind fun b =>
      (appendData crate .regular file.relativePath file.content b.archive).bind fun archive =>
        addFiles rest { b with archive }

/-- `build_patch_tar`; `none` is the panic of an `unwrap`. -/
def buildPatchTar (payload : PatchPayload) : Option (List Entry) :=
  (appendData crate .regular patchSh payload.script.toUTF8 []).bind fun archive =>
    (addFiles crate payload.files ⟨archive, []⟩).map (·.archive)

end Writer

/-! ## What an entry gives -/

/-- The file that an entry becomes. -/
def fileOf (e : Entry) : Option PatchFile :=
  if isPaxHeader e.path then none
  else match e.kind with
  | .symlink => some ⟨e.path, e.content⟩
  | .regular => if e.path = patchSh then none else some ⟨e.path, e.content⟩
  | _ => none

/-- The script that an entry holds. -/
def scriptOf (e : Entry) : Option String :=
  if e.kind = .regular ∧ e.path = patchSh then String.fromUTF8? e.content else none

/-- The entry is read without an error. -/
def Acceptable (e : Entry) : Prop :=
  isPaxHeader e.path = false →
    e.kind ≠ .other ∧ (e.kind = .regular → legalPath e.path = true ∧
      (e.path = patchSh → (String.fromUTF8? e.content).isSome))

variable {e : Entry} {es : List Entry} {x y : Extracted} {f : PatchFile} {u : Upload}
  {payload : PatchPayload}

theorem isPaxHeader_patchSh : isPaxHeader patchSh = false := by decide

theorem extractEntry_ok (h : Acceptable e) (x : Extracted) :
    extractEntry e x = .ok ⟨(scriptOf e).or x.script, x.files ++ (fileOf e).toList⟩ := by
  obtain ⟨kind, path, content⟩ := e
  unfold extractEntry fileOf scriptOf
  by_cases hpax : isPaxHeader path = true
  · have hne : path ≠ patchSh := by
      rintro rfl
      cases isPaxHeader_patchSh.symm.trans hpax
    simp [hpax, hne]
  · obtain ⟨hother, hregular⟩ := h (Bool.eq_false_of_not_eq_true hpax)
    cases kind with
    | regular =>
      obtain ⟨hlegal, hutf⟩ := hregular rfl
      by_cases hsh : path = patchSh
      · obtain ⟨s, hs⟩ := Option.isSome_iff_exists.1 (hutf hsh)
        rw [hsh] at hpax hlegal
        simp [hpax, hlegal, hsh, hs]
      · simp [hpax, hlegal, hsh]
    | directory => simp [hpax]
    | symlink => simp [hpax]
    | other => exact absurd rfl hother

theorem acceptable_of_extractEntry (h : extractEntry e x = .ok y) : Acceptable e := by
  obtain ⟨kind, path, content⟩ := e
  intro hpax
  unfold extractEntry at h
  simp only [hpax, Bool.false_eq_true, if_false] at h
  cases kind with
  | regular =>
    refine ⟨nofun, fun _ => ?_⟩
    cases hlegal : legalPath path with
    | false => simp [hlegal] at h
    | true =>
      refine ⟨rfl, fun hsh => ?_⟩
      cases hutf : String.fromUTF8? content with
      | none =>
        simp only [hlegal, hutf, Bool.not_true, Bool.false_eq_true, if_false] at h
        rw [if_pos hsh] at h
        cases h
      | some s => rfl
  | directory => exact ⟨nofun, nofun⟩
  | symlink => exact ⟨nofun, nofun⟩
  | other => cases h

/-- The loop reads acceptable entries: the last script counts, and the files stay in order. -/
theorem extractEntries_ok (h : ∀ e ∈ es, Acceptable e) (x : Extracted) :
    extractEntries (es.map .ok) x =
      .ok ⟨(es.filterMap scriptOf).getLast?.or x.script, x.files ++ es.filterMap fileOf⟩ := by
  induction es generalizing x with
  | nil => simp [extractEntries]
  | cons e es ih =>
    obtain ⟨he, hes⟩ := List.forall_mem_cons.1 h
    show (extractEntry e x).bind (extractEntries (es.map .ok)) = _
    rw [extractEntry_ok he]
    refine (ih hes _).trans ?_
    cases hs : scriptOf e <;> cases hf : fileOf e <;>
      simp [hs, hf, List.getLast?_cons]

theorem acceptable_of_extractEntries {l : List (Except String Entry)}
    (h : extractEntries l x = .ok y) :
    ∃ es : List Entry, l = es.map .ok ∧ ∀ e ∈ es, Acceptable e := by
  induction l generalizing x with
  | nil => exact ⟨[], rfl, nofun⟩
  | cons item l ih =>
    cases item with
    | error message => cases h
    | ok e =>
      cases hx : extractEntry e x with
      | error message =>
        rw [extractEntries, hx] at h
        cases h
      | ok x' =>
        rw [extractEntries, hx] at h
        obtain ⟨es, rfl, hes⟩ := ih h
        exact ⟨e :: es, rfl, List.forall_mem_cons.2 ⟨acceptable_of_extractEntry hx, hes⟩⟩

/-- The upload is accepted: its entries are, and one of them is the script. -/
def Readable (u : Upload) : Prop :=
  u.gzip = true ∧ ∃ es : List Entry, u.entries = es.map .ok ∧ (∀ e ∈ es, Acceptable e) ∧
    ∃ e ∈ es, e.kind = .regular ∧ e.path = patchSh

theorem extractPatchPayload_eq_ok_iff : extractPatchPayload u = .ok payload ↔
    u.gzip = true ∧ payload.archiveSha256 = u.sha256 ∧ ∃ es : List Entry,
      u.entries = es.map .ok ∧ (∀ e ∈ es, Acceptable e) ∧
        (es.filterMap scriptOf).getLast? = some payload.script ∧
          payload.files = es.filterMap fileOf := by
  unfold extractPatchPayload
  cases hgzip : u.gzip with
  | false => simp
  | true =>
    simp only [Bool.not_true, Bool.false_eq_true, if_false, true_and]
    constructor
    · intro h
      cases hx : extractEntries u.entries ⟨none, []⟩ with
      | error message =>
        rw [hx] at h
        cases h
      | ok x =>
        obtain ⟨es, hes, hacc⟩ := acceptable_of_extractEntries hx
        have hrun := extractEntries_ok hacc ⟨none, []⟩
        rw [hes] at h
        rw [hrun, Except.bind] at h
        rw [Option.or_none] at h
        cases hlast : (es.filterMap scriptOf).getLast? with
        | none => simp [hlast] at h
        | some script =>
          simp only [hlast, List.nil_append, Except.ok.injEq] at h
          subst h
          exact ⟨rfl, es, hes, hacc, hlast, rfl⟩
    · rintro ⟨hsha, es, hes, hacc, hlast, hfiles⟩
      rw [hes, extractEntries_ok hacc, Except.bind]
      simp only [Option.or_none, hlast, List.nil_append]
      obtain ⟨script, files, sha⟩ := payload
      cases hfiles
      cases hsha
      rfl

theorem scriptOf_isSome_iff (h : Acceptable e) :
    (∃ s, scriptOf e = some s) ↔ e.kind = .regular ∧ e.path = patchSh := by
  constructor
  · rintro ⟨s, hs⟩
    unfold scriptOf at hs
    split_ifs at hs with hkind
    exact hkind
  · intro hkind
    have hpax : isPaxHeader e.path = false := hkind.2 ▸ isPaxHeader_patchSh
    rw [scriptOf, if_pos hkind]
    exact Option.isSome_iff_exists.1 (((h hpax).2 hkind.1).2 hkind.2)

theorem readable_iff : (∃ payload, extractPatchPayload u = .ok payload) ↔ Readable u := by
  constructor
  · rintro ⟨payload, h⟩
    obtain ⟨hgzip, -, es, hes, hacc, hlast, -⟩ := extractPatchPayload_eq_ok_iff.1 h
    obtain ⟨e, he, hs⟩ := List.mem_filterMap.1 (List.mem_of_getLast? hlast)
    exact ⟨hgzip, es, hes, hacc, e, he, (scriptOf_isSome_iff (hacc e he)).1 ⟨_, hs⟩⟩
  · rintro ⟨hgzip, es, hes, hacc, e, he, hkind⟩
    obtain ⟨s, hs⟩ := (scriptOf_isSome_iff (hacc e he)).2 hkind
    have hmem : s ∈ es.filterMap scriptOf := List.mem_filterMap.2 ⟨e, he, hs⟩
    have hlast := List.getLast?_eq_some_getLast (List.ne_nil_of_mem hmem)
    exact ⟨⟨_, es.filterMap fileOf, u.sha256⟩,
      extractPatchPayload_eq_ok_iff.2 ⟨hgzip, rfl, es, hes, hacc, hlast, rfl⟩⟩

/-! ## What the writer makes -/

variable {crate : TarCrate} {path part acc : Path} {parts : List Path} {archive : List Entry}
  {b b' : Builder} {files : List PatchFile}

theorem exists_appendData (h : (crate.write path).isSome) (kind : EntryType)
    (content : ByteArray) :
    ∃ archive', appendData crate kind path content archive = some archive' := by
  obtain ⟨written, hwritten⟩ := Option.isSome_iff_exists.1 h
  exact ⟨_, by rw [appendData, hwritten, Option.map_some]⟩

theorem appendData_eq_some {kind : EntryType} {content : ByteArray} {archive' : List Entry}
    (h : appendData crate kind path content archive = some archive') :
    ∃ written, crate.write path = some written ∧
      archive' = archive ++ [⟨kind, written, content⟩] := by
  obtain ⟨written, hwritten, rfl⟩ := Option.map_eq_some_iff.1 h
  exact ⟨written, hwritten, rfl⟩

theorem tidy_patchSh : Tidy patchSh := by decide

theorem components_append (xs ys : Path) :
    components (xs ++ '/' :: ys) = components xs ++ components ys :=
  List.splitOn_append_cons_self ..

theorem components_of_notMem (h : '/' ∉ part) : components part = [part] :=
  List.splitOn_eq_singleton h

theorem notMem_of_mem_components (h : part ∈ components path) : '/' ∉ part := by
  induction path generalizing part with
  | nil =>
    rw [components, List.splitOn_nil, List.mem_singleton] at h
    rw [h]
    exact List.not_mem_nil
  | cons c cs ih =>
    rw [components, List.splitOn_cons_eq_if_modifyHead] at h
    split_ifs at h with hc
    · rcases List.mem_cons.1 h with rfl | h
      · exact List.not_mem_nil
      · exact ih h
    · obtain ⟨w, ws, hws⟩ := List.exists_cons_of_ne_nil (List.splitOn_ne_nil '/' cs)
      have hw : ∀ v ∈ w :: ws, '/' ∉ v := fun v hv => ih (by rwa [components, hws])
      rw [hws, List.modifyHead_cons] at h
      rcases List.mem_cons.1 h with rfl | h
      · rw [List.mem_cons, not_or]
        exact ⟨fun heq => hc (by rw [← heq]; rfl), hw w List.mem_cons_self⟩
      · exact hw _ (List.mem_cons_of_mem _ h)

/-- The loop over the parents adds directories only. -/
theorem addParents_spec (h : addParents crate parts acc b = some b') :
    ∃ ds, b'.archive = b.archive ++ ds ∧ ∀ d ∈ ds, d.kind = .directory := by
  induction parts generalizing acc b with
  | nil =>
    cases h
    exact ⟨[], (List.append_nil _).symm, nofun⟩
  | cons part rest ih =>
    unfold addParents at h
    split_ifs at h
    · exact ih h
    · exact ih h
    · obtain ⟨archive, ha, h⟩ := Option.bind_eq_some_iff.1 h
      obtain ⟨ds, hds, hkind⟩ := ih h
      obtain ⟨written, -, rfl⟩ := appendData_eq_some ha
      refine ⟨⟨.directory, written, .empty⟩ :: ds, ?_, List.forall_mem_cons.2 ⟨rfl, hkind⟩⟩
      rw [hds, List.append_assoc]
      rfl

/-- The entry that the writer makes of a file. -/
def fileEntry (crate : TarCrate) (file : PatchFile) : Option Entry :=
  (crate.write file.relativePath).map fun written => ⟨.regular, written, file.content⟩

theorem filter_directories {ds : List Entry} (h : ∀ d ∈ ds, d.kind = .directory) :
    ds.filter (·.kind = .regular) = [] :=
  List.filter_eq_nil_iff.2 fun d hd => by simp [h d hd]

/-- The files are added in order, with directories between them. -/
theorem addFiles_spec (h : addFiles crate files b = some b') :
    ∃ es, b'.archive = b.archive ++ es ∧ (∀ e ∈ es, e.kind = .regular ∨ e.kind = .directory) ∧
      es.filter (·.kind = .regular) = files.filterMap (fileEntry crate) := by
  induction files generalizing b with
  | nil =>
    cases h
    exact ⟨[], (List.append_nil _).symm, nofun, rfl⟩
  | cons file files ih =>
    obtain ⟨b₁, hb₁, h⟩ := Option.bind_eq_some_iff.1 h
    obtain ⟨archive, ha, h⟩ := Option.bind_eq_some_iff.1 h
    obtain ⟨ds, hds, hkind⟩ := addParents_spec hb₁
    obtain ⟨es, hes, hkinds, hfilter⟩ := ih h
    obtain ⟨written, hwritten, rfl⟩ := appendData_eq_some ha
    refine ⟨ds ++ ⟨.regular, written, file.content⟩ :: es, ?_, ?_, ?_⟩
    · rw [hes, hds, List.append_assoc, List.append_assoc]
      rfl
    · intro e he
      rcases List.mem_append.1 he with he | he
      · exact .inr (hkind e he)
      · rcases List.mem_cons.1 he with rfl | he
        · exact .inl rfl
        · exact hkinds e he
    · rw [List.filter_append, filter_directories hkind, List.nil_append,
        List.filter_cons_of_pos (by rfl), hfilter, List.filterMap_cons_some]
      rw [fileEntry, hwritten, Option.map_some]

/-- The archive of a payload: the script, and then the files with their directories. -/
theorem buildPatchTar_spec (h : buildPatchTar crate payload = some archive) :
    ∃ es, archive = ⟨.regular, patchSh, payload.script.toUTF8⟩ :: es ∧
      (∀ e ∈ es, e.kind = .regular ∨ e.kind = .directory) ∧
        es.filter (·.kind = .regular) = payload.files.filterMap (fileEntry crate) := by
  obtain ⟨a, ha, h⟩ := Option.bind_eq_some_iff.1 h
  obtain ⟨b, hb, rfl⟩ := Option.map_eq_some_iff.1 h
  obtain ⟨es, hes, hkinds, hfilter⟩ := addFiles_spec hb
  obtain ⟨written, hwritten, rfl⟩ := appendData_eq_some ha
  rw [crate.tidy patchSh tidy_patchSh] at hwritten
  cases hwritten
  exact ⟨es, hes, hkinds, hfilter⟩

/-! ## The writer takes the parents of what it takes -/

/-- The path of a list of components. -/
def join (parts : List Path) : Path := ['/'].intercalate parts

theorem join_components (path : Path) : join (components path) = path :=
  List.intercalate_splitOn '/'

theorem join_cons (hparts : parts ≠ []) :
    join (part :: parts) = part ++ '/' :: join parts := by
  obtain ⟨next, rest, rfl⟩ := List.exists_cons_of_ne_nil hparts
  simp [join, List.intercalate]

theorem components_join_of (hne : parts ≠ []) (h : ∀ part ∈ parts, '/' ∉ part) :
    components (join parts) = parts :=
  List.splitOn_intercalate '/' h hne

theorem mem_join {c : Char} (h : c ∈ join parts) :
    c = '/' ∨ ∃ part ∈ parts, c ∈ part := by
  induction parts with
  | nil => cases h
  | cons part parts ih =>
    by_cases hnil : parts = []
    · subst hnil
      exact .inr ⟨part, List.mem_cons_self, by simpa [join] using h⟩
    · rw [join_cons hnil, List.mem_append, List.mem_cons] at h
      rcases h with h | h | h
      · exact .inr ⟨part, List.mem_cons_self, h⟩
      · exact .inl h
      · exact (ih h).imp_right fun ⟨part, hpart, hc⟩ => ⟨part, List.mem_cons_of_mem _ hpart, hc⟩

/-- The path is `acc` and the parts that follow. -/
def Splits (path acc : Path) (parts : List Path) : Prop :=
  acc = [] ∧ path = join parts ∨ acc ≠ [] ∧ path = acc ++ '/' :: join parts

theorem joinPart_ne_nil (hpart : part ≠ []) : joinPart acc part ≠ [] := by
  unfold joinPart
  split_ifs with h
  · exact hpart
  · exact List.append_ne_nil_of_left_ne_nil h _

theorem Splits.joinPart (h : Splits path acc (part :: parts)) (hparts : parts ≠ []) :
    path = joinPart acc part ++ '/' :: join parts := by
  unfold Awdp.joinPart
  obtain ⟨rfl, rfl⟩ | ⟨hne, rfl⟩ := h
  · rw [if_pos rfl, join_cons hparts]
  · rw [if_neg hne, join_cons hparts, List.append_assoc, List.cons_append]

/-- Joining a component that is not `..` adds no component `..`. -/
theorem dotDot_notMem_joinPart (hacc : dotDot ∉ components acc) (hslash : '/' ∉ part)
    (hdots : part ≠ dotDot) : dotDot ∉ components (joinPart acc part) := by
  unfold joinPart
  split_ifs with h
  · rw [components_of_notMem hslash, List.mem_singleton]
    exact hdots.symm
  · rw [components_append, components_of_notMem hslash, List.mem_append, List.mem_singleton, not_or]
    exact ⟨hacc, hdots.symm⟩

/-- The directories above a path that the writer takes are taken. -/
theorem exists_addParents (hpath : (crate.write path).isSome) {last : Path}
    (hsplits : Splits path acc (parts ++ [last])) (hacc : dotDot ∉ components acc)
    (hparts : ∀ part ∈ parts, part ≠ [] ∧ '/' ∉ part ∧ part ≠ dotDot) (b : Builder) :
    ∃ b', addParents crate parts acc b = some b' := by
  induction parts generalizing acc b with
  | nil => exact ⟨b, rfl⟩
  | cons part rest ih =>
    obtain ⟨⟨hempty, hslash, hdots⟩, hrest⟩ := List.forall_mem_cons.1 hparts
    have hjoin := dotDot_notMem_joinPart hacc hslash hdots
    have heq : path = joinPart acc part ++ '/' :: join (rest ++ [last]) :=
      Splits.joinPart hsplits (by simp)
    have hnext : Splits path (joinPart acc part) (rest ++ [last]) :=
      .inr ⟨joinPart_ne_nil hempty, heq⟩
    unfold addParents
    rw [if_neg hempty]
    split_ifs
    · exact ih hnext hjoin hrest b
    · obtain ⟨archive, harchive⟩ := @exists_appendData crate _ b.archive
        (crate.parents _ _ (joinPart_ne_nil hempty) hjoin (heq ▸ hpath)) .directory .empty
      rw [harchive]
      exact ih hnext hjoin hrest _

theorem exists_addFiles (hfiles : ∀ f ∈ files, (crate.write f.relativePath).isSome ∧
      ∀ part ∈ components f.relativePath, part ≠ [] ∧ part ≠ dotDot) (b : Builder) :
    ∃ b', addFiles crate files b = some b' := by
  induction files generalizing b with
  | nil => exact ⟨b, rfl⟩
  | cons file files ih =>
    obtain ⟨⟨hwrite, hnames⟩, hrest⟩ := List.forall_mem_cons.1 hfiles
    have hne : components file.relativePath ≠ [] := List.splitOn_ne_nil '/' _
    have hparts : ∀ part ∈ (components file.relativePath).dropLast,
        part ≠ [] ∧ '/' ∉ part ∧ part ≠ dotDot := fun part hpart => by
      have hmem := List.mem_of_mem_dropLast hpart
      exact ⟨(hnames part hmem).1, notMem_of_mem_components hmem, (hnames part hmem).2⟩
    have hsplits : Splits file.relativePath [] ((components file.relativePath).dropLast ++
        [(components file.relativePath).getLast hne]) := by
      rw [List.dropLast_append_getLast hne]
      exact .inl ⟨rfl, (join_components _).symm⟩
    obtain ⟨b₁, hb₁⟩ := exists_addParents hwrite hsplits (by decide) hparts b
    obtain ⟨archive, harchive⟩ := @exists_appendData crate _ b₁.archive hwrite .regular
      file.content
    obtain ⟨b₂, hb₂⟩ := ih hrest ⟨archive, b₁.dirs⟩
    exact ⟨b₂, by rw [addFiles, hb₁, Option.bind_some, harchive, Option.bind_some, hb₂]⟩

theorem exists_buildPatchTar
    (hfiles : ∀ f ∈ payload.files, (crate.write f.relativePath).isSome ∧
      ∀ part ∈ components f.relativePath, part ≠ [] ∧ part ≠ dotDot) :
    ∃ archive, buildPatchTar crate payload = some archive := by
  obtain ⟨b, hb⟩ := exists_addFiles hfiles
    ⟨[] ++ [⟨.regular, patchSh, payload.script.toUTF8⟩], []⟩
  refine ⟨b.archive, ?_⟩
  rw [buildPatchTar, appendData, crate.tidy patchSh tidy_patchSh, Option.map_some,
    Option.bind_some, hb]
  rfl

/-! ## Legal paths -/

theorem head_components_prefix {ws : List Path} (h : components path = part :: ws) :
    part <+: path := by
  induction path generalizing part ws with
  | nil =>
    rw [components, List.splitOn_nil, List.cons.injEq] at h
    rw [← h.1]
  | cons c cs ih =>
    rw [components, List.splitOn_cons_eq_if_modifyHead] at h
    split_ifs at h
    · rw [List.cons.injEq] at h
      exact h.1 ▸ List.nil_prefix
    · obtain ⟨w, ws', hws⟩ := List.exists_cons_of_ne_nil (List.splitOn_ne_nil '/' cs)
      rw [hws, List.modifyHead_cons, List.cons.injEq] at h
      rw [← h.1]
      exact (List.prefix_cons_inj c).2 (ih hws)

theorem infix_of_mem_components (h : part ∈ components path) : part <:+: path := by
  induction path with
  | nil =>
    rw [components, List.splitOn_nil, List.mem_singleton] at h
    rw [h]
  | cons c cs ih =>
    obtain ⟨w, ws, hws⟩ := List.exists_cons_of_ne_nil (List.splitOn_ne_nil '/' (c :: cs))
    have hhead := head_components_prefix hws
    rw [components, hws] at h
    rcases List.mem_cons.1 h with rfl | hmem
    · exact hhead.isInfix
    · rw [List.splitOn_cons_eq_if_modifyHead] at hws
      have htail : part ∈ components cs := by
        split_ifs at hws with hc
        · cases hws
          exact hmem
        · obtain ⟨v, vs, hvs⟩ := List.exists_cons_of_ne_nil (List.splitOn_ne_nil '/' cs)
          rw [hvs, List.modifyHead_cons] at hws
          cases hws
          rw [components, hvs]
          exact List.mem_cons_of_mem _ hmem
      exact (ih htail).trans (List.suffix_cons c cs).isInfix

theorem legalPath_iff : legalPath path = true ↔
    path.head? ≠ some '/' ∧ ¬ dotDot <:+: path ∧ [] ∉ components path := by
  simp [legalPath]

theorem names_of_legalPath (h : legalPath path = true) :
    ∀ part ∈ components path, part ≠ [] ∧ part ≠ dotDot := by
  obtain ⟨-, hdots, hempty⟩ := legalPath_iff.1 h
  intro part hpart
  exact ⟨fun hnil => hempty (hnil ▸ hpart),
    fun hdot => hdots (infix_of_mem_components (hdot ▸ hpart))⟩

/-! ## The payload of an upload -/

/-- What the payload of an upload should be: its paths stay in the directory, its script and its
files are those of the upload, the archive is made, and gives the script and the files again. -/
structure Intact (crate : TarCrate) (u : Upload) (payload : PatchPayload) : Prop where
  paths : ∀ f ∈ payload.files, f.relativePath.head? ≠ some '/' ∧
    ∀ part ∈ components f.relativePath, part ≠ [] ∧ part ≠ dotDot
  contents : ∀ f ∈ payload.files, ∃ e, .ok e ∈ u.entries ∧ e.path = f.relativePath ∧
    e.content = f.content
  script : ∃ e, .ok e ∈ u.entries ∧ e.kind = .regular ∧ e.path = patchSh ∧
    String.fromUTF8? e.content = some payload.script
  rebuilt : ∃ archive, buildPatchTar crate payload = some archive ∧ ∀ sha256, ∃ payload',
    extractPatchPayload ⟨true, sha256, archive.map .ok⟩ = .ok payload' ∧
      payload'.script = payload.script ∧ ∀ f, f ∈ payload'.files ↔ f ∈ payload.files

/-- The links have paths as the check on regular files accepts them, other than the script's. -/
def LinksLegal (u : Upload) : Prop :=
  ∀ e, .ok e ∈ u.entries → e.kind = .symlink → isPaxHeader e.path = false →
    legalPath e.path = true ∧ e.path ≠ patchSh

/-- The writer keeps the paths of the files and links. -/
def PathsKept (crate : TarCrate) (u : Upload) : Prop :=
  ∀ e, .ok e ∈ u.entries → e.kind = .symlink ∨ e.kind = .regular → isPaxHeader e.path = false →
    crate.write e.path = some e.path

theorem fromUTF8_toUTF8 (s : String) : String.fromUTF8? s.toUTF8 = some s :=
  dif_pos s.isValidUTF8

/-- Where a file of the payload comes from. -/
theorem fileOf_eq_some (h : fileOf e = some f) :
    f = ⟨e.path, e.content⟩ ∧ isPaxHeader e.path = false ∧
      (e.kind = .symlink ∨ e.kind = .regular ∧ e.path ≠ patchSh) := by
  obtain ⟨kind, path, content⟩ := e
  have hpax : isPaxHeader path = false := by
    refine Bool.eq_false_of_not_eq_true fun hpax => ?_
    simp [fileOf, hpax] at h
  simp only [fileOf, hpax, Bool.false_eq_true, if_false] at h
  cases kind with
  | symlink => exact ⟨(Option.some_inj.1 h).symm, hpax, .inl rfl⟩
  | regular =>
    simp only at h
    split_ifs at h with hsh
    exact ⟨(Option.some_inj.1 h).symm, hpax, .inr ⟨rfl, hsh⟩⟩
  | directory => cases h
  | other => cases h

theorem fileOf_symlink (hkind : e.kind = .symlink) (hpax : isPaxHeader e.path = false) :
    fileOf e = some ⟨e.path, e.content⟩ := by
  simp [fileOf, hkind, hpax]

theorem filterMap_regular {α : Type} {g : Entry → Option α}
    (hg : ∀ e, e.kind = .directory → g e = none)
    (hes : ∀ e ∈ es, e.kind = .regular ∨ e.kind = .directory) :
    es.filterMap g = (es.filter (·.kind = .regular)).filterMap g := by
  rw [List.filterMap_filter]
  refine List.filterMap_congr fun e he => ?_
  rcases hes e he with hk | hk
  · simp [hk]
  · simp [hk, hg e hk]

/-- The archive gives the files again, when the writer keeps their paths and none of them is the
script or a skipped header. -/
theorem filterMap_fileOf_rebuilt (hes : ∀ e ∈ es, e.kind = .regular ∨ e.kind = .directory)
    (hfilter : es.filter (·.kind = .regular) = files.filterMap (fileEntry crate))
    (hfiles : ∀ f ∈ files, isPaxHeader f.relativePath = false ∧ f.relativePath ≠ patchSh ∧
      crate.write f.relativePath = some f.relativePath) :
    es.filterMap fileOf = files ∧ es.filterMap scriptOf = [] := by
  constructor
  · rw [filterMap_regular (fun e he => by simp [fileOf, he]) hes, hfilter, List.filterMap_filterMap]
    refine (List.filterMap_congr fun f hf => ?_).trans List.filterMap_some
    obtain ⟨hpax, hsh, hwrite⟩ := hfiles f hf
    simp [fileOf, fileEntry, hwrite, hpax, hsh]
  · rw [filterMap_regular (fun e he => by simp [scriptOf, he]) hes, hfilter,
      List.filterMap_filterMap, List.filterMap_eq_nil_iff]
    intro f hf
    obtain ⟨-, hsh, hwrite⟩ := hfiles f hf
    simp [scriptOf, fileEntry, hwrite, hsh]

/-- The archive of a payload is accepted, when the writer keeps the paths of its files, these are
legal, and none of them is the script or a skipped header. -/
theorem acceptable_of_rebuilt (hes : ∀ e ∈ es, e.kind = .regular ∨ e.kind = .directory)
    (hfilter : es.filter (·.kind = .regular) = files.filterMap (fileEntry crate))
    (hfiles : ∀ f ∈ files, legalPath f.relativePath = true ∧ f.relativePath ≠ patchSh ∧
      crate.write f.relativePath = some f.relativePath) : ∀ e ∈ es, Acceptable e := by
  intro e he hpax
  rcases hes e he with hkind | hkind
  · have hin : e ∈ es.filter (·.kind = .regular) :=
      List.mem_filter.2 ⟨he, decide_eq_true hkind⟩
    rw [hfilter] at hin
    obtain ⟨f, hf, hentry⟩ := List.mem_filterMap.1 hin
    obtain ⟨hlegal, hsh, hwrite⟩ := hfiles f hf
    rw [fileEntry, hwrite] at hentry
    cases hentry
    exact ⟨nofun, fun _ => ⟨hlegal, fun heq => absurd heq hsh⟩⟩
  · exact ⟨by rw [hkind]; nofun, by rw [hkind]; nofun⟩

/-- The payload is read again from its archive. -/
theorem extract_rebuilt (hes : ∀ e ∈ es, e.kind = .regular ∨ e.kind = .directory)
    (hfilter : es.filter (·.kind = .regular) = payload.files.filterMap (fileEntry crate))
    (hfiles : ∀ f ∈ payload.files, isPaxHeader f.relativePath = false ∧
      legalPath f.relativePath = true ∧ f.relativePath ≠ patchSh ∧
        crate.write f.relativePath = some f.relativePath) (sha256 : String) :
    extractPatchPayload
        ⟨true, sha256, (⟨.regular, patchSh, payload.script.toUTF8⟩ :: es).map .ok⟩ =
      .ok ⟨payload.script, payload.files, sha256⟩ := by
  obtain ⟨hfile, hscript⟩ := filterMap_fileOf_rebuilt hes hfilter fun f hf =>
    ⟨(hfiles f hf).1, (hfiles f hf).2.2⟩
  have hacc := acceptable_of_rebuilt hes hfilter fun f hf => (hfiles f hf).2
  refine extractPatchPayload_eq_ok_iff.2 ⟨rfl, rfl, _, rfl, ?_, ?_, ?_⟩
  · refine List.forall_mem_cons.2 ⟨fun _ => ⟨nofun, fun _ => ⟨?_, fun _ => ?_⟩⟩, hacc⟩
    · show legalPath patchSh = true
      decide
    · show (String.fromUTF8? payload.script.toUTF8).isSome
      rw [fromUTF8_toUTF8]
      rfl
  · have hs : scriptOf ⟨.regular, patchSh, payload.script.toUTF8⟩ = some payload.script :=
      (if_pos ⟨rfl, rfl⟩).trans (fromUTF8_toUTF8 _)
    rw [List.filterMap_cons_some hs, hscript]
    rfl
  · have hf : fileOf ⟨.regular, patchSh, payload.script.toUTF8⟩ = none := by
      simp [fileOf]
    rw [List.filterMap_cons_none hf, hfile]

/-- A file of an intact payload has a legal path, not the script's, and the writer keeps it. -/
theorem Intact.file (hintact : Intact crate u payload) (hf : f ∈ payload.files)
    (hpax : isPaxHeader f.relativePath = false) : legalPath f.relativePath = true ∧
      f.relativePath ≠ patchSh ∧ crate.write f.relativePath = some f.relativePath := by
  obtain ⟨archive, harchive, hre⟩ := hintact.rebuilt
  obtain ⟨payload', hp', -, hsame⟩ := hre ""
  obtain ⟨rest, rfl, hkinds, hfilter⟩ := buildPatchTar_spec harchive
  obtain ⟨-, -, es', hes', hacc', -, hfiles'⟩ := extractPatchPayload_eq_ok_iff.1 hp'
  have hlist := List.map_injective_iff.2 (fun _ _ => Except.ok.inj) hes'
  subst hlist
  have hfile' := (hsame f).2 hf
  rw [hfiles'] at hfile'
  obtain ⟨e, he, hfile⟩ := List.mem_filterMap.1 hfile'
  obtain ⟨rfl, -, hcase⟩ := fileOf_eq_some hfile
  -- the archive has no links, so the file is a regular entry other than the script
  have hregular : e.kind = .regular ∧ e.path ≠ patchSh := by
    refine hcase.resolve_left fun hlink => ?_
    rcases List.mem_cons.1 he with rfl | he
    · cases hlink
    · rcases hkinds e he with hk | hk <;> rw [hk] at hlink <;> cases hlink
  have hin : e ∈ rest.filter (·.kind = .regular) := by
    rcases List.mem_cons.1 he with rfl | he
    · exact absurd rfl hregular.2
    · exact List.mem_filter.2 ⟨he, decide_eq_true hregular.1⟩
  rw [hfilter] at hin
  obtain ⟨g, -, hentry⟩ := List.mem_filterMap.1 hin
  obtain ⟨written, hwritten, rfl⟩ := Option.map_eq_some_iff.1 hentry
  exact ⟨((hacc' _ he hpax).2 rfl).1, hregular.2, crate.again _ _ hwritten⟩

section Payload

variable (h : extractPatchPayload u = .ok payload)

include h

/-- A payload is intact when the links of its upload are legal and the writer keeps the paths. -/
theorem Intact.of_kept (hlinks : LinksLegal u) (hkept : PathsKept crate u) :
    Intact crate u payload := by
  obtain ⟨-, -, es, hes, hacc, hlast, hfiles⟩ := extractPatchPayload_eq_ok_iff.1 h
  have hmem : ∀ e ∈ es, .ok e ∈ u.entries := fun e he => hes ▸ List.mem_map_of_mem he
  have horigin : ∀ f ∈ payload.files, ∃ e ∈ es, f = ⟨e.path, e.content⟩ ∧
      isPaxHeader e.path = false ∧ legalPath e.path = true ∧ e.path ≠ patchSh ∧
        crate.write e.path = some e.path := by
    intro f hf
    rw [hfiles] at hf
    obtain ⟨e, he, hfile⟩ := List.mem_filterMap.1 hf
    obtain ⟨hf', hpax, hkind⟩ := fileOf_eq_some hfile
    have hwrite := hkept e (hmem e he) (hkind.imp_right And.left) hpax
    rcases hkind with hlink | ⟨hregular, hsh⟩
    · obtain ⟨hlegal, hsh⟩ := hlinks e (hmem e he) hlink hpax
      exact ⟨e, he, hf', hpax, hlegal, hsh, hwrite⟩
    · exact ⟨e, he, hf', hpax, ((hacc e he hpax).2 hregular).1, hsh, hwrite⟩
  have hlegal : ∀ f ∈ payload.files, legalPath f.relativePath = true := fun f hf => by
    obtain ⟨e, -, rfl, -, hlegal, -⟩ := horigin f hf
    exact hlegal
  constructor
  · exact fun f hf => ⟨(legalPath_iff.1 (hlegal f hf)).1, names_of_legalPath (hlegal f hf)⟩
  · intro f hf
    obtain ⟨e, he, rfl, -⟩ := horigin f hf
    exact ⟨e, hmem e he, rfl, rfl⟩
  · obtain ⟨e, he, hs⟩ := List.mem_filterMap.1 (List.mem_of_getLast? hlast)
    obtain ⟨hkind, hpath⟩ := (scriptOf_isSome_iff (hacc e he)).1 ⟨_, hs⟩
    rw [scriptOf, if_pos ⟨hkind, hpath⟩] at hs
    exact ⟨e, hmem e he, hkind, hpath, hs⟩
  · obtain ⟨archive, harchive⟩ := @exists_buildPatchTar _ crate fun f hf => by
      obtain ⟨e, -, rfl, -, hlegal, -, hwrite⟩ := horigin f hf
      exact ⟨Option.isSome_of_eq_some hwrite, names_of_legalPath hlegal⟩
    obtain ⟨rest, rfl, hkinds, hfilter⟩ := buildPatchTar_spec harchive
    refine ⟨_, harchive, fun sha256 => ⟨⟨payload.script, payload.files, sha256⟩,
      extract_rebuilt hkinds hfilter (fun f hf => ?_) sha256, rfl, fun _ => Iff.rfl⟩⟩
    obtain ⟨e, -, rfl, hpax, hlegal, hsh, hwrite⟩ := horigin f hf
    exact ⟨hpax, hlegal, hsh, hwrite⟩

/-- An illegal link breaks a part, and so does a path that the writer changes. -/
theorem Intact.kept (hintact : Intact crate u payload) : LinksLegal u ∧ PathsKept crate u := by
  obtain ⟨-, -, es, hes, -, -, hfiles⟩ := extractPatchPayload_eq_ok_iff.1 h
  have hmem : ∀ e, .ok e ∈ u.entries → e ∈ es := fun e he => by
    rw [hes] at he
    obtain ⟨e', he', heq⟩ := List.mem_map.1 he
    cases heq
    exact he'
  have hfile : ∀ e, .ok e ∈ u.entries → fileOf e = some ⟨e.path, e.content⟩ →
      isPaxHeader e.path = false → legalPath e.path = true ∧ e.path ≠ patchSh ∧
        crate.write e.path = some e.path := fun e he hof hpax =>
    hintact.file (f := ⟨e.path, e.content⟩)
      (hfiles ▸ List.mem_filterMap.2 ⟨e, hmem e he, hof⟩) hpax
  constructor
  · intro e he hkind hpax
    obtain ⟨hlegal, hsh, -⟩ := hfile e he (fileOf_symlink hkind hpax) hpax
    exact ⟨hlegal, hsh⟩
  · intro e he hkind hpax
    by_cases hsh : e.kind = .regular ∧ e.path = patchSh
    · rw [hsh.2]
      exact crate.tidy patchSh tidy_patchSh
    · have hof : fileOf e = some ⟨e.path, e.content⟩ := by
        rcases hkind with hlink | hregular
        · exact fileOf_symlink hlink hpax
        · have hne : e.path ≠ patchSh := fun heq => hsh ⟨hregular, heq⟩
          simp [fileOf, hregular, hpax, hne]
      exact (hfile e he hof hpax).2.2

end Payload

/-- Every payload of the upload is intact if and only if the upload is refused, or its links are
legal and the writer keeps its paths. -/
theorem intact_iff (crate : TarCrate) (u : Upload) :
    (∀ payload, extractPatchPayload u = .ok payload → Intact crate u payload) ↔
      (Readable u → LinksLegal u ∧ PathsKept crate u) := by
  constructor
  · intro hall hread
    obtain ⟨payload, h⟩ := readable_iff.2 hread
    exact (hall payload h).kept h
  · intro hlinks payload h
    obtain ⟨hlegal, hkept⟩ := hlinks (readable_iff.1 ⟨payload, h⟩)
    exact .of_kept h hlegal hkept

/-! ## A writer -/

namespace TarCrate

/-- The components that are written. -/
def kept (path : Path) : List Path := (components path).filter fun part => part ≠ [] ∧ part ≠ ['.']

/-- A path of which nothing is left is written as `.`. -/
def names (path : Path) : List Path := if kept path = [] then [['.']] else kept path

/-- The path as it is written: without components `.`, but with a slash behind it. -/
def normal (path : Path) : Path :=
  join (names path) ++ if path.getLast? = some '/' then ['/'] else []

/-- A path of more bytes is written as it is, in an entry of its own. -/
def nameBytes : ℕ := 100

/-- The length of a path in bytes. -/
def size (path : Path) : ℕ := (path.map Char.utf8Size).sum

/-- The path is empty or absolute, or has a component `..` or a null character. -/
def Refused (path : Path) : Prop :=
  path = [] ∨ path.head? = some '/' ∨ dotDot ∈ components path ∨ '\u0000' ∈ path

instance (path : Path) : Decidable (Refused path) := inferInstanceAs (Decidable (_ ∨ _ ∨ _ ∨ _))

/-- The path as it is written: a short one in its normal form, a long one as it is. -/
def writePath (path : Path) : Option Path :=
  if Refused path then none
  else some (if size (normal path) ≤ nameBytes then normal path else path)

theorem components_slash (path : Path) : components (path ++ ['/']) = components path ++ [[]] :=
  components_append path []

theorem nil_mem_of_head (h : path.head? = some '/') : [] ∈ components path := by
  obtain ⟨rest, rfl⟩ : ∃ rest, path = '/' :: rest := List.head?_eq_some_iff.1 h
  have hcomp : components ('/' :: rest) = [[]] ++ components rest := components_append [] rest
  rw [hcomp]
  exact List.mem_append_left _ (List.mem_singleton_self _)

theorem nil_mem_of_getLast (h : path.getLast? = some '/') : [] ∈ components path := by
  obtain ⟨front, rfl⟩ := List.getLast?_eq_some_iff.1 h
  rw [components_slash]
  exact List.mem_append_right _ (List.mem_singleton_self _)

theorem names_ne_nil (path : Path) : names path ≠ [] := by
  unfold names
  split_ifs with h
  · exact List.cons_ne_nil _ _
  · exact h

/-- The names that are written are not empty, and are components of the path or `.`. -/
theorem mem_names (h : part ∈ names path) : part ≠ [] ∧ '/' ∉ part ∧
    (part ∈ components path ∨ part = ['.']) := by
  unfold names at h
  split_ifs at h
  · rw [List.mem_singleton] at h
    subst h
    exact ⟨List.cons_ne_nil _ _, by decide, .inr rfl⟩
  · obtain ⟨hmem, hpart⟩ := List.mem_filter.1 h
    exact ⟨(of_decide_eq_true hpart).1, notMem_of_mem_components hmem, .inl hmem⟩

theorem components_names (path : Path) : components (join (names path)) = names path :=
  components_join_of (names_ne_nil path) fun _ h => (mem_names h).2.1

theorem kept_names (path : Path) : kept (join (names path)) = kept path := by
  rw [kept, components_names, names]
  split_ifs with h
  · rw [h]
    rfl
  · exact List.filter_eq_self.2 fun part hpart => (List.mem_filter.1 hpart).2

theorem components_normal (path : Path) :
    components (normal path) = names path ++ if path.getLast? = some '/' then [[]] else [] := by
  unfold normal
  split_ifs
  · rw [components_slash, components_names]
  · rw [List.append_nil, List.append_nil, components_names]

theorem join_names_ne_nil (path : Path) : join (names path) ≠ [] := by
  intro h
  have hcomp := components_names path
  rw [h] at hcomp
  have hmem : ([] : Path) ∈ names path := by
    rw [← hcomp]
    exact List.mem_singleton_self _
  exact (mem_names hmem).1 rfl

theorem getLast_join_names (path : Path) : (join (names path)).getLast? ≠ some '/' := by
  intro h
  have hmem := nil_mem_of_getLast h
  rw [components_names] at hmem
  exact (mem_names hmem).1 rfl

/-- What is in order stays. -/
theorem normal_normal (path : Path) : normal (normal path) = normal path := by
  have hkept : kept (normal path) = kept path := by
    rw [← kept_names path, kept, kept, components_normal, components_names, List.filter_append]
    split_ifs <;> simp
  have hlast : (normal path).getLast? = some '/' ↔ path.getLast? = some '/' := by
    unfold normal
    split_ifs with h
    · simp [h]
    · simp [h, getLast_join_names]
  have hnames : names (normal path) = names path := by rw [names, names, hkept]
  rw [normal, hnames, if_congr hlast rfl rfl]
  rfl

theorem not_refused_normal (h : ¬ Refused path) : ¬ Refused (normal path) := by
  unfold Refused at h
  push Not at h
  obtain ⟨-, -, hdots, hnull⟩ := h
  rintro (hnil | hhead | hmem | hmem)
  · exact join_names_ne_nil path (List.append_eq_nil_iff.1 hnil).1
  · rw [normal, List.head?_append_of_ne_nil _ (join_names_ne_nil path)] at hhead
    have hmem := nil_mem_of_head hhead
    rw [components_names] at hmem
    exact (mem_names hmem).1 rfl
  · rw [components_normal, List.mem_append] at hmem
    rcases hmem with hmem | hmem
    · rcases (mem_names hmem).2.2 with hpart | hpart
      · exact hdots hpart
      · exact absurd hpart (by decide)
    · split_ifs at hmem
      · exact absurd hmem (by decide)
      · cases hmem
  · rw [normal, List.mem_append] at hmem
    rcases hmem with hmem | hmem
    · rcases mem_join hmem with hslash | ⟨part, hpart, hin⟩
      · exact absurd hslash (by decide)
      · rcases (mem_names hpart).2.2 with hcomp | rfl
        · exact hnull ((infix_of_mem_components hcomp).subset hin)
        · exact absurd hin (by decide)
    · split_ifs at hmem
      · exact absurd hmem (by decide)
      · cases hmem

theorem kept_of_tidy (h : Tidy path) : kept path = components path :=
  List.filter_eq_self.2 fun part hpart => by simpa using ⟨(h.2 part hpart).1, (h.2 part hpart).2.1⟩

theorem names_of_tidy (h : Tidy path) : names path = components path := by
  rw [names, kept_of_tidy h]
  exact if_neg (List.splitOn_ne_nil '/' path)

theorem nil_notMem_of_tidy (h : Tidy path) : [] ∉ components path := fun hmem =>
  (h.2 [] hmem).1 rfl

theorem normal_of_tidy (h : Tidy path) : normal path = path := by
  rw [normal, names_of_tidy h, join_components,
    if_neg fun hlast => nil_notMem_of_tidy h (nil_mem_of_getLast hlast), List.append_nil]

theorem normal_slash_of_tidy (h : Tidy path) : normal (path ++ ['/']) = path ++ ['/'] := by
  have hkept : kept (path ++ ['/']) = kept path := by
    rw [kept, kept, components_slash, List.filter_append]
    simp
  have hnames : names (path ++ ['/']) = names path := by rw [names, names, hkept]
  rw [normal, hnames, names_of_tidy h, join_components, List.getLast?_concat, if_pos rfl]

theorem not_refused_of_tidy (h : Tidy path) : ¬ Refused path := by
  rintro (rfl | hhead | hmem | hmem)
  · exact nil_notMem_of_tidy h (List.mem_singleton_self _)
  · exact nil_notMem_of_tidy h (nil_mem_of_head hhead)
  · exact (h.2 dotDot hmem).2.2 rfl
  · exact h.1 hmem

theorem not_refused_slash (h : ¬ Refused path) : ¬ Refused (path ++ ['/']) := by
  unfold Refused at h
  push Not at h
  obtain ⟨hne, hhead, hdots, hnull⟩ := h
  rintro (hnil | hhead' | hmem | hmem)
  · exact hne (List.append_eq_nil_iff.1 hnil).1
  · rw [List.head?_append_of_ne_nil _ hne] at hhead'
    exact hhead hhead'
  · rw [components_slash, List.mem_append] at hmem
    exact hmem.elim hdots (by decide)
  · rcases List.mem_append.1 hmem with hmem | hmem
    · exact hnull hmem
    · exact absurd hmem (by decide)

/-- A directory is refused only when what is below it is. -/
theorem not_refused_dir {dir rest : Path} (hne : dir ≠ []) (hdots : dotDot ∉ components dir)
    (h : ¬ Refused (dir ++ '/' :: rest)) : ¬ Refused dir := by
  unfold Refused at h
  push Not at h
  obtain ⟨-, hhead, -, hnull⟩ := h
  rw [List.head?_append_of_ne_nil _ hne] at hhead
  rintro (hnil | hhead' | hmem | hmem)
  · exact hne hnil
  · exact hhead hhead'
  · exact hdots hmem
  · exact hnull (List.mem_append_left _ hmem)

theorem isSome_writePath : (writePath path).isSome ↔ ¬ Refused path := by
  unfold writePath
  split_ifs with h <;> simp [h]

theorem writePath_of_normal (h : ¬ Refused path) (hnormal : normal path = path) :
    writePath path = some path := by
  rw [writePath, if_neg h, hnormal, ite_self]

/-- The writer as the crate describes it. -/
def reference : TarCrate where
  write := writePath
  tidy path h := writePath_of_normal (not_refused_of_tidy h) (normal_of_tidy h)
  tidyDir path h :=
    writePath_of_normal (not_refused_slash (not_refused_of_tidy h)) (normal_slash_of_tidy h)
  parents dir rest hne hdots h :=
    isSome_writePath.2 (not_refused_slash (not_refused_dir hne hdots (isSome_writePath.1 h)))
  again path path' h := by
    unfold writePath at h
    split_ifs at h with href hsize
    · cases h
      exact writePath_of_normal (not_refused_normal href) (normal_normal path)
    · cases h
      rw [writePath, if_neg href, if_neg hsize]

end TarCrate

/-- A link `../x` is a file of the payload, and the archive of the payload panics; with a link
`patch.sh`, or a file `./patch.sh`, there are two scripts in the archive, and the second one
counts. -/
theorem intact_fails :
    (∃ payload, extractPatchPayload ⟨true, "", [.ok ⟨.symlink, dotDot ++ ['/', 'x'], .empty⟩,
        .ok ⟨.regular, patchSh, "exit 0".toUTF8⟩]⟩ = .ok payload ∧
      (∃ f ∈ payload.files, dotDot ∈ components f.relativePath) ∧
        buildPatchTar .reference payload = none) ∧
    (∃ payload archive payload', extractPatchPayload ⟨true, "", [.ok ⟨.symlink, patchSh, .empty⟩,
        .ok ⟨.regular, patchSh, "exit 0".toUTF8⟩]⟩ = .ok payload ∧
      buildPatchTar .reference payload = some archive ∧
        extractPatchPayload ⟨true, "", archive.map .ok⟩ = .ok payload' ∧
          payload.script = "exit 0" ∧ payload'.script = "") ∧
    ∃ payload archive payload',
      extractPatchPayload ⟨true, "", [.ok ⟨.regular, patchSh, "exit 0".toUTF8⟩,
        .ok ⟨.regular, '.' :: '/' :: patchSh, "exit 1".toUTF8⟩]⟩ = .ok payload ∧
      buildPatchTar .reference payload = some archive ∧
        extractPatchPayload ⟨true, "", archive.map .ok⟩ = .ok payload' ∧
          payload.script = "exit 0" ∧ payload'.script = "exit 1" := by
  have hpax : isPaxHeader (dotDot ++ ['/', 'x']) = false := by decide
  have hpax' : isPaxHeader ('.' :: '/' :: patchSh) = false := by decide
  have hlegal : legalPath patchSh = true := by decide
  have hlegal' : legalPath ('.' :: '/' :: patchSh) = true := by decide
  have hne : '.' :: '/' :: patchSh ≠ patchSh := by decide
  have hexit : String.fromUTF8? "exit 0".toByteArray = some "exit 0" := fromUTF8_toUTF8 _
  have hexit' : String.fromUTF8? "exit 1".toByteArray = some "exit 1" := fromUTF8_toUTF8 _
  have hempty : String.fromUTF8? .empty = some "" := fromUTF8_toUTF8 ""
  refine ⟨⟨⟨"exit 0", [⟨dotDot ++ ['/', 'x'], .empty⟩], ""⟩, ?_, ⟨_, List.mem_singleton_self _,
    by decide⟩, ?_⟩, ⟨⟨"exit 0", [⟨patchSh, .empty⟩], ""⟩, [⟨.regular, patchSh, "exit 0".toUTF8⟩,
      ⟨.regular, patchSh, .empty⟩], ⟨"", [], ""⟩, ?_, ?_, ?_, rfl, rfl⟩,
    ⟨"exit 0", [⟨'.' :: '/' :: patchSh, "exit 1".toUTF8⟩], ""⟩,
      [⟨.regular, patchSh, "exit 0".toUTF8⟩, ⟨.directory, ['.', '/'], .empty⟩,
        ⟨.regular, patchSh, "exit 1".toUTF8⟩], ⟨"exit 1", [], ""⟩, ?_, ?_, ?_, rfl, rfl⟩
  · simp [extractPatchPayload, extractEntries, extractEntry, Except.bind, hpax, hlegal,
      isPaxHeader_patchSh, hexit]
  · rfl
  · simp [extractPatchPayload, extractEntries, extractEntry, Except.bind, hlegal,
      isPaxHeader_patchSh, hexit]
  · rfl
  · simp [extractPatchPayload, extractEntries, extractEntry, Except.bind, hlegal,
      isPaxHeader_patchSh, hexit, hempty]
  · simp [extractPatchPayload, extractEntries, extractEntry, Except.bind, hlegal, hlegal',
      isPaxHeader_patchSh, hpax', hne, hexit]
  · rfl
  · simp [extractPatchPayload, extractEntries, extractEntry, Except.bind, hlegal,
      isPaxHeader_patchSh, hexit, hexit']

end FloatCtf.Awdp
