import FloatCtf.Awdp.SourceArtifact
import FloatCtf.Process.FileTree

/-!
# The source and its archive

The archive that is published of a source directory is accepted as a patch, and its script puts the
directory back, with every link as a file, no file executable and no directory without a file
below it.
-/

namespace FloatCtf.Awdp.SourceArtifact

/-! ## The container -/

/-- What is at a path below a directory. -/
abbrev Fs := List Path → Option Kind

/-- The place where an entry is unpacked. -/
def keyOf (e : Entry) : List Path := (components e.path).filter (· ≠ [])

/-- `build_patch_tar` makes the script executable and no other file. -/
def nodeOf (e : Entry) : Kind :=
  match e.kind with
  | .directory => .directory
  | _ => .file e.content (e.path = patchSh)

/-- Unpacks one entry. -/
def unpackEntry (fs : Fs) (e : Entry) : Fs := Function.update fs (keyOf e) (some (nodeOf e))

/-- The directory into which an archive is copied. -/
def unpack (archive : List Entry) : Fs :=
  archive.foldl unpackEntry (Function.update (fun _ => none) [] (some .directory))

/-- The source directory after the script: it is cleared, and `src/` is copied over it.  Without
`src/` the copy fails. -/
def runTemplate (fs : Fs) : Option Fs :=
  if fs [srcDir] = some .directory then some fun path => fs (srcDir :: path) else none

/-- The files behind a patch that is rebuilt, unpacked and run. -/
def applyTemplate (crate : TarCrate) (payload : PatchPayload) : Option Fs :=
  (buildPatchTar crate payload).bind fun archive => runTemplate (unpack archive)

/-! ## What the archive is for -/

/-- The archive has each regular file once at its place, and nothing else beside the script. -/
structure Holds (s : SourceDir) (archive : List Packed) : Prop where
  once : (archive.map (·.path)).Nodup
  files : ∀ path content executable, (path, .file content executable) ∈ s.nodes →
    ∃ e ∈ archive, e.toEntry = ⟨.regular, srcPath path, content⟩
  inside : ∀ e ∈ archive, e.toEntry = ⟨.regular, patchSh, patchTemplate.toUTF8⟩ ∨
    srcDir ++ ['/'] <+: e.path

/-- What is in a directory. -/
def SourceDir.Has (s : SourceDir) (path : List Path) (kind : Kind) : Prop :=
  path = [] ∧ kind = .directory ∨ (path, kind) ∈ s.nodes

/-- What is left of a directory in its archive. -/
def SourceDir.Keeps (s : SourceDir) (path : List Path) (kind : Kind) : Prop :=
  (∃ content, (path, content) ∈ s.leaves ∧ kind = .file content false) ∨
    kind = .directory ∧ ∃ leaf ∈ s.leaves, path <+: leaf.1 ∧ path ≠ leaf.1

/-- The archive of a directory is accepted unchanged and gives the directory back. -/
def SourceDir.Restored (s : SourceDir) (crate : TarCrate) (sha256 : String) : Prop :=
  ∃ archive payload fs, tarBytesToTargzWithSrc crate s.listing = some archive ∧ Holds s archive ∧
    extractPatchPayload ⟨true, sha256, archive.map fun e => .ok e.toEntry⟩ = .ok payload ∧
    payload.script = patchTemplate ∧ applyTemplate crate payload = some fs ∧
    ∀ path kind, fs path = some kind ↔ s.Has path kind

/-! ## The payload -/

section

variable {s : SourceDir} {path : List Path} {content : ByteArray}

theorem components_srcPath (hne : path ≠ []) (h : ∀ name ∈ path, FileName name) :
    components (srcPath path) = srcDir :: path := by
  rw [srcPath_eq hne]
  exact components_join (List.cons_ne_nil _ _) (List.forall_mem_cons.2 ⟨fileName_srcDir, h⟩)

theorem srcPath_ne_patchSh : srcPath path ≠ patchSh := by
  intro h
  cases congrArg List.head? h

/-- Two dots in a path are in one of its names. -/
theorem dotDot_infix_join (h : dotDot <:+: join path) : ∃ name ∈ path, dotDot <:+: name := by
  induction path with
  | nil => exact absurd h (by decide)
  | cons name path ih =>
    by_cases hnil : path = []
    · subst hnil
      exact ⟨name, List.mem_cons_self, by simpa [join] using h⟩
    · rw [join_cons hnil] at h
      obtain hname | hpath := Text.infix_append_cons (by decide) (by decide) h
      · exact ⟨name, List.mem_cons_self, hname⟩
      · obtain ⟨name', hmem, hname'⟩ := ih hpath
        exact ⟨name', List.mem_cons_of_mem _ hmem, hname'⟩

theorem legalPath_srcPath (hne : path ≠ []) (h : ∀ name ∈ path, FileName name)
    (hdots : ∀ name ∈ path, ¬ dotDot <:+: name) : legalPath (srcPath path) = true := by
  refine legalPath_iff.2 ⟨by simp [srcPath, srcDir], fun hinfix => ?_, ?_⟩
  · rw [srcPath_eq hne] at hinfix
    obtain ⟨name, hmem, hname⟩ := dotDot_infix_join hinfix
    obtain rfl | hmem := List.mem_cons.1 hmem
    · exact absurd hname (by decide)
    · exact hdots name hmem hname
  · rw [components_srcPath hne h]
    rintro (_ | ⟨_, hmem⟩)
    exact (h _ hmem).1 rfl

theorem isPaxHeader_srcPath (hne : path ≠ []) (h : ∀ name ∈ path, FileName name)
    (hlast : path.getLast? ≠ some paxHeader) : isPaxHeader (srcPath path) = false := by
  rw [srcPath_eq hne]
  exact isPaxHeader_join hne h (by decide) hlast fileName_srcDir

/-- The template with every file of the source. -/
def templatePayload (s : SourceDir) (sha256 : String) : PatchPayload :=
  ⟨patchTemplate, s.leaves.map fun leaf => ⟨srcPath leaf.1, leaf.2⟩, sha256⟩

/-- The archive is accepted, with the leaves as its files. -/
theorem extract_packed (hs : s.Ordinary) (sha256 : String) :
    extractPatchPayload ⟨true, sha256, (packed s).map fun e => .ok e.toEntry⟩ =
      .ok (templatePayload s sha256) := by
  have hleaf : ∀ leaf ∈ s.leaves, isPaxHeader (srcPath leaf.1) = false ∧
      legalPath (srcPath leaf.1) = true := fun leaf hmem => by
    obtain ⟨hne, hnames⟩ := s.names_of_mem_leaves leaf hmem
    exact ⟨isPaxHeader_srcPath hne hnames (hs.header leaf hmem),
      legalPath_srcPath hne hnames (hs.dots leaf hmem)⟩
  have hfile : fileOf packedPatch.toEntry = none := by decide
  have hscript : scriptOf packedPatch.toEntry = some patchTemplate := by
    rw [scriptOf, if_pos ⟨rfl, rfl⟩]
    exact fromUTF8_toUTF8 patchTemplate
  have hfiles : (s.leaves.map fun leaf => (packLeaf leaf).toEntry).filterMap fileOf =
      s.leaves.map fun leaf => ⟨srcPath leaf.1, leaf.2⟩ := by
    rw [List.filterMap_map, ← List.filterMap_eq_map]
    refine List.filterMap_congr fun leaf hmem => ?_
    simp [fileOf, packLeaf, (hleaf leaf hmem).1, srcPath_ne_patchSh]
  have hscripts : (s.leaves.map fun leaf => (packLeaf leaf).toEntry).filterMap scriptOf = [] := by
    rw [List.filterMap_map, List.filterMap_eq_nil_iff]
    intro leaf _
    simp [scriptOf, packLeaf, srcPath_ne_patchSh]
  have hpacked : (packed s).map (·.toEntry) =
      (if s.leaves = [] then [] else [packedSrc.toEntry]) ++
        (s.leaves.map fun leaf => (packLeaf leaf).toEntry) ++ [packedPatch.toEntry] := by
    unfold packed
    split <;> simp_all
  refine extractPatchPayload_eq_ok_iff.2 ⟨rfl, rfl, (packed s).map (·.toEntry), by simp, ?_, ?_, ?_⟩
  · intro e he hpax
    rw [hpacked, List.mem_append, List.mem_append] at he
    obtain (he | he) | he := he
    · obtain rfl : e = packedSrc.toEntry := by
        split at he
        · cases he
        · exact List.mem_singleton.1 he
      exact ⟨(fun hk => by cases hk), (fun hk => by cases hk)⟩
    · obtain ⟨leaf, hmem, rfl⟩ := List.mem_map.1 he
      exact ⟨(fun hk => by cases hk),
        fun _ => ⟨(hleaf leaf hmem).2, fun h => absurd h srcPath_ne_patchSh⟩⟩
    · obtain rfl := List.mem_singleton.1 he
      refine ⟨(fun hk => by cases hk), fun _ => ⟨by decide, fun _ => ?_⟩⟩
      rw [show packedPatch.content = patchTemplate.toUTF8 from rfl, fromUTF8_toUTF8]
      rfl
  · have hsrc : (if s.leaves = [] then [] else [packedSrc.toEntry]).filterMap scriptOf = [] := by
      split <;> rfl
    rw [hpacked, List.filterMap_append, List.filterMap_append, hsrc, hscripts]
    simp [hscript, templatePayload]
  · have hsrc : (if s.leaves = [] then [] else [packedSrc.toEntry]).filterMap fileOf = [] := by
      split <;> rfl
    rw [hpacked, List.filterMap_append, List.filterMap_append, hsrc, hfiles]
    simp [hfile, templatePayload]

end

/-! ## The directories of the patch -/

section

variable {crate : TarCrate} {b b' : Builder} {path parts : List Path} {files : List PatchFile}

/-- The entry of a directory. -/
def dirText (path : List Path) : Path := join path ++ ['/']

/-- `dirs` are the directories of the archive. -/
def Tracked (b : Builder) : Prop :=
  ∀ d, d ∈ b.dirs ↔ ∃ e ∈ b.archive, e.kind = .directory ∧ e.path = d

theorem join_concat_eq {part : Path} (h : path ≠ []) :
    join (path ++ [part]) = join path ++ '/' :: part := by
  induction path with
  | nil => exact absurd rfl h
  | cons name path ih =>
    rw [List.cons_append, join_cons (by simp)]
    by_cases hnil : path = []
    · simp [hnil, join]
    · rw [ih hnil, join_cons hnil, List.append_assoc]
      rfl

theorem joinPart_join {part : Path} (h : ∀ name ∈ path, FileName name) :
    joinPart (join path) part = join (path ++ [part]) := by
  unfold joinPart
  cases path with
  | nil => simp [join]
  | cons name path =>
    rw [if_neg (join_ne_nil (List.cons_ne_nil _ _) h), join_concat_eq (List.cons_ne_nil _ _)]

theorem Tracked.addParents (hb : Tracked b) (hpath : ∀ name ∈ path, FileName name)
    (hparts : ∀ name ∈ parts, FileName name) (h : addParents crate parts (join path) b = some b') :
    Tracked b' ∧ ∀ d, d ∈ b'.dirs ↔
      d ∈ b.dirs ∨ ∃ l, l ≠ [] ∧ l <+: parts ∧ d = dirText (path ++ l) := by
  induction parts generalizing path b with
  | nil =>
    cases h
    refine ⟨hb, fun d => ⟨.inl, ?_⟩⟩
    rintro (hd | ⟨l, hne, hl, -⟩)
    · exact hd
    · exact absurd (List.prefix_nil.1 hl) hne
  | cons part parts ih =>
    obtain ⟨hpart, hrest⟩ := List.forall_mem_cons.1 hparts
    have hpath' : ∀ name ∈ path ++ [part], FileName name :=
      List.forall_mem_append.2 ⟨hpath, List.forall_mem_singleton.2 hpart⟩
    have hpre : ∀ d, (d = dirText (path ++ [part]) ∨
        ∃ l, l ≠ [] ∧ l <+: parts ∧ d = dirText (path ++ [part] ++ l)) ↔
          ∃ l, l ≠ [] ∧ l <+: part :: parts ∧ d = dirText (path ++ l) := by
      intro d
      constructor
      · rintro (rfl | ⟨l, -, hl, rfl⟩)
        · exact ⟨[part], by simp, by simp, rfl⟩
        · exact ⟨part :: l, by simp, List.cons_prefix_cons.2 ⟨rfl, hl⟩, by simp⟩
      · rintro ⟨l, hne, hl, rfl⟩
        cases l with
        | nil => exact absurd rfl hne
        | cons name l =>
          obtain ⟨rfl, hrest⟩ := List.cons_prefix_cons.1 hl
          cases l with
          | nil => exact .inl rfl
          | cons name' l => exact .inr ⟨name' :: l, by simp, hrest, by simp⟩
    rw [Awdp.addParents, if_neg hpart.1, joinPart_join hpath] at h
    split_ifs at h with hdir
    · obtain ⟨hb', hdirs⟩ := ih hb hpath' hrest h
      refine ⟨hb', fun d => ?_⟩
      rw [hdirs, ← hpre]
      constructor
      · rintro (hd | hl)
        · exact .inl hd
        · exact .inr (.inr hl)
      · rintro (hd | rfl | hl)
        · exact .inl hd
        · exact .inl hdir
        · exact .inr hl
    · obtain ⟨archive, ha, h⟩ := Option.bind_eq_some_iff.1 h
      obtain ⟨written, hwritten, rfl⟩ := appendData_eq_some ha
      rw [crate.tidyDir _ (tidy_join (by simp) hpath')] at hwritten
      cases hwritten
      have hb₁ : Tracked ⟨b.archive ++ [⟨.directory, dirText (path ++ [part]), .empty⟩],
          dirText (path ++ [part]) :: b.dirs⟩ := by
        intro d
        rw [List.mem_cons, hb d]
        constructor
        · rintro (rfl | ⟨e, he, hkind⟩)
          · exact ⟨_, List.mem_append_right _ List.mem_cons_self, rfl, rfl⟩
          · exact ⟨e, List.mem_append_left _ he, hkind⟩
        · rintro ⟨e, he, hkind, rfl⟩
          obtain he | he := List.mem_append.1 he
          · exact .inr ⟨e, he, hkind, rfl⟩
          · obtain rfl := List.mem_singleton.1 he
            exact .inl rfl
      obtain ⟨hb', hdirs⟩ := ih hb₁ hpath' hrest h
      refine ⟨hb', fun d => ?_⟩
      rw [hdirs, ← hpre, List.mem_cons]
      tauto

/-- The directories are the parents of the files. -/
theorem Tracked.addFiles (hb : Tracked b)
    (hfiles : ∀ f ∈ files, ∀ name ∈ (components f.relativePath).dropLast, FileName name)
    (h : addFiles crate files b = some b') :
    Tracked b' ∧ ∀ d, d ∈ b'.dirs ↔ d ∈ b.dirs ∨ ∃ f ∈ files, ∃ l, l ≠ [] ∧
      l <+: (components f.relativePath).dropLast ∧ d = dirText l := by
  induction files generalizing b with
  | nil =>
    cases h
    exact ⟨hb, fun d => by simp⟩
  | cons f files ih =>
    obtain ⟨hf, hrest⟩ := List.forall_mem_cons.1 hfiles
    obtain ⟨b₁, hb₁, h⟩ := Option.bind_eq_some_iff.1 h
    obtain ⟨archive, ha, h⟩ := Option.bind_eq_some_iff.1 h
    obtain ⟨written, -, rfl⟩ := appendData_eq_some ha
    obtain ⟨hb₁, hdirs₁⟩ :=
      hb.addParents (show ∀ name ∈ ([] : List Path), FileName name from nofun) hf hb₁
    have hb₂ : Tracked { b₁ with archive := b₁.archive ++ [⟨.regular, written, f.content⟩] } := by
      intro d
      rw [show d ∈ ({ b₁ with archive := _ } : Builder).dirs ↔ d ∈ b₁.dirs from Iff.rfl, hb₁ d]
      simp
    obtain ⟨hb', hdirs⟩ := ih hb₂ hrest h
    refine ⟨hb', fun d => ?_⟩
    rw [hdirs]
    simp only [hdirs₁, List.nil_append, List.exists_mem_cons_iff, or_assoc]

/-- The directories of the archive of a payload. -/
theorem directory_buildPatchTar {payload : PatchPayload} {archive : List Entry}
    (hfiles : ∀ f ∈ payload.files, ∀ name ∈ (components f.relativePath).dropLast, FileName name)
    (h : buildPatchTar crate payload = some archive) (d : Path) :
    (∃ e ∈ archive, e.kind = .directory ∧ e.path = d) ↔ ∃ f ∈ payload.files, ∃ l, l ≠ [] ∧
      l <+: (components f.relativePath).dropLast ∧ d = dirText l := by
  obtain ⟨a, ha, h⟩ := Option.bind_eq_some_iff.1 h
  obtain ⟨b, hb, rfl⟩ := Option.map_eq_some_iff.1 h
  obtain ⟨written, -, rfl⟩ := appendData_eq_some ha
  have htracked : Tracked ⟨[] ++ [⟨.regular, written, payload.script.toUTF8⟩], []⟩ := by
    intro d
    simp
  obtain ⟨hb, hdirs⟩ := htracked.addFiles hfiles hb
  rw [← hb d, hdirs d]
  simp

end

/-! ## Unpacking -/

section

variable {es : List Entry} {fs : Fs} {path : List Path} {kind : Kind}

theorem foldl_unpackEntry_of_ne (h : ∀ e ∈ es, keyOf e ≠ path) :
    es.foldl unpackEntry fs path = fs path := by
  induction es generalizing fs with
  | nil => rfl
  | cons e es ih =>
    obtain ⟨he, hrest⟩ := List.forall_mem_cons.1 h
    rw [List.foldl_cons, ih hrest, unpackEntry, Function.update_of_ne (Ne.symm he)]

/-- Where all entries of a path agree, their order does not matter. -/
theorem foldl_unpackEntry_of_forall (hex : ∃ e ∈ es, keyOf e = path)
    (h : ∀ e ∈ es, keyOf e = path → nodeOf e = kind) :
    es.foldl unpackEntry fs path = some kind := by
  induction es generalizing fs with
  | nil => simp at hex
  | cons e es ih =>
    obtain ⟨he, hrest⟩ := List.forall_mem_cons.1 h
    rw [List.foldl_cons]
    by_cases hlater : ∃ e ∈ es, keyOf e = path
    · exact ih hlater hrest
    · push Not at hlater
      rw [foldl_unpackEntry_of_ne hlater]
      obtain ⟨e', he', hkey⟩ := hex
      obtain rfl | he' := List.mem_cons.1 he'
      · rw [unpackEntry, hkey, Function.update_self, he hkey]
      · exact absurd hkey (hlater e' he')

theorem keyOf_of_components {e : Entry} (h : components e.path = path)
    (hnames : ∀ name ∈ path, FileName name) : keyOf e = path := by
  rw [keyOf, h, List.filter_eq_self]
  exact fun name hname => by simpa using (hnames name hname).1

theorem keyOf_dirText {e : Entry} (h : e.path = dirText path) (hne : path ≠ [])
    (hnames : ∀ name ∈ path, FileName name) : keyOf e = path := by
  rw [keyOf, h, dirText, components_append, components_join hne hnames, List.filter_append,
    List.filter_eq_self.2 fun name hname => by simpa using (hnames name hname).1]
  exact List.append_nil path

end

/-! ## The tree -/

section

variable {crate : TarCrate} {s : SourceDir} {path : List Path}

/-- A directory above a node is a node itself. -/
theorem SourceDir.directory_of_prefix (s : SourceDir) {name : Path} {rest : List Path} {kind : Kind}
    (hne : path ≠ []) (h : (path ++ name :: rest, kind) ∈ s.nodes) :
    (path, .directory) ∈ s.nodes := by
  induction rest using List.reverseRecOn generalizing kind with
  | nil => exact (s.parents path name kind h).resolve_left hne
  | append_singleton rest last ih =>
    rw [← List.cons_append, ← List.append_assoc] at h
    exact ih ((s.parents _ _ _ h).resolve_left (by simp))

theorem SourceDir.kind_unique (s : SourceDir) {kind kind' : Kind} (h : (path, kind) ∈ s.nodes)
    (h' : (path, kind') ∈ s.nodes) : kind = kind' :=
  congrArg Prod.snd (List.inj_on_of_nodup_map s.nodup h h' rfl)

theorem SourceDir.leaf_unique (s : SourceDir) {content content' : ByteArray}
    (h : (path, content) ∈ s.leaves) (h' : (path, content') ∈ s.leaves) : content = content' := by
  obtain ⟨kind, hkind, hcontent⟩ := mem_leaves.1 h
  obtain ⟨kind', hkind', hcontent'⟩ := mem_leaves.1 h'
  rw [s.kind_unique hkind hkind', hcontent'] at hcontent
  exact (Option.some_inj.1 hcontent).symm

/-- No leaf is above another one. -/
theorem SourceDir.leaf_of_prefix (s : SourceDir) {leaf leaf' : List Path × ByteArray}
    (h : leaf ∈ s.leaves) (h' : leaf' ∈ s.leaves) (hpre : leaf.1 <+: leaf'.1) :
    leaf.1 = leaf'.1 := by
  obtain ⟨rest, hrest⟩ := hpre
  cases rest with
  | nil => rw [← hrest, List.append_nil]
  | cons name rest =>
    obtain ⟨kind, hkind, hcontent⟩ := mem_leaves.1 h
    obtain ⟨kind', hkind', -⟩ := mem_leaves.1 h'
    rw [← hrest] at hkind'
    have hdir := s.directory_of_prefix (s.names _ hkind).1 hkind'
    rw [s.kind_unique hkind hdir] at hcontent
    cases hcontent

/-- An entry of the patch for a path below `src/`. -/
def EntryOf (s : SourceDir) (path : List Path) (e : Entry) : Prop :=
  (∃ content, (path, content) ∈ s.leaves ∧ nodeOf e = .file content false) ∨
    nodeOf e = .directory ∧ ∃ leaf ∈ s.leaves, path <+: leaf.1 ∧ path ≠ leaf.1

/-- The entries of the patch are the leaves and their parents. -/
theorem entryOf_archive {sha256 : String} {archive : List Entry}
    (h : buildPatchTar crate (templatePayload s sha256) = some archive) :
    (∀ e ∈ archive, keyOf e = srcDir :: path → EntryOf s path e) ∧
      ((∃ content, (path, content) ∈ s.leaves) ∨
          (∃ leaf ∈ s.leaves, path <+: leaf.1 ∧ path ≠ leaf.1) →
        ∃ e ∈ archive, keyOf e = srcDir :: path) := by
  have hfiles : ∀ f ∈ (templatePayload s sha256).files, ∃ leaf ∈ s.leaves,
      f = ⟨srcPath leaf.1, leaf.2⟩ ∧
        (components f.relativePath).dropLast = srcDir :: leaf.1.dropLast := by
    intro f hf
    obtain ⟨leaf, hleaf, rfl⟩ := List.mem_map.1 hf
    obtain ⟨hne, hnames⟩ := s.names_of_mem_leaves leaf hleaf
    refine ⟨leaf, hleaf, rfl, ?_⟩
    rw [components_srcPath hne hnames, List.dropLast_cons_of_ne_nil hne]
  have hdirs := directory_buildPatchTar (fun f hf name hname => by
    obtain ⟨leaf, hleaf, -, hparts⟩ := hfiles f hf
    rw [hparts] at hname
    obtain rfl | hname := List.mem_cons.1 hname
    · exact fileName_srcDir
    · exact (s.names_of_mem_leaves leaf hleaf).2 _ (List.mem_of_mem_dropLast hname)) h
  obtain ⟨es, rfl, hkinds, hregular⟩ := buildPatchTar_spec h
  have hmem : ∀ e, e ∈ es ∧ e.kind = .regular ↔
      ∃ leaf ∈ s.leaves, e = ⟨.regular, srcPath leaf.1, leaf.2⟩ := by
    intro e
    have hfiles' : (templatePayload s sha256).files.filterMap (fileEntry crate) =
        s.leaves.map fun leaf => ⟨.regular, srcPath leaf.1, leaf.2⟩ := by
      rw [templatePayload, List.filterMap_map, ← List.filterMap_eq_map]
      refine List.filterMap_congr fun leaf hleaf => ?_
      obtain ⟨hne, hnames⟩ := s.names_of_mem_leaves leaf hleaf
      simp [fileEntry, crate.tidy _ (tidy_srcPath hne hnames)]
    have hiff : (e ∈ es.filter (·.kind = .regular)) ↔
        e ∈ s.leaves.map fun leaf => ⟨.regular, srcPath leaf.1, leaf.2⟩ := by
      rw [hregular, hfiles']
    simpa [List.mem_filter, eq_comm] using hiff
  have hleafKey : ∀ leaf ∈ s.leaves,
      keyOf ⟨.regular, srcPath leaf.1, leaf.2⟩ = srcDir :: leaf.1 := by
    intro leaf hleaf
    obtain ⟨hne, hnames⟩ := s.names_of_mem_leaves leaf hleaf
    exact keyOf_of_components (components_srcPath hne hnames)
      (List.forall_mem_cons.2 ⟨fileName_srcDir, hnames⟩)
  constructor
  · intro e he hkey
    obtain rfl | he' := List.mem_cons.1 he
    · have hpatch : (components patchSh).filter (· ≠ []) = [patchSh] := by decide
      exact absurd (List.cons.inj (hpatch.symm.trans hkey)).1 (by decide)
    · obtain hkind | hkind := hkinds e he'
      · obtain ⟨leaf, hleaf, rfl⟩ := (hmem e).1 ⟨he', hkind⟩
        rw [hleafKey leaf hleaf, List.cons.injEq] at hkey
        obtain ⟨-, rfl⟩ := hkey
        exact .inl ⟨leaf.2, hleaf, by simp [nodeOf, srcPath_ne_patchSh]⟩
      · obtain ⟨f, hf, l, hne, hl, hd⟩ := (hdirs e.path).1 ⟨e, he, hkind, rfl⟩
        obtain ⟨leaf, hleaf, -, hparts⟩ := hfiles f hf
        obtain ⟨hleafNe, hnames⟩ := s.names_of_mem_leaves leaf hleaf
        rw [hparts] at hl
        have hlnames : ∀ name ∈ l, FileName name := fun name hname => by
          obtain rfl | hname := List.mem_cons.1 (hl.subset hname)
          · exact fileName_srcDir
          · exact hnames _ (List.mem_of_mem_dropLast hname)
        rw [keyOf_dirText hd hne hlnames] at hkey
        rw [hkey, List.cons_prefix_cons, FileTree.prefix_dropLast_iff hleafNe] at hl
        exact .inr ⟨by simp [nodeOf, hkind], leaf, hleaf, hl.2⟩
  · rintro (⟨content, hleaf⟩ | ⟨leaf, hleaf, hpre⟩)
    · exact ⟨_, List.mem_cons_of_mem _ ((hmem _).2 ⟨_, hleaf, rfl⟩).1, hleafKey _ hleaf⟩
    · obtain ⟨hleafNe, hnames⟩ := s.names_of_mem_leaves leaf hleaf
      obtain ⟨e, he, -, hpath⟩ := (hdirs (dirText (srcDir :: path))).2
        ⟨_, List.mem_map.2 ⟨leaf, hleaf, rfl⟩, srcDir :: path, List.cons_ne_nil _ _, by
          rw [components_srcPath hleafNe hnames, List.dropLast_cons_of_ne_nil hleafNe,
            List.cons_prefix_cons, FileTree.prefix_dropLast_iff hleafNe]
          exact ⟨rfl, hpre⟩, rfl⟩
      refine ⟨e, he, keyOf_dirText hpath (List.cons_ne_nil _ _) ?_⟩
      exact List.forall_mem_cons.2 ⟨fileName_srcDir,
        fun name hname => hnames name (hpre.1.subset hname)⟩

/-- The script puts the leaves and their parents back. -/
theorem applyTemplate_packed (crate : TarCrate) (s : SourceDir) (sha256 : String)
    (hleaves : s.leaves ≠ []) :
    ∃ fs, applyTemplate crate (templatePayload s sha256) = some fs ∧
      ∀ path kind, fs path = some kind ↔ s.Keeps path kind := by
  obtain ⟨archive, harchive⟩ : ∃ archive,
      buildPatchTar crate (templatePayload s sha256) = some archive := by
    refine exists_buildPatchTar fun f hf => ?_
    obtain ⟨leaf, hleaf, rfl⟩ := List.mem_map.1 hf
    obtain ⟨hne, hnames⟩ := s.names_of_mem_leaves leaf hleaf
    have htidy := tidy_srcPath hne hnames
    exact ⟨Option.isSome_of_eq_some (crate.tidy _ htidy),
      fun part hpart => ⟨(htidy.2 part hpart).1, (htidy.2 part hpart).2.2⟩⟩
  have hfs : ∀ path kind, unpack archive (srcDir :: path) = some kind ↔ s.Keeps path kind := by
    intro path kind
    obtain ⟨hentries, hexists⟩ := @entryOf_archive crate s path _ _ harchive
    by_cases hleaf : ∃ content, (path, content) ∈ s.leaves
    · obtain ⟨content, hleaf⟩ := hleaf
      have hnot : ¬ ∃ leaf ∈ s.leaves, path <+: leaf.1 ∧ path ≠ leaf.1 := by
        rintro ⟨leaf, hmem, hpre, hne⟩
        exact hne (s.leaf_of_prefix hleaf hmem hpre)
      have hvalue : unpack archive (srcDir :: path) = some (.file content false) := by
        refine foldl_unpackEntry_of_forall (hexists (.inl ⟨content, hleaf⟩)) fun e he hkey => ?_
        obtain ⟨content', hleaf', hnode⟩ | ⟨-, hbad⟩ := hentries e he hkey
        · rw [hnode, s.leaf_unique hleaf hleaf']
        · exact absurd hbad hnot
      rw [hvalue]
      constructor
      · intro heq
        exact .inl ⟨content, hleaf, (Option.some_inj.1 heq).symm⟩
      · rintro (⟨content', hleaf', rfl⟩ | ⟨-, hbad⟩)
        · rw [s.leaf_unique hleaf hleaf']
        · exact absurd hbad hnot
    · by_cases hdir : ∃ leaf ∈ s.leaves, path <+: leaf.1 ∧ path ≠ leaf.1
      · have hvalue : unpack archive (srcDir :: path) = some .directory := by
          refine foldl_unpackEntry_of_forall (hexists (.inr hdir)) fun e he hkey => ?_
          obtain ⟨content', hleaf', -⟩ | ⟨hnode, -⟩ := hentries e he hkey
          · exact absurd ⟨content', hleaf'⟩ hleaf
          · exact hnode
        rw [hvalue]
        constructor
        · intro heq
          exact .inr ⟨(Option.some_inj.1 heq).symm, hdir⟩
        · rintro (⟨content', hleaf', -⟩ | ⟨rfl, -⟩)
          · exact absurd ⟨content', hleaf'⟩ hleaf
          · rfl
      · have hvalue : unpack archive (srcDir :: path) = none := by
          refine (foldl_unpackEntry_of_ne fun e he hkey => ?_).trans
            (Function.update_of_ne (List.cons_ne_nil srcDir path) _ _)
          obtain ⟨content', hleaf', -⟩ | ⟨-, hbad⟩ := hentries e he hkey
          · exact hleaf ⟨content', hleaf'⟩
          · exact hdir hbad
        rw [hvalue]
        refine ⟨nofun, ?_⟩
        rintro (⟨content', hleaf', -⟩ | ⟨-, hbad⟩)
        · exact absurd ⟨content', hleaf'⟩ hleaf
        · exact absurd hbad hdir
  obtain ⟨leaf, hleaf⟩ := List.exists_mem_of_ne_nil _ hleaves
  have hroot : unpack archive [srcDir] = some .directory :=
    (hfs [] .directory).2 (.inr ⟨rfl, leaf, hleaf, List.nil_prefix,
      (s.names_of_mem_leaves leaf hleaf).1.symm⟩)
  refine ⟨fun path => unpack archive (srcDir :: path), ?_, hfs⟩
  rw [applyTemplate, harchive, Option.bind_some, runTemplate, if_pos hroot]

theorem mem_packed {e : Packed} : e ∈ packed s ↔
    e = packedSrc ∧ s.leaves ≠ [] ∨ (∃ leaf ∈ s.leaves, e = packLeaf leaf) ∨ e = packedPatch := by
  unfold packed
  by_cases hnil : s.leaves = []
  · simp [hnil]
  · rw [if_neg hnil, List.mem_append, List.mem_cons, List.mem_map, List.mem_singleton, or_assoc]
    simp only [hnil, ne_eq, not_false_eq_true, and_true, eq_comm (a := e)]

theorem nodup_leaves (s : SourceDir) : s.leaves.Pairwise fun leaf leaf' => leaf.1 ≠ leaf'.1 := by
  rw [SourceDir.leaves, List.pairwise_filterMap]
  refine (List.pairwise_map.1 s.nodup).imp fun hne leaf h leaf' h' => ?_
  obtain ⟨_, -, rfl⟩ := Option.map_eq_some_iff.1 h
  obtain ⟨_, -, rfl⟩ := Option.map_eq_some_iff.1 h'
  exact hne

theorem nodup_paths_packed (s : SourceDir) : ((packed s).map (·.path)).Nodup := by
  have hleaves : (s.leaves.map fun leaf => (packLeaf leaf).path).Nodup := by
    rw [List.Nodup, List.pairwise_map]
    refine (nodup_leaves s).imp_of_mem fun {leaf leaf'} hleaf hleaf' hne heq => hne ?_
    have hcomp := congrArg components heq
    obtain ⟨hnil, hnames⟩ := s.names_of_mem_leaves leaf hleaf
    obtain ⟨hnil', hnames'⟩ := s.names_of_mem_leaves leaf' hleaf'
    rw [packLeaf, packLeaf, components_srcPath hnil hnames,
      components_srcPath hnil' hnames'] at hcomp
    exact (List.cons.inj hcomp).2
  unfold packed
  split
  · exact List.nodup_singleton _
  · rw [List.map_append, List.map_cons, List.map_map, List.cons_append, List.nodup_cons,
      List.nodup_append]
    refine ⟨?_, hleaves, List.nodup_singleton _, ?_⟩
    · rw [List.mem_append, not_or]
      refine ⟨fun hmem => ?_, by decide⟩
      obtain ⟨leaf, hleaf, heq⟩ := List.mem_map.1 hmem
      obtain ⟨hnil, hnames⟩ := s.names_of_mem_leaves leaf hleaf
      have heq : srcDir ++ '/' :: join leaf.1 = srcDir ++ '/' :: [] := heq
      exact join_ne_nil hnil hnames (List.cons.inj (List.append_cancel_left heq)).2
    · intro path hpath path' hpath' heq
      obtain ⟨leaf, -, rfl⟩ := List.mem_map.1 hpath
      obtain rfl := List.mem_singleton.1 hpath'
      exact srcPath_ne_patchSh heq

theorem holds_packed (s : SourceDir) : Holds s (packed s) where
  once := nodup_paths_packed s
  files path content executable h :=
    ⟨_, mem_packed.2 (.inr (.inl ⟨(path, content), mem_leaves.2 ⟨_, h, rfl⟩, rfl⟩)), rfl⟩
  inside e he := by
    obtain ⟨rfl, -⟩ | ⟨leaf, -, rfl⟩ | rfl := mem_packed.1 he
    · exact .inr (List.prefix_refl _)
    · exact .inr ⟨join leaf.1, by simp [packLeaf, srcPath]⟩
    · exact .inl rfl

/-- The archive of a directory is accepted unchanged and gives its leaves back. -/
theorem source_archive (crate : TarCrate) (s : SourceDir) (sha256 : String) (hs : s.Ordinary) :
    ∃ archive payload, tarBytesToTargzWithSrc crate s.listing = some archive ∧ Holds s archive ∧
      (∀ path target, (path, .link target) ∈ s.nodes → target ≠ [] →
        ∃ e ∈ archive, e.toEntry = ⟨.regular, srcPath path, utf8 target⟩) ∧
      extractPatchPayload ⟨true, sha256, archive.map fun e => .ok e.toEntry⟩ = .ok payload ∧
      payload.script = patchTemplate ∧
      (s.leaves ≠ [] → ∃ fs, applyTemplate crate payload = some fs ∧
        ∀ path kind, fs path = some kind ↔ s.Keeps path kind) := by
  refine ⟨packed s, templatePayload s sha256, repack_listing hs, holds_packed s, ?_,
    extract_packed hs sha256, rfl, applyTemplate_packed crate s sha256⟩
  intro path target hlink hne
  exact ⟨_, mem_packed.2 (.inr (.inl ⟨(path, utf8 target),
    mem_leaves.2 ⟨_, hlink, if_neg hne⟩, rfl⟩)), rfl⟩

/-- The name `index.php`. -/
def indexName : Path := "index.php".toList

/-- The name `extra`. -/
def extraName : Path := "extra".toList

theorem fileName_index : FileName indexName :=
  ⟨by decide, by decide, by decide, by decide, by decide⟩

theorem fileName_extra : FileName extraName :=
  ⟨by decide, by decide, by decide, by decide, by decide⟩

/-- A directory with a page and something else. -/
def site (kind : Kind) : SourceDir where
  root := "html".toList
  nodes := [([indexName], .file "<?php".toUTF8 false), ([extraName], kind)]
  root_name := ⟨by decide, by decide, by decide, by decide, by decide⟩
  names := List.forall_mem_cons.2
    ⟨⟨List.cons_ne_nil _ _, List.forall_mem_singleton.2 fileName_index⟩,
      List.forall_mem_singleton.2
        ⟨List.cons_ne_nil _ _, List.forall_mem_singleton.2 fileName_extra⟩⟩
  nodup := by
    show [[indexName], [extraName]].Nodup
    decide
  parents path name kind' h := by
    simp only [List.mem_cons, List.not_mem_nil, Prod.mk.injEq, List.append_eq_singleton_iff] at h
    grind

theorem site_leaves {kind : Kind} {leaf : List Path × ByteArray} (h : leaf ∈ (site kind).leaves) :
    leaf.1 = [indexName] ∨ leaf.1 = [extraName] := by
  obtain ⟨kind', hnode, -⟩ := mem_leaves.1 h
  obtain hnode | hnode := List.mem_cons.1 hnode
  · exact .inl (congrArg Prod.fst hnode)
  · exact .inr (congrArg Prod.fst (List.mem_singleton.1 hnode))

theorem ordinary_site (kind : Kind) : (site kind).Ordinary where
  root := by
    show ¬ paxHeader <+: "html".toList
    decide
  header leaf h := by
    obtain hleaf | hleaf := site_leaves h <;> rw [hleaf] <;> decide
  dots leaf h := by
    obtain hleaf | hleaf := site_leaves h <;> rw [hleaf, List.forall_mem_singleton] <;> decide

theorem source_archive_site : ∃ archive payload,
    tarBytesToTargzWithSrc .reference (site .directory).listing = some archive ∧
      Holds (site .directory) archive ∧
      (∀ path target, (path, .link target) ∈ (site .directory).nodes → target ≠ [] →
        ∃ e ∈ archive, e.toEntry = ⟨.regular, srcPath path, utf8 target⟩) ∧
      extractPatchPayload ⟨true, "", archive.map fun e => .ok e.toEntry⟩ = .ok payload ∧
      payload.script = patchTemplate ∧
      ((site .directory).leaves ≠ [] → ∃ fs, applyTemplate .reference payload = some fs ∧
        ∀ path kind, fs path = some kind ↔ (site .directory).Keeps path kind) :=
  source_archive .reference (site .directory) "" (ordinary_site .directory)

/-- Only what the archive keeps is restored. -/
theorem keeps_of_restored {sha256 : String} (hs : s.Ordinary) (hleaves : s.leaves ≠ [])
    (h : s.Restored crate sha256) {kind : Kind} (hhas : s.Has path kind) : s.Keeps path kind := by
  obtain ⟨archive, payload, fs, harchive, -, hpayload, -, hfs, hiff⟩ := h
  obtain rfl := Option.some_inj.1 ((repack_listing hs).symm.trans harchive)
  obtain rfl := Except.ok.inj ((extract_packed hs sha256).symm.trans hpayload)
  obtain ⟨fs', hfs', hiff'⟩ := applyTemplate_packed crate s sha256 hleaves
  obtain rfl := Option.some_inj.1 (hfs'.symm.trans hfs)
  exact (hiff' path kind).1 ((hiff path kind).2 hhas)

theorem site_keeps {kind : Kind} (h : (site kind).Restored crate "") :
    ∃ content, kind = .file content false := by
  have hleaves : (site kind).leaves ≠ [] :=
    List.ne_nil_of_mem (mem_leaves.2 ⟨_, List.mem_cons_self, rfl⟩)
  have hhas : (site kind).Has [extraName] kind := .inr (List.mem_cons_of_mem _ List.mem_cons_self)
  obtain ⟨content, -, hkind⟩ | ⟨-, leaf, hleaf, hpre, hne⟩ :=
    keeps_of_restored (ordinary_site kind) hleaves h hhas
  · exact ⟨content, hkind⟩
  · obtain heq | heq := site_leaves hleaf
    · rw [heq] at hpre
      exact absurd hpre (by decide)
    · exact absurd heq.symm hne

/-- Executable files, links and empty directories are not restored. -/
theorem not_restored : ¬ (site (.file .empty true)).Restored .reference "" ∧
    ¬ (site (.link "index.php".toList)).Restored .reference "" ∧
    ¬ (site .directory).Restored .reference "" := by
  refine ⟨fun h => ?_, fun h => ?_, fun h => ?_⟩ <;>
    obtain ⟨content, hkind⟩ := site_keeps h <;> cases hkind

end

end FloatCtf.Awdp.SourceArtifact
