import FloatCtf.Awdp.PatchArchive
import FloatCtf.Net.Text
import Mathlib.Data.List.DropRight

/-!
# The source of a GameBox as an archive

A player gets the source directory of a GameBox as an archive, which is itself a patch: it has the
directory below `src/` and a script that puts `src/` in its place.

`repack_listing` says what `tar_bytes_to_targz_with_src` makes of the listing of a directory: an
entry for every leaf, where links have become files, and nothing for the directories.
-/

namespace FloatCtf.Awdp.SourceArtifact

/-! ## Archives -/

/-- The types of entries in the archive of a container. -/
inductive TarKind where
  | regular
  | hardLink
  | symlink
  | directory
  | other
  deriving DecidableEq

/-- An entry of the archive that the runtime makes of a directory. -/
structure TarEntry where
  kind : TarKind
  path : Path
  content : ByteArray
  linkName : Option Path

/-- An entry of the archive that is published. -/
structure Packed extends Entry where
  mode : ℕ

/-- The patch that a player starts from. -/
def patchTemplate : String :=
  "#!/bin/sh\n" ++
  "# ============================================================\n" ++
  "# FloatCTF AWDP 练习 —— 通用 Patch 模板\n" ++
  "# ------------------------------------------------------------\n" ++
  "# 本文件是练习场景的默认 patch：全部为注释，不执行任何真实修改。\n" ++
  "#\n" ++
  "# 上传后平台会把 patch.sh 在你的 GameBox 容器内以 /bin/sh 执行，\n" ++
  "# 并注入 FLOATCTF_SOURCE_DIR（源码在容器内的绝对路径）；\n" ++
  "# 执行退出码为 0 且无超时即视为 APPLIED（本轮正式评分资格）。\n" ++
  "#\n" ++
  "# 如需真实修复：把修改逻辑写在本文件下方（或引用本包内其它文件），\n" ++
  "# 再重新打成 tar.gz 上传。练习模式可直接原样传回本包。\n" ++
  "# ============================================================\n" ++
  "find \"$FLOATCTF_SOURCE_DIR\" -mindepth 1 -delete\n" ++
  "cp -af src/. \"$FLOATCTF_SOURCE_DIR\"/\n"

/-! ## `tar_bytes_to_targz_with_src` -/

/-- What has been read of the archive so far. -/
structure Scan where
  rootPrefix : Option Path
  entries : List (Path × ByteArray)

/-- The bytes of a text. -/
def utf8 (text : Path) : ByteArray := (String.ofList text).toUTF8

/-- The content that is kept of an entry. -/
def TarEntry.kept (e : TarEntry) : Option ByteArray :=
  match e.kind with
  | .regular | .hardLink => some e.content
  | .symlink => if e.linkName.getD [] = [] then none else some (utf8 (e.linkName.getD []))
  | .directory | .other => none

/-- A name without its last slashes. -/
def trimSlashes (name : Path) : Path := name.rdropWhile (· = '/')

/-- The body of the loop over the entries. -/
def scanEntry (x : Scan) (e : TarEntry) : Scan :=
  if isPaxHeader e.path then x
  else
    let trimmed := trimSlashes e.path
    let rootPrefix :=
      if x.rootPrefix = none ∧ trimmed ≠ [] then some trimmed else x.rootPrefix
    match e.kept with
    | some content => ⟨rootPrefix, x.entries ++ [(trimmed, content)]⟩
    | none => ⟨rootPrefix, x.entries⟩

/-- The length of a name in bytes. -/
def byteLength (name : Path) : ℕ := (String.ofList name).utf8ByteSize

/-- `name[n..]`; `none` is the panic of a cut inside a character. -/
def sliceFrom (name : Path) (n : ℕ) : Option Path :=
  (Text.cutAt name n).map fun cut => name.drop cut.length

/-- The length of the prefix that is cut off. -/
def prefixLen (rootPrefix : Option Path) : ℕ :=
  match rootPrefix with
  | some root => byteLength root + 1
  | none => 0

/-- The closure `strip`. -/
def strip (rootPrefix : Option Path) (name : Path) : Option Path :=
  if 0 < prefixLen rootPrefix ∧ prefixLen rootPrefix < byteLength name ∧
      (Text.encode (String.ofList name))[prefixLen rootPrefix - 1]? = some 47 then
    sliceFrom name (prefixLen rootPrefix)
  else if 0 < prefixLen rootPrefix ∧ name = rootPrefix.getD [] then some []
  else some name

section Writer

variable (crate : TarCrate)

/-- `append_data` with a mode. -/
def appendMode (mode : ℕ) (kind : EntryType) (path : Path) (content : ByteArray)
    (archive : List Packed) : Option (List Packed) :=
  (crate.write path).map fun written => archive ++ [⟨⟨kind, written, content⟩, mode⟩]

/-- The directory of the source. -/
def srcDir : Path := ['s', 'r', 'c']

/-- The loop that writes the files; `wroteSrc` says whether the entry of the directory is there. -/
def writeEntries (rootPrefix : Option Path) :
    List (Path × ByteArray) → Bool → List Packed → Option (List Packed)
  | [], _, archive => some archive
  | (name, content) :: rest, wroteSrc, archive =>
    (strip rootPrefix name).bind fun rel =>
      if rel = [] then writeEntries rootPrefix rest wroteSrc archive
      else
        (if wroteSrc then some archive
          else appendMode crate 0o755 .directory (srcDir ++ ['/']) .empty archive).bind
            fun archive =>
              (appendMode crate 0o644 .regular (srcDir ++ '/' :: rel) content archive).bind
                fun archive => writeEntries rootPrefix rest true archive

/-- `none` is an error of the writer. -/
def tarBytesToTargzWithSrc (entries : List TarEntry) : Option (List Packed) :=
  let x := entries.foldl scanEntry ⟨none, []⟩
  (writeEntries crate x.rootPrefix x.entries false []).bind fun archive =>
    appendMode crate 0o755 .regular patchSh patchTemplate.toUTF8 archive

end Writer

/-! ## Directories -/

/-- What stands at a path of the source. -/
inductive Kind where
  | directory
  | file (content : ByteArray) (executable : Bool)
  | link (target : Path)
  deriving DecidableEq

/-- A name in a directory. -/
def FileName (name : Path) : Prop :=
  name ≠ [] ∧ '/' ∉ name ∧ name ≠ ['.'] ∧ name ≠ dotDot ∧ '\u0000' ∉ name

/-- A directory: its own name, and what is below it, in the order in which it is listed. -/
structure SourceDir where
  root : Path
  nodes : List (List Path × Kind)
  root_name : FileName root
  names : ∀ node ∈ nodes, node.1 ≠ [] ∧ ∀ name ∈ node.1, FileName name
  nodup : (nodes.map Prod.fst).Nodup
  parents : ∀ path name kind, (path ++ [name], kind) ∈ nodes →
    path = [] ∨ (path, Kind.directory) ∈ nodes

/-- The entry that Docker writes for a node. -/
def entryOf (root : Path) (node : List Path × Kind) : TarEntry :=
  match node.2 with
  | .directory => ⟨.directory, join (root :: node.1) ++ ['/'], .empty, none⟩
  | .file content _ => ⟨.regular, join (root :: node.1), content, none⟩
  | .link target => ⟨.symlink, join (root :: node.1), .empty, some target⟩

/-- The archive of a directory begins with the directory itself. -/
def SourceDir.listing (s : SourceDir) : List TarEntry :=
  ⟨.directory, s.root ++ ['/'], .empty, none⟩ :: s.nodes.map (entryOf s.root)

/-- The bytes of a leaf in the archive; a link has the text of its target. -/
def Kind.payload : Kind → Option ByteArray
  | .directory => none
  | .file content _ => some content
  | .link target => if target = [] then none else some (utf8 target)

/-- The files and links of the source. -/
def SourceDir.leaves (s : SourceDir) : List (List Path × ByteArray) :=
  s.nodes.filterMap fun node => node.2.payload.map (node.1, ·)

/-- No name is mistaken for a header of the archive, and none has two dots in a row. -/
structure SourceDir.Ordinary (s : SourceDir) : Prop where
  root : ¬ paxHeader <+: s.root
  header : ∀ leaf ∈ s.leaves, leaf.1.getLast? ≠ some paxHeader
  dots : ∀ leaf ∈ s.leaves, ∀ name ∈ leaf.1, ¬ dotDot <:+: name

/-! ## Paths -/

section

variable {root name : Path} {path : List Path}

theorem components_join (hne : path ≠ []) (h : ∀ name ∈ path, FileName name) :
    components (join path) = path :=
  components_join_of hne fun name hname => (h name hname).2.1

theorem join_ne_nil (hne : path ≠ []) (h : ∀ name ∈ path, FileName name) : join path ≠ [] := by
  intro hnil
  have hcomp := components_join hne h
  rw [hnil] at hcomp
  have hmem : ([] : Path) ∈ path := by
    rw [← hcomp]
    exact List.mem_singleton.2 rfl
  exact (h [] hmem).1 rfl

theorem join_concat (hne : path ≠ []) (h : ∀ name ∈ path, FileName name) :
    trimSlashes (join path ++ ['/']) = join path ∧ trimSlashes (join path) = join path := by
  have hlast : ∀ c, (join path).getLast? = some c → c ≠ '/' := by
    rintro c hc rfl
    obtain ⟨front, hfront⟩ := List.getLast?_eq_some_iff.1 hc
    have hcomp := components_join hne h
    rw [hfront, components_append] at hcomp
    have hmem : ([] : Path) ∈ path := by
      rw [← hcomp]
      exact List.mem_append_right _ (List.mem_singleton.2 rfl)
    exact (h [] hmem).1 rfl
  have htrim : trimSlashes (join path) = join path := by
    unfold trimSlashes
    rw [List.rdropWhile_eq_self_iff]
    intro hl hc
    exact hlast _ (List.getLast?_eq_some_getLast hl) (by simpa using hc)
  refine ⟨?_, htrim⟩
  rw [trimSlashes, List.rdropWhile_concat_pos _ _ _ (by simp)]
  exact htrim

/-- A text without a slash that begins a path begins its first name. -/
theorem prefix_of_prefix_append {l a b : Path} (hl : '/' ∉ l) (h : l <+: a ++ '/' :: b) :
    l <+: a := by
  obtain hla | hal := List.prefix_or_prefix_of_prefix h (List.prefix_append a ('/' :: b))
  · exact hla
  · obtain ⟨t, rfl⟩ := hal
    rw [List.prefix_append_right_inj] at h
    cases t with
    | nil => simp
    | cons c t =>
      obtain ⟨rfl, -⟩ := List.cons_prefix_cons.1 h
      exact absurd (List.mem_append_right _ List.mem_cons_self) hl

theorem notMem_paxHeader : '/' ∉ paxHeader := by decide

/-- A path whose first and last names are not that of the header. -/
theorem isPaxHeader_join (hne : path ≠ []) (h : ∀ name ∈ path, FileName name)
    (hfirst : ¬ paxHeader <+: root) (hlast : path.getLast? ≠ some paxHeader)
    (hroot : FileName root) : isPaxHeader (join (root :: path)) = false := by
  simp only [isPaxHeader, decide_eq_false_iff_not, not_or]
  constructor
  · rintro ⟨front, hfront⟩
    have hcomp := components_join (List.cons_ne_nil root path)
      (List.forall_mem_cons.2 ⟨hroot, h⟩)
    rw [← hfront, components_append, components_of_notMem notMem_paxHeader] at hcomp
    refine hlast ?_
    rw [← List.getLast?_cons_of_ne_nil hne (x := root), ← hcomp, List.getLast?_concat]
  · rw [join_cons hne]
    exact fun hpre => hfirst (prefix_of_prefix_append notMem_paxHeader hpre)

end

/-! ## The listing of a directory -/

section

variable {crate : TarCrate} {s : SourceDir} {root : Path}

theorem mem_leaves {path : List Path} {content : ByteArray} :
    (path, content) ∈ s.leaves ↔
      ∃ kind, (path, kind) ∈ s.nodes ∧ kind.payload = some content := by
  simp only [SourceDir.leaves, List.mem_filterMap, Option.map_eq_some_iff, Prod.mk.injEq]
  constructor
  · rintro ⟨⟨_, kind⟩, hmem, _, hkind, rfl, rfl⟩
    exact ⟨kind, hmem, hkind⟩
  · rintro ⟨kind, hmem, hkind⟩
    exact ⟨(path, kind), hmem, content, hkind, rfl, rfl⟩

theorem kept_entryOf (node : List Path × Kind) :
    (entryOf root node).kept = node.2.payload := by
  obtain ⟨path, _ | _ | target⟩ := node
  · rfl
  · rfl
  · by_cases hnil : target = [] <;> simp [entryOf, TarEntry.kept, Kind.payload, hnil]

theorem trimSlashes_entryOf {node : List Path × Kind} (hroot : FileName root)
    (h : ∀ name ∈ node.1, FileName name) :
    trimSlashes (entryOf root node).path = join (root :: node.1) := by
  have htrim := join_concat (List.cons_ne_nil root node.1) (List.forall_mem_cons.2 ⟨hroot, h⟩)
  obtain ⟨path, _ | _ | _⟩ := node
  · exact htrim.1
  · exact htrim.2
  · exact htrim.2

/-- One entry below the directory. -/
theorem scanEntry_entryOf {node : List Path × Kind} (hroot : FileName root)
    (h : ∀ name ∈ node.1, FileName name)
    (hpax : node.2.payload.isSome → isPaxHeader (entryOf root node).path = false)
    (entries : List (Path × ByteArray)) :
    scanEntry ⟨some root, entries⟩ (entryOf root node) =
      ⟨some root, entries ++ (node.2.payload.map (join (root :: node.1), ·)).toList⟩ := by
  unfold scanEntry
  cases hkind : node.2.payload with
  | none => split <;> simp [kept_entryOf, hkind]
  | some content =>
    rw [if_neg (by simp [hpax (by simp [hkind])])]
    simp [kept_entryOf, hkind, trimSlashes_entryOf hroot h]

theorem foldl_scanEntry {nodes : List (List Path × Kind)} (hroot : FileName root)
    (h : ∀ node ∈ nodes, (∀ name ∈ node.1, FileName name) ∧
      (node.2.payload.isSome → isPaxHeader (entryOf root node).path = false))
    (entries : List (Path × ByteArray)) :
    (nodes.map (entryOf root)).foldl scanEntry ⟨some root, entries⟩ =
      ⟨some root, entries ++ (nodes.filterMap fun node => node.2.payload.map (node.1, ·)).map
        fun leaf => (join (root :: leaf.1), leaf.2)⟩ := by
  induction nodes generalizing entries with
  | nil => simp
  | cons node nodes ih =>
    obtain ⟨⟨hnames, hpax⟩, hrest⟩ := List.forall_mem_cons.1 h
    rw [List.map_cons, List.foldl_cons, scanEntry_entryOf hroot hnames hpax, ih hrest,
      List.filterMap_cons]
    cases node.2.payload <;> simp

/-- The directory itself gives the prefix. -/
theorem scanEntry_root (hs : s.Ordinary) :
    scanEntry ⟨none, []⟩ ⟨.directory, s.root ++ ['/'], .empty, none⟩ = ⟨some s.root, []⟩ := by
  have hpax : isPaxHeader (s.root ++ ['/']) = false := by
    simp only [isPaxHeader, decide_eq_false_iff_not, not_or]
    constructor
    · rintro ⟨front, hfront⟩
      have hcomp := congrArg components hfront
      rw [components_append, components_append, components_of_notMem notMem_paxHeader] at hcomp
      have hlast := congrArg List.getLast? hcomp
      rw [show components [] = [[]] from rfl, List.getLast?_concat, List.getLast?_concat] at hlast
      exact absurd hlast (by decide)
    · exact fun hpre => hs.root (prefix_of_prefix_append notMem_paxHeader hpre)
  have htrim : trimSlashes (s.root ++ ['/']) = s.root := by
    have h := (join_concat (List.cons_ne_nil s.root [])
      (List.forall_mem_singleton.2 s.root_name)).1
    simpa [join] using h
  simp [scanEntry, hpax, htrim, s.root_name.1, TarEntry.kept]

/-- The scan finds the name of the directory and the leaves. -/
theorem scan_listing (hs : s.Ordinary) :
    s.listing.foldl scanEntry ⟨none, []⟩ =
      ⟨some s.root, s.leaves.map fun leaf => (join (s.root :: leaf.1), leaf.2)⟩ := by
  rw [SourceDir.listing, List.foldl_cons, scanEntry_root hs, foldl_scanEntry s.root_name]
  · rw [List.nil_append]
    rfl
  · rintro ⟨path, kind⟩ hnode
    refine ⟨(s.names _ hnode).2, fun hsome => ?_⟩
    obtain ⟨content, hcontent⟩ := Option.isSome_iff_exists.1 hsome
    have hpath : (entryOf s.root (path, kind)).path = join (s.root :: path) := by
      cases kind <;> first | rfl | cases hcontent
    rw [hpath]
    exact isPaxHeader_join (s.names _ hnode).1 (s.names _ hnode).2 hs.root
      (hs.header (path, content) (mem_leaves.2 ⟨kind, hnode, hcontent⟩)) s.root_name

/-! ## The published archive -/

theorem byteLength_append (a b : Path) : byteLength (a ++ b) = byteLength a + byteLength b := by
  rw [byteLength, String.ofList_append, String.utf8ByteSize_append]
  rfl

theorem byteLength_pos {a : Path} (h : a ≠ []) : 0 < byteLength a := by
  obtain ⟨c, cs, rfl⟩ := List.exists_cons_of_ne_nil h
  have := c.utf8Size_pos
  rw [byteLength, Text.utf8ByteSize_ofList_cons]
  omega

/-- The byte behind a text that is followed by a slash. -/
theorem getElem?_encode_slash (a b : Path) :
    (Text.encode (String.ofList (a ++ '/' :: b)))[byteLength a]? = some 47 := by
  have hlen : (Text.encode (String.ofList a)).length = byteLength a := rfl
  have hslash : Text.encode (String.ofList ('/' :: b)) =
      47 :: Text.encode (String.ofList b) := by
    rw [String.ofList_cons, Text.encode_append]
    rfl
  rw [String.ofList_append, Text.encode_append, ← hlen, List.getElem?_append_right le_rfl, hslash]
  simp

/-- The prefix is cut off. -/
theorem strip_join {path : List Path} (hne : path ≠ []) (h : ∀ name ∈ path, FileName name) :
    strip (some root) (join (root :: path)) = some (join path) := by
  have hslash : byteLength ['/'] = 1 := by decide
  have hlen : byteLength (root ++ '/' :: join path) =
      byteLength root + 1 + byteLength (join path) := by
    rw [byteLength_append, show '/' :: join path = ['/'] ++ join path from rfl, byteLength_append,
      hslash]
    omega
  have hpos := byteLength_pos (join_ne_nil hne h)
  rw [join_cons hne, strip, if_pos]
  · have hcut : Text.cutAt (root ++ '/' :: join path) (byteLength root + 1) =
        some (root ++ ['/']) := by
      have := Text.cutAt_append (root ++ ['/']) (join path) 0
      rwa [List.append_assoc, show (String.ofList (root ++ ['/'])).utf8ByteSize + 0 =
        byteLength root + 1 by rw [Nat.add_zero, ← hslash, ← byteLength_append]; rfl,
        show Text.cutAt (join path) 0 = some [] by cases join path <;> rfl, Option.map_some,
        List.append_nil] at this
    rw [sliceFrom, prefixLen, hcut, Option.map_some]
    congr 1
    rw [show root ++ '/' :: join path = (root ++ ['/']) ++ join path by simp, List.drop_left]
  · refine ⟨by simp [prefixLen], ?_, ?_⟩
    · rw [prefixLen, hlen]
      omega
    · simpa [prefixLen] using getElem?_encode_slash root (join path)

/-- The path of a leaf in the archive. -/
def srcPath (path : List Path) : Path := srcDir ++ '/' :: join path

/-- A file of the artifact. -/
def packLeaf (leaf : List Path × ByteArray) : Packed :=
  ⟨⟨.regular, srcPath leaf.1, leaf.2⟩, 0o644⟩

/-- The directory of the source in the artifact. -/
def packedSrc : Packed := ⟨⟨.directory, srcDir ++ ['/'], .empty⟩, 0o755⟩

/-- The patch in the artifact. -/
def packedPatch : Packed := ⟨⟨.regular, patchSh, patchTemplate.toUTF8⟩, 0o755⟩

/-- The artifact: the source, if it has files, and the patch. -/
def packed (s : SourceDir) : List Packed :=
  (if s.leaves = [] then [] else packedSrc :: s.leaves.map packLeaf) ++ [packedPatch]

theorem tidy_join {path : List Path} (hne : path ≠ []) (h : ∀ name ∈ path, FileName name) :
    Tidy (join path) := by
  constructor
  · intro hmem
    obtain hslash | ⟨name, hname, hin⟩ := mem_join hmem
    · exact absurd hslash (by decide)
    · exact (h name hname).2.2.2.2 hin
  · rw [components_join hne h]
    exact fun name hname => ⟨(h name hname).1, (h name hname).2.2.1, (h name hname).2.2.2.1⟩

theorem fileName_srcDir : FileName srcDir := ⟨by decide, by decide, by decide, by decide, by decide⟩

theorem srcPath_eq {path : List Path} (h : path ≠ []) : srcPath path = join (srcDir :: path) :=
  (join_cons h).symm

theorem tidy_srcPath {path : List Path} (hne : path ≠ []) (h : ∀ name ∈ path, FileName name) :
    Tidy (srcPath path) := by
  rw [srcPath_eq hne]
  exact tidy_join (List.cons_ne_nil _ _) (List.forall_mem_cons.2 ⟨fileName_srcDir, h⟩)

theorem appendMode_of_write {mode : ℕ} {kind : EntryType} {path : Path} {content : ByteArray}
    (h : crate.write path = some path) (archive : List Packed) :
    appendMode crate mode kind path content archive =
      some (archive ++ [⟨⟨kind, path, content⟩, mode⟩]) := by
  rw [appendMode, h, Option.map_some]

theorem writeEntries_cons {leaf : List Path × ByteArray} (hne : leaf.1 ≠ [])
    (h : ∀ name ∈ leaf.1, FileName name) (rest : List (Path × ByteArray)) (wroteSrc : Bool)
    (archive : List Packed) :
    writeEntries crate (some root) ((join (root :: leaf.1), leaf.2) :: rest) wroteSrc archive =
      writeEntries crate (some root) rest true
        (archive ++ (if wroteSrc then [] else [packedSrc]) ++ [packLeaf leaf]) := by
  have hleaf (archive : List Packed) :
      appendMode crate 0o644 .regular (srcDir ++ '/' :: join leaf.1) leaf.2 archive =
        some (archive ++ [packLeaf leaf]) :=
    appendMode_of_write (crate.tidy _ (tidy_srcPath hne h)) archive
  have hsrc : appendMode crate 0o755 .directory (srcDir ++ ['/']) .empty archive =
      some (archive ++ [packedSrc]) :=
    appendMode_of_write (crate.tidyDir srcDir (by decide)) archive
  rw [writeEntries, strip_join hne h, Option.bind_some, if_neg (join_ne_nil hne h)]
  cases wroteSrc <;> simp [hleaf, hsrc]

theorem writeEntries_leaves {leaves : List (List Path × ByteArray)}
    (h : ∀ leaf ∈ leaves, leaf.1 ≠ [] ∧ ∀ name ∈ leaf.1, FileName name) (archive : List Packed) :
    writeEntries crate (some root)
        (leaves.map fun leaf => (join (root :: leaf.1), leaf.2)) true archive =
      some (archive ++ leaves.map packLeaf) := by
  induction leaves generalizing archive with
  | nil => simp [writeEntries]
  | cons leaf leaves ih =>
    obtain ⟨⟨hne, hnames⟩, hrest⟩ := List.forall_mem_cons.1 h
    rw [List.map_cons, writeEntries_cons hne hnames, ih hrest]
    simp

theorem SourceDir.names_of_mem_leaves (s : SourceDir) :
    ∀ leaf ∈ s.leaves, leaf.1 ≠ [] ∧ ∀ name ∈ leaf.1, FileName name := by
  rintro ⟨path, content⟩ hleaf
  obtain ⟨kind, hnode, -⟩ := mem_leaves.1 hleaf
  exact s.names _ hnode

/-- The archive of a directory: an entry for every leaf, and the script. -/
theorem repack_listing (hs : s.Ordinary) :
    tarBytesToTargzWithSrc crate s.listing = some (packed s) := by
  have hleaves := s.names_of_mem_leaves
  have hpatch (archive : List Packed) :
      appendMode crate 0o755 .regular patchSh patchTemplate.toUTF8 archive =
        some (archive ++ [packedPatch]) :=
    appendMode_of_write (crate.tidy patchSh tidy_patchSh) archive
  have hwrite : writeEntries crate (some s.root)
      (s.leaves.map fun leaf => (join (s.root :: leaf.1), leaf.2)) false [] =
        some (if s.leaves = [] then [] else packedSrc :: s.leaves.map packLeaf) := by
    cases hl : s.leaves with
    | nil => rfl
    | cons leaf leaves =>
      rw [hl] at hleaves
      obtain ⟨⟨hne, hnames⟩, hrest⟩ := List.forall_mem_cons.1 hleaves
      rw [List.map_cons, writeEntries_cons hne hnames, writeEntries_leaves hrest]
      rfl
  rw [tarBytesToTargzWithSrc, scan_listing hs]
  simp only [hwrite, Option.bind_some, hpatch]
  rfl

end

end FloatCtf.Awdp.SourceArtifact
