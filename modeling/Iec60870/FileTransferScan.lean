import Iec60870.FileTransferFs
import Iec60870.Keyed

/-!
# The scan of the base directory

The index of the file system provider is made by a scan of its base directory
(`scan_dir` of `file_transfer/fs.rs`). What the operating system says of the
entries is all that the scan goes by: their types, and their canonical paths,
which need not be in the directory. Here it is taken as it comes, with its
errors, for names of any kind (`OsName`) and in any order.

The scan is a loop that makes an index of keys that may clash, and `Keyed` says
what it makes: `scanDir_correct`. The provider over one directory (`FileTransferFs`)
has a scan of its own, by names; `scanDir_directory` says that it is this one.
-/

namespace FileTransfer

open Iec60870 Machine

/-! ## Names and entries -/

/-- **The names of an operating system**, as far as the scan asks about them. -/
class OsName (ν : Type) where
  /-- The extension of a name (`Path::extension`), if it is Unicode (`to_str`). -/
  extension : ν → Option (List Char)
  /-- The octets of a relative path (`to_string_lossy`). -/
  toStringLossy : List ν → Bytes

/-- Names of characters. Between the names of a path there are slashes. -/
instance : OsName FileName where
  extension := FileName.extension
  toStringLossy path :=
    [0x2F].intercalate (path.map fun name => name.1.flatMap String.utf8EncodeChar)

inductive FileType where
  | file
  | directory
  | symlink
  | other
deriving DecidableEq, Repr

/-- **An entry of the directory** (`DirEntry`). A path is the list of the names on
it. -/
structure DirEntry (ν : Type) where
  name : ν
  fileType : Except IoError FileType
  canonical : Except IoError (List ν)

/-- An index of paths. -/
abbrev PathIndex (ν : Type) := AList fun _ : NameOfFile => List ν

section Scan

variable {ν : Type} [OsName ν] (base : List ν) {collision : CollisionStrategy}

/-- The file name of the protocol that a relative path has. -/
def nofOf (rel : List ν) : NameOfFile :=
  ⟨crc16Ibm (OsName.toStringLossy rel)⟩

/-- A path for a file name, if the index has none (the last match of `scan_dir`). -/
def insertPath (collision : CollisionStrategy) (idx : PathIndex ν) (nof : NameOfFile)
    (canon : List ν) : Except FileTransferError (PathIndex ν) :=
  if nof ∈ idx then
    match collision with
    | .error => .error (.collision nof)
    | .keepFirst => .ok idx
    | .keepLast => .ok (idx.insert nof canon)
  else .ok (idx.insert nof canon)

variable [DecidableEq ν]

/-- A canonical path, if it lies under the base. -/
def scanCanonical (base : List ν) (collision : CollisionStrategy) (idx : PathIndex ν)
    (canon : List ν) : Except FileTransferError (PathIndex ν) :=
  if ¬ base <+: canon then .ok idx
  else
    match canon.dropPrefix? base with
    | none => .ok idx
    | some rel => insertPath collision idx (nofOf rel) canon

/-- One entry (the body of the loop of `scan_dir`). -/
def scanPath (base : List ν) (collision : CollisionStrategy) (idx : PathIndex ν)
    (entry : Except IoError (DirEntry ν)) : Except FileTransferError (PathIndex ν) := do
  let entry ← entry.mapError .ofIo
  let fileType ← entry.fileType.mapError .ofIo
  if fileType ≠ .file then pure idx
  else if OsName.extension entry.name = some partialExtension then pure idx
  else
    let canon ← entry.canonical.mapError .ofIo
    scanCanonical base collision idx canon

/-- **The scan** (`scan_dir`), of what the operating system lists. -/
def scanDir (base : List ν) (collision : CollisionStrategy)
    (entries : Except IoError (List (Except IoError (DirEntry ν)))) :
    Except FileTransferError (PathIndex ν) := do
  let entries ← entries.mapError .ofIo
  entries.foldlM (scanPath base collision) ∅

/-! ## The files that belong into the index -/

/-- **A file that belongs into the index**, with its path: a regular file that is
complete and lies under the base. -/
structure DirEntry.Eligible (base : List ν) (entry : DirEntry ν) (path : List ν) : Prop where
  isFile : entry.fileType = .ok .file
  complete : OsName.extension entry.name ≠ some partialExtension
  canonical : entry.canonical = .ok path
  under : base <+: path

/-- The file name of a path under the base. -/
def nofUnder (base path : List ν) : NameOfFile :=
  nofOf (path.drop base.length)

/-- The operating system answers what it is asked about an entry. -/
structure DirEntry.Readable (entry : DirEntry ν) : Prop where
  fileType : ∃ fileType, entry.fileType = .ok fileType
  canonical : entry.fileType = .ok .file → OsName.extension entry.name ≠ some partialExtension →
    ∃ path, entry.canonical = .ok path

/-- The file name and the path of a file that belongs into the index. -/
def DirEntry.keyed (entry : DirEntry ν) : Option (NameOfFile × List ν) :=
  match entry.fileType, entry.canonical with
  | .ok .file, .ok path =>
    if OsName.extension entry.name ≠ some partialExtension ∧ base <+: path then
      some (nofUnder base path, path)
    else none
  | _, _ => none

variable {base} {entry : DirEntry ν} {nof : NameOfFile} {path : List ν}

theorem DirEntry.keyed_eq_some_iff :
    entry.keyed base = some (nof, path) ↔ entry.Eligible base path ∧ nofUnder base path = nof := by
  unfold keyed
  constructor
  · intro h
    split at h
    · rename_i hfile hpath
      split at h
      · rename_i hcond
        cases h
        exact ⟨⟨hfile, hcond.1, hpath, hcond.2⟩, rfl⟩
      · cases h
    · cases h
  · rintro ⟨helig, rfl⟩
    rw [helig.isFile, helig.canonical]
    exact if_pos ⟨helig.complete, helig.under⟩

/-- `CollisionStrategy`, as a policy for keys that clash. -/
def CollisionStrategy.policy : CollisionStrategy → Keyed.Policy
  | .error => .reject
  | .keepFirst => .first
  | .keepLast => .last

theorem scanCanonical_of_not_under (h : ¬ base <+: path) (idx : PathIndex ν) :
    scanCanonical base collision idx path = .ok idx :=
  if_pos h

theorem scanCanonical_of_under (h : base <+: path) (idx : PathIndex ν) :
    scanCanonical base collision idx path = insertPath collision idx (nofUnder base path) path := by
  have hdrop : path.dropPrefix? base = some (path.drop base.length) := by
    obtain ⟨rel, rfl⟩ := h
    rw [List.dropPrefix?_eq_some_iff, List.drop_left]
    exact ⟨base, rfl, beq_self_eq_true base⟩
  rw [scanCanonical, if_neg (not_not.mpr h), hdrop]
  rfl

/-- A path goes into the index as the policy says. -/
theorem insertPath_eq (h : entry.keyed base = some (nof, path)) (idx : PathIndex ν) :
    insertPath collision idx nof path
      = (Keyed.step collision.policy (DirEntry.keyed base) idx entry).mapError .collision := by
  unfold insertPath Keyed.step
  rw [h]
  dsimp only
  split
  · cases collision <;> rfl
  · rfl

/-- **The body of the loop** is a step of the index of keys. -/
theorem scanPath_eq (h : entry.Readable) (idx : PathIndex ν) :
    scanPath base collision idx (.ok entry)
      = (Keyed.step collision.policy (DirEntry.keyed base) idx entry).mapError .collision := by
  -- an entry that is passed over
  have hskip (hnot : ∀ path, ¬ entry.Eligible base path) : .ok idx
      = (Keyed.step collision.policy (DirEntry.keyed base) idx entry).mapError
        FileTransferError.collision := by
    have hnone : entry.keyed base = none :=
      Option.eq_none_iff_forall_ne_some.mpr fun p hp =>
        hnot p.2 (DirEntry.keyed_eq_some_iff.mp hp).1
    rw [Keyed.step, hnone]
    rfl
  obtain ⟨fileType, htype⟩ := h.fileType
  simp only [scanPath, Except.mapError, bind, Except.bind, htype]
  split
  · rename_i hfile
    refine hskip fun path helig => hfile ?_
    have htype' := helig.isFile
    rw [htype] at htype'
    cases htype'
    rfl
  · rename_i hfile
    obtain rfl := not_not.mp hfile
    split
    · rename_i hpart
      exact hskip fun path helig => helig.complete hpart
    · rename_i hcomplete
      obtain ⟨path, hpath⟩ := h.canonical htype hcomplete
      rw [hpath]
      dsimp only
      by_cases hunder : base <+: path
      · rw [scanCanonical_of_under hunder]
        exact insertPath_eq (DirEntry.keyed_eq_some_iff.mpr
          ⟨⟨htype, hcomplete, hpath, hunder⟩, rfl⟩) idx
      · rw [scanCanonical_of_not_under hunder]
        refine hskip fun path' helig => hunder ?_
        have hpath' := helig.canonical
        rw [hpath] at hpath'
        cases hpath'
        exact helig.under

/-- **The loop** makes the index of the keys. -/
theorem scanDir_eq_build {entries : List (DirEntry ν)} (h : ∀ e ∈ entries, e.Readable) :
    scanDir base collision (.ok (entries.map .ok))
      = (Keyed.build collision.policy (DirEntry.keyed base) entries).mapError .collision := by
  show (entries.map .ok).foldlM (scanPath base collision) ∅ = _
  unfold Keyed.build
  generalize (∅ : PathIndex ν) = idx
  induction entries generalizing idx with
  | nil => rfl
  | cons entry entries ih =>
    rw [List.map_cons, List.foldlM_cons, List.foldlM_cons, scanPath_eq (h entry List.mem_cons_self)]
    cases Keyed.step collision.policy (DirEntry.keyed base) idx entry with
    | error nof => rfl
    | ok idx' => exact ih (fun e he => h e (List.mem_cons_of_mem _ he)) idx'

/-! ## What the index is -/

/-- **The entry is a file with this file name and this path.** -/
def DirEntry.Has (base : List ν) (nof : NameOfFile) (path : List ν) (entry : DirEntry ν) : Prop :=
  entry.Eligible base path ∧ nofUnder base path = nof

/-- The path is that of the first file with this file name. -/
def IsFirst (base : List ν) (nof : NameOfFile) (path : List ν)
    (entries : List (DirEntry ν)) : Prop :=
  ∃ before entry after, entries = before ++ entry :: after ∧ entry.Has base nof path
    ∧ ∀ e ∈ before, ∀ path', ¬ e.Has base nof path'

/-- The path is that of the last file with this file name. -/
def IsLast (base : List ν) (nof : NameOfFile) (path : List ν)
    (entries : List (DirEntry ν)) : Prop :=
  ∃ before entry after, entries = before ++ entry :: after ∧ entry.Has base nof path
    ∧ ∀ e ∈ after, ∀ path', ¬ e.Has base nof path'

/-- No two files have one file name. -/
def NofsDistinct (base : List ν) (entries : List (DirEntry ν)) : Prop :=
  entries.Pairwise fun e e' => ∀ path path', e.Eligible base path → e'.Eligible base path' →
    nofUnder base path ≠ nofUnder base path'

section Keys

variable {entries : List (DirEntry ν)} {nof : NameOfFile} {path : List ν}

theorem occurs_iff : Keyed.Occurs (DirEntry.keyed base) nof entries
      ↔ ∃ e ∈ entries, ∃ path, e.Has base nof path := by
  unfold Keyed.Occurs DirEntry.Has
  simp only [DirEntry.keyed_eq_some_iff]

theorem not_occurs_iff : ¬ Keyed.Occurs (DirEntry.keyed base) nof entries
      ↔ ∀ e ∈ entries, ∀ path, ¬ e.Has base nof path := by
  rw [occurs_iff]
  push Not
  rfl

theorem isFirst_iff :
    Keyed.FirstAt (DirEntry.keyed base) nof path entries ↔ IsFirst base nof path entries := by
  unfold Keyed.FirstAt IsFirst
  simp only [DirEntry.keyed_eq_some_iff, not_occurs_iff]
  rfl

theorem isLast_iff :
    Keyed.LastAt (DirEntry.keyed base) nof path entries ↔ IsLast base nof path entries := by
  unfold Keyed.LastAt IsLast
  simp only [DirEntry.keyed_eq_some_iff, not_occurs_iff]
  rfl

theorem distinct_iff :
    Keyed.Distinct (DirEntry.keyed base) entries ↔ NofsDistinct base entries := by
  unfold Keyed.Distinct NofsDistinct
  have hpair (e e' : DirEntry ν) :
      (∀ nof path path', e.keyed base = some (nof, path) → e'.keyed base ≠ some (nof, path'))
        ↔ ∀ path path', e.Eligible base path → e'.Eligible base path' →
          nofUnder base path ≠ nofUnder base path' := by
    constructor
    · intro h path path' helig helig' heq
      exact h _ path path' (DirEntry.keyed_eq_some_iff.mpr ⟨helig, heq⟩)
        (DirEntry.keyed_eq_some_iff.mpr ⟨helig', rfl⟩)
    · intro h nof path path' hkey hkey'
      obtain ⟨helig, hnof⟩ := DirEntry.keyed_eq_some_iff.mp hkey
      obtain ⟨helig', hnof'⟩ := DirEntry.keyed_eq_some_iff.mp hkey'
      exact h path path' helig helig' (hnof.trans hnof'.symm)
  simp only [hpair]

end Keys

/-- **The index is that of the directory**: whatever the order in which the
operating system lists the entries, the keys of the index are the file names of the
files that belong into it, with the paths of such files, of the first or of the last
one under the strategy that says so. The scan fails only under the strategy that
does not accept that two files have one file name, and only if two of them do. -/
theorem scanDir_correct (base : List ν) (collision : CollisionStrategy)
    {entries : List (DirEntry ν)} (hio : ∀ e ∈ entries, e.Readable) :
    (∀ index, scanDir base collision (.ok (entries.map .ok)) = .ok index →
      (∀ nof, nof ∈ index ↔ ∃ e ∈ entries, ∃ path, e.Has base nof path)
        ∧ (∀ nof path, index.lookup nof = some path → ∃ e ∈ entries, e.Has base nof path)
        ∧ (collision = .keepFirst → ∀ nof path,
          index.lookup nof = some path ↔ IsFirst base nof path entries)
        ∧ (collision = .keepLast → ∀ nof path,
          index.lookup nof = some path ↔ IsLast base nof path entries))
      ∧ ((∃ index, scanDir base collision (.ok (entries.map .ok)) = .ok index)
        ↔ (collision = .error → NofsDistinct base entries)) := by
  rw [scanDir_eq_build hio]
  have hreject : collision.policy = .reject ↔ collision = .error := by
    cases collision <;> decide
  obtain ⟨m, hm, hbuilt⟩ | ⟨nof, hnof, hpolicy, hclash⟩ :=
    Keyed.build_spec collision.policy (DirEntry.keyed base) entries
  · rw [hm]
    constructor
    · rintro index ⟨⟩
      refine ⟨fun nof => ?_, fun nof path hlookup => ?_, ?_, ?_⟩
      · rw [hbuilt.mem, occurs_iff]
      · obtain ⟨e, he, hkey⟩ := hbuilt.exists_of_lookup hlookup
        exact ⟨e, he, DirEntry.keyed_eq_some_iff.mp hkey⟩
      · rintro rfl nof path
        rw [hbuilt.first (by decide), isFirst_iff]
      · rintro rfl nof path
        rw [hbuilt.last (by decide), isLast_iff]
    · refine iff_of_true ⟨m, rfl⟩ fun herror => ?_
      exact distinct_iff.mp (hbuilt.distinct (hreject.mpr herror))
  · rw [hnof]
    constructor
    · rintro index ⟨⟩
    · refine iff_of_false (fun ⟨index, hindex⟩ => by cases hindex) fun h => ?_
      exact hclash (distinct_iff.mpr (h (hreject.mp hpolicy)))

end Scan

/-- A file and a directory in a directory `d`. -/
def fileAndDirectory : List (DirEntry FileName) :=
  [⟨⟨['a'], by decide⟩, .ok .file, .ok [⟨['d'], by decide⟩, ⟨['a'], by decide⟩]⟩,
    ⟨⟨['b'], by decide⟩, .ok .directory, .error .notFound⟩]

/-- The file is in the index. -/
theorem scanDir_correct_fileAndDirectory :
    ∃ index, scanDir [⟨['d'], by decide⟩] .error (.ok (fileAndDirectory.map .ok)) = .ok index
      ∧ nofOf (ν := FileName) [⟨['a'], by decide⟩] ∈ index := by
  have hio : ∀ e ∈ fileAndDirectory, e.Readable := by
    intro e he
    obtain rfl | rfl := List.mem_pair.mp he
    · exact ⟨⟨_, rfl⟩, fun _ _ => ⟨_, rfl⟩⟩
    · exact ⟨⟨_, rfl⟩, fun hfile => by cases hfile⟩
  have hfile := scanDir_correct [⟨['d'], by decide⟩] .error hio
  obtain ⟨index, hindex⟩ := hfile.2.mpr fun _ => by
    refine List.pairwise_pair.mpr fun path path' helig helig' => ?_
    cases helig'.isFile
  refine ⟨index, hindex, ((hfile.1 index hindex).1 _).mpr
    ⟨_, List.mem_cons_self, [⟨['d'], by decide⟩, ⟨['a'], by decide⟩], ?_⟩⟩
  exact ⟨⟨rfl, by decide, rfl, by decide⟩, rfl⟩

/-! ## The scan of a directory -/

/-- What a name stands for, as the type of an entry. -/
def nodeType : Node → FileType
  | .file _ => .file
  | .directory _ => .directory
  | .link _ => .symlink

section Directory

variable (files : Directory FileName) (base : List FileName) {p : FsFileTransferProvider}
  {index : FileIndex}

/-- **A name of the directory, as an entry.** A file is where its name says. Where a
link leads to does not matter, as it is no file. -/
def entryOf (name : FileName) : DirEntry FileName where
  name := name
  fileType :=
    match files.nodes.lookup name with
    | some node => .ok (nodeType node)
    | none => .error .notFound
  canonical := .ok (base ++ [name])

/-- The file name of the protocol and the name of a complete file. -/
def keyedName (name : FileName) : Option (NameOfFile × FileName) :=
  match files.nodes.lookup name with
  | some (.file _) =>
    if name.extension = some partialExtension then none else some (name.nof, name)
  | _ => none

variable {files base} {nof : NameOfFile} {name : FileName}

theorem keyedName_eq_some_iff {x name : FileName} : keyedName files x = some (nof, name)
      ↔ x = name ∧ (∃ n, files.nodes.lookup name = some (.file n))
        ∧ name.extension ≠ some partialExtension ∧ name.nof = nof := by
  unfold keyedName
  constructor
  · intro h
    split at h
    · rename_i n hnode
      split at h
      · cases h
      · rename_i hpart
        cases h
        exact ⟨rfl, ⟨n, hnode⟩, hpart, rfl⟩
    · cases h
  · rintro ⟨rfl, ⟨n, hnode⟩, hpart, rfl⟩
    rw [hnode]
    exact if_neg hpart

theorem scanEntry_eq (collision : CollisionStrategy) (index : FileIndex) (name : FileName) :
    scanEntry collision files index name
      = (Keyed.step collision.policy (keyedName files) index name).mapError .collision := by
  unfold scanEntry Keyed.step keyedName
  cases files.nodes.lookup name with
  | none => rfl
  | some node =>
    cases node with
    | file n =>
      dsimp only
      by_cases hpart : name.extension = some partialExtension
      · rw [if_pos hpart, if_pos hpart]
        rfl
      · rw [if_neg hpart, if_neg hpart]
        dsimp only
        split
        · cases collision <;> rfl
        · rfl
    | directory | link => rfl

/-- The scan of names is a loop over keys, too. -/
theorem scanDir_names (p : FsFileTransferProvider) (files : Directory FileName) :
    p.scanDir files = (Keyed.build p.collision.policy (keyedName files)
        (p.readDir.order files.nodes.keys)).mapError .collision := by
  unfold FsFileTransferProvider.scanDir Keyed.build
  generalize p.readDir.order files.nodes.keys = names
  generalize (∅ : FileIndex) = index
  induction names generalizing index with
  | nil => rfl
  | cons name names ih =>
    rw [List.foldlM_cons, List.foldlM_cons, scanEntry_eq]
    cases Keyed.step p.collision.policy (keyedName files) index name with
    | error nof => rfl
    | ok index' => exact ih index'

theorem built_of_scanDir (hscan : p.scanDir files = .ok index) :
    Keyed.Built p.collision.policy (keyedName files) (p.readDir.order files.nodes.keys) index := by
  rw [scanDir_names] at hscan
  cases hbuild : Keyed.build p.collision.policy (keyedName files)
      (p.readDir.order files.nodes.keys) with
  | error nof =>
    rw [hbuild] at hscan
    cases hscan
  | ok m =>
    rw [hbuild] at hscan
    cases hscan
    exact Keyed.built_of_build hbuild

theorem nofUnder_name (name : FileName) : nofUnder base (base ++ [name]) = name.nof := by
  rw [nofUnder, List.drop_left]
  show NameOfFile.mk (crc16Ibm (List.intercalate _ [_])) = _
  rw [List.intercalate_singleton]
  rfl

/-- The two scans agree on every name: on whether it is entered, and under which key. -/
theorem keyed_entryOf (files : Directory FileName) (base : List FileName) (name : FileName) :
    (entryOf files base name).keyed base
      = (keyedName files name).map (Prod.map id (base ++ [·])) := by
  unfold DirEntry.keyed keyedName entryOf
  dsimp only
  cases files.nodes.lookup name with
  | none => rfl
  | some node =>
    cases node with
    | file n =>
      dsimp only [nodeType]
      by_cases hpart : name.extension = some partialExtension
      · rw [if_pos hpart, if_neg fun h => h.1 hpart]
        rfl
      · rw [if_neg hpart, if_pos ⟨hpart, List.prefix_append _ _⟩, nofUnder_name]
        rfl
    | directory | link => rfl

/-- **The scan by names is the scan of the entries**: over every directory, the two give
the same index, with names for paths, or fail with the same collision. -/
theorem scanDir_directory (p : FsFileTransferProvider) (files : Directory FileName)
    (base : List FileName) :
    let entries := (p.readDir.order files.nodes.keys).map (entryOf files base)
    Keyed.Mapped (base ++ [·]) (p.scanDir files)
      (scanDir base p.collision (.ok (entries.map .ok))) := by
  intro entries
  have hio : ∀ e ∈ entries, e.Readable := by
    intro e he
    obtain ⟨name, hname, rfl⟩ := List.mem_map.mp he
    have hmem : name ∈ files.nodes := AList.mem_keys.mp ((p.readDir.perm _).mem_iff.mp hname)
    obtain ⟨node, hnode⟩ := Option.isSome_iff_exists.mp (AList.lookup_isSome.mpr hmem)
    refine ⟨⟨nodeType node, ?_⟩, fun _ _ => ⟨_, rfl⟩⟩
    unfold entryOf
    rw [hnode]
  rw [scanDir_eq_build hio, scanDir_names]
  exact (Keyed.build_map p.collision.policy (keyed_entryOf files base) _).mapError _

end Directory

end FileTransfer
