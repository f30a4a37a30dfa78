import Iec60870.FileTransferScan
import Iec60870.FileTransferTime
import Mathlib.Data.List.Sort

/-!
# The list of the files

The file system provider lists the files of its index in the order of their file
names (`list_directory` of `file_transfer/fs.rs`). Files of which the operating
system does not give the metadata are passed over. The entry of the last file is
flagged, so that whoever reads the list knows where it ends; but which one is the
last is decided by its place in the index, before any file is passed over. So the
flag is missing if the last file is one of those (`listDirectory_listed_iff`).
-/

namespace FileTransfer

open Iec60870

/-! ## The code -/

/-- What the operating system says of a file (`Metadata`). -/
structure OsMetadata where
  len : ℕ
  modified : Except IoError SystemTime

/-- The metadata of a file, with what is only listed (`FileMetadata`). -/
structure ListedMetadata extends FileMetadata where
  status : Sof
  modified : SystemTime
  modifiedCp56 : Cp56Time2a

/-- An entry of the list (`DirectoryEntry`). -/
structure ListedEntry where
  nof : NameOfFile
  metadata : ListedMetadata

section Listing

variable {ψ : Type} (metadata : ψ → Except IoError OsMetadata)
  {files : List (NameOfFile × ψ)} {file : NameOfFile × ψ}
  {index : AList fun _ : NameOfFile => ψ}

/-- The time at which a file was changed, or else the epoch. -/
def OsMetadata.modifiedOr (m : OsMetadata) : SystemTime :=
  match m.modified with
  | .ok t => t
  | .error _ => .unixEpoch

/-- The entry of a file. -/
def listedEntry (nof : NameOfFile) (m : OsMetadata) (last : Bool) : ListedEntry where
  nof := nof
  metadata :=
    { length := clampU32 m.len
      status := ⟨0, last, false, false⟩
      modified := m.modifiedOr
      modifiedCp56 := systemTimeToCp56 m.modifiedOr }

/-- One file (the body of the loop of `list_directory`). -/
def listFile (total : ℕ) (out : List ListedEntry) (file : (NameOfFile × ψ) × ℕ) :
    List ListedEntry :=
  match metadata file.1.2 with
  | .error _ => out
  | .ok m => out ++ [listedEntry file.1.1 m (file.2 + 1 == total)]

/-- The files of an index, in the order of their file names. -/
def sortedFiles (index : AList fun _ : NameOfFile => ψ) : List (NameOfFile × ψ) :=
  (index.entries.map fun e => (e.1, e.2)).insertionSort fun a b => a.1.raw ≤ b.1.raw

/-- **The list of the files** (`list_directory`). The index is in no order. -/
def listDirectory (index : AList fun _ : NameOfFile => ψ) :
    Except FileTransferError (List ListedEntry) :=
  .ok ((sortedFiles index).zipIdx.foldl (listFile metadata (sortedFiles index).length) [])

/-! ## What the list is -/

/-- The metadata of the file can be read. -/
def CanRead (path : ψ) : Prop := ∃ m, metadata path = .ok m

/-- **What the list has to be**: in ascending order, with the files that can be read
and no others, and with the flag at its last entry and at no other. -/
structure Listed (index : AList fun _ : NameOfFile => ψ) (out : List ListedEntry) : Prop where
  ascending : out.Pairwise fun a b => a.nof.raw < b.nof.raw
  readable : ∀ e ∈ out, ∃ path m, index.lookup e.nof = some path ∧ metadata path = .ok m
    ∧ e = listedEntry e.nof m e.metadata.status.lastFile
  complete : ∀ nof path, index.lookup nof = some path → CanRead metadata path →
    ∃ e ∈ out, e.nof = nof
  terminated : ∀ init e, out = init ++ [e] →
    e.metadata.status.lastFile = true ∧ ∀ e' ∈ init, e'.metadata.status.lastFile = false

/-- **The last file of the index can be read**, or none can. -/
def LastReadable (index : AList fun _ : NameOfFile => ψ) : Prop :=
  ∀ nof path, index.lookup nof = some path → (∀ nof' ∈ index, nof'.raw ≤ nof.raw) →
    (∃ nof' path', index.lookup nof' = some path' ∧ CanRead metadata path') →
    CanRead metadata path

/-- The entry of a file, if its metadata can be read. -/
def readFile (last : Bool) (file : NameOfFile × ψ) : Option ListedEntry :=
  match metadata file.2 with
  | .error _ => none
  | .ok m => some (listedEntry file.1 m last)

variable {metadata}

theorem listFile_eq (total : ℕ) (out : List ListedEntry) (file : NameOfFile × ψ) (i : ℕ) :
    listFile metadata total out (file, i)
      = out ++ (readFile metadata (i + 1 == total) file).toList := by
  unfold listFile readFile
  dsimp only
  cases metadata file.2 with
  | error e => exact (List.append_nil out).symm
  | ok m => rfl

/-- Files that are not the last one. -/
theorem foldl_listFile {total : ℕ} (files : List (NameOfFile × ψ)) :
    ∀ (i : ℕ) (out : List ListedEntry), i + files.length < total →
      (files.zipIdx i).foldl (listFile metadata total) out
        = out ++ files.filterMap (readFile metadata false) := by
  induction files with
  | nil =>
    intro i out _
    exact (List.append_nil out).symm
  | cons file files ih =>
    intro i out hlt
    rw [List.length_cons] at hlt
    have hlast : (i + 1 == total) = false := beq_false_of_ne (by omega)
    rw [List.zipIdx_cons, List.foldl_cons, listFile_eq, ih (i + 1) _ (by omega), hlast,
      List.append_assoc]
    cases hread : readFile metadata false file with
    | none => rw [List.filterMap_cons_none hread]; rfl
    | some entry => rw [List.filterMap_cons_some hread]; rfl

/-- **The list in parts**: the last file of the index, and those before it. -/
theorem listDirectory_eq {index : AList fun _ : NameOfFile => ψ}
    (h : sortedFiles index = files ++ [file]) : listDirectory metadata index
      = .ok (files.filterMap (readFile metadata false)
        ++ (readFile metadata true file).toList) := by
  unfold listDirectory
  rw [h, List.zipIdx_append, List.foldl_append,
    foldl_listFile files 0 [] (by rw [List.length_append, List.length_singleton]; omega)]
  show Except.ok (listFile _ _ _ (file, _)) = _
  rw [listFile_eq, List.length_append, List.length_singleton, Nat.zero_add, beq_self_eq_true,
    List.nil_append]

/-! ## The order -/

section Sorted

variable {index : AList fun _ : NameOfFile => ψ}

theorem mem_sortedFiles {nof : NameOfFile} {path : ψ} :
    (nof, path) ∈ sortedFiles index ↔ index.lookup nof = some path := by
  unfold sortedFiles
  rw [List.mem_insertionSort, List.mem_map, ← Option.mem_def, AList.mem_lookup_iff]
  constructor
  · rintro ⟨⟨_, _⟩, he, ⟨⟩⟩
    exact he
  · intro he
    exact ⟨⟨nof, path⟩, he, rfl⟩

/-- No two files of an index have one file name. -/
theorem pairwise_sortedFiles (index : AList fun _ : NameOfFile => ψ) :
    (sortedFiles index).Pairwise fun a b => a.1.raw < b.1.raw := by
  have hle : (sortedFiles index).Pairwise fun a b => a.1.raw ≤ b.1.raw := by
    have : Std.Total fun a b : NameOfFile × ψ => a.1.raw ≤ b.1.raw :=
      ⟨fun a b => UInt16.le_total a.1.raw b.1.raw⟩
    have : IsTrans (NameOfFile × ψ) fun a b => a.1.raw ≤ b.1.raw :=
      ⟨fun a b c => UInt16.le_trans⟩
    exact List.pairwise_insertionSort _ _
  have hne : (sortedFiles index).Pairwise fun a b => a.1 ≠ b.1 := by
    have hperm := List.perm_insertionSort (fun a b : NameOfFile × ψ => a.1.raw ≤ b.1.raw)
      (index.entries.map fun e => (e.1, e.2))
    refine (hperm.pairwise_iff fun h => h.symm).mpr (List.pairwise_map.mpr ?_)
    exact List.pairwise_map.mp index.nodupKeys
  refine (hle.and hne).imp fun {a b} h => UInt16.lt_of_le_of_ne h.1 fun heq => h.2 ?_
  exact congrArg NameOfFile.mk heq

end Sorted

/-! ## The flag -/

section Flag

variable {last : Bool} {file : NameOfFile × ψ} {e : ListedEntry} {files : List (NameOfFile × ψ)}

theorem readFile_eq_some_iff : readFile metadata last file = some e
      ↔ ∃ m, metadata file.2 = .ok m ∧ e = listedEntry file.1 m last := by
  unfold readFile
  cases metadata file.2 with
  | error err =>
    constructor
    · rintro ⟨⟩
    · rintro ⟨m, ⟨⟩, -⟩
  | ok m =>
    constructor
    · rintro ⟨⟩
      exact ⟨m, rfl, rfl⟩
    · rintro ⟨m', ⟨⟩, rfl⟩
      rfl

theorem canRead_iff_readFile (file : NameOfFile × ψ) (last : Bool) :
    CanRead metadata file.2 ↔ ∃ e, readFile metadata last file = some e := by
  simp only [readFile_eq_some_iff]
  exact ⟨fun ⟨m, hm⟩ => ⟨_, m, hm, rfl⟩, fun ⟨_, m, hm, _⟩ => ⟨m, hm⟩⟩

/-- **The flag is at the last entry** exactly if the last file can be read, or no
other one. -/
theorem terminated_iff {out : List ListedEntry}
    (hout : out = files.filterMap (readFile metadata false)
      ++ (readFile metadata true file).toList) : (∀ init e, out = init ++ [e] →
      e.metadata.status.lastFile = true ∧ ∀ e' ∈ init, e'.metadata.status.lastFile = false)
      ↔ ((∃ f ∈ files, CanRead metadata f.2) → CanRead metadata file.2) := by
  have hflag : ∀ e ∈ files.filterMap (readFile metadata false),
      e.metadata.status.lastFile = false := by
    intro e he
    obtain ⟨f, -, hf⟩ := List.mem_filterMap.mp he
    obtain ⟨m, -, rfl⟩ := readFile_eq_some_iff.mp hf
    rfl
  cases hread : readFile metadata true file with
  | some entry =>
    obtain ⟨m, hm, hentry⟩ := readFile_eq_some_iff.mp hread
    refine iff_of_true (fun init e heq => ?_) fun _ => ⟨m, hm⟩
    rw [hout, hread] at heq
    obtain ⟨rfl, hlast⟩ := List.append_inj' heq rfl
    cases hlast
    rw [hentry]
    exact ⟨rfl, hflag⟩
  | none =>
    have hcannot : ¬ CanRead metadata file.2 := by
      rw [canRead_iff_readFile file true, hread]
      rintro ⟨e, ⟨⟩⟩
    rw [hread] at hout
    constructor
    · rintro hterm ⟨f, hf, hcan⟩
      -- the list is not empty, and its last entry has no flag
      obtain ⟨e, he⟩ := (canRead_iff_readFile f false).mp hcan
      have hmem : e ∈ out := by
        rw [hout]
        exact List.mem_append_left _ (List.mem_filterMap.mpr ⟨f, hf, he⟩)
      obtain ⟨init, last, hinit⟩ := List.eq_nil_or_concat out |>.resolve_left
        (List.ne_nil_of_mem hmem)
      rw [List.concat_eq_append] at hinit
      have hlast := (hterm init last hinit).1
      rw [hflag last] at hlast
      · cases hlast
      · have hmem' : last ∈ out := by
          rw [hinit]
          exact List.mem_append_right _ (List.mem_singleton_self last)
        rw [hout] at hmem'
        exact (List.mem_append.mp hmem').resolve_right fun h => by cases h
    · intro hnone init e heq
      have hmem : e ∈ out := by
        rw [heq]
        exact List.mem_append_right _ (List.mem_singleton_self e)
      rw [hout] at hmem
      obtain ⟨f, hf, he⟩ := List.mem_filterMap.mp
        ((List.mem_append.mp hmem).resolve_right fun h => by cases h)
      exact absurd (hnone ⟨f, hf, (canRead_iff_readFile f false).mpr ⟨e, he⟩⟩) hcannot

end Flag

/-! ## The list -/

/-- The order and the entries of the list, whatever can be read. -/
theorem listed_of_terminated (h : sortedFiles index = files ++ [file]) {out : List ListedEntry}
    (hout : out = files.filterMap (readFile metadata false)
      ++ (readFile metadata true file).toList) (hterm : ∀ init e, out = init ++ [e] →
      e.metadata.status.lastFile = true ∧ ∀ e' ∈ init, e'.metadata.status.lastFile = false) :
    Listed metadata index out := by
  have hsorted := pairwise_sortedFiles index
  rw [h, List.pairwise_append] at hsorted
  have hmem {e : ListedEntry} (he : e ∈ out) :
      ∃ f ∈ files ++ [file], ∃ last, readFile metadata last f = some e := by
    rw [hout] at he
    obtain he | he := List.mem_append.mp he
    · obtain ⟨f, hf, he⟩ := List.mem_filterMap.mp he
      exact ⟨f, List.mem_append_left _ hf, false, he⟩
    · exact ⟨file, List.mem_append_right _ (List.mem_singleton_self file), true,
        Option.mem_toList.mp he⟩
  refine ⟨?_, fun e he => ?_, fun nof path hlookup hcan => ?_, hterm⟩
  · rw [hout, List.pairwise_append]
    refine ⟨?_, ?_, ?_⟩
    · refine hsorted.1.filterMap _ fun f f' hlt e he e' he' => ?_
      obtain ⟨m, -, rfl⟩ := readFile_eq_some_iff.mp he
      obtain ⟨m', -, rfl⟩ := readFile_eq_some_iff.mp he'
      exact hlt
    · cases readFile metadata true file with
      | none => exact List.Pairwise.nil
      | some e => exact List.pairwise_singleton _ e
    · intro e he e' he'
      obtain ⟨f, hf, hread⟩ := List.mem_filterMap.mp he
      obtain ⟨m, -, rfl⟩ := readFile_eq_some_iff.mp hread
      obtain ⟨m', -, rfl⟩ := readFile_eq_some_iff.mp (Option.mem_toList.mp he')
      exact hsorted.2.2 f hf file (List.mem_singleton_self file)
  · obtain ⟨f, hf, last, hread⟩ := hmem he
    obtain ⟨m, hm, rfl⟩ := readFile_eq_some_iff.mp hread
    rw [← h] at hf
    exact ⟨f.2, m, mem_sortedFiles.mp hf, hm, rfl⟩
  · rw [← mem_sortedFiles, h] at hlookup
    obtain hf | hf := List.mem_append.mp hlookup
    · obtain ⟨e, he⟩ := (canRead_iff_readFile (nof, path) false).mp hcan
      obtain ⟨m, -, heq⟩ := readFile_eq_some_iff.mp he
      refine ⟨e, ?_, heq ▸ rfl⟩
      rw [hout]
      exact List.mem_append_left _ (List.mem_filterMap.mpr ⟨_, hf, he⟩)
    · obtain rfl := List.mem_singleton.mp hf
      obtain ⟨e, he⟩ := (canRead_iff_readFile (nof, path) true).mp hcan
      obtain ⟨m, -, heq⟩ := readFile_eq_some_iff.mp he
      refine ⟨e, ?_, heq ▸ rfl⟩
      rw [hout, he]
      exact List.mem_append_right _ (List.mem_singleton_self e)

/-- The condition, in terms of the sorted files. -/
theorem lastReadable_iff (h : sortedFiles index = files ++ [file]) : LastReadable metadata index
      ↔ ((∃ f ∈ files, CanRead metadata f.2) → CanRead metadata file.2) := by
  have hsorted := pairwise_sortedFiles index
  rw [h, List.pairwise_append] at hsorted
  have hlookup (f : NameOfFile × ψ) : index.lookup f.1 = some f.2 ↔ f ∈ files ∨ f = file := by
    rw [← mem_sortedFiles, h, List.mem_append, List.mem_singleton]
  have hfile := (hlookup file).mpr (Or.inr rfl)
  constructor
  · rintro hlast ⟨f, hf, hcan⟩
    refine hlast file.1 file.2 hfile (fun nof hnof => ?_)
      ⟨f.1, f.2, (hlookup f).mpr (Or.inl hf), hcan⟩
    obtain ⟨path, hpath⟩ := Option.isSome_iff_exists.mp (AList.lookup_isSome.mpr hnof)
    obtain hmem | heq := (hlookup (nof, path)).mp hpath
    · exact UInt16.le_of_lt (hsorted.2.2 _ hmem file (List.mem_singleton_self file))
    · rw [← heq]
      exact UInt16.le_refl _
  · rintro hlast nof path hpath hmax ⟨nof', path', hpath', hcan⟩
    -- the greatest file name is that of the last file
    have heq : (nof, path) = file := by
      refine ((hlookup (nof, path)).mp hpath).resolve_left fun hmem => ?_
      have hlt := hsorted.2.2 _ hmem file (List.mem_singleton_self file)
      have hle := hmax file.1 (AList.lookup_isSome.mp (by rw [hfile]; rfl))
      rw [UInt16.lt_iff_toNat_lt] at hlt
      rw [UInt16.le_iff_toNat_le] at hle
      exact absurd hlt (Nat.not_lt.mpr hle)
    obtain hmem | heq' := (hlookup (nof', path')).mp hpath'
    · have hcan' := hlast ⟨_, hmem, hcan⟩
      rw [← heq] at hcan'
      exact hcan'
    · rw [← heq] at heq'
      cases heq'
      exact hcan

/-- A list of files of which the last one can be read. -/
theorem listed_of_lastReadable (h : LastReadable metadata index) :
    ∃ out, listDirectory metadata index = .ok out ∧ Listed metadata index out := by
  obtain hnil | ⟨files, file, hfiles⟩ := List.eq_nil_or_concat (sortedFiles index)
  · refine ⟨[], ?_, ?_⟩
    · rw [listDirectory, hnil]
      rfl
    · refine ⟨List.Pairwise.nil, fun e he => (List.not_mem_nil he).elim,
        fun nof path hpath => ?_, fun init e heq => ?_⟩
      · rw [← mem_sortedFiles, hnil] at hpath
        exact (List.not_mem_nil hpath).elim
      · exact absurd heq.symm (List.append_ne_nil_of_right_ne_nil _ (List.cons_ne_nil _ _))
  · rw [List.concat_eq_append] at hfiles
    rw [lastReadable_iff hfiles, ← terminated_iff rfl] at h
    exact ⟨_, listDirectory_eq hfiles, listed_of_terminated hfiles rfl h⟩

/-- **The list is terminated** exactly if the last file of the index can be read, or
none can. Whatever can be read, the list is in ascending order and has the files that
can be read. -/
theorem listDirectory_listed_iff (metadata : ψ → Except IoError OsMetadata)
    (index : AList fun _ : NameOfFile => ψ) :
    (∃ out, listDirectory metadata index = .ok out ∧ Listed metadata index out)
      ↔ LastReadable metadata index := by
  refine ⟨?_, listed_of_lastReadable⟩
  rintro ⟨out, hout, hlisted⟩
  obtain hnil | ⟨files, file, hfiles⟩ := List.eq_nil_or_concat (sortedFiles index)
  · intro nof path hpath
    rw [← mem_sortedFiles, hnil] at hpath
    exact (List.not_mem_nil hpath).elim
  · rw [List.concat_eq_append] at hfiles
    rw [listDirectory_eq hfiles] at hout
    cases hout
    rw [lastReadable_iff hfiles, ← terminated_iff rfl]
    exact hlisted.terminated

end Listing

/-! ## Files that are gone -/

/-- Two files. -/
def twoFiles : FileIndex :=
  (AList.insert ⟨2⟩ (uploadTarget ⟨2⟩) ∅).insert ⟨1⟩ (uploadTarget ⟨1⟩)

/-- The second one of them is gone. -/
def secondGone (path : FileName) : Except IoError OsMetadata :=
  if path = uploadTarget ⟨2⟩ then .error .notFound else .ok ⟨5, .ok .unixEpoch⟩

/-- **The list of the other one has no end**: its only entry is not flagged. -/
theorem listDirectory_fails_secondGone :
    ¬ ∃ out, listDirectory secondGone twoFiles = .ok out ∧ Listed secondGone twoFiles out := by
  rintro ⟨out, hout, hlisted⟩
  have hlist : listDirectory secondGone twoFiles
      = .ok [listedEntry ⟨1⟩ ⟨5, .ok .unixEpoch⟩ false] := rfl
  rw [hlist] at hout
  cases hout
  cases (hlisted.terminated [] _ rfl).1

end FileTransfer
