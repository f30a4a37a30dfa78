import Iec60870.Directory
import Iec60870.FileTransferFailure
import Iec60870.FileTransferWriters

/-!
# The file system provider

The provider that comes with the library (`file_transfer/fs.rs`). It keeps the
files in one directory and finds them by an index from file names of the
protocol, which are 16 bits, to names in the directory: a file has the CRC-16
of its name, and one that the index does not know is written as `upload_XXXX.bin`
with its number. A file that comes in is written under a name of its own, with
`.partial` behind the final one, and renamed when it is complete; then the
directory is scanned anew.

The service keeps its sessions apart by common address *and* file name, but the
paths depend on the file name alone, and on the index, in which a file that has
been uploaded appears under a second number. So two sessions can write to one
path at a time (`delivers_fails_sharedPath`). As long as this does not happen,
no session disturbs another, however their calls are interleaved: a transfer
that is completed leaves exactly its own segments at the final path
(`delivers_of_apart`).

The base directory is all there is of the file system, and nobody else works in
it. An operation takes effect at once, and fails only because of what is in the
directory: that the disk is full, or that a permission is missing, is left out.
-/

namespace FileTransfer

open Iec60870 Machine

/-! ## Names -/

/-- **A name in the base directory.** Names that are not Unicode are left out. -/
def FileName := { name : List Char // name ≠ [] }

instance : DecidableEq FileName :=
  inferInstanceAs (DecidableEq { name : List Char // name ≠ [] })

/-- The extension of a file that is not complete. -/
def partialExtension : List Char := ['p', 'a', 'r', 't', 'i', 'a', 'l']

/-- The extension of a name (`Path::extension`): what comes after the last dot,
if there is something in front of it. -/
def FileName.extension (name : FileName) : Option (List Char) :=
  match name.1.reverse.dropWhile (· ≠ '.') with
  | _ :: _ :: _ => some (name.1.reverse.takeWhile (· ≠ '.')).reverse
  | _ => none

/-- `with_partial_suffix` -/
def FileName.withPartialSuffix (path : FileName) : FileName :=
  ⟨path.1 ++ '.' :: partialExtension, by simp⟩

def hexDigit (n : ℕ) : Char :=
  if n < 10 then Char.ofNat (48 + n) else Char.ofNat (55 + n)

/-- A number with four hexadecimal digits. -/
def hex4 (n : ℕ) : List Char :=
  [n / 4096 % 16, n / 256 % 16, n / 16 % 16, n % 16].map hexDigit

/-- The name for a file that the index does not know (`upload_target`). -/
def uploadTarget (nof : NameOfFile) : FileName :=
  ⟨['u', 'p', 'l', 'o', 'a', 'd', '_'] ++ hex4 nof.raw.toNat ++ ['.', 'b', 'i', 'n'], by simp⟩

namespace FileName

variable {name name' : FileName}

theorem extension_withPartialSuffix (name : FileName) :
    name.withPartialSuffix.extension = some partialExtension := by
  obtain ⟨c, cs, hcs⟩ := List.exists_cons_of_ne_nil (List.reverse_ne_nil_iff.mpr name.2)
  have hreverse : name.withPartialSuffix.1.reverse
      = partialExtension.reverse ++ '.' :: c :: cs := by
    rw [withPartialSuffix, List.reverse_append, hcs]
    rfl
  unfold extension
  rw [hreverse]
  rfl

theorem withPartialSuffix_inj (h : name.withPartialSuffix = name'.withPartialSuffix) :
    name = name' :=
  Subtype.ext (List.append_left_injective _ (congrArg Subtype.val h))

/-- A name that is not one of an incomplete file. -/
theorem ne_withPartialSuffix (h : name.extension ≠ some partialExtension) :
    name ≠ name'.withPartialSuffix := by
  intro heq
  rw [heq, extension_withPartialSuffix] at h
  exact h rfl

end FileName

theorem extension_uploadTarget (nof : NameOfFile) :
    (uploadTarget nof).extension ≠ some partialExtension := by
  have h : (uploadTarget nof).extension = some ['b', 'i', 'n'] := rfl
  rw [h]
  decide

/-! ## The index -/

/-- One row of `CRC16_IBM_TABLE`. -/
def crc16IbmTable (i : UInt8) : UInt16 :=
  (fun c : UInt16 => if c &&& 1 ≠ 0 then (c >>> 1) ^^^ 0xA001 else c >>> 1)^[8] i.toUInt16

/-- `crc16_ibm` -/
def crc16Ibm (data : Bytes) : UInt16 :=
  data.foldl (fun crc b => (crc >>> 8) ^^^ crc16IbmTable (crc.toUInt8 ^^^ b)) 0

/-- The file name of the protocol that a name in the directory has. -/
def FileName.nof (name : FileName) : NameOfFile :=
  ⟨crc16Ibm (name.1.flatMap String.utf8EncodeChar)⟩

/-- What to do with two files of one number (`CollisionStrategy`). -/
inductive CollisionStrategy where
  | error
  | keepFirst
  | keepLast
deriving DecidableEq, Repr

abbrev FileIndex := AList fun _ : NameOfFile => FileName

/-- The order in which the operating system lists a directory. -/
structure ReadDir where
  order : List FileName → List FileName
  perm : ∀ names, (order names).Perm names

/-- **The provider** (`FsFileTransferProvider`), without its state. -/
structure FsFileTransferProvider where
  collision : CollisionStrategy
  readDir : ReadDir

/-- The state of the provider: the base directory, and the index. -/
structure FsState where
  files : Directory FileName
  index : FileIndex

/-- What a failed operation is reported as. -/
def FileTransferError.ofIo : IoError → FileTransferError
  | .notFound => .io "No such file or directory"
  | .isADirectory => .io "Is a directory"
  | .notADirectory => .io "Not a directory"

/-- One entry of the directory (the body of the loop of `scan_dir`). -/
def scanEntry (collision : CollisionStrategy) (files : Directory FileName)
    (index : FileIndex) (name : FileName) : Except FileTransferError FileIndex :=
  match files.nodes.lookup name with
  | some (.file _) =>
    if name.extension = some partialExtension then .ok index
    else if name.nof ∈ index then
      match collision with
      | .error => .error (.collision name.nof)
      | .keepFirst => .ok index
      | .keepLast => .ok (index.insert name.nof name)
    else .ok (index.insert name.nof name)
  | _ => .ok index

namespace FsFileTransferProvider

variable (p : FsFileTransferProvider)

/-- `scan_dir` -/
def scanDir (files : Directory FileName) : Except FileTransferError FileIndex :=
  (p.readDir.order files.nodes.keys).foldlM (scanEntry p.collision files) ∅

/-- The provider of a directory (`with_collision_strategy`). -/
def new (files : Directory FileName) : Except FileTransferError FsState :=
  (p.scanDir files).map fun index => ⟨files, index⟩

/-- Scan the directory anew (`rescan`). -/
def rescan (w : FsState) : Except FileTransferError ℕ × FsState :=
  match p.scanDir w.files with
  | .ok index => (.ok index.keys.length, { w with index := index })
  | .error e => (.error e, w)

end FsFileTransferProvider

/-- `resolve` -/
def FsState.resolve (w : FsState) (nof : NameOfFile) : Except FileTransferError FileName :=
  match w.index.lookup nof with
  | some path => .ok path
  | none => .error (.notFound nof)

/-! ## The provider -/

/-- A file that comes in (`FsFileWriter`). -/
structure FsFileWriter where
  file : Option Handle
  partialPath : FileName
  finalPath : FileName

/-- `clamp_u32` -/
def clampU32 (n : ℕ) : UInt32 :=
  UInt32.ofNat (min n (2 ^ 32 - 1))

namespace FsState

/-- `lookup` -/
def lookup (nof : NameOfFile) (w : FsState) :
    Except FileTransferError (Option FileMetadata) × FsState :=
  match w.resolve nof with
  | .error (.notFound _) => (.ok none, w)
  | .error e => (.error e, w)
  | .ok path =>
    match w.files.length path with
    | .error e => (.error (.ofIo e), w)
    | .ok length => (.ok (some ⟨clampU32 length⟩), w)

/-- `open_read` -/
def openRead (nof : NameOfFile) (w : FsState) : Except FileTransferError Handle × FsState :=
  match w.resolve nof with
  | .error e => (.error e, w)
  | .ok path =>
    if w.files.isLink path then (.error .permissionDenied, w)
    else
      match w.files.openRead path with
      | .error e => (.error (.ofIo e), w)
      | .ok file => (.ok file, w)

/-- Where a file is written to: over the one of the index, or as an upload. -/
def finalPath (w : FsState) (nof : NameOfFile) : Except FileTransferError FileName :=
  match w.resolve nof with
  | .ok path => .ok path
  | .error (.notFound _) => .ok (uploadTarget nof)
  | .error e => .error e

/-- `open_write`. It does not write through a link. -/
def openWrite (nof : NameOfFile) (_expectedLength : UInt32) (w : FsState) :
    Except FileTransferError FsFileWriter × FsState :=
  match w.finalPath nof with
  | .error e => (.error e, w)
  | .ok finalPath =>
    if w.files.isLink finalPath then (.error .permissionDenied, w)
    else if w.files.isLink finalPath.withPartialSuffix then (.error .permissionDenied, w)
    else
      let r := w.files.create finalPath.withPartialSuffix
      match r.1 with
      | .error e => (.error (.ofIo e), { w with files := r.2 })
      | .ok file =>
        (.ok ⟨some file, finalPath.withPartialSuffix, finalPath⟩, { w with files := r.2 })

/-- `read_segment` -/
def readSegment (reader : Handle) (maxBytes : ℕ) (w : FsState) :
    (Except FileTransferError (Option Bytes) × Handle) × FsState :=
  if maxBytes = 0 then ((.ok (some []), reader), w)
  else
    let r := w.files.readAt reader maxBytes
    ((.ok (if r.1 = [] then none else some r.1), r.2), w)

/-- `write_segment` -/
def writeSegment (writer : FsFileWriter) (data : Bytes) (w : FsState) :
    (Except FileTransferError Unit × FsFileWriter) × FsState :=
  match writer.file with
  | none => ((.error (.invalidState "writer already finalized"), writer), w)
  | some file =>
    let r := w.files.write file data
    ((.ok (), { writer with file := some r.1 }), { w with files := r.2 })

end FsState

/-- `finalize`: rename a complete file and scan the directory, or remove it.
That the scan fails is ignored, and so is that there is nothing to remove. -/
def FsFileTransferProvider.finalize (p : FsFileTransferProvider) (writer : FsFileWriter)
    (success : Bool) (w : FsState) : Except FileTransferError Unit × FsState :=
  if success then
    let r := w.files.rename writer.partialPath writer.finalPath
    match r.1 with
    | .error e => (.error (.ofIo e), { w with files := r.2 })
    | .ok () => (.ok (), (p.rescan { w with files := r.2 }).2)
  else (.ok (), { w with files := (w.files.remove writer.partialPath).2 })

/-- **The provider**, as the service uses it. -/
def FsFileTransferProvider.provider (p : FsFileTransferProvider) :
    Provider FsState Handle FsFileWriter where
  lookup := FsState.lookup
  openRead := FsState.openRead
  openWrite := FsState.openWrite
  readSegment := FsState.readSegment
  writeSegment := FsState.writeSegment
  finalize := p.finalize

/-! ## What the operations do -/

/-- **An index of complete files.** -/
def FileIndex.Complete (index : FileIndex) : Prop :=
  ∀ nof name, index.lookup nof = some name → name.extension ≠ some partialExtension

section Scan

variable {collision : CollisionStrategy} {files : Directory FileName}
  {index index' : FileIndex} {name : FileName}

theorem FileIndex.Complete.insert (h : index.Complete)
    (hname : name.extension ≠ some partialExtension) (nof : NameOfFile) :
    FileIndex.Complete (index.insert nof name) := by
  intro nof' name' hlookup
  by_cases hnof : nof' = nof
  · subst hnof
    rw [AList.lookup_insert] at hlookup
    cases hlookup
    exact hname
  · rw [AList.lookup_insert_ne hnof] at hlookup
    exact h nof' name' hlookup

theorem complete_scanEntry (h : index.Complete)
    (hscan : scanEntry collision files index name = .ok index') : index'.Complete := by
  unfold scanEntry at hscan
  split at hscan
  · split at hscan
    · cases hscan
      exact h
    · rename_i hname
      split at hscan
      · split at hscan
        · cases hscan
        · cases hscan
          exact h
        · cases hscan
          exact h.insert hname _
      · cases hscan
        exact h.insert hname _
  · cases hscan
    exact h

/-- A scan passes over incomplete files. -/
theorem complete_scanDir (p : FsFileTransferProvider) (hscan : p.scanDir files = .ok index) :
    index.Complete := by
  have hfold (names : List FileName) : ∀ index₀ : FileIndex, index₀.Complete →
      names.foldlM (scanEntry p.collision files) index₀ = .ok index → index.Complete := by
    induction names with
    | nil =>
      rintro index₀ h ⟨⟩
      exact h
    | cons name names ih =>
      intro index₀ h hfold
      rw [List.foldlM_cons] at hfold
      cases hentry : scanEntry p.collision files index₀ name with
      | error e =>
        rw [hentry] at hfold
        cases hfold
      | ok index₁ =>
        rw [hentry] at hfold
        exact ih index₁ (complete_scanEntry h hentry) hfold
  exact hfold _ ∅ (fun nof name hlookup => nomatch hlookup) hscan

end Scan

section Operations

variable {w : FsState} {nof : NameOfFile}

/-- A file is written to a path that is not one of an incomplete file. -/
theorem extension_finalPath {path : FileName} (h : w.index.Complete)
    (hpath : w.finalPath nof = .ok path) : path.extension ≠ some partialExtension := by
  unfold FsState.finalPath FsState.resolve at hpath
  cases hlookup : w.index.lookup nof with
  | some path' =>
    rw [hlookup] at hpath
    cases hpath
    exact h nof path hlookup
  | none =>
    rw [hlookup] at hpath
    cases hpath
    exact extension_uploadTarget nof

theorem world_lookup : (w.lookup nof).2 = w := by
  unfold FsState.lookup
  split
  · rfl
  · rfl
  · split <;> rfl

theorem world_openRead : (w.openRead nof).2 = w := by
  unfold FsState.openRead
  split
  · rfl
  · split
    · rfl
    · split <;> rfl

theorem world_readSegment (reader : Handle) (maxBytes : ℕ) :
    (w.readSegment reader maxBytes).2 = w := by
  unfold FsState.readSegment
  split <;> rfl

/-- **What opening a file for writing does**: nothing, or a file is created for
the final path. -/
theorem openWrite_cases (nof : NameOfFile) (length : UInt32) (w : FsState) :
    (∃ e, w.openWrite nof length = (.error e, w)) ∨ ∃ path file, w.finalPath nof = .ok path
        ∧ (w.files.create path.withPartialSuffix).1 = .ok file
        ∧ w.openWrite nof length = (.ok ⟨some file, path.withPartialSuffix, path⟩,
          { w with files := (w.files.create path.withPartialSuffix).2 }) := by
  unfold FsState.openWrite
  split
  · exact Or.inl ⟨_, rfl⟩
  · rename_i path hpath
    split
    · exact Or.inl ⟨_, rfl⟩
    · split
      · exact Or.inl ⟨_, rfl⟩
      · dsimp only
        split
        · rename_i e he
          refine Or.inl ⟨.ofIo e, ?_⟩
          rw [Directory.create_of_error he]
        · rename_i file hfile
          exact Or.inr ⟨path, file, hpath, hfile, rfl⟩

/-- What the provider is asked for on the side changes nothing. -/
theorem world_of_looks {p : FsFileTransferProvider} {w w' : FsState}
    (h : Looks p.provider w w') : w' = w := by
  induction h with
  | refl => rfl
  | lookup h nof ih => exact world_lookup.trans ih
  | openRead h nof ih => exact world_openRead.trans ih
  | readSegment h reader maxBytes ih => exact (world_readSegment reader maxBytes).trans ih
  | @openWrite w' h nof e he ih =>
    have he : (w'.openWrite nof 0).1 = .error e := he
    obtain ⟨e', hopen⟩ | ⟨path, file, -, -, hopen⟩ := openWrite_cases nof 0 w'
    · show (w'.openWrite nof 0).2 = w
      rw [hopen]
      exact ih
    · rw [hopen] at he
      cases he

/-- A scan is of what is in the directory. -/
theorem rescan_cases (p : FsFileTransferProvider) (w : FsState) :
    (p.rescan w).2 = w ∨ ∃ index, p.scanDir w.files = .ok index
      ∧ (p.rescan w).2 = { w with index := index } := by
  unfold FsFileTransferProvider.rescan
  split
  · rename_i index hscan
    exact Or.inr ⟨index, hscan, rfl⟩
  · exact Or.inl rfl

end Operations

/-! ## Sessions that do not meet -/

/-- **The writer of a session has its file to itself**, with what was written. -/
structure FsFileWriter.Open (writer : FsFileWriter) (files : Directory FileName)
    (content : Bytes) : Prop where
  partialPath : writer.partialPath = writer.finalPath.withPartialSuffix
  finalPath : writer.finalPath.extension ≠ some partialExtension
  holds : ∃ file, writer.file = some file ∧ files.Holds writer.partialPath file content

/-- **No two sessions write to one path.** -/
def Apart (writers : Key → Option FsFileWriter) : Prop :=
  ∀ key key' writer writer', key ≠ key' → writers key = some writer →
    writers key' = some writer' → writer.finalPath ≠ writer'.finalPath

/-- Every session has its file to itself, with its own segments. -/
structure Kept (k : Sinks FsState FsFileWriter) (content : Key → Bytes) : Prop where
  index : k.world.index.Complete
  writers : ∀ key writer, k.writers key = some writer → writer.Open k.world.files (content key)

section Kept

variable {p : FsFileTransferProvider} {w : FsState} {writers : Key → Option FsFileWriter}
  {content content' : Key → Bytes} {key : Key} {writer : FsFileWriter}
  {files : Directory FileName} {c : Bytes} {k k' : Sinks FsState FsFileWriter}
  {es : List (Key × Effect)}

/-- A writer is open for another path. -/
theorem FsFileWriter.Open.partialPath_ne
    (h : writer.Open files c) {path : FileName} (hne : writer.finalPath ≠ path) :
    writer.partialPath ≠ path.withPartialSuffix := by
  rw [h.partialPath]
  exact fun heq => hne (FileName.withPartialSuffix_inj heq)

/-- What is done in the directory leaves a writer alone. -/
theorem FsFileWriter.Open.of_holds {files files' : Directory FileName} (h : writer.Open files c)
    (hfiles : ∀ file, files.Holds writer.partialPath file c →
      files'.Holds writer.partialPath file c) : writer.Open files' c := by
  obtain ⟨file, hfile, hholds⟩ := h.holds
  exact ⟨h.partialPath, h.finalPath, file, hfile, hfiles file hholds⟩

/-- One writer is replaced, and what holds of the others is kept. -/
theorem forall_update {Q : Key → FsFileWriter → Prop} {entry : Option FsFileWriter}
    (hself : ∀ writer, entry = some writer → Q key writer)
    (hother : ∀ k writer, k ≠ key → writers k = some writer → Q k writer) :
    ∀ k writer, Function.update writers key entry k = some writer → Q k writer := by
  intro k writer hk
  by_cases hkey : k = key
  · subst hkey
    rw [Function.update_self] at hk
    exact hself writer hk
  · rw [Function.update_of_ne hkey] at hk
    exact hother k writer hkey hk

/-- A session is opened. -/
theorem Kept.openWrite (h : Kept ⟨w, writers⟩ content)
    (hopen : (w.openWrite key.2 0).1 = .ok writer)
    (hapart : Apart (Function.update writers key (some writer)))
    (hself : content' key = []) (hother : ∀ k ≠ key, content' k = content k) :
    Kept ⟨(w.openWrite key.2 0).2, Function.update writers key (some writer)⟩ content' := by
  obtain ⟨e, hcases⟩ | ⟨path, file, hpath, hfile, hcases⟩ := openWrite_cases key.2 0 w
  · rw [hcases] at hopen
    cases hopen
  · rw [hcases] at hopen ⊢
    cases hopen
    refine ⟨h.index, forall_update ?_ fun k writer' hkey hk => ?_⟩
    · rintro _ ⟨⟩
      rw [hself]
      exact ⟨rfl, extension_finalPath h.index hpath, file, rfl, Directory.holds_create hfile⟩
    · have hne : writer'.finalPath ≠ path := by
        refine hapart k key writer' _ hkey ?_ (Function.update_self ..)
        rw [Function.update_of_ne hkey, hk]
      have hold := h.writers k writer' hk
      rw [hother k hkey]
      exact hold.of_holds fun file hholds => hholds.create (hold.partialPath_ne hne)

/-- A session writes a segment. -/
theorem Kept.writeSegment (h : Kept ⟨w, writers⟩ content) (hkey : writers key = some writer)
    (hapart : Apart writers) (data : Bytes) (hself : content' key = content key ++ data)
    (hother : ∀ k ≠ key, content' k = content k) :
    Kept ⟨(w.writeSegment writer data).2,
      Function.update writers key (some (w.writeSegment writer data).1.2)⟩ content' := by
  have hwriter := h.writers key writer hkey
  obtain ⟨file, hfile, hholds⟩ := hwriter.holds
  unfold FsState.writeSegment
  rw [hfile]
  refine ⟨h.index, forall_update ?_ fun k writer' hk' hk => ?_⟩
  · rintro _ ⟨⟩
    rw [hself]
    exact ⟨hwriter.partialPath, hwriter.finalPath, _, rfl, hholds.write data⟩
  · have hold := h.writers k writer' hk
    have hne := hold.partialPath_ne (hapart k key writer' writer hk' hk hkey)
    rw [← hwriter.partialPath] at hne
    rw [hother k hk']
    exact hold.of_holds fun file' hholds' => hholds'.write_other hholds hne data

/-- A session ends. -/
theorem Kept.finalize (h : Kept ⟨w, writers⟩ content) (hkey : writers key = some writer)
    (hapart : Apart writers) (success : Bool) (hother : ∀ k ≠ key, content' k = content k) :
    Kept ⟨(p.finalize writer success w).2, Function.update writers key none⟩ content' := by
  have hwriter := h.writers key writer hkey
  -- the other writers do not see what happens to these two names
  have hfiles {files : Directory FileName} (hframe : ∀ name file c,
      name ≠ writer.partialPath → name ≠ writer.finalPath →
      w.files.Holds name file c → files.Holds name file c) (index : FileIndex)
      (hindex : index.Complete) :
      Kept ⟨⟨files, index⟩, Function.update writers key none⟩ content' := by
    refine ⟨hindex, forall_update (fun _ hnone => nomatch hnone) fun k writer' hk' hk => ?_⟩
    have hold := h.writers k writer' hk
    have hne := hold.partialPath_ne (hapart k key writer' writer hk' hk hkey)
    rw [← hwriter.partialPath] at hne
    rw [hother k hk']
    refine hold.of_holds fun file hholds => hframe _ file _ hne ?_ hholds
    rw [hold.partialPath]
    exact (FileName.ne_withPartialSuffix hwriter.finalPath).symm
  unfold FsFileTransferProvider.finalize
  split
  · have hrename : ∀ name file c, name ≠ writer.partialPath → name ≠ writer.finalPath →
        w.files.Holds name file c →
        (w.files.rename writer.partialPath writer.finalPath).2.Holds name file c :=
      fun name file c hs ht hholds => hholds.rename hs ht
    dsimp only
    split
    · exact hfiles hrename w.index h.index
    · obtain hscan | ⟨index, hscan, hrescan⟩ := rescan_cases p
        { w with files := (w.files.rename writer.partialPath writer.finalPath).2 }
      · rw [hscan]
        exact hfiles hrename w.index h.index
      · rw [hrescan]
        exact hfiles hrename index (complete_scanDir p hscan)
  · exact hfiles (fun name file c hs _ hholds => hholds.remove hs) w.index h.index

/-- What is in the directory after a file is complete. -/
theorem files_finalize (hok : (p.finalize writer true w).1 = .ok ()) :
    (w.files.rename writer.partialPath writer.finalPath).1 = .ok ()
      ∧ (p.finalize writer true w).2.files = (w.files.rename writer.partialPath writer.finalPath).2
      ∧ ∀ index, p.scanDir (p.finalize writer true w).2.files = .ok index →
        (p.finalize writer true w).2.index = index := by
  unfold FsFileTransferProvider.finalize at hok ⊢
  rw [if_pos rfl] at hok ⊢
  dsimp only at hok ⊢
  cases hrename : (w.files.rename writer.partialPath writer.finalPath).1 with
  | error e =>
    rw [hrename] at hok
    cases hok
  | ok u =>
    dsimp only
    unfold FsFileTransferProvider.rescan
    dsimp only
    cases hscan : p.scanDir (w.files.rename writer.partialPath writer.finalPath).2 with
    | error e => exact ⟨rfl, rfl, fun index hindex => nomatch hscan.symm.trans hindex⟩
    | ok index' => exact ⟨rfl, rfl, fun index hindex => Except.ok.inj (hscan.symm.trans hindex)⟩

/-- **A transfer that is completed leaves what was written.** -/
theorem FsFileWriter.Open.read_finalize (h : writer.Open w.files c)
    (hok : (p.finalize writer true w).1 = .ok ()) :
    (p.finalize writer true w).2.files.read writer.finalPath = some c := by
  obtain ⟨file, -, hholds⟩ := h.holds
  obtain ⟨hrename, hfiles, -⟩ := files_finalize hok
  rw [hfiles]
  exact hholds.read_rename hrename

/-- **An access of one session keeps the files of all**, as long as no two of
them write to one path. -/
theorem Kept.access
    {before : Key → List Effect} (h : Kept k fun key => ownSegments (before key))
    (haccess : Access p.provider k es k') (hk : Apart k.writers) (hk' : Apart k'.writers) :
    Kept k' fun key => ownSegments (before key ++ effectsAt key es) := by
  have hnil : ∀ e ∈ ([] : List (Key × Effect)), e.2.isSink = false :=
    fun _ he => nomatch he
  cases haccess with
  | look writers hlook hes =>
    obtain rfl := world_of_looks hlook
    simpa only [ownSegments_quiet hes] using h
  | openWrite world hkey hopen =>
    refine h.openWrite hopen hk' ?_ fun k hne => ownSegments_other hnil _ hne _
    rw [ownSegments_self hnil, ownSegments_opened]
  | writeSegment world hkey data hr hes =>
    subst hr
    refine h.writeSegment hkey hk data ?_ fun k hne => ownSegments_other hes _ hne _
    rw [ownSegments_self hes, ownSegments_wrote]
  | finalize world hkey success hr hes =>
    subst hr
    exact h.finalize hkey hk success fun k hne => ownSegments_other hes _ hne _

/-- A session that ends with success leaves what was written. -/
theorem Kept.read_finalized (h : Kept k content) (haccess : Access p.provider k es k')
    (hmem : (key, .finalized true (.ok ())) ∈ es) :
    ∃ writer, k.writers key = some writer
      ∧ k'.world.files.read writer.finalPath = some (content key) := by
  have hquiet {es : List (Key × Effect)} (hes : ∀ e ∈ es, e.2.isSink = false)
      (hmem : (key, .finalized true (.ok ())) ∈ es) : False := by
    cases hes _ hmem
  cases haccess with
  | look writers hlook hes => exact (hquiet hes hmem).elim
  | openWrite world hkey hopen => cases List.mem_singleton.mp hmem
  | writeSegment world hkey data hr hes =>
    obtain heq | hmem := List.mem_cons.mp hmem
    · cases heq
    · exact (hquiet hes hmem).elim
  | finalize world hkey success hr hes =>
    obtain heq | hmem := List.mem_cons.mp hmem
    · obtain ⟨rfl, hfinalized⟩ := Prod.mk.inj heq
      obtain ⟨rfl, hok⟩ := Effect.finalized.inj hfinalized
      subst hr
      exact ⟨_, hkey, (h.writers key _ hkey).read_finalize hok.symm⟩
    · exact (hquiet hes hmem).elim

end Kept

/-! ## Every run -/

/-- **A transfer that is completed leaves its own segments**: when the writer of
a session is finalized with success, and it does not fail, the file at the final
path is the concatenation of the segments of this session. -/
def Delivers (h : List (ServiceCall FsState Handle FsFileWriter))
    (s : Service FsState Handle FsFileWriter) : Prop :=
  ∀ i key, (key, .finalized true (.ok ())) ∈ (s.step i).2 →
    ∃ writer, s.sinks.writers key = some writer ∧ (s.step i).1.world.files.read writer.finalPath
        = some (ownSegments (effectsAt key (effects h)))

section Run

variable {p : FsFileTransferProvider} {files : Directory FileName} {world : FsState}
  {config : FileTransferConfig} {h : List (ServiceCall FsState Handle FsFileWriter)}
  {s : Service FsState Handle FsFileWriter}

theorem complete_new (hnew : p.new files = .ok world) : world.index.Complete := by
  unfold FsFileTransferProvider.new at hnew
  cases hscan : p.scanDir files with
  | error e =>
    rw [hscan] at hnew
    cases hnew
  | ok index =>
    rw [hscan] at hnew
    cases hnew
    exact complete_scanDir p hscan

/-- Every session has its file to itself, in every run in which no two of them
write to one path. -/
theorem kept_of_run (hnew : p.new files = .ok world)
    (r : Run Service.step (.init p.provider world config) h s)
    (hpast : ∀ c ∈ h, Apart c.before.sinks.writers) (hapart : Apart s.sinks.writers) :
    Kept s.sinks fun key => ownSegments (effectsAt key (effects h)) := by
  induction r with
  | nil =>
    refine ⟨complete_new hnew, fun key writer hkey => ?_⟩
    cases hkey
  | @snoc h s r i ih =>
    have hs : Apart s.sinks.writers :=
      hpast _ (List.mem_append_right h (List.mem_singleton_self _))
    have hkept := ih (fun c hc => hpast c (List.mem_append_left _ hc)) hs
    have haccess := access_step s i
    rw [show s.provider = p.provider from congrArg Prod.fst (setting_of_run r)] at haccess
    simp only [effects_snoc, effectsAt_append]
    exact hkept.access haccess hs hapart

/-- **Sessions that do not meet do not disturb each other**: over any directory,
in every run of the service in which no two sessions write to one path at a
time, a transfer that is completed leaves exactly its own segments at the final
path. -/
theorem delivers_of_apart (hnew : p.new files = .ok world)
    (r : Run Service.step (.init p.provider world config) h s)
    (hpast : ∀ c ∈ h, Apart c.before.sinks.writers) (hapart : Apart s.sinks.writers) :
    Delivers h s := by
  intro i key hmem
  have hkept := kept_of_run hnew r hpast hapart
  have haccess := access_step s i
  rw [show s.provider = p.provider from congrArg Prod.fst (setting_of_run r)] at haccess
  exact hkept.read_finalized haccess hmem

end Run

/-! ## Two fetches at a time -/

/-- Only the sessions in the map have writers. -/
theorem apart_iff (s : Service FsState Handle FsFileWriter) :
    Apart s.sinks.writers ↔ ∀ key ∈ s.sessions.keys, ∀ key' ∈ s.sessions.keys, key ≠ key' →
      ∀ writer ∈ s.sinks.writers key, ∀ writer' ∈ s.sinks.writers key',
        writer.finalPath ≠ writer'.finalPath := by
  have hmem {key : Key} {writer : FsFileWriter} (hw : s.sinks.writers key = some writer) :
      key ∈ s.sessions.keys := by
    obtain ⟨active, hactive, -⟩ := Option.bind_eq_some_iff.mp hw
    exact AList.mem_keys.mpr (AList.lookup_isSome.mp (by rw [hactive]; rfl))
  constructor
  · intro h key _ key' _ hne writer hw writer' hw'
    exact h key key' writer writer' hne hw hw'
  · intro h key key' writer writer' hne hw hw'
    exact h key (hmem hw) key' (hmem hw') hne writer hw writer' hw'

instance (s : Service FsState Handle FsFileWriter) : Decidable (Apart s.sinks.writers) :=
  decidable_of_iff _ (apart_iff s).symm

/-- An ASDU of a station, and the turn in which a session hears it. -/
def heardFrom {Q : Type} (ca : CommonAddress) (T : Payload Q) (p : Q) :
    List (ServiceInput × Instant) :=
  [(.route ca (Asdu.fromPayload T (Cot.of Cause.fileTransfer) ca (Vsq.single 1) p
    AsduAddressing.iec104), 0), (.run none, 0)]

/-- A file is fetched, up to its first segment. -/
def fetchOpened (k : Key) (length : ℕ) : List (ServiceInput × Instant) :=
  [(.submit (.fetch k.1 k.2 0), 0), (.run none, 0), (.run none, 0)]
    ++ heardFrom k.1 F_FR_NA_1.payload ⟨⟨0⟩, k.2, ⟨UInt32.ofNat length⟩, Frq.ready⟩
    ++ [(.run none, 0)]
    ++ heardFrom k.1 F_SR_NA_1.payload ⟨⟨0⟩, k.2, ⟨1⟩, ⟨UInt32.ofNat length⟩, Srq.ready⟩

/-- A segment comes in and is written. -/
def segmentWritten (k : Key) (data : Bytes) : List (ServiceInput × Instant) :=
  heardFrom k.1 F_SG_NA_1.payload ⟨⟨0⟩, k.2, ⟨1⟩, data⟩ ++ [(.run none, 0)]

/-- Two files are fetched at a time, and the first one is complete up to its
end. -/
def twoFetches (k k' : Key) : List (ServiceInput × Instant) :=
  fetchOpened k 2 ++ fetchOpened k' 1 ++ segmentWritten k [1, 2] ++ segmentWritten k' [3]
    ++ heardFrom k.1 F_LS_NA_1.payload
      ⟨⟨0⟩, k.2, ⟨1⟩, .fileWithoutDeactivate, Checksum.zero.updateSlice [1, 2]⟩
    ++ [(.run none, 0)]

/-- A provider over an empty directory. -/
def emptyProvider : FsFileTransferProvider where
  collision := .error
  readDir := ⟨id, List.Perm.refl⟩

def emptyState : FsState := ⟨Directory.empty, ∅⟩

/-- Two files of different names: the one that is complete is as it was sent. -/
theorem delivers_of_apart_twoNames :
    let run := exec Service.step (.init emptyProvider.provider emptyState .default)
      (twoFetches (⟨1⟩, ⟨7⟩) (⟨1⟩, ⟨8⟩))
    ((⟨1⟩, ⟨7⟩), .finalized true (.ok ())) ∈ (run.2.step (.run none, 0)).2
      ∧ ownSegments (effectsAt (⟨1⟩, ⟨7⟩) (effects run.1)) = [1, 2]
      ∧ Delivers run.1 run.2 := by
  intro run
  have hpast : ∀ c ∈ run.1, Apart c.before.sinks.writers := by decide +kernel
  have hapart : Apart run.2.sinks.writers := by decide +kernel
  have hnew : emptyProvider.new .empty = .ok emptyState := rfl
  exact ⟨by decide +kernel, by decide +kernel,
    delivers_of_apart hnew (run_exec _ _ _) hpast hapart⟩

/-- **Two stations' files of one name are written to one path**: the session
that is complete leaves `[3, 2]` for the segment `[1, 2]`, because the other one
has written `[3]` to the same file, from its start. -/
theorem delivers_fails_sharedPath : ∃ h s, emptyProvider.new .empty = .ok emptyState
      ∧ Run Service.step (.init emptyProvider.provider emptyState .default) h s
      ∧ ¬ Delivers h s := by
  let run := exec Service.step (.init emptyProvider.provider emptyState .default)
    (twoFetches (⟨1⟩, ⟨7⟩) (⟨2⟩, ⟨7⟩))
  refine ⟨run.1, run.2, rfl, run_exec _ _ _, fun hdelivers => ?_⟩
  have hfinalized : ((⟨1⟩, ⟨7⟩), .finalized true (.ok ()))
      ∈ (run.2.step (.run none, 0)).2 := by decide +kernel
  have hpath : (run.2.sinks.writers (⟨1⟩, ⟨7⟩)).map FsFileWriter.finalPath
      = some (uploadTarget ⟨7⟩) := by decide +kernel
  have hfile : (run.2.step (.run none, 0)).1.world.files.read (uploadTarget ⟨7⟩)
      = some [3, 2] := by decide +kernel
  have hown : ownSegments (effectsAt (⟨1⟩, ⟨7⟩) (effects run.1)) = [1, 2] := by
    decide +kernel
  obtain ⟨writer, hwriter, hread⟩ := hdelivers (.run none, 0) (⟨1⟩, ⟨7⟩) hfinalized
  rw [hwriter] at hpath
  rw [Option.some.inj hpath, hfile, hown] at hread
  exact absurd hread (by decide)

end FileTransfer
