import Iec60870.FileTransferCrc
import Iec60870.FileTransferScan

/-!
# Files that are uploaded

A file that comes in under a file name that the index does not know is written as
`upload_XXXX.bin`, with the file name in hexadecimal, and the directory is scanned
when it is complete, "so the file becomes fetchable immediately" (`finalize` of
`file_transfer/fs.rs`). But the scan gives it the check of its path for a file name,
and this is never the one it came under (`nof_uploadTarget_ne`). What is found under
the file name afterwards is another file, or nothing: `fetchable_iff`.

That the name and its check never agree is a fact about 65536 names. The check is
linear, so that it can be computed of each digit by itself; what the first two digits
contribute, with the frame of the name, and what the last two do are two lists of
256 numbers, and no number is in both.
-/

namespace FileTransfer

open Iec60870 Directory

/-! ## The names of uploads -/

section Name

theorem two_pow_mul_add_eq_xor (i a : ℕ) {b : ℕ} (h : b < 2 ^ i) :
    2 ^ i * a + b = 2 ^ i * a ^^^ b := by
  apply Nat.eq_of_testBit_eq
  intro j
  rw [Nat.testBit_two_pow_mul_add a h, Nat.testBit_xor, Nat.testBit_two_pow_mul]
  by_cases hj : j < i
  · simp [hj, Nat.not_le.mpr hj]
  · have hb : b.testBit j = false :=
      Nat.testBit_lt_two_pow (h.trans_le (Nat.pow_le_pow_right (by decide) (Nat.not_lt.mp hj)))
    simp [hj, Nat.not_lt.mp hj, hb]

theorem xor_swap {p q r s : ℕ} (h : p ^^^ q = r ^^^ s) : p ^^^ r = q ^^^ s := by
  calc p ^^^ r = (p ^^^ q) ^^^ q ^^^ r := by rw [Nat.xor_assoc p, Nat.xor_self, Nat.xor_zero]
    _ = (r ^^^ r) ^^^ (q ^^^ s) := by
      rw [h]
      ac_rfl
    _ = q ^^^ s := by rw [Nat.xor_self, Nat.zero_xor]

/-- The numbers of a list, as bits. -/
def maskOf (l : List ℕ) : ℕ := l.foldr (fun x m => m ||| 1 <<< x) 0

theorem testBit_maskOf {l : List ℕ} {x : ℕ} (h : x ∈ l) : (maskOf l).testBit x = true := by
  induction l with
  | nil => exact (List.not_mem_nil h).elim
  | cons y l ih =>
    show (maskOf l ||| 1 <<< y).testBit x = true
    rw [Nat.testBit_or, Bool.or_eq_true]
    obtain rfl | h := List.mem_cons.mp h
    · exact Or.inr (by simp)
    · exact Or.inl (ih h)

/-- Two lists have no number in common if their bits have none. -/
theorem ne_of_maskOf {l l' : List ℕ} (hmask : maskOf l &&& maskOf l' = 0) {x y : ℕ}
    (hx : x ∈ l) (hy : y ∈ l') : x ≠ y := by
  rintro rfl
  have hbit := Nat.testBit_and (maskOf l) (maskOf l') x
  rw [hmask, testBit_maskOf hx, testBit_maskOf hy, Nat.zero_testBit] at hbit
  cases hbit

/-- The octet of a hexadecimal digit. -/
def hexByte (d : ℕ) : UInt8 := UInt8.ofNat (if d < 10 then 48 + d else 55 + d)

theorem utf8_hexDigit : ∀ d < 16, String.utf8EncodeChar (hexDigit d) = [hexByte d] := by
  decide

/-- The octets of the name of an upload, without its digits. -/
def uploadFrame : Bytes :=
  [0x75, 0x70, 0x6C, 0x6F, 0x61, 0x64, 0x5F, 0, 0, 0, 0, 0x2E, 0x62, 0x69, 0x6E]

/-- One of the digits by itself, counted from the last one. -/
def uploadDigit (i d : ℕ) : Bytes := (List.replicate 15 0).set (10 - i) (hexByte d)

/-- What a digit contributes to the check and to the file name. -/
def digitCheck (i d : ℕ) : ℕ := (crc16Ibm (uploadDigit i d)).toNat ^^^ 2 ^ (4 * i) * d

/-- What the first two digits contribute, with the frame. -/
def upperChecks : List ℕ :=
  (List.range 16).flatMap fun d => (List.range 16).map fun e =>
    (crc16Ibm uploadFrame).toNat ^^^ digitCheck 3 d ^^^ digitCheck 2 e

/-- What the last two digits contribute. -/
def lowerChecks : List ℕ :=
  (List.range 16).flatMap fun d => (List.range 16).map fun e =>
    digitCheck 1 d ^^^ digitCheck 0 e

theorem maskOf_checks : maskOf upperChecks &&& maskOf lowerChecks = 0 := by
  decide +kernel

section Digits

variable {a b c d : ℕ}

/-- The octets of the name of an upload. -/
def uploadBytes (a b c d : ℕ) : Bytes :=
  [0x75, 0x70, 0x6C, 0x6F, 0x61, 0x64, 0x5F, hexByte a, hexByte b, hexByte c, hexByte d,
    0x2E, 0x62, 0x69, 0x6E]

/-- **The check of the name**, digit by digit. -/
theorem crc16Ibm_uploadBytes : crc16Ibm (uploadBytes a b c d)
      = crc16Ibm uploadFrame ^^^ crc16Ibm (uploadDigit 3 a) ^^^ crc16Ibm (uploadDigit 2 b)
        ^^^ (crc16Ibm (uploadDigit 1 c) ^^^ crc16Ibm (uploadDigit 0 d)) := by
  have hbytes : uploadBytes a b c d
      = ((uploadFrame.zipWith (· ^^^ ·) (uploadDigit 3 a)).zipWith (· ^^^ ·)
        (uploadDigit 2 b)).zipWith (· ^^^ ·)
          ((uploadDigit 1 c).zipWith (· ^^^ ·) (uploadDigit 0 d)) := by
    simp [uploadBytes, uploadFrame, uploadDigit]
  rw [hbytes, crc16Ibm_zipWith_xor, crc16Ibm_zipWith_xor, crc16Ibm_zipWith_xor,
    crc16Ibm_zipWith_xor]
  all_goals rfl

/-- A number of four digits. -/
theorem digits_eq_xor (hb : b < 16) (hc : c < 16) (hd : d < 16) : 4096 * a + 256 * b + 16 * c + d
      = 2 ^ (4 * 3) * a ^^^ 2 ^ (4 * 2) * b ^^^ (2 ^ (4 * 1) * c ^^^ 2 ^ (4 * 0) * d) := by
  have hlow : 16 * c + d = 2 ^ (4 * 1) * c ^^^ 2 ^ (4 * 0) * d := by
    rw [← two_pow_mul_add_eq_xor (4 * 1) c (by omega)]
    omega
  have hhigh : 2 ^ (4 * 3) * a ^^^ 2 ^ (4 * 2) * b = 2 ^ 8 * (16 * a + b) := by
    rw [← two_pow_mul_add_eq_xor (4 * 3) a (by omega)]
    omega
  rw [hhigh, ← hlow, ← two_pow_mul_add_eq_xor 8 _ (by omega)]
  omega

/-- The check of the name is not the number in it. -/
theorem crc16Ibm_uploadBytes_ne (ha : a < 16) (hb : b < 16) (hc : c < 16) (hd : d < 16) :
    (crc16Ibm (uploadBytes a b c d)).toNat ≠ 4096 * a + 256 * b + 16 * c + d := by
  have hupper : (crc16Ibm uploadFrame).toNat ^^^ digitCheck 3 a ^^^ digitCheck 2 b ∈ upperChecks :=
    List.mem_flatMap.mpr ⟨a, List.mem_range.mpr ha,
      List.mem_map.mpr ⟨b, List.mem_range.mpr hb, rfl⟩⟩
  have hlower : digitCheck 1 c ^^^ digitCheck 0 d ∈ lowerChecks :=
    List.mem_flatMap.mpr ⟨c, List.mem_range.mpr hc,
      List.mem_map.mpr ⟨d, List.mem_range.mpr hd, rfl⟩⟩
  intro heq
  refine ne_of_maskOf maskOf_checks hupper hlower ?_
  rw [crc16Ibm_uploadBytes, digits_eq_xor hb hc hd] at heq
  simp only [UInt16.toNat_xor] at heq
  unfold digitCheck
  -- what the first digits contribute to the file name goes to the left
  calc (crc16Ibm uploadFrame).toNat ^^^ ((crc16Ibm (uploadDigit 3 a)).toNat ^^^ 2 ^ (4 * 3) * a)
        ^^^ ((crc16Ibm (uploadDigit 2 b)).toNat ^^^ 2 ^ (4 * 2) * b)
      = (crc16Ibm uploadFrame).toNat ^^^ (crc16Ibm (uploadDigit 3 a)).toNat
        ^^^ (crc16Ibm (uploadDigit 2 b)).toNat ^^^ (2 ^ (4 * 3) * a ^^^ 2 ^ (4 * 2) * b) := by
        ac_rfl
    _ = (crc16Ibm (uploadDigit 1 c)).toNat ^^^ (crc16Ibm (uploadDigit 0 d)).toNat
        ^^^ (2 ^ (4 * 1) * c ^^^ 2 ^ (4 * 0) * d) := xor_swap heq
    _ = _ := by ac_rfl

end Digits

/-- **An upload is never found under the file name it came under.** -/
theorem nof_uploadTarget_ne (nof : NameOfFile) : (uploadTarget nof).nof ≠ nof := by
  have hlt := nof.raw.toNat_lt
  have hbytes : (uploadTarget nof).nof
      = ⟨crc16Ibm (uploadBytes (nof.raw.toNat / 4096 % 16) (nof.raw.toNat / 256 % 16)
        (nof.raw.toNat / 16 % 16) (nof.raw.toNat % 16))⟩ := by
    unfold FileName.nof uploadTarget hex4
    simp only [List.flatMap_append, List.flatMap_cons, List.map_cons, List.map_nil,
      utf8_hexDigit _ (Nat.mod_lt _ (by decide : 16 > 0))]
    rfl
  intro heq
  rw [hbytes] at heq
  have hne := crc16Ibm_uploadBytes_ne (a := nof.raw.toNat / 4096 % 16)
    (b := nof.raw.toNat / 256 % 16) (c := nof.raw.toNat / 16 % 16) (d := nof.raw.toNat % 16)
    (by omega) (by omega) (by omega) (by omega)
  refine hne ((congrArg (fun x => x.raw.toNat) heq).trans ?_)
  omega

end Name

/-! ## An upload -/

/-- Segments are written, one after the other (`write_segment`). -/
def FsState.writeSegments (writer : FsFileWriter) :
    List Bytes → FsState → (Except FileTransferError Unit × FsFileWriter) × FsState
  | [], w => ((.ok (), writer), w)
  | data :: segments, w =>
    let r := w.writeSegment writer data
    match r.1.1 with
    | .error e => ((.error e, r.1.2), r.2)
    | .ok () => writeSegments r.1.2 segments r.2

/-- **A file is written** as a whole: `open_write`, its segments, and `finalize` with
success. -/
def FsFileTransferProvider.upload (p : FsFileTransferProvider) (nof : NameOfFile)
    (expectedLength : UInt32) (segments : List Bytes) (w : FsState) :
    Except FileTransferError Unit × FsState :=
  let r := w.openWrite nof expectedLength
  match r.1 with
  | .error e => (.error e, r.2)
  | .ok writer =>
    let r := FsState.writeSegments writer segments r.2
    match r.1.1 with
    | .error e => (.error e, r.2)
    | .ok () => p.finalize r.1.2 true r.2

/-- **A file can be fetched**: it is found under the file name, with its content. -/
def FsState.Fetchable (w : FsState) (nof : NameOfFile) (content : Bytes) : Prop :=
  ∃ path, w.resolve nof = .ok path ∧ w.files.read path = some content

/-- **What an upload does** to the directory, and to the index if the directory can be
scanned. -/
structure Uploaded (p : FsFileTransferProvider) (w w' : FsState) (nof : NameOfFile)
    (content : Bytes) : Prop where
  read : w'.files.read (uploadTarget nof) = some content
  agrees : ∀ name, name ≠ uploadTarget nof → name ≠ (uploadTarget nof).withPartialSuffix →
    w.files.Agrees w'.files name
  keys : w'.files.nodes.keys = uploadTarget nof
    :: (w.files.nodes.keys.erase (uploadTarget nof).withPartialSuffix).erase (uploadTarget nof)
  index : ∀ index, p.scanDir w'.files = .ok index → w'.index = index

section Upload

variable {p : FsFileTransferProvider} {w : FsState} {nof : NameOfFile}

/-- The segments are appended, and nothing else changes. -/
theorem writeSegments_spec (segments : List Bytes) : ∀ {w : FsState} {writer : FsFileWriter}
    {content : Bytes}, writer.Open w.files content →
      let r := FsState.writeSegments writer segments w
      r.1.1 = .ok () ∧ r.1.2.Open r.2.files (content ++ segments.flatten)
        ∧ r.1.2.finalPath = writer.finalPath ∧ r.2.files.nodes = w.files.nodes
        ∧ ∀ name, name ≠ writer.partialPath → w.files.Agrees r.2.files name := by
  induction segments with
  | nil =>
    intro w writer content h
    refine ⟨rfl, ?_, rfl, rfl, fun name _ => Directory.Agrees.refl _ name⟩
    rw [List.flatten_nil, List.append_nil]
    exact h
  | cons data segments ih =>
    intro w writer content h
    obtain ⟨file, hfile, hholds⟩ := h.holds
    have hwrite : w.writeSegment writer data
        = ((.ok (), { writer with file := some (w.files.write file data).1 }),
          { w with files := (w.files.write file data).2 }) := by
      unfold FsState.writeSegment
      rw [hfile]
    have hopen : FsFileWriter.Open { writer with file := some (w.files.write file data).1 }
        (w.files.write file data).2 (content ++ data) :=
      ⟨h.partialPath, h.finalPath, _, rfl, hholds.write data⟩
    obtain ⟨hok, hopen', hpath, hnodes, hagrees⟩ :=
      ih (w := { w with files := (w.files.write file data).2 }) hopen
    dsimp only
    rw [FsState.writeSegments, hwrite]
    rw [List.flatten_cons, ← List.append_assoc]
    exact ⟨hok, hopen', hpath, hnodes, fun name hne =>
      (agrees_set hholds hne _).trans (hagrees name hne)⟩

/-- **An upload that succeeds**, under a file name that the index does not know. -/
theorem uploaded_of_upload (hnof : w.index.lookup nof = none) {length : UInt32}
    {segments : List Bytes} (hok : (p.upload nof length segments w).1 = .ok ()) :
    Uploaded p w (p.upload nof length segments w).2 nof segments.flatten := by
  have hfinal : w.finalPath nof = .ok (uploadTarget nof) := by
    unfold FsState.finalPath FsState.resolve
    rw [hnof]
  obtain ⟨e, hopen⟩ | ⟨path, file, hpath, hfile, hopen⟩ := openWrite_cases nof length w
  · unfold FsFileTransferProvider.upload at hok
    rw [hopen] at hok
    cases hok
  · rw [hfinal] at hpath
    cases hpath
    have hwriter : FsFileWriter.Open
        ⟨some file, (uploadTarget nof).withPartialSuffix, uploadTarget nof⟩
        (w.files.create (uploadTarget nof).withPartialSuffix).2 [] :=
      ⟨rfl, extension_uploadTarget nof, file, rfl, holds_create hfile⟩
    obtain ⟨hwritten, hopen', hpath, hnodes, hagrees⟩ := writeSegments_spec segments
      (w := { w with files := (w.files.create (uploadTarget nof).withPartialSuffix).2 }) hwriter
    have hpart := hopen'.partialPath
    unfold FsFileTransferProvider.upload at hok ⊢
    rw [hopen] at hok ⊢
    dsimp only at hok ⊢ hwritten hopen' hpath hnodes hagrees hpart
    generalize FsState.writeSegments _ segments _ = r at *
    rw [hwritten] at hok ⊢
    dsimp only at hok ⊢
    rw [hpath] at hpart
    obtain ⟨hrename, hfiles, hindex⟩ := files_finalize hok
    have hread := hopen'.read_finalize hok
    rw [hpart, hpath] at hrename hfiles
    rw [hpath] at hread
    refine ⟨hread, fun name hne hne' => ?_, ?_, hindex⟩
    · rw [hfiles]
      exact (agrees_create hne').trans ((hagrees name hne').trans (agrees_rename hne' hne))
    · rw [hfiles, keys_rename hrename, hnodes, erase_keys_create]

end Upload

/-! ## What is found afterwards -/

section Fetch

variable (p : FsFileTransferProvider) (w : FsState) (nof : NameOfFile)

/-- The names in the directory after an upload. -/
def uploadedNames : List FileName :=
  uploadTarget nof
    :: (w.files.nodes.keys.erase (uploadTarget nof).withPartialSuffix).erase (uploadTarget nof)

/-- The file name and the name of a complete file that was there before the upload,
and is not replaced by it. -/
def keptName (name : FileName) : Option (NameOfFile × FileName) :=
  if name = uploadTarget nof then none else keyedName w.files name

/-- **The file that is found under the file name after an upload**: of the files with
this check that were there before, the one that the operating system lists first, or
last if the later one is kept. -/
def FoundAfter (name : FileName) : Prop :=
  if p.collision = .keepLast then
    Keyed.LastAt (keptName w nof) nof name (p.readDir.order (uploadedNames w nof))
  else Keyed.FirstAt (keptName w nof) nof name (p.readDir.order (uploadedNames w nof))

variable {p w nof} {w' : FsState} {content : Bytes} {name : FileName}

theorem keptName_eq_some_iff {x : FileName} : keptName w nof x = some (nof, name)
      ↔ name ≠ uploadTarget nof ∧ keyedName w.files x = some (nof, name) := by
  unfold keptName
  by_cases hx : x = uploadTarget nof
  · rw [if_pos hx]
    refine iff_of_false (fun h => by cases h) fun ⟨hne, hkey⟩ => hne ?_
    rw [← (keyedName_eq_some_iff.mp hkey).1, hx]
  · rw [if_neg hx]
    refine ⟨fun hkey => ⟨?_, hkey⟩, fun h => h.2⟩
    rw [← (keyedName_eq_some_iff.mp hkey).1]
    exact hx

/-- **The upload itself is not found**, and what is found was there before. -/
theorem Uploaded.keyedName_iff (h : Uploaded p w w' nof content) (x name : FileName) :
    keyedName w'.files x = some (nof, name) ↔ keptName w nof x = some (nof, name) := by
  rw [keptName_eq_some_iff, keyedName_eq_some_iff, keyedName_eq_some_iff]
  have hlookup (hne : name ≠ uploadTarget nof)
      (hcomplete : name.extension ≠ some partialExtension) :
      w'.files.nodes.lookup name = w.files.nodes.lookup name :=
    (h.agrees name hne (FileName.ne_withPartialSuffix hcomplete)).lookup
  constructor
  · rintro ⟨hx, hfile, hcomplete, hnof⟩
    have hne : name ≠ uploadTarget nof := by
      rintro rfl
      exact nof_uploadTarget_ne nof hnof
    rw [hlookup hne hcomplete] at hfile
    exact ⟨hne, hx, hfile, hcomplete, hnof⟩
  · rintro ⟨hne, hx, hfile, hcomplete, hnof⟩
    rw [← hlookup hne hcomplete] at hfile
    exact ⟨hx, hfile, hcomplete, hnof⟩

/-- What is found under the file name after the directory is scanned. -/
theorem Uploaded.lookup_iff (h : Uploaded p w w' nof content)
    (hscan : p.scanDir w'.files = .ok w'.index) :
    w'.index.lookup nof = some name ↔ FoundAfter p w nof name := by
  have hkeys : w'.files.nodes.keys = uploadedNames w nof := h.keys
  have hbuilt := built_of_scanDir hscan
  rw [hkeys] at hbuilt
  unfold FoundAfter
  by_cases hlast : p.collision = .keepLast
  · rw [if_pos hlast, hbuilt.last (by rw [hlast]; decide)]
    exact Keyed.lastAt_congr h.keyedName_iff _
  · rw [if_neg hlast, hbuilt.first]
    · exact Keyed.firstAt_congr h.keyedName_iff _
    · cases hcollision : p.collision with
      | error | keepFirst => decide
      | keepLast => exact absurd hcollision hlast

/-- A file that is found was there before. -/
theorem FoundAfter.keyedName (h : FoundAfter p w nof name) :
    name ≠ uploadTarget nof ∧ keyedName w.files name = some (nof, name) := by
  unfold FoundAfter at h
  obtain ⟨x, hx⟩ : ∃ x, keptName w nof x = some (nof, name) := by
    split at h
    · obtain ⟨before, x, after, -, hx, -⟩ := h
      exact ⟨x, hx⟩
    · obtain ⟨before, x, after, -, hx, -⟩ := h
      exact ⟨x, hx⟩
  obtain ⟨hne, hkey⟩ := keptName_eq_some_iff.mp hx
  obtain rfl := (keyedName_eq_some_iff.mp hkey).1
  exact ⟨hne, hkey⟩

section Rescan

variable {length : UInt32} {segments : List Bytes}

/-- The index after an upload is that of the directory, if it can be scanned. -/
theorem scanDir_upload (hnof : w.index.lookup nof = none)
    (hok : (p.upload nof length segments w).1 = .ok ())
    (hscan : ∃ count, (p.rescan (p.upload nof length segments w).2).1 = .ok count) :
    p.scanDir (p.upload nof length segments w).2.files
      = .ok (p.upload nof length segments w).2.index := by
  obtain ⟨count, hcount⟩ := hscan
  unfold FsFileTransferProvider.rescan at hcount
  cases hscan : p.scanDir (p.upload nof length segments w).2.files with
  | error e =>
    rw [hscan] at hcount
    cases hcount
  | ok index => rw [(uploaded_of_upload hnof hok).index index hscan]

/-- **An upload can be fetched** under its file name exactly if another file is found
there, which was in the directory before and happens to have the same content. -/
theorem fetchable_iff (hnof : w.index.lookup nof = none)
    (hok : (p.upload nof length segments w).1 = .ok ())
    (hscan : ∃ count, (p.rescan (p.upload nof length segments w).2).1 = .ok count) :
    (p.upload nof length segments w).2.Fetchable nof segments.flatten
      ↔ ∃ name, FoundAfter p w nof name ∧ w.files.read name = some segments.flatten := by
  have h := uploaded_of_upload hnof hok
  have hindex := scanDir_upload hnof hok hscan
  generalize (p.upload nof length segments w).2 = w' at h hindex ⊢
  unfold FsState.Fetchable
  refine exists_congr fun name => ?_
  have hresolve : w'.resolve nof = .ok name ↔ w'.index.lookup nof = some name := by
    unfold FsState.resolve
    cases w'.index.lookup nof with
    | none => exact iff_of_false (fun h => by cases h) fun h => by cases h
    | some path => exact ⟨fun h => by cases h; rfl, fun h => by cases h; rfl⟩
  rw [hresolve, h.lookup_iff hindex]
  refine and_congr_right fun hfound => ?_
  obtain ⟨hne, hkey⟩ := hfound.keyedName
  have hcomplete := (keyedName_eq_some_iff.mp hkey).2.2.1
  rw [(h.agrees name hne (FileName.ne_withPartialSuffix hcomplete)).read]

/-- **If the index is that of the directory, an upload cannot be fetched**: nothing is
found under its file name. -/
theorem resolve_upload_of_scan (hindex : p.scanDir w.files = .ok w.index)
    (hnof : w.index.lookup nof = none) (hok : (p.upload nof length segments w).1 = .ok ())
    (hscan : ∃ count, (p.rescan (p.upload nof length segments w).2).1 = .ok count) :
    (p.upload nof length segments w).2.resolve nof = .error (.notFound nof) := by
  have hlookup : (p.upload nof length segments w).2.index.lookup nof = none := by
    refine Option.eq_none_iff_forall_ne_some.mpr fun name hname => ?_
    rw [(uploaded_of_upload hnof hok).lookup_iff (scanDir_upload hnof hok hscan)] at hname
    obtain ⟨-, hkey⟩ := hname.keyedName
    obtain ⟨-, ⟨n, hnode⟩, -⟩ := keyedName_eq_some_iff.mp hkey
    -- a file with this check would be in the index already
    have hmem : name ∈ p.readDir.order w.files.nodes.keys :=
      (p.readDir.perm _).mem_iff.mpr (AList.mem_keys.mpr
        (AList.lookup_isSome.mp (by rw [hnode]; rfl)))
    have hin := ((built_of_scanDir hindex).mem nof).mpr ⟨name, hmem, name, hkey⟩
    rw [← AList.lookup_isSome, hnof] at hin
    cases hin
  unfold FsState.resolve
  rw [hlookup]

end Rescan

end Fetch

/-! ## Two uploads -/

/-- **The upload of the test**: `hello` under the file name `ABCD` is complete, and the
directory is scanned, but nothing is found under `ABCD`. -/
theorem fetchable_fails_hello : ∃ segments, emptyState.index.lookup ⟨0xABCD⟩ = none
      ∧ (emptyProvider.upload ⟨0xABCD⟩ 5 segments emptyState).1 = .ok ()
      ∧ (emptyProvider.rescan (emptyProvider.upload ⟨0xABCD⟩ 5 segments emptyState).2).1 = .ok 1
      ∧ ¬ (emptyProvider.upload ⟨0xABCD⟩ 5 segments emptyState).2.Fetchable ⟨0xABCD⟩
        segments.flatten := by
  refine ⟨[[0x68, 0x65, 0x6C, 0x6C, 0x6F]], rfl, rfl, by decide +kernel, ?_⟩
  rintro ⟨path, hresolve, -⟩
  have hnone : (emptyProvider.upload ⟨0xABCD⟩ 5 [[0x68, 0x65, 0x6C, 0x6C, 0x6F]]
      emptyState).2.index.lookup ⟨0xABCD⟩ = none := by decide +kernel
  unfold FsState.resolve at hresolve
  rw [hnone] at hresolve
  cases hresolve

/-- A file `c` with two octets that is not in the index. -/
def droppedIn : FsState where
  files := ((Directory.empty.create ⟨['c'], by decide⟩).2.write ⟨0, 0⟩ [1, 2]).2
  index := ∅

/-- The same two octets are uploaded under the check of `c`, and `c` is found. -/
theorem fetchable_iff_droppedIn :
    (emptyProvider.upload ⟨0x2940⟩ 2 [[1, 2]] droppedIn).2.Fetchable ⟨0x2940⟩ [1, 2] := by
  have hfound : FoundAfter emptyProvider droppedIn ⟨0x2940⟩ ⟨['c'], by decide⟩ := by
    refine ⟨[uploadTarget ⟨0x2940⟩], ⟨['c'], by decide⟩, [], rfl, by decide +kernel, ?_⟩
    rintro ⟨x, hx, v, hv⟩
    obtain rfl := List.mem_singleton.mp hx
    cases hv
  exact (@fetchable_iff emptyProvider droppedIn ⟨0x2940⟩ 2 [[1, 2]] rfl rfl
    ⟨2, by decide +kernel⟩).mpr ⟨⟨['c'], by decide⟩, hfound, rfl⟩

end FileTransfer
