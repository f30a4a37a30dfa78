import Mathlib.Data.List.AList

/-!
# A directory of files

The part of a file system that a program sees which creates, writes, renames
and removes files in one directory. A name stands for a file by its number, so
that an open file is the one that was opened even if its name is gone or stands
for another file by then. Two programs – or two tasks of one – that open the
same name share the file, each with an offset of its own: what one writes, the
other overwrites, and opening it anew for writing empties it for both.

A program that has a file to itself does not see any of this. `Directory.Holds`
says that a handle is at the end of the file that a name stands for, and what is
in it; the rules for it are those of a buffer that is appended to, as long as
what is done in between concerns other names.
-/

/-- Why an operation fails. -/
inductive IoError where
  | notFound
  | isADirectory
  | notADirectory
deriving DecidableEq, Repr

/-- What a name stands for. -/
inductive Node where
  | file (inode : ℕ)
  /-- A directory, with the length its metadata gives. -/
  | directory (length : ℕ)
  /-- A symbolic link, with the length its target's metadata gives. -/
  | link (target : Except IoError ℕ)

/-- Why a name cannot be given to a node: directories are not replaced, and
replace nothing. -/
def Node.blocked : Node → Option Node → Option IoError
  | _, some (.directory _) => some .isADirectory
  | .directory _, some _ => some .notADirectory
  | _, _ => none

/-- **A directory**, with the contents of the files that were ever in it. No two
names stand for one file. -/
structure Directory (ν : Type) [DecidableEq ν] where
  nodes : AList fun _ : ν => Node
  contents : ℕ → List UInt8
  /-- The number of the next file. -/
  next : ℕ
  lt_next : ∀ {name n}, nodes.lookup name = some (.file n) → n < next
  name_unique : ∀ {name name' n}, nodes.lookup name = some (.file n) →
    nodes.lookup name' = some (.file n) → name = name'

/-- An open file. -/
structure Handle where
  inode : ℕ
  offset : ℕ
deriving DecidableEq, Repr

/-- What writing at an offset makes of a content. Behind its end there are
zeros up to the offset. -/
def overwrite (content : List UInt8) (offset : ℕ) (data : List UInt8) : List UInt8 :=
  if data = [] then content
  else
    content.take offset ++ List.replicate (offset - content.length) 0 ++ data
      ++ content.drop (offset + data.length)

theorem overwrite_length (content data : List UInt8) :
    overwrite content content.length data = content ++ data := by
  unfold overwrite
  split
  · rename_i h
    rw [h, List.append_nil]
  · simp

namespace Directory

variable {ν : Type} [DecidableEq ν]

/-- The empty directory. -/
def empty : Directory ν where
  nodes := ∅
  contents _ := []
  next := 0
  lt_next h := by simp at h
  name_unique h := by simp at h

variable (d : Directory ν)

/-- The content of the file that a name stands for. -/
def read (name : ν) : Option (List UInt8) :=
  match d.nodes.lookup name with
  | some (.file n) => some (d.contents n)
  | _ => none

/-- Whether a name stands for a symbolic link. -/
def isLink (name : ν) : Bool :=
  match d.nodes.lookup name with
  | some (.link _) => true
  | _ => false

/-- The length that the metadata gives, behind a link if there is one. -/
def length (name : ν) : Except IoError ℕ :=
  match d.nodes.lookup name with
  | some (.file n) => .ok (d.contents n).length
  | some (.directory length) => .ok length
  | some (.link target) => target
  | none => .error .notFound

/-- Change the content of a file. -/
def set (inode : ℕ) (content : List UInt8) : Directory ν :=
  { d with contents := Function.update d.contents inode content }

/-- Add a new, empty file. -/
def add (name : ν) : Directory ν where
  nodes := d.nodes.insert name (.file d.next)
  contents := Function.update d.contents d.next []
  next := d.next + 1
  lt_next {name' n} h := by
    by_cases hn : name' = name
    · subst hn
      rw [AList.lookup_insert] at h
      cases h
      exact Nat.lt_succ_self _
    · rw [AList.lookup_insert_ne hn] at h
      exact Nat.lt_succ_of_lt (d.lt_next h)
  name_unique {name₁ name₂ n} h₁ h₂ := by
    -- the new number stands for the new name only
    have hold {name' : ν} (hn : name' ≠ name)
        (h : (d.nodes.insert name (.file d.next)).lookup name' = some (.file n)) :
        d.nodes.lookup name' = some (.file n) := by
      rwa [AList.lookup_insert_ne hn] at h
    have hnew (h : (d.nodes.insert name (.file d.next)).lookup name = some (.file n)) :
        n = d.next := by
      rw [AList.lookup_insert] at h
      cases h
      rfl
    by_cases hn₁ : name₁ = name <;> by_cases hn₂ : name₂ = name
    · rw [hn₁, hn₂]
    · subst hn₁
      exact absurd (hnew h₁) (Nat.ne_of_lt (d.lt_next (hold hn₂ h₂)))
    · subst hn₂
      exact absurd (hnew h₂) (Nat.ne_of_lt (d.lt_next (hold hn₁ h₁)))
    · exact d.name_unique (hold hn₁ h₁) (hold hn₂ h₂)

/-- Take a name out. The file stays where it is open. -/
def unlink (name : ν) : Directory ν where
  nodes := d.nodes.erase name
  contents := d.contents
  next := d.next
  lt_next {name' n} h := by
    by_cases hn : name' = name
    · rw [hn, AList.lookup_erase] at h
      cases h
    · rw [AList.lookup_erase_ne hn] at h
      exact d.lt_next h
  name_unique {name₁ name₂ n} h₁ h₂ := by
    have hold {name' : ν} (h : (d.nodes.erase name).lookup name' = some (.file n)) :
        d.nodes.lookup name' = some (.file n) := by
      by_cases hn : name' = name
      · rw [hn, AList.lookup_erase] at h
        cases h
      · rwa [AList.lookup_erase_ne hn] at h
    exact d.name_unique (hold h₁) (hold h₂)

/-- Let another name stand for what a name stands for. -/
def move (source target : ν) (node : Node) (hnode : d.nodes.lookup source = some node) :
    Directory ν where
  nodes := (d.nodes.erase source).insert target node
  contents := d.contents
  next := d.next
  lt_next {name n} h := by
    by_cases hn : name = target
    · rw [hn, AList.lookup_insert] at h
      exact d.lt_next (hnode.trans h)
    · rw [AList.lookup_insert_ne hn] at h
      exact (d.unlink source).lt_next h
  name_unique {name₁ name₂ n} h₁ h₂ := by
    -- the file that is moved has no other name than its old one
    have hmoved {name : ν} (hn : name ≠ target)
        (h : ((d.nodes.erase source).insert target node).lookup name = some (.file n))
        (ht : ((d.nodes.erase source).insert target node).lookup target
          = some (.file n)) : False := by
      rw [AList.lookup_insert] at ht
      rw [AList.lookup_insert_ne hn] at h
      by_cases hs : name = source
      · rw [hs, AList.lookup_erase] at h
        cases h
      · rw [AList.lookup_erase_ne hs] at h
        exact hs (d.name_unique h (hnode.trans ht))
    by_cases hn₁ : name₁ = target <;> by_cases hn₂ : name₂ = target
    · rw [hn₁, hn₂]
    · subst hn₁
      exact (hmoved hn₂ h₂ h₁).elim
    · subst hn₂
      exact (hmoved hn₁ h₁ h₂).elim
    · rw [AList.lookup_insert_ne hn₁] at h₁
      rw [AList.lookup_insert_ne hn₂] at h₂
      exact (d.unlink source).name_unique h₁ h₂

/-- Open a file for writing; one that is there is emptied. A link is not
followed. -/
def create (name : ν) : Except IoError Handle × Directory ν :=
  match d.nodes.lookup name with
  | some (.file n) => (.ok ⟨n, 0⟩, d.set n [])
  | some _ => (.error .isADirectory, d)
  | none => (.ok ⟨d.next, 0⟩, d.add name)

/-- Open a file for reading. A link is not followed. -/
def openRead (name : ν) : Except IoError Handle :=
  match d.nodes.lookup name with
  | some (.file n) => .ok ⟨n, 0⟩
  | some _ => .error .isADirectory
  | none => .error .notFound

/-- Read some octets. -/
def readAt (h : Handle) (max : ℕ) : List UInt8 × Handle :=
  let data := ((d.contents h.inode).drop h.offset).take max
  (data, { h with offset := h.offset + data.length })

/-- Write some octets. -/
def write (h : Handle) (data : List UInt8) : Handle × Directory ν :=
  ({ h with offset := h.offset + data.length },
    d.set h.inode (overwrite (d.contents h.inode) h.offset data))

/-- Rename. What the new name stood for is replaced, if it may be. -/
def rename (source target : ν) : Except IoError Unit × Directory ν :=
  match h : d.nodes.lookup source with
  | none => (.error .notFound, d)
  | some node =>
    match node.blocked (d.nodes.lookup target) with
    | some e => (.error e, d)
    | none => (.ok (), d.move source target node h)

/-- Renaming fails, or it moves the name. -/
theorem rename_cases (source target : ν) : (∃ e, d.rename source target = (.error e, d))
      ∨ ∃ node hnode, d.rename source target = (.ok (), d.move source target node hnode) := by
  unfold rename
  split
  · exact Or.inl ⟨_, rfl⟩
  · rename_i node hnode
    split
    · exact Or.inl ⟨_, rfl⟩
    · exact Or.inr ⟨node, hnode, rfl⟩

/-- Remove a file or a link. -/
def remove (name : ν) : Except IoError Unit × Directory ν :=
  match d.nodes.lookup name with
  | some (.directory _) => (.error .isADirectory, d)
  | some _ => (.ok (), d.unlink name)
  | none => (.error .notFound, d)

/-! ## A file to itself -/

/-- **A handle is at the end of a file**: the file that a name stands for, with
what is in it. -/
structure Holds (name : ν) (h : Handle) (content : List UInt8) : Prop where
  lookup : d.nodes.lookup name = some (.file h.inode)
  contents : d.contents h.inode = content
  offset : h.offset = content.length

variable {d} {name name' source target : ν} {h h' : Handle}
  {content content' : List UInt8}

theorem contents_set_self (inode : ℕ) (data : List UInt8) :
    (d.set inode data).contents inode = data := by
  unfold Directory.set
  exact Function.update_self ..

theorem contents_set_ne {inode n : ℕ} (hne : n ≠ inode) (data : List UInt8) :
    (d.set inode data).contents n = d.contents n := by
  unfold Directory.set
  exact Function.update_of_ne hne ..

/-- A file that was opened for writing is empty. -/
theorem holds_create (hc : (d.create name).1 = .ok h) : (d.create name).2.Holds name h [] := by
  unfold create at hc ⊢
  split
  · rename_i n hn
    rw [hn] at hc
    cases hc
    exact ⟨hn, contents_set_self n [], rfl⟩
  · rename_i node hfile hn
    rw [hn] at hc
    cases node with
    | file n => exact absurd rfl (hfile n)
    | directory | link => cases hc
  · rename_i hn
    rw [hn] at hc
    cases hc
    exact ⟨AList.lookup_insert d.nodes, contents_set_self d.next [], rfl⟩

/-- A file that cannot be opened for writing is as it was. -/
theorem create_of_error {e : IoError} (hc : (d.create name).1 = .error e) :
    (d.create name).2 = d := by
  unfold create at hc ⊢
  split
  · rename_i n hn
    rw [hn] at hc
    cases hc
  · rfl
  · rename_i hn
    rw [hn] at hc
    cases hc

section

variable (hd : d.Holds name h content)

include hd

/-- The content of another file is changed. -/
theorem Holds.set {inode : ℕ} (hne : h.inode ≠ inode)
    (data : List UInt8) : (d.set inode data).Holds name h content where
  lookup := hd.lookup
  contents := (contents_set_ne hne data).trans hd.contents
  offset := hd.offset

/-- Another file is opened for writing. -/
theorem Holds.create (hne : name ≠ name') : (d.create name').2.Holds name h content := by
  unfold Directory.create
  split
  · rename_i n hn
    refine hd.set (fun heq => hne ?_) []
    exact d.name_unique hd.lookup (heq ▸ hn)
  · exact hd
  · refine ⟨?_, ?_, hd.offset⟩
    · exact (AList.lookup_insert_ne hne).trans hd.lookup
    · exact (contents_set_ne (Nat.ne_of_lt (d.lt_next hd.lookup)) []).trans hd.contents

/-- Writing appends. -/
theorem Holds.write (data : List UInt8) :
    (d.write h data).2.Holds name (d.write h data).1 (content ++ data) where
  lookup := hd.lookup
  contents := by
    refine (contents_set_self h.inode _).trans ?_
    rw [hd.contents, hd.offset, overwrite_length]
  offset := by
    rw [List.length_append, ← hd.offset]
    rfl

/-- Another file is written. -/
theorem Holds.write_other (hd' : d.Holds name' h' content')
    (hne : name ≠ name') (data : List UInt8) :
    (d.write h' data).2.Holds name h content :=
  hd.set (fun heq => hne (d.name_unique hd.lookup (heq ▸ hd'.lookup))) _

end

/-- A file that was renamed is read under its new name. -/
theorem Holds.read_rename (hd : d.Holds source h content)
    (hr : (d.rename source target).1 = .ok ()) :
    (d.rename source target).2.read target = some content := by
  obtain ⟨e, h⟩ | ⟨node, hnode, h⟩ := d.rename_cases source target
  · rw [h] at hr
    cases hr
  · obtain rfl : node = .file _ := Option.some.inj (hnode.symm.trans hd.lookup)
    rw [h]
    have hlookup : (d.move source target _ hnode).nodes.lookup target = some (.file _) :=
      AList.lookup_insert _
    unfold Directory.read
    rw [hlookup, ← hd.contents]
    rfl

/-- Other names than those of a file are renamed. -/
theorem Holds.rename (hd : d.Holds name h content) (hs : name ≠ source)
    (ht : name ≠ target) : (d.rename source target).2.Holds name h content := by
  obtain ⟨e, h⟩ | ⟨node, hnode, h⟩ := d.rename_cases source target
  · rw [h]
    exact hd
  · rw [h]
    refine ⟨?_, hd.contents, hd.offset⟩
    exact (AList.lookup_insert_ne ht).trans ((AList.lookup_erase_ne hs).trans hd.lookup)

/-- Another file is removed. -/
theorem Holds.remove (hd : d.Holds name h content) (hne : name ≠ name') :
    (d.remove name').2.Holds name h content := by
  unfold Directory.remove
  split
  · exact hd
  · exact ⟨(AList.lookup_erase_ne hne).trans hd.lookup, hd.contents, hd.offset⟩
  · exact hd

/-! ## Other names -/

/-- **A name stands for the same in two directories**, with the same content. -/
structure Agrees (d d' : Directory ν) (name : ν) : Prop where
  lookup : d'.nodes.lookup name = d.nodes.lookup name
  contents : ∀ {n}, d.nodes.lookup name = some (.file n) → d'.contents n = d.contents n

theorem Agrees.refl (d : Directory ν) (name : ν) : d.Agrees d name := ⟨rfl, fun _ => rfl⟩

theorem Agrees.trans {d' d'' : Directory ν} (h : d.Agrees d' name) (h' : d'.Agrees d'' name) :
    d.Agrees d'' name where
  lookup := h'.lookup.trans h.lookup
  contents hn := (h'.contents (h.lookup.trans hn)).trans (h.contents hn)

theorem Agrees.read {d' : Directory ν} (h : d.Agrees d' name) : d'.read name = d.read name := by
  unfold Directory.read
  rw [h.lookup]
  split
  · rename_i n hn
    rw [h.contents hn]
  · rfl

/-- The content of another file is changed. -/
theorem agrees_set (hd : d.Holds name' h content) (hne : name ≠ name') (data : List UInt8) :
    d.Agrees (d.set h.inode data) name where
  lookup := rfl
  contents hn := by
    refine contents_set_ne (fun heq => hne ?_) data
    rw [heq] at hn
    exact d.name_unique hn hd.lookup

/-- Another file is opened for writing. -/
theorem agrees_create (hne : name ≠ name') : d.Agrees (d.create name').2 name := by
  unfold Directory.create
  split
  · rename_i n hn
    exact agrees_set (h := ⟨n, (d.contents n).length⟩) ⟨hn, rfl, rfl⟩ hne []
  · exact Agrees.refl d name
  · exact ⟨AList.lookup_insert_ne hne, fun hn => contents_set_ne (Nat.ne_of_lt (d.lt_next hn)) []⟩

/-- Other names are renamed. -/
theorem agrees_rename (hs : name ≠ source) (ht : name ≠ target) :
    d.Agrees (d.rename source target).2 name := by
  obtain ⟨e, h⟩ | ⟨node, hnode, h⟩ := d.rename_cases source target
  · rw [h]
    exact Agrees.refl d name
  · rw [h]
    exact ⟨(AList.lookup_insert_ne ht).trans (AList.lookup_erase_ne hs), fun _ => rfl⟩

/-- The names of a directory in which a file was opened for writing. -/
theorem erase_keys_create (d : Directory ν) (name : ν) :
    (d.create name).2.nodes.keys.erase name = d.nodes.keys.erase name := by
  unfold Directory.create
  split
  · rfl
  · rfl
  · show (d.nodes.insert name _).keys.erase name = _
    rw [AList.keys_insert, List.erase_cons_head]

/-- The names of a directory in which a name was changed. -/
theorem keys_rename (hr : (d.rename source target).1 = .ok ()) :
    (d.rename source target).2.nodes.keys = target :: (d.nodes.keys.erase source).erase target := by
  obtain ⟨e, h⟩ | ⟨node, hnode, h⟩ := d.rename_cases source target
  · rw [h] at hr
    cases hr
  · rw [h]
    show ((d.nodes.erase source).insert target node).keys = _
    rw [AList.keys_insert, AList.keys_erase]

end Directory
