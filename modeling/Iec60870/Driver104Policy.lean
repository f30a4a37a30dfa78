import Iec60870.Driver104Task

/-!
# Policies and file transfer

A policy is three lists of what the application accepts, one each for the
type, the cause and the common address, and an axis without a list is
unrestricted (`policy.rs`). When a connection is opened with a provider of
files, the types of file transfers are added to a restrictive policy, so that
the driver does not drop what the service waits for (`server104.rs`,
`client104.rs`).

Adding a type to a list widens it. Adding a type to an axis without a list
does the opposite: it makes the list, and with it every other type is refused.
A policy that restricts only causes or common addresses therefore ends up
letting nothing pass but file transfers, and this is the only way in which
the widening takes something away (`widening_iff`).
-/

namespace Frame104

open Iec60870

namespace AsduPolicy

/-- Allow a type (`allow_type_id`). The first one makes the axis a list. -/
def allowTypeId (p : AsduPolicy) (typeId : UInt8) : AsduPolicy :=
  { p with allowedTypeIds := some (insert typeId (p.allowedTypeIds.getD ∅)) }

/-- Allow a cause (`allow_cause`). -/
def allowCause (p : AsduPolicy) (causeRaw : UInt8) : AsduPolicy :=
  { p with allowedCauses := some (insert causeRaw (p.allowedCauses.getD ∅)) }

/-- Allow a common address (`allow_common_address`). -/
def allowCommonAddress (p : AsduPolicy) (ca : UInt16) : AsduPolicy :=
  { p with
    allowedCommonAddresses := some (insert ca (p.allowedCommonAddresses.getD ∅)) }

/-- The types of file transfers, in the order of the loops below. -/
def fileTransferTypeIds : List UInt8 := [120, 121, 122, 123, 124, 125, 126]

/-- The policy a server installs for an accepted connection
(`accept_with_policy_and_handler`). -/
def acceptWith (p : AsduPolicy) (fileProvider : Bool) : AsduPolicy :=
  if fileProvider && p.isRestrictive then
    fileTransferTypeIds.foldl allowTypeId p
  else p

/-- The policy a client with a provider of files installs
(`connect_with_file_provider_and_policy`). -/
def connectWith (p : AsduPolicy) : AsduPolicy :=
  if p.isRestrictive then fileTransferTypeIds.foldl allowTypeId p else p

/-! ## What widening does -/

/-- The causes and the common addresses of a policy let a header pass. -/
def admits (p : AsduPolicy) (causeRaw : UInt8) (ca : UInt16) : Bool :=
  onAxis p.allowedCauses causeRaw && onAxis p.allowedCommonAddresses ca

variable (p : AsduPolicy)

theorem allows_eq (typeId causeRaw : UInt8) (ca : UInt16) : p.allows typeId causeRaw ca
      = (onAxis p.allowedTypeIds typeId && p.admits causeRaw ca) :=
  Bool.and_assoc _ _ _

/-- Types are added on the axis of types alone. -/
theorem foldl_allowTypeId (typeIds : List UInt8) :
    (typeIds.foldl allowTypeId p).allowedCauses = p.allowedCauses
      ∧ (typeIds.foldl allowTypeId p).allowedCommonAddresses = p.allowedCommonAddresses := by
  induction typeIds generalizing p with
  | nil => exact ⟨rfl, rfl⟩
  | cons typeId typeIds ih => exact ih (p.allowTypeId typeId)

/-- With a list, the axis of types then lets the added ones pass as well. -/
theorem onAxis_foldl_allowTypeId {set : Finset UInt8}
    (h : p.allowedTypeIds = some set) (typeIds : List UInt8) (t : UInt8) :
    onAxis (typeIds.foldl allowTypeId p).allowedTypeIds t = true ↔ t ∈ set ∨ t ∈ typeIds := by
  induction typeIds generalizing p set with
  | nil =>
    rw [List.foldl_nil, h]
    simp [onAxis]
  | cons typeId typeIds ih =>
    have hnext : (p.allowTypeId typeId).allowedTypeIds = some (insert typeId set) := by
      rw [allowTypeId, h]
      rfl
    rw [List.foldl_cons, ih _ hnext, Finset.mem_insert, List.mem_cons]
    tauto

/-- Without one, it lets nothing else pass. -/
theorem onAxis_foldl_of_none (h : p.allowedTypeIds = none) {typeIds : List UInt8}
    (hne : typeIds ≠ []) (t : UInt8) :
    onAxis (typeIds.foldl allowTypeId p).allowedTypeIds t = true ↔ t ∈ typeIds := by
  cases typeIds with
  | nil => exact absurd rfl hne
  | cons typeId typeIds =>
    have hnext : (p.allowTypeId typeId).allowedTypeIds = some {typeId} := by
      rw [allowTypeId, h]
      rfl
    rw [List.foldl_cons, onAxis_foldl_allowTypeId _ hnext, Finset.mem_singleton, List.mem_cons]

theorem mem_fileTransferTypeIds (t : UInt8) : t ∈ fileTransferTypeIds ↔ 120 ≤ t ∧ t ≤ 126 := by
  simp only [fileTransferTypeIds, List.mem_cons, List.not_mem_nil, or_false,
    ← UInt8.toNat_inj, UInt8.le_iff_toNat_le]
  change t.toNat = 120 ∨ t.toNat = 121 ∨ t.toNat = 122 ∨ t.toNat = 123
    ∨ t.toNat = 124 ∨ t.toNat = 125 ∨ t.toNat = 126 ↔ 120 ≤ t.toNat ∧ t.toNat ≤ 126
  omega

/-- **The widened policy `p'` only adds permissions to `p`**, namely file
transfers from where `p` lets ASDUs pass. -/
def OnlyAdds (p p' : AsduPolicy) : Prop :=
  ∀ t causeRaw ca, p'.allows t causeRaw ca = true ↔ p.allows t causeRaw ca = true
      ∨ (120 ≤ t ∧ t ≤ 126) ∧ p.admits causeRaw ca = true

/-- An axis has a list that lets nothing pass. -/
def RefusesAll (p : AsduPolicy) : Prop :=
  p.allowedCauses = some ∅ ∨ p.allowedCommonAddresses = some ∅

variable {p}

theorem exists_onAxis {α : Type} [DecidableEq α] [Inhabited α]
    {allowed : Option (Finset α)} (h : allowed ≠ some ∅) :
    ∃ a, onAxis allowed a = true := by
  cases allowed with
  | none => exact ⟨default, rfl⟩
  | some set =>
    obtain ⟨a, ha⟩ := Finset.nonempty_iff_ne_empty.mpr fun he => h (congrArg some he)
    exact ⟨a, decide_eq_true ha⟩

/-- Nothing is lost where nothing was let pass. -/
theorem RefusesAll.admits (h : p.RefusesAll) (causeRaw : UInt8) (ca : UInt16) :
    p.admits causeRaw ca = false := by
  obtain h | h := h
  · rw [AsduPolicy.admits, h]
    rfl
  · rw [AsduPolicy.admits, h]
    exact Bool.and_false _

theorem allows_foldl_allowTypeId (typeIds : List UInt8) (t causeRaw : UInt8)
    (ca : UInt16) : (typeIds.foldl allowTypeId p).allows t causeRaw ca
      = (onAxis (typeIds.foldl allowTypeId p).allowedTypeIds t && p.admits causeRaw ca) := by
  obtain ⟨hcauses, haddresses⟩ := p.foldl_allowTypeId typeIds
  rw [allows_eq, AsduPolicy.admits, hcauses, haddresses]
  rfl

/-- A list of types is widened. -/
theorem onlyAdds_of_isSome (h : p.allowedTypeIds.isSome = true) :
    OnlyAdds p (fileTransferTypeIds.foldl allowTypeId p) := by
  obtain ⟨set, hset⟩ := Option.isSome_iff_exists.mp h
  intro t causeRaw ca
  rw [allows_foldl_allowTypeId, allows_eq, Bool.and_eq_true, Bool.and_eq_true,
    onAxis_foldl_allowTypeId _ hset, mem_fileTransferTypeIds, hset, or_and_right]
  exact or_congr_left (and_congr_left fun _ => (decide_eq_true_iff).symm)

/-- Making a list of types takes every other type away. -/
theorem not_onlyAdds_of_none (h : p.allowedTypeIds = none) (hr : ¬ p.RefusesAll) :
    ¬ OnlyAdds p (fileTransferTypeIds.foldl allowTypeId p) := by
  obtain ⟨hcauses, haddresses⟩ := not_or.mp hr
  obtain ⟨causeRaw, hcause⟩ := exists_onAxis hcauses
  obtain ⟨ca, haddress⟩ := exists_onAxis haddresses
  have hadmits : p.admits causeRaw ca = true := by
    rw [AsduPolicy.admits, hcause, haddress]
    rfl
  intro hadds
  -- Type 1 is no type of a file transfer, and was let pass before.
  have hallowed := (hadds 1 causeRaw ca).mpr <| Or.inl <| by
    rw [allows_eq, h, hadmits]
    rfl
  rw [allows_foldl_allowTypeId, Bool.and_eq_true, onAxis_foldl_of_none _ h (by decide)] at hallowed
  exact absurd hallowed.1 (by decide)

/-- **When widening a policy for file transfers only adds permissions**: if it
has a list of types already, if it is unrestricted, or if it lets nothing pass
at all. -/
theorem widening_iff (p : AsduPolicy) :
    (OnlyAdds p (p.acceptWith true) ∧ OnlyAdds p p.connectWith)
      ↔ p.allowedTypeIds.isSome = true ∨ p.isRestrictive = false ∨ p.RefusesAll := by
  have haccept : p.acceptWith true = p.connectWith := by
    rw [acceptWith, Bool.true_and]
    rfl
  rw [haccept, and_self, connectWith]
  cases hres : p.isRestrictive with
  | false =>
    rw [if_neg Bool.false_ne_true]
    refine iff_of_true (fun t causeRaw ca => ⟨Or.inl, ?_⟩) (Or.inr (Or.inl rfl))
    rintro (hallows | ⟨-, hadmits⟩)
    · exact hallows
    · have hnone : p.allowedTypeIds = none := by
        rw [isRestrictive, Bool.or_eq_false_iff, Bool.or_eq_false_iff] at hres
        exact Option.isNone_iff_eq_none.mp (Option.isSome_eq_false_iff.mp hres.1.1)
      rw [allows_eq, hnone, hadmits]
      rfl
  | true =>
    rw [if_pos rfl]
    cases htypes : p.allowedTypeIds with
    | some set =>
      refine iff_of_true (onlyAdds_of_isSome ?_) (Or.inl rfl)
      rw [htypes]
      rfl
    | none =>
      constructor
      · intro hadds
        by_contra hno
        exact not_onlyAdds_of_none htypes (fun hr => hno (Or.inr (Or.inr hr))) hadds
      · rintro (h | h | h)
        · exact absurd h Bool.false_ne_true
        · exact absurd h (Ne.symm Bool.false_ne_true)
        · intro t causeRaw ca
          rw [allows_foldl_allowTypeId, allows_eq, h.admits]
          simp

/-- A policy that restricts the cause alone: with a provider of files, a
measured value that it let pass is refused. -/
theorem widening_narrows_cause :
    ¬ (OnlyAdds (new.allowCause 3) ((new.allowCause 3).acceptWith true)
      ∧ OnlyAdds (new.allowCause 3) (new.allowCause 3).connectWith)
      ∧ (new.allowCause 3).allows 13 3 1 = true
      ∧ ((new.allowCause 3).acceptWith true).allows 13 3 1 = false
      ∧ (new.allowCause 3).connectWith.allows 13 3 1 = false := by
  have hbefore : (new.allowCause 3).allows 13 3 1 = true := by decide
  have hafter : ((new.allowCause 3).acceptWith true).allows 13 3 1 = false := by decide
  refine ⟨fun hadds => ?_, hbefore, hafter, by decide⟩
  rw [(hadds.1 13 3 1).mpr (Or.inl hbefore)] at hafter
  exact Bool.false_ne_true hafter.symm

end AsduPolicy

end Frame104
