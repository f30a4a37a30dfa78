import Iec60870.AsduLossless
import Iec60870.Driver104Policy

/-!
# The policy and the decoder read one header

The driver asks the policy before it has decoded anything: it looks at the
octets where the type, the cause and the common address of an ASDU stand under
the addressing of this profile (`asdu_passes_policy` of `driver.rs`), and lets a
string pass that is too short for them. The application decodes what it gets. If
the two disagreed on a single octet string, an ASDU would reach the application
that the policy refuses.

They do not. What the decoder returns is written as the octets it came from
(`Asdu.encode_of_decode`), and the layout of what is written is where the driver
looks (`peek_encode`). A string that is too short for the driver is one the
decoder refuses.
-/

namespace Frame104

open Iec60870

/-- **Where a delivered ASDU goes** (the arm `DeliverAsdu` of `apply_actions`), on
a connection with a file transfer service or without one (`ft_tx`). -/
def destinationOf (service : Bool) (policy : AsduPolicy) (asdu : Bytes) : Destination :=
  if service then destination policy asdu
  else if policy.isRestrictive && !asduPassesPolicy asdu policy then .dropped
  else .application

namespace AsduPolicy

/-- Whether a decoded ASDU is accepted, by its own fields. -/
def allowsAsdu (p : AsduPolicy) (a : Asdu) : Bool :=
  p.allows a.typeId a.cot.cause.raw a.ca.raw

variable {p : AsduPolicy}

/-- Without a list on any axis everything is accepted. -/
theorem allows_of_not_restrictive (h : p.isRestrictive = false) (typeId causeRaw : UInt8)
    (ca : UInt16) : p.allows typeId causeRaw ca = true := by
  simp only [isRestrictive, Bool.or_eq_false_iff, Option.isSome_eq_false_iff,
    Option.isNone_iff_eq_none] at h
  obtain ⟨⟨htypes, hcauses⟩, haddresses⟩ := h
  rw [allows, htypes, hcauses, haddresses]
  rfl

end AsduPolicy

section Peek

variable {policy : AsduPolicy} {asdu t : Bytes} {a : Asdu}

/-- **The driver finds the fields of an ASDU where they are written.** -/
theorem peek_encode (hcause : a.cot.cause.raw < 64) :
    asduPassesPolicy (a.encode .iec104) policy = policy.allowsAsdu a := by
  have hraw : a.cot.firstOctet &&& 0x3F = a.cot.cause.raw :=
    congrArg (fun c => c.cause.raw) (Cot.parse_firstOctet a.cot hcause)
  have hca : UInt16.ofNat (Wire.ofLe (Wire.putLe 2 a.ca.raw.toNat)) = a.ca.raw := by
    have hlt : a.ca.raw.toNat < 256 ^ 2 := a.ca.raw.toNat_lt
    rw [Wire.ofLe_putLe, Nat.mod_eq_of_lt hlt, UInt16.ofNat_toNat]
  show policy.allows a.typeId (a.cot.firstOctet &&& 0x3F)
    (UInt16.ofNat (Wire.ofLe (Wire.putLe 2 a.ca.raw.toNat))) = _
  rw [hraw, hca]
  rfl

variable (h : (Asdu.decode .iec104).run asdu = .ok (a, t))

include h

/-- What is decoded passes by its own fields. -/
theorem passes_of_decode :
    (policy.isRestrictive && !asduPassesPolicy asdu policy) = !policy.allowsAsdu a := by
  obtain ⟨hencode, -, hcause⟩ := Asdu.encode_of_decode h
  rw [← hencode, peek_encode hcause]
  cases hres : policy.isRestrictive with
  | true => rfl
  | false =>
    rw [AsduPolicy.allowsAsdu, AsduPolicy.allows_of_not_restrictive hres]
    rfl

/-- **Where a decodable ASDU goes.** -/
theorem destination_of_decode : destination policy asdu = if policy.allowsAsdu a then
          if isFileTransfer asdu then .service a.ca a else .application
        else .dropped := by
  unfold destination
  rw [passes_of_decode h, h]
  cases policy.allowsAsdu a <;> rfl

theorem destinationOf_of_decode (service : Bool) : destinationOf service policy asdu
      = if policy.allowsAsdu a then
          if service && isFileTransfer asdu then .service a.ca a else .application
        else .dropped := by
  unfold destinationOf
  cases service with
  | true => exact destination_of_decode h
  | false =>
    rw [passes_of_decode h]
    cases policy.allowsAsdu a <;> rfl

end Peek

/-- **No decodable ASDU gets round the policy**: with a file transfer service or
without one, an ASDU that can be decoded is forwarded exactly if the policy allows
the type, the cause and the common address that decoding it returns. The driver task
then sends it to the service or to the application, and otherwise sends nothing. -/
theorem policy_decides {asdu t : Bytes} {a : Asdu}
    (h : (Asdu.decode .iec104).run asdu = .ok (a, t)) (policy : AsduPolicy) :
    (∀ service, destinationOf service policy asdu ≠ .dropped
        ↔ policy.allows a.typeId a.cot.cause.raw a.ca.raw = true)
      ∧ ∀ (d : Driver) (rest : List Action) (keepGoing decoding : Bool) (now : Instant),
        d.policy = policy → d.listening = true →
        d.phase = .applying (.deliverAsdu asdu :: rest) keepGoing decoding →
        (d.apply true now).2
          = if policy.allows a.typeId a.cot.cause.raw a.ca.raw then
              if isFileTransfer asdu then [.routed a.ca a] else [.event (.asdu asdu)]
            else [] := by
  have hallows : policy.allows a.typeId a.cot.cause.raw a.ca.raw = policy.allowsAsdu a := rfl
  refine ⟨fun service => ?_, ?_⟩
  · rw [destinationOf_of_decode h, hallows]
    cases policy.allowsAsdu a with
    | true => cases service && isFileTransfer asdu <;> simp
    | false => simp
  · intro d rest keepGoing decoding now hpolicy hlisten hphase
    unfold Driver.apply
    rw [hphase]
    dsimp only
    unfold Driver.perform
    dsimp only
    rw [hpolicy, destination_of_decode h, hallows]
    cases policy.allowsAsdu a with
    | false => rfl
    | true =>
      cases isFileTransfer asdu with
      | true => rfl
      | false =>
        show d.tell (.asdu asdu) = [.event (.asdu asdu)]
        rw [Driver.tell, hlisten]
        rfl

/-- A single point with all flags of the cause set, and the policies that name its
type and its cause with and without the flags. -/
theorem policy_decides_flags :
    let asdu : Bytes := [1, 1, 0xC3, 7, 1, 0, 0, 0, 0, 1]
    ∃ a, (Asdu.decode .iec104).run asdu = .ok (a, [])
      ∧ (∀ service, destinationOf service ((AsduPolicy.new.allowTypeId 1).allowCause 3) asdu
          ≠ .dropped)
      ∧ ∀ service, destinationOf service ((AsduPolicy.new.allowTypeId 1).allowCause 0xC3) asdu
          = .dropped := by
  intro asdu
  refine ⟨⟨1, .single 1, ⟨⟨3⟩, true, true, 7⟩, ⟨1⟩, [0, 0, 0, 1]⟩, rfl, fun service => ?_,
    fun service => ?_⟩
  · exact ((policy_decides rfl ((AsduPolicy.new.allowTypeId 1).allowCause 3)).1 service).mpr
      (by decide)
  · refine not_not.mp (mt ((policy_decides rfl
      ((AsduPolicy.new.allowTypeId 1).allowCause 0xC3)).1 service).mp ?_)
    decide

end Frame104
