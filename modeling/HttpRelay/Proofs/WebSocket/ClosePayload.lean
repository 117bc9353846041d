import HttpRelay.Proofs.Text.Utf8Decoding
import HttpRelay.Proofs.WebSocket.MessageCodec

/-!
# The payload of a close

What a close frame can say, and what is read of it. Writing and reading undo each other, up to the
part of a reason that does not fit.

* `CloseCode.OnWire`: the codes that a close frame may carry, by their numbers;
* `Close.ofPayload_eq_some_iff`: which payloads are read as a code and a reason;
* `Close.payload_error_iff`: which codes are refused;
* `Close.payload_round_trip`: both directions.
-/

namespace HttpRelay.WebSocket

namespace CloseCode

/-- A code that a close frame may carry: its number is in use, or left to libraries and
applications, and it goes by the name of its number if that has one. -/
structure OnWire (code : CloseCode) : Prop where
  /-- Of the numbers below 1015, which is reserved, 1004 to 1006 are reserved as well. -/
  number : 1000 ≤ code.toCode.toNat ∧ code.toCode.toNat ≤ 1003 ∨
    1007 ≤ code.toCode.toNat ∧ code.toCode.toNat ≤ 1014 ∨
    3000 ≤ code.toCode.toNat ∧ code.toCode.toNat ≤ 4999
  named : ofCode code.toCode = code

@[simp] theorem toCode_other (n : UInt16) : (other n).toCode = n := rfl

/-- A number is that of its code. -/
theorem toCode_ofCode (n : UInt16) : (ofCode n).toCode = n := by
  apply UInt16.toNat_inj.mp
  rw [ofCode]
  -- one case for each number with a name, and the rest
  split
  all_goals simp_all [toCode]

theorem isSendable_other_iff {n : UInt16} :
    (other n).isSendable = true ↔
      1012 ≤ n.toNat ∧ n.toNat ≤ 1014 ∨ 3000 ≤ n.toNat ∧ n.toNat ≤ 4999 := by
  simp [isSendable]

/-- A code without a name is that of its number only if the number has no name. -/
theorem ofCode_eq_other {n : UInt16} (h : ofCode n = other n) :
    (n.toNat < 1000 ∨ 1003 < n.toNat) ∧ (n.toNat < 1007 ∨ 1011 < n.toNat) := by
  rw [ofCode] at h
  split at h
  case h_13 =>
    simp only [imp_false] at *
    omega
  all_goals cases h

/-- The codes that may be sent are those on the wire. -/
theorem isSendable_iff_onWire {code : CloseCode} : code.isSendable = true ↔ code.OnWire := by
  constructor
  · intro h
    refine ⟨?_, ofCode_toCode h⟩
    cases code with
    | other n =>
      have hrange := isSendable_other_iff.mp h
      rw [toCode_other]
      omega
    | none | connectionLost | tlsHandshakeFailed => cases h
    | _ => decide
  · rintro ⟨hnumber, hnamed⟩
    cases code with
    | other n =>
      rw [toCode_other] at hnumber hnamed
      have hfree := ofCode_eq_other hnamed
      apply isSendable_other_iff.mpr
      omega
    | none | connectionLost | tlsHandshakeFailed => revert hnumber; decide
    | _ => rfl

end CloseCode

namespace Close

/-- A reason that fits is not cut. -/
theorem cutReason_eq_self {reason : String}
    (h : (Bytes.ofText reason).length ≤ maxReason) : cutReason reason = reason := by
  have hcut := isCut_cutReason reason
  have hwhole := hcut.longest reason List.prefix_rfl h
  exact String.toList_inj.mp (hcut.isPrefix.eq_of_length_le hwhole.length_le)

/-- The payload of a code that can be sent. -/
theorem payload_of_isSendable {code : CloseCode} (h : code.isSendable = true) (reason : String) :
    payload code reason = .ok (octets ⟨code, cutReason reason⟩) := by
  have hnone : code ≠ .none := by
    rintro rfl
    cases h
  rw [payload, if_neg hnone, if_pos h]
  rfl

/-- A payload is read as a code and a reason exactly if it carries them, and the code may be
sent. -/
theorem ofPayload_eq_some_iff {bytes : Bytes} {status : Close} :
    ofPayload bytes = .ok (some status) ↔
      status.code.isSendable = true ∧ bytes = status.octets := by
  constructor
  · intro h
    unfold ofPayload at h
    -- nothing, one octet, and two or more
    split at h
    · cases h
    · cases h
    next hi lo rest =>
      dsimp only at h
      split at h
      next hcode =>
        split at h
        next reason hreason =>
          obtain rfl := Option.some.inj (Except.ok.inj h)
          refine ⟨hcode, ?_⟩
          have hvalue := Word.ofBe_lt [hi, lo]
          have hnumber : (UInt16.ofNat (Word.ofBe [hi, lo])).toNat = Word.ofBe [hi, lo] :=
            UInt16.toNat_ofNat_of_lt' hvalue
          rw [octets, CloseCode.toCode_ofCode, hnumber, Text.Utf8.ofText_of_decode? hreason]
          exact congrArg (· ++ rest) (Word.be_ofBe [hi, lo]).symm
        next => cases h
      next => cases h
  · rintro ⟨hcode, rfl⟩
    exact ofPayload_octets hcode

/-- A code is refused exactly if it is there and cannot be on the wire. -/
theorem payload_error_iff {code : CloseCode} {reason : String} {error : Error} :
    payload code reason = .error error ↔
      code ≠ .none ∧ ¬ code.OnWire ∧
        error = .violation .internalError s!"close code {code.display} cannot be sent" := by
  rw [← CloseCode.isSendable_iff_onWire, payload]
  split
  next hnone =>
    refine ⟨fun h => ?_, fun h => absurd hnone h.1⟩
    cases h
  next hnone =>
    split
    next hcode =>
      refine ⟨fun h => ?_, fun h => absurd hcode h.2.1⟩
      cases h
    next hcode =>
      rw [Except.error.injEq]
      exact ⟨fun h => ⟨hnone, hcode, h.symm⟩, fun h => h.2.2.symm⟩

/-- A code other than that for "no code" is refused exactly if it cannot be on the wire. Any other
is read back from its payload of at most 125 bytes, with the longest beginning of the reason that
there is room for. What a payload of that size is read as is written as the same payload. -/
theorem payload_round_trip (code : CloseCode) (reason : String) (bytes : Bytes) :
    (∀ error, payload code reason = .error error ↔
      code ≠ .none ∧ ¬ code.OnWire ∧
        error = .violation .internalError s!"close code {code.display} cannot be sent") ∧
    (code ≠ .none → payload code reason = .ok bytes →
      bytes.length ≤ 125 ∧
        ∃ cut, IsCut reason cut ∧ ofPayload bytes = .ok (some ⟨code, cut⟩)) ∧
    ∀ status, bytes.length ≤ 125 → ofPayload bytes = .ok (some status) →
      status.code.OnWire ∧ payload status.code status.reason = .ok bytes := by
  refine ⟨fun error => payload_error_iff, fun hnone hpayload => ?_, fun status hlength hread => ?_⟩
  · have hcode : code.isSendable = true := by
      rw [payload, if_neg hnone] at hpayload
      split at hpayload
      next hcode => exact hcode
      next => cases hpayload
    rw [payload_of_isSendable hcode] at hpayload
    obtain rfl := Except.ok.inj hpayload
    exact ⟨length_octets_cutReason_le code reason, cutReason reason, isCut_cutReason reason,
      ofPayload_octets hcode⟩
  · obtain ⟨hcode, rfl⟩ := ofPayload_eq_some_iff.mp hread
    have hfits : (Bytes.ofText status.reason).length ≤ maxReason := by
      rw [octets, List.length_append, Word.length_be] at hlength
      show _ ≤ 125 - 2
      omega
    refine ⟨CloseCode.isSendable_iff_onWire.mp hcode, ?_⟩
    rw [payload_of_isSendable hcode, cutReason_eq_self hfits]

/-- A character that the limit falls into is left out whole. -/
theorem payload_round_trip_cut_character :
    let reason := String.ofList (List.replicate 62 'é')
    let cut := String.ofList (List.replicate 61 'é')
    ∃ bytes, payload .normal reason = .ok bytes ∧ bytes.length ≤ 125 ∧
      ofPayload bytes = .ok (some ⟨.normal, cut⟩) ∧ payload .normal cut = .ok bytes ∧
      ∃ error, payload (.other 1000) reason = .error error := by
  intro reason cut
  have hcut : cutReason reason = cut := by decide +kernel
  have hpayload : payload .normal reason = .ok (octets ⟨.normal, cut⟩) := by
    rw [payload_of_isSendable rfl, hcut]
  have hread : ofPayload (octets ⟨.normal, cut⟩) = .ok (some ⟨.normal, cut⟩) := ofPayload_octets rfl
  obtain ⟨-, hwritten, hparsed⟩ := payload_round_trip .normal reason (octets ⟨.normal, cut⟩)
  obtain ⟨hlength, -⟩ := hwritten (by decide) hpayload
  obtain ⟨hrefused, -⟩ := payload_round_trip (.other 1000) reason []
  refine ⟨_, hpayload, hlength, hread, (hparsed _ hlength hread).2, ?_⟩
  exact ⟨_, (hrefused _).mpr ⟨by decide, fun h => absurd h.named (by decide), rfl⟩⟩

end Close

end HttpRelay.WebSocket
