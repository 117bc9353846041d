import HttpRelay.Proofs.Transport.FeedReads
import HttpRelay.Proofs.WebSocket.FrameStream

/-!
# The grammar of frame headers

The layout of RFC 6455, section 5.2, bit by bit, said without readers: `Header.IsLegal` tells which
octets are a header that an end in a role may be sent. A length may be written longer than it has
to be, as long as it fits its form.

* `Header.parses_decode`: decoding accepts the legal headers, and reads them as they are laid out;
* `Header.failsAs_decode`: why it refuses everything else;
* `Header.length_encode`, `IsLegal.encodedLength_le`: the shortest form is no longer than what was
  read;
* `Header.decode_decides`: all of it, for every byte string.
-/

namespace HttpRelay.WebSocket

open Feed (Parses FailsAs)

section Octets

/-- What holds of each of the 256 octets holds of all. -/
theorem forall_octet {P : UInt8 → Prop} (h : ∀ n : Fin 256, P (.ofFin n)) (octet : UInt8) :
    P octet :=
  h octet.toFin

/-- The fields of the first octet: a flag, three bits, and four bits. -/
theorem first_fields (octet : UInt8) :
    (octet &&& 0x80 ≠ 0 ↔ 128 ≤ octet.toNat) ∧ (octet &&& 0x70 = 0 ↔ octet.toNat / 16 % 8 = 0) ∧
      (octet &&& 0x0F).toNat = octet.toNat % 16 := by
  revert octet
  exact forall_octet (by decide +kernel)

/-- The fields of the second octet: a flag and seven bits. -/
theorem second_fields (octet : UInt8) :
    (octet &&& 0x80 ≠ 0 ↔ 128 ≤ octet.toNat) ∧ (octet &&& 0x7F).toNat = octet.toNat % 128 := by
  revert octet
  exact forall_octet (by decide +kernel)

end Octets

/-- Opcodes are known by their numbers. -/
theorem Opcode.ofNat?_eq_some_iff {n : Nat} {opcode : Opcode} :
    ofNat? n = some opcode ↔ n = opcode.toNat := by
  constructor
  · unfold ofNat?
    split <;> rintro ⟨rfl⟩ <;> rfl
  · rintro rfl
    exact (Header.opcode_toNat opcode).2

namespace Header

/-- The length that seven bits and the octets behind them spell. The longest form leaves the most
significant bit alone. -/
inductive SpellsLength : (short : Nat) → (extension : Bytes) → (length : Nat) → Prop
  | short {length : Nat} (h : length ≤ 125) : SpellsLength length [] length
  | medium {extension : Bytes} (h : extension.length = 2) :
      SpellsLength 126 extension (Word.ofBe extension)
  | long {extension : Bytes} (h : extension.length = 8)
      (hlt : Word.ofBe extension < 0x8000000000000000) :
      SpellsLength 127 extension (Word.ofBe extension)

/-- The octets of the key that masks what an end in a role is sent: frames from clients are masked,
frames from servers are not. -/
inductive SpellsMask : Role → (octets : Bytes) → Option MaskKey → Prop
  | client : SpellsMask .client [] none
  | server (key : MaskKey) : SpellsMask .server key.toBytes (some key)

/-- A header that an end in a role may be sent, in its parts. -/
structure LaidOut (role : Role) (h : Header) (first second : UInt8) (extension key : Bytes) :
    Prop where
  fin : h.fin = true ↔ first &&& 0x80 ≠ 0
  reserved : first &&& 0x70 = 0
  opcode : (first &&& 0x0F).toNat = h.opcode.toNat
  masked : second &&& 0x80 ≠ 0 ↔ role = .server
  length : SpellsLength (second &&& 0x7F).toNat extension h.length
  mask : SpellsMask role key h.mask
  /-- Control frames stand alone and are short. -/
  control : h.Proper

/-- The octets of a header that an end in a role may be sent. -/
def IsLegal (role : Role) (h : Header) (octets : Bytes) : Prop :=
  ∃ first second extension key,
    h.LaidOut role first second extension key ∧ octets = first :: second :: (extension ++ key)

section Parts

theorem parses_bytes (n : Nat) :
    Parses (bytes n) fun taken octets => taken = octets ∧ octets.length = n :=
  Feed.parses_bytes n Error.io

/-- A length is read as it is spelled, in whichever form. -/
theorem parses_decodeLength {short : Nat} (h : short < 128) :
    Parses (decodeLength short) fun length octets => SpellsLength short octets length := by
  unfold decodeLength
  split
  · refine ((parses_bytes 2).bind (exact_bytes 2) fun _ => Feed.parses_pure _).congr ?_
    intro length octets
    constructor
    · rintro ⟨extension, _, _, rfl, ⟨rfl, hlength⟩, rfl, rfl⟩
      rw [List.append_nil]
      exact .medium hlength
    · intro hspells
      cases hspells with
      | short hshort => exact absurd hshort (by decide)
      | medium hlength =>
        exact ⟨_, octets, [], (List.append_nil _).symm, ⟨rfl, hlength⟩, rfl, rfl⟩
  · refine ((parses_bytes 8).bind (exact_bytes 8) fun _ =>
      (Feed.parses_pure _).guard _).congr ?_
    intro length octets
    have hsize : UInt64.size / 2 = 0x8000000000000000 := rfl
    constructor
    · rintro ⟨extension, _, _, rfl, ⟨rfl, hlength⟩, hlt, rfl, rfl⟩
      rw [List.append_nil]
      exact .long hlength (hsize ▸ Nat.lt_of_not_le hlt)
    · intro hspells
      cases hspells with
      | short hshort => exact absurd hshort (by decide)
      | long hlength hlt =>
        exact ⟨_, octets, [], (List.append_nil _).symm, ⟨rfl, hlength⟩,
          Nat.not_le_of_lt (hsize ▸ hlt), rfl, rfl⟩
  next hmedium hlong =>
    have hmedium : short ≠ 126 := hmedium
    have hlong : short ≠ 127 := hlong
    refine (Feed.parses_pure short).congr ?_
    intro length octets
    constructor
    · rintro ⟨rfl, rfl⟩
      exact .short (by omega)
    · intro hspells
      cases hspells with
      | short => exact ⟨rfl, rfl⟩
      | medium => exact absurd rfl hmedium
      | long => exact absurd rfl hlong

/-- A check takes nothing, and passes where its condition holds. -/
theorem parses_checkMask (role : Role) (masked : Bool) :
    Parses (checkMask role masked) fun _ octets =>
      (masked = true ↔ role = .server) ∧ octets = [] := by
  cases role <;> cases masked
  · exact (Feed.parses_pure ()).congr fun _ _ => by simp
  · exact (Feed.parses_fail _).congr fun _ _ => by simp
  · exact (Feed.parses_fail _).congr fun _ _ => by simp
  · exact (Feed.parses_pure ()).congr fun _ _ => by simp

theorem parses_checkControl (opcode : Opcode) (fin : Bool) (length : Nat) :
    Parses (checkControl opcode fin length) fun _ octets =>
      (opcode.isControl = true → fin = true ∧ length ≤ Close.maxControlPayload) ∧
        octets = [] := by
  unfold checkControl
  split
  next hcontrol =>
    split
    next hfin => exact (Feed.parses_fail _).congr fun _ _ => by simp_all
    next hfin =>
      split
      next hlong =>
        refine (Feed.parses_fail _).congr fun _ _ => ⟨False.elim, fun hlegal => ?_⟩
        have hshort := (hlegal.1 hcontrol).2
        omega
      next hlong => exact (Feed.parses_pure ()).congr fun _ _ => by simp_all
  next hdata => exact (Feed.parses_pure ()).congr fun _ _ => by simp_all

/-- The key is read if there is one. -/
theorem parses_key (masked : Prop) [Decidable masked] (header : Option MaskKey → Header) :
    Parses (if masked then do
        let key ← bytes 4
        let mask ← pure (MaskKey.ofBytes? key)
        return header mask
      else do
        let mask ← pure none
        return header mask) fun h octets =>
      ∃ mask, SpellsMask (if masked then .server else .client) octets mask ∧ h = header mask := by
  split
  next hmasked =>
    refine ((parses_bytes 4).bind (exact_bytes 4) fun _ => Feed.parses_pure _).congr ?_
    intro h octets
    constructor
    · rintro ⟨key, _, _, rfl, ⟨rfl, hlength⟩, rfl, rfl⟩
      obtain ⟨k₀, k₁, k₂, k₃, rfl⟩ : ∃ k₀ k₁ k₂ k₃, key = [k₀, k₁, k₂, k₃] := by
        match key, hlength with
        | [k₀, k₁, k₂, k₃], _ => exact ⟨k₀, k₁, k₂, k₃, rfl⟩
      exact ⟨some ⟨k₀, k₁, k₂, k₃⟩, .server ⟨k₀, k₁, k₂, k₃⟩, rfl⟩
    · rintro ⟨mask, hmask, rfl⟩
      cases hmask with
      | server key => exact ⟨_, key.toBytes, [], rfl, ⟨rfl, rfl⟩, rfl, rfl⟩
  next hmasked =>
    refine (Feed.parses_pure _).congr fun h octets => ?_
    constructor
    · rintro ⟨rfl, rfl⟩
      exact ⟨none, .client, rfl⟩
    · rintro ⟨mask, hmask, rfl⟩
      cases hmask
      exact ⟨rfl, rfl⟩

/-- The mask bit tells the role of the end that is sent to. -/
theorem role_eq {role : Role} {masked : Prop} [Decidable masked] (h : masked ↔ role = .server) :
    (if masked then Role.server else .client) = role := by
  cases role <;> simp [h]

/-- The length, the checks and the key behind the two first octets. -/
theorem parses_lengthAndKey (role : Role) (fin : Bool) (opcode : Opcode) (masked : Prop)
    [Decidable masked] {short : Nat} (h : short < 128) :
    Parses (do
        let length ← decodeLength short
        checkMask role (decide masked)
        checkControl opcode fin length
        if masked then do
          let key ← bytes 4
          let mask ← pure (MaskKey.ofBytes? key)
          return { fin, opcode, mask, length : Header }
        else do
          let mask ← pure none
          return { fin, opcode, mask, length : Header }) fun header octets =>
      ∃ extension key, octets = extension ++ key ∧ header.fin = fin ∧ header.opcode = opcode ∧
        (masked ↔ role = .server) ∧ SpellsLength short extension header.length ∧
        SpellsMask role key header.mask ∧ header.Proper := by
  refine ((parses_decodeLength h).bind (exact_decodeLength short) fun length =>
    (parses_checkMask role _).bind (exact_checks role _ opcode fin length).1 fun _ =>
      (parses_checkControl opcode fin length).bind (exact_checks role true opcode fin length).2
        fun _ => parses_key masked _).congr ?_
  intro header octets
  constructor
  · rintro ⟨length, extension, _, rfl, hlength, _, _, _, rfl, ⟨hmasked, rfl⟩, _, _, key, rfl,
      ⟨hcontrol, rfl⟩, mask, hmask, rfl⟩
    rw [decide_eq_true_iff] at hmasked
    rw [role_eq hmasked] at hmask
    exact ⟨extension, key, rfl, rfl, rfl, hmasked, hlength, hmask, hcontrol⟩
  · rintro ⟨extension, key, rfl, rfl, rfl, hmasked, hlength, hmask, hproper⟩
    exact ⟨header.length, extension, key, rfl, hlength, (), [], key, rfl,
      ⟨by rwa [decide_eq_true_iff], rfl⟩, (), [], key, rfl, ⟨hproper, rfl⟩, header.mask,
      by rwa [role_eq hmasked], rfl⟩

/-- What a header is read from behind its reserved bits. -/
def behind (role : Role) (first second : UInt8) : Read Header := do
  let some opcode := Opcode.ofNat? (first.toNat % 16) | Feed.fail (.peer "unknown opcode")
  let masked := 128 ≤ second.toNat
  let length ← decodeLength (second.toNat % 128)
  checkMask role masked
  checkControl opcode (128 ≤ first.toNat) length
  let mask ← if masked then pure (MaskKey.ofBytes? (← bytes 4)) else pure none
  return { fin := 128 ≤ first.toNat, opcode, mask, length }

theorem parses_behind (role : Role) (first second : UInt8) :
    Parses (behind role first second) fun h octets =>
      ∃ extension key, octets = extension ++ key ∧ first.toNat % 16 = h.opcode.toNat ∧
        (h.fin = true ↔ 128 ≤ first.toNat) ∧ (128 ≤ second.toNat ↔ role = .server) ∧
        SpellsLength (second.toNat % 128) extension h.length ∧ SpellsMask role key h.mask ∧
        h.Proper := by
  unfold behind
  split
  next opcode hopcode =>
    rw [Opcode.ofNat?_eq_some_iff] at hopcode
    refine (parses_lengthAndKey role _ opcode (128 ≤ second.toNat)
      (Nat.mod_lt second.toNat (by decide))).congr fun h octets => ?_
    constructor
    · rintro ⟨extension, key, rfl, hfin, rfl, hrest⟩
      exact ⟨extension, key, rfl, hopcode, by rw [hfin, decide_eq_true_iff], hrest⟩
    · rintro ⟨extension, key, rfl, hnumber, hfin, hrest⟩
      refine ⟨extension, key, rfl, ?_, ?_, hrest⟩
      · rw [Bool.eq_iff_iff, hfin, decide_eq_true_iff]
      · have hknown := (opcode_toNat h.opcode).2
        rw [← hnumber, hopcode, (opcode_toNat opcode).2] at hknown
        exact (Option.some.inj hknown).symm
  next hunknown =>
    refine (Feed.parses_fail _).congr fun h octets => ⟨False.elim, ?_⟩
    rintro ⟨_, _, _, hnumber, -⟩
    exact hunknown _ (Opcode.ofNat?_eq_some_iff.mpr hnumber)

/-- Decoding accepts the headers that the end may be sent, whatever is behind them, and reads them
as they are laid out. -/
theorem parses_decode (role : Role) : Parses (decode role) (IsLegal role) := by
  have hdecode : decode role = (do
      let start ← bytes 2
      if (start.getD 0 0).toNat / 16 % 8 ≠ 0 then
        Feed.fail (.peer "reserved bits set without a negotiated extension")
      else behind role (start.getD 0 0) (start.getD 1 0)) := rfl
  rw [hdecode]
  refine ((parses_bytes 2).bind (exact_bytes 2) fun start =>
    (parses_behind role (start.getD 0 0) (start.getD 1 0)).guard _).congr fun h octets => ?_
  constructor
  · rintro ⟨start, _, _, rfl, ⟨rfl, hlength⟩, hreserved, extension, key, rfl, hopcode, hfin,
      hmasked, hspells, hmask, hproper⟩
    obtain ⟨first, second, rfl⟩ : ∃ first second, start = [first, second] := by
      match start, hlength with
      | [first, second], _ => exact ⟨first, second, rfl⟩
    refine ⟨first, second, extension, key, ?_, rfl⟩
    obtain ⟨hflag, hbits, hnumber⟩ := first_fields first
    obtain ⟨hflag', hshort⟩ := second_fields second
    exact
      { fin := hfin.trans hflag.symm
        reserved := hbits.mpr (by simpa using hreserved)
        opcode := hnumber.trans hopcode
        masked := hflag'.trans hmasked
        length := hshort ▸ hspells
        mask := hmask
        control := hproper }
  · rintro ⟨first, second, extension, key, hlaid, rfl⟩
    obtain ⟨hflag, hbits, hnumber⟩ := first_fields first
    obtain ⟨hflag', hshort⟩ := second_fields second
    refine ⟨[first, second], [first, second], extension ++ key, rfl, ⟨rfl, rfl⟩, ?_, extension,
      key, rfl, ?_⟩
    · simpa using hbits.mp hlaid.reserved
    · exact ⟨hnumber.symm.trans hlaid.opcode, hlaid.fin.trans hflag, hflag'.symm.trans hlaid.masked,
        hshort ▸ hlaid.length, hlaid.mask, hlaid.control⟩

end Parts

section Refusals

/-- The rules of a header that a peer may break. -/
def faults : List String :=
  ["reserved bits set without a negotiated extension", "unknown opcode",
    "payload length has the most significant bit set", "client frames must be masked",
    "server frames must not be masked", "control frames must not be fragmented",
    "control frame payload exceeds 125 bytes"]

/-- Why a header is refused: it ends early, or breaks a rule. -/
inductive Refusal : Error → Prop
  | short : Refusal (.io .unexpectedEof)
  | fault {reason : String} (h : reason ∈ faults) : Refusal (.peer reason)

theorem failsAs_bytes (n : Nat) : FailsAs (bytes n) Refusal := Feed.failsAs_bytes .short n

theorem failsAs_decodeLength (short : Nat) : FailsAs (decodeLength short) Refusal := by
  unfold decodeLength
  split
  · exact (failsAs_bytes 2).bind fun _ => Feed.failsAs_pure _ _
  · refine (failsAs_bytes 8).bind fun _ => ?_
    dsimp only
    split
    · exact Feed.failsAs_fail (.fault (by simp [faults]))
    · exact Feed.failsAs_pure _ _
  · exact Feed.failsAs_pure _ _

theorem failsAs_checkMask (role : Role) (masked : Bool) :
    FailsAs (checkMask role masked) Refusal := by
  unfold checkMask
  split
  · exact Feed.failsAs_fail (.fault (by simp [faults]))
  · exact Feed.failsAs_fail (.fault (by simp [faults]))
  · exact Feed.failsAs_pure _ _

theorem failsAs_checkControl (opcode : Opcode) (fin : Bool) (length : Nat) :
    FailsAs (checkControl opcode fin length) Refusal := by
  unfold checkControl
  split
  · split
    · exact Feed.failsAs_fail (.fault (by simp [faults]))
    · split
      · exact Feed.failsAs_fail (.fault (by simp [faults]))
      · exact Feed.failsAs_pure _ _
  · exact Feed.failsAs_pure _ _

/-- Whatever is no legal header is refused for one of these reasons. -/
theorem failsAs_decode (role : Role) : FailsAs (decode role) Refusal := by
  unfold decode
  refine (failsAs_bytes 2).bind fun start => ?_
  dsimp only
  split
  · exact Feed.failsAs_fail_bind (.fault (by simp [faults])) _
  · split
    · refine (failsAs_decodeLength _).bind fun length => ?_
      refine (failsAs_checkMask _ _).bind fun _ => ?_
      refine (failsAs_checkControl _ _ _).bind fun _ => ?_
      split
      · exact (failsAs_bytes 4).bind fun _ => Feed.failsAs_pure _ _
      · exact Feed.failsAs_pure _ _
    · exact Feed.failsAs_fail (.fault (by simp [faults]))

end Refusals

section Lengths

variable {role : Role} {h : Header} {octets : Bytes}

/-- The octets behind the seven bits of a length, in its shortest form. -/
theorem length_lengthField (length : Nat) :
    (lengthField length).2.length =
      if length ≤ 125 then 0 else if length < 65536 then 2 else 8 := by
  unfold lengthField
  split
  · rfl
  · split <;> exact Word.length_be _ _

/-- A header is as long as it says. -/
theorem length_encode (h : Header) : h.encode.length = h.encodedLength := by
  have hkey : ((h.mask.map MaskKey.toBytes).getD []).length = if h.mask.isSome then 4 else 0 := by
    cases h.mask <;> rfl
  rw [encode_eq, encodedLength, List.length_append, List.length_append, length_lengthField, hkey,
    Nat.add_assoc]
  rfl

/-- Two octets spell a number of sixteen bits. -/
theorem ofBe_lt_of_two {extension : Bytes} (h : extension.length = 2) :
    Word.ofBe extension < 65536 := by
  have hlt := Word.ofBe_lt extension
  rwa [h] at hlt

/-- No form of a length is shorter than the one that is written for it. -/
theorem SpellsLength.le {short length : Nat} {extension : Bytes}
    (h : SpellsLength short extension length) :
    (if length ≤ 125 then 0 else if length < 65536 then 2 else 8) ≤ extension.length := by
  cases h with
  | short h => rw [if_pos h]; exact Nat.zero_le _
  | medium h =>
    rw [if_pos (ofBe_lt_of_two h), h]
    split <;> decide
  | long h =>
    rw [h]
    split
    · decide
    · split <;> decide

theorem SpellsLength.lt {short length : Nat} {extension : Bytes}
    (h : SpellsLength short extension length) : length < 0x8000000000000000 := by
  cases h with
  | short h => exact Nat.lt_of_le_of_lt h (by decide)
  | medium h => exact Nat.lt_trans (ofBe_lt_of_two h) (by decide)
  | long _ hlt => exact hlt

theorem SpellsMask.length {key : Bytes} {mask : Option MaskKey} (h : SpellsMask role key mask) :
    key.length = if mask.isSome then 4 else 0 := by
  cases h <;> rfl

theorem SpellsMask.isSome {key : Bytes} {mask : Option MaskKey} (h : SpellsMask role key mask) :
    mask.isSome = decide (role = .server) := by
  cases h <;> rfl

/-- The header that is written is no longer than the one that was read. -/
theorem IsLegal.encodedLength_le (hlegal : IsLegal role h octets) :
    h.encodedLength ≤ octets.length := by
  obtain ⟨first, second, extension, key, hlaid, rfl⟩ := hlegal
  have hextension := hlaid.length.le
  rw [encodedLength, ← hlaid.mask.length]
  simp only [List.length_cons, List.length_append]
  omega

/-- A legal header is read back from its shortest form. -/
theorem IsLegal.decode_encode (hlegal : IsLegal role h octets) (rest : Bytes) :
    Feed.run (.complete (h.encode ++ rest)) (decode role) = (.ok h, .complete rest) := by
  obtain ⟨first, second, extension, key, hlaid, -⟩ := hlegal
  exact Header.decode_encode rest true hlaid.length.lt hlaid.mask.isSome hlaid.control

end Lengths

/-- Whatever bytes a connection brings before it ends, decoding reads a header off their front
exactly where they begin with one that the end may be sent, and it reads what is laid out there.
Everything else ends early or is a violation with code 1002. A header that was read can be written
in no more octets than it took, and is read back from them. -/
theorem decode_decides (role : Role) (input : Bytes) :
    (∀ h left, Feed.run (.complete input) (decode role) = (.ok h, .complete left) ↔
        ∃ octets, input = octets ++ left ∧ IsLegal role h octets) ∧
      ((∃ h left octets, input = octets ++ left ∧ IsLegal role h octets) ∨
        ∃ error left, Feed.run (.complete input) (decode role) = (.error (.failed error), left) ∧
          (error = .io .unexpectedEof ∨ ∃ reason, error = .violation .protocolError reason)) ∧
      ∀ h left, Feed.run (.complete input) (decode role) = (.ok h, .complete left) →
        h.encode.length = h.encodedLength ∧ h.encodedLength + left.length ≤ input.length ∧
          ∀ rest, Feed.run (.complete (h.encode ++ rest)) (decode role) =
            (.ok h, .complete rest) := by
  have haccepts (h : Header) (left : Bytes) := parses_decode role (.complete input) h left
  refine ⟨haccepts, ?_, fun h left hrun => ?_⟩
  · rcases (exact_decode role).closed_cases input with ⟨h, left, hrun⟩ | ⟨error, left, hrun⟩
    · obtain ⟨octets, hinput, hlegal⟩ := (haccepts h left).mp hrun
      exact .inl ⟨h, left, octets, hinput, hlegal⟩
    · refine .inr ⟨error, _, hrun, ?_⟩
      cases failsAs_decode role _ _ _ hrun with
      | short => exact .inl rfl
      | fault => exact .inr ⟨_, rfl⟩
  · obtain ⟨octets, hinput, hlegal⟩ := (haccepts h left).mp hrun
    refine ⟨length_encode h, ?_, hlegal.decode_encode⟩
    have hlength := congrArg List.length hinput
    rw [List.length_append] at hlength
    have := hlegal.encodedLength_le
    exact hlength ▸ Nat.add_le_add_right this _

/-- A masked text of five bytes whose length is written in two octets more than it takes. -/
theorem decode_decides_longer_form :
    let h : Header := ⟨true, .text, some ⟨1, 2, 3, 4⟩, 5⟩
    Feed.run (.complete [0x81, 0xFE, 0, 5, 1, 2, 3, 4, 0x68]) (decode .server) =
        (.ok h, .complete [0x68]) ∧
      h.encodedLength + 1 ≤ 9 ∧
      ∀ rest, Feed.run (.complete (h.encode ++ rest)) (decode .server) =
        (.ok h, .complete rest) := by
  intro h
  have hrun : Feed.run (.complete [0x81, 0xFE, 0, 5, 1, 2, 3, 4, 0x68]) (decode .server) =
      (.ok h, .complete [0x68]) := rfl
  obtain ⟨-, -, hwritten⟩ := decode_decides .server [0x81, 0xFE, 0, 5, 1, 2, 3, 4, 0x68]
  obtain ⟨-, hlength, hback⟩ := hwritten h [0x68] hrun
  exact ⟨hrun, hlength, hback⟩

end Header

end HttpRelay.WebSocket
