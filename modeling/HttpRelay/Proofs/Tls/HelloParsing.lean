import HttpRelay.Proofs.Tls.HelloGrammar
import Mathlib.Data.List.Basic

/-!
# Parsing a client hello

A record is taken for a client hello exactly if it is one by the grammar, and then it is given the
meaning that the grammar gives it.

* `Extension.parses_read`: one extension;
* `ClientHello.fills_body`, `ClientHello.fills_message`: a hello and its handshake message;
* `ClientHello.ofRecord_iff`, `ClientHello.ofRecord_accepts`: a whole record.
-/

namespace HttpRelay.Tls

open Bytes Cursor

theorem Read.parses_ofExcept {α : Type} (result : Except SniffError α) :
    Parses (Read.ofExcept result) fun a bytes => result = .ok a ∧ bytes = [] := by
  cases result with
  | ok value =>
    refine (parses_pure value).congr fun a bytes => and_congr_left' ?_
    rw [Except.ok.injEq, eq_comm]
  | error error =>
    intro c a rest
    refine ⟨fun ⟨c', hrun, _⟩ => ?_, fun ⟨front, _, hvalue, _⟩ => (nomatch hvalue)⟩
    cases (Prod.mk.inj hrun).1

theorem Read.fills_ofExcept {α : Type} (result : Except SniffError α) :
    Cursor.Fills (Read.ofExcept result) fun a _ => result = .ok a := by
  cases result with
  | ok value => exact (fills_pure value).congr fun a bytes => by rw [Except.ok.injEq, eq_comm]
  | error error => exact (fills_throw error).congr fun a bytes => by simp

namespace Extension

theorem parses_serverNameEntry : Parses serverNameEntry IsServerNameEntry := by
  refine ((parses_octet.orFail _).bind fun nameType =>
    ((parses_vector 2).orFail _).bind fun name => parses_pure _).congr fun entry bytes => ?_
  constructor
  · rintro ⟨nameType, first, second, rfl, rfl, name, vector, rest, rfl, hvector, rfl, rfl⟩
    rw [List.append_nil]
    by_cases hhost : nameType = hostNameType
    · subst hhost
      rw [if_pos rfl]
      exact .host hvector
    · rw [if_neg hhost]
      exact .other hhost hvector
  · intro hentry
    cases hentry with
    | @host name vector hvector =>
      exact ⟨0, [0], vector, rfl, rfl, name, vector, [], by simp, hvector, rfl, rfl⟩
    | @other nameType name vector hother hvector =>
      refine ⟨nameType, [nameType], vector, rfl, rfl, name, vector, [], by simp, hvector, ?_, rfl⟩
      exact (if_neg hother).symm

theorem parses_alpnEntry : Parses alpnEntry IsProtocol := by
  refine (((parses_vector 1).orFail _).bind fun name =>
    (parses_pure (asciiLossy name)).guard _ _).congr fun protocol bytes => ?_
  constructor
  · rintro ⟨name, vector, rest, rfl, hvector, hsome, rfl, rfl⟩
    rw [List.append_nil]
    exact .intro (by simpa using hsome) hvector
  · intro hentry
    cases hentry with
    | @intro name vector hsome hvector =>
      exact ⟨name, bytes, [], by simp, hvector, by simpa using hsome, rfl, rfl⟩

theorem not_isServerNameEntry_nil (entry : Option String) : ¬ IsServerNameEntry entry [] := nofun

theorem not_isProtocol_nil (protocol : String) : ¬ IsProtocol protocol [] := by
  generalize hnil : ([] : Bytes) = bytes
  intro hentry
  cases hentry with
  | intro nonempty vector => exact vector.ne_nil (by decide) hnil.symm

/-- A body that is one list is decoded to its entries. -/
theorem decodeList_iff {α : Type} {kind : ExtensionType} {trailing : String} {entry : Read α}
    {P : α → Bytes → Prop} (hentry : Parses entry P) (hsome : ∀ a, ¬ P a []) {entries : List α}
    {body : Bytes} :
    decodeList kind trailing entry body = .ok entries ↔ IsList P entries body := by
  have hend (list : Bytes) : Fills (do
      unless ← Cursor.atEnd do throw (.invalidExtension kind trailing)
      return list : Read Bytes) fun list' bytes =>
        bytes = [] ∧ list' = list ∨ bytes ≠ [] ∧ False :=
    fills_atEnd_bind (fills_pure list) (fills_throw _)
  have houter : Fills (do
      let list ← field kind "list length exceeds body" (Cursor.vector 2)
      unless ← Cursor.atEnd do throw (.invalidExtension kind trailing)
      return list) (IsVector 2) := by
    refine (((parses_vector 2).orFail _).fills_bind hend).congr fun list bytes => ?_
    constructor
    · rintro ⟨list, first, second, rfl, hvector, ⟨rfl, rfl⟩ | ⟨-, ⟨⟩⟩⟩
      rw [List.append_nil]
      exact hvector
    · intro hvector
      exact ⟨list, bytes, [], by simp, hvector, .inl ⟨rfl, rfl⟩⟩
  refine Outcome.bind_eq_ok.trans (exists_congr fun list => ?_)
  exact and_congr (houter _ list) (fills_many hentry hsome _ entries)

theorem decode_iff {code : Nat} {body : Bytes} {extension : Extension} :
    decode code body = .ok extension ↔ extension.IsBody code body := by
  -- the two types whose bodies are decoded, and then any other
  by_cases hserver : code = 0
  · subst hserver
    refine Outcome.bind_eq_ok.trans ?_
    simp only [decodeList_iff parses_serverNameEntry not_isServerNameEntry_nil]
    constructor
    · rintro ⟨entries, hlist, hvalue⟩
      obtain rfl := Except.ok.inj hvalue
      exact .serverName hlist
    · intro hbody
      cases hbody with
      | serverName hlist => exact ⟨_, hlist, rfl⟩
      | unknown hserver => exact absurd rfl hserver
  by_cases halpn : code = 16
  · subst halpn
    refine Outcome.bind_eq_ok.trans ?_
    simp only [decodeList_iff parses_alpnEntry not_isProtocol_nil]
    constructor
    · rintro ⟨protocols, hlist, hvalue⟩
      obtain rfl := Except.ok.inj hvalue
      exact .alpn hlist
    · intro hbody
      cases hbody with
      | alpn hlist => exact ⟨_, hlist, rfl⟩
      | unknown _ halpn => exact absurd rfl halpn
  have hother : ExtensionType.ofCode code = .other code := by
    unfold ExtensionType.ofCode
    split
    · exact absurd rfl hserver
    · exact absurd rfl halpn
    · rfl
  rw [decode, hother]
  constructor
  · intro hvalue
    obtain rfl := Except.ok.inj hvalue
    exact .unknown hserver halpn body
  · intro hbody
    cases hbody with
    | serverName => exact absurd rfl hserver
    | alpn => exact absurd rfl halpn
    | unknown => rfl

theorem parses_read : Parses Extension.read IsExtension := by
  refine (((parses_be 2).orFail _).bind fun code => ((parses_vector 2).orFail _).bind fun body =>
    Read.parses_ofExcept (decode code body)).congr fun extension bytes => ?_
  constructor
  · rintro ⟨code, first, rest, rfl, ⟨hlength, rfl⟩, body, second, none, rfl, hvector, hdecode, rfl⟩
    -- the two octets in front are what is written of the type that they spell
    have hfits := Word.ofBe_lt first
    have hfirst := Word.be_ofBe first
    rw [hlength] at hfits hfirst
    rw [List.append_nil, ← hfirst]
    exact .intro hfits (decode_iff.mp hdecode) hvector
  · intro hextension
    cases hextension with
    | @intro code _ body vector hfits hbody hvector =>
      exact ⟨code, _, vector, rfl, ⟨Word.length_be 2 code, Word.ofBe_be_of_lt hfits⟩, body, vector,
        [], by simp, hvector, decode_iff.mpr hbody, rfl⟩

end Extension

theorem not_isExtension_nil (extension : Extension) : ¬ IsExtension extension [] := by
  generalize hnil : ([] : Bytes) = bytes
  intro hextension
  cases hextension with
  | @intro code _ body vector fits meaning isVector =>
    have hlength := congrArg List.length hnil
    rw [List.length_append, Word.length_be, List.length_nil] at hlength
    omega

theorem Version.ofNat_ofBe (major minor : UInt8) :
    ofNat (Word.ofBe [major, minor]) = ⟨major.toNat, minor.toNat⟩ := by
  have hmajor := UInt8.toNat_lt major
  have hminor := UInt8.toNat_lt minor
  simp only [ofNat, Word.ofBe, List.reverse_cons, List.reverse_nil, List.nil_append,
    List.cons_append, Word.ofLe]
  congr 1 <;> omega

namespace ContentType

theorem ofCode_eq_handshake_iff (code : UInt8) : ofCode code = .handshake ↔ code = 22 := by
  rw [← UInt8.toNat_inj]
  unfold ofCode
  split <;> simp_all

end ContentType

namespace HandshakeType

theorem ofCode_eq_clientHello_iff (code : UInt8) : ofCode code = .clientHello ↔ code = 1 := by
  rw [← UInt8.toNat_inj]
  unfold ofCode
  split <;> simp_all

end HandshakeType

namespace ClientHello

/-- A vector that fills what is left of the input, and what it says. -/
theorem fills_vector {α : Type} (width : Nat) (error : Bytes → Nat → SniffError)
    {next : Bytes → Read α} {P : α → Bytes → Prop}
    (hnext : ∀ content, Fills (next content) fun a _ => P a content) :
    Fills (do
      let content ← Read.lift (Cursor.vector width)
      let left ← Cursor.left
      if left ≠ 0 then throw (error content left)
      next content) fun a bytes => ∃ content, IsVector width content bytes ∧ P a content := by
  refine (((parses_vector width).orFail _).fills_bind fun content =>
    fills_left_bind fun left => (hnext content).guard _ _).congr fun a bytes => ?_
  constructor
  · rintro ⟨content, first, second, rfl, hvector, hleft, ha⟩
    have hnone : second = [] := by simpa using hleft
    rw [hnone, List.append_nil]
    exact ⟨content, hvector, ha⟩
  · rintro ⟨content, hvector, ha⟩
    exact ⟨content, bytes, [], by simp, hvector, by simp, ha⟩

theorem fills_extensionBlock : Fills extensionBlock IsExtensionBlock := by
  have hpresent := fills_vector 2
    (fun block left => .lengthMismatch block.length (block.length + left)) fun block =>
    (Read.fills_ofExcept ((Cursor.ofBytes block).run (Cursor.many Extension.read)).1).congr
      fun extensions _ => fills_many Extension.parses_read not_isExtension_nil _ extensions
  refine (fills_atEnd_bind (fills_pure []) hpresent).congr fun extensions bytes => ?_
  constructor
  · rintro (⟨rfl, rfl⟩ | ⟨-, block, hvector, hsequence⟩)
    · exact .absent
    · exact .present hvector hsequence
  · intro hblock
    cases hblock with
    | absent => exact .inl ⟨rfl, rfl⟩
    | present hvector hsequence =>
      exact .inr ⟨hvector.ne_nil (by decide), _, hvector, hsequence⟩

/-- What a hello holds behind its session identifier. -/
theorem fills_offers (version : Version) (sessionId : Bytes) :
    Fills (do
      let _cipherSuites ← Read.lift (Cursor.vector 2)
      let _compressionMethods ← Read.lift (Cursor.vector 1)
      let extensions ← extensionBlock
      return { version, sessionId, extensions : ClientHello }) fun hello bytes =>
        ∃ cipherSuites suites compression methods extensions block,
          bytes = suites ++ (methods ++ block) ∧ IsVector 2 cipherSuites suites ∧
          IsVector 1 compression methods ∧ IsExtensionBlock extensions block ∧
          hello = { version, sessionId, extensions } := by
  refine (((parses_vector 2).orFail _).fills_bind fun cipherSuites =>
    ((parses_vector 1).orFail _).fills_bind fun compression =>
    fills_extensionBlock.map _).congr fun hello bytes => ?_
  constructor
  · rintro ⟨cipherSuites, suites, rest, rfl, hsuites, compression, methods, block, rfl, hmethods,
      extensions, hblock, rfl⟩
    exact ⟨cipherSuites, suites, compression, methods, extensions, block, rfl, hsuites, hmethods,
      hblock, rfl⟩
  · rintro ⟨cipherSuites, suites, compression, methods, extensions, block, rfl, hsuites, hmethods,
      hblock, rfl⟩
    exact ⟨cipherSuites, suites, _, rfl, hsuites, compression, methods, block, rfl, hmethods,
      extensions, hblock, rfl⟩

theorem fills_body : Fills body IsBody := by
  refine (((parses_be 2).orFail _).fills_bind fun version =>
    ((parses_skip randomSize).orFail _).fills_bind fun _ =>
    ((parses_vector 1).orFail _).fills_bind fun sessionId =>
    (fills_offers (Version.ofNat version) sessionId).guard _ _).congr fun hello bytes => ?_
  -- each read has its own part of the bytes, and the parts come in the order of the grammar
  constructor
  · rintro ⟨version, first, rest, rfl, ⟨hlength, rfl⟩, -, random, rest, rfl, hrandom, sessionId,
      session, rest, rfl, hsession, hshort, cipherSuites, suites, compression, methods, extensions,
      block, rfl, hsuites, hmethods, hblock, rfl⟩
    obtain ⟨major, minor, rfl⟩ := List.length_eq_two.mp hlength
    rw [Version.ofNat_ofBe]
    exact .intro hrandom hsession (Nat.not_lt.mp hshort) hsuites hmethods hblock
  · intro hbody
    cases hbody with
    | @intro major minor random sessionId session cipherSuites suites compression methods block
        extensions hrandom hsession hshort hsuites hmethods hblock =>
      exact ⟨_, [major, minor], _, rfl, ⟨rfl, rfl⟩, (), random, _, rfl, hrandom, sessionId, session,
        _, rfl, hsession, Nat.not_lt.mpr hshort, cipherSuites, suites, compression, methods,
        extensions, block, rfl, hsuites, hmethods, hblock, by rw [Version.ofNat_ofBe]⟩

theorem fills_message : Fills message IsMessage := by
  refine ((parses_octet.orFail _).fills_bind fun code => Fills.guard
    (((parses_be 3).orFail _).fills_bind fun declared =>
    fills_left_bind fun actual => fills_body.guard _ _) _ _).congr fun hello bytes => ?_
  constructor
  · rintro ⟨code, first, rest, rfl, rfl, hcode, declared, length, body, rfl, ⟨hwidth, rfl⟩,
      hactual, hbody⟩
    rw [not_not, HandshakeType.ofCode_eq_clientHello_iff] at hcode
    subst hcode
    exact .intro hbody (isVector_append hwidth (not_not.mp hactual))
  · intro hmessage
    cases hmessage with
    | @intro body vector hbody hvector =>
      obtain ⟨hsize, rfl⟩ := hvector
      have hvalue := Word.ofBe_be_of_lt hsize
      exact ⟨1, [1], _, rfl, rfl, not_not.mpr rfl, body.length, _, body, rfl,
        ⟨Word.length_be 3 _, hvalue⟩, not_not.mpr rfl, hbody⟩

/-- The header of a handshake record. -/
theorem parses_header : Parses RecordHeader.read fun header bytes =>
    ∃ (major minor : UInt8) (length : Bytes), bytes = 22 :: major :: minor :: length ∧
      length.length = 2 ∧ Word.ofBe length ≤ RecordHeader.maxFragment ∧
      header = ⟨.handshake, ⟨Word.ofBe [major], Word.ofBe [minor]⟩, Word.ofBe length⟩ := by
  refine ((parses_octet.orFail _).bind fun code => ((parses_be 1).orFail _).bind fun major =>
    ((parses_be 1).orFail _).bind fun minor => ((parses_be 2).orFail _).bind fun length =>
    ((parses_pure (⟨ContentType.ofCode code, ⟨major, minor⟩, length⟩ : RecordHeader)).guard
      _ _).guard _ _).congr fun header bytes => ?_
  constructor
  · rintro ⟨code, first, rest, rfl, rfl, -, second, rest, rfl, ⟨hmajor, rfl⟩, -, third, rest, rfl,
      ⟨hminor, rfl⟩, -, length, none, rfl, ⟨hlength, rfl⟩, hcode, hsize, rfl, rfl⟩
    rw [not_not] at hcode
    rw [hcode]
    rw [ContentType.ofCode_eq_handshake_iff] at hcode
    obtain ⟨major, rfl⟩ := List.length_eq_one_iff.mp hmajor
    obtain ⟨minor, rfl⟩ := List.length_eq_one_iff.mp hminor
    exact ⟨major, minor, length, by simp [hcode], hlength, Nat.not_lt.mp hsize, rfl⟩
  · rintro ⟨major, minor, length, rfl, hlength, hsize, rfl⟩
    exact ⟨22, [22], _, rfl, rfl, _, [major], _, rfl, ⟨rfl, rfl⟩, _, [minor], _, rfl, ⟨rfl, rfl⟩,
      _, length, [], by simp, ⟨hlength, rfl⟩, not_not.mpr rfl, Nat.not_lt.mpr hsize, rfl, rfl⟩

/-- A record that fills the input, with enough in it for a handshake message to begin. -/
theorem fills_recordFragment : Fills recordFragment fun fragment bytes =>
    ∃ (major minor : UInt8) (vector : Bytes), bytes = 22 :: major :: minor :: vector ∧
      IsVector 2 fragment vector ∧ fragment.length ≤ RecordHeader.maxFragment ∧
      handshakeHeaderSize ≤ fragment.length := by
  refine (parses_header.fills_bind fun header =>
    ((parses_bytes header.length).orFail _).fills_bind fun fragment =>
    fills_left_bind fun left => ((fills_pure fragment).guard _ _).guard _ _).congr
      fun fragment bytes => ?_
  constructor
  · rintro ⟨header, first, rest, rfl, ⟨major, minor, length, rfl, hwidth, hsize, rfl⟩, fragment,
      second, none, rfl, ⟨rfl, hlength⟩, hleft, hmin, rfl⟩
    -- the fragment fills the record, so that the length in the header is its own
    have hnone : none = [] := by simpa using hleft
    refine ⟨major, minor, length ++ fragment, by simp [hnone],
      isVector_append hwidth hlength.symm, ?_, Nat.not_lt.mp hmin⟩
    rw [hlength]
    exact hsize
  · rintro ⟨major, minor, vector, rfl, ⟨hfits, rfl⟩, hsize, hmin⟩
    have hvalue := Word.ofBe_be_of_lt hfits
    refine ⟨_, 22 :: major :: minor :: Word.be 2 fragment.length, fragment, by simp,
      ⟨major, minor, _, rfl, Word.length_be 2 _, by rw [hvalue]; exact hsize, rfl⟩, fragment,
      fragment, [], by simp, ⟨rfl, hvalue.symm⟩, by simp, Nat.not_lt.mpr hmin, rfl⟩

theorem IsMessage.handshakeHeaderSize_le {hello : ClientHello} {fragment : Bytes}
    (h : hello.IsMessage fragment) : handshakeHeaderSize ≤ fragment.length := by
  cases h with
  | intro meaning vector =>
    obtain ⟨-, rfl⟩ := vector
    rw [List.length_cons, List.length_append, Word.length_be, handshakeHeaderSize]
    omega

/-- A record is accepted exactly if it is a client hello by the grammar. -/
theorem ofRecord_iff (record : Bytes) (hello : ClientHello) :
    ofRecord record = .ok hello ↔ hello.IsRecord record := by
  refine Outcome.bind_eq_ok.trans ?_
  constructor
  · rintro ⟨fragment, hfragment, hhello⟩
    obtain ⟨major, minor, vector, rfl, hvector, hsize, -⟩ :=
      (fills_recordFragment _ fragment).mp hfragment
    exact .intro major minor ((fills_message _ hello).mp hhello) hvector hsize
  · intro hrecord
    cases hrecord with
    | @intro fragment vector major minor hmessage hvector hsize =>
      refine ⟨fragment, (fills_recordFragment _ fragment).mpr ?_, (fills_message _ hello).mpr ?_⟩
      · exact ⟨major, minor, vector, rfl, hvector, hsize, hmessage.handshakeHeaderSize_le⟩
      · exact hmessage

/-- A record is accepted exactly if it is a client hello by the grammar, and neither a part of it
nor anything longer is accepted then. -/
theorem ofRecord_accepts (record : Bytes) :
    (∀ hello, ofRecord record = .ok hello ↔ hello.IsRecord record) ∧
      ∀ extra hello hello', ofRecord record = .ok hello → ofRecord (record ++ extra) = .ok hello' →
        extra = [] := by
  refine ⟨ofRecord_iff record, fun extra hello hello' hrecord hlonger => ?_⟩
  rw [ofRecord_iff] at hrecord hlonger
  exact hrecord.eq_nil_of_append hlonger

/-- A record with two names, the first of which is no host name, and one protocol. -/
def twoNames : Bytes :=
  [22, 3, 1, 0, 75, 1, 0, 0, 71, 3, 3] ++ List.replicate 32 0xAA ++ [0, 0, 2, 0x13, 0x01, 1, 0] ++
    [0, 28, 0, 0, 0, 15, 0, 13, 1, 0, 1, 120, 0, 0, 6] ++ Bytes.ofText "a.test" ++
    [0, 16, 0, 5, 0, 3, 2] ++ Bytes.ofText "h2"

theorem ofRecord_accepts_twoNames :
    IsRecord ⟨⟨3, 3⟩, [], [.serverName ["a.test"], .alpn ["h2"]]⟩ twoNames ∧
      ∀ hello, ofRecord (twoNames ++ [0]) ≠ .ok hello := by
  have haccepted : ofRecord twoNames =
      .ok ⟨⟨3, 3⟩, [], [.serverName ["a.test"], .alpn ["h2"]]⟩ := by decide +kernel
  refine ⟨((ofRecord_accepts twoNames).1 _).mp haccepted, fun hello hlonger => ?_⟩
  cases (ofRecord_accepts twoNames).2 [0] _ hello haccepted hlonger

end ClientHello

end HttpRelay.Tls
