import HttpRelay.Proofs.Text.Utf8Decoding
import HttpRelay.Proofs.Tls.HelloParsing

/-!
# The names in a client hello

What a record lists, octet by octet. A hello keeps the names of its extensions as texts, in which a
question mark stands for every octet that is not ASCII. Here a name is what the record holds.

* `WireExtension`, `WireExtension.shown`: an extension with its names as octets, and what the hello
  keeps of it;
* `ClientHello.Carries`: the extensions of a record, which is laid out down to the last octet;
* `ClientHello.exists_carries`, `ClientHello.extensions_of_carries`: a record that is accepted
  carries extensions, and they are those of its hello;
* `Extension.asciiLossy_eq_iff`: a name in ASCII is shown of itself alone;
* `ClientHello.serverName?_of_carries`, `ClientHello.isAcme_iff`: the names that a choice depends
  on.
-/

namespace HttpRelay

namespace Bytes

/-- Items in a row are shown as they are shown one by one. -/
theorem isSequence_shown {α β : Type} {f : α → β} {P : α → Bytes → Prop} {Q : β → Bytes → Prop}
    (hitem : ∀ b bytes, Q b bytes ↔ ∃ a, f a = b ∧ P a bytes) {bs : List β} {bytes : Bytes} :
    IsSequence Q bs bytes ↔ ∃ as, as.map f = bs ∧ IsSequence P as bytes := by
  constructor
  · intro h
    induction h with
    | nil => exact ⟨[], rfl, .nil⟩
    | cons first _ ih =>
      obtain ⟨a, rfl, ha⟩ := (hitem _ _).mp first
      obtain ⟨as, rfl, has⟩ := ih
      exact ⟨a :: as, rfl, .cons ha has⟩
  · rintro ⟨as, rfl, h⟩
    induction h with
    | nil => exact .nil
    | cons first _ ih => exact .cons ((hitem _ _).mpr ⟨_, rfl, first⟩) ih

end Bytes

namespace Tls

open Bytes

/-- An extension as it is on the wire. -/
inductive WireExtension where
  /-- Host names. Names of another kind are left out. -/
  | serverName (hosts : List Bytes)
  | alpn (protocols : List Bytes)
  | unknown (code : Nat) (data : Bytes)

namespace WireExtension

/-- What a hello keeps of an extension. -/
def shown : WireExtension → Extension
  | serverName hosts => .serverName (hosts.map Extension.asciiLossy)
  | alpn protocols => .alpn (protocols.map Extension.asciiLossy)
  | unknown code data => .unknown code data

/-- The host names of some extensions, in wire order. -/
def hosts (wire : List WireExtension) : List Bytes :=
  wire.flatMap fun
    | serverName hosts => hosts
    | _ => []

/-- An entry of a list of server names, which may be that of a host. -/
inductive IsServerNameEntry : Option Bytes → Bytes → Prop
  | host {name bytes : Bytes} (vector : IsVector 2 name bytes) :
      IsServerNameEntry (some name) (0 :: bytes)
  | other {nameType : UInt8} {name bytes : Bytes} (notHost : nameType ≠ 0)
      (vector : IsVector 2 name bytes) : IsServerNameEntry none (nameType :: bytes)

/-- An entry of a list of protocols. -/
def IsProtocol (name bytes : Bytes) : Prop := name ≠ [] ∧ IsVector 1 name bytes

/-- The body of an extension with a type. -/
inductive IsBody : Nat → WireExtension → Bytes → Prop
  | serverName {entries : List (Option Bytes)} {body : Bytes}
      (list : Extension.IsList IsServerNameEntry entries body) :
      IsBody 0 (.serverName (entries.filterMap id)) body
  | alpn {protocols : List Bytes} {body : Bytes}
      (list : Extension.IsList IsProtocol protocols body) : IsBody 16 (.alpn protocols) body
  | unknown {code : Nat} (serverName : code ≠ 0) (alpn : code ≠ 16) (body : Bytes) :
      IsBody code (.unknown code body) body

/-- An extension: its type, and its body behind the length. -/
inductive IsWritten : WireExtension → Bytes → Prop
  | intro {code : Nat} {extension : WireExtension} {body bytes : Bytes} (fits : code < 1 <<< 16)
      (meaning : extension.IsBody code body) (vector : IsVector 2 body bytes) :
      IsWritten extension (Word.be 2 code ++ bytes)

/-- The extensions of a hello. They may be absent altogether. -/
inductive IsBlock : List WireExtension → Bytes → Prop
  | absent : IsBlock [] []
  | present {extensions : List WireExtension} {block bytes : Bytes}
      (vector : IsVector 2 block bytes) (sequence : IsSequence IsWritten extensions block) :
      IsBlock extensions bytes

/-- The names of hosts are shown one by one. -/
theorem shown_serverName (entries : List (Option Bytes)) :
    (serverName (entries.filterMap id)).shown =
      .serverName ((entries.map (Option.map Extension.asciiLossy)).filterMap id) := by
  rw [shown, List.map_filterMap, List.filterMap_map]
  rfl

theorem isServerNameEntry_shown (entry : Option String) (bytes : Bytes) :
    Extension.IsServerNameEntry entry bytes ↔
      ∃ name : Option Bytes, name.map Extension.asciiLossy = entry ∧
        IsServerNameEntry name bytes := by
  constructor
  · rintro (vector | ⟨notHost, vector⟩)
    · exact ⟨_, rfl, .host vector⟩
    · exact ⟨none, rfl, .other notHost vector⟩
  · rintro ⟨_, rfl, vector | ⟨notHost, vector⟩⟩
    · exact .host vector
    · exact .other notHost vector

theorem isProtocol_shown (protocol : String) (bytes : Bytes) :
    Extension.IsProtocol protocol bytes ↔
      ∃ name, Extension.asciiLossy name = protocol ∧ IsProtocol name bytes := by
  constructor
  · rintro ⟨nonempty, vector⟩
    exact ⟨_, rfl, nonempty, vector⟩
  · rintro ⟨name, rfl, nonempty, vector⟩
    exact .intro nonempty vector

theorem isBody_shown (code : Nat) (extension : Extension) (body : Bytes) :
    extension.IsBody code body ↔
      ∃ wire : WireExtension, wire.shown = extension ∧ wire.IsBody code body := by
  constructor
  · rintro (⟨list, hvector, hentries⟩ | ⟨list, hvector, hprotocols⟩ | ⟨hserver, halpn, _⟩)
    · obtain ⟨names, rfl, hnames⟩ := (isSequence_shown isServerNameEntry_shown).mp hentries
      exact ⟨_, shown_serverName names, .serverName ⟨list, hvector, hnames⟩⟩
    · obtain ⟨names, rfl, hnames⟩ := (isSequence_shown isProtocol_shown).mp hprotocols
      exact ⟨.alpn names, rfl, .alpn ⟨list, hvector, hnames⟩⟩
    · exact ⟨.unknown code body, rfl, .unknown hserver halpn body⟩
  · rintro ⟨_, rfl, ⟨list, hvector, hnames⟩ | ⟨list, hvector, hnames⟩ | ⟨hserver, halpn, _⟩⟩
    · rw [shown_serverName]
      exact .serverName
        ⟨list, hvector, (isSequence_shown isServerNameEntry_shown).mpr ⟨_, rfl, hnames⟩⟩
    · exact .alpn ⟨list, hvector, (isSequence_shown isProtocol_shown).mpr ⟨_, rfl, hnames⟩⟩
    · exact .unknown hserver halpn body

theorem isWritten_shown (extension : Extension) (bytes : Bytes) :
    IsExtension extension bytes ↔
      ∃ wire : WireExtension, wire.shown = extension ∧ wire.IsWritten bytes := by
  constructor
  · rintro ⟨fits, meaning, vector⟩
    obtain ⟨wire, rfl, hbody⟩ := (isBody_shown _ _ _).mp meaning
    exact ⟨wire, rfl, .intro fits hbody vector⟩
  · rintro ⟨wire, rfl, fits, meaning, vector⟩
    exact .intro fits ((isBody_shown _ _ _).mpr ⟨wire, rfl, meaning⟩) vector

theorem isBlock_shown (extensions : List Extension) (block : Bytes) :
    ClientHello.IsExtensionBlock extensions block ↔
      ∃ wire : List WireExtension, wire.map shown = extensions ∧ IsBlock wire block := by
  constructor
  · rintro (_ | ⟨vector, sequence⟩)
    · exact ⟨[], rfl, .absent⟩
    · obtain ⟨wire, rfl, hwire⟩ := (isSequence_shown isWritten_shown).mp sequence
      exact ⟨wire, rfl, .present vector hwire⟩
  · rintro ⟨_, rfl, _ | ⟨vector, sequence⟩⟩
    · exact .absent
    · exact .present vector ((isSequence_shown isWritten_shown).mpr ⟨_, rfl, sequence⟩)

end WireExtension

namespace Extension

/-- A text in ASCII without question marks is shown for its own octets alone. -/
theorem asciiLossy_eq_iff {text : String} (htext : ∀ c ∈ text.toList, c.toNat < 128 ∧ c ≠ '?')
    {bytes : Bytes} : asciiLossy bytes = text ↔ bytes = Bytes.ofText text := by
  constructor
  · rintro rfl
    rw [asciiLossy, String.toList_ofList] at htext
    rw [asciiLossy, Bytes.ofText, String.toList_ofList, List.flatMap_map]
    refine (List.flatMap_singleton' bytes).symm.trans (List.flatMap_congr fun b hb => ?_)
    -- an octet that is not shown as a question mark is ASCII
    have hshown := (htext _ (List.mem_map_of_mem hb)).2
    split at hshown
    next hascii =>
      rw [if_pos hascii, Text.Utf8.utf8EncodeChar_one (UInt8.lt_iff_toNat_lt.mp hascii)]
    next => exact absurd rfl hshown
  · rintro rfl
    have hencoded : Bytes.ofText text = text.toList.map fun c => UInt8.ofNat c.toNat := by
      rw [← Text.Utf8.ofText_ascii fun c hc => (htext c hc).1, String.ofList_toList]
    rw [asciiLossy, hencoded, List.map_map]
    refine Eq.trans (congrArg String.ofList ?_) String.ofList_toList
    refine (List.map_congr_left fun c hc => ?_).trans (List.map_id text.toList)
    have hsmall := (htext c hc).1
    have hbyte : (UInt8.ofNat c.toNat).toNat = c.toNat :=
      UInt8.toNat_ofNat_of_lt' (Nat.lt_trans hsmall (by decide))
    have hascii : UInt8.ofNat c.toNat < 128 := by
      rw [UInt8.lt_iff_toNat_lt, hbyte]
      exact hsmall
    rw [Function.comp_apply, if_pos hascii, hbyte, Char.ofNat_toNat]
    rfl

end Extension

namespace ClientHello

open WireExtension

/-- The extensions that a record carries: it holds one handshake message, that message a hello, and
that hello the extensions behind everything else. -/
inductive Carries : List WireExtension → Bytes → Prop
  | intro {major minor major' minor' : UInt8} {random sessionId session cipherSuites suites : Bytes}
      {compression methods block message fragment : Bytes} {extensions : List WireExtension}
      (isRandom : random.length = 32)
      (isSession : IsVector 1 sessionId session) (isShort : sessionId.length ≤ 32)
      (isSuites : IsVector 2 cipherSuites suites) (isMethods : IsVector 1 compression methods)
      (isBlock : IsBlock extensions block)
      (isMessage : IsVector 3
        ([major', minor'] ++ (random ++ (session ++ (suites ++ (methods ++ block))))) message)
      (isFragment : IsVector 2 (1 :: message) fragment)
      (size : (1 :: message).length ≤ 16384 + 2048) :
      Carries extensions (22 :: major :: minor :: fragment)

/-- A hello is in a record exactly if the record carries what the hello shows. -/
theorem exists_isRecord_iff (extensions : List Extension) (record : Bytes) :
    (∃ hello : ClientHello, hello.extensions = extensions ∧ hello.IsRecord record) ↔
      ∃ wire : List WireExtension, wire.map shown = extensions ∧ Carries wire record := by
  constructor
  · rintro ⟨hello, rfl, major, minor, ⟨⟨isRandom, isSession, isShort, isSuites, isMethods,
      isBlock⟩, isMessage⟩, isFragment, size⟩
    obtain ⟨wire, hshown, hblock⟩ := (isBlock_shown _ _).mp isBlock
    exact ⟨wire, hshown, .intro isRandom isSession isShort isSuites isMethods hblock isMessage
      isFragment size⟩
  · rintro ⟨wire, rfl, isRandom, isSession, isShort, isSuites, isMethods, isBlock, isMessage,
      isFragment, size⟩
    have hblock := (isBlock_shown _ _).mpr ⟨wire, rfl, isBlock⟩
    exact ⟨_, rfl, .intro _ _ (.intro (.intro isRandom isSession isShort isSuites isMethods hblock)
      isMessage) isFragment size⟩

variable {record : Bytes} {hello : ClientHello} {wire : List WireExtension}

theorem exists_carries (h : ofRecord record = .ok hello) : ∃ wire, Carries wire record := by
  obtain ⟨wire, -, hwire⟩ :=
    (exists_isRecord_iff _ record).mp ⟨hello, rfl, (ofRecord_iff record hello).mp h⟩
  exact ⟨wire, hwire⟩

/-- The hello of a record shows what the record carries. -/
theorem extensions_of_carries (h : ofRecord record = .ok hello) (hwire : Carries wire record) :
    hello.extensions = wire.map shown := by
  obtain ⟨hello', hshown, hrecord⟩ := (exists_isRecord_iff _ record).mpr ⟨wire, rfl, hwire⟩
  rw [← ofRecord_iff, h] at hrecord
  rw [Except.ok.inj hrecord, hshown]

/-- The name that counts is the first host name in wire order, as it is shown. -/
theorem serverName?_of_carries (h : ofRecord record = .ok hello) (hwire : Carries wire record) :
    hello.serverName? = (hosts wire).head?.map Extension.asciiLossy := by
  have hnames : hello.serverNames = (hosts wire).map Extension.asciiLossy := by
    rw [serverNames, extensions_of_carries h hwire, List.flatMap_map, hosts, List.map_flatMap]
    -- one extension after another: an extension of another kind holds no names on either side
    congr 1
    funext extension
    cases extension <;> rfl
  rw [serverName?, hnames, List.head?_map]

/-- A handshake is one of certificate validation exactly if its protocol is listed, octet by
octet. -/
theorem isAcme_iff (h : ofRecord record = .ok hello) (hwire : Carries wire record) :
    hello.isAcme = true ↔
      ∃ protocols, .alpn protocols ∈ wire ∧ Bytes.ofText "acme-tls/1" ∈ protocols := by
  have hascii : ∀ c ∈ acmeProtocol.toList, c.toNat < 128 ∧ c ≠ '?' := by simp [acmeProtocol]
  have hacme {name : Bytes} : Extension.asciiLossy name = acmeProtocol ↔
      name = Bytes.ofText "acme-tls/1" := Extension.asciiLossy_eq_iff hascii
  rw [isAcme, List.contains_iff_mem, protocols, extensions_of_carries h hwire, List.flatMap_map,
    List.mem_flatMap]
  constructor
  · rintro ⟨extension, hextension, hlisted⟩
    cases extension with
    | alpn protocols =>
      obtain ⟨name, hname, hshown⟩ := List.mem_map.mp hlisted
      exact ⟨protocols, hextension, hacme.mp hshown ▸ hname⟩
    | serverName | unknown => cases hlisted
  · rintro ⟨protocols, hextension, hname⟩
    exact ⟨.alpn protocols, hextension, List.mem_map.mpr ⟨_, hname, hacme.mpr rfl⟩⟩

end ClientHello

end Tls

end HttpRelay
