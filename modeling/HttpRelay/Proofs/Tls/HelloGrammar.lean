import HttpRelay.Proofs.Bytes.CursorReads
import HttpRelay.Tls.ClientHello

/-!
# The grammar of a client hello

Which byte strings are a client hello, and what they say. Each relation holds between a meaning and
the bytes that have it, down to the last byte: what is nested in a length fills it exactly.

* `Extension.IsServerNameEntry`, `Extension.IsProtocol`: an entry of a list of names;
* `IsExtension`: an extension with its type and its length;
* `ClientHello.IsBody`, `ClientHello.IsMessage`, `ClientHello.IsRecord`: a hello, in its handshake
  message, in its record;
* `ClientHello.IsRecord.eq_nil_of_append`: no record begins another one.
-/

namespace HttpRelay.Tls

open Bytes

namespace Extension

/-- An entry of a list of server names. An entry that is no host name says nothing. -/
inductive IsServerNameEntry : Option String → Bytes → Prop
  | host {name bytes : Bytes} (vector : IsVector 2 name bytes) :
      IsServerNameEntry (some (asciiLossy name)) (0 :: bytes)
  | other {nameType : UInt8} {name bytes : Bytes} (notHost : nameType ≠ 0)
      (vector : IsVector 2 name bytes) : IsServerNameEntry none (nameType :: bytes)

/-- An entry of a list of protocols. -/
inductive IsProtocol : String → Bytes → Prop
  | intro {name bytes : Bytes} (nonempty : name ≠ []) (vector : IsVector 1 name bytes) :
      IsProtocol (asciiLossy name) bytes

/-- The body of an extension that is one list of entries. -/
def IsList {α : Type} (entry : α → Bytes → Prop) (entries : List α) (body : Bytes) : Prop :=
  ∃ list, IsVector 2 list body ∧ IsSequence entry entries list

/-- The body of an extension with a type. -/
inductive IsBody : Nat → Extension → Bytes → Prop
  | serverName {entries : List (Option String)} {body : Bytes}
      (list : IsList IsServerNameEntry entries body) :
      IsBody 0 (.serverName (entries.filterMap id)) body
  | alpn {protocols : List String} {body : Bytes} (list : IsList IsProtocol protocols body) :
      IsBody 16 (.alpn protocols) body
  | unknown {code : Nat} (serverName : code ≠ 0) (alpn : code ≠ 16) (body : Bytes) :
      IsBody code (.unknown code body) body

end Extension

/-- An extension: its type, and its body behind the length. -/
inductive IsExtension : Extension → Bytes → Prop
  | intro {code : Nat} {extension : Extension} {body bytes : Bytes} (fits : code < 1 <<< 16)
      (meaning : extension.IsBody code body) (vector : IsVector 2 body bytes) :
      IsExtension extension (Word.be 2 code ++ bytes)

namespace ClientHello

/-- The extensions of a hello. They may be absent altogether. -/
inductive IsExtensionBlock : List Extension → Bytes → Prop
  | absent : IsExtensionBlock [] []
  | present {extensions : List Extension} {block bytes : Bytes} (vector : IsVector 2 block bytes)
      (sequence : IsSequence IsExtension extensions block) : IsExtensionBlock extensions bytes

/-- A hello: version, random, session identifier, cipher suites, compression methods and
extensions. -/
inductive IsBody : ClientHello → Bytes → Prop
  | intro {major minor : UInt8} {random sessionId session cipherSuites suites : Bytes}
      {compression methods block : Bytes} {extensions : List Extension}
      (isRandom : random.length = 32)
      (isSession : IsVector 1 sessionId session) (isShort : sessionId.length ≤ 32)
      (isSuites : IsVector 2 cipherSuites suites) (isMethods : IsVector 1 compression methods)
      (isBlock : IsExtensionBlock extensions block) :
      IsBody { version := ⟨major.toNat, minor.toNat⟩, sessionId, extensions }
        ([major, minor] ++ (random ++ (session ++ (suites ++ (methods ++ block)))))

/-- A handshake message with a hello. -/
inductive IsMessage : ClientHello → Bytes → Prop
  | intro {hello : ClientHello} {body bytes : Bytes} (meaning : hello.IsBody body)
      (vector : IsVector 3 body bytes) : IsMessage hello (1 :: bytes)

/-- A handshake record with a hello, of any version. -/
inductive IsRecord : ClientHello → Bytes → Prop
  | intro {hello : ClientHello} {fragment bytes : Bytes} (major minor : UInt8)
      (message : hello.IsMessage fragment) (vector : IsVector 2 fragment bytes)
      (size : fragment.length ≤ 16384 + 2048) : IsRecord hello (22 :: major :: minor :: bytes)

/-- A record is the only one that begins like it. -/
theorem IsRecord.eq_nil_of_append {hello hello' : ClientHello} {record extra : Bytes}
    (h : hello.IsRecord record) (h' : hello'.IsRecord (record ++ extra)) : extra = [] := by
  cases h with
  | intro major minor message vector size =>
    rw [List.cons_append, List.cons_append, List.cons_append] at h'
    cases h' with
    | intro _ _ message' vector' size' => exact vector.eq_nil_of_append vector'

end ClientHello

end HttpRelay.Tls
