import HttpRelay.Digest.Base64
import HttpRelay.Digest.Sha1
import HttpRelay.Text.Token

/-!
# Opening Handshake

The keys and tokens of RFC 6455, section 4. A server proves that it understood the request by a
digest of the client's key.
-/

namespace HttpRelay.WebSocket.Handshake

/-- What is put behind a client's key before it is digested. -/
def acceptGuid : String := "258EAFA5-E914-47DA-95CA-C5AB0DC85B11"

/-- The value that answers a client's key. -/
def acceptKey (clientKey : String) : String :=
  Digest.Base64.encode
    (Digest.Sha1.digest (Bytes.ofText (Text.trim clientKey) ++ Bytes.ofText acceptGuid))

/-- Whether a server's answer, if it gave one, answers a client's key. -/
def verifyAccept (clientKey : String) (accept : Option String) : Bool :=
  match accept with
  | some value => Text.trim value == acceptKey clientKey
  | none => false

/-- Whether the values of the Connection and Upgrade headers ask for a WebSocket. -/
def isUpgrade (connection upgrade : List String) : Bool :=
  connection.any (Text.listHasToken · "upgrade") && upgrade.any (Text.listHasToken · "websocket")

end HttpRelay.WebSocket.Handshake
