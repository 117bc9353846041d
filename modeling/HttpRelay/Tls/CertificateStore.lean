import HttpRelay.Text.Quoted
import HttpRelay.Tls.ClientHello

/-!
# Certificate Choice

Certificates are chosen by the host name of the client hello, without regard to ASCII case. The
choice fails closed: without a certificate for the name and without a default there is none.
-/

namespace HttpRelay.Tls

/-- Why a certificate file could not be loaded. -/
inductive LoadError where
  | certificateNotFound (path : String)
  | keyNotFound (path : String)
  /-- The files are there but hold no usable pair. -/
  | unusable
  deriving DecidableEq, Repr

/-- The text shown for a missing file. -/
def LoadError.message? : LoadError → Option String
  | certificateNotFound path => some ("Certificate file not found: " ++ Text.quotedPath path)
  | keyNotFound path => some ("Private key file not found: " ++ Text.quotedPath path)
  | unusable => none

/-- Why a TLS connection was not taken up. -/
inductive AcceptError where
  | load (error : LoadError)
  | sniff (error : SniffError)
  /-- Certificate validation is not served. -/
  | acmeRefused
  | unknownServerName (name : Option String)
  /-- The handshake behind the hello failed. -/
  | handshake
  /-- The client did not finish within this many milliseconds. -/
  | timeout (limit : Nat)
  deriving DecidableEq, Repr

/-- The text shown for an error, if it does not depend on the TLS stack. -/
def AcceptError.message? : AcceptError → Option String
  | load error => error.message?.map ("failed to load certificate: " ++ ·)
  | sniff error => some error.message
  | acmeRefused => some "refusing acme-tls/1 handshake"
  | unknownServerName (some name) =>
    some ("no certificate for server name Some(" ++ Text.quoted name ++ ")")
  | unknownServerName none => some "no certificate for server name None"
  | handshake => none
  | timeout limit => some ("TLS handshake not completed within " ++ Text.duration limit)

/-- Certificates by lower-cased host name, the one inserted last first, and a default. -/
structure CertificateStore (α : Type) where
  byName : List (String × α) := []
  fallback : Option α := none
  deriving DecidableEq, Repr

namespace CertificateStore

variable {α : Type}

/-- Add a certificate for a host name, or as the default. It replaces an earlier one. -/
def insert (store : CertificateStore α) (name : Option String) (certificate : α) :
    CertificateStore α :=
  match name with
  | some name => { store with byName := (Text.asciiLower name, certificate) :: store.byName }
  | none => { store with fallback := some certificate }

/-- Add certificates one after another. -/
def insertAll (store : CertificateStore α) (entries : List (Option String × α)) :
    CertificateStore α :=
  entries.foldl (fun store entry => store.insert entry.1 entry.2) store

/-- Whether there is no certificate. -/
def isEmpty (store : CertificateStore α) : Bool :=
  store.byName.isEmpty && store.fallback.isNone

/-- The certificate for a host name, or the default. -/
def find? (store : CertificateStore α) (name : Option String) : Option α :=
  (name.bind fun name => store.byName.lookup (Text.asciiLower name)).or store.fallback

/-- The certificate that a hello is served with. -/
def select (store : CertificateStore α) (hello : ClientHello) : Except AcceptError α :=
  if hello.isAcme then .error .acmeRefused
  else
    match store.find? hello.serverName? with
    | some certificate => .ok certificate
    | none => .error (.unknownServerName hello.serverName?)

/-- Take a connection up to the handshake: sniff the hello and choose the certificate. The
result is the certificate and the bytes to be replayed. -/
def take (store : CertificateStore α) : Feed.Read AcceptError (α × Bytes) := do
  let (hello, taken) ← Feed.orFail ClientHello.sniff .sniff
  match store.select hello with
  | .error error => Feed.fail error
  | .ok certificate => return (certificate, taken)

/-- Take up a connection on which nothing more will arrive, and complete its handshake. A
client that has not sent its hello by then runs into the time limit. The result comes with the
milliseconds waited for it. -/
def acceptWithin {β : Type} (store : CertificateStore α) (handshake : α → Replay → Option β)
    (feed : Feed) (limit : Nat) : Except AcceptError β × Nat :=
  match feed.run store.take with
  | (.ok (certificate, taken), rest) =>
    match handshake certificate { held := taken, inner := rest } with
    | some session => (.ok session, 0)
    | none => (.error .handshake, 0)
  | (.error (.failed error), _) => (.error error, 0)
  | (.error .starved, _) => (.error (.timeout limit), limit)

/-- A certificate to be loaded. -/
structure Source where
  /-- The host name it answers for, or none for the default. -/
  serverName : Option String
  certificatePath : String
  keyPath : String
  deriving DecidableEq, Repr

/-- Load certificates in order. `present` tells which files exist, and `parse` makes a
certificate of a pair of files. -/
def load (present : String → Bool) (parse : String → String → Option α) (sources : List Source) :
    Except AcceptError (CertificateStore α) :=
  sources.foldlM
    (fun store source =>
      if !present source.certificatePath then
        .error (.load (.certificateNotFound source.certificatePath))
      else if !present source.keyPath then .error (.load (.keyNotFound source.keyPath))
      else
        match parse source.certificatePath source.keyPath with
        | some certificate => .ok (store.insert source.serverName certificate)
        | none => .error (.load .unusable))
    {}

end CertificateStore

end HttpRelay.Tls
