import CertAuthority.Certificate.Basic

/-!
# Certificates of the transport layer

The layer that secures connections handles certificates under a type of its
own: bytes that are said to be a certificate, which nobody has read yet.
Going there loses the reading, and coming back makes up for it.
-/

namespace CertAuthority

/-- **A certificate of the transport layer**: its encoding, unread. -/
structure TransportCertificate where
  /-- The encoding. -/
  der : Bytes
  deriving DecidableEq, Repr

namespace Certificate

/-- **The certificate as the transport layer takes it.** -/
def toTransport (c : Certificate) : TransportCertificate := ⟨c.der⟩

/-- **Reads a certificate of the transport layer.** -/
def ofTransport (t : TransportCertificate) : Except Error Certificate := ofDer t.der

end Certificate

end CertAuthority
