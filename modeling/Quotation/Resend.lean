import Quotation.Quote.Lookup
import Quotation.Store.Outbox

/-!
# Resend requests

An envelope that could not be decrypted is sent back to its sender with the request to send it
again.

* `Envelope`, `Envelope.request`: the request for an envelope that has content and a device to ask;
* `Envelope.message`: the message that carries it and nothing else;
* `Envelope.enqueue`: adds that message in a transaction.
-/

namespace Quotation

/-- An envelope whose content could not be decrypted. -/
structure Envelope where
  source : Address
  sourceDevice : UInt32
  timestamp : UInt64
  content : List UInt8
  deriving DecidableEq, Repr

namespace Envelope

/-- The request to send the content of an envelope again, whatever its kind of encryption. -/
def request (e : Envelope) (cipher : Cipher) : Except QuoteError ResendRequest :=
  if e.content = [] then .error (.envelope .noContent)
  else if e.sourceDevice = 0 then .error (.envelope (.noDevice e.source))
  else .ok ⟨e.content, cipher, e.timestamp, e.sourceDevice⟩

/-- The message that carries the request. -/
def message (e : Envelope) (cipher : Cipher) (thread : ThreadId) (timestamp : UInt64) :
    Except QuoteError OutgoingMessage :=
  (e.request cipher).map fun r => { thread, timestamp, resend := some r }

/-- Adds that message in a transaction, under a name that is new. The time of the message and the
time of the entry are given. -/
def enqueue (e : Envelope) (cipher : Cipher) (thread : ThreadId) (tx : Store.WriteTransaction)
    (id : MessageId) (timestamp : UInt64) (now : Instant) :
    Except QuoteError Store.WriteTransaction :=
  (e.message cipher thread timestamp).bind fun m =>
    (tx.insertOutgoing id m now).mapError .store

end Envelope

end Quotation
