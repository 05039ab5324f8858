import Quotation.Binary.Codec
import Quotation.Json.Codec

/-!
# Kinds of encryption

An envelope says by a number how its content is encrypted. Numbers without a name are kept.
-/

namespace Quotation

/-- The kind of encryption of an envelope. -/
structure Cipher where
  tag : UInt8
  deriving DecidableEq, Repr

namespace Cipher

/-- The names of the kinds that have one. -/
def name? (c : Cipher) : Option String :=
  if c.tag = 2 then some "whisper"
  else if c.tag = 3 then some "prekey"
  else if c.tag = 7 then some "sender-key"
  else if c.tag = 8 then some "plaintext"
  else none

/-- The written form: the name, or the number of a kind without one. -/
def text (c : Cipher) : String :=
  c.name?.getD ("unknown(" ++ toString c.tag.toNat ++ ")")

/-- The binary form. -/
def binary : Binary.Codec Cipher := Binary.Codec.byte.imap .mk tag

/-- The JSON form. -/
def json : Json.Codec Cipher := Json.Codec.byte.imap .mk tag

end Cipher

end Quotation
