import Quotation.Binary.Codec
import Quotation.Json.Codec

/-!
# Identifiers and addresses

Messages, attachments and threads are named by identifiers of three kinds; people by the identifier
of their account, to which a phone number may be known.

* `MessageId`, `AttachmentId`, `ThreadId`, read from any form of an identifier with blanks around
  it;
* `Address`, with `Address.sameAccount` for two addresses of the same account, whatever their
  numbers;
* `ReferenceError`: why a text names nothing.
-/

namespace Quotation

/-- Why a text names no account, sticker or record. -/
inductive ReferenceError
  /-- A text, as it was given, that is no address. -/
  | address (text : String) (fault : Uuid.Error)
  | packIdLength
  | packKeyLength
  | hex (fault : Text.Hex.Error)
  | uuid (fault : Uuid.Error)
  deriving DecidableEq, Repr

/-- The sentence that names an error. -/
def ReferenceError.message : ReferenceError → String
  | .address text fault => "Invalid address: " ++ text ++ ": " ++ fault.message
  | .packIdLength => "Invalid sticker reference: pack id must be 16 bytes"
  | .packKeyLength => "Invalid sticker reference: pack key must be 32 bytes"
  | .hex fault => "Hex decode error: " ++ fault.message
  | .uuid fault => "UUID error: " ++ fault.message

/-- The identifier that a text spells between blanks. -/
def Uuid.readTrimmed (s : String) : Except ReferenceError Uuid :=
  (Uuid.read (Text.trim s)).mapError .uuid

/-- The name of a message. -/
structure MessageId where
  uuid : Uuid
  deriving DecidableEq, Repr

/-- The name of an attachment. -/
structure AttachmentId where
  uuid : Uuid
  deriving DecidableEq, Repr

/-- The name of a thread of conversation. -/
structure ThreadId where
  uuid : Uuid
  deriving DecidableEq, Repr

namespace MessageId

/-- The written form. -/
def text (id : MessageId) : String := id.uuid.text

/-- The name that a text spells. -/
def read (s : String) : Except ReferenceError MessageId := (Uuid.readTrimmed s).map .mk

/-- The JSON form. -/
def json : Json.Codec MessageId := Json.Codec.uuid.imap .mk uuid

end MessageId

namespace AttachmentId

/-- The written form. -/
def text (id : AttachmentId) : String := id.uuid.text

/-- The name that a text spells. -/
def read (s : String) : Except ReferenceError AttachmentId := (Uuid.readTrimmed s).map .mk

/-- The binary form. -/
def binary : Binary.Codec AttachmentId := Binary.Codec.uuid.imap .mk uuid

/-- The JSON form. -/
def json : Json.Codec AttachmentId := Json.Codec.uuid.imap .mk uuid

end AttachmentId

namespace ThreadId

/-- The written form. -/
def text (id : ThreadId) : String := id.uuid.text

/-- The name that a text spells. -/
def read (s : String) : Except ReferenceError ThreadId := (Uuid.readTrimmed s).map .mk

/-- The binary form. -/
def binary : Binary.Codec ThreadId := Binary.Codec.uuid.imap .mk uuid

/-- The JSON form. -/
def json : Json.Codec ThreadId := Json.Codec.uuid.imap .mk uuid

end ThreadId

/-- The address of an account, with its phone number in E.164 form if that is known. -/
structure Address where
  uuid : Uuid
  e164 : Option String := none
  deriving DecidableEq, Repr

namespace Address

/-- The written form, which leaves the number out. -/
def text (a : Address) : String := a.uuid.text

/-- The address that a text spells between blanks. -/
def read (s : String) : Except ReferenceError Address :=
  match Uuid.read (Text.trim s) with
  | .ok u => .ok { uuid := u }
  | .error fault => .error (.address s fault)

/-- Whether two addresses belong to the same account. -/
def sameAccount (a b : Address) : Bool := a.uuid == b.uuid

/-- The binary form. -/
def binary : Binary.Codec Address :=
  (Binary.Codec.uuid.pair Binary.Codec.text.option).imap (fun p => ⟨p.1, p.2⟩)
    fun a => (a.uuid, a.e164)

/-- The JSON form. -/
def json : Json.Codec Address :=
  .record <| ((Json.Fields.required "uuid" .uuid).append (.optional "e164" .text)).imap
    (fun p => ⟨p.1, p.2⟩) fun a => (a.uuid, a.e164)

end Address

end Quotation
