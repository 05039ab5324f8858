import Quotation.Attachment
import Quotation.Binary.Codec
import Quotation.Binary.Word
import Quotation.CommandLine.Arguments
import Quotation.CommandLine.Command
import Quotation.CommandLine.Run
import Quotation.Compression.Deflate
import Quotation.Compression.PrefixCode
import Quotation.Config
import Quotation.Content.Contact
import Quotation.Content.Sticker
import Quotation.Content.Styling
import Quotation.Digest
import Quotation.FileError
import Quotation.Files.Basic
import Quotation.Files.Path
import Quotation.Identity
import Quotation.Image.Checksum
import Quotation.Image.Format
import Quotation.Image.Jpeg
import Quotation.Image.Octets
import Quotation.Image.Picture
import Quotation.Image.Png
import Quotation.Image.Size
import Quotation.Image.Webp
import Quotation.Instant.Basic
import Quotation.Instant.Calendar
import Quotation.Instant.Text
import Quotation.Json.Basic
import Quotation.Json.Codec
import Quotation.Json.Reader
import Quotation.Json.Writer
import Quotation.Main
import Quotation.Message
import Quotation.Outgoing
import Quotation.Proofs.Binary.Canonical
import Quotation.Proofs.Content.Sticker
import Quotation.Proofs.Except
import Quotation.Proofs.Instant.Calendar
import Quotation.Proofs.Instant.Stored
import Quotation.Proofs.Json.Faithful
import Quotation.Proofs.Json.Reading
import Quotation.Proofs.Json.Records
import Quotation.Proofs.Quote.Copies
import Quotation.Proofs.Quote.Kinds
import Quotation.Proofs.Quote.Original
import Quotation.Proofs.Quote.Pipeline
import Quotation.Proofs.Quote.Printed
import Quotation.Proofs.Quote.Received
import Quotation.Proofs.Quote.Thumbnail
import Quotation.Proofs.Quote.Tidy
import Quotation.Proofs.Quote.Withheld
import Quotation.Proofs.Store.Arrival
import Quotation.Proofs.Store.Attachments
import Quotation.Proofs.Store.Contents
import Quotation.Proofs.Store.History
import Quotation.Proofs.Store.JsonColumns
import Quotation.Proofs.Store.Ledger
import Quotation.Proofs.Store.Messages
import Quotation.Proofs.Store.Operation
import Quotation.Proofs.Store.Outbox
import Quotation.Proofs.Store.Rows
import Quotation.Proofs.Store.Table
import Quotation.Proofs.Uuid
import Quotation.Proofs.Wire.Canonical
import Quotation.Quote.Display
import Quotation.Quote.Lookup
import Quotation.Quote.Resolved
import Quotation.Quote.Sending
import Quotation.Quote.Snapshot
import Quotation.Quote.Source
import Quotation.Quote.Thumbnail
import Quotation.Resend
import Quotation.Store.Archive
import Quotation.Store.Attachments
import Quotation.Store.Cell
import Quotation.Store.Error
import Quotation.Store.Fetched
import Quotation.Store.Handle
import Quotation.Store.Layout
import Quotation.Store.Messages
import Quotation.Store.Outbox
import Quotation.Store.Stickers
import Quotation.Store.Table
import Quotation.Text.Blank
import Quotation.Text.Digits
import Quotation.Text.Hex
import Quotation.Uuid
import Quotation.Wire.Cipher
import Quotation.Wire.Frame
import Quotation.Proofs.Store.Readable
import Quotation.Proofs.Quote.Deletion
import Quotation.Proofs.Store.Inventory
import Quotation.Proofs.Store.Lifecycle
import Quotation.Proofs.Quote.Downloads
import Quotation.Proofs.Store.Transactions
import Quotation.Proofs.Store.Failure
import Quotation.Proofs.Quote.Hidden
import Quotation.Proofs.Quote.Reference
import Quotation.Proofs.Quote.WellFormed
import Quotation.Proofs.Store.Shelf
import Quotation.Proofs.Store.Subject
import Quotation.Proofs.Quote.Reads
import Quotation.Proofs.Quote.Persisted
import Quotation.Proofs.Text.Ascii
import Quotation.Proofs.Text.Hex
import Quotation.Proofs.Text.Trim
import Quotation.Proofs.Store.Migrated
import Quotation.Proofs.Store.Opening
import Quotation.Proofs.CommandLine.Resend
import Quotation.Proofs.Instant.Order
import Quotation.Proofs.Store.Earliest
import Quotation.Proofs.Quote.StickerType
import Quotation.Proofs.Store.ThreadOrder
import Quotation.Proofs.Binary.Truncated
import Quotation.Proofs.Wire.Truncated
import Quotation.Proofs.Store.Setup
import Quotation.Proofs.Store.Reopening
import Quotation.Proofs.Identity
