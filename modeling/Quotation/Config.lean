import Quotation.Identity

/-!
# Configuration

The account of this device and the size of thumbnails, taken from named variables.

* `Config.ofVariables`: a variable that does not hold a usable value is passed over;
* `Config.isLocal`: whether an address is that of this device.
-/

namespace Quotation

/-- The settings of this device. -/
structure Config where
  localAddress : Option Address := none
  /-- The longest edge of a thumbnail, in pixels. -/
  thumbnailMax : UInt32 := 200
  deriving DecidableEq, Repr

namespace Config

/-- The size that a text gives: a number above zero between blanks. -/
def readMax? (s : String) : Option UInt32 :=
  ((Text.readBounded? UInt32.size (Text.trim s)).filter (0 < ·)).map UInt32.ofNat

/-- The settings that variables give. -/
def ofVariables (value? : String → Option String) : Config where
  localAddress := (value? "PARLEY_LOCAL_UUID").bind fun s => (Address.read s).toOption
  thumbnailMax := ((value? "PARLEY_THUMBNAIL_MAX_DIM").bind readMax?).getD 200

/-- Whether an address is that of this device. -/
def isLocal (c : Config) (a : Address) : Bool :=
  c.localAddress.any (·.sameAccount a)

end Config

end Quotation
