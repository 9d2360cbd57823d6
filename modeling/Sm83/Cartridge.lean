import Sm83.Bank
import Sm83.Files.Fault
import Sm83.Text.Blank
import Sm83.Text.Utf8

/-! # Cartridge images -/

namespace Sm83

/-- An image that fits the address space of a cartridge. -/
structure Cartridge where
  image : ByteArray
  size_le : image.size ≤ Bank.capacity

/-- Why there is no cartridge. -/
inductive CartridgeError where
  /-- The file with the image cannot be read. -/
  | unreadable (path : String) (fault : Files.Fault)
  /-- The image has more bytes than a cartridge. -/
  | tooLarge (size limit : Nat)
  deriving DecidableEq, Repr

/-- The error in words. -/
def CartridgeError.message : CartridgeError → String
  | unreadable path fault => "failed to read ROM " ++ path ++ ": " ++ fault.message
  | tooLarge size limit =>
    "ROM image is 0x" ++ Text.hex size ++ " bytes; at most 0x" ++ Text.hex limit ++
      " are supported"

namespace Cartridge

/-- The cartridge with an image, unless the image is too large. -/
def ofImage (image : ByteArray) : Except CartridgeError Cartridge :=
  if h : image.size ≤ Bank.capacity then .ok ⟨image, h⟩
  else .error (.tooLarge image.size Bank.capacity)

/-- The cartridge in a file, given what reading the file brought. -/
def ofFile (path : String) (content : Except Files.Fault ByteArray) :
    Except CartridgeError Cartridge :=
  match content with
  | .error fault => .error (.unreadable path fault)
  | .ok image => ofImage image

/-- The number of bytes. -/
def size (cartridge : Cartridge) : Nat :=
  cartridge.image.size

/-- The number of banks; the last one may be incomplete. -/
def bankCount (cartridge : Cartridge) : Nat :=
  (cartridge.size + Bank.size - 1) / Bank.size

/-- Where the title starts in the header. -/
def titleStart : Nat := 0x134

/-- Where the title ends at the latest. -/
def titleEnd : Nat := 0x143

/-- The title in the header, up to the first zero byte and without blanks around it. -/
def title (cartridge : Cartridge) : String :=
  let bytes := (cartridge.image.extract titleStart titleEnd).data.toList.takeWhile (· != 0)
  String.ofList (Text.trim (Text.Utf8.decode bytes))

end Cartridge

end Sm83
