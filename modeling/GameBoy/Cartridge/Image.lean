import GameBoy.Cartridge.Basic

/-!
# Cartridge images

An image is the concatenation of a cartridge's ROM banks.  The header decides how many banks there
are; bytes past them do not matter, and too few are an error.
-/

namespace GameBoy

/-- Why an image cannot be loaded. -/
inductive LoadError where
  /-- The image ends before the header does. -/
  | tooShort (size : Nat)
  /-- The image ends before its last bank does. -/
  | truncated (declared actual : Nat)
  /-- The header describes no cartridge that can be built. -/
  | header (error : ConfigError)
deriving DecidableEq

/-- The wording of a load error. -/
def LoadError.message : LoadError → String
  | .tooShort size => s!"image is {size} bytes, too short to hold a cartridge header"
  | .truncated declared actual =>
    s!"header declares {declared} ROM banks but the image holds {actual}"
  | .header error => "invalid cartridge header: " ++ error.message

/-- An image cut into banks. -/
structure RomImage where
  header : Header
  banks : Array RomBank

namespace RomImage

/-- Cut an image into the banks its header declares. -/
def parse (image : ByteArray) : Except LoadError RomImage :=
  if image.size < Header.endOffset then .error (.tooShort image.size)
  else
    match Header.parse (Bank.ofBytes image) with
    | .error error => .error (.header error)
    | .ok header =>
      if image.size < header.romBanks * 0x4000 then
        .error (.truncated header.romBanks (image.size / 0x4000))
      else
        .ok
          { header
            banks := Array.ofFn fun bank : Fin header.romBanks =>
              Bank.ofSlice image (bank.val * 0x4000) }

/-- What is logged about the size of an image that holds all its banks. -/
def sizeNotices (image : ByteArray) (header : Header) : List LogRecord :=
  let held := (image.size + 0x3FFF) / 0x4000
  let extra : List LogRecord :=
    if held > header.romBanks then
      [⟨.warn, s!"GB cart: image holds {held} banks, header declares " ++
        toString header.romBanks ++ "; extra banks dropped"⟩]
    else []
  extra ++ [⟨.info, "GB cart: " ++ header.summary⟩]

/-- What is logged about the checksum of a header. -/
def checksumNotices (header : Header) : List LogRecord :=
  if header.checksumValid then []
  else
    [⟨.warn, "GB cart: header checksum mismatch (stored 0x" ++ Hex.byte header.checksum ++
      ", computed 0x" ++ Hex.byte header.computedChecksum ++ ")"⟩]

/-- What is logged while an image is cut into banks. -/
def notices (image : ByteArray) : List LogRecord :=
  if image.size < Header.endOffset then []
  else
    match Header.parse (Bank.ofBytes image) with
    | .error _ => []
    | .ok header =>
      checksumNotices header ++
        if image.size < header.romBanks * 0x4000 then [] else sizeNotices image header

end RomImage

/-- Build the cartridge of an image. -/
def Cartridge.ofImage (image : RomImage) : Except ConfigError Cartridge :=
  Cartridge.build image.banks image.header.ramBanks image.header.kind

end GameBoy
