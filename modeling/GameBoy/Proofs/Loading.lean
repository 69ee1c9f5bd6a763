import GameBoy.Machine
import GameBoy.Proofs.BankSelection
import Mathlib.Data.List.Range

/-!
# Loading images

An image passes a few checks, in order, or is rejected with the error of the first that fails.  One
that passes is cut into the banks that its header declares, and these hold its bytes and nothing
else.  The header's checksum is not among what is checked.
-/

namespace GameBoy

/-! ## Chunks -/

/-- Cut bytes into chunks of a size; the last may be shorter. -/
def chunks (size : Nat) [BankSize size] (bytes : List UInt8) : List (List UInt8) :=
  if bytes.length = 0 then [] else bytes.take size :: chunks size (bytes.drop size)
termination_by bytes.length
decreasing_by
  have filled : 0 < size := BankSize.pos
  rw [List.length_drop]
  omega

namespace Bank

variable {size : Nat}

/-- Copy bytes into a bank, padding with 0xFF when short.  Anything past its size is dropped. -/
def ofChunk (bytes : List UInt8) : Bank size :=
  ⟨Vector.ofFn fun place => bytes.getD place.val 0xFF⟩

theorem ofChunk_take (bytes : List UInt8) :
    (ofChunk (bytes.take size) : Bank size) = ofChunk bytes :=
  congrArg mk (Vector.ext fun place inside => by simp)

/-- Enough bytes fill a bank without any padding. -/
theorem toList_ofChunk {bytes : List UInt8} (enough : size ≤ bytes.length) :
    (ofChunk bytes : Bank size).bytes.toList = bytes.take size := by
  refine List.ext_getElem ?_ fun place inside _ => ?_
  · simp [enough]
  · have within : place < size := by simpa using inside
    simp [ofChunk, List.getElem?_eq_getElem (Nat.lt_of_lt_of_le within enough)]

theorem ofSlice_eq_ofChunk (image : ByteArray) (start : Nat) :
    (ofSlice image start : Bank size) = ofChunk (image.data.toList.drop start) := by
  refine congrArg mk (Vector.ext fun place inside => ?_)
  simp only [Vector.getElem_ofFn, List.getD_eq_getElem?_getD, List.getElem?_drop]
  by_cases within : start + place < image.size
  · rw [dif_pos within, Array.getElem?_toList, Array.getElem?_eq_getElem within]
    rfl
  · have past : ¬start + place < image.data.toList.length := by simpa using within
    rw [dif_neg within, List.getElem?_eq_none (by omega)]
    rfl

end Bank

/-- As long as the bytes last, chunks are full. -/
theorem take_chunks {size : Nat} [BankSize size] {bytes : List UInt8} {count : Nat}
    (enough : count * size ≤ bytes.length) :
    ((chunks size bytes).map Bank.ofChunk).take count =
      (List.range count).map fun bank => (Bank.ofChunk (bytes.drop (bank * size)) : Bank size) := by
  induction count generalizing bytes with
  | zero => simp
  | succ count ih =>
      have filled : 0 < size := BankSize.pos
      rw [Nat.succ_mul] at enough
      have rest : count * size ≤ (bytes.drop size).length := by
        rw [List.length_drop]
        omega
      rw [chunks, if_neg (by omega), List.map_cons, List.take_succ_cons, ih rest,
        List.range_succ_eq_map, List.map_cons, List.map_map, Bank.ofChunk_take]
      simp [Function.comp_def, List.drop_drop, Nat.succ_mul, Nat.add_comm]

/-- Full chunks put together again are the bytes. -/
theorem flatMap_ofChunk {size : Nat} {bytes : List UInt8} {count : Nat}
    (enough : count * size ≤ bytes.length) :
    ((List.range count).map fun bank =>
      (Bank.ofChunk (bytes.drop (bank * size)) : Bank size)).flatMap (·.bytes.toList) =
        bytes.take (count * size) := by
  induction count with
  | zero => simp
  | succ count ih =>
      rw [Nat.succ_mul] at enough ⊢
      have last : size ≤ (bytes.drop (count * size)).length := by
        rw [List.length_drop]
        omega
      rw [List.range_succ, List.map_append, List.flatMap_append, ih (by omega), List.take_add]
      simp [Bank.toList_ofChunk last]

/-! ## Codes -/

/-- The cartridge types that have a code. -/
def knownTypes : List CartridgeKind :=
  [{ code := 0x00, controller := .none },
   { code := 0x01, controller := .mbc1 },
   { code := 0x02, controller := .mbc1, ram := true },
   { code := 0x03, controller := .mbc1, ram := true, battery := true },
   { code := 0x05, controller := .mbc2 },
   { code := 0x06, controller := .mbc2, battery := true },
   { code := 0x08, controller := .none, ram := true },
   { code := 0x09, controller := .none, ram := true, battery := true },
   { code := 0x0B, controller := .mmm01 },
   { code := 0x0C, controller := .mmm01, ram := true },
   { code := 0x0D, controller := .mmm01, ram := true, battery := true },
   { code := 0x0F, controller := .mbc3, battery := true, rtc := true },
   { code := 0x10, controller := .mbc3, ram := true, battery := true, rtc := true },
   { code := 0x11, controller := .mbc3 },
   { code := 0x12, controller := .mbc3, ram := true },
   { code := 0x13, controller := .mbc3, ram := true, battery := true },
   { code := 0x15, controller := .mbc4 },
   { code := 0x16, controller := .mbc4, ram := true },
   { code := 0x17, controller := .mbc4, ram := true, battery := true },
   { code := 0x19, controller := .mbc5 },
   { code := 0x1A, controller := .mbc5, ram := true },
   { code := 0x1B, controller := .mbc5, ram := true, battery := true },
   { code := 0x1C, controller := .mbc5, rumble := true },
   { code := 0x1D, controller := .mbc5, ram := true, rumble := true },
   { code := 0x1E, controller := .mbc5, ram := true, battery := true, rumble := true }]

/-- The numbers of ROM banks that have a code. -/
def knownRomSizes : List (UInt8 × Nat) :=
  [(0x00, 2), (0x01, 4), (0x02, 8), (0x03, 16), (0x04, 32), (0x05, 64), (0x06, 128), (0x07, 256),
   (0x08, 512), (0x52, 72), (0x53, 80), (0x54, 96)]

/-- The numbers of RAM banks that have a code. -/
def knownRamSizes : List (UInt8 × Nat) :=
  [(0x00, 0), (0x01, 1), (0x02, 1), (0x03, 4), (0x04, 16), (0x05, 8)]

/-- The cartridge type with a code. -/
def typeOf? (code : UInt8) : Option CartridgeKind :=
  knownTypes.find? (·.code == code)

/-- The number of ROM banks with a code. -/
def romBanksOf? (code : UInt8) : Option Nat :=
  knownRomSizes.lookup code

/-- The number of RAM banks with a code. -/
def ramBanksOf? (code : UInt8) : Option Nat :=
  knownRamSizes.lookup code

/-- What a code stands for, or the error that it is unknown. -/
def decode {α : Type} (find : UInt8 → Option α) (unknown : UInt8 → ConfigError) (code : UInt8) :
    Except ConfigError α :=
  (find code).elim (.error (unknown code)) .ok

theorem ofCode_eq_decode (code : UInt8) :
    CartridgeKind.ofCode code = decode typeOf? .unknownCartridgeType code :=
  forall_byte code (by decide +kernel)

theorem romBankCount_eq_decode (code : UInt8) :
    romBankCount code = decode romBanksOf? .unknownRomSize code :=
  forall_byte code (by decide +kernel)

theorem ramBankCount_eq_decode (code : UInt8) :
    ramBankCount code = decode ramBanksOf? .unknownRamSize code :=
  forall_byte code (by decide +kernel)

theorem two_le_of_romBanksOf? {code : UInt8} {count : Nat} (known : romBanksOf? code = some count) :
    2 ≤ count := by
  have all : ∀ count ∈ romBanksOf? code, 2 ≤ count := forall_byte code (by decide +kernel)
  exact all count known

/-! ## Checks -/

namespace RomImage

/-- The byte of an image at an offset. -/
def byteAt (image : ByteArray) (offset : Nat) : UInt8 :=
  image.data.getD offset 0xFF

/-- What is checked of an image, in order. -/
inductive Check where
  /-- There is a header. -/
  | header
  | type
  | romSize
  | ramSize
  /-- All banks are there. -/
  | extent
  | controller
  /-- Without a controller no RAM is fitted that could not be mapped. -/
  | ram

/-- All checks in order. -/
def Check.all : List Check :=
  [.header, .type, .romSize, .ramSize, .extent, .controller, .ram]

/-- The error of a code in the header if it is unknown. -/
def codeFailure {α : Type} (find : UInt8 → Option α) (unknown : UInt8 → ConfigError)
    (code : UInt8) : Option LoadError :=
  if (find code).isSome then none else some (.header (unknown code))

/-- The controllers that have a model. -/
def supported : List Controller :=
  [.none, .mbc1, .mbc3, .mbc5]

/-- Why the RAM of a cartridge cannot be mapped: without a controller one bank can, and only if the
type has RAM. -/
def ramFailure (kind : CartridgeKind) (count : Nat) : Option ConfigError :=
  if kind.controller ≠ .none then none
  else if 1 < count then some (.tooManyRamBanks count)
  else if count = 1 ∧ kind.ram = false then some (.unexpectedRam count)
  else none

/-- The error of the check if it fails.  Nothing fails for what an earlier check rejects. -/
def Check.failure (image : ByteArray) : Check → Option LoadError
  | .header => if image.size < 0x150 then some (.tooShort image.size) else none
  | .type => codeFailure typeOf? .unknownCartridgeType (byteAt image 0x147)
  | .romSize => codeFailure romBanksOf? .unknownRomSize (byteAt image 0x148)
  | .ramSize => codeFailure ramBanksOf? .unknownRamSize (byteAt image 0x149)
  | .extent =>
    match romBanksOf? (byteAt image 0x148) with
    | some declared =>
      if image.size < declared * 0x4000 then some (.truncated declared (image.size / 0x4000))
      else none
    | none => none
  | .controller =>
    match typeOf? (byteAt image 0x147) with
    | some kind =>
      if kind.controller ∈ supported then none
      else some (.header (.unsupportedController kind.controller))
    | none => none
  | .ram =>
    match typeOf? (byteAt image 0x147), ramBanksOf? (byteAt image 0x149) with
    | some kind, some count => (ramFailure kind count).map .header
    | _, _ => none

/-- The error of the first check that fails. -/
def firstFailure (image : ByteArray) : Option LoadError :=
  Check.all.findSome? (·.failure image)

/-- What the header of an image declares. -/
structure Declares (image : ByteArray) (kind : CartridgeKind) (romBanks ramBanks : Nat) : Prop where
  type : typeOf? (byteAt image 0x147) = some kind
  romSize : romBanksOf? (byteAt image 0x148) = some romBanks
  ramSize : ramBanksOf? (byteAt image 0x149) = some ramBanks

/-- An image that can be loaded, and what its header declares. -/
structure Loadable (image : ByteArray) (kind : CartridgeKind) (romBanks ramBanks : Nat) : Prop
    extends Declares image kind romBanks ramBanks where
  header : 0x150 ≤ image.size
  extent : romBanks * 0x4000 ≤ image.size
  controller : kind.controller ∈ supported
  ram : kind.controller = .none → ramBanks = 0 ∨ (ramBanks = 1 ∧ kind.ram = true)

theorem ramFailure_eq_none_iff {kind : CartridgeKind} {count : Nat} :
    ramFailure kind count = none ↔
      (kind.controller = .none → count = 0 ∨ (count = 1 ∧ kind.ram = true)) := by
  rw [ramFailure]
  by_cases controller : kind.controller = .none
  · rcases count with _ | _ | count
    · simp [controller]
    · cases fitted : kind.ram <;> simp [controller]
    · simp [controller]
  · simp [controller]

/-- Cut an image into chunks, make each a bank and drop those past the number declared. -/
def parseByChunks (image : ByteArray) : Except LoadError RomImage :=
  if image.size < Header.endOffset then .error (.tooShort image.size)
  else
    match Header.parse (Bank.ofChunk image.data.toList) with
    | .error error => .error (.header error)
    | .ok header =>
      if image.size < header.romBanks * 0x4000 then
        .error (.truncated header.romBanks (image.size / 0x4000))
      else
        .ok
          { header
            banks :=
              (((chunks 0x4000 image.data.toList).map Bank.ofChunk).take header.romBanks).toArray }

theorem read_ofSlice (image : ByteArray) (start : Nat) {offset : Nat} (inside : offset < 0x4000) :
    (Bank.ofSlice image start : RomBank).read offset = byteAt image (start + offset) := by
  rw [Bank.ofSlice_eq_ofChunk]
  simp [Bank.read, Bank.ofChunk, byteAt, Nat.mod_eq_of_lt inside]

theorem read_ofBytes (image : ByteArray) {offset : Nat} (inside : offset < 0x4000) :
    (Bank.ofBytes image : RomBank).read offset = byteAt image offset := by
  rw [Bank.ofBytes, read_ofSlice image 0 inside, Nat.zero_add]

/-- The banks that an image is cut into. -/
def cut (image : ByteArray) (count : Nat) : Array RomBank :=
  Array.ofFn fun bank : Fin count => Bank.ofSlice image (bank.val * 0x4000)

theorem toList_cut (image : ByteArray) (count : Nat) :
    (cut image count).toList =
      (List.range count).map fun bank => Bank.ofChunk (image.data.toList.drop (bank * 0x4000)) := by
  refine List.ext_getElem (by simp [cut]) fun bank inside _ => ?_
  simp [cut, Bank.ofSlice_eq_ofChunk]

theorem parse_eq_parseByChunks (image : ByteArray) : parse image = parseByChunks image := by
  have first : (Bank.ofBytes image : RomBank) = Bank.ofChunk image.data.toList :=
    Bank.ofSlice_eq_ofChunk image 0
  rw [parse, parseByChunks, first]
  refine if_congr Iff.rfl rfl ?_
  cases Header.parse (Bank.ofChunk image.data.toList) with
  | error error => rfl
  | ok header =>
      by_cases short : image.size < header.romBanks * 0x4000
      · simp only [if_pos short]
      · have held : header.romBanks * 0x4000 ≤ image.data.toList.length := Nat.le_of_not_lt short
        have banks :
            (((chunks 0x4000 image.data.toList).map Bank.ofChunk).take header.romBanks).toArray =
              cut image header.romBanks := by
          rw [take_chunks held, ← toList_cut]
        simp only [if_neg short, banks, cut]

/-! ## Loading -/

variable {image : ByteArray} {kind : CartridgeKind} {romBanks ramBanks : Nat}

/-- The header is decoded from the image itself. -/
theorem headerOf_eq (image : ByteArray) :
    Header.parse (Bank.ofBytes image) = (do
      let kind ← decode typeOf? .unknownCartridgeType (byteAt image 0x147)
      let romBanks ← decode romBanksOf? .unknownRomSize (byteAt image 0x148)
      let ramBanks ← decode ramBanksOf? .unknownRamSize (byteAt image 0x149)
      pure
        { title := Header.titleOf (Bank.ofBytes image)
          cgbFlag := byteAt image 0x143
          kind, romBanks, ramBanks
          destination := if byteAt image 0x14A = 0 then .japan else .overseas
          checksum := byteAt image 0x14D
          computedChecksum := Header.checksumOf (Bank.ofBytes image) }) := by
  have read {offset : Nat} (inside : offset < 0x4000) :
      (Bank.ofBytes image : RomBank).read offset = byteAt image offset := read_ofBytes image inside
  rw [Header.parse, Header.checksumOffset, read (by decide : 0x147 < 0x4000),
    read (by decide : 0x148 < 0x4000), read (by decide : 0x149 < 0x4000),
    read (by decide : 0x143 < 0x4000), read (by decide : 0x14A < 0x4000),
    read (by decide : 0x14D < 0x4000), ofCode_eq_decode, romBankCount_eq_decode,
    ramBankCount_eq_decode]

theorem Declares.header (declares : Declares image kind romBanks ramBanks) :
    ∃ header, Header.parse (Bank.ofBytes image) = .ok header ∧ header.kind = kind ∧
      header.romBanks = romBanks ∧ header.ramBanks = ramBanks := by
  rw [headerOf_eq, decode, decode, decode, declares.type, declares.romSize, declares.ramSize]
  exact ⟨_, rfl, rfl, rfl, rfl⟩

/-- What is left to check once the banks are cut. -/
theorem Declares.ofImage (declares : Declares image kind romBanks ramBanks)
    (header : 0x150 ≤ image.size) (extent : romBanks * 0x4000 ≤ image.size) (config : Config)
    (sink : Sink) :
    Machine.ofImage image config sink =
      match Cartridge.build (cut image romBanks) ramBanks kind with
      | .ok cartridge => .ok (Machine.boot cartridge config sink)
      | .error error => .error (.header error) := by
  obtain ⟨parts, parsed, rfl, rfl, rfl⟩ := declares.header
  have banks : parse image = .ok ⟨parts, cut image parts.romBanks⟩ := by
    rw [parse, if_neg (by rw [Header.endOffset]; omega), parsed]
    simp only [if_neg (Nat.not_lt.mpr extent), cut]
  rw [Machine.ofImage, banks]
  simp only [bind, Except.bind, Cartridge.ofImage]
  rfl

/-- An image whose header or extent is wrong is rejected before it is cut. -/
theorem ofImage_of_error {error : LoadError} (rejected : parse image = .error error)
    (config : Config) (sink : Sink) : Machine.ofImage image config sink = .error error := by
  rw [Machine.ofImage, rejected]
  rfl

theorem size_cut (image : ByteArray) (count : Nat) : (cut image count).size = count := by
  simp [cut]

/-- A cartridge is built of enough banks if its controller has a model and its RAM can be mapped. -/
theorem build_of_supported {rom : Array RomBank} (two : 2 ≤ rom.size)
    (controller : kind.controller ∈ supported) (mapped : ramFailure kind ramBanks = none) :
    ∃ cartridge, Cartridge.build rom ramBanks kind = .ok cartridge ∧ cartridge.kind = kind := by
  simp only [supported, List.mem_cons, List.not_mem_nil, or_false] at controller
  rw [Cartridge.build, dif_pos two]
  rcases controller with same | same | same | same
  · rcases ramFailure_eq_none_iff.mp mapped same with rfl | ⟨rfl, fitted⟩
    · simp [Mapper.ofKind, same]
    · simp [Mapper.ofKind, same, fitted]
  all_goals simp [Mapper.ofKind, same, Mapper.isPresent]

theorem build_of_ramFailure {rom : Array RomBank} (two : 2 ≤ rom.size) {error : ConfigError}
    (failed : ramFailure kind ramBanks = some error) :
    Cartridge.build rom ramBanks kind = .error error := by
  rw [ramFailure] at failed
  split at failed
  · cases failed
  · next none =>
    rw [Cartridge.build, dif_pos two, Mapper.ofKind, not_not.mp none]
    split at failed
    · next many =>
      cases failed
      simp [Mapper.isPresent, many]
    · split at failed
      · next single =>
        cases failed
        simp [Mapper.isPresent, single]
      · cases failed

/-- Without a model of its controller no cartridge is built. -/
theorem build_of_unsupported {rom : Array RomBank} (two : 2 ≤ rom.size)
    (controller : kind.controller ∉ supported) :
    Cartridge.build rom ramBanks kind = .error (.unsupportedController kind.controller) := by
  rw [Cartridge.build, dif_pos two, Mapper.ofKind]
  cases same : kind.controller <;> first | rfl | simp [supported, same] at controller

theorem Declares.two_le (declares : Declares image kind romBanks ramBanks) :
    2 ≤ (cut image romBanks).size := by
  rw [size_cut]
  exact two_le_of_romBanksOf? declares.romSize

/-- A loadable image makes a machine with the banks cut from it. -/
theorem Loadable.ofImage (loadable : Loadable image kind romBanks ramBanks) (config : Config)
    (sink : Sink) :
    ∃ cartridge, Machine.ofImage image config sink = .ok (Machine.boot cartridge config sink) ∧
      cartridge.kind = kind ∧ cartridge.rom = cut image romBanks ∧
      cartridge.ram = Array.replicate ramBanks (Bank.filled 0xFF) ∧
      Mapper.ofKind kind = some cartridge.mapper := by
  obtain ⟨cartridge, built, same⟩ := build_of_supported loadable.toDeclares.two_le
    loadable.controller (ramFailure_eq_none_iff.mpr loadable.ram)
  obtain ⟨fitted, rom, ram⟩ := Cartridge.build_ok built
  refine ⟨cartridge, ?_, same, rom, ram, fitted⟩
  rw [loadable.toDeclares.ofImage loadable.header loadable.extent, built]

/-- An image without a header that can be decoded fails at it. -/
theorem failure_or_declares (image : ByteArray) :
    (∃ error, firstFailure image = some error ∧ parse image = .error error) ∨
    (0x150 ≤ image.size ∧ ∃ kind romBanks ramBanks, Declares image kind romBanks ramBanks) := by
  by_cases short : image.size < 0x150
  · refine .inl ⟨.tooShort image.size, ?_, ?_⟩
    · simp [firstFailure, Check.all, Check.failure, short]
    · rw [parse, if_pos (by exact short)]
  have begun : ¬image.size < Header.endOffset := short
  have rejects {error : ConfigError} (unread : Header.parse (Bank.ofBytes image) = .error error) :
      parse image = .error (.header error) := by
    rw [parse, if_neg begun, unread]
  simp only [headerOf_eq, decode] at rejects
  cases type : typeOf? (byteAt image 0x147) with
  | none =>
      refine .inl ⟨.header (.unknownCartridgeType _), ?_, rejects (by rw [type]; rfl)⟩
      simp [firstFailure, Check.all, Check.failure, short, type, codeFailure]
  | some kind =>
      cases romSize : romBanksOf? (byteAt image 0x148) with
      | none =>
          refine .inl ⟨.header (.unknownRomSize _), ?_, rejects (by rw [type, romSize]; rfl)⟩
          simp [firstFailure, Check.all, Check.failure, short, type, romSize, codeFailure]
      | some romBanks =>
          cases ramSize : ramBanksOf? (byteAt image 0x149) with
          | none =>
              refine .inl ⟨.header (.unknownRamSize _), ?_,
                rejects (by rw [type, romSize, ramSize]; rfl)⟩
              simp [firstFailure, Check.all, Check.failure, short, type, romSize, ramSize,
                codeFailure]
          | some ramBanks =>
              exact .inr ⟨Nat.le_of_not_lt short, kind, romBanks, ramBanks, type, romSize, ramSize⟩

/-- With a header that can be decoded three checks are left. -/
theorem Declares.firstFailure_eq (declares : Declares image kind romBanks ramBanks)
    (header : 0x150 ≤ image.size) :
    firstFailure image =
      if image.size < romBanks * 0x4000 then some (.truncated romBanks (image.size / 0x4000))
      else if kind.controller ∈ supported then (ramFailure kind ramBanks).map .header
      else some (.header (.unsupportedController kind.controller)) := by
  have long : ¬image.size < 0x150 := Nat.not_lt.mpr header
  simp only [firstFailure, Check.all, List.findSome?, Check.failure, long, declares.type,
    declares.romSize, declares.ramSize, codeFailure, Option.isSome_some, if_true, if_false]
  by_cases short : image.size < romBanks * 0x4000
  · simp [short]
  · by_cases controller : kind.controller ∈ supported
    · cases failed : ramFailure kind ramBanks <;> simp [short, controller]
    · simp [short, controller]

/-- An image that is truncated holds fewer whole banks than declared. -/
theorem lt_of_truncated {config : Config} {sink : Sink} {declared actual : Nat}
    (rejected : Machine.ofImage image config sink = .error (.truncated declared actual)) :
    actual = image.size / 0x4000 ∧ actual < declared := by
  rw [Machine.ofImage] at rejected
  cases parsed : parse image with
  | error error =>
      rw [parsed] at rejected
      cases rejected
      rw [parse] at parsed
      split at parsed
      · cases parsed
      · split at parsed
        · cases parsed
        · split at parsed
          · next short =>
            cases parsed
            exact ⟨rfl, Nat.div_lt_of_lt_mul (Nat.mul_comm _ 0x4000 ▸ short)⟩
          · cases parsed
  | ok parts =>
      rw [parsed] at rejected
      cases built : Cartridge.ofImage parts with
      | error error =>
          simp only [bind, Except.bind, built] at rejected
          cases rejected
      | ok cartridge =>
          simp only [bind, Except.bind, built] at rejected
          cases rejected

/-- Either a check fails, and its error is that of the image, or the image can be loaded. -/
theorem failure_or_loadable (image : ByteArray) :
    (∃ error, firstFailure image = some error ∧
      ∀ config sink, Machine.ofImage image config sink = .error error) ∨
    (firstFailure image = none ∧
      ∃ kind romBanks ramBanks, Loadable image kind romBanks ramBanks) := by
  rcases failure_or_declares image with
    ⟨error, first, rejected⟩ | ⟨header, kind, romBanks, ramBanks, declares⟩
  · exact .inl ⟨error, first, ofImage_of_error rejected⟩
  have failure := declares.firstFailure_eq header
  by_cases short : image.size < romBanks * 0x4000
  · rw [if_pos short] at failure
    obtain ⟨parts, parsed, _, rfl, _⟩ := declares.header
    refine .inl ⟨_, failure, ofImage_of_error ?_⟩
    rw [parse, if_neg (Nat.not_lt.mpr (by exact header)), parsed]
    simp only [if_pos short]
  have extent : romBanks * 0x4000 ≤ image.size := Nat.le_of_not_lt short
  rw [if_neg short] at failure
  by_cases controller : kind.controller ∈ supported
  · rw [if_pos controller] at failure
    cases mapped : ramFailure kind ramBanks with
    | none =>
        rw [mapped] at failure
        exact .inr ⟨failure, kind, romBanks, ramBanks, declares, header, extent, controller,
          ramFailure_eq_none_iff.mp mapped⟩
    | some error =>
        rw [mapped] at failure
        refine .inl ⟨_, failure, fun config sink => ?_⟩
        rw [declares.ofImage header extent, build_of_ramFailure declares.two_le mapped]
  · rw [if_neg controller] at failure
    refine .inl ⟨_, failure, fun config sink => ?_⟩
    rw [declares.ofImage header extent, build_of_unsupported declares.two_le controller]

/-! ## Bytes that matter -/

/-- The banks that are cut hold the bytes of the image, in order. -/
theorem flatMap_cut (extent : romBanks * 0x4000 ≤ image.size) :
    (cut image romBanks).toList.flatMap (·.bytes.toList) =
      image.data.toList.take (romBanks * 0x4000) := by
  rw [toList_cut]
  exact flatMap_ofChunk extent

theorem byteAt_of_take_eq {other : ByteArray} {count offset : Nat}
    (same : other.data.toList.take count = image.data.toList.take count) (inside : offset < count) :
    byteAt other offset = byteAt image offset := by
  have found := congrArg (·[offset]?) same
  simp only [List.getElem?_take, if_pos inside, Array.getElem?_toList] at found
  rw [byteAt, byteAt, Array.getD_eq_getD_getElem?, Array.getD_eq_getD_getElem?, found]

theorem cut_of_take_eq {other : ByteArray} {count : Nat}
    (same : other.data.toList.take (count * 0x4000) = image.data.toList.take (count * 0x4000)) :
    cut other count = cut image count := by
  -- a chunk within the common bytes does not depend on what follows them
  have within (bytes : List UInt8) {bank : Nat} (inside : bank < count) :
      (Bank.ofChunk (bytes.drop (bank * 0x4000)) : RomBank) =
        Bank.ofChunk ((bytes.take (count * 0x4000)).drop (bank * 0x4000)) := by
    rw [← Bank.ofChunk_take, ← Bank.ofChunk_take (List.drop _ (List.take _ _)), List.drop_take,
      List.take_take, Nat.min_eq_left (by omega)]
  apply Array.toList_inj.mp
  rw [toList_cut, toList_cut]
  refine List.map_congr_left fun bank member => ?_
  rw [List.mem_range] at member
  rw [within other.data.toList member, same, ← within image.data.toList member]

/-- Bytes past the banks that are declared do not matter. -/
theorem Declares.ofImage_of_take_eq (declares : Declares image kind romBanks ramBanks)
    {other : ByteArray} (extent : romBanks * 0x4000 ≤ image.size)
    (extentToo : romBanks * 0x4000 ≤ other.size)
    (same : other.data.toList.take (romBanks * 0x4000) =
      image.data.toList.take (romBanks * 0x4000)) (config : Config) (sink : Sink) :
    Machine.ofImage other config sink = Machine.ofImage image config sink := by
  have two := two_le_of_romBanksOf? declares.romSize
  have other_declares : Declares other kind romBanks ramBanks := by
    refine ⟨?_, ?_, ?_⟩
    · rw [byteAt_of_take_eq same (by omega), declares.type]
    · rw [byteAt_of_take_eq same (by omega), declares.romSize]
    · rw [byteAt_of_take_eq same (by omega), declares.ramSize]
  rw [other_declares.ofImage (by omega) extentToo, declares.ofImage (by omega) extent,
    cut_of_take_eq same]

/-- Nothing but its size and the three codes decides whether an image can be loaded. -/
theorem firstFailure_congr {other : ByteArray} (size : other.size = image.size)
    (type : byteAt other 0x147 = byteAt image 0x147)
    (romSize : byteAt other 0x148 = byteAt image 0x148)
    (ramSize : byteAt other 0x149 = byteAt image 0x149) :
    firstFailure other = firstFailure image := by
  have same (check : Check) : check.failure other = check.failure image := by
    cases check <;> simp only [Check.failure, size, type, romSize, ramSize]
  simp only [firstFailure, same]

/-- The image with another checksum in its header. -/
def withChecksum (image : ByteArray) (value : UInt8) : ByteArray :=
  ⟨image.data.setIfInBounds Header.checksumOffset value⟩

theorem size_withChecksum (image : ByteArray) (value : UInt8) :
    (withChecksum image value).size = image.size :=
  Array.size_setIfInBounds

theorem byteAt_withChecksum (held : 0x150 ≤ image.size) (value : UInt8) (offset : Nat) :
    byteAt (withChecksum image value) offset =
      if Header.checksumOffset = offset then value else byteAt image offset := by
  have inside : Header.checksumOffset < image.data.size := Nat.lt_of_lt_of_le (by decide) held
  rw [byteAt, byteAt, withChecksum, Array.getD_eq_getD_getElem?, Array.getElem?_setIfInBounds]
  by_cases here : Header.checksumOffset = offset
  · rw [if_pos here, if_pos here, if_pos inside]
    rfl
  · rw [if_neg here, if_neg here, Array.getD_eq_getD_getElem?]

end RomImage

/-- The cartridge with another checksum in the header of its first bank. -/
def Cartridge.withChecksum (cartridge : Cartridge) (value : UInt8) : Cartridge :=
  { cartridge with
    rom := cartridge.rom.modify 0 (·.write Header.checksumOffset value)
    two_le_rom := by simpa using cartridge.two_le_rom }

/-- The machine with another checksum in its cartridge. -/
def Machine.withChecksum (machine : Machine) (value : UInt8) : Machine :=
  ⟨machine.cpu, { machine.bus with cartridge := machine.bus.cartridge.withChecksum value }⟩

namespace RomImage

variable {image : ByteArray} {kind : CartridgeKind} {romBanks ramBanks : Nat}

theorem cut_withChecksum (held : 0x150 ≤ image.size) (value : UInt8) (count : Nat) :
    cut (withChecksum image value) count =
      (cut image count).modify 0 (·.write Header.checksumOffset value) := by
  have slice (image : ByteArray) (start : Nat) : (Bank.ofSlice image start : RomBank) =
      ⟨Vector.ofFn fun place => byteAt image (start + place)⟩ := by
    rw [Bank.ofSlice_eq_ofChunk, Bank.ofChunk]
    simp [byteAt]
  refine Array.ext (by simp [cut]) fun bank inside _ => ?_
  rw [Array.getElem_modify]
  simp only [cut, Array.getElem_ofFn, slice, byteAt_withChecksum held]
  cases bank with
  | zero =>
      rw [if_pos rfl, Bank.write]
      refine congrArg Bank.mk (Vector.ext fun place _ => ?_)
      simp [Vector.getElem_set, Header.checksumOffset]
  | succ bank =>
      -- the checksum lies in the first bank
      rw [if_neg (Nat.succ_ne_zero bank).symm]
      refine congrArg Bank.mk (Vector.ext fun place _ => ?_)
      have elsewhere : Header.checksumOffset ≠ (bank + 1) * 0x4000 + place := by
        rw [Header.checksumOffset]
        omega
      simp [elsewhere]

theorem Loadable.withChecksum (loadable : Loadable image kind romBanks ramBanks) (value : UInt8) :
    Loadable (withChecksum image value) kind romBanks ramBanks := by
  have same (offset : Nat) (other : Header.checksumOffset ≠ offset) :
      byteAt (RomImage.withChecksum image value) offset = byteAt image offset := by
    rw [byteAt_withChecksum loadable.header, if_neg other]
  refine ⟨⟨?_, ?_, ?_⟩, ?_, ?_, loadable.controller, loadable.ram⟩
  · rw [same 0x147 (by decide), loadable.type]
  · rw [same 0x148 (by decide), loadable.romSize]
  · rw [same 0x149 (by decide), loadable.ramSize]
  · rw [size_withChecksum]
    exact loadable.header
  · rw [size_withChecksum]
    exact loadable.extent

theorem firstFailure_withChecksum (image : ByteArray) (value : UInt8) :
    firstFailure (withChecksum image value) = firstFailure image := by
  have size := size_withChecksum image value
  by_cases short : image.size < 0x150
  · simp [firstFailure, Check.all, Check.failure, size, short]
  · have same (offset : Nat) (other : Header.checksumOffset ≠ offset) :
        byteAt (withChecksum image value) offset = byteAt image offset := by
      rw [byteAt_withChecksum (Nat.le_of_not_lt short), if_neg other]
    exact firstFailure_congr size (same _ (by decide)) (same _ (by decide)) (same _ (by decide))

/-- Of the machine that an image makes only the checksum itself depends on the checksum. -/
theorem ofImage_withChecksum (image : ByteArray) (value : UInt8) (config : Config) (sink : Sink) :
    Machine.ofImage (withChecksum image value) config sink =
      (Machine.ofImage image config sink).map (·.withChecksum value) := by
  rcases failure_or_loadable image with
    ⟨error, first, fails⟩ | ⟨passes, kind, romBanks, ramBanks, loadable⟩
  · have firstToo := (firstFailure_withChecksum image value).trans first
    rcases failure_or_loadable (withChecksum image value) with ⟨other, same, failsToo⟩ | ⟨none, _⟩
    · rw [firstToo] at same
      cases same
      rw [fails, failsToo]
      rfl
    · rw [firstToo] at none
      cases none
  · obtain ⟨cartridge, loaded, rfl, rom, ram, mapper⟩ := loadable.ofImage config sink
    obtain ⟨other, loadedToo, same, romToo, ramToo, mapperToo⟩ :=
      (loadable.withChecksum value).ofImage config sink
    have checked : other = cartridge.withChecksum value := by
      rw [cut_withChecksum loadable.header, ← rom] at romToo
      rw [← ram] at ramToo
      rw [mapper] at mapperToo
      cases other
      simp only [Cartridge.withChecksum, Cartridge.mk.injEq]
      exact ⟨same, romToo, ramToo, (Option.some.inj mapperToo).symm⟩
    rw [loaded, loadedToo, checked, Except.map, Machine.withChecksum]
    cases state : config.bootState <;> simp only [Machine.boot, Board.boot, state]

/-- An image can be loaded exactly if it is long enough for a header with known codes and for the
banks that this declares, its controller has a model and without a controller there is no RAM that
the type does not have or that could not be mapped.  Otherwise it is rejected with the error of the
first check that fails.  The machine is then one at power-on with as many ROM banks as declared,
which hold the first bytes of the image and nothing else, and with the RAM and the controller
declared.  Bytes that follow the banks do not matter, and the checksum decides about nothing.  It
makes no difference whether the banks are cut directly or as chunks that are padded and dropped. -/
theorem loading_is_exact (image : ByteArray) (config : Config) (sink : Sink) :
    ((∃ machine, Machine.ofImage image config sink = .ok machine) ↔
      ∃ kind romBanks ramBanks, Loadable image kind romBanks ramBanks) ∧
    (∀ error, Machine.ofImage image config sink = .error error ↔
      firstFailure image = some error) ∧
    (∀ declared actual, Machine.ofImage image config sink = .error (.truncated declared actual) →
      actual = image.size / 0x4000 ∧ actual < declared) ∧
    (∀ kind romBanks ramBanks, Loadable image kind romBanks ramBanks →
      ∃ cartridge, Machine.ofImage image config sink = .ok (Machine.boot cartridge config sink) ∧
        cartridge.kind = kind ∧ cartridge.rom.size = romBanks ∧
        cartridge.rom.toList.flatMap (·.bytes.toList) =
          image.data.toList.take (romBanks * 0x4000) ∧
        cartridge.ram = Array.replicate ramBanks (Bank.filled 0xFF) ∧
        Mapper.ofKind kind = some cartridge.mapper) ∧
    (∀ other kind romBanks ramBanks, Declares image kind romBanks ramBanks →
      romBanks * 0x4000 ≤ image.size → romBanks * 0x4000 ≤ other.size →
      other.data.toList.take (romBanks * 0x4000) = image.data.toList.take (romBanks * 0x4000) →
        Machine.ofImage other config sink = Machine.ofImage image config sink) ∧
    (∀ other, other.size = image.size → byteAt other 0x147 = byteAt image 0x147 →
      byteAt other 0x148 = byteAt image 0x148 → byteAt other 0x149 = byteAt image 0x149 →
        firstFailure other = firstFailure image) ∧
    (∀ value, Machine.ofImage (withChecksum image value) config sink =
      (Machine.ofImage image config sink).map (·.withChecksum value)) ∧
    parse image = parseByChunks image := by
  refine ⟨⟨?_, ?_⟩, fun error => ⟨?_, ?_⟩, fun _ _ => lt_of_truncated, ?_, ?_, ?_, ?_,
    parse_eq_parseByChunks image⟩
  · rintro ⟨machine, loaded⟩
    rcases failure_or_loadable image with ⟨error, _, fails⟩ | ⟨_, loadable⟩
    · rw [fails] at loaded
      cases loaded
    · exact loadable
  · rintro ⟨kind, romBanks, ramBanks, loadable⟩
    obtain ⟨cartridge, loaded, _⟩ := loadable.ofImage config sink
    exact ⟨_, loaded⟩
  · intro rejected
    rcases failure_or_loadable image with ⟨other, first, fails⟩ | ⟨_, _, _, _, loadable⟩
    · rw [fails] at rejected
      cases rejected
      exact first
    · obtain ⟨cartridge, loaded, _⟩ := loadable.ofImage config sink
      rw [loaded] at rejected
      cases rejected
  · intro first
    rcases failure_or_loadable image with ⟨other, same, fails⟩ | ⟨none, _⟩
    · rw [first] at same
      cases same
      exact fails config sink
    · rw [first] at none
      cases none
  · intro kind romBanks ramBanks loadable
    obtain ⟨cartridge, loaded, same, rom, ram, mapper⟩ := loadable.ofImage config sink
    refine ⟨cartridge, loaded, same, ?_, ?_, ram, mapper⟩
    · rw [rom, size_cut]
    · rw [rom, flatMap_cut loadable.extent]
  · intro other kind romBanks ramBanks declares extent extentToo same
    exact declares.ofImage_of_take_eq extent extentToo same config sink
  · intro other size type romSize ramSize
    exact firstFailure_congr size type romSize ramSize
  · intro value
    exact ofImage_withChecksum image value config sink

/-- An image of zeros but for the three codes. -/
def coded (size : Nat) (type romSize ramSize : UInt8) : ByteArray :=
  ⟨(((Array.replicate size 0).setIfInBounds 0x147 type).setIfInBounds 0x148 romSize).setIfInBounds
    0x149 ramSize⟩

theorem size_coded (size : Nat) (type romSize ramSize : UInt8) :
    (coded size type romSize ramSize).size = size := by
  simp [coded, ByteArray.size]

theorem byteAt_coded {size : Nat} (held : 0x150 ≤ size) (type romSize ramSize : UInt8) :
    let image := coded size type romSize ramSize
    byteAt image 0x147 = type ∧ byteAt image 0x148 = romSize ∧ byteAt image 0x149 = ramSize := by
  have inside : 0x149 < size := by omega
  simp [byteAt, coded, show 0x147 < size by omega, show 0x148 < size by omega, inside]

theorem declares_coded {size : Nat} (held : 0x150 ≤ size) {type romSize ramSize : UInt8}
    (known : typeOf? type = some kind) (rom : romBanksOf? romSize = some romBanks)
    (ram : ramBanksOf? ramSize = some ramBanks) :
    Declares (coded size type romSize ramSize) kind romBanks ramBanks := by
  obtain ⟨first, second, third⟩ := byteAt_coded held type romSize ramSize
  exact ⟨first.symm ▸ known, second.symm ▸ rom, third.symm ▸ ram⟩

/-- One byte decides whether there is a second bank, and an MBC1 with RAM has the banks that its
codes say.  A controller without a model and a code that no type has are rejected. -/
theorem loading_is_exact_coded :
    (∃ cartridge, Machine.ofImage (coded 0x8000 0x00 0x00 0x00) {} .discard =
        .ok (Machine.boot cartridge {} .discard) ∧ cartridge.rom.size = 2) ∧
      Machine.ofImage (coded 0x7FFF 0x00 0x00 0x00) {} .discard = .error (.truncated 2 1) ∧
      (∃ cartridge, Machine.ofImage (coded 0x10000 0x03 0x01 0x03) {} .discard =
        .ok (Machine.boot cartridge {} .discard) ∧ cartridge.rom.size = 4 ∧
        cartridge.ram.size = 4 ∧ cartridge.mapper = .mbc1 {}) ∧
      Machine.ofImage (coded 0x8000 0x05 0x00 0x00) {} .discard =
        .error (.header (.unsupportedController .mbc2)) ∧
      Machine.ofImage (coded 0x8000 0x04 0x00 0x00) {} .discard =
        .error (.header (.unknownCartridgeType 0x04)) := by
  have plain : Declares (coded 0x8000 0 0 0) .romOnly 2 0 := declares_coded (by decide) rfl rfl rfl
  have short : Declares (coded 0x7FFF 0 0 0) .romOnly 2 0 := declares_coded (by decide) rfl rfl rfl
  have mbc1 : Declares (coded 0x10000 0x03 0x01 0x03)
      { code := 0x03, controller := .mbc1, ram := true, battery := true } 4 4 :=
    declares_coded (by decide) rfl rfl rfl
  have mbc2 : Declares (coded 0x8000 0x05 0 0) { code := 0x05, controller := .mbc2 } 2 0 :=
    declares_coded (by decide) rfl rfl rfl
  have loads {image : ByteArray} {kind : CartridgeKind} {romBanks ramBanks : Nat} :=
    (loading_is_exact image {} .discard).2.2.2.1 kind romBanks ramBanks
  have fails {image : ByteArray} {error : LoadError} :=
    ((loading_is_exact image {} .discard).2.1 error).mpr
  refine ⟨?_, fails ?_, ?_, fails ?_, fails ?_⟩
  · obtain ⟨cartridge, loaded, _, banks, _⟩ := loads ⟨plain, by simp [size_coded],
      by simp [size_coded], by decide, fun _ => .inl rfl⟩
    exact ⟨cartridge, loaded, banks⟩
  · rw [short.firstFailure_eq (by simp [size_coded]), size_coded]
    rfl
  · obtain ⟨cartridge, loaded, _, banks, _, ram, mapper⟩ := loads ⟨mbc1, by simp [size_coded],
      by simp [size_coded], by decide, nofun⟩
    exact ⟨cartridge, loaded, banks, by rw [ram, Array.size_replicate],
      (Option.some.inj mapper).symm⟩
  · rw [mbc2.firstFailure_eq (by simp [size_coded]), size_coded]
    rfl
  · have code := (byteAt_coded (by decide : 0x150 ≤ 0x8000) 0x04 0 0).1
    simp only [firstFailure, Check.all, List.findSome?, Check.failure, size_coded, code]
    rfl

end RomImage
end GameBoy
